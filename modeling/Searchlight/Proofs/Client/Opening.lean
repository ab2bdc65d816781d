import Searchlight.Proofs.Client.Ending
import Searchlight.Proofs.Driver.Reopening

/-!
# How clients are opened

To open a client, its driver is opened, the lease taken and the schema read; where one of them fails,
what was done before is undone (`connect_cases`).
-/

namespace Searchlight

namespace Host

def leased (h : Host) (lease : Option String) : Host :=
  match lease with
  | none => h
  | some key => { h with leases := h.leases.add key }

variable {h h' : Host} {lease : Option String}

@[simp] theorem volume_leased : (h.leased lease).volume = h.volume := by
  cases lease <;> rfl

@[simp] theorem server_leased : (h.leased lease).server = h.server := by
  cases lease <;> rfl

theorem contains_leased {key : String} : (h.leased lease).leases.contains key = true ↔
    lease = some key ∨ h.leases.contains key = true := by
  cases lease with
  | none => simp [leased]
  | some key' => simp [leased, TextSet.add]

theorem contains_released {key : String} : (h.released lease).leases.contains key = true ↔
    lease ≠ some key ∧ h.leases.contains key = true := by
  cases lease with
  | none => simp [released]
  | some key' => simp [released, KeyMap.contains_erase]

theorem leases_released_of_leased (hfree : ∀ key ∈ lease, h.leases.contains key = false)
    (hsame : h'.leases = (h.leased lease).leases) : (h'.released lease).leases = h.leases := by
  refine TextSet.ext fun key => Bool.eq_iff_iff.2 ?_
  rw [contains_released, hsame, contains_leased]
  refine ⟨fun ⟨hne, hkey⟩ => hkey.resolve_left hne, fun hkey => ⟨?_, .inr hkey⟩⟩
  rintro rfl
  cases hkey.symm.trans (hfree key rfl)

end Host

namespace Client

open Searchlight.Action (FailsAs)

variable {catalog : Catalog} {backend : String} {o : BackendOptions} {settings : ClientSettings}
  {c : Client} {d : Driver} {h h' : Host} {lease : Option String} {readonly : Bool}

def leaseOf (readonly : Bool) (d : Driver) (h : Host) : Option String :=
  if d.capabilities.singleWriter && !readonly then d.storeKey h else none

def started (readonly : Bool) (settings : ClientSettings) (d : Driver) (lease : Option String)
    (schema : Schema) : Client :=
  ⟨d, .new d.capabilities.schemaTier schema (d.capabilities.schemaTier = .fixed && d.isFrozen)
    settings.guesser, settings.unknownFields, settings.pageSize, readonly, false, 0, .empty, lease⟩

theorem acquireLease_run :
    (lease.forM fun key => Action.second (Host.acquireLease key) : DriverWork Unit) (d, h) =
      match lease.filter h.leases.contains with
      | some key => .error (.exclusiveLockHeld key) (d, h)
      | none => .ok () (d, h.leased lease) := by
  cases lease with
  | none => rfl
  | some key =>
    change Action.second (Host.acquireLease key) (d, h) = _
    rw [Action.second, Action.focus, Host.acquireLease, Action.get_bind, Option.filter_some]
    by_cases hheld : h.leases.contains key = true
    · simp [hheld]
    · simp [hheld, Host.leased]

theorem start_run : start readonly settings (d, h) =
    match (leaseOf readonly d h).filter h.leases.contains with
    | some key => .error (.exclusiveLockHeld key) (d, h)
    | none =>
      match Driver.schemaSnapshot (d, h.leased (leaseOf readonly d h)) with
      | .ok schema (d', h') =>
        .ok (started readonly settings d' (leaseOf readonly d h) schema) (d', h')
      | .error e (d', h') => .error e (d', h'.released (leaseOf readonly d h)) := by
  have hrelease (lease : Option String) (d : Driver) (h : Host) :
      (lease.forM fun key => Action.second (Host.releaseLease key) : DriverWork Unit) (d, h) =
        .ok () (d, h.released lease) := by
    cases lease <;> rfl
  rw [start, Action.get_bind]
  dsimp only
  rw [← leaseOf, Action.bind_run, acquireLease_run]
  cases (leaseOf readonly d h).filter h.leases.contains with
  | some key => rfl
  | none =>
    dsimp only
    rw [Action.bind_run, Action.orUndo, Action.tryCatch_run]
    cases Driver.schemaSnapshot (d, h.leased (leaseOf readonly d h)) with
    | ok schema x => rfl
    | error e x => simp only [Action.bind_run, hrelease, Action.throw_run]

/-- **To open a client**, its driver is opened, unless that fails; then the lease is taken, unless
another has it; then the schema is read. -/
theorem connect_cases (catalog : Catalog) (backend : String) (o : BackendOptions)
    (settings : ClientSettings) (h : Host) :
    (∃ e h', catalog.openStore backend o h = .error e h' ∧
      connect catalog backend o settings h = .error e h') ∨
    ∃ d h₁, catalog.openStore backend o h = .ok d h₁ ∧
      ((∃ key, leaseOf o.readonly d h₁ = some key ∧ h₁.leases.contains key = true ∧
        connect catalog backend o settings h =
          .error (.exclusiveLockHeld key) (Driver.drop.after (d, h₁)).2) ∨
      (∀ key ∈ leaseOf o.readonly d h₁, h₁.leases.contains key = false) ∧
        ((∃ e d' h', Driver.schemaSnapshot (d, h₁.leased (leaseOf o.readonly d h₁)) =
            .error e (d', h') ∧
          connect catalog backend o settings h =
            .error e (Driver.drop.after (d', h'.released (leaseOf o.readonly d h₁))).2) ∨
        ∃ schema d' h', Driver.schemaSnapshot (d, h₁.leased (leaseOf o.readonly d h₁)) =
            .ok schema (d', h') ∧
          connect catalog backend o settings h =
            .ok (started o.readonly settings d' (leaseOf o.readonly d h₁) schema) h')) := by
  rw [connect, Action.bind_run]
  cases hopen : catalog.openStore backend o h with
  | error e h' => exact .inl ⟨e, h', rfl, rfl⟩
  | ok d h₁ =>
    refine .inr ⟨d, h₁, rfl, ?_⟩
    have hundo : (start o.readonly settings).orUndo Driver.drop (d, h₁) =
        match start o.readonly settings (d, h₁) with
        | .ok c x => .ok c x
        | .error e x => .error e (Driver.drop.after x) := by
      rw [Action.orUndo_run Driver.failsAs_drop]
      cases start o.readonly settings (d, h₁) <;> rfl
    rw [start_run] at hundo
    simp only [Action.get_bind]
    cases hheld : (leaseOf o.readonly d h₁).filter h₁.leases.contains with
    | some key =>
      obtain ⟨hlease, hkey⟩ := Option.filter_eq_some_iff.1 hheld
      refine .inl ⟨key, hlease, hkey, ?_⟩
      rw [hheld] at hundo
      rw [hundo]
      rfl
    | none =>
      rw [hheld] at hundo
      refine .inr ⟨fun key hkey => ?_, ?_⟩
      · have := Option.filter_eq_none_iff.1 hheld key hkey
        simpa using this
      · cases hread : Driver.schemaSnapshot (d, h₁.leased (leaseOf o.readonly d h₁)) with
        | error e x =>
          rw [hread] at hundo
          refine .inl ⟨e, x.1, x.2, rfl, ?_⟩
          rw [hundo]
          rfl
        | ok schema x =>
          rw [hread] at hundo
          refine .inr ⟨schema, x.1, x.2, rfl, ?_⟩
          rw [hundo]
          rfl

/-- A client takes over the driver that was opened, once it has read the schema. -/
theorem connect_eq_ok (hrun : connect catalog backend o settings h = .ok c h') :
    ∃ d h₁ h₂, catalog.openStore backend o h = .ok d h₁ ∧
      h₂.volume = h₁.volume ∧ h₂.server = h₁.server ∧
      Driver.schemaSnapshot (d, h₂) = .ok c.registry.schema (c.driver, h') ∧
      c.readonly = o.readonly ∧ c.closed = false := by
  obtain ⟨e, h₁, -, hfails⟩ | ⟨d, h₁, hopen, ⟨key, -, -, hfails⟩ | ⟨-, ⟨e, d', h₂, -, hfails⟩ |
    ⟨schema, d', h₂, hread, hruns⟩⟩⟩ := connect_cases catalog backend o settings h
  · cases hrun.symm.trans hfails
  · cases hrun.symm.trans hfails
  · cases hrun.symm.trans hfails
  · cases hrun.symm.trans hruns
    exact ⟨d, h₁, _, hopen, Host.volume_leased, Host.server_leased, hread, rfl, rfl⟩

end Client

end Searchlight
