import Searchlight.Proofs.Client.Invariant
import Searchlight.Proofs.Client.Writing
import Searchlight.Proofs.SetStore.Registrations

/-!
# Registrations by writing

A client that writes a document registers the fields that its own registry does not know, as it
guesses them (`Client.Guesses`). On a key server that puts the guess in the place of whatever is
stored of the field (`config?_write`): the registry was read when the client was opened, and does
not know what others registered since.
-/

namespace Searchlight

open Searchlight.Action (Keeps)
open SetStore (KeySpace)

namespace Driver

variable {k : KeySpace} {h : Host} {d : Driver} {x : Driver × Host} {name : String}
  {config g : FieldConfig} {fields : List (String × FieldConfig)}

theorem config?_registerField (hd : d.HasValidStem) (hk : KeySpace.IsValidStem k.stem)
    (hrun : registerField name config (d, h) = .ok () x) :
    x.1.keys? = d.keys? ∧ ∀ name', x.2.server.config? k name' =
      if d.keys? = some k ∧ name = name' then some config else h.server.config? k name' := by
  cases d with
  | memory s => cases hrun; simp [keys?]
  | limited key s => cases hrun; simp [keys?]
  | disk s =>
    rw [registerField_disk] at hrun
    split at hrun <;> cases hrun
    simp [keys?]
  | sets s =>
    rw [registerField, work_sets] at hrun
    split at hrun
    · rename_i y hs
      cases hrun
      obtain ⟨-, hy⟩ := SetStore.Store.registerField_eq_ok hs
      refine ⟨by rw [hy]; rfl, fun name' => ?_⟩
      rw [SetStore.Store.config?_registerField hd hk hs]
      simp [keys?]
    · cases hrun

theorem config?_registerFields_of_notMem (name : String) (hd : d.HasValidStem)
    (hk : KeySpace.IsValidStem k.stem)
    (hrun : registerFields fields (d, h) = .ok () x) :
    x.1.keys? = d.keys? ∧ ((d.keys? = some k → name ∉ fields.map (·.1)) →
      x.2.server.config? k name = h.server.config? k name) := by
  induction fields generalizing d h with
  | nil =>
    cases hrun
    exact ⟨rfl, fun _ => rfl⟩
  | cons f fields ih =>
    rw [registerFields_cons, Action.bind_eq_ok] at hrun
    obtain ⟨_, ⟨d₁, h₁⟩, hf, hrun⟩ := hrun
    obtain ⟨hkeys, hconfig⟩ := config?_registerField hd hk hf
    dsimp only at hkeys hconfig
    obtain ⟨hkeys', hconfig'⟩ := ih (hasValidStem_congr hkeys hd) hrun
    refine ⟨hkeys'.trans hkeys, fun hnot => ?_⟩
    rw [hkeys] at hconfig'
    rw [hconfig' fun hk' hmem => hnot hk' (List.mem_cons_of_mem _ hmem), hconfig, if_neg]
    rintro ⟨hk', rfl⟩
    exact hnot hk' List.mem_cons_self

/-- A batch that is taken puts the configurations of its fields. -/
theorem config?_registerFields_of_mem (hd : d.HasValidStem) (hk : KeySpace.IsValidStem k.stem)
    (hrun : registerFields fields (d, h) = .ok () x) (hfields : (fields.map (·.1)).Nodup)
    (hkeys : d.keys? = some k) (hmem : (name, g) ∈ fields) :
    x.2.server.config? k name = some g := by
  induction fields generalizing d h with
  | nil => cases hmem
  | cons f fields ih =>
    rw [registerFields_cons, Action.bind_eq_ok] at hrun
    obtain ⟨_, ⟨d₁, h₁⟩, hf, hrun⟩ := hrun
    rw [List.map_cons, List.nodup_cons] at hfields
    obtain ⟨hkeys₁, hconfig⟩ := config?_registerField hd hk hf
    dsimp only at hkeys₁ hconfig
    have hd₁ := hasValidStem_congr hkeys₁ hd
    rcases List.mem_cons.1 hmem with rfl | hmem
    · rw [(config?_registerFields_of_notMem _ hd₁ hk hrun).2 fun _ => hfields.1, hconfig,
        if_pos ⟨hkeys, rfl⟩]
    · exact ih hd₁ hrun hfields.2 (hkeys₁.trans hkeys) hmem

end Driver

namespace Client

variable {c : Client} {h : Host} {target : WriteTarget} {doc : Document} {k : KeySpace}
  {name : String} {config g : FieldConfig}

theorem config?_registerField (hk : KeySpace.IsValidStem k.stem) (hd : c.driver.HasValidStem)
    (hstore : c.driver.keys? = some k)
    (hok : (registerField name config).outcome (c, h) = .ok ()) :
    ((registerField name config).after (c, h)).1.driver.HasValidStem ∧
      ((registerField name config).after (c, h)).2.server.config? k name = some config := by
  obtain ⟨⟨c', h'⟩, hrun⟩ := Action.outcome_eq_ok.1 hok
  rw [Action.after, hrun]
  obtain ⟨d, r, rfl, hregister, -⟩ := registerNew_eq_ok (registerField_eq_ok hrun)
  obtain ⟨hkeys, -⟩ := Driver.config?_registerFields_of_notMem name hd hk hregister
  exact ⟨Driver.hasValidStem_congr hkeys hd, Driver.config?_registerFields_of_mem hd hk hregister
    (List.nodup_singleton _) hstore (List.mem_singleton_self _)⟩

/-- A write has the client register a field as it guesses it: the registry does not know the field,
and nothing keeps the document from being indexed. -/
structure Guesses (c : Client) (h : Host) (target : WriteTarget) (doc : Document) (name : String)
    (g : FieldConfig) : Prop where
  policy : c.policy = .guess
  named : name ∈ doc.names
  unknown : c.registry.resolve name = none
  guess : c.registry.guesser name ((doc.values name).headD (.text "")) = g
  prepared : ∃ x, (prepareWrite target doc).outcome (c, h) = .ok x

/-- **What a write does to what is stored of a field**: nothing, or it puts the guess of the client
in its place. -/
theorem config?_write (hk : KeySpace.IsValidStem k.stem) (hd : c.driver.HasValidStem)
    (hconfig : h.server.config? k name = some config) (target : WriteTarget) (doc : Document) :
    ((write target doc).after (c, h)).1.driver.HasValidStem ∧ ∃ config',
      ((write target doc).after (c, h)).2.server.config? k name = some config' ∧
        (∀ g, c.driver.keys? = some k → c.Guesses h target doc name g → config' = g) ∧
        ((∀ g, c.driver.keys? = some k → ¬c.Guesses h target doc name g) → config' = config) := by
  cases hprepare : prepareWrite target doc (c, h) with
  | error e x =>
    obtain ⟨c', h'⟩ := x
    obtain ⟨d, ws, rfl, rfl, hleaves⟩ := prepareWrite_eq_error hprepare
    rw [Action.after, (refused_write_keeps hprepare).1]
    refine ⟨?_, config, hconfig, fun g _ hguesses => ?_, fun _ => rfl⟩
    · obtain ⟨-, rfl⟩ | ⟨-, s, m, -, -, rfl, -⟩ := hleaves
      · exact hd
      · trivial
    · obtain ⟨x, hx⟩ := hguesses.prepared
      rw [Action.outcome, hprepare] at hx
      cases hx
  | ok y x =>
    obtain ⟨plan, p⟩ := y
    obtain ⟨c', h'⟩ := x
    obtain ⟨-, -, hplan, -, ws, hnew⟩ := prepareWrite_eq_ok hprepare
    obtain ⟨d, r, rfl, hregister, -⟩ := registerNew_eq_ok hnew
    have hnodup := Registry.plan_nodup hplan
    have hmem (g : FieldConfig) : c.Guesses h target doc name g ↔ (name, g) ∈ plan.newFields := by
      rw [Registry.mem_newFields hplan]
      exact ⟨fun hg => ⟨hg.policy, hg.named, hg.unknown, hg.guess⟩, fun hg =>
        ⟨hg.1, hg.2.1, hg.2.2.1, hg.2.2.2, _, Action.outcome_eq_ok.2 ⟨_, hprepare⟩⟩⟩
    obtain ⟨hkeys, hnot⟩ := Driver.config?_registerFields_of_notMem name
      (h := { h with warnings := ws }) hd hk hregister
    have hd' := Driver.hasValidStem_congr hkeys hd
    -- What is stored once the fields are registered stays.
    have hplace {config' : FieldConfig} (hconfig' : h'.server.config? k name = some config') :
        ((write target doc).after (c, h)).1.driver.HasValidStem ∧
          ((write target doc).after (c, h)).2.server.config? k name = some config' := by
      have hkept : Keeps (Along (Driver.OnKeys fun v => v.config? k name = some config'))
          (place plan p target.id?) fun _ => True :=
        (keeps_drive ((SetStore.kept_config hk name config').keeps_index p target.id?)).seq fun _ =>
          Keeps.seq (.modify fun _ h => h) fun _ => .pure trivial
      have hafter := hkept.after (s := ({ c with driver := d, registry := r }, h')) ⟨hd', hconfig'⟩
      have hwrite : (write target doc).after (c, h) =
          (place plan p target.id?).after ({ c with driver := d, registry := r }, h') := by
        rw [Action.after, write, Action.bind_of_ok hprepare]
        rfl
      rw [hwrite]
      exact hafter
    by_cases hguessed : ∃ g, c.driver.keys? = some k ∧ (name, g) ∈ plan.newFields
    · obtain ⟨g, hstore, hg⟩ := hguessed
      have hput := Driver.config?_registerFields_of_mem (h := { h with warnings := ws }) hd hk
        hregister hnodup hstore hg
      obtain ⟨hvalid, hafter⟩ := hplace hput
      refine ⟨hvalid, g, hafter, fun g' _ hg' => ?_, fun hno => ?_⟩
      · exact congrArg Prod.snd
          (List.inj_on_of_nodup_map hnodup hg ((hmem g').1 hg') rfl)
      · exact absurd ((hmem g).2 hg) (hno g hstore)
    · have hsame : h'.server.config? k name = some config := by
        refine (hnot fun hstore hname => hguessed ?_).trans hconfig
        obtain ⟨f, hf, rfl⟩ := List.mem_map.1 hname
        exact ⟨f.2, hstore, hf⟩
      obtain ⟨hvalid, hafter⟩ := hplace hsame
      exact ⟨hvalid, config, hafter,
        fun g hstore hg => absurd ⟨g, hstore, (hmem g).1 hg⟩ hguessed, fun _ => rfl⟩

end Client

end Searchlight
