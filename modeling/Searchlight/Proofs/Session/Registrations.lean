import Mathlib.Data.List.Induction
import Searchlight.Proofs.Client.Registrations
import Searchlight.Proofs.Session.Run
import Searchlight.Text.Stem

/-!
# Registrations in every session

What is stored of a field on a key server is what was registered last, by any client: on purpose, or
by a client that guesses the field because its own registry does not know it. So a registration is
lost in a run exactly if such a client writes a document with the field and guesses something else
(`registration_stays_iff`).
-/

namespace Searchlight.Session

open SetStore (KeySpace)

variable {s : Session} {es : List Event} {e : Event} {k : KeySpace} {field name : String}
  {config g : FieldConfig} {c : Client}

/-- A client of the store is asked to write a document, and guesses the field. -/
def Guesses (s : Session) (k : KeySpace) (field : String) (g : FieldConfig) (e : Event) : Prop :=
  ∃ name target doc c, e = .ask name (.write target doc) ∧ s.client? name = some c ∧
    c.driver.keys? = some k ∧ c.Guesses s.host target doc field g

/-- A field is registered on purpose, the store is removed, or others change what is stored of the
field. -/
inductive Resets (s : Session) (k : KeySpace) (field : String) : Event → Prop where
  | register {name : String} {c : Client} (config : FieldConfig) (hc : s.client? name = some c)
    (hk : c.driver.keys? = some k) : Resets s k field (.ask name (.registerField field config))
  | destroy {name : String} {c : Client} (hc : s.client? name = some c)
    (hk : c.driver.keys? = some k) : Resets s k field (.ask name .destroy)
  | others {change : SetStore.Server → SetStore.Server}
    (h : (change s.host.server).config? k field ≠ s.host.server.config? k field) :
    Resets s k field (.server change)

theorem validStem_after (host : Host) (es : List Event) :
    Holds (fun _ c => c.driver.HasValidStem) (fun _ => True) ((new host).after es) := by
  have hkept : SetStore.Kept fun _ => True :=
    SetStore.kept_of_given (fun _ _ _ _ => trivial) fun _ _ _ _ _ _ => trivial
  have hinvariant := hkept.invariant
    (fun k _ name config => SetStore.Store.keeps_registerField_server name config fun _ _ _ => trivial)
    (fun k _ => SetStore.Store.keeps_destroy_server fun _ _ _ _ => trivial)
  exact holds_after hinvariant trivial fun _ _ _ _ => trivial

theorem apply_ask {r : Client.Request} (hc : s.client? name = some c) :
    ∃ n, s.names.get? name = some n ∧ s.held.lookup n = some c ∧
      s.apply (.ask name r) =
        s.put n (r.perform.after (c, s.host)).1 (r.perform.after (c, s.host)).2 := by
  obtain ⟨n, hn, hlookup⟩ := Option.bind_eq_some_iff.1 hc
  refine ⟨n, hn, hlookup, ?_⟩
  simp only [Session.apply, Session.run, hn, Option.bind_some, runAt, hlookup, Option.map_some,
    Action.after]
  cases r.perform (c, s.host) <;> rfl

/-- A request that neither resets what is stored of a field nor guesses the field leaves it. -/
theorem keeps_config_perform (hk : KeySpace.IsValidStem k.stem) {r : Client.Request} {n : Nat}
    (hasks : Asks s e n r) (hlookup : s.held.lookup n = some c) (hd : c.driver.HasValidStem)
    (hconfig : s.host.server.config? k field = some config) (he : ¬s.Resets k field e)
    (hguess : ∀ g, ¬s.Guesses k field g e) :
    (r.perform.after (c, s.host)).1.driver.HasValidStem ∧
      (r.perform.after (c, s.host)).2.server.config? k field = some config := by
  have hkept := SetStore.kept_config hk field config
  have hclient {name : String} (hn : s.names.get? name = some n) : s.client? name = some c := by
    rw [client?, hn, Option.bind_some, hlookup]
  have hstore {y : Client × Host} (hy : Client.Along
      (Driver.OnStore c.driver.keys? fun v => v.config? k field = some config) y) :
      y.1.driver.HasValidStem ∧ y.2.server.config? k field = some config :=
    ⟨Driver.hasValidStem_congr hy.1 hd, hy.2⟩
  cases r with
  | question q =>
    refine (Client.keeps_asking (fun hx => Client.keeps_drive (hkept.keeps_calm hx))
      Client.keeps_translate q fun hx => Client.keeps_drive ?_).after (s := (c, s.host)) ⟨hd, hconfig⟩
    cases hx with
    | delete id => exact hkept.keeps_delete id
    | commit => exact Driver.keeps_commit_server
  | write target doc =>
    cases hasks with
    | ask hn =>
      obtain ⟨hvalid, config', hafter, -, hsame⟩ := Client.config?_write hk hd hconfig target doc
      rw [hsame fun g hstore hg => hguess g ⟨_, target, doc, c, rfl, hclient hn, hstore, hg⟩] at hafter
      rw [Client.Request.perform, Client.after_void]
      exact ⟨hvalid, hafter⟩
  | registerField field' config' =>
    cases hasks with
    | ask hn =>
      have hkeeps : Action.Keeps
          (Driver.OnStore c.driver.keys? fun v => v.config? k field = some config)
          (Driver.registerField field' config') fun _ => True :=
        Driver.keeps_work_store fun k' hk' => SetStore.Store.keeps_config_registerField hk
          (Driver.hasValidStem_iff.1 hd k' hk') (by
            rintro ⟨rfl, rfl⟩
            exact he (.register config' (hclient hn) hk'))
      exact hstore ((Client.keeps_registerField hkeeps).after (s := (c, s.host)) ⟨rfl, hconfig⟩)
  | close =>
    exact (hkept.opening.aside.keeps_close (Driver.keeps_close_server
      (J := fun v => v.config? k field = some config))).after (s := (c, s.host)) ⟨hd, hconfig⟩
  | destroy =>
    cases hasks with
    | ask hn =>
      have hkeeps : Action.Keeps
          (Driver.OnStore c.driver.keys? fun v => v.config? k field = some config)
          Driver.destroy fun _ => True :=
        Driver.keeps_work_store fun k' hk' => SetStore.Store.keeps_config_destroy hk
          (Driver.hasValidStem_iff.1 hd k' hk') (by
            rintro rfl
            exact he (.destroy (hclient hn) hk'))
      have haside : Driver.Aside
          (Driver.OnStore c.driver.keys? fun v => v.config? k field = some config) :=
        Driver.aside_server (P := fun d => d.keys? = c.driver.keys?)
          (J := fun v => v.config? k field = some config)
      exact hstore ((Client.keeps_destroy haside hkeeps).after (s := (c, s.host)) ⟨rfl, hconfig⟩)

/-- **One event** leaves what is stored of a field, unless it resets it or guesses the field. -/
theorem config?_apply (hk : KeySpace.IsValidStem k.stem)
    (hs : Holds (fun _ c => c.driver.HasValidStem) (fun h => h.server.config? k field = some config) s)
    (he : ¬s.Resets k field e) :
    ∃ config', Holds (fun _ c => c.driver.HasValidStem)
        (fun h => h.server.config? k field = some config') (s.apply e) ∧
      (∀ g, s.Guesses k field g e → config' = g) ∧
      ((∀ g, ¬s.Guesses k field g e) → config' = config) := by
  by_cases hguesses : ∃ g, s.Guesses k field g e
  · obtain ⟨g, name, target, doc, c, rfl, hc, hstore, hg⟩ := hguesses
    obtain ⟨n, hn, hlookup, happly⟩ := apply_ask (r := .write target doc) hc
    have hd := hs.1 _ (mem_held_of_lookup hlookup)
    obtain ⟨hvalid, config', hconfig', hguess, -⟩ := Client.config?_write hk hd hs.2 target doc
    rw [← Client.after_void] at hvalid hconfig'
    refine ⟨config', ?_, fun g' hg' => ?_, fun hno => ?_⟩
    · rw [happly]
      exact ⟨(Holds.put (P := fun _ c => c.driver.HasValidStem) (H := fun _ => True)
        ⟨hs.1, trivial⟩ (fun _ _ h => h) hvalid trivial).1, hconfig'⟩
    · obtain ⟨name', target', doc', c', heq, hc', hstore', hg'⟩ := hg'
      cases heq
      cases hc.symm.trans hc'
      exact hguess g' hstore' hg'
    · exact absurd ⟨name, target, doc, c, rfl, hc, hstore, hg⟩ (hno g)
  · refine ⟨config, ?_, fun g hg => absurd ⟨g, hg⟩ hguesses, fun _ => rfl⟩
    by_cases hserver : ∃ change, e = .server change
    · obtain ⟨change, rfl⟩ := hserver
      exact ⟨hs.1, (not_not.1 fun hne => he (.others hne)).trans hs.2⟩
    have hkept := SetStore.kept_config hk field config
    exact hs.apply (P := fun _ c => c.driver.HasValidStem) {
      stay := fun _ _ h => h
      ask := fun n r c hasks hlookup hd hconfig =>
        keeps_config_perform hk hasks hlookup hd hconfig he fun g hg => hguesses ⟨g, hg⟩
      release := fun _ c h hc hh =>
        hkept.opening.aside.keeps_releaseLease.after (s := (c, h)) ⟨hc, hh⟩
      connect := fun _ catalog backend options settings =>
        hkept.opening.keeps_connect catalog backend options settings
      drop := fun _ _ _ hc hh => holds_dropDriver hkept.opening hc hh
      server := fun h change hchange => absurd ⟨change, hchange⟩ hserver }

/-- **A run** that resets nothing has a configuration stored of the field all along, and it is the
same all along if no other one is guessed. -/
theorem config?_after (es : List Event) (hk : KeySpace.IsValidStem k.stem)
    (hs : Holds (fun _ c => c.driver.HasValidStem) (fun h => h.server.config? k field = some config) s)
    (hes : ∀ es₁ e es₂, es = es₁ ++ e :: es₂ → ¬(s.after es₁).Resets k field e) :
    ∃ config', Holds (fun _ c => c.driver.HasValidStem)
        (fun h => h.server.config? k field = some config') (s.after es) ∧
      ((∀ es₁ e es₂ g, es = es₁ ++ e :: es₂ → (s.after es₁).Guesses k field g e → g = config) →
        config' = config) := by
  induction es generalizing s config with
  | nil => exact ⟨config, hs, fun _ => rfl⟩
  | cons e es ih =>
    obtain ⟨config₁, hs₁, hguess, hsame⟩ := config?_apply hk hs (hes [] e es rfl)
    obtain ⟨config', hs', hsame'⟩ := ih hs₁ fun es₁ e' es₂ h => hes (e :: es₁) e' es₂ (h ▸ rfl)
    refine ⟨config', hs', fun hall => ?_⟩
    have hfirst : config₁ = config := by
      by_cases hno : ∃ g, s.Guesses k field g e
      · obtain ⟨g, hg⟩ := hno
        exact (hguess g hg).trans (hall [] e es g rfl hg)
      · exact hsame fun g hg => hno ⟨g, hg⟩
    exact (hsame' fun es₁ e' es₂ g h hg =>
      (hall (e :: es₁) e' es₂ g (h ▸ rfl) hg).trans hfirst.symm).trans hfirst

/-- **Lost registrations.** Once a client registered a field, its configuration is stored; and as
long as nobody registers the field on purpose, removes the store or changes the field otherwise, it
stays exactly if no client guesses another one for the field as it writes a document. Each guess is
what is stored from then on. -/
theorem registration_stays_iff (host : Host) (before : List Event) (hs : s = (new host).after before)
    (hc : s.client? name = some c) (hstore : c.driver.keys? = some k)
    (hregister : (Client.registerField field config).outcome (c, s.host) = .ok ()) {s' : Session}
    (hs' : s' = s.apply (.ask name (.registerField field config)))
    (hes : ∀ es₁ e es₂, es = es₁ ++ e :: es₂ → ¬(s'.after es₁).Resets k field e) :
    s'.host.server.config? k field = some config ∧
      ((∀ es₁ es₂, es = es₁ ++ es₂ → (s'.after es₁).host.server.config? k field = some config) ↔
        ∀ es₁ e es₂ g, es = es₁ ++ e :: es₂ → (s'.after es₁).Guesses k field g e → g = config) ∧
      ∀ es₁ e es₂ g, es = es₁ ++ e :: es₂ → (s'.after es₁).Guesses k field g e →
        (s'.after (es₁ ++ [e])).host.server.config? k field = some g := by
  obtain ⟨n, -, hlookup, happly⟩ := apply_ask (r := .registerField field config) hc
  have hvalid := hs ▸ (validStem_after host before).1
  have hd := hvalid _ (mem_held_of_lookup hlookup)
  have hk := Driver.hasValidStem_iff.1 hd k hstore
  have hregistered : Holds (fun _ c => c.driver.HasValidStem)
      (fun h => h.server.config? k field = some config) s' := by
    obtain ⟨hd', hconfig⟩ := Client.config?_registerField hk hd hstore hregister
    rw [hs', happly]
    exact ⟨(Holds.put (P := fun _ c => c.driver.HasValidStem) (H := fun _ => True)
      ⟨hvalid, trivial⟩ (fun _ _ h => h) hd' trivial).1, hconfig⟩
  -- Up to any event there is a configuration, and a guess takes its place.
  have hguessed {es₁ : List Event} {e : Event} {es₂ : List Event} {g : FieldConfig}
      (h : es = es₁ ++ e :: es₂) (hg : (s'.after es₁).Guesses k field g e) :
      (s'.after (es₁ ++ [e])).host.server.config? k field = some g := by
    obtain ⟨config₁, hs₁, -⟩ := config?_after es₁ hk hregistered
      fun es₃ e' es₄ h' => hes es₃ e' (es₄ ++ e :: es₂) (by rw [h, h', List.append_assoc]; rfl)
    obtain ⟨config₂, hs₂, hguess, -⟩ := config?_apply hk hs₁ (hes es₁ e es₂ h)
    rw [← hguess g hg, after_append]
    exact hs₂.2
  refine ⟨hregistered.2, ⟨fun hstays es₁ e es₂ g h hg => ?_, fun hall es₁ es₂ h => ?_⟩,
    fun es₁ e es₂ g => hguessed⟩
  · have hafter := hstays (es₁ ++ [e]) es₂ (by rw [h, List.append_assoc]; rfl)
    exact Option.some_inj.1 ((hguessed h hg).symm.trans hafter)
  · obtain ⟨config', hs₁, hsame⟩ := config?_after es₁ hk hregistered
      fun es₃ e es₄ h' => hes es₃ e (es₄ ++ es₂) (by rw [h, h', List.append_assoc]; rfl)
    rw [hs₁.2, hsame fun es₃ e es₄ g h' hg =>
      hall es₃ e (es₄ ++ es₂) g (by rw [h, h', List.append_assoc]; rfl) hg]

def twoClients : List Event :=
  [.openClient "a" .builtin "redis" .none .default,
    .openClient "b" .builtin "redis" .none .default]

def registersCode : Event := .ask "a" (.registerField "code" .exactMatch)

def writesCode : Event := .ask "b" (.write .fresh ⟨[("code", .text "X 1")]⟩)

/-- The field is stored for exact search, and then as free text: it does not stay. -/
theorem registration_stays_iff_guessed :
    ∃ k : KeySpace, ∃ s' : Session, s' = (oneDirectory.after twoClients).apply registersCode ∧
      s'.host.server.config? k "code" = some .exactMatch ∧
      (s'.after [writesCode]).host.server.config? k "code" = some .freeText ∧
      ¬∀ es₁ es₂, [writesCode] = es₁ ++ es₂ →
        (s'.after es₁).host.server.config? k "code" = some .exactMatch := by
  have ha : ((oneDirectory.after twoClients).client? "a").map (fun c => (c.driver.keys?,
      decide ((Client.registerField "code" .exactMatch).outcome
        (c, (oneDirectory.after twoClients).host) = .ok ()))) =
      some (some ⟨SetStore.defaultStem⟩, true) := by
    decide +kernel
  have hb : (((oneDirectory.after twoClients).apply registersCode).client? "b").map (fun c =>
      (c.driver.keys?, decide (c.policy = .guess), c.registry.resolve "code",
        c.registry.guesser "code" (.text "X 1"),
        ((Client.prepareWrite .fresh ⟨[("code", .text "X 1")]⟩).outcome
          (c, ((oneDirectory.after twoClients).apply registersCode).host)).isOk)) =
      some (some ⟨SetStore.defaultStem⟩, true, none, .freeText, true) := by
    decide +kernel
  obtain ⟨c, hc, ha⟩ := Option.map_eq_some_iff.1 ha
  obtain ⟨c', hc', hb⟩ := Option.map_eq_some_iff.1 hb
  simp only [Prod.mk.injEq, decide_eq_true_eq] at ha hb
  obtain ⟨hstore, hok⟩ := ha
  obtain ⟨hstore', hpolicy, hunknown, hguess, hprepared⟩ := hb
  have hes : ∀ es₁ e es₂, [writesCode] = es₁ ++ e :: es₂ →
      ¬(((oneDirectory.after twoClients).apply registersCode).after es₁).Resets
        ⟨SetStore.defaultStem⟩ "code" e := by
    intro es₁ e es₂ h hresets
    obtain ⟨rfl, rfl, rfl⟩ : es₁ = [] ∧ e = writesCode ∧ es₂ = [] := by
      cases es₁ <;> simp_all
    cases hresets
  obtain ⟨hregistered, hstays, hguessed⟩ := registration_stays_iff
    (.initial Text.stems ["d"] (.fresh true) "") twoClients rfl hc hstore hok rfl hes
  have hwrites : ((oneDirectory.after twoClients).apply registersCode).Guesses _ "code" .freeText
      writesCode :=
    ⟨"b", .fresh, _, c', rfl, hc', hstore', {
      policy := hpolicy
      named := List.mem_singleton_self _
      unknown := hunknown
      guess := hguess
      prepared := by
        cases hx : (Client.prepareWrite .fresh ⟨[("code", .text "X 1")]⟩).outcome
            (c', ((oneDirectory.after twoClients).apply registersCode).host) with
        | ok x => exact ⟨x, rfl⟩
        | error e => simp [hx, Except.isOk, Except.toBool] at hprepared }⟩
  refine ⟨_, _, rfl, hregistered, hguessed [] _ [] _ rfl hwrites, fun h => ?_⟩
  exact absurd (hstays.1 h [] _ [] _ rfl hwrites) (by decide)

end Searchlight.Session
