import Searchlight.Proofs.Client.Recounting
import Searchlight.Proofs.Client.Writing
import Searchlight.Proofs.Document.Grouping
import Searchlight.Proofs.Schema.Resolving
import Searchlight.Text.Stem

/-!
# Unknown fields that are left out

A client may ignore the fields of a document that its registry does not know. To write a document is
then to write its known part (`write_known`), whatever else there is in the document and wherever it
stands: the fields that are left out are counted if the write succeeds, they may be warned of, and
nothing else tells the two apart.
-/

namespace Searchlight

open Searchlight.Action (Parallel)

namespace UnknownFieldPolicy

variable {p : UnknownFieldPolicy}

/-- Unknown fields are left out of documents. -/
def Ignores (p : UnknownFieldPolicy) : Prop := p = ignore ∨ p = ignoreWarn

theorem Ignores.ne_guess (h : p.Ignores) : p ≠ guess := by
  rcases h with rfl | rfl <;> exact nofun

theorem Ignores.ne_reject (h : p.Ignores) : p ≠ reject := by
  rcases h with rfl | rfl <;> exact nofun

end UnknownFieldPolicy

namespace Registry

open Document (leading keptConfig)

variable {r : Registry} {doc : Document} {policy : UnknownFieldPolicy} {name : String}

/-- The registry has a field of the name. -/
def knows (r : Registry) (name : String) : Bool := (r.resolve name).isSome

section
variable (hpolicy : policy.Ignores)
include hpolicy

theorem plan_ignoring :
    r.plan doc policy = .ok (r.planOf policy (leading doc.pairs)) := by
  rw [plan_run, if_neg hpolicy.ne_reject]

theorem newFields_planOf {ps : List (String × Value)} : (r.planOf policy ps).newFields = [] :=
  if_neg hpolicy.ne_guess

/-- What a plan leaves out are the names of the unknown fields, each of them once. -/
theorem ignored_planOf :
    (r.planOf policy (leading doc.pairs)).ignored = (doc.only fun name => !r.knows name).names := by
  have hunknown : (r.unknown (leading doc.pairs)).map (·.1) =
      ((leading doc.pairs).map (·.1)).filter fun name => !r.knows name := by
    rw [List.filter_map, unknown]
    congr 1
    exact List.filter_congr fun p _ => by simp [knows]
  rw [Document.names_only, Document.names, ← Document.map_fst_leading, ← hunknown]
  exact if_neg hpolicy.ne_guess

theorem ignored_planOf_known :
    (r.planOf policy (leading (doc.only r.knows).pairs)).ignored = [] := by
  rw [ignored_planOf hpolicy, Document.names_only_not]

theorem keptConfig_planOf (hname : name ∈ doc.names) :
    keptConfig (r.planOf policy (leading doc.pairs)) name =
      (r.resolve name).filter fun config => !config.isDiscarded := by
  have hnames : (leading doc.pairs).map (·.1) = doc.names := Document.map_fst_leading doc.pairs
  rw [← hnames] at hname
  obtain ⟨p, hp, rfl⟩ := List.mem_map.1 hname
  have hget : (r.planOf policy (leading doc.pairs)).fields.get? p.1 =
      some (r.resolution policy p) :=
    (get?_planOf (hnames ▸ doc.nodup_names)).2 (List.mem_map_of_mem hp)
  rw [keptConfig, hget, resolution]
  cases r.resolve p.1 with
  | none =>
    dsimp only
    rw [if_neg hpolicy.ne_guess]
    rfl
  | some config => cases hc : config.isDiscarded <;> simp [hc, Option.filter]

/-- What is left out of a document makes no difference to how it is settled. -/
theorem prepare_known (kinds : List ValueKind) (backend : String) :
    doc.prepare (r.planOf policy (leading doc.pairs)) kinds backend =
      (doc.only r.knows).prepare (r.planOf policy (leading (doc.only r.knows).pairs)) kinds
        backend := by
  refine Document.prepare_only kinds backend (fun name hname hknown => ?_)
    fun name hname hunknown => ?_
  · have hpart : name ∈ (doc.only r.knows).names := by
      rw [Document.names_only]
      exact List.mem_filter.2 ⟨hname, hknown⟩
    rw [keptConfig_planOf hpolicy hname, keptConfig_planOf hpolicy hpart]
  · have hnone : r.resolve name = none := by simpa [knows] using hunknown
    rw [keptConfig_planOf hpolicy hname, hnone]
    rfl

end

end Registry

namespace Client

open Document (leading)

variable {c : Client} {h : Host} {target : WriteTarget} {doc : Document}

def check (target : WriteTarget) : ClientWork Unit := do
  ensureWritable target.operation
  ensureVacant target

theorem check_run (target : WriteTarget) (c : Client) (h : Host) :
    (∃ e, check target (c, h) = .error e (c, h)) ∨ check target (c, h) = .ok () (c, h) := by
  rw [check, Action.bind_run]
  cases hwritable : ensureWritable target.operation (c, h) with
  | error e x =>
    obtain ⟨rfl, -⟩ := ensureWritable_eq_error hwritable
    exact .inl ⟨e, rfl⟩
  | ok _ x =>
    obtain ⟨rfl, -, -⟩ := ensureWritable_eq_ok hwritable
    rcases ensureVacant_run target c h with hok | ⟨e, herror, -⟩
    · exact .inr hok
    · exact .inl ⟨e, herror⟩

theorem write_of_check_error {e : Error} (hcheck : check target (c, h) = .error e (c, h)) :
    write target doc (c, h) = .error e (c, h) := by
  rw [write, Action.bind_eq_error, prepareWrite, Action.bind_eq_error]
  rw [check, Action.bind_eq_error] at hcheck
  rcases hcheck with hwritable | ⟨a, x, hwritable, hvacant⟩
  · exact .inl (.inl hwritable)
  · exact .inl (.inr ⟨a, x, hwritable, Action.bind_eq_error.2 (.inl hvacant)⟩)

theorem write_of_plan {plan : DocumentPlan} (hcheck : check target (c, h) = .ok () (c, h))
    (hplan : c.registry.plan doc c.policy = .ok plan) (hnew : plan.newFields = []) :
    write target doc (c, h) =
      match doc.prepare plan c.driver.capabilities.valueKinds c.driver.name with
      | .error e => .error e (recounted id (· ++ Registry.planWarnings c.policy plan) (c, h))
      | .ok prepared => place plan prepared target.id?
          (recounted id (· ++ Registry.planWarnings c.policy plan) (c, h)) := by
  obtain ⟨_, x, hwritable, hvacant⟩ := Action.bind_eq_ok.1 hcheck
  rw [write, Action.bind_run, prepareWrite, Action.bind_run, hwritable]
  dsimp only
  rw [Action.bind_run, hvacant]
  simp only [Action.bind_run, Action.get_run, hplan, Action.ofExcept_run, Action.second,
    Action.focus, Host.warn, Action.modify_run]
  cases doc.prepare plan c.driver.capabilities.valueKinds c.driver.name with
  | error e => rfl
  | ok prepared =>
    simp only [registerNew_run, hnew, List.isEmpty_nil, if_true, Action.pure_run]
    rfl

theorem place_run (plan : DocumentPlan) (prepared : PreparedDocument) (id : Option String) :
    place plan prepared id (c, h) =
      match Driver.index prepared id (c.driver, h) with
      | .ok given (d, h) => .ok given
          ({ c with
              driver := d
              registry := c.registry.freeze
              ignored := c.ignored + plan.ignored.length }, h)
      | .error e (d, h) => .error e ({ c with driver := d }, h) := by
  rw [place, Action.bind_run, drive_run]
  cases Driver.index prepared id (c.driver, h) <;> rfl

/-- What a plan leaves out makes no difference to where the document is placed. -/
theorem place_recounted {plan plan' : DocumentPlan} (hplan' : plan'.ignored = [])
    (prepared : PreparedDocument) (target : Option String) (warnings : List String → List String) :
    place plan prepared target (recounted id warnings (c, h)) =
      match place plan' prepared target (c, h) with
      | .ok given x => .ok given (recounted (· + plan.ignored.length) warnings x)
      | .error e x => .error e (recounted id warnings x) := by
  have hparallel : Parallel (Driver.rewarned warnings) (Driver.index prepared target)
      (Driver.index prepared target) := Driver.parallel_index prepared target
  have hindex := hparallel (c.driver, h)
  simp only [Driver.rewarned] at hindex
  rw [recounted, place_run, place_run, hplan']
  dsimp only
  rw [hindex]
  cases Driver.index prepared target (c.driver, h) <;> rfl

section
variable (hpolicy : c.policy.Ignores)
include hpolicy

/-- **Fields that are left out make no difference to a write** but that they are counted if it
succeeds, and may be warned of. -/
theorem write_known (target : WriteTarget) (doc : Document) (h : Host) :
    let unknown := (doc.only fun name => !c.registry.knows name).names
    ∃ warned, (warned = [] ∨ c.policy = .ignoreWarn ∧ warned = unknown.map Registry.warning) ∧
      write target doc (c, h) =
        match write target (doc.only c.registry.knows) (c, h) with
        | .ok id x => .ok id (recounted (· + unknown.length) (· ++ warned) x)
        | .error e x => .error e (recounted id (· ++ warned) x) := by
  intro unknown
  rcases check_run target c h with ⟨e, hcheck⟩ | hcheck
  · refine ⟨[], .inl rfl, ?_⟩
    rw [write_of_check_error hcheck, write_of_check_error hcheck]
    simp [recounted, Host.withWarnings]
  · have hignored : (c.registry.planOf c.policy (leading doc.pairs)).ignored = unknown :=
      Registry.ignored_planOf hpolicy
    have hnone : (c.registry.planOf c.policy
        (leading (doc.only c.registry.knows).pairs)).ignored = [] :=
      Registry.ignored_planOf_known hpolicy
    have hunwarned : recounted id (· ++ Registry.planWarnings c.policy (c.registry.planOf c.policy
        (leading (doc.only c.registry.knows).pairs))) (c, h) = (c, h) := by
      simp [Registry.planWarnings, hnone, recounted, Host.withWarnings]
    refine ⟨Registry.planWarnings c.policy (c.registry.planOf c.policy (leading doc.pairs)), ?_, ?_⟩
    · rw [Registry.planWarnings, hignored]
      rcases hpolicy with hp | hp
      · exact .inl (by rw [if_neg (by simp [hp])])
      · exact .inr ⟨hp, if_pos hp⟩
    · rw [write_of_plan hcheck (Registry.plan_ignoring hpolicy) (Registry.newFields_planOf hpolicy),
        write_of_plan hcheck (Registry.plan_ignoring hpolicy) (Registry.newFields_planOf hpolicy),
        Registry.prepare_known hpolicy, hunwarned]
      cases (doc.only c.registry.knows).prepare _ c.driver.capabilities.valueKinds
        c.driver.name with
      | error e => rfl
      | ok prepared =>
        dsimp only
        rw [place_recounted hnone, hignored]

/-- A write counts what is left out of the document if it succeeds. -/
theorem ignored_write (target : WriteTarget) (doc : Document) (h : Host) :
    ((write target doc).after (c, h)).1.ignored =
      c.ignored +
        match (write target doc).outcome (c, h) with
        | .ok _ => (doc.only fun name => !c.registry.knows name).names.length
        | .error _ => 0 := by
  rw [Action.after, Action.outcome, ← Registry.ignored_planOf hpolicy]
  rcases check_run target c h with ⟨e, hcheck⟩ | hcheck
  · rw [write_of_check_error hcheck]
    rfl
  · rw [write_of_plan hcheck (Registry.plan_ignoring hpolicy) (Registry.newFields_planOf hpolicy)]
    cases doc.prepare (c.registry.planOf c.policy (leading doc.pairs))
      c.driver.capabilities.valueKinds c.driver.name with
    | error e => rfl
    | ok prepared =>
      dsimp only
      rw [recounted, place_run]
      dsimp only
      generalize Driver.index prepared target.id? _ = result
      cases result <;> rfl

end

/-- **To ignore unknown fields is to leave them out.** Whatever a client that ignores unknown fields
is, and whatever host it is on, to write a document has the same outcome as to write its known part,
for the same id or the same error, and leaves the same client on the same host, but for the count of
ignored fields and for warnings. So all that can be asked for later is answered alike. Each unknown
field of the document is counted once if the write succeeds, and none if it fails or if they were
removed before. -/
theorem unknown_left_out (c : Client) (h : Host) (target : WriteTarget) (doc : Document)
    (hpolicy : c.policy.Ignores) :
    let known := doc.only c.registry.knows
    let removed := (doc.only fun name => !c.registry.knows name).names
    let x := (write target doc).after (c, h)
    let y := (write target known).after (c, h)
    (write target doc).outcome (c, h) = (write target known).outcome (c, h) ∧
    (∃ warned, (warned = [] ∨ c.policy = .ignoreWarn ∧ warned = removed.map Registry.warning) ∧
      x = ({ y.1 with ignored := x.1.ignored }, { y.2 with warnings := y.2.warnings ++ warned })) ∧
    (x.1.ignored = c.ignored +
      match (write target doc).outcome (c, h) with
      | .ok _ => removed.length
      | .error _ => 0) ∧
    y.1.ignored = c.ignored ∧
    ∀ questions : List Question, SameAnswers (asked questions x) (asked questions y) := by
  intro known removed x y
  obtain ⟨warned, hwarned, hwrite⟩ := write_known hpolicy target doc h
  -- What is counted depends on how the write ended, what is asked for later does not.
  obtain ⟨houtcome, count, hx⟩ : (write target doc).outcome (c, h) =
      (write target known).outcome (c, h) ∧ ∃ count, x = recounted count (· ++ warned) y := by
    simp only [Action.outcome, Action.after, hwrite, x, y]
    cases write target known (c, h)
    · exact ⟨rfl, _, rfl⟩
    · exact ⟨rfl, _, rfl⟩
  refine ⟨houtcome, ⟨warned, hwarned, ?_⟩, ignored_write hpolicy target doc h, ?_,
    fun questions => ?_⟩
  · rw [hx]
    rfl
  · rw [ignored_write hpolicy target known h, Document.names_only_not]
    cases (write target known).outcome (c, h) <;> rfl
  · rw [hx, asked_recounted]
    exact sameAnswers_recounted _

def ofTitles : Client where
  driver := .sets ⟨⟨"s"⟩, "", SetStore.defaultTimeoutMs, false, .ofList [("title", .freeText)]⟩
  registry := .new SetStore.capabilities.schemaTier (.ofList [("title", .freeText)]) false .freeText
  policy := .ignoreWarn
  pageSize := ClientConfig.defaultPageSize
  readonly := false
  closed := false
  ignored := 0
  cache := .empty
  lease := none

/-- A document with a title among other fields, one of them with a value that no store on a key
server takes. -/
def leaflet : Document :=
  ⟨[("crew", .document [("mate", .text "Ann")]), ("title", .text "Ebb"), ("log", .text "calm"),
    ("crew", .number .zero)]⟩

/-- The leaflet is stored as its title alone would be, and two fields are counted. -/
theorem unknown_left_out_leaflet :
    let h := Host.initial Text.stems [] (.fresh true) ""
    let title : Document := ⟨[("title", .text "Ebb")]⟩
    let x := (write .fresh leaflet).after (ofTitles, h)
    let y := (write .fresh title).after (ofTitles, h)
    (write .fresh leaflet).outcome (ofTitles, h) = .ok "1" ∧
      (write .fresh title).outcome (ofTitles, h) = .ok "1" ∧
      x.1.ignored = 2 ∧
      (getDocument "1").outcome x = (getDocument "1").outcome y := by
  intro h title x y
  have hknown : leaflet.only ofTitles.registry.knows = title := rfl
  have hremoved :
      (leaflet.only fun name => !ofTitles.registry.knows name).names = ["crew", "log"] := by decide
  obtain ⟨hsame, -, hcount, -, hanswers⟩ :=
    unknown_left_out ofTitles h .fresh leaflet (.inr rfl)
  rw [hknown] at hsame hanswers
  rw [hremoved] at hcount
  have hpasses : (write .fresh leaflet).passes (ofTitles, h) (fun id _ => id = "1") = true := by
    decide +kernel
  obtain ⟨id, z, hrun, hid⟩ := Action.passes_iff.1 hpasses
  obtain rfl := of_decide_eq_true hid
  have houtcome : (write .fresh leaflet).outcome (ofTitles, h) = .ok "1" := by
    rw [Action.outcome, hrun]
  rw [houtcome] at hsame hcount
  have hanswer := (hanswers []).getDocument "1"
  simp only [asked, List.foldl_nil] at hanswer
  exact ⟨houtcome, hsame.symm, hcount, hanswer⟩

end Client

end Searchlight
