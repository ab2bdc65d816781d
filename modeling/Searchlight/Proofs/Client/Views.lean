import Searchlight.Proofs.Client.Accepted
import Searchlight.Proofs.Client.Requests
import Searchlight.Proofs.Driver.Views

/-!
# Views of the documents

Clients count documents, ask for single ones and list all of them. To count and to ask changes
nothing, and what is answered agrees with a listing that follows exactly if the driver lists what it
tells (`viewsAgree_iff`): a store on disk that is open for reading looks at the index again only
when it is listed, and ids that are too long are counted without being given.
-/

namespace Searchlight.Client

open Searchlight.Action (Keeps)

variable {c : Client} {h : Host} {listed listed' : List String}
  {load load' : String → Except Error (Option StoredDocument)} {n : Nat} {ds : List StoredDocument}

/-- What was counted and what is answered for single ids agrees with the documents of a listing:
there are as many, each under an id of its own, and what is asked for is there exactly if it is
listed. -/
structure ViewsAgree (x : Client × Host) (count : Nat) (ds : List StoredDocument) : Prop where
  count : count = x.1.driver.counted ds.length
  nodup : (ds.map (·.id)).Nodup
  /-- As long as nothing but the lack of a document makes it fail. -/
  get : ∀ id, (∀ e, (getDocument id).outcome x = .error e → e = .notFound id) →
    ∀ d, (getDocument id).outcome x = .ok d ↔ d ∈ ds ∧ d.id = id
  /-- As long as nothing waits for a commit. -/
  exist : x.1.driver.hasPending = false → ∀ id b, (documentExists id).outcome x = .ok b →
    (b = true ↔ ∃ d ∈ ds, d.id = id)

/-- To count documents and to ask for single ones changes nothing. -/
structure AsksOnly (x : Client × Host) : Prop where
  count : documentCount.after x = x
  get : ∀ id, (getDocument id).after x = x
  exist : ∀ id, (documentExists id).after x = x

/-! ## Asking -/

theorem keeps_drive_still {α : Type} {x : DriverWork α}
    (hx : x.after (c.driver, h) = (c.driver, h)) :
    Keeps (fun y => y = (c, h)) (drive x) fun _ => True := by
  refine .of_after ?_
  rintro _ rfl
  rw [Action.after] at hx ⊢
  rw [drive_run]
  cases hr : x (c.driver, h) <;> rw [hr] at hx <;> dsimp only at hx ⊢ <;> rw [hx]

section
variable (htells : Driver.Tells listed load c.driver h)
include htells

theorem asksOnly_of_tells : AsksOnly (c, h) where
  count := by
    refine (keeps_ensureOpen.seq fun _ => keeps_drive_still ?_).after rfl
    rw [Action.after, htells.count]
  get id := by
    refine Keeps.after (Q := fun _ => True)
      (keeps_ensureOpen.seq fun _ => (keeps_drive_still ?_).seq fun d => ?_) rfl
    · rw [Action.after, htells.loads, Action.ofExcept_run]
      cases load id <;> rfl
    · cases d with
      | none => exact .throw
      | some d => exact .pure trivial
  exist id := by
    obtain ⟨b, hb, -⟩ := htells.contains id
    refine (keeps_ensureOpen.seq fun _ => keeps_drive_still ?_).after rfl
    rw [Action.after, hb]

variable (hopen : c.closed = false)
include hopen

theorem outcome_documentCount_of_tells :
    documentCount.outcome (c, h) = .ok (c.driver.counted listed.length) := by
  rw [documentCount, outcome_ensureOpen hopen, outcome_drive, Action.outcome, htells.count]

theorem documentExists_eq (hpending : c.driver.hasPending = false) {id : String} {b : Bool}
    (hb : (documentExists id).outcome (c, h) = .ok b) : b = isThere load id := by
  obtain ⟨b', hrun, hmem⟩ := htells.contains id
  rw [documentExists, outcome_ensureOpen hopen, outcome_drive, Action.outcome, hrun] at hb
  cases hb
  exact hmem hpending

section
variable {id : String}
  (hfails : ∀ e, (getDocument id).outcome (c, h) = .error e → e = .notFound id)
include hfails

/-- What is asked for can be loaded, when nothing but its lack makes it fail. -/
theorem exists_load : ∃ o, load id = .ok o := by
  rw [outcome_getDocument htells.loads hopen] at hfails
  cases hload : load id with
  | ok o => exact ⟨o, rfl⟩
  | error e =>
    rw [hload] at hfails
    exact absurd (hfails e rfl) (htells.names.fails id e hload)

theorem getDocument_iff {d : StoredDocument} :
    (getDocument id).outcome (c, h) = .ok d ↔ load id = .ok (some d) := by
  obtain ⟨o, ho⟩ := exists_load htells hopen hfails
  rw [outcome_getDocument htells.loads hopen, ho]
  cases o <;> simp

end

end

/-! ## Listing -/

section
variable (hnames : Names listed' load')
  (hall : (listed'.mapM load').map List.reduceOption = .ok ds)
include hnames hall

theorem exists_mem_iff {id : String} : (∃ d ∈ ds, d.id = id) ↔ isThere load' id = true := by
  rw [← hnames.mem_given_iff, ← (hnames.documents hall).1, List.mem_map]

theorem mem_and_id_eq_iff {id : String} {d : StoredDocument} :
    d ∈ ds ∧ d.id = id ↔ load' id = .ok (some d) := by
  rw [(hnames.documents hall).2]
  constructor
  · rintro ⟨hd, rfl⟩
    exact hd
  · intro hd
    have hid := hnames.id_eq id d hd
    exact ⟨hid.symm ▸ hd, hid⟩

theorem length_eq_of_names : ds.length = (given load' listed').length := by
  rw [← (hnames.documents hall).1, List.length_map]

variable (htells : Driver.Tells listed load c.driver h) (hopen : c.closed = false)
  (hn : documentCount.outcome (c, h) = .ok n)
include htells hopen hn

/-- **Views of the same documents agree.** -/
theorem viewsAgree_of_same (hsame : SameNames listed load listed' load') :
    ViewsAgree (c, h) n ds where
  count := by
    rw [outcome_documentCount_of_tells htells hopen] at hn
    rw [length_eq_of_names hnames hall, ← hsame.length]
    exact (Except.ok.inj hn).symm
  nodup := by
    rw [(hnames.documents hall).1]
    exact hnames.nodup
  get id hfails d := by
    rw [getDocument_iff htells hopen hfails, mem_and_id_eq_iff hnames hall]
    constructor
    · intro hd
      have hthere : isThere load' id = true := by
        rw [← hsame.isThere_eq]
        exact isThere_of_eq_some hd
      obtain ⟨e, he⟩ := (exists_mem_iff hnames hall).2 hthere
      have hload := (mem_and_id_eq_iff hnames hall).1 he
      rw [hsame.documents id d e hd hload]
      exact hload
    · intro hd
      obtain ⟨o, ho⟩ := exists_load htells hopen hfails
      cases o with
      | none =>
        have hthere := isThere_of_eq_some hd
        rw [← hsame.isThere_eq, isThere_eq_false_iff.2 ho] at hthere
        cases hthere
      | some e =>
        rw [← hsame.documents id e d ho hd]
        exact ho
  exist hpending id b hb := by
    rw [documentExists_eq htells hopen hpending hb, exists_mem_iff hnames hall, hsame.isThere_eq]

/-- Views that agree are views of the same documents, if all documents are counted. -/
theorem same_of_viewsAgree (hcounted : ∀ n, c.driver.counted n = n)
    (hviews : ViewsAgree (c, h) n ds) : SameNames listed load listed' load' := by
  have hlength : listed.length = (given load' listed').length := by
    have hcount := hviews.count
    rw [outcome_documentCount_of_tells htells hopen, Except.ok.injEq, hcounted] at hn
    rw [hcounted, length_eq_of_names hnames hall] at hcount
    omega
  -- What is given can be asked for, so that all that is counted can be asked for as well.
  have hsubset : given load' listed' ⊆ given load listed := by
    intro id hid
    rw [htells.names.mem_given_iff, ← Bool.not_eq_false, isThere_eq_false_iff]
    intro hnone
    have hfails : ∀ e, (getDocument id).outcome (c, h) = .error e → e = .notFound id := by
      rw [outcome_getDocument htells.loads hopen, hnone]
      exact fun e he => (Except.error.inj he).symm
    obtain ⟨d, hd⟩ := (exists_mem_iff hnames hall).2 (hnames.mem_given_iff.1 hid)
    have hload := (getDocument_iff htells hopen hfails).1 ((hviews.get id hfails d).2 hd)
    cases hnone.symm.trans hload
  have hperm : (given load' listed').Perm (given load listed) :=
    (List.subperm_of_subset hnames.nodup hsubset).perm_of_length_le
      (hlength ▸ List.length_filter_le _ _)
  refine ⟨hlength, fun id => ?_, fun id d e hd he => ?_⟩
  · rw [Bool.eq_iff_iff, ← htells.names.mem_given_iff, ← hnames.mem_given_iff, hperm.mem_iff]
  · have hfails : ∀ e, (getDocument id).outcome (c, h) = .error e → e = .notFound id := by
      rw [outcome_getDocument htells.loads hopen, hd]
      exact fun e he => nomatch he
    have hload := (getDocument_iff htells hopen hfails).1
      ((hviews.get id hfails e).2 ((mem_and_id_eq_iff hnames hall).2 he))
    cases hd.symm.trans hload
    rfl

end

/-! ## Clients -/

theorem ids_of_allDocuments (hopen : c.closed = false)
    (hall : allDocuments.outcome (c, h) = .ok ds) :
    ∃ xs, (Driver.ids 0 (max c.pageSize 1)).outcome (c.driver, h) = .ok xs := by
  cases hids : (Driver.ids 0 (max c.pageSize 1)).outcome (c.driver, h) with
  | ok xs => exact ⟨xs, rfl⟩
  | error e =>
    rw [outcome_allDocuments_eq hopen, remainingDocuments_of_failing hopen hids] at hall
    cases hall

/-- **Whether views agree.** When documents can be counted and listed, the count and what is asked
for agree with the listing, unless what a store on disk counts and loads is not what it lists. -/
theorem viewsAgree_iff (hs : c.driver.Sound) (hk : c.driver.HasValidStem) (hv : h.Sound)
    (hf : h.OnFile) (hopen : c.closed = false) (hn : documentCount.outcome (c, h) = .ok n)
    (hall : allDocuments.outcome (c, h) = .ok ds) :
    AsksOnly (c, h) ∧ (ViewsAgree (c, h) n ds ↔ ¬c.driver.Differs h) := by
  have hcount : Driver.count.outcome (c.driver, h) = .ok n := by
    rwa [documentCount, outcome_ensureOpen hopen, outcome_drive] at hn
  obtain ⟨xs, hids⟩ := ids_of_allDocuments hopen hall
  obtain ⟨listed, load, listed', load', htells, hnames, hlisting, hdiffers⟩ :=
    Driver.exists_views hs hk hv hf hcount hids
  replace hall : (listed'.mapM load').map List.reduceOption = .ok ds := by
    obtain hgiven | ⟨-, -, -, e, hfails⟩ := outcome_allDocuments hlisting hopen
    · exact hgiven.symm.trans hall
    · cases hfails.symm.trans hall
  refine ⟨asksOnly_of_tells htells, fun hviews h => ?_, fun h => ?_⟩
  · have hcounted (n : Nat) : c.driver.counted n = n := by
      obtain ⟨s, hdisk, -⟩ := h
      rw [hdisk, Driver.counted]
    exact hdiffers.1 h (same_of_viewsAgree hnames hall htells hopen hn hcounted hviews)
  · exact viewsAgree_of_same hnames hall htells hopen hn (not_not.1 (mt hdiffers.2 h))

end Searchlight.Client
