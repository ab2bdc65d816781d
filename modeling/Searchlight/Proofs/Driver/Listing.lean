import Searchlight.Proofs.Driver.Views
import Searchlight.Proofs.Memory.Arriving

/-!
# Whole listings of drivers

Whether a driver is listed at all is told by its first page: it fails for every page, or each page
that it takes is a window of one list of ids, which are those of the documents that are there
(`lists_or_fails`).
The list is in the order in which the documents arrived where they are in memory, as all work of
drivers goes on to tell (`arrived_invariant`), and in the order of the ids otherwise.
-/

namespace Searchlight.Driver

open Searchlight.Action (Keeps)

variable {α : Type} {d : Driver} {h : Host} {listed : List String}
  {load : String → Except Error (Option StoredDocument)}

/-! ## Arrivals -/

def HasArrived : Driver → Prop
  | memory s | limited _ s => ∃ ids, s.Arrived ids
  | sets _ | disk _ => True

abbrev OnArrived : Driver × Host → Prop := On HasArrived fun _ => True

/-- Work keeps the order of arrival when its work in memory does. -/
theorem arrived_work {memory : Action Memory.Store α} {sets : SetStore.Work α} {disk : Disk.Work α}
    (hmemory : Keeps (fun s => ∃ ids, s.Arrived ids) memory fun _ => True) :
    Keeps OnArrived (work memory sets disk) fun _ => True :=
  keeps_work hmemory (fun _ => hmemory) .nothing (.of_after fun _ _ => ⟨trivial, trivial⟩)

theorem arrived_look {f : Memory.Store → α} {sets : SetStore.Work α} {disk : Disk.Work α} :
    Keeps OnArrived (work (do return f (← get)) sets disk) fun _ => True :=
  arrived_work (Keeps.get.bind fun _ _ => .pure trivial)

theorem arrived_calm {x : DriverWork α} (hx : Calm x) : Keeps OnArrived x fun _ => True := by
  cases hx with
  | contains | get? | count | ids => exact arrived_look
  | search => exact arrived_work (Keeps.seq (.ofExcept fun _ _ => trivial) fun _ =>
      Keeps.get.bind fun _ _ => .pure trivial)
  | cancel => exact arrived_work (.pure trivial)

theorem arrived_registerField (name : String) (config : FieldConfig) :
    Keeps OnArrived (registerField name config) fun _ => True :=
  arrived_work (.modify fun _ ⟨ids, hs⟩ => ⟨ids, hs.registerField name config⟩)

theorem arrived_index (p : PreparedDocument) (id : Option String) :
    Keeps OnArrived (index p id) fun _ => True := by
  refine Keeps.get.bind fun (_, h) _ => Keeps.seq (arrived_work ?_) fun _ =>
    Keeps.ite (fun _ => ?_) fun _ => .pure trivial
  · exact Keeps.seq (.modify fun _ ⟨_, hs⟩ => ⟨_, hs.index _ p⟩) fun _ => .pure trivial
  · exact Keeps.seq (.modify fun _ hx => hx) fun _ => .pure trivial

theorem arrived_delete (id : String) : Keeps OnArrived (delete id) fun _ => True :=
  arrived_work <| Keeps.get.bind fun _ ⟨_, hs⟩ =>
    Keeps.bind (.ofExcept fun _ ht => ht) fun _ ht => .set ⟨_, hs.delete ht⟩

/-- **Documents in memory stay in the order of their arrival**, whatever drivers do. -/
theorem arrived_invariant : Invariant HasArrived fun _ => True where
  index := arrived_index
  delete := arrived_delete
  commit := arrived_work (.pure trivial)
  calm := arrived_calm
  registerField := arrived_registerField
  schemaSnapshot := arrived_look
  close := arrived_work (.pure trivial)
  destroy := arrived_work (.set ⟨_, .empty⟩)
  drop := arrived_work (.pure trivial)
  openStore := Catalog.keeps_openStore (V := fun _ => True) ⟨_, .empty⟩ (fun _ => ⟨_, .empty⟩)
    (fun _ => trivial) fun _ _ => .of_after fun _ _ => trivial
  aside _ _ _ _ _ hx := hx

/-! ## Order -/

/-- The ids are in the order in which the documents arrived, or in ascending order where they are not
in memory. -/
def ListsInOrder (listed : List String) : Driver → Prop
  | memory s | limited _ s => ∀ ids, s.Arrived ids ↔ ids = listed
  | sets _ => listed.Pairwise (· < ·)
  | disk _ => listed.Pairwise (· ≤ ·)

theorem pairwise_keys {α : Type} (m : KeyMap α) : m.keys.Pairwise (· < ·) :=
  List.pairwise_map.2 m.sorted

theorem arrived_iff {s : Memory.Store} (hs : ∃ ids, s.Arrived ids) (ids : List String) :
    s.Arrived ids ↔ ids = s.byAge.map (·.1) := by
  obtain ⟨ids', hs⟩ := hs
  constructor
  · exact fun hids => hids.ids_byAge.symm
  · rintro rfl
    rwa [hs.ids_byAge]

/-! ## Listings -/

/-- **A driver that gives a first page** lists all documents that are there, in order, and otherwise
no page at all. What it lists beside them are no keys. -/
theorem lists_or_fails (hd : d.Sound) (hk : d.HasValidStem) (ha : d.HasArrived) (hv : h.Sound)
    (hf : h.OnFile) :
    (∀ offset limit, 0 < limit → ∃ e, (ids offset limit).outcome (d, h) = .error e) ∨
      ∃ listed load, Names listed load ∧ given load listed = listed.filter d.isKey ∧
        Listing load listed d h ∧ d.ListsInOrder listed := by
  have hall {ids : List String} : ids.filter (fun _ => true) = ids :=
    List.filter_eq_self.2 fun _ _ => rfl
  cases d with
  | memory s =>
    exact .inr ⟨_, _, names_memory s, (given_memory s).trans hall.symm, listing_memory rfl,
      arrived_iff ha⟩
  | limited key s =>
    exact .inr ⟨_, _, names_memory s, (given_memory s).trans hall.symm, listing_memory rfl,
      arrived_iff ha⟩
  | sets s =>
    by_cases hs : s.Serves h.server
    · obtain ⟨docs, hfiled⟩ := hf s.keys hk
      have hholds := hfiled.holds hk
      exact .inr ⟨_, _, names_sets hholds, (given_sets hholds).trans hall.symm,
        (reads_sets hk hholds hs).listing, pairwise_keys _⟩
    · refine .inl fun offset limit hlimit => ?_
      obtain ⟨e, hfails⟩ := SetStore.Store.ask_of_not_serves hs SetStore.Store.readFailure
        (.sorted s.keys.docs offset limit) (SetStore.Reply.listOf? SetStore.Reply.text?)
      refine ⟨e, ?_⟩
      rw [ids, outcome_sets, Action.outcome, SetStore.Store.ids, if_neg (Nat.ne_of_gt hlimit),
        Action.get_bind]
      simp only [hfails]
  | disk s =>
    cases hrefresh : Disk.Store.refresh (s, h.volume) with
    | ok _ x =>
      obtain ⟨xs, hids⟩ : ∃ xs, (ids 0 0).outcome (.disk s, h) = .ok xs := by
        rw [ids, outcome_disk, Action.outcome, Disk.Store.ids, Action.bind_of_ok hrefresh]
        exact ⟨_, rfl⟩
      obtain ⟨t, ht, hlisting, -⟩ := listing_disk hd hv hids
      exact .inr ⟨_, _, names_disk ht, given_disk ht, hlisting, Disk.pairwise_idsOf _⟩
    | error e x =>
      refine .inl fun offset limit _ => ⟨e, ?_⟩
      rw [ids, outcome_disk, Action.outcome, Disk.Store.ids, Action.bind_run, hrefresh]

theorem takes_zero (d : Driver) (offset : Nat) : d.takes offset 0 = true := by
  cases d <;> rfl

theorem Listing.offers_of_not_reading (hlisting : Listing load listed d h)
    (hd : ∀ s, d = .disk s → s.readonly = false) : Offers load listed d h := by
  have hempty : ids 0 0 (d, h) = .ok [] (d, h) := by
    cases d with
    | memory s | limited key s => exact work_of_memory? rfl (by rfl)
    | sets s => rw [ids, work_sets, SetStore.Store.ids, if_pos rfl, Action.pure_run]
    | disk s =>
      rw [ids, work_disk, Disk.Store.ids,
        Action.bind_of_ok (Disk.Store.refresh_of_writable (hd s rfl))]
      rfl
  obtain ⟨⟨x, hx, htakes, -, hsame⟩, -⟩ := hlisting
  have hnone : x.1.takes 0 0 = true := by rw [htakes, takes_zero]
  rw [hsame, hx.lists 0 0 hnone] at hempty
  cases hempty
  exact hx

end Searchlight.Driver
