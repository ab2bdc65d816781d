import Searchlight.FileTree
import Searchlight.Proofs.KeyMap

/-!
# Files of a tree

What holds of every file of a tree goes on to hold when directories are made or removed, and when
files are written of which it holds.
-/

namespace Searchlight.FileTree

variable {α β : Type} {p : α → Prop}

def Every (p : α → Prop) (t : FileTree α) : Prop := ∀ k x, t.nodes.get? k = some (.file x) → p x

theorem Every.insert_file {t : FileTree α} (h : t.Every p) {x : α} (hx : p x) (k : String) :
    (FileTree.mk (t.nodes.insert k (.file x))).Every p := by
  intro k' y hy
  rw [KeyMap.get?_insert] at hy
  split at hy
  · cases hy
    exact hx
  · exact h k' y hy

theorem Every.insert_directory {t : FileTree α} (h : t.Every p) (k : String) :
    (FileTree.mk (t.nodes.insert k .directory)).Every p := by
  intro k' y hy
  rw [KeyMap.get?_insert] at hy
  split at hy
  · cases hy
  · exact h k' y hy

theorem Every.filter {t : FileTree α} (h : t.Every p) (q : String → FileNode α → Bool) :
    (FileTree.mk (t.nodes.filter q)).Every p := by
  intro k y hy
  rw [KeyMap.get?_filter, Option.filter_eq_some_iff] at hy
  exact h k y hy.1

theorem Every.erase {t : FileTree α} (h : t.Every p) (k : String) :
    (FileTree.mk (t.nodes.erase k)).Every p := h.filter fun k' _ => k' != k

theorem Every.read? {t : FileTree α} (h : t.Every p) {path : String} {x : α}
    (hx : t.read? path = some x) : p x := by
  rw [FileTree.read?, Option.bind_eq_some_iff] at hx
  obtain ⟨k, -, hk⟩ := hx
  split at hk
  · rename_i hget
    cases hk
    exact h k x hget
  · cases hk

theorem Every.write? {t t' : FileTree α} (h : t.Every p) {path : String} {x : α} (hx : p x)
    (hw : t.write? path x = some t') : t'.Every p := by
  rw [FileTree.write?, Option.bind_eq_some_iff] at hw
  obtain ⟨k, -, hk⟩ := hw
  split at hk
  · cases hk
  · cases hk
    exact h.insert_file hx k

theorem Every.mapFiles {q : β → Prop} {f : α → β} {t : FileTree α} (h : t.Every p)
    (hf : ∀ x, p x → q (f x)) : (t.mapFiles f).Every q := by
  intro k y hy
  rw [FileTree.mapFiles, KeyMap.get?_map, Option.map_eq_some_iff] at hy
  obtain ⟨n, hn, hy⟩ := hy
  cases n with
  | directory => cases hy
  | file x =>
    cases hy
    exact hf x (h k x hn)

theorem every_ofDirectories (paths : List String) : (ofDirectories paths : FileTree α).Every p := by
  have go (ps : List String) (t : FileTree α) (ht : t.Every p) :
      (FileTree.mk ((ps.map (·, FileNode.directory)).foldl
        (fun m e => m.insert e.1 e.2) t.nodes)).Every p := by
    induction ps generalizing t with
    | nil => exact ht
    | cons path ps ih => exact ih ⟨t.nodes.insert path .directory⟩ (ht.insert_directory path)
  exact go paths ⟨∅⟩ fun _ _ h => by cases h

/-! ## Directories -/

theorem Every.makeDirectory {t t' : FileTree α} (h : t.Every p) {parts : List String}
    (hm : t.makeDirectory parts = .ok (some t')) : t'.Every p := by
  simp only [FileTree.makeDirectory, bind, Except.bind, pure, Except.pure] at hm
  split at hm
  · cases hm
  · split at hm <;> cases hm
    exact h.insert_directory _

theorem Every.ensureDirectory {t : FileTree α} (h : t.Every p) (parts : List String)
    {above : FileTree α → FileTree α × Bool} (ha : ∀ t, t.Every p → (above t).1.Every p) :
    (t.ensureDirectory parts above).1.Every p := by
  rw [FileTree.ensureDirectory]
  split
  · rename_i hm
    exact h.makeDirectory hm
  · exact h
  · exact h
  · dsimp only
    split
    · split
      · rename_i hm
        exact (ha t h).makeDirectory hm
      · exact ha t h
    · exact ha t h

theorem Every.ensureDirectories {t : FileTree α} (h : t.Every p) (names : List String) :
    (ensureDirectories names t).1.Every p := by
  induction names generalizing t with
  | nil => exact h
  | cons name above ih => exact h.ensureDirectory _ fun _ ht => ih ht

theorem Every.createDirectory {t : FileTree α} (h : t.Every p) (path : String) :
    (t.createDirectory path).1.Every p := by
  rw [FileTree.createDirectory]
  split
  · exact h
  · split
    · exact h
    · exact h.ensureDirectory _ fun _ ht => ht.ensureDirectories _

theorem Every.removeDirectory {t : FileTree α} (h : t.Every p) (path : String) :
    (t.removeDirectory path).1.Every p := by
  rw [FileTree.removeDirectory]
  split
  · exact h
  · split
    · dsimp only
      split
      · exact h.filter _
      · split
        · exact h.filter _
        · exact (h.filter _).erase _
    · exact h

end Searchlight.FileTree
