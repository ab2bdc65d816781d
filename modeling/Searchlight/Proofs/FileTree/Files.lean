import Searchlight.Proofs.FileTree.Places

/-!
# Files after changes

What each operation of a tree does to the files under their canonical paths (`fileAt?`): writing
changes one file, making directories none, and removing them at most takes files away. Writing and
marking files leaves all paths where they led.
-/

namespace Searchlight.FileTree

variable {α β : Type} {t t' : FileTree α}

def fileAt? (t : FileTree α) (canonical : String) : Option α :=
  match t.nodes.get? canonical with
  | some (.file x) => some x
  | _ => none

theorem read?_eq (t : FileTree α) (path : String) :
    t.read? path = (t.canonical? path).bind t.fileAt? := rfl

/-! ## Paths -/

theorem follow_congr (h : ∀ k, t'.isDirectory k = t.isDirectory k) {here ps there : List String}
    (hf : t.follow here ps = .ok there) : t'.follow here ps = .ok there := by
  induction ps generalizing here with
  | nil => exact hf
  | cons p ps ih =>
    obtain ⟨hd, hn, hf⟩ := follow_cons_eq_ok.1 hf
    exact follow_cons_eq_ok.2 ⟨(h _).trans hd, hn, ih hf⟩

theorem Leads.congr (h : ∀ k, t'.isDirectory k = t.isDirectory k) {path : String}
    {here : List String} (hl : t.Leads path here) : t'.Leads path here :=
  ⟨follow_congr h hl.follow, (h _).trans hl.isDirectory⟩

/-- Paths lead where they led as long as the directories are the same. -/
theorem canonical?_congr (h : ∀ k, t'.isDirectory k = t.isDirectory k) (path : String) :
    t'.canonical? path = t.canonical? path := by
  have hfollow : (t'.follow [] (parts path)).toOption = (t.follow [] (parts path)).toOption := by
    refine Option.ext fun here => ?_
    rw [toOption_eq_some_iff, toOption_eq_some_iff]
    exact ⟨follow_congr fun k => (h k).symm, follow_congr h⟩
  rw [canonical?, canonical?, hfollow]

/-! ## Writing -/

/-- Writing a file puts it where the path leads, which is no directory. -/
theorem write?_eq_some {path : String} {x : α} (h : t.write? path x = some t') :
    ∃ c, t.canonical? path = some c ∧ t.isDirectory c = false ∧
      t' = ⟨t.nodes.insert c (.file x)⟩ := by
  obtain ⟨c, hc, h⟩ := Option.bind_eq_some_iff.1 h
  split at h
  · cases h
  · rename_i hd
    exact ⟨c, hc, by simpa using hd, (Option.some.inj h).symm⟩

theorem fileAt?_insert (t : FileTree α) (c k : String) (x : α) :
    (FileTree.mk (t.nodes.insert c (.file x))).fileAt? k =
      if c = k then some x else t.fileAt? k := by
  rw [fileAt?, KeyMap.get?_insert]
  by_cases hk : c = k
  · rw [if_pos hk, if_pos hk]
  · rw [if_neg hk, if_neg hk]
    rfl

theorem isDirectory_insert_file {c : String} (hc : t.isDirectory c = false) (x : α) (k : String) :
    (FileTree.mk (t.nodes.insert c (.file x))).isDirectory k = t.isDirectory k := by
  rw [isDirectory, isDirectory, KeyMap.get?_insert]
  by_cases hk : c = k
  · subst hk
    rw [isDirectory] at hc
    simp_all
  · rw [if_neg hk]

theorem fileAt?_mapFiles (f : α → β) (t : FileTree α) (k : String) :
    (t.mapFiles f).fileAt? k = (t.fileAt? k).map f := by
  rw [fileAt?, fileAt?, mapFiles, KeyMap.get?_map]
  cases t.nodes.get? k with
  | none => rfl
  | some n => cases n <;> rfl

theorem isDirectory_mapFiles (f : α → β) (t : FileTree α) (k : String) :
    (t.mapFiles f).isDirectory k = t.isDirectory k := by
  rw [isDirectory, isDirectory, mapFiles, KeyMap.get?_map]
  cases t.nodes.get? k with
  | none => rfl
  | some n => cases n <;> rfl

/-! ## Making directories -/

def SameFiles (t t' : FileTree α) : Prop := ∀ k, t'.fileAt? k = t.fileAt? k

theorem SameFiles.refl (t : FileTree α) : t.SameFiles t := fun _ => rfl

theorem SameFiles.trans {u : FileTree α} (h : t.SameFiles t') (h' : t'.SameFiles u) :
    t.SameFiles u := fun k => (h' k).trans (h k)

theorem sameFiles_makeDirectory {parts : List String}
    (h : t.makeDirectory parts = .ok (some t')) : t.SameFiles t' := by
  simp only [makeDirectory, bind, Except.bind, pure, Except.pure] at h
  split at h
  · cases h
  · split at h
    · cases h
    · rename_i c _ hnode
      cases h
      intro k
      rw [hasNode, Bool.not_eq_true, Bool.or_eq_false_iff, KeyMap.contains,
        Option.isSome_eq_false_iff, Option.isNone_iff_eq_none] at hnode
      rw [fileAt?, fileAt?, KeyMap.get?_insert]
      by_cases hk : join c = k
      · rw [if_pos hk, ← hk, hnode.2]
      · rw [if_neg hk]

theorem sameFiles_ensureDirectory (t : FileTree α) (parts : List String)
    {above : FileTree α → FileTree α × Bool} (ha : ∀ t : FileTree α, t.SameFiles (above t).1) :
    t.SameFiles (t.ensureDirectory parts above).1 := by
  rw [ensureDirectory]
  split
  · rename_i hm
    exact sameFiles_makeDirectory hm
  · exact .refl t
  · exact .refl t
  · dsimp only
    split
    · split
      · rename_i hm
        exact (ha t).trans (sameFiles_makeDirectory hm)
      · exact ha t
    · exact ha t

theorem sameFiles_ensureDirectories (names : List String) (t : FileTree α) :
    t.SameFiles (ensureDirectories names t).1 := by
  induction names generalizing t with
  | nil => exact .refl t
  | cons name above ih => exact sameFiles_ensureDirectory t _ ih

theorem sameFiles_createDirectory (t : FileTree α) (path : String) :
    t.SameFiles (t.createDirectory path).1 := by
  rw [createDirectory]
  split
  · exact .refl t
  · split
    · exact .refl t
    · exact sameFiles_ensureDirectory t _ (sameFiles_ensureDirectories _)

theorem follow_mono (h : ∀ k, t.isDirectory k = true → t'.isDirectory k = true)
    {here ps there : List String} (hf : t.follow here ps = .ok there) :
    t'.follow here ps = .ok there := by
  induction ps generalizing here with
  | nil => exact hf
  | cons p ps ih =>
    obtain ⟨hd, hn, hf⟩ := follow_cons_eq_ok.1 hf
    exact follow_cons_eq_ok.2 ⟨h _ hd, hn, ih hf⟩

theorem leads_of_makeDirectory {path : String}
    (h : t.makeDirectory (writtenParts path) = .ok (some t')) : ∃ here, t'.Leads path here := by
  obtain ⟨here, hfollow⟩ : ∃ here, t.follow [] (writtenParts path) = .ok here := by
    cases hf : t.follow [] (writtenParts path) with
    | error o => simp [makeDirectory, hf, bind, Except.bind] at h
    | ok here => exact ⟨here, rfl⟩
  simp only [makeDirectory, hfollow, bind, Except.bind, pure, Except.pure] at h
  split at h
  · cases h
  · cases h
    refine ⟨here, follow_mono (fun k hk => ?_) hfollow, ?_⟩
    · rw [isDirectory, KeyMap.get?_insert]
      by_cases hhere : join here = k
      · simp [hhere]
      · rwa [if_neg hhere]
    · simp [isDirectory, KeyMap.get?_insert]

theorem leads_of_follow {path : String} (h : (match t.follow [] (writtenParts path) with
    | .ok here => t.isDirectory (join here)
    | .error _ => false) = true) : ∃ here, t.Leads path here := by
  split at h
  · rename_i here hfollow
    exact ⟨here, hfollow, h⟩
  · cases h

theorem leads_of_createDirectory {path : String} (hne : path ≠ "")
    (h : (t.createDirectory path).2 = true) : ∃ here, (t.createDirectory path).1.Leads path here := by
  revert h
  rw [createDirectory, if_neg (by simpa using hne)]
  split
  · exact fun h => by cases h
  · rw [ensureDirectory]
    split
    · rename_i hmade
      exact fun _ => leads_of_makeDirectory hmade
    · exact leads_of_follow
    · exact leads_of_follow
    · dsimp only
      split
      · split
        · rename_i hmade
          exact fun _ => leads_of_makeDirectory hmade
        · exact leads_of_follow
      · exact fun h => by cases h

/-- What a path is found to be is where it leads, if it is a directory. -/
theorem Leads.of_locate? {path c : String} {here : List String} (h : t.locate? path = some c)
    (hc : t.Leads c here) : t.Leads path here ∧ c = join here := by
  obtain ⟨hcanonical, -⟩ := Option.filter_eq_some_iff.1 h
  rw [canonical?] at hcanonical
  split at hcanonical
  · cases hcanonical
  obtain ⟨there, hfollow, rfl⟩ := Option.map_eq_some_iff.1 hcanonical
  obtain ⟨mid, hmid, hend⟩ := follow_append_eq_ok.1 (toOption_eq_some_iff.1 hfollow)
  have hmid' : mid = there := by
    split at hend
    · obtain ⟨-, -, hend⟩ := follow_cons_eq_ok.1 hend
      rw [descend, if_pos rfl] at hend
      exact Except.ok.inj hend
    · exact Except.ok.inj hend
  subst hmid'
  have hreached := reached_of_follow_writtenParts hmid
  have hhere : here = mid := by
    have hwritten := hc.follow
    rw [writtenParts_join hreached.isPlace, hreached.follow] at hwritten
    exact (Except.ok.inj hwritten).symm
  subst hhere
  exact ⟨⟨hmid, hc.isDirectory⟩, rfl⟩

theorem Leads.locate?_eq {path : String} {here : List String} (h : t.Leads path here)
    (hne : path ≠ "") : t.locate? path = some (join here) := by
  rw [locate?, h.canonical?_eq hne, Option.filter_some_pos]
  rw [hasNode, h.isDirectory, Bool.true_or]

/-! ## Removing directories -/

def FewerFiles (t t' : FileTree α) : Prop := ∀ k x, t'.fileAt? k = some x → t.fileAt? k = some x

theorem FewerFiles.refl (t : FileTree α) : t.FewerFiles t := fun _ _ h => h

theorem fewerFiles_filter (t : FileTree α) (q : String → FileNode α → Bool) :
    t.FewerFiles ⟨t.nodes.filter q⟩ := by
  intro k x h
  rw [fileAt?, KeyMap.get?_filter] at h
  rw [fileAt?]
  cases hn : t.nodes.get? k with
  | none => simp [hn] at h
  | some n =>
    by_cases hq : q k n = true
    · rwa [hn, Option.filter_some_pos hq] at h
    · rw [hn, Option.filter_some_neg (by simpa using hq)] at h
      cases h

theorem FewerFiles.erase (h : t.FewerFiles t') (c : String) :
    t.FewerFiles ⟨t'.nodes.erase c⟩ :=
  fun k x hx => h k x (fewerFiles_filter t' (fun k' _ => k' != c) k x hx)

theorem fewerFiles_removeDirectory (t : FileTree α) (path : String) :
    t.FewerFiles (t.removeDirectory path).1 := by
  rw [removeDirectory]
  split
  · exact .refl t
  · split
    · dsimp only
      split
      · exact fewerFiles_filter t _
      · split
        · exact fewerFiles_filter t _
        · exact (fewerFiles_filter t _).erase _
    · exact .refl t

end Searchlight.FileTree
