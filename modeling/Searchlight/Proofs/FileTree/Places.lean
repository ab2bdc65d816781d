import Searchlight.Proofs.FileTree

/-!
# Where paths lead

A place is told by the parts of its canonical path. The path of a directory with a name behind it
leads to what has the name in that directory (`canonical?_child`), whichever of its paths is
taken: the canonical one leads to the directory as well (`Leads.canonical`), and different names
are at different places (`child_inj`).
-/

namespace Searchlight.FileTree

variable {α : Type} {t : FileTree α} {here : List String} {path : String}

/-- A part of a path between slashes. -/
structure IsPart (p : String) : Prop where
  ne_empty : p ≠ ""
  slash : '/' ∉ p.toList

structure IsEntry (p : String) : Prop extends IsPart p where
  ne_point : p ≠ "."
  ne_points : p ≠ ".."

/-- The parts of a canonical path, the last one first: entries of directories, and the empty part
where the path is absolute. -/
inductive IsPlace : List String → Prop where
  | relative : IsPlace []
  | absolute : IsPlace [""]
  | entry {p : String} {here : List String} (hp : IsEntry p) (h : IsPlace here) :
    IsPlace (p :: here)

/-! ## Parts of paths -/

def betweenSlashes (cs : List Char) : List String :=
  ((Text.pieces '/' cs).filter fun p => !p.isEmpty).map String.ofList

theorem writtenParts_eq (path : String) :
    writtenParts path = (if path.startsWith "/" then [""] else []) ++ betweenSlashes path.toList :=
  rfl

theorem isPart_of_mem {p : String} {cs : List Char} (h : p ∈ betweenSlashes cs) : IsPart p := by
  obtain ⟨q, hq, rfl⟩ := List.mem_map.1 h
  obtain ⟨hq, hne⟩ := List.mem_filter.1 hq
  refine ⟨?_, ?_⟩
  · simpa using hne
  · simpa using Text.notMem_of_mem_pieces hq

theorem betweenSlashes_nil : betweenSlashes [] = [] := rfl

theorem betweenSlashes_append (xs ys : List Char) :
    betweenSlashes (xs ++ '/' :: ys) = betweenSlashes xs ++ betweenSlashes ys := by
  rw [betweenSlashes, Text.pieces_append, List.filter_append, List.map_append]
  rfl

theorem betweenSlashes_part {p : String} (h : IsPart p) : betweenSlashes p.toList = [p] := by
  simp [betweenSlashes, Text.pieces_of_notMem h.slash, h.ne_empty]

theorem betweenSlashes_intercalate {ps : List String} (h : ∀ p ∈ ps, IsPart p) :
    betweenSlashes ("/".intercalate ps).toList = ps := by
  induction ps with
  | nil => rfl
  | cons p ps ih =>
    have hp := betweenSlashes_part (h p List.mem_cons_self)
    have hrest := ih fun q hq => h q (List.mem_cons_of_mem _ hq)
    by_cases hps : ps = []
    · subst hps
      simpa using hp
    · have hsplit : ("/".intercalate (p :: ps)).toList =
          p.toList ++ '/' :: ("/".intercalate ps).toList := by
        simp [String.intercalate_cons_of_ne_nil hps]
      rw [hsplit, betweenSlashes_append, hp, hrest, List.singleton_append]

theorem IsPart.begins {p : String} (h : IsPart p) : ∃ c cs, p.toList = c :: cs ∧ c ≠ '/' := by
  cases hp : p.toList with
  | nil => exact absurd (String.toList_eq_nil_iff.1 hp) h.ne_empty
  | cons c cs =>
    refine ⟨c, cs, rfl, fun hc => h.slash ?_⟩
    rw [hp, hc]
    exact List.mem_cons_self

theorem writtenParts_relative {ps : List String} (h : ∀ p ∈ ps, IsPart p) :
    writtenParts ("/".intercalate ps) = ps := by
  have hstart : ("/".intercalate ps).startsWith "/" = false := by
    cases ps with
    | nil => decide
    | cons p ps =>
      obtain ⟨c, cs, hp, hc⟩ := (h p List.mem_cons_self).begins
      cases ps <;> simp [hp, Ne.symm hc]
  rw [writtenParts_eq, hstart, betweenSlashes_intercalate h]
  rfl

theorem writtenParts_absolute {ps : List String} (h : ∀ p ∈ ps, IsPart p) :
    writtenParts ("/" ++ "/".intercalate ps) = "" :: ps := by
  have hstart : ("/" ++ "/".intercalate ps).startsWith "/" = true := by simp
  have hsplit : ("/" ++ "/".intercalate ps).toList = [] ++ '/' :: ("/".intercalate ps).toList := by
    rw [String.toList_append]
    rfl
  rw [writtenParts_eq, hstart, hsplit, betweenSlashes_append, betweenSlashes_nil,
    betweenSlashes_intercalate h]
  rfl

/-! ## Places -/

theorem IsPlace.entries (h : IsPlace here) :
    ∃ ps, (∀ p ∈ ps, IsPart p) ∧ (here.reverse = ps ∨ here.reverse = "" :: ps) := by
  induction h with
  | relative => exact ⟨[], by simp, .inl rfl⟩
  | absolute => exact ⟨[], by simp, .inr rfl⟩
  | @entry p here hp h ih =>
    obtain ⟨ps, hps, hhere⟩ := ih
    refine ⟨ps ++ [p], fun q hq => ?_, ?_⟩
    · rcases List.mem_append.1 hq with hq | hq
      · exact hps q hq
      · exact List.mem_singleton.1 hq ▸ hp.toIsPart
    · rw [List.reverse_cons]
      rcases hhere with hhere | hhere
      · exact .inl (by rw [hhere])
      · exact .inr (by rw [hhere, List.cons_append])

/-- The parts of a canonical path are those of its place. -/
theorem writtenParts_join (h : IsPlace here) : writtenParts (join here) = here.reverse := by
  obtain ⟨ps, hps, hhere | hhere⟩ := h.entries
  · have hroot : here ≠ [""] := by
      rintro rfl
      exact (hps "" (hhere ▸ List.mem_cons_self)).ne_empty rfl
    rw [join, if_neg hroot, hhere, writtenParts_relative hps]
  · have hjoin : join here = "/" ++ "/".intercalate ps := by
      rw [join]
      split
      · rename_i hroot
        rw [hroot] at hhere
        rw [(List.cons.inj hhere).2.symm]
        rfl
      · rename_i hroot
        have hne : ps ≠ [] := by
          rintro rfl
          exact hroot (List.reverse_eq_iff.1 hhere)
        rw [hhere, String.intercalate_cons_of_ne_nil hne, String.empty_append]
    rw [hjoin, hhere, writtenParts_absolute hps]

/-! ## Names in directories -/

/-- What comes before the name of something in a directory. -/
def stem (directory : String) : String :=
  if directory.isEmpty then ""
  else if directory.endsWith "/" then directory
  else directory ++ "/"

theorem child_eq (directory name : String) : child directory name = stem directory ++ name := by
  rw [child, stem]
  split
  · rw [String.empty_append]
  · split <;> rfl

theorem endsWith_slash_iff (path : String) :
    path.endsWith "/" = true ↔ ∃ cs, path.toList = cs ++ ['/'] := by
  rw [String.endsWith, String.Slice.endsWith_string_iff, String.copy_toSlice]
  exact ⟨fun ⟨cs, h⟩ => ⟨cs, h.symm⟩, fun ⟨cs, h⟩ => ⟨cs, h.symm⟩⟩

theorem stem_eq (path : String) :
    path = "" ∧ stem path = "" ∨
      path ≠ "" ∧ path.toList <+: (stem path).toList ∧ ∃ cs, (stem path).toList = cs ++ ['/'] ∧
        betweenSlashes cs = betweenSlashes path.toList := by
  by_cases hempty : path = ""
  · subst hempty
    exact .inl ⟨rfl, rfl⟩
  refine .inr ⟨hempty, ?_⟩
  rw [stem, if_neg (by simpa using hempty)]
  by_cases hslash : path.endsWith "/" = true
  · obtain ⟨cs, hpath⟩ := (endsWith_slash_iff path).1 hslash
    refine ⟨by simp [hslash], cs, by rw [if_pos hslash, hpath], ?_⟩
    rw [hpath, betweenSlashes_append, betweenSlashes_nil, List.append_nil]
  · exact ⟨by simp [hslash], path.toList, by simp [hslash], rfl⟩

/-- A path of a directory with a name behind it tells the name, and with another name leads to
the same directory. -/
theorem child_inj {d d' name name' : String} (hname : '/' ∉ name.toList)
    (hname' : '/' ∉ name'.toList) (h : child d name = child d' name') :
    name = name' ∧ ∀ other, child d other = child d' other := by
  have hlast (d : String) {name : String} (hname : '/' ∉ name.toList) :
      (child d name).toList.reverse.takeWhile (· ≠ '/') = name.toList.reverse := by
    have hall : ∀ c ∈ name.toList.reverse, decide (c ≠ '/') = true := by
      intro c hc
      have hmem := List.mem_reverse.1 hc
      exact decide_eq_true fun he => hname (he ▸ hmem)
    rw [child_eq, String.toList_append, List.reverse_append, List.takeWhile_append_of_pos hall]
    obtain ⟨-, hstem⟩ | ⟨-, -, cs, hcs, -⟩ := stem_eq d
    · simp [hstem]
    · simp [hcs]
  have hnames : name = name' := by
    have hlasts := hlast d hname
    rw [h, hlast d' hname', List.reverse_inj] at hlasts
    exact (String.toList_inj.1 hlasts).symm
  subst hnames
  rw [child_eq, child_eq, String.append_left_inj] at h
  exact ⟨rfl, fun other => by rw [child_eq, child_eq, h]⟩

theorem endsWith_child (path : String) {name : String} (hname : IsPart name) :
    (child path name).endsWith "/" = false := by
  rw [Bool.eq_false_iff, Ne, endsWith_slash_iff]
  rintro ⟨cs, hcs⟩
  have hlast : (child path name).toList.getLast? = some '/' := by simp [hcs]
  rw [child_eq, String.toList_append, List.getLast?_append] at hlast
  cases hc : name.toList.getLast? with
  | none => exact hname.ne_empty (String.toList_eq_nil_iff.1 (List.getLast?_eq_none_iff.1 hc))
  | some c =>
    rw [hc] at hlast
    exact hname.slash (Option.some.inj hlast ▸ List.mem_of_getLast? hc)

theorem child_ne_empty (path : String) {name : String} (hname : IsPart name) :
    child path name ≠ "" := by
  rw [child_eq]
  intro h
  exact hname.ne_empty (String.append_eq_empty_iff.1 h).2

theorem parts_child (path : String) {name : String} (hname : IsPart name) :
    parts (child path name) = writtenParts path ++ [name] := by
  rw [parts, endsWith_child path hname, if_neg Bool.false_ne_true, List.append_nil,
    writtenParts_eq, writtenParts_eq, child_eq, String.toList_append]
  obtain ⟨c, ds, hc, hslash⟩ := hname.begins
  obtain ⟨rfl, hstem⟩ | ⟨hne, ⟨tail, htail⟩, cs, hcs, hparts⟩ := stem_eq path
  · have hstart : name.startsWith "/" = false := by simp [hc, Ne.symm hslash]
    rw [hstem, String.empty_append, String.toList_empty, List.nil_append, hstart,
      betweenSlashes_part hname]
    rfl
  · have hstart : (stem path ++ name).startsWith "/" = path.startsWith "/" := by
      obtain ⟨b, bs, hb⟩ := List.exists_cons_of_ne_nil (mt String.toList_eq_nil_iff.1 hne)
      rw [Bool.eq_iff_iff, String.startsWith_string_iff, String.startsWith_string_iff,
        String.toList_append, ← htail, hb]
      simp
    rw [hcs, List.append_assoc, List.singleton_append, betweenSlashes_append, hparts,
      betweenSlashes_part hname, hstart, List.append_assoc]

theorem child_join (h : IsPlace here) {name : String} (hname : IsPart name) :
    child (join here) name = join (name :: here) := by
  have hjoin {p : String} (hp : IsPart p) (here : List String) :
      join (p :: here) = "/".intercalate (here.reverse ++ [p]) := by
    rw [join, if_neg (by simp [hp.ne_empty]), List.reverse_cons]
  rw [hjoin hname]
  induction h generalizing name with
  | relative => simp [join, child]
  | absolute =>
    have hroot : "/".endsWith "/" = true := (endsWith_slash_iff "/").2 ⟨[], rfl⟩
    simp [join, child, hroot]
  | @entry p here hp h ih =>
    have hdirectory : child (join here) p = join (p :: here) :=
      (ih hp.toIsPart).trans (hjoin hp.toIsPart here).symm
    have hend := endsWith_child (join here) hp.toIsPart
    have hne := child_ne_empty (join here) hp.toIsPart
    rw [hdirectory] at hend hne
    rw [child, if_neg (by simpa using hne), hend, if_neg Bool.false_ne_true,
      String.intercalate_append_of_ne_nil (by simp) (by simp), String.intercalate_singleton,
      hjoin hp.toIsPart, List.reverse_cons]

/-- What has the same name in two places is apart. -/
theorem child_join_inj {here' : List String} (h : IsPlace here) (h' : IsPlace here') {name : String}
    (hname : IsEntry name) (heq : child (join here) name = child (join here') name) :
    here = here' := by
  rw [child_join h hname.toIsPart, child_join h' hname.toIsPart] at heq
  have hparts := congrArg writtenParts heq
  rw [writtenParts_join (.entry hname h), writtenParts_join (.entry hname h'), List.reverse_inj] at hparts
  exact (List.cons.inj hparts).2

/-! ## Following paths -/

variable {there ps : List String} {p : String}

theorem follow_cons_eq_ok :
    t.follow here (p :: ps) = .ok there ↔
      t.isDirectory (join here) = true ∧ isName p = true ∧
        t.follow (descend here p) ps = .ok there := by
  rw [follow]
  split
  · split <;> simp_all
  · simp_all

theorem follow_append_eq_ok {qs : List String} :
    t.follow here (ps ++ qs) = .ok there ↔
      ∃ mid, t.follow here ps = .ok mid ∧ t.follow mid qs = .ok there := by
  induction ps generalizing here with
  | nil => simp [follow]
  | cons p ps ih =>
    rw [List.cons_append, follow_cons_eq_ok, ih]
    constructor
    · rintro ⟨hd, hn, mid, hmid, hqs⟩
      exact ⟨mid, follow_cons_eq_ok.2 ⟨hd, hn, hmid⟩, hqs⟩
    · rintro ⟨mid, hmid, hqs⟩
      obtain ⟨hd, hn, hmid⟩ := follow_cons_eq_ok.1 hmid
      exact ⟨hd, hn, mid, hmid, hqs⟩

/-- A place that its own parts lead to. -/
structure Reached (t : FileTree α) (here : List String) : Prop where
  isPlace : IsPlace here
  follow : t.follow [] here.reverse = .ok here

theorem descend_of_isEntry (hp : IsEntry p) : descend here p = p :: here := by
  rw [descend, if_neg hp.ne_point, if_neg hp.ne_points]

theorem reached_relative : t.Reached [] := ⟨.relative, rfl⟩

theorem reached_absolute : t.Reached [""] := by
  refine ⟨.absolute, ?_⟩
  have hname : isName "" = true := by decide
  simp [FileTree.follow, hname, isDirectory, join, descend]

theorem Reached.descend (h : t.Reached here) (hd : t.isDirectory (join here) = true)
    (hp : IsPart p) (hn : isName p = true) : t.Reached (descend here p) := by
  by_cases hpoint : p = "."
  · rwa [hpoint, FileTree.descend, if_pos rfl]
  by_cases hpoints : p = ".."
  · rw [hpoints, FileTree.descend, if_neg (by decide), if_pos rfl]
    cases h.isPlace with
    | relative => exact reached_relative
    | absolute => exact reached_absolute
    | @entry q above hq habove =>
      -- The parts of the place lead through the directory above it.
      have hfollow := h.follow
      rw [List.reverse_cons, follow_append_eq_ok] at hfollow
      obtain ⟨mid, hmid, hlast⟩ := hfollow
      obtain ⟨-, -, hlast⟩ := follow_cons_eq_ok.1 hlast
      rw [descend_of_isEntry hq] at hlast
      cases hlast
      simpa [hq.ne_empty] using (⟨habove, hmid⟩ : t.Reached above)
  · have hentry : IsEntry p := ⟨hp, hpoint, hpoints⟩
    rw [descend_of_isEntry hentry]
    refine ⟨.entry hentry h.isPlace, ?_⟩
    rw [List.reverse_cons, follow_append_eq_ok]
    exact ⟨here, h.follow, follow_cons_eq_ok.2 ⟨hd, hn, by rw [descend_of_isEntry hentry]; rfl⟩⟩

theorem Reached.of_follow (h : t.Reached here) (hps : ∀ p ∈ ps, IsPart p)
    (hf : t.follow here ps = .ok there) : t.Reached there := by
  induction ps generalizing here with
  | nil =>
    cases hf
    exact h
  | cons p ps ih =>
    obtain ⟨hd, hn, hf⟩ := follow_cons_eq_ok.1 hf
    exact ih (h.descend hd (hps p List.mem_cons_self) hn)
      (fun q hq => hps q (List.mem_cons_of_mem _ hq)) hf

theorem reached_of_follow_writtenParts (h : t.follow [] (writtenParts path) = .ok here) :
    t.Reached here := by
  rw [writtenParts_eq, follow_append_eq_ok] at h
  obtain ⟨root, hroot, h⟩ := h
  refine Reached.of_follow ?_ (fun _ => isPart_of_mem) h
  split at hroot
  · obtain ⟨-, -, hroot⟩ := follow_cons_eq_ok.1 hroot
    cases hroot
    exact reached_absolute
  · cases hroot
    exact reached_relative

/-! ## Directories that paths lead to -/

/-- The path leads to the directory at a place. -/
structure Leads (t : FileTree α) (path : String) (here : List String) : Prop where
  follow : t.follow [] (writtenParts path) = .ok here
  isDirectory : t.isDirectory (join here) = true

theorem Leads.unique (h : t.Leads path here) (h' : t.Leads path there) : here = there := by
  have hfollow := h.follow
  rw [h'.follow] at hfollow
  exact (Except.ok.inj hfollow).symm

theorem Leads.isPlace (h : t.Leads path here) : IsPlace here :=
  (reached_of_follow_writtenParts h.follow).isPlace

theorem Leads.canonical (h : t.Leads path here) : t.Leads (join here) here := by
  have hreached := reached_of_follow_writtenParts h.follow
  refine ⟨?_, h.isDirectory⟩
  rw [writtenParts_join hreached.isPlace, hreached.follow]

theorem toOption_eq_some_iff {ε β : Type} {x : Except ε β} {b : β} :
    x.toOption = some b ↔ x = .ok b := by
  cases x <;> simp [Except.toOption]

/-- A name in a directory is found in the directory that its path leads to. -/
theorem canonical?_child {name c : String} (hname : IsEntry name) (hn : isName name = true) :
    t.canonical? (child path name) = some c ↔
      ∃ here, t.Leads path here ∧ c = child (join here) name := by
  have hne : (child path name).isEmpty = false := by
    simpa using child_ne_empty path hname.toIsPart
  rw [canonical?, hne, if_neg Bool.false_ne_true, parts_child path hname.toIsPart]
  constructor
  · intro h
    obtain ⟨there, hthere, rfl⟩ := Option.map_eq_some_iff.1 h
    obtain ⟨here, hhere, hlast⟩ := follow_append_eq_ok.1 (toOption_eq_some_iff.1 hthere)
    obtain ⟨hd, -, hlast⟩ := follow_cons_eq_ok.1 hlast
    rw [descend_of_isEntry hname] at hlast
    cases hlast
    have hlead : t.Leads path here := ⟨hhere, hd⟩
    exact ⟨here, hlead, (child_join hlead.isPlace hname.toIsPart).symm⟩
  · rintro ⟨here, h, rfl⟩
    have hfollow : t.follow [] (writtenParts path ++ [name]) = .ok (name :: here) :=
      follow_append_eq_ok.2 ⟨here, h.follow, follow_cons_eq_ok.2
        ⟨h.isDirectory, hn, by rw [descend_of_isEntry hname]; rfl⟩⟩
    rw [hfollow, child_join h.isPlace hname.toIsPart]
    rfl

/-- The canonical path of a directory is where its paths lead. -/
theorem Leads.canonical?_eq (h : t.Leads path here) (hne : path ≠ "") :
    t.canonical? path = some (join here) := by
  have hfollow : t.follow [] (parts path) = .ok here := by
    have hpoint : t.follow here ["."] = .ok here :=
      follow_cons_eq_ok.2 ⟨h.isDirectory, by decide, rfl⟩
    rw [parts, follow_append_eq_ok]
    refine ⟨here, h.follow, ?_⟩
    split
    · exact hpoint
    · rfl
  rw [canonical?, if_neg (by simpa using hne), hfollow]
  rfl

end Searchlight.FileTree
