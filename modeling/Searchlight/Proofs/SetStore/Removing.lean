import Searchlight.Proofs.SetStore.Documents

/-!
# Removing a store

A store is removed page by page: it scans for keys that match its pattern and deletes them. The
pattern is matched by the keys that begin with the prefix of the store and a colon and by no others
(`KeySpace.pattern_iff`), whatever characters the prefix has and whoever matches it. Pages may be cut
in any way: keys are deleted while the scan is under way, but a key that no page had was there
throughout, so a scan that keeps its promise has had all keys that match (`Scanner.Lawful.clears`).
So a store that is destroyed leaves no key of its own and all keys of others
(`Store.destroy_cases`).
-/

namespace Searchlight

/-! ## Patterns -/

namespace Text

/-- What every matcher of patterns does, whatever else it knows, such as classes in brackets: a
character that is not special stands for itself, so does any character after a backslash, and a star
at the end stands for any text. -/
structure GlobLaws (isMatch : List Char → List Char → Bool) : Prop where
  star : ∀ cs, isMatch ['*'] cs = true
  cons : ∀ {p : Char}, SetStore.KeySpace.isPatternChar p = false → ∀ ps cs,
    isMatch (p :: ps) cs = true ↔ ∃ rest, cs = p :: rest ∧ isMatch ps rest = true
  escape : ∀ p ps cs,
    isMatch ('\\' :: p :: ps) cs = true ↔ ∃ rest, cs = p :: rest ∧ isMatch ps rest = true

/-- An escaped text is matched by itself. -/
theorem GlobLaws.escaped {isMatch : List Char → List Char → Bool} (hm : GlobLaws isMatch)
    (ps s cs : List Char) :
    isMatch ((s.flatMap fun c => if SetStore.KeySpace.isPatternChar c then ['\\', c] else [c]) ++ ps)
        cs = true ↔ ∃ rest, cs = s ++ rest ∧ isMatch ps rest = true := by
  induction s generalizing cs with
  | nil => simp
  | cons c s ih =>
    have hstep : isMatch ((if SetStore.KeySpace.isPatternChar c then ['\\', c] else [c]) ++
          ((s.flatMap fun c => if SetStore.KeySpace.isPatternChar c then ['\\', c] else [c]) ++ ps))
        cs = true ↔ ∃ left, cs = c :: left ∧ ∃ rest, left = s ++ rest ∧ isMatch ps rest = true := by
      simp only [← ih]
      by_cases hc : SetStore.KeySpace.isPatternChar c = true
      · rw [if_pos hc]
        exact hm.escape c _ cs
      · rw [if_neg hc]
        exact hm.cons (by simpa using hc) _ cs
    rw [List.flatMap_cons, List.append_assoc, hstep]
    constructor
    · rintro ⟨_, rfl, rest, rfl, hrest⟩
      exact ⟨rest, rfl, hrest⟩
    · rintro ⟨rest, rfl, hrest⟩
      exact ⟨s ++ rest, rfl, rest, rfl, hrest⟩

theorem anySuffix_isEmpty (cs : List Char) : anySuffix (globMatch []) cs = true := by
  induction cs with
  | nil => rfl
  | cons c cs ih => rw [anySuffix, ih, Bool.or_true]

theorem beq_and_iff (p c : Char) (ps cs : List Char) :
    (p == c && globMatch ps cs) = true ↔ ∃ rest, c :: cs = p :: rest ∧ globMatch ps rest = true := by
  rw [Bool.and_eq_true, beq_iff_eq]
  constructor
  · rintro ⟨rfl, h⟩
    exact ⟨cs, rfl, h⟩
  · rintro ⟨rest, hcons, h⟩
    cases hcons
    exact ⟨rfl, h⟩

theorem globMatch_laws : GlobLaws globMatch where
  star := anySuffix_isEmpty
  cons {p} h ps cs := by
    simp only [SetStore.KeySpace.isPatternChar, Bool.or_eq_false_iff, beq_eq_false_iff_ne] at h
    cases cs with
    | nil => simp [globMatch, h]
    | cons c cs =>
      rw [← beq_and_iff]
      simp [globMatch, h]
  escape p ps cs := by
    cases cs with
    | nil => simp [globMatch]
    | cons c cs =>
      rw [← beq_and_iff]
      simp [globMatch]

end Text

namespace SetStore

/-- A key of a store, whatever it is for. -/
def KeySpace.Owns (k : KeySpace) (key : String) : Prop := ∃ rest, key = k.stem ++ (":" ++ rest)

variable {k k' : KeySpace} {v v' : Server} {s : Store} {key : String}

namespace KeySpace

theorem owns_key (r : Role) : k.Owns (r.key k) := ⟨_, rfl⟩

/-- A key has one owner. -/
theorem Owns.unique (hk : IsValidStem k.stem) (hk' : IsValidStem k'.stem) (h : k.Owns key)
    (h' : k'.Owns key) : k' = k := by
  obtain ⟨rest, rfl⟩ := h
  obtain ⟨rest', h'⟩ := h'
  have hlist : k.stem.toList ++ ':' :: rest.toList = k'.stem.toList ++ ':' :: rest'.toList := by
    simpa using congrArg String.toList h'
  have hstem := (Text.append_cons_inj (Role.colon_notMem_stem hk) (Role.colon_notMem_stem hk') hlist).1
  cases k
  cases k'
  exact congrArg KeySpace.mk (String.toList_injective hstem).symm

theorem eq_of_owns (hk : IsValidStem k.stem) (hk' : IsValidStem k'.stem) {r : Role}
    (h : k'.Owns (r.key k)) : k' = k := Owns.unique hk hk' (owns_key r) h

/-- **The pattern of a store** is matched by its keys and by no others, whoever matches it. -/
theorem pattern_iff {isMatch : List Char → List Char → Bool} (hm : Text.GlobLaws isMatch) :
    isMatch k.pattern.toList key.toList = true ↔ k.Owns key := by
  have hcolon (rest : List Char) :
      isMatch [':', '*'] rest = true ↔ ∃ rest', rest = ':' :: rest' := by
    simp [hm.cons (p := ':') (by decide), hm.star]
  rw [pattern, String.toList_ofList, hm.escaped]
  constructor
  · rintro ⟨_, hkey, hrest⟩
    obtain ⟨rest, rfl⟩ := (hcolon _).1 hrest
    exact ⟨.ofList rest, String.toList_injective (by simpa using hkey)⟩
  · rintro ⟨rest, rfl⟩
    exact ⟨':' :: rest.toList, by simp, (hcolon _).2 ⟨_, rfl⟩⟩

theorem globMatch_pattern : Text.globMatch k.pattern.toList key.toList = true ↔ k.Owns key :=
  pattern_iff Text.globMatch_laws

instance : Decidable (k.Owns key) := decidable_of_iff _ globMatch_pattern

end KeySpace

/-! ## Scans -/

/-- A server that is asked for its keys page by page. A scan gives the cursor of the next page and
the keys of this one; it may keep note of how far it is, but leaves the keys as they are. -/
structure Scanner (State : Type) where
  keys : State → KeyMap Datum
  scan : State → Nat → State × Nat × List String
  delete : State → List String → State
  keys_scan : ∀ x cursor, keys (scan x cursor).1 = keys x
  get?_delete : ∀ x found key,
    (keys (delete x found)).get? key = if key ∈ found then none else (keys x).get? key

namespace Scanner

/-- A page, and the keys that were there when it was asked for. -/
structure Page where
  keys : KeyMap Datum
  found : List String

variable {State : Type} (S : Scanner State)

/-- The server without the keys of a page. It is not asked to delete none. -/
def without (x : State) (found : List String) : State :=
  if found.isEmpty then x else S.delete x found

/-- The pages from a cursor on are asked for, and the keys of each are deleted before the next one is
asked for, until there is no next one. -/
inductive Clears : Nat → State → List Page → State → Prop where
  | last {cursor : Nat} {x y : State} {found : List String}
    (hscan : S.scan x cursor = (y, 0, found)) :
    Clears cursor x [⟨S.keys x, found⟩] (S.without y found)
  | next {cursor next : Nat} {x y z : State} {found : List String} {pages : List Page}
    (hscan : S.scan x cursor = (y, next, found)) (hnext : next ≠ 0)
    (hrest : Clears next (S.without y found) pages z) :
    Clears cursor x (⟨S.keys x, found⟩ :: pages) z

/-- What is promised of scans: the keys of a page match, and a full cycle gives each key that matches
and was there throughout. -/
structure Lawful (isMatch : String → Prop) : Prop where
  only : ∀ x cursor, ∀ key ∈ (S.scan x cursor).2.2, isMatch key
  every : ∀ {x pages z}, S.Clears 0 x pages z → ∀ key, isMatch key →
    (∀ page ∈ pages, page.keys.contains key = true) → ∃ page ∈ pages, key ∈ page.found

variable {S} {x y z : State} {cursor next : Nat} {found : List String} {pages : List Page}
  {isMatch : String → Prop}

theorem get?_without (hscan : S.scan x cursor = (y, next, found)) (key : String) :
    (S.keys (S.without y found)).get? key =
      if key ∈ found then none else (S.keys x).get? key := by
  have hkeys : S.keys y = S.keys x := by rw [← S.keys_scan x cursor, hscan]
  rw [without]
  cases found with
  | nil => rw [List.isEmpty_nil, if_pos rfl, hkeys, if_neg List.not_mem_nil]
  | cons k found => rw [List.isEmpty_cons, if_neg (by decide), S.get?_delete, hkeys]

/-- The keys of all pages are gone, the others are left. -/
theorem Clears.get? (h : S.Clears cursor x pages z) (key : String) :
    (S.keys z).get? key =
      if ∃ page ∈ pages, key ∈ page.found then none else (S.keys x).get? key := by
  induction h with
  | last hscan => simp [get?_without hscan]
  | @next _ _ _ _ _ found _ hscan _ _ ih =>
    rw [ih, get?_without hscan]
    by_cases hhere : key ∈ found <;> simp [hhere]

theorem Clears.throughout (h : S.Clears cursor x pages z) {key : String}
    (hfound : ∀ page ∈ pages, key ∉ page.found) :
    ∀ page ∈ pages, page.keys.get? key = (S.keys x).get? key := by
  induction h with
  | last => simp
  | next hscan _ _ ih =>
    obtain ⟨hhere, hlater⟩ := List.forall_mem_cons.1 hfound
    refine List.forall_mem_cons.2 ⟨rfl, fun page hpage => ?_⟩
    rw [ih hlater page hpage, get?_without hscan, if_neg hhere]

theorem Lawful.of_mem (hl : S.Lawful isMatch) (h : S.Clears cursor x pages z) :
    ∀ page ∈ pages, ∀ key ∈ page.found, isMatch key := by
  have hfound {x y : State} {cursor next : Nat} {found : List String}
      (hscan : S.scan x cursor = (y, next, found)) : ∀ key ∈ found, isMatch key := by
    have := hl.only x cursor
    rwa [hscan] at this
  induction h with
  | last hscan => exact List.forall_mem_singleton.2 (hfound hscan)
  | next hscan _ _ ih => exact List.forall_mem_cons.2 ⟨hfound hscan, ih⟩

/-- **To clear page by page** deletes the keys that match and no others. -/
theorem Lawful.clears [DecidablePred isMatch] (hl : S.Lawful isMatch) (h : S.Clears 0 x pages z)
    (key : String) :
    (S.keys z).get? key = if isMatch key then none else (S.keys x).get? key := by
  rw [h.get?]
  by_cases hfound : ∃ page ∈ pages, key ∈ page.found
  · obtain ⟨page, hpage, hkey⟩ := hfound
    rw [if_pos ⟨page, hpage, hkey⟩, if_pos (hl.of_mem h page hpage key hkey)]
  rw [if_neg hfound]
  by_cases hmatch : isMatch key
  · -- A key that matches and that no page has cannot have been there throughout.
    rw [if_pos hmatch]
    by_contra hkey
    refine hfound (hl.every h key hmatch fun page hpage => ?_)
    rw [KeyMap.contains, h.throughout (fun p hp hk => hfound ⟨p, hp, hk⟩) page hpage]
    exact Option.isSome_iff_ne_none.2 hkey
  · rw [if_neg hmatch]

end Scanner

/-! ### The scans of the key server -/

def Server.scanned (v : Server) (cursor : Nat) : List String :=
  if cursor = 0 then v.keys.keys else v.scanning

/-- The key server, when it is asked for the keys that match a pattern. -/
def Server.scanner (pattern : String) : Scanner Server where
  keys := Server.keys
  scan v cursor :=
    ((v.run (.scan cursor pattern scanPageSize)).1,
      ((v.run (.scan cursor pattern scanPageSize)).2.scanPage?).getD (0, []))
  delete v found := (v.run (.delete found)).1
  keys_scan _ _ := rfl
  get?_delete := Server.get?_run_delete

namespace Server

variable {pattern : String} {cursor : Nat}

def pageOf (v : Server) (pattern : String) (cursor : Nat) : List String :=
  (((v.scanned cursor).drop cursor).take scanPageSize).filter fun key =>
    Text.globMatch pattern.toList key.toList

/-- The cursor of the page after this one, zero if there is none. -/
def nextCursor (v : Server) (cursor : Nat) : Nat :=
  if cursor + scanPageSize < (v.scanned cursor).length then cursor + scanPageSize else 0

theorem nextCursor_eq {v : Server} (h : v.nextCursor cursor ≠ 0) :
    v.nextCursor cursor = cursor + scanPageSize := by
  rw [nextCursor] at h ⊢
  split_ifs at h ⊢ <;> simp_all

theorem length_drop_le_of_nextCursor {v : Server} (h : v.nextCursor cursor = 0) :
    ((v.scanned cursor).drop cursor).length ≤ scanPageSize := by
  have hsize : scanPageSize ≠ 0 := by decide
  rw [nextCursor] at h
  split_ifs at h
  · omega
  · rw [List.length_drop]
    omega

theorem scanPage?_run (v : Server) (pattern : String) (cursor : Nat) :
    ((v.run (.scan cursor pattern scanPageSize)).2.scanPage?) =
      some (v.nextCursor cursor, v.pageOf pattern cursor) := by
  have hnext (n : Nat) : (toString n).toNat? = some n := Nat.toNat?_repr n
  simp only [Server.run, Server.scanPage, Reply.scanPage?, hnext, Reply.listOf?_text]
  rfl

theorem scan_eq (v : Server) (pattern : String) (cursor : Nat) :
    (scanner pattern).scan v cursor =
      ({ v with scanning := v.scanned cursor }, v.nextCursor cursor, v.pageOf pattern cursor) := by
  simp only [scanner, scanPage?_run, Option.getD_some]
  rfl

theorem scanning_without (v : Server) (found : List String) :
    ((scanner pattern).without v found).scanning = v.scanning := by
  rw [Scanner.without]
  split <;> rfl

theorem scanned_without (v : Server) (found : List String) {cursor next : Nat} (hnext : next ≠ 0) :
    ((scanner pattern).without { v with scanning := v.scanned cursor } found).scanned next =
      v.scanned cursor := by
  rw [scanned, if_neg hnext, scanning_without]

/-- The pages of a scan go through the keys that were there when it began. -/
theorem mem_pages {v v' : Server} {pages : List Scanner.Page}
    (h : (scanner pattern).Clears cursor v pages v') {key : String}
    (hmatch : Text.globMatch pattern.toList key.toList = true)
    (hkey : key ∈ (v.scanned cursor).drop cursor) : ∃ page ∈ pages, key ∈ page.found := by
  induction h with
  | @last cursor v y found hscan =>
    obtain ⟨-, hlast, rfl⟩ : _ ∧ v.nextCursor cursor = 0 ∧ v.pageOf pattern cursor = found := by
      simpa [scan_eq] using hscan
    refine ⟨_, List.mem_singleton_self _, List.mem_filter.2 ⟨?_, hmatch⟩⟩
    rwa [List.take_of_length_le (length_drop_le_of_nextCursor hlast)]
  | @next cursor next v y z found pages hscan hnext _ ih =>
    obtain ⟨rfl, rfl, rfl⟩ : { v with scanning := v.scanned cursor } = y ∧
        v.nextCursor cursor = next ∧ v.pageOf pattern cursor = found := by
      simpa [scan_eq] using hscan
    rw [scanned_without v _ hnext, nextCursor_eq hnext, ← List.drop_drop] at ih
    rw [← List.take_append_drop scanPageSize ((v.scanned cursor).drop cursor)] at hkey
    rcases List.mem_append.1 hkey with hkey | hkey
    · exact ⟨_, List.mem_cons_self, List.mem_filter.2 ⟨hkey, hmatch⟩⟩
    · obtain ⟨page, hpage, hfound⟩ := ih hkey
      exact ⟨page, List.mem_cons_of_mem _ hpage, hfound⟩

theorem scanner_lawful (pattern : String) :
    (scanner pattern).Lawful fun key => Text.globMatch pattern.toList key.toList = true where
  only v cursor key hkey := by
    rw [scan_eq] at hkey
    exact (List.mem_filter.1 hkey).2
  every {v pages v'} h key hmatch hthere := by
    refine mem_pages h hmatch (KeyMap.mem_keys.2 ?_)
    -- The first page notes the keys that were there at the beginning.
    cases h with
    | last => exact hthere _ (List.mem_singleton_self _)
    | next => exact hthere _ List.mem_cons_self

end Server

namespace Store

variable {v v' : Server} {s : Store}

theorem ask_scan (hs : s.Serves v) (e : String → Error) (cursor : Nat) (pattern : String) :
    ask e (.scan cursor pattern scanPageSize) Reply.scanPage? (s, v) =
      .ok (v.nextCursor cursor, v.pageOf pattern cursor)
        (s, { v with scanning := v.scanned cursor }) := by
  have hreply := v.scanPage?_run pattern cursor
  rw [ask_of_serves hs]
  simp only [Server.run, Server.scanPage, accept] at hreply ⊢
  rw [hreply]
  rfl

theorem ask_delete (hs : s.Serves v) (e : String → Error) (keys : List String) :
    ask e (.delete keys) (fun _ => some ()) (s, v) = .ok () (s, (v.run (.delete keys)).1) := by
  rw [ask_of_serves hs]
  rfl

def pageDeleted (k : KeySpace) (v : Server) (cursor : Nat) : Server :=
  (Server.scanner k.pattern).without { v with scanning := v.scanned cursor }
    (v.pageOf k.pattern cursor)

theorem answers_pageDeleted (k : KeySpace) (v : Server) (cursor : Nat) :
    (pageDeleted k v cursor).mode = v.mode ∧ (pageDeleted k v cursor).reachable = v.reachable := by
  rw [pageDeleted, Scanner.without]
  split <;> exact ⟨rfl, rfl⟩

theorem deletePages_succ (hs : s.Serves v) (pages cursor : Nat) :
    deletePages (pages + 1) cursor (s, v) =
      if v.nextCursor cursor ≠ 0 then
        deletePages pages (v.nextCursor cursor) (s, pageDeleted s.keys v cursor)
      else .ok () (s, pageDeleted s.keys v cursor) := by
  have hserves : s.Serves { v with scanning := v.scanned cursor } := hs
  have hdelete (found : List String) (rest : Work Unit) :
      (if !found.isEmpty then ask writeFailure (.delete found) (fun _ => some ()) >>= fun _ => rest
          else rest) (s, { v with scanning := v.scanned cursor }) =
        rest (s, (Server.scanner s.keys.pattern).without
          { v with scanning := v.scanned cursor } found) := by
    cases found with
    | nil => rfl
    | cons key found => exact Action.bind_of_ok (ask_delete hserves writeFailure (key :: found))
  rw [deletePages, Action.get_bind]
  dsimp only
  rw [Action.bind_of_ok (ask_scan hs readFailure cursor _)]
  refine (hdelete _ _).trans ?_
  by_cases hnext : v.nextCursor cursor = 0
  · rw [if_neg (not_not_intro hnext), if_neg (not_not_intro hnext)]
    rfl
  · rw [if_pos hnext, if_pos hnext, pageDeleted]

/-- **Pages are deleted** up to the last one, when there are turns enough. -/
theorem deletePages_clears (hs : s.Serves v) {turns cursor : Nat} (hpos : 0 < turns)
    (hturns : (v.scanned cursor).length ≤ cursor + turns * scanPageSize) :
    ∃ pages v', deletePages turns cursor (s, v) = .ok () (s, v') ∧
      (Server.scanner s.keys.pattern).Clears cursor v pages v' ∧
      v'.mode = v.mode ∧ v'.reachable = v.reachable := by
  induction turns generalizing v cursor with
  | zero => exact absurd hpos (Nat.lt_irrefl 0)
  | succ turns ih =>
    have hanswers := answers_pageDeleted s.keys v cursor
    have hscan := v.scan_eq s.keys.pattern cursor
    rw [deletePages_succ hs]
    by_cases hnext : v.nextCursor cursor = 0
    · rw [if_neg (not_not_intro hnext)]
      rw [hnext] at hscan
      exact ⟨_, _, rfl, .last hscan, hanswers⟩
    · have heq := Server.nextCursor_eq hnext
      have hscanned : (pageDeleted s.keys v cursor).scanned (v.nextCursor cursor) =
          v.scanned cursor := Server.scanned_without v _ hnext
      have hmore : cursor + scanPageSize < (v.scanned cursor).length := by
        rw [Server.nextCursor] at hnext
        by_contra hmore
        exact hnext (if_neg hmore)
      rw [Nat.succ_mul] at hturns
      obtain ⟨pages, v', hrun, hclears, hanswers'⟩ := ih (hs.congr hanswers)
        (Nat.pos_of_ne_zero fun h => by simp [h] at hturns; omega) (by rw [hscanned, heq]; omega)
      rw [if_pos hnext]
      exact ⟨_, v', hrun, .next hscan hnext hclears, hanswers'.1.trans hanswers.1,
        hanswers'.2.trans hanswers.2⟩

/-- **To destroy a store** deletes its keys and no others; or it is refused and changes nothing. -/
theorem destroy_cases (s : Store) (v : Server) :
    (s.Writes v ∧ ∃ pages v', destroy (s, v) = .ok () ({ s with schema := .empty }, v') ∧
        (Server.scanner s.keys.pattern).Clears 0 v pages v' ∧
        (∀ key, v'.keys.get? key = if s.keys.Owns key then none else v.keys.get? key) ∧
        v'.mode = v.mode ∧ v'.reachable = v.reachable) ∨
      ¬s.Writes v ∧ ∃ e, destroy (s, v) = .error e (s, v) := by
  by_cases hreadonly : s.readonly = true
  · refine .inr ⟨fun h => Bool.noConfusion (hreadonly.symm.trans h.1), .readOnlyViolation "destroy", ?_⟩
    rw [destroy, Action.bind_run, ensureWritable_run, if_pos hreadonly]
  have hwritable : ensureWritable "destroy" (s, v) = .ok () (s, v) := by
    rw [ensureWritable_run, if_neg hreadonly]
  by_cases hs : s.Serves v
  · have hturns : (v.scanned 0).length ≤ 0 + (v.keys.size + 1) * scanPageSize := by
      have hsize : (v.scanned 0).length = v.keys.size := List.length_map _
      rw [hsize, scanPageSize]
      omega
    obtain ⟨pages, v', hrun, hclears, hanswers⟩ :=
      deletePages_clears hs (Nat.succ_pos _) hturns
    refine .inl ⟨⟨by simpa using hreadonly, hs⟩, pages, v', ?_, hclears, fun key => ?_, hanswers⟩
    · rw [destroy, Action.bind_of_ok hwritable, Action.get_bind]
      dsimp only
      rw [Action.bind_of_ok hrun]
      rfl
    · rw [← if_congr KeySpace.globMatch_pattern rfl rfl]
      exact (Server.scanner_lawful s.keys.pattern).clears hclears key
  · obtain ⟨e, hask⟩ := ask_of_not_serves hs readFailure (.scan 0 s.keys.pattern scanPageSize)
      Reply.scanPage?
    refine .inr ⟨fun h => hs h.2, e, ?_⟩
    rw [destroy, Action.bind_of_ok hwritable, Action.get_bind]
    dsimp only
    rw [deletePages, bind_assoc, Action.get_bind]
    dsimp only
    rw [bind_assoc, Action.bind_run, hask]

end Store

end SetStore

end Searchlight
