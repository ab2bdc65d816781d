import Searchlight.Proofs.SetStore.Keys
import Searchlight.SetStore.Server

/-!
# What keys are for

Every key of a store has a role, and a key tells its role and its store (`Role.key_inj`): neither
two roles of a store nor two stores share a key. Each use of a builder of keys has a role of its
own, so what the builders make never collides (`KeySpace.Builder.build_eq_build_iff`). The role says
what kind of data the key holds. A server is in order for a store when all keys of the store hold data of their kinds
(`Server.InOrder`).
-/

namespace Searchlight.SetStore

/-- What a key of a store is for. -/
inductive Role where
  | docs
  | nextId
  | schema
  | data (id : String)
  | terms (id : String)
  | posting (field token : String)
  | anyField (token : String)
  /-- A temporary result. -/
  | temp (name : String)
  deriving DecidableEq

namespace Role

/-- The first part of the keys of a role after the stem. -/
def family : Role → String
  | docs | posting _ _ => "docs"
  | nextId => "nextid"
  | schema => "schema"
  | data _ => "data"
  | terms _ => "terms"
  | anyField _ => "any"
  | temp _ => "tmp"

/-- What follows the family. -/
def argument? : Role → Option String
  | docs | nextId | schema => none
  | data id | terms id => some id
  | posting field token =>
    some (toString field.utf8ByteSize ++ (":" ++ (field ++ (":" ++ token))))
  | anyField token => some token
  | temp name => some name

def key (k : KeySpace) (r : Role) : String :=
  k.stem ++ (":" ++ (r.family ++ (r.argument?.map (":" ++ ·)).getD ""))

variable {k k' : KeySpace} {r r' : Role}

theorem colon_notMem_family : ':' ∉ r.family.toList := by cases r <;> simp [family]

theorem colon_notMem_stem (hk : KeySpace.IsValidStem k.stem) : ':' ∉ k.stem.toList :=
  fun h => (hk.2 ':' h).1 rfl

theorem ext (hfamily : r.family = r'.family) (hargument : r.argument? = r'.argument?) : r = r' := by
  cases r <;> cases r' <;> simp [family, argument?] at hfamily hargument ⊢ <;> try assumption
  -- Two postings: the size tells where the name of the field ends.
  obtain ⟨hsize, hrest⟩ := KeySpace.digits_inj hargument
  obtain ⟨rfl, htoken⟩ := KeySpace.append_inj_of_size hrest hsize
  exact ⟨rfl, (String.append_right_inj _).1 htoken⟩

/-- What stands before a colon can be told, and so can that there is none. -/
theorem append_argument_inj {s t : String} {a b : Option String} (hs : ':' ∉ s.toList)
    (ht : ':' ∉ t.toList)
    (h : s ++ (a.map (":" ++ ·)).getD "" = t ++ (b.map (":" ++ ·)).getD "") : s = t ∧ a = b := by
  have hl := congrArg String.toList h
  cases a <;> cases b
  · simpa using h
  · simp only [Option.map_none, Option.map_some, Option.getD_none, Option.getD_some,
      String.append_empty] at hl
    exact absurd (by simp [hl]) hs
  · simp only [Option.map_none, Option.map_some, Option.getD_none, Option.getD_some,
      String.append_empty] at hl
    exact absurd (by simp [← hl]) ht
  · rename_i x y
    have hcons : s.toList ++ ':' :: x.toList = t.toList ++ ':' :: y.toList := by simpa using hl
    obtain ⟨hst, hxy⟩ := Text.append_cons_inj hs ht hcons
    exact ⟨String.toList_injective hst, congrArg some (String.toList_injective hxy)⟩

/-- **Keys tell the store and the role.** -/
theorem key_inj (hk : KeySpace.IsValidStem k.stem) (hk' : KeySpace.IsValidStem k'.stem)
    (h : r.key k = r'.key k') : k = k' ∧ r = r' := by
  have hcons : k.stem.toList ++ ':' :: (r.family ++ (r.argument?.map (":" ++ ·)).getD "").toList =
      k'.stem.toList ++ ':' :: (r'.family ++ (r'.argument?.map (":" ++ ·)).getD "").toList := by
    simpa [key] using congrArg String.toList h
  obtain ⟨hstem, hrest⟩ :=
    Text.append_cons_inj (colon_notMem_stem hk) (colon_notMem_stem hk') hcons
  obtain ⟨hfamily, hargument⟩ := append_argument_inj colon_notMem_family colon_notMem_family
    (String.toList_injective hrest)
  refine ⟨?_, ext hfamily hargument⟩
  cases k; cases k'
  exact congrArg KeySpace.mk (String.toList_injective hstem)

theorem key_eq_key_iff (hk : KeySpace.IsValidStem k.stem) : r.key k = r'.key k ↔ r = r' :=
  ⟨fun h => (key_inj hk hk h).2, fun h => by rw [h]⟩

/-- The keys of the sets of ids that queries are made of. -/
def IsPosting (r : Role) : Prop := (∃ f t, r = posting f t) ∨ ∃ t, r = anyField t

end Role

/-! ## The keys of a store by their roles -/

namespace KeySpace

variable (k : KeySpace)

theorem key_two (a b : String) : k.key [a, b] = k.stem ++ (":" ++ (a ++ (":" ++ b))) := by
  simp only [key, String.intercalate_cons_cons, String.intercalate_singleton, String.append_assoc]

theorem docs_eq_key : k.docs = Role.docs.key k := by
  simp [docs, key, Role.key, Role.family, Role.argument?, String.append_assoc]

theorem nextId_eq_key : k.nextId = Role.nextId.key k := by
  simp [nextId, key, Role.key, Role.family, Role.argument?, String.append_assoc]

theorem schema_eq_key : k.schema = Role.schema.key k := by
  simp [schema, key, Role.key, Role.family, Role.argument?, String.append_assoc]

theorem data_eq_key (id : String) : k.data id = (Role.data id).key k := by
  rw [data, key_two]
  rfl

theorem terms_eq_key (id : String) : k.terms id = (Role.terms id).key k := by
  rw [terms, key_two]
  rfl

theorem anyField_eq_key (token : String) : k.anyField token = (Role.anyField token).key k := by
  rw [anyField, key_two]
  rfl

theorem posting_eq_key (field token : String) :
    k.posting field token = (Role.posting field token).key k := by
  simp only [posting, key, String.intercalate_cons_cons, String.intercalate_singleton,
    String.append_assoc]
  rfl

theorem temp_eq_key (run : String) (n : Nat) :
    k.temp run n = (Role.temp (run ++ (":" ++ toString n))).key k := by
  simp only [temp, key, String.intercalate_cons_cons, String.intercalate_singleton,
    String.append_assoc]
  rfl

theorem exists_role_of_mem_postings {d : PreparedDocument} {key : String}
    (h : key ∈ k.postings d) : ∃ r : Role, r.IsPosting ∧ key = r.key k := by
  obtain ⟨f, -, -, t, -, hkey⟩ := mem_postings.1 h
  have hposting : k.posting f.name t = (Role.posting f.name t).key k := k.posting_eq_key f.name t
  rw [tokenKeys] at hkey
  split at hkey
  · rcases List.mem_cons.1 hkey with rfl | hkey
    · exact ⟨_, .inr ⟨t, rfl⟩, k.anyField_eq_key t⟩
    · exact ⟨_, .inl ⟨f.name, t, rfl⟩, (List.mem_singleton.1 hkey).trans hposting⟩
  · exact ⟨_, .inl ⟨f.name, t, rfl⟩, (List.mem_singleton.1 hkey).trans hposting⟩

/-! ## The builders of keys -/

/-- A use of one of the builders of keys, with its arguments. -/
inductive Builder where
  | docs
  | nextId
  | schema
  | data (id : String)
  | terms (id : String)
  | posting (field token : String)
  | anyField (token : String)
  | temp (run : String) (n : Nat)
  deriving DecidableEq

namespace Builder

/-- The key that is built. -/
def build (k : KeySpace) : Builder → String
  | docs => k.docs
  | nextId => k.nextId
  | schema => k.schema
  | data id => k.data id
  | terms id => k.terms id
  | posting field token => k.posting field token
  | anyField token => k.anyField token
  | temp run n => k.temp run n

def role : Builder → Role
  | docs => .docs
  | nextId => .nextId
  | schema => .schema
  | data id => .data id
  | terms id => .terms id
  | posting field token => .posting field token
  | anyField token => .anyField token
  | temp run n => .temp (run ++ (":" ++ toString n))

variable {k k' : KeySpace}

theorem build_eq_key (k : KeySpace) (b : Builder) : b.build k = b.role.key k := by
  cases b with
  | docs => exact k.docs_eq_key
  | nextId => exact k.nextId_eq_key
  | schema => exact k.schema_eq_key
  | data id => exact k.data_eq_key id
  | terms id => exact k.terms_eq_key id
  | posting field token => exact k.posting_eq_key field token
  | anyField token => exact k.anyField_eq_key token
  | temp run n => exact k.temp_eq_key run n

/-- The number of a temporary result is what follows the last colon, so the label of the run may
have colons itself. -/
theorem temp_name_inj {run run' : String} {m n : Nat}
    (h : run ++ (":" ++ toString m) = run' ++ (":" ++ toString n)) : run = run' ∧ m = n := by
  have hcons : (toString m).toList.reverse ++ ':' :: run.toList.reverse =
      (toString n).toList.reverse ++ ':' :: run'.toList.reverse := by
    simpa using congrArg (List.reverse ∘ String.toList) h
  obtain ⟨hnumber, hrun⟩ := Text.append_cons_inj (mt List.mem_reverse.1 (colon_notMem_digits m))
    (mt List.mem_reverse.1 (colon_notMem_digits n)) hcons
  exact ⟨String.toList_injective (List.reverse_injective hrun),
    Nat.repr_injective (String.toList_injective (List.reverse_injective hnumber))⟩

theorem role_injective : Function.Injective role := by
  intro b b' h
  cases b <;> cases b' <;> simp only [role, reduceCtorEq, Role.data.injEq, Role.terms.injEq,
    Role.posting.injEq, Role.anyField.injEq, Role.temp.injEq] at h
  case temp.temp =>
    obtain ⟨rfl, rfl⟩ := temp_name_inj h
    rfl
  case posting.posting =>
    obtain ⟨rfl, rfl⟩ := h
    rfl
  all_goals simp [h]

/-- **No two uses of the builders give the same key**, neither in one store nor in two. -/
theorem build_eq_build_iff (hk : KeySpace.IsValidStem k.stem) (hk' : KeySpace.IsValidStem k'.stem)
    (b b' : Builder) : b.build k = b'.build k' ↔ k.stem = k'.stem ∧ b = b' := by
  rw [build_eq_key, build_eq_key]
  constructor
  · intro h
    obtain ⟨rfl, hrole⟩ := Role.key_inj hk hk' h
    exact ⟨rfl, role_injective hrole⟩
  · rintro ⟨hstem, rfl⟩
    rw [show k = k' from congrArg KeySpace.mk hstem]

/-- A colon may stand on either side of where the name of a field ends. -/
theorem build_ne_build_colons :
    (posting "a" "b:c").build ⟨"s"⟩ ≠ (posting "a:b" "c").build ⟨"s"⟩ :=
  fun h => absurd ((build_eq_build_iff (by decide) (by decide) _ _).1 h).2 (by decide)

end Builder

end KeySpace

/-! ## Kinds of data -/

inductive DatumKind where
  | text
  | hash
  | set
  deriving DecidableEq

def Datum.kind : Datum → DatumKind
  | text _ => .text
  | hash _ => .hash
  | set _ => .set

def Role.kind : Role → DatumKind
  | .nextId | .data _ => .text
  | .schema => .hash
  | .docs | .terms _ | .posting _ _ | .anyField _ | .temp _ => .set

theorem Role.IsPosting.kind {r : Role} (h : r.IsPosting) : r.kind = .set := by
  rcases h with ⟨f, t, rfl⟩ | ⟨t, rfl⟩ <;> rfl

namespace Server

/-- All keys of a store hold data of their kinds. -/
def InOrder (k : KeySpace) (v : Server) : Prop :=
  ∀ (r : Role) x, v.keys.get? (r.key k) = some x → x.kind = r.kind

variable {k : KeySpace} {v : Server} {r : Role}

theorem InOrder.set? (hv : v.InOrder k) (hr : r.kind = .set) :
    ∃ m, v.set? (r.key k) = some m := by
  rw [Server.set?]
  have := hv r
  cases hx : v.keys.get? (r.key k) with
  | none => exact ⟨_, rfl⟩
  | some x =>
    have hkind := (this x hx).trans hr
    cases x <;> simp [Datum.kind] at hkind
    exact ⟨_, rfl⟩

/-- A server that holds nothing under the keys of a store is in order for it. -/
theorem inOrder_of_none (h : ∀ r : Role, v.keys.get? (r.key k) = none) : v.InOrder k := by
  intro r x hx
  rw [h r] at hx
  cases hx

end Server

end Searchlight.SetStore
