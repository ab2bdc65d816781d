import Searchlight.Action

/-!
# Reasoning about actions

Ways to follow an action. Where only an invariant matters, `Keeps I x Q` says that `x` keeps
`I` whether it fails or not, and gives results of `Q`; there is one rule for each way to put
actions together. Where success and failure leave different things, `Yields P x Q E` tells both.
Where it matters how the action ended, `bind_eq_ok` and `bind_eq_error` take a run apart step by
step; `Except` has the same two for work that touches no state, and where only the failure matters
it is compared with what is `checked`.
-/

namespace Searchlight

namespace Except

variable {α β : Type}

theorem bind_eq_ok {x : Except Error α} {f : α → Except Error β} {b : β} :
    (x >>= f) = .ok b ↔ ∃ a, x = .ok a ∧ f a = .ok b := by
  cases x <;> simp [bind, Except.bind]

theorem bind_eq_error {x : Except Error α} {f : α → Except Error β} {e : Error} :
    (x >>= f) = .error e ↔ x = .error e ∨ ∃ a, x = .ok a ∧ f a = .error e := by
  cases x <;> simp [bind, Except.bind]

theorem map_eq_ok {x : Except Error α} {f : α → β} {b : β} :
    x.map f = .ok b ↔ ∃ a, x = .ok a ∧ f a = b := by
  cases x <;> simp [Except.map]

theorem map_eq_error {x : Except Error α} {f : α → β} {e : Error} :
    x.map f = .error e ↔ x = .error e := by
  cases x <;> simp [Except.map]

theorem toBool_eq_true {x : Except Error α} : x.toBool = true ↔ ∃ a, x = .ok a := by
  cases x <;> simp [Except.toBool]

theorem toBool_map {x : Except Error α} {f : α → β} : (x.map f).toBool = x.toBool := by
  cases x <;> rfl

theorem mapM_eq_error {f : α → Except Error β} {xs : List α} {e : Error}
    (h : xs.mapM f = .error e) : ∃ x ∈ xs, f x = .error e := by
  induction xs with
  | nil => cases h
  | cons x xs ih =>
    rw [List.mapM_cons, bind_eq_error] at h
    rcases h with h | ⟨_, -, h⟩
    · exact ⟨x, List.mem_cons_self, h⟩
    · rcases bind_eq_error.1 h with h | ⟨_, -, h⟩
      · obtain ⟨y, hy, hf⟩ := ih h
        exact ⟨y, List.mem_cons_of_mem _ hy, hf⟩
      · cases h

theorem toBool_mapM {f : α → Except Error β} {xs : List α} :
    (xs.mapM f).toBool = xs.all fun x => (f x).toBool := by
  induction xs with
  | nil => rfl
  | cons x xs ih =>
    rw [List.mapM_cons, List.all_cons, ← ih]
    cases f x <;> cases xs.mapM f <;> rfl

theorem exists_of_mem_mapM {f : α → Except Error β} {xs : List α} {ys : List β}
    (h : xs.mapM f = .ok ys) {y : β} (hy : y ∈ ys) : ∃ x ∈ xs, f x = .ok y := by
  induction xs generalizing ys with
  | nil =>
    cases h
    cases hy
  | cons x xs ih =>
    rw [List.mapM_cons] at h
    obtain ⟨z, hz, h⟩ := bind_eq_ok.1 h
    obtain ⟨zs, hzs, h⟩ := bind_eq_ok.1 h
    cases h
    rcases List.mem_cons.1 hy with rfl | hy
    · exact ⟨x, List.mem_cons_self, hz⟩
    · obtain ⟨x', hx', hf⟩ := ih hzs hy
      exact ⟨x', List.mem_cons_of_mem _ hx', hf⟩

theorem exists_mem_of_mapM {f : α → Except Error β} {xs : List α} {ys : List β}
    (h : xs.mapM f = .ok ys) {x : α} (hx : x ∈ xs) : ∃ y ∈ ys, f x = .ok y := by
  induction xs generalizing ys with
  | nil => cases hx
  | cons x' xs ih =>
    rw [List.mapM_cons] at h
    obtain ⟨z, hz, h⟩ := bind_eq_ok.1 h
    obtain ⟨zs, hzs, h⟩ := bind_eq_ok.1 h
    cases h
    rcases List.mem_cons.1 hx with rfl | hx
    · exact ⟨z, List.mem_cons_self, hz⟩
    · obtain ⟨y, hy, hf⟩ := ih hzs hx
      exact ⟨y, List.mem_cons_of_mem _ hy, hf⟩

end Except

/-! ## Checks -/

def checked : Option Error → Except Error Unit
  | none => .ok ()
  | some e => .error e

section
variable {α : Type} {x : Except Error α} {wrong : Option Error}
  (h : x.map (fun _ => ()) = checked wrong)
include h

/-- Work fails with what is wrong. -/
theorem eq_error_iff_of_checked {e : Error} : x = .error e ↔ wrong = some e := by
  cases x <;> cases wrong <;> simp_all [Except.map, checked]

theorem exists_eq_ok_iff_of_checked : (∃ a, x = .ok a) ↔ wrong = none := by
  cases x <;> cases wrong <;> simp_all [Except.map, checked]

end

theorem map_mapM {α β : Type} {f : α → Except Error β} {wrong? : α → Option Error}
    (h : ∀ a, (f a).map (fun _ => ()) = checked (wrong? a)) (as : List α) :
    (as.mapM f).map (fun _ => ()) = checked (as.findSome? wrong?) := by
  induction as with
  | nil => rfl
  | cons a as ih =>
    have ha := h a
    rw [List.mapM_cons, List.findSome?_cons]
    cases hf : f a <;> cases hw : wrong? a <;> rw [hf, hw] at ha <;> cases ha
    · rfl
    · rw [← ih]
      cases as.mapM f <;> rfl

namespace Option

variable {α β : Type} {f : α → Option β} {xs : List α}

theorem isSome_mapM : (xs.mapM f).isSome = xs.all fun x => (f x).isSome := by
  induction xs with
  | nil => rfl
  | cons x xs ih =>
    rw [List.mapM_cons, List.all_cons, ← ih]
    cases f x <;> cases xs.mapM f <;> rfl

theorem exists_of_mem_mapM {ys : List β} (h : xs.mapM f = some ys) {y : β} (hy : y ∈ ys) :
    ∃ x ∈ xs, f x = some y := by
  induction xs generalizing ys with
  | nil =>
    cases h
    cases hy
  | cons x xs ih =>
    rw [List.mapM_cons] at h
    obtain ⟨z, hz, h⟩ := Option.bind_eq_some_iff.1 h
    obtain ⟨zs, hzs, h⟩ := Option.bind_eq_some_iff.1 h
    cases h
    rcases List.mem_cons.1 hy with rfl | hy
    · exact ⟨x, List.mem_cons_self, hz⟩
    · obtain ⟨x', hx', hf⟩ := ih hzs hy
      exact ⟨x', List.mem_cons_of_mem _ hx', hf⟩

theorem mem_mapM_iff {ys : List β} (h : xs.mapM f = some ys) {y : β} :
    y ∈ ys ↔ ∃ x ∈ xs, f x = some y := by
  refine ⟨exists_of_mem_mapM h, ?_⟩
  rintro ⟨x, hx, hf⟩
  induction xs generalizing ys with
  | nil => cases hx
  | cons x' xs ih =>
    rw [List.mapM_cons] at h
    obtain ⟨z, hz, h⟩ := Option.bind_eq_some_iff.1 h
    obtain ⟨zs, hzs, h⟩ := Option.bind_eq_some_iff.1 h
    cases h
    rcases List.mem_cons.1 hx with rfl | hx
    · cases hz.symm.trans hf
      exact List.mem_cons_self
    · exact List.mem_cons_of_mem _ (ih hzs hx)

end Option

namespace Action

variable {σ τ α β : Type}

/-- How work ends from a state. -/
def outcome (x : Action σ α) (s : σ) : Except Error α :=
  match x s with
  | .ok a _ => .ok a
  | .error e _ => .error e

/-- The state that work leaves. -/
def after (x : Action σ α) (s : σ) : σ :=
  match x s with
  | .ok _ s => s
  | .error _ s => s

theorem outcome_eq_ok {x : Action σ α} {s : σ} {a : α} :
    x.outcome s = .ok a ↔ ∃ s', x s = .ok a s' := by
  rw [outcome]
  cases x s <;> simp

theorem outcome_eq_error {x : Action σ α} {s : σ} {e : Error} :
    x.outcome s = .error e ↔ ∃ s', x s = .error e s' := by
  rw [outcome]
  cases x s <;> simp

def passes (x : Action σ α) (s : σ) (p : α → σ → Bool) : Bool :=
  match x s with
  | .ok a s => p a s
  | .error _ _ => false

theorem passes_iff {x : Action σ α} {s : σ} {p : α → σ → Bool} :
    x.passes s p = true ↔ ∃ a s', x s = .ok a s' ∧ p a s' = true := by
  rw [passes]
  cases x s with
  | ok a s' =>
    refine ⟨fun h => ⟨a, s', rfl, h⟩, ?_⟩
    rintro ⟨_, _, hrun, h⟩
    cases hrun
    exact h
  | error e s' => simp

theorem outcome_bind_congr {x : Action σ α} {y : Action τ α} {f : α → Action σ β}
    {g : α → Action τ β} {s : σ} {t : τ} (hxy : x.outcome s = y.outcome t)
    (hfg : ∀ a s t, (f a).outcome s = (g a).outcome t) :
    (x >>= f : Action σ β).outcome s = (y >>= g : Action τ β).outcome t := by
  simp only [outcome, bind, EStateM.bind] at hxy ⊢
  cases hx : x s <;> cases hy : y t <;> simp only [hx, hy] at hxy ⊢ <;> cases hxy
  · exact hfg _ _ _
  · rfl

/-! ## Runs step by step -/

theorem bind_eq_ok {x : Action σ α} {f : α → Action σ β} {s s' : σ} {b : β} :
    (x >>= f) s = .ok b s' ↔ ∃ a t, x s = .ok a t ∧ f a t = .ok b s' := by
  simp only [bind, EStateM.bind]
  cases x s <;> simp [and_assoc]

theorem bind_eq_error {x : Action σ α} {f : α → Action σ β} {s s' : σ} {e : Error} :
    (x >>= f) s = .error e s' ↔
      x s = .error e s' ∨ ∃ a t, x s = .ok a t ∧ f a t = .error e s' := by
  simp only [bind, EStateM.bind]
  cases x s <;> simp [and_assoc]

theorem bind_of_ok {x : Action σ α} {f : α → Action σ β} {s t : σ} {a : α} (h : x s = .ok a t) :
    (x >>= f) s = f a t := by
  simp [bind, EStateM.bind, h]

@[simp] theorem pure_run {a : α} {s : σ} : (pure a : Action σ α) s = .ok a s := rfl

@[simp] theorem throw_run {e : Error} {s : σ} : (throw e : Action σ α) s = .error e s := rfl

@[simp] theorem set_run {s t : σ} : (set t : Action σ PUnit) s = .ok ⟨⟩ t := rfl

@[simp] theorem modify_run {f : σ → σ} {s : σ} :
    (modify f : Action σ PUnit) s = .ok ⟨⟩ (f s) := rfl

@[simp] theorem get_run {s : σ} : (get : Action σ σ) s = .ok s s := rfl

@[simp] theorem map_run {f : α → β} {x : Action σ α} {s : σ} :
    (f <$> x) s =
      match x s with
      | .ok a t => .ok (f a) t
      | .error e t => .error e t := by
  simp only [Functor.map, EStateM.map]
  cases x s <;> rfl

@[simp] theorem ite_run {p : Prop} [Decidable p] {x y : Action σ α} {s : σ} :
    (if p then x else y) s = if p then x s else y s := by
  split <;> rfl

theorem get_bind {f : σ → Action σ β} {s : σ} : (get >>= f) s = f s s := rfl

theorem after_get_bind {f : σ → Action σ β} {s : σ} : (get >>= f).after s = (f s).after s := rfl

@[simp] theorem bind_run {x : Action σ α} {f : α → Action σ β} {s : σ} :
    (x >>= f) s =
      match x s with
      | .ok a t => f a t
      | .error e t => .error e t := by
  simp only [bind, EStateM.bind]
  cases x s <;> rfl

theorem throw_bind {e : Error} {f : α → Action σ β} : (throw e >>= f : Action σ β) = throw e := rfl

theorem ofExcept_run {x : Except Error α} {s : σ} :
    ofExcept x s =
      match x with
      | .ok a => .ok a s
      | .error e => .error e s := by
  cases x <;> rfl

theorem tryCatch_run {x : Action σ α} {f : Error → Action σ α} {s : σ} :
    tryCatch x f s =
      match x s with
      | .ok a t => .ok a t
      | .error e t => f e t := by
  change EStateM.tryCatch x f s = _
  delta EStateM.tryCatch
  dsimp only
  cases x s <;> rfl

theorem ofExcept_eq_ok {x : Except Error α} {s s' : σ} {a : α} :
    ofExcept x s = .ok a s' ↔ x = .ok a ∧ s' = s := by
  cases x <;> simp [ofExcept_run, eq_comm]

theorem ofExcept_eq_error {x : Except Error α} {s s' : σ} {e : Error} :
    ofExcept x s = .error e s' ↔ x = .error e ∧ s' = s := by
  cases x <;> simp [ofExcept_run, eq_comm]

theorem orUndo_eq_ok {x : Action σ α} {y : Action σ Unit} {s s' : σ} {a : α} :
    x.orUndo y s = .ok a s' ↔ x s = .ok a s' := by
  rw [orUndo, tryCatch_run]
  cases x s with
  | ok b t => rfl
  | error e t =>
    refine iff_of_false (fun h => ?_) (by simp)
    obtain ⟨_, _, -, h⟩ := bind_eq_ok.1 h
    cases h

theorem forM_eq_error {f : α → Action σ PUnit} {xs : List α} {s s' : σ} {e : Error} :
    xs.forM f s = .error e s' ↔
      ∃ done x rest t, xs = done ++ x :: rest ∧ done.forM f s = .ok () t ∧ f x t = .error e s' := by
  induction xs generalizing s with
  | nil =>
    refine iff_of_false (fun h => by cases h) ?_
    rintro ⟨done, x, rest, t, h, -⟩
    simp at h
  | cons a xs ih =>
    change (f a >>= fun _ => xs.forM f) s = .error e s' ↔ _
    rw [bind_eq_error]
    constructor
    · rintro (h | ⟨_, t, ha, h⟩)
      · exact ⟨[], a, xs, s, rfl, rfl, h⟩
      · obtain ⟨done, x, rest, t', rfl, hdone, hx⟩ := ih.1 h
        refine ⟨a :: done, x, rest, t', rfl, ?_, hx⟩
        change (f a >>= fun _ => done.forM f) s = _
        rw [bind_of_ok ha, hdone]
    · rintro ⟨done, x, rest, t, h, hdone, hx⟩
      cases done with
      | nil =>
        obtain ⟨rfl, rfl⟩ := List.cons.inj h
        cases hdone
        exact .inl hx
      | cons b done =>
        obtain ⟨rfl, rfl⟩ := List.cons.inj h
        change (f a >>= fun _ => done.forM f) s = _ at hdone
        obtain ⟨_, t', ha, hdone⟩ := bind_eq_ok.1 hdone
        exact .inr ⟨_, t', ha, ih.2 ⟨done, x, rest, t, rfl, hdone, hx⟩⟩

/-! ## Invariants -/

/-- Work keeps an invariant, whether it fails or not, and its results are of `Q`. -/
def Keeps (I : σ → Prop) (x : Action σ α) (Q : α → Prop) : Prop :=
  ∀ s, I s →
    match x s with
    | .ok a s' => I s' ∧ Q a
    | .error _ s' => I s'

section
variable {I : σ → Prop} {J : τ → Prop} {Q : α → Prop} {R : β → Prop}

theorem Keeps.after {x : Action σ α} (hx : Keeps I x Q) {s : σ} (hs : I s) : I (x.after s) := by
  have h := hx s hs
  rw [Action.after]
  cases hr : x s <;> rw [hr] at h
  · exact h.1
  · exact h

theorem Keeps.of_after {x : Action σ α} (hx : ∀ s, I s → I (x.after s)) :
    Keeps I x fun _ => True := by
  intro s hs
  have h := hx s hs
  rw [Action.after] at h
  cases hr : x s <;> rw [hr] at h
  · exact ⟨h, trivial⟩
  · exact h

theorem Keeps.of_ok {x : Action σ α} (hx : Keeps I x Q) {s s' : σ} {a : α} (hs : I s)
    (hr : x s = .ok a s') : I s' ∧ Q a := by
  have h := hx s hs
  rwa [hr] at h

theorem Keeps.of_error {x : Action σ α} (hx : Keeps I x Q) {s s' : σ} {e : Error} (hs : I s)
    (hr : x s = .error e s') : I s' := by
  have h := hx s hs
  rwa [hr] at h

theorem Keeps.mono {Q' : α → Prop} {x : Action σ α} (hx : Keeps I x Q) (h : ∀ a, Q a → Q' a) :
    Keeps I x Q' := by
  intro s hs
  have := hx s hs
  cases hr : x s <;> rw [hr] at this
  · exact ⟨this.1, h _ this.2⟩
  · exact this

theorem Keeps.and {K : σ → Prop} {Q' : α → Prop} {x : Action σ α} (hx : Keeps I x Q)
    (hy : Keeps K x Q') : Keeps (fun s => I s ∧ K s) x Q := by
  intro s hs
  have h := hx s hs.1
  have h' := hy s hs.2
  cases hr : x s <;> rw [hr] at h h'
  · exact ⟨⟨h.1, h'.1⟩, h.2⟩
  · exact ⟨h, h'⟩

theorem Keeps.nothing {x : Action σ α} : Keeps (fun _ => True) x fun _ => True := by
  intro s _
  cases x s <;> simp

theorem Keeps.pure {a : α} (h : Q a) : Keeps I (Pure.pure a : Action σ α) Q :=
  fun _ hs => ⟨hs, h⟩

theorem Keeps.throw {e : Error} : Keeps I (throw e : Action σ α) Q := fun _ hs => hs

theorem Keeps.get : Keeps I (get : Action σ σ) I := fun _ hs => ⟨hs, hs⟩

/-- After a look at the state one may go on with an invariant that holds there and implies the
one to be kept. -/
theorem Keeps.look {f : σ → Action σ β}
    (hf : ∀ s, I s → ∃ J : σ → Prop, J s ∧ (∀ t, J t → I t) ∧ Keeps J (f s) R) :
    Keeps I (MonadState.get >>= f) R := by
  intro s hs
  obtain ⟨J, hJ, hI, h⟩ := hf s hs
  have := h s hJ
  rw [get_bind]
  cases hr : f s s <;> rw [hr] at this
  · exact ⟨hI _ this.1, this.2⟩
  · exact hI _ this

/-- After a change of the state one may go on with an invariant that holds then and implies the one
to be kept. -/
theorem Keeps.turn {K : σ → Prop} {f : σ → σ} {x : PUnit → Action σ β} (hx : Keeps K (x ⟨⟩) R)
    (hf : ∀ s, I s → K (f s)) (hK : ∀ s, K s → I s) :
    Keeps I ((modify f : Action σ PUnit) >>= x) R := by
  intro s hs
  have := hx (f s) (hf s hs)
  change match x ⟨⟩ (f s) with | .ok a s' => I s' ∧ R a | .error _ s' => I s'
  cases hr : x ⟨⟩ (f s) <;> rw [hr] at this
  · exact ⟨hK _ this.1, this.2⟩
  · exact hK _ this

theorem Keeps.set {s : σ} (h : I s) : Keeps I (set s : Action σ PUnit) fun _ => True :=
  fun _ _ => ⟨h, trivial⟩

theorem Keeps.modify {f : σ → σ} (h : ∀ s, I s → I (f s)) :
    Keeps I (modify f : Action σ PUnit) fun _ => True :=
  fun s hs => ⟨h s hs, trivial⟩

theorem Keeps.bind {x : Action σ α} {f : α → Action σ β} (hx : Keeps I x Q)
    (hf : ∀ a, Q a → Keeps I (f a) R) : Keeps I (x >>= f) R := by
  intro s hs
  have h := hx s hs
  simp only [Bind.bind, EStateM.bind]
  cases hr : x s <;> rw [hr] at h
  · exact hf _ h.2 _ h.1
  · exact h

theorem Keeps.seq {x : Action σ α} {f : α → Action σ β} (hx : Keeps I x fun _ => True)
    (hf : ∀ a, Keeps I (f a) R) : Keeps I (x >>= f) R := hx.bind fun a _ => hf a

theorem Keeps.map {f : α → β} {x : Action σ α} (hx : Keeps I x Q) (hf : ∀ a, Q a → R (f a)) :
    Keeps I (f <$> x) R := by
  intro s hs
  have h := hx s hs
  simp only [Functor.map, EStateM.map]
  cases hr : x s <;> rw [hr] at h
  · exact ⟨h.1, hf _ h.2⟩
  · exact h

theorem Keeps.ite {p : Prop} [Decidable p] {x y : Action σ α} (hx : p → Keeps I x Q)
    (hy : ¬p → Keeps I y Q) : Keeps I (if p then x else y) Q := by
  split
  · rename_i hp
    exact hx hp
  · rename_i hp
    exact hy hp

theorem Keeps.ofExcept {x : Except Error α} (h : ∀ a, x = .ok a → Q a) :
    Keeps I (ofExcept x : Action σ α) Q := by
  cases x with
  | ok a => exact Keeps.pure (h a rfl)
  | error e => exact Keeps.throw

theorem Keeps.tryCatch {x : Action σ α} {f : Error → Action σ α} (hx : Keeps I x Q)
    (hf : ∀ e, Keeps I (f e) Q) : Keeps I (tryCatch x f) Q := by
  intro s hs
  have h := hx s hs
  rw [tryCatch_run]
  cases hr : x s <;> rw [hr] at h
  · exact h
  · exact hf _ _ h

theorem Keeps.orUndo {x : Action σ α} {y : Action σ Unit} (hx : Keeps I x Q)
    (hy : Keeps I y fun _ => True) : Keeps I (x.orUndo y) Q :=
  hx.tryCatch fun _ => hy.bind fun _ _ => .throw

theorem Keeps.thenAlways {x : Action σ α} {y : Action σ Unit} (hx : Keeps I x Q)
    (hy : Keeps I y fun _ => True) : Keeps I (x.thenAlways y) Q :=
  (hx.orUndo hy).bind fun _ ha => hy.bind fun _ _ => .pure ha

theorem Keeps.forM_option {f : α → Action σ PUnit} {o : Option α}
    (hf : ∀ a, o = some a → Keeps I (f a) fun _ => True) : Keeps I (o.forM f) fun _ => True := by
  cases o with
  | none => exact .pure trivial
  | some a => exact hf a rfl

theorem Keeps.forM_list {f : α → Action σ PUnit} {xs : List α}
    (hf : ∀ a ∈ xs, Keeps I (f a) fun _ => True) : Keeps I (xs.forM f) fun _ => True := by
  induction xs with
  | nil => exact .pure trivial
  | cons a xs ih =>
    exact (hf a List.mem_cons_self).bind fun _ _ => ih fun b hb => hf b (List.mem_cons_of_mem _ hb)

/-- Work on a part keeps what the part needs, which then has to be put back. -/
theorem Keeps.focus {get : σ → τ} {put : τ → σ → σ} {x : Action τ α} (hx : Keeps J x Q)
    (hget : ∀ s, I s → J (get s)) (hput : ∀ s t, I s → J t → I (put t s)) :
    Keeps I (x.focus get put) Q := by
  intro s hs
  have h := hx (get s) (hget s hs)
  rw [Action.focus]
  cases hr : x (get s) <;> rw [hr] at h
  · exact ⟨hput s _ hs h.1, h.2⟩
  · exact hput s _ hs h

end

theorem Keeps.second {I : σ → Prop} {J : τ → Prop} {x : Action τ α} {Q : α → Prop}
    (hx : Keeps J x Q) : Keeps (fun s : σ × τ => I s.1 ∧ J s.2) (Action.second x) Q :=
  hx.focus (fun _ h => h.2) fun _ _ h ht => ⟨h.1, ht⟩

/-! ## Failures that break an invariant -/

/-- The state that work leaves satisfies an invariant, unless the work failed in the way that is
told. -/
def EndsUnless (E : Error → σ → Prop) (I : σ → Prop) (r : EStateM.Result Error σ α) : Prop :=
  match r with
  | .ok _ s => I s
  | .error e s => I s ∨ E e s

/-- Work keeps an invariant, unless it fails in the way that is told. -/
def KeepsUnless (E : Error → σ → Prop) (I : σ → Prop) (x : Action σ α) : Prop :=
  ∀ s, I s → EndsUnless E I (x s)

section
variable {E : Error → σ → Prop} {F : Error → τ → Prop} {I : σ → Prop} {J : τ → Prop}

theorem Keeps.unless {x : Action σ α} {Q : α → Prop} (hx : Keeps I x Q) : KeepsUnless E I x := by
  intro s hs
  have h := hx s hs
  cases hr : x s <;> rw [hr] at h
  · exact h.1
  · exact .inl h

/-- Work that never fails in that way keeps the invariant. -/
theorem KeepsUnless.keeps {x : Action σ α} (hx : KeepsUnless (fun _ _ => False) I x) :
    Keeps I x fun _ => True := by
  intro s hs
  have h := hx s hs
  cases hr : x s <;> rw [hr] at h
  · exact ⟨h, trivial⟩
  · exact h.resolve_right id

theorem KeepsUnless.bind {x : Action σ α} {f : α → Action σ β} (hx : KeepsUnless E I x)
    (hf : ∀ a, KeepsUnless E I (f a)) : KeepsUnless E I (x >>= f) := by
  intro s hs
  have h := hx s hs
  rw [bind_run]
  cases hr : x s <;> rw [hr] at h
  · exact hf _ _ h
  · exact h

theorem KeepsUnless.focus {get : σ → τ} {put : τ → σ → σ} {x : Action τ α}
    (hx : KeepsUnless F J x) (hget : ∀ s, I s → J (get s))
    (hput : ∀ s t, I s → J t → I (put t s))
    (hfail : ∀ e s t, I s → F e t → E e (put t s)) : KeepsUnless E I (x.focus get put) := by
  intro s hs
  have h := hx (get s) (hget s hs)
  rw [Action.focus]
  cases hr : x (get s) <;> rw [hr] at h
  · exact hput s _ hs h
  · exact h.imp (hput s _ hs) (hfail _ s _ hs)

end

/-! ## Ways to fail -/

/-- Work fails with errors of one kind alone. -/
def FailsAs (P : Error → Prop) (x : Action σ α) : Prop := ∀ s e s', x s = .error e s' → P e

section
variable {P : Error → Prop}

theorem FailsAs.pure {a : α} : FailsAs P (Pure.pure a : Action σ α) := fun _ _ _ h => nomatch h

theorem FailsAs.throw {e : Error} (h : P e) : FailsAs P (throw e : Action σ α) := by
  rintro s e s' ⟨⟩
  exact h

theorem FailsAs.modify {f : σ → σ} : FailsAs P (modify f : Action σ PUnit) :=
  fun _ _ _ h => nomatch h

theorem FailsAs.set {s : σ} : FailsAs P (set s : Action σ PUnit) := fun _ _ _ h => nomatch h

theorem FailsAs.bind {x : Action σ α} {f : α → Action σ β} (hx : FailsAs P x)
    (hf : ∀ a, FailsAs P (f a)) : FailsAs P (x >>= f) := by
  intro s e s' h
  rcases bind_eq_error.1 h with h | ⟨a, t, -, h⟩
  · exact hx s e s' h
  · exact hf a t e s' h

theorem FailsAs.get_bind {f : σ → Action σ α} (hf : ∀ s, FailsAs P (f s)) :
    FailsAs P (get >>= f) := fun s e s' h => hf s s e s' h

theorem FailsAs.ite {p : Prop} [Decidable p] {x y : Action σ α} (hx : p → FailsAs P x)
    (hy : ¬p → FailsAs P y) : FailsAs P (if p then x else y) := by
  split
  · rename_i hp
    exact hx hp
  · rename_i hp
    exact hy hp

theorem FailsAs.map {f : α → β} {x : Action σ α} (hx : FailsAs P x) : FailsAs P (f <$> x) := by
  intro s e s' h
  rw [map_run] at h
  cases hr : x s <;> rw [hr] at h <;> cases h
  exact hx s e s' hr

theorem FailsAs.forM_option {f : α → Action σ PUnit} {o : Option α} (hf : ∀ a, FailsAs P (f a)) :
    FailsAs P (o.forM f) := by
  cases o with
  | none => exact .pure
  | some a => exact hf a

theorem FailsAs.forM_list {f : α → Action σ PUnit} {xs : List α} (hf : ∀ a, FailsAs P (f a)) :
    FailsAs P (xs.forM f) := by
  induction xs with
  | nil => exact .pure
  | cons a xs ih => exact (hf a).bind fun _ => ih

theorem FailsAs.ofExcept {x : Except Error α} (hx : ∀ e, x = .error e → P e) :
    FailsAs P (Action.ofExcept x : Action σ α) := fun _ e _ h => hx e (ofExcept_eq_error.1 h).1

theorem FailsAs.focus {get : σ → τ} {put : τ → σ → σ} {x : Action τ α} (hx : FailsAs P x) :
    FailsAs P (x.focus get put) := by
  intro s e s' h
  rw [Action.focus] at h
  cases hr : x (get s) <;> rw [hr] at h <;> cases h
  exact hx _ e _ hr

theorem FailsAs.second {x : Action τ α} (hx : FailsAs P x) :
    FailsAs P (Action.second x : Action (σ × τ) α) := hx.focus

theorem orUndo_eq_error {x : Action σ α} {y : Action σ Unit} (hy : FailsAs (fun _ => False) y)
    {s s' : σ} {e : Error} (h : x.orUndo y s = .error e s') :
    ∃ t, x s = .error e t ∧ s' = y.after t := by
  rw [orUndo, tryCatch_run] at h
  cases hx : x s with
  | ok a t =>
    rw [hx] at h
    cases h
  | error e' t =>
    rw [hx] at h
    rcases bind_eq_error.1 h with h | ⟨_, t', hrun, h⟩
    · exact (hy t e s' h).elim
    · cases h
      exact ⟨t, rfl, by rw [Action.after, hrun]⟩

end

/-! ## Outcomes -/

/-- Work from a state of `P` succeeds with a result and a state of `Q`, or fails with one of `E`. -/
def Yields (P : σ → Prop) (x : Action σ α) (Q : α → σ → Prop) (E : σ → Prop) : Prop :=
  ∀ s, P s →
    match x s with
    | .ok a t => Q a t
    | .error _ t => E t

section
variable {P E F : σ → Prop} {Q : α → σ → Prop} {R : β → σ → Prop}

theorem Keeps.yields {x : Action σ α} {S : α → Prop} (hx : Keeps P x S) :
    Yields P x (fun a s => P s ∧ S a) P := hx

theorem Yields.of_ok {x : Action σ α} (hx : Yields P x Q E) {s t : σ} {a : α} (hs : P s)
    (hr : x s = .ok a t) : Q a t := by
  have h := hx s hs
  rwa [hr] at h

theorem Yields.after {x : Action σ α} (hx : Yields P x (fun _ => E) E) {s : σ} (hs : P s) :
    E (x.after s) := by
  have h := hx s hs
  rw [Action.after]
  cases hr : x s <;> rw [hr] at h <;> exact h

theorem Yields.pure {a : α} (h : ∀ s, P s → Q a s) : Yields P (Pure.pure a : Action σ α) Q E := h

theorem Yields.throw {e : Error} (h : ∀ s, P s → E s) : Yields P (throw e : Action σ α) Q E := h

theorem Yields.bind {x : Action σ α} {f : α → Action σ β} (hx : Yields P x Q E)
    (hf : ∀ a, Yields (Q a) (f a) R E) : Yields P (x >>= f) R E := by
  intro s hs
  have h := hx s hs
  rw [bind_run]
  cases hr : x s <;> rw [hr] at h
  · exact hf _ _ h
  · exact h

theorem Yields.of_state {x : Action σ α} (hx : ∀ s, P s → Yields (· = s) x Q E) : Yields P x Q E :=
  fun s hs => hx s hs s rfl

theorem Yields.look {f : σ → Action σ β} (hf : ∀ s, P s → Yields (· = s) (f s) R E) :
    Yields P (get >>= f) R E := fun s hs => hf s hs s rfl

theorem Yields.ite {p : Prop} [Decidable p] {x y : Action σ α} (hx : p → Yields P x Q E)
    (hy : ¬p → Yields P y Q E) : Yields P (if p then x else y) Q E := by
  split
  · rename_i hp
    exact hx hp
  · rename_i hp
    exact hy hp

theorem Yields.pre {P' : σ → Prop} {x : Action σ α} (hx : Yields P x Q E) (h : ∀ s, P' s → P s) :
    Yields P' x Q E := fun s hs => hx s (h s hs)

theorem Keeps.then {x : Action σ α} {f : α → Action σ β} {S : α → Prop} (hx : Keeps P x S)
    (hf : ∀ a, S a → Yields P (f a) R P) : Yields P (x >>= f) R P :=
  hx.yields.bind fun a s hs => hf a hs.2 s hs.1

theorem Yields.map {f : α → β} {x : Action σ α} (hx : Yields P x (fun a => R (f a)) E) :
    Yields P (f <$> x) R E := by
  intro s hs
  have h := hx s hs
  rw [map_run]
  cases hr : x s <;> rw [hr] at h <;> exact h

theorem Yields.second {P E : τ → Prop} {Q : α → τ → Prop} {x : Action τ α} (hx : Yields P x Q E)
    (s : σ) : Yields (fun y : σ × τ => y.1 = s ∧ P y.2) (Action.second x)
      (fun a y => y.1 = s ∧ Q a y.2) fun y => y.1 = s ∧ E y.2 := by
  rintro ⟨_, t⟩ ⟨rfl, ht⟩
  have h := hx t ht
  rw [Action.second, Action.focus]
  dsimp only
  cases hr : x t <;> rw [hr] at h
  · exact ⟨rfl, h⟩
  · exact ⟨rfl, h⟩

theorem Yields.orUndo {x : Action σ α} {y : Action σ Unit} (hx : Yields P x Q F)
    (hy : Yields F y (fun _ => E) E) : Yields P (x.orUndo y) Q E := by
  intro s hs
  have h := hx s hs
  rw [Action.orUndo, tryCatch_run]
  cases hr : x s with
  | ok a t =>
    rw [hr] at h
    exact h
  | error e t =>
    rw [hr] at h
    exact (hy.bind fun _ => Yields.throw fun _ h => h) t h

theorem Yields.and {I : σ → Prop} {S : α → Prop} {x : Action σ α} (hx : Yields P x Q E)
    (hI : Keeps I x S) : Yields (fun s => P s ∧ I s) x (fun a s => Q a s ∧ I s) E := by
  intro s hs
  have h := hx s hs.1
  have h' := hI s hs.2
  cases hr : x s <;> rw [hr] at h h'
  · exact ⟨h, h'.1⟩
  · exact h

theorem Yields.mono {x : Action σ α} (hx : Yields P x Q E) {Q' : α → σ → Prop} {E' : σ → Prop}
    (hQ : ∀ a s, Q a s → Q' a s) (hE : ∀ s, E s → E' s) : Yields P x Q' E' := by
  intro s hs
  have h := hx s hs
  cases hr : x s <;> rw [hr] at h
  · exact hQ _ _ h
  · exact hE _ h

end

end Action

end Searchlight
