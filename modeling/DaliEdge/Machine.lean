import Mathlib.Data.List.Induction

/-!
# Deterministic machines and their runs

A machine reads one input at a time, changes its state and gives one output. The rules
below pass from what one step preserves to what a whole run preserves; the guarded forms
ask every step of the run to meet a condition on the state before it and its input.
-/

structure Machine (σ ι ο : Type*) where
  step : σ → ι → σ × ο

namespace Machine

variable {σ ι ο : Type*} (M : Machine σ ι ο)

/-- The state after the inputs `xs`. -/
def after (s : σ) (xs : List ι) : σ := xs.foldl (fun t x => (M.step t x).1) s

/-- The outputs of the run on `xs`, one for each input. -/
def outputs (s : σ) : List ι → List ο
  | [] => []
  | x :: xs => (M.step s x).2 :: outputs (M.step s x).1 xs

@[simp] theorem after_nil (s : σ) : M.after s [] = s := rfl

@[simp] theorem after_cons (s : σ) (x : ι) (xs : List ι) :
    M.after s (x :: xs) = M.after (M.step s x).1 xs := rfl

theorem after_append (s : σ) (xs ys : List ι) :
    M.after s (xs ++ ys) = M.after (M.after s xs) ys := by
  simp only [after, List.foldl_append]

theorem after_snoc (s : σ) (xs : List ι) (x : ι) :
    M.after s (xs ++ [x]) = (M.step (M.after s xs) x).1 := by
  rw [after_append, after_cons, after_nil]

@[simp] theorem outputs_nil (s : σ) : M.outputs s [] = [] := rfl

@[simp] theorem outputs_cons (s : σ) (x : ι) (xs : List ι) :
    M.outputs s (x :: xs) = (M.step s x).2 :: M.outputs (M.step s x).1 xs := rfl

theorem outputs_append (s : σ) (xs ys : List ι) :
    M.outputs s (xs ++ ys) = M.outputs s xs ++ M.outputs (M.after s xs) ys := by
  induction xs generalizing s with
  | nil => rfl
  | cons x xs ih => simp only [List.cons_append, outputs_cons, after_cons, ih]

theorem outputs_snoc (s : σ) (xs : List ι) (x : ι) :
    M.outputs s (xs ++ [x]) = M.outputs s xs ++ [(M.step (M.after s xs) x).2] := by
  rw [outputs_append, outputs_cons, outputs_nil]

@[simp] theorem length_outputs (s : σ) (xs : List ι) :
    (M.outputs s xs).length = xs.length := by
  induction xs generalizing s with
  | nil => rfl
  | cons x xs ih => simp only [outputs_cons, List.length_cons, ih]

/-- An invariant of every step holds after every run. -/
theorem after_induction {P : σ → Prop} (hstep : ∀ s x, P s → P (M.step s x).1)
    {s : σ} (h : P s) (xs : List ι) : P (M.after s xs) := by
  induction xs generalizing s with
  | nil => exact h
  | cons x xs ih => exact ih (hstep s x h)

/-- Every step of the run on the inputs meets `G`, read before the step. -/
def Meets (G : σ → ι → Prop) (s : σ) : List ι → Prop
  | [] => True
  | x :: xs => G s x ∧ Meets G (M.step s x).1 xs

variable {G : σ → ι → Prop}

@[simp] theorem meets_nil (s : σ) : M.Meets G s [] := trivial

@[simp] theorem meets_cons (s : σ) (x : ι) (xs : List ι) :
    M.Meets G s (x :: xs) ↔ G s x ∧ M.Meets G (M.step s x).1 xs := Iff.rfl

theorem meets_append (s : σ) (xs ys : List ι) :
    M.Meets G s (xs ++ ys) ↔ M.Meets G s xs ∧ M.Meets G (M.after s xs) ys := by
  induction xs generalizing s with
  | nil => simp
  | cons x xs ih => simp only [List.cons_append, meets_cons, after_cons, ih, and_assoc]

theorem meets_snoc (s : σ) (xs : List ι) (x : ι) :
    M.Meets G s (xs ++ [x]) ↔ M.Meets G s xs ∧ G (M.after s xs) x := by
  rw [meets_append, meets_cons]
  simp

theorem Meets.of_prefix {s : σ} {xs ys : List ι} (h : M.Meets G s ys) (hp : xs <+: ys) :
    M.Meets G s xs := by
  obtain ⟨zs, rfl⟩ := hp
  exact ((M.meets_append s xs zs).1 h).1

theorem meets_iff_forall_prefix (s : σ) (xs : List ι) :
    M.Meets G s xs ↔ ∀ pre x, pre ++ [x] <+: xs → G (M.after s pre) x := by
  constructor
  · intro h pre x hp
    exact ((M.meets_snoc s pre x).1 (Meets.of_prefix M h hp)).2
  · intro h
    induction xs using List.reverseRecOn with
    | nil => trivial
    | append_singleton xs x ih =>
        rw [meets_snoc]
        refine ⟨ih fun pre y hp => h pre y (hp.trans (List.prefix_append _ _)), ?_⟩
        exact h xs x List.prefix_rfl

theorem exists_prefix_of_not_meets {s : σ} {xs : List ι} (h : ¬ M.Meets G s xs) :
    ∃ pre x, pre ++ [x] <+: xs ∧ ¬ G (M.after s pre) x := by
  by_contra! hall
  exact h ((M.meets_iff_forall_prefix s xs).2 hall)

/-- Induction along a guarded run, for a property of the inputs read so far. -/
theorem meets_induction {P : List ι → Prop} {s : σ} (h0 : P [])
    (hstep : ∀ xs x, M.Meets G s xs → G (M.after s xs) x → P xs → P (xs ++ [x]))
    {xs : List ι} (h : M.Meets G s xs) : P xs := by
  induction xs using List.reverseRecOn with
  | nil => exact h0
  | append_singleton xs x ih =>
      obtain ⟨hxs, hx⟩ := (M.meets_snoc s xs x).1 h
      exact hstep xs x hxs hx (ih hxs)

/-! ## Projections -/

section Projection

variable {σ' ο' ω : Type*} {M} {N : Machine σ' ι ο'} {π : σ → σ'}

theorem after_project (h : ∀ s x, π (M.step s x).1 = (N.step (π s) x).1) (s : σ) (xs : List ι) :
    π (M.after s xs) = N.after (π s) xs := by
  induction xs generalizing s with
  | nil => rfl
  | cons x xs ih => rw [after_cons, ih, h, after_cons]

theorem outputs_project {f : ο → ω} {g : ο' → ω}
    (h : ∀ s x, π (M.step s x).1 = (N.step (π s) x).1)
    (hout : ∀ s x, f (M.step s x).2 = g (N.step (π s) x).2) (s : σ) (xs : List ι) :
    (M.outputs s xs).map f = (N.outputs (π s) xs).map g := by
  induction xs generalizing s with
  | nil => rfl
  | cons x xs ih => rw [outputs_cons, outputs_cons, List.map_cons, List.map_cons, ih, h, hout]

end Projection

/-! ## Related runs -/

section Relation

variable {M} {R : σ → σ → Prop} {S : ι → ι → Prop} {T : ο → ο → Prop}

/-- Related inputs take related states to related states. -/
theorem related_after (h : ∀ s t x y, R s t → S x y → R (M.step s x).1 (M.step t y).1)
    {xs ys : List ι} (hinputs : List.Forall₂ S xs ys) {s t : σ} (hst : R s t) :
    R (M.after s xs) (M.after t ys) := by
  induction hinputs generalizing s t with
  | nil => exact hst
  | cons hxy hrest ih => exact ih (h s t _ _ hst hxy)

end Relation

/-! ## What the steps of a run yield -/

section Collect

variable {α : Type*}

/-- What `f` reads off the steps of a run, each from the state before it and its input. -/
def collect (f : σ → ι → Option α) (s : σ) : List ι → List α
  | [] => []
  | x :: xs => (f s x).toList ++ collect f (M.step s x).1 xs

variable {M} {held : σ → List α} {accepted consumed : σ → ι → Option α}

/-- Where every step appends what it accepts to what is held, and takes what it consumes from the
front, a run consumes what it accepts in the order of acceptance, up to what is held at its end. -/
theorem collect_conserved (h : ∀ s x,
      held s ++ (accepted s x).toList = (consumed s x).toList ++ held (M.step s x).1)
    (s : σ) (xs : List ι) :
    held s ++ M.collect accepted s xs = M.collect consumed s xs ++ held (M.after s xs) := by
  induction xs generalizing s with
  | nil => exact List.append_nil _
  | cons x xs ih =>
      simp only [collect, after_cons]
      rw [← List.append_assoc, h, List.append_assoc, ih, List.append_assoc]

end Collect

/-! ## Slots -/

section Slots

variable {κ β : Type*} {M} {slot : σ → κ → β} {Concerns : ι → κ → Prop} [DecidableRel Concerns]
  {g : β → ι → β}

/-- Where an input changes only the slots that it concerns, a run takes each slot through the
inputs that concern it. -/
theorem slot_after (h : ∀ s x k, slot (M.step s x).1 k =
      if Concerns x k then g (slot s k) x else slot s k) (s : σ) (xs : List ι) (k : κ) :
    slot (M.after s xs) k = (xs.filter fun x => Concerns x k).foldl g (slot s k) := by
  induction xs generalizing s with
  | nil => rfl
  | cons x xs ih =>
      rw [after_cons, ih, h, List.filter_cons]
      by_cases hx : Concerns x k
      · rw [if_pos hx, if_pos (decide_eq_true hx), List.foldl_cons]
      · rw [if_neg hx, if_neg (by rwa [decide_eq_true_iff])]

end Slots

end Machine
