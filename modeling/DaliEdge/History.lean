import Mathlib.Data.List.Induction

/-!
# Histories

A history is the list of what has happened, oldest first. `Each` judges every element by what
stands before it; `latest` reads a value off the last element that has one.
-/

namespace History

variable {α β : Type*} {P : List α → α → Prop}

/-- Every element of the history meets `P` after what stands before it. -/
def Each (P : List α → α → Prop) (xs : List α) : Prop :=
  ∀ pre x post, xs = pre ++ x :: post → P pre x

theorem each_nil : Each P [] := by
  intro pre x post h
  exact absurd h.symm (List.append_ne_nil_of_right_ne_nil pre (List.cons_ne_nil x post))

theorem each_append_iff (xs ys : List α) :
    Each P (xs ++ ys) ↔ Each P xs ∧ Each (fun pre x => P (xs ++ pre) x) ys := by
  constructor
  · intro h
    constructor
    · rintro pre x post rfl
      exact h pre x (post ++ ys) (by simp)
    · rintro pre y post rfl
      exact h (xs ++ pre) y post (by simp)
  · rintro ⟨hxs, hys⟩ pre x post h
    rcases List.append_eq_append_iff.1 h with ⟨mid, rfl, hmid⟩ | ⟨mid, rfl, hmid⟩
    · exact hys mid x post hmid
    · cases mid with
      | nil =>
          have hx := hys [] x post hmid.symm
          simpa only [List.append_nil] using hx
      | cons z mid =>
          obtain ⟨rfl, -⟩ := List.cons.inj hmid
          exact hxs pre x mid rfl

theorem each_singleton (x : α) : Each P [x] ↔ P [] x := by
  constructor
  · intro h
    exact h [] x [] rfl
  · intro h pre y post hxs
    cases pre with
    | nil =>
        obtain ⟨rfl, -⟩ := List.cons.inj hxs
        exact h
    | cons z pre =>
        have hlen := congrArg List.length hxs
        simp at hlen

theorem each_append_toList (xs : List α) (new : Option α) :
    Each P (xs ++ new.toList) ↔ Each P xs ∧ ∀ x, new = some x → P xs x := by
  rw [each_append_iff]
  cases new with
  | none => simp [each_nil]
  | some y => simp [each_singleton]

theorem Each.of_prefix {xs ys : List α} (h : Each P ys) (hp : xs <+: ys) : Each P xs := by
  obtain ⟨zs, rfl⟩ := hp
  exact ((each_append_iff xs zs).1 h).1

/-! ## Repetitions at the end -/

theorem replicate_suffix_snoc {xs : List α} {x a : α} (j : ℕ) :
    List.replicate (j + 1) a <:+ xs ++ [x] ↔ x = a ∧ List.replicate j a <:+ xs := by
  rw [List.suffix_concat_iff, or_iff_right (by rw [List.replicate_succ]; exact List.cons_ne_nil _ _)]
  constructor
  · rintro ⟨front, hfront, hsuffix⟩
    rw [List.replicate_succ'] at hfront
    obtain ⟨rfl, hx⟩ := List.append_inj' hfront rfl
    exact ⟨(List.singleton_inj.1 hx).symm, hsuffix⟩
  · rintro ⟨rfl, hsuffix⟩
    exact ⟨_, List.replicate_succ', hsuffix⟩

theorem replicate_suffix_of_le {n m : ℕ} (hle : n ≤ m) {xs : List α} {a : α}
    (h : List.replicate m a <:+ xs) : List.replicate n a <:+ xs := by
  refine List.IsSuffix.trans ⟨List.replicate (m - n) a, ?_⟩ h
  rw [List.replicate_append_replicate, Nat.sub_add_cancel hle]

/-! ## The latest value -/

variable (f : α → Option β)

def latest (xs : List α) : Option β := xs.reverse.findSome? f

@[simp] theorem latest_nil : latest f [] = none := rfl

theorem latest_snoc (xs : List α) (x : α) : latest f (xs ++ [x]) = (f x).or (latest f xs) := by
  rw [latest, List.reverse_append, List.reverse_singleton, List.singleton_append,
    List.findSome?_cons]
  cases f x <;> rfl

theorem latest_singleton (x : α) : latest f [x] = f x := by
  rw [← List.nil_append [x], latest_snoc, latest_nil, Option.or_none]

theorem latest_append (xs ys : List α) : latest f (xs ++ ys) = (latest f ys).or (latest f xs) := by
  rw [latest, List.reverse_append, List.findSome?_append]
  rfl

theorem latest_append_toList (xs : List α) (new : Option α) :
    latest f (xs ++ new.toList) = (new.bind f).or (latest f xs) := by
  cases new with
  | none => rw [Option.toList_none, List.append_nil, Option.bind_none, Option.none_or]
  | some x => exact latest_snoc f xs x

theorem exists_of_latest {xs : List α} {b : β} (h : latest f xs = some b) :
    ∃ x ∈ xs, f x = some b := by
  obtain ⟨x, hx, hfx⟩ := List.exists_of_findSome?_eq_some h
  exact ⟨x, List.mem_reverse.1 hx, hfx⟩

theorem latest_eq_none_iff (xs : List α) : latest f xs = none ↔ ∀ x ∈ xs, f x = none := by
  rw [latest, List.findSome?_eq_none_iff]
  simp only [List.mem_reverse]

/-! ## Since -/

variable {Q R : α → Prop}

/-- Some element meets `Q`, and all that come after it meet `R`. -/
def Since (Q R : α → Prop) (xs : List α) : Prop :=
  ∃ before x later, xs = before ++ x :: later ∧ Q x ∧ ∀ y ∈ later, R y

theorem not_since_nil : ¬ Since Q R [] := by
  rintro ⟨before, x, later, h, -⟩
  exact absurd h.symm (List.append_ne_nil_of_right_ne_nil before (List.cons_ne_nil x later))

theorem since_snoc (xs : List α) (x : α) :
    Since Q R (xs ++ [x]) ↔ Q x ∨ (R x ∧ Since Q R xs) := by
  constructor
  · rintro ⟨before, y, later, h, hy, hlater⟩
    rcases List.eq_nil_or_concat later with rfl | ⟨later, z, rfl⟩
    · obtain ⟨-, hxy⟩ := List.append_inj' h rfl
      obtain ⟨rfl, -⟩ := List.cons.inj hxy
      exact .inl hy
    · rw [List.concat_eq_append, ← List.cons_append, ← List.append_assoc] at h
      obtain ⟨rfl, hxz⟩ := List.append_inj' h rfl
      obtain ⟨rfl, -⟩ := List.cons.inj hxz
      exact .inr ⟨hlater x (by simp), before, y, later, rfl, hy, fun z hz => hlater z (by simp [hz])⟩
  · rintro (hx | ⟨hx, before, y, later, rfl, hy, hlater⟩)
    · exact ⟨xs, x, [], rfl, hx, fun y hy => absurd hy List.not_mem_nil⟩
    · refine ⟨before, y, later ++ [x], by simp, hy, fun z hz => ?_⟩
      rcases List.mem_append.1 hz with hz | hz
      · exact hlater z hz
      · rw [List.mem_singleton.1 hz]
        exact hx

end History
