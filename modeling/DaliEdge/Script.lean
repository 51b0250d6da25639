import Mathlib.Data.List.Basic

/-!
# Scripts

Readers take the elements of a list from its front, one after the other. A reader that finds an
element that does not meet the condition takes nothing and leaves it where it is, and so do all
readers behind it.
-/

namespace Script

variable {α : Type*} (p : α → Bool)

/-- What is left after `i` readers have each taken the first element, if it meets `p`. -/
def rest (i : ℕ) (xs : List α) : List α := xs.drop (min i (xs.takeWhile p).length)

/-- What reader `i` takes. -/
def read (i : ℕ) (xs : List α) : Option α := (xs.takeWhile p)[i]?

@[simp] theorem rest_zero (xs : List α) : rest p 0 xs = xs := by
  rw [rest, Nat.zero_min, List.drop_zero]

@[simp] theorem rest_nil (i : ℕ) : rest p i ([] : List α) = [] := List.drop_nil

theorem rest_suffix (i : ℕ) (xs : List α) : rest p i xs <:+ xs := List.drop_suffix _ xs

variable {p}

theorem rest_succ_cons {x : α} (h : p x = true) (i : ℕ) (xs : List α) :
    rest p (i + 1) (x :: xs) = rest p i xs := by
  rw [rest, List.takeWhile_cons_of_pos h, List.length_cons, Nat.succ_min_succ, List.drop_succ_cons,
    rest]

theorem rest_of_late {x : α} (h : ¬ p x = true) (i : ℕ) (xs : List α) :
    rest p i (x :: xs) = x :: xs := by
  rw [rest, List.takeWhile_cons_of_neg h, List.length_nil, Nat.min_zero, List.drop_zero]

variable (p)

theorem rest_succ (i : ℕ) (xs : List α) : rest p (i + 1) xs = rest p 1 (rest p i xs) := by
  induction xs generalizing i with
  | nil => simp only [rest_nil]
  | cons x xs ih =>
      by_cases h : p x = true
      · cases i with
        | zero => rw [rest_zero]
        | succ i => rw [rest_succ_cons h, rest_succ_cons h, ih]
      · rw [rest_of_late h, rest_of_late h, rest_of_late h]

/-- The reader that comes next takes what the first one would take of the rest. -/
theorem read_rest (i : ℕ) (xs : List α) : read p 0 (rest p i xs) = read p i xs := by
  induction xs generalizing i with
  | nil => rw [rest_nil, read, read, List.takeWhile_nil, List.getElem?_nil, List.getElem?_nil]
  | cons x xs ih =>
      by_cases h : p x = true
      · cases i with
        | zero => rw [rest_zero]
        | succ i =>
            rw [rest_succ_cons h, ih, read, read, List.takeWhile_cons_of_pos h,
              List.getElem?_cons_succ]
      · rw [rest_of_late h, read, read, List.takeWhile_cons_of_neg h, List.getElem?_nil,
          List.getElem?_nil]

theorem read_zero (xs : List α) : read p 0 xs = xs.head?.filter p := by
  cases xs with
  | nil => rfl
  | cons x xs =>
      by_cases h : p x = true
      · rw [read, List.takeWhile_cons_of_pos h, List.head?_cons, Option.filter_some, if_pos h]
        rfl
      · rw [read, List.takeWhile_cons_of_neg h, List.head?_cons, Option.filter_some, if_neg h]
        rfl

end Script
