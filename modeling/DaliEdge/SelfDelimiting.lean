import Mathlib.Data.Nat.Notation
import Mathlib.InformationTheory.Coding.UniquelyDecodable

/-!
# Self-delimiting codes

The words of a self-delimiting code tell their own length: it can be read off any text that begins
with the word. A text of such words, written one after the other, falls into its words again, so
the code is uniquely decodable.
-/

open InformationTheory

variable {α : Type*} {S : Set (List α)} {size : List α → ℕ}

structure SelfDelimiting (S : Set (List α)) (size : List α → ℕ) : Prop where
  nil_notMem : [] ∉ S
  size_append : ∀ w ∈ S, ∀ rest, size (w ++ rest) = w.length

namespace SelfDelimiting

/-- The words of a text, cut off from its front one after the other, at most `fuel` of them. -/
def split (size : List α → ℕ) : ℕ → List α → List (List α)
  | 0, _ => []
  | _ + 1, [] => []
  | fuel + 1, x :: text =>
      (x :: text).take (size (x :: text)) :: split size fuel ((x :: text).drop (size (x :: text)))

theorem split_cons (h : SelfDelimiting S size) {w : List α} (hw : w ∈ S) (rest : List α) (fuel : ℕ) :
    split size (fuel + 1) (w ++ rest) = w :: split size fuel rest := by
  have hsize := h.size_append w hw rest
  cases w with
  | nil => exact absurd hw h.nil_notMem
  | cons x w =>
      rw [List.cons_append] at hsize ⊢
      rw [split, hsize, ← List.cons_append, List.take_left, List.drop_left]

theorem split_flatten (h : SelfDelimiting S size) {words : List (List α)}
    (hwords : ∀ w ∈ words, w ∈ S) {fuel : ℕ} (hfuel : words.length ≤ fuel) :
    split size fuel words.flatten = words := by
  induction words generalizing fuel with
  | nil => cases fuel <;> rfl
  | cons w words ih =>
      obtain ⟨hw, hrest⟩ := List.forall_mem_cons.1 hwords
      cases fuel with
      | zero => exact absurd hfuel (Nat.not_succ_le_zero _)
      | succ fuel =>
          rw [List.flatten_cons, h.split_cons hw, ih hrest (Nat.le_of_succ_le_succ hfuel)]

theorem length_le_flatten (h : SelfDelimiting S size) {words : List (List α)}
    (hwords : ∀ w ∈ words, w ∈ S) : words.length ≤ words.flatten.length := by
  induction words with
  | nil => exact Nat.zero_le _
  | cons w words ih =>
      obtain ⟨hw, hrest⟩ := List.forall_mem_cons.1 hwords
      have hpos : 0 < w.length := List.length_pos_iff.2 fun hnil => h.nil_notMem (hnil ▸ hw)
      rw [List.flatten_cons, List.length_cons, List.length_append]
      have hle := ih hrest
      omega

/-- A text has no more words than letters, so as many are enough. -/
theorem split_text (h : SelfDelimiting S size) {words : List (List α)}
    (hwords : ∀ w ∈ words, w ∈ S) :
    split size words.flatten.length words.flatten = words :=
  h.split_flatten hwords (h.length_le_flatten hwords)

theorem uniquelyDecodable (h : SelfDelimiting S size) : UniquelyDecodable S := by
  intro words words' hwords hwords' heq
  rw [← h.split_text hwords, ← h.split_text hwords', heq]

end SelfDelimiting
