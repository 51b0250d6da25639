import Mathlib.Data.List.TakeWhile
import Mathlib.Order.Lattice

/-!
# Stable insertion into a list ordered by a key

A new element goes behind every element whose key is not larger, hence in front of the
strictly larger ones and behind its equals. The head of an ordered list is the oldest
element of the least key.
-/

namespace StableQueue

variable {α κ : Type*} [LinearOrder κ] (key : α → κ)

/-- The number of leading elements a new element is put behind. -/
def slot (a : α) (l : List α) : ℕ := (l.takeWhile (fun b => decide (key b ≤ key a))).length

def insert (a : α) (l : List α) : List α := l.insertIdx (slot key a l) a

def Sorted (l : List α) : Prop := l.Pairwise (fun a b => key a ≤ key b)

@[simp] theorem slot_nil (a : α) : slot key a [] = 0 := rfl

theorem slot_cons (a b : α) (l : List α) :
    slot key a (b :: l) = if key b ≤ key a then slot key a l + 1 else 0 := by
  by_cases h : key b ≤ key a
  · simp [slot, h]
  · simp [slot, h]

theorem slot_le_length (a : α) (l : List α) : slot key a l ≤ l.length :=
  (List.takeWhile_prefix _).length_le

@[simp] theorem insert_nil (a : α) : insert key a [] = [a] := rfl

theorem insert_cons (a b : α) (l : List α) :
    insert key a (b :: l) = if key b ≤ key a then b :: insert key a l else a :: b :: l := by
  by_cases h : key b ≤ key a
  · simp only [insert, slot_cons, if_pos h, List.insertIdx_succ_cons]
  · simp only [insert, slot_cons, if_neg h, List.insertIdx_zero]

@[simp] theorem length_insert (a : α) (l : List α) :
    (insert key a l).length = l.length + 1 :=
  List.length_insertIdx_of_le_length (slot_le_length key a l) a

theorem perm_insert (a : α) (l : List α) : (insert key a l).Perm (a :: l) :=
  List.perm_insertIdx a l (slot_le_length key a l)

theorem mem_insert {a b : α} {l : List α} : b ∈ insert key a l ↔ b = a ∨ b ∈ l := by
  rw [(perm_insert key a l).mem_iff, List.mem_cons]

theorem Sorted.insert {a : α} {l : List α} (h : Sorted key l) : Sorted key (insert key a l) := by
  induction l with
  | nil => simp [Sorted]
  | cons b l ih =>
      obtain ⟨hb, hl⟩ := List.pairwise_cons.1 h
      rw [insert_cons]
      by_cases hab : key b ≤ key a
      · rw [if_pos hab]
        refine List.pairwise_cons.2 ⟨fun c hc => ?_, ih hl⟩
        rcases (mem_insert key).1 hc with rfl | hc
        · exact hab
        · exact hb c hc
      · rw [if_neg hab]
        have hlt : key a ≤ key b := (lt_of_not_ge hab).le
        refine List.pairwise_cons.2 ⟨fun c hc => ?_, h⟩
        rcases List.mem_cons.1 hc with rfl | hc
        · exact hlt
        · exact hlt.trans (hb c hc)

theorem Sorted.tail {l : List α} (h : Sorted key l) : Sorted key l.tail :=
  List.Pairwise.tail h

/-- In an ordered list a new element becomes the head exactly when every element that
waits has a strictly larger key. -/
theorem slot_eq_zero_iff {a : α} {l : List α} (h : Sorted key l) :
    slot key a l = 0 ↔ ∀ b ∈ l, key a < key b := by
  cases l with
  | nil => simp
  | cons b l =>
      rw [slot_cons]
      by_cases hab : key b ≤ key a
      · rw [if_pos hab]
        constructor
        · intro h0
          cases h0
        · intro hall
          exact absurd hab (not_le_of_gt (hall b List.mem_cons_self))
      · rw [if_neg hab]
        have hlt := lt_of_not_ge hab
        refine ⟨fun _ c hc => ?_, fun _ => rfl⟩
        rcases List.mem_cons.1 hc with rfl | hc
        · exact hlt
        · exact hlt.trans_le ((List.pairwise_cons.1 h).1 c hc)

theorem map_insert {β : Type*} (f : β → α) (a : β) (l : List β) :
    (insert (key ∘ f) a l).map f = insert key (f a) (l.map f) := by
  induction l with
  | nil => rfl
  | cons b l ih =>
      rw [List.map_cons, insert_cons, insert_cons, Function.comp_apply, Function.comp_apply]
      by_cases h : key (f b) ≤ key (f a)
      · rw [if_pos h, if_pos h, List.map_cons, ih]
      · rw [if_neg h, if_neg h]
        rfl

/-! ## Elements that know their arrival -/

section Arrivals

variable {τ : Type*} [LT τ] (arrival : α → τ)

/-- A smaller key is served first, and under equal keys the earlier arrival. -/
def Before (a b : α) : Prop := key a < key b ∨ (key a = key b ∧ arrival a < arrival b)

theorem before_insert {a : α} {l : List α} (h : l.Pairwise (Before key arrival))
    (hlast : ∀ b ∈ l, arrival b < arrival a) :
    (insert key a l).Pairwise (Before key arrival) := by
  induction l with
  | nil => simp
  | cons b l ih =>
      obtain ⟨hb, hl⟩ := List.pairwise_cons.1 h
      rw [insert_cons]
      by_cases hab : key b ≤ key a
      · rw [if_pos hab]
        refine List.pairwise_cons.2 ⟨fun c hc => ?_, ih hl fun c hc => hlast c (.tail _ hc)⟩
        rcases (mem_insert key).1 hc with rfl | hc
        · rcases hab.lt_or_eq with hlt | heq
          · exact .inl hlt
          · exact .inr ⟨heq, hlast b List.mem_cons_self⟩
        · exact hb c hc
      · rw [if_neg hab]
        have hlt := lt_of_not_ge hab
        refine List.pairwise_cons.2 ⟨fun c hc => .inl ?_, h⟩
        rcases List.mem_cons.1 hc with rfl | hc
        · exact hlt
        · rcases hb c hc with hbc | ⟨hbc, -⟩
          · exact hlt.trans hbc
          · exact hbc ▸ hlt

end Arrivals

end StableQueue
