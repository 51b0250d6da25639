import DaliEdge.SlotSweep
import Mathlib.Data.List.FinRange
import Mathlib.Data.Set.Card
import Mathlib.Logic.Function.Basic

/-!
# Keyed entries in a fixed number of slots

A table of `n` slots, some of them used, each used slot holding an entry under its key. A key
is looked up by the first slot that holds it, and a new entry goes to the first free slot. As
long as no key is held twice the table is a finite map, and writing to a slot updates the map at
one key.
-/

namespace SlotTable

variable {n : ℕ} {ε κ : Type*} [DecidableEq κ] (used : ε → Bool) (key : ε → κ)

def lookup (slots : Vector ε n) (k : κ) : Option (Fin n) :=
  (List.finRange n).find? fun i => used (slots.get i) && key (slots.get i) = k

def free (slots : Vector ε n) : Option (Fin n) :=
  (List.finRange n).find? fun i => !used (slots.get i)

def entry (slots : Vector ε n) (k : κ) : Option ε :=
  (lookup used key slots k).map slots.get

def Distinct (slots : Vector ε n) : Prop :=
  ∀ i j : Fin n, used (slots.get i) = true → used (slots.get j) = true →
    key (slots.get i) = key (slots.get j) → i = j

variable {used key} {slots : Vector ε n}

/-! ## Reading -/

theorem lookup_some {k : κ} {i : Fin n} (h : lookup used key slots k = some i) :
    used (slots.get i) = true ∧ key (slots.get i) = k := by
  have hfound := List.find?_some h
  simpa using hfound

theorem lookup_eq_none_iff (k : κ) :
    lookup used key slots k = none ↔ ∀ i : Fin n, used (slots.get i) = true → key (slots.get i) ≠ k := by
  simp [lookup]

theorem lookup_eq_some_iff (hd : Distinct used key slots) (k : κ) (i : Fin n) :
    lookup used key slots k = some i ↔ used (slots.get i) = true ∧ key (slots.get i) = k := by
  refine ⟨lookup_some, fun ⟨hused, hkey⟩ => ?_⟩
  cases hlookup : lookup used key slots k with
  | none => exact absurd hkey ((lookup_eq_none_iff k).1 hlookup i hused)
  | some j =>
      obtain ⟨hj, hjkey⟩ := lookup_some hlookup
      rw [hd i j hused hj (hkey.trans hjkey.symm)]

theorem entry_eq_none_iff (k : κ) :
    entry used key slots k = none ↔ lookup used key slots k = none := Option.map_eq_none_iff

theorem entry_eq_some_iff (hd : Distinct used key slots) (k : κ) (e : ε) :
    entry used key slots k = some e ↔
      ∃ i : Fin n, used (slots.get i) = true ∧ key (slots.get i) = k ∧ slots.get i = e := by
  rw [entry, Option.map_eq_some_iff]
  refine exists_congr fun i => ?_
  rw [lookup_eq_some_iff hd, and_assoc]

theorem entry_some {k : κ} {e : ε} (h : entry used key slots k = some e) :
    used e = true ∧ key e = k := by
  obtain ⟨i, hi, rfl⟩ := Option.map_eq_some_iff.1 h
  exact lookup_some hi

theorem entry_of_lookup {k : κ} {i : Fin n} (h : lookup used key slots k = some i) :
    entry used key slots k = some (slots.get i) := by
  rw [entry, h]
  rfl

theorem entry_of_used (hd : Distinct used key slots) {i : Fin n} (h : used (slots.get i) = true) :
    entry used key slots (key (slots.get i)) = some (slots.get i) :=
  (entry_eq_some_iff hd _ _).2 ⟨i, h, rfl, rfl⟩

theorem free_some {i : Fin n} (h : free used slots = some i) : used (slots.get i) = false := by
  have hfound := List.find?_some h
  simpa using hfound

theorem free_eq_none_iff : free used slots = none ↔ ∀ i : Fin n, used (slots.get i) = true := by
  simp [free]

/-! ## Writing to one slot -/

omit [DecidableEq κ] in
theorem Distinct.set (hd : Distinct used key slots) (i : Fin n) (e : ε)
    (h : used e = true → ∀ j : Fin n, j ≠ i → used (slots.get j) = true → key (slots.get j) ≠ key e) :
    Distinct used key (slots.set i e i.isLt) := by
  intro a b ha hb hab
  rw [SlotSweep.get_set] at ha hb hab
  rw [SlotSweep.get_set] at hab
  by_cases hia : i = a <;> by_cases hib : i = b
  · rw [← hia, ← hib]
  · rw [if_pos hia] at ha hab
    rw [if_neg hib] at hb hab
    exact absurd hab.symm (h ha b (Ne.symm hib) hb)
  · rw [if_neg hia] at ha hab
    rw [if_pos hib] at hb hab
    exact absurd hab (h hb a (Ne.symm hia) ha)
  · rw [if_neg hia] at ha hab
    rw [if_neg hib] at hb hab
    exact hd a b ha hb hab

theorem entry_set (hd : Distinct used key slots) (i : Fin n) (e : ε)
    (hd' : Distinct used key (slots.set i e i.isLt)) (k : κ) :
    entry used key (slots.set i e i.isLt) k =
      if used e = true ∧ key e = k then some e
      else if used (slots.get i) = true ∧ key (slots.get i) = k then none
      else entry used key slots k := by
  split_ifs with hnew hold
  · refine (entry_eq_some_iff hd' k e).2 ⟨i, ?_⟩
    rw [SlotSweep.get_set, if_pos rfl]
    exact ⟨hnew.1, hnew.2, rfl⟩
  · rw [entry_eq_none_iff, lookup_eq_none_iff]
    intro j hj hkey
    rw [SlotSweep.get_set] at hj hkey
    by_cases hij : i = j
    · rw [if_pos hij] at hj hkey
      exact hnew ⟨hj, hkey⟩
    · rw [if_neg hij] at hj hkey
      exact hij (hd i j hold.1 hj (hold.2.trans hkey.symm))
  · apply Option.ext
    intro e'
    rw [entry_eq_some_iff hd', entry_eq_some_iff hd]
    refine exists_congr fun j => ?_
    rw [SlotSweep.get_set]
    by_cases hij : i = j
    · subst hij
      rw [if_pos rfl]
      exact ⟨fun h => absurd ⟨h.1, h.2.1⟩ hnew, fun h => absurd ⟨h.1, h.2.1⟩ hold⟩
    · rw [if_neg hij]

/-- Filling a free slot adds a key to the map. -/
theorem insert_free (hd : Distinct used key slots) {i : Fin n} {e : ε}
    (hfree : used (slots.get i) = false) (hused : used e = true)
    (hnone : lookup used key slots (key e) = none) :
    Distinct used key (slots.set i e i.isLt) ∧
      entry used key (slots.set i e i.isLt) =
        Function.update (entry used key slots) (key e) (some e) := by
  have hd' := hd.set i e fun _ j _ hj => (lookup_eq_none_iff _).1 hnone j hj
  refine ⟨hd', funext fun k => ?_⟩
  rw [entry_set hd i e hd', Function.update_apply]
  by_cases h : key e = k
  · rw [if_pos ⟨hused, h⟩, if_pos h.symm]
  · rw [if_neg fun hk => h hk.2, if_neg fun hk => ?_, if_neg (Ne.symm h)]
    rw [hfree] at hk
    exact Bool.false_ne_true hk.1

/-- Rewriting a used slot under its own key changes what the map holds there. -/
theorem replace_used (hd : Distinct used key slots) {i : Fin n} {e : ε}
    (hold : used (slots.get i) = true) (hused : used e = true) (hkey : key e = key (slots.get i)) :
    Distinct used key (slots.set i e i.isLt) ∧
      entry used key (slots.set i e i.isLt) =
        Function.update (entry used key slots) (key e) (some e) := by
  have hd' := hd.set i e fun _ j hj hju hjk => hj (hd j i hju hold (hjk.trans hkey))
  refine ⟨hd', funext fun k => ?_⟩
  rw [entry_set hd i e hd', Function.update_apply]
  by_cases h : key e = k
  · rw [if_pos ⟨hused, h⟩, if_pos h.symm]
  · rw [if_neg fun hk => h hk.2, if_neg fun hk => h (hkey.trans hk.2), if_neg (Ne.symm h)]

/-- Emptying a used slot removes its key from the map. -/
theorem remove_used (hd : Distinct used key slots) {i : Fin n} {e : ε}
    (hold : used (slots.get i) = true) (hunused : used e = false) :
    Distinct used key (slots.set i e i.isLt) ∧
      entry used key (slots.set i e i.isLt) =
        Function.update (entry used key slots) (key (slots.get i)) none := by
  have hd' := hd.set i e fun h => absurd h (by rw [hunused]; decide)
  refine ⟨hd', funext fun k => ?_⟩
  rw [entry_set hd i e hd', Function.update_apply, if_neg fun hk => ?_]
  · by_cases h : key (slots.get i) = k
    · rw [if_pos ⟨hold, h⟩, if_pos h.symm]
    · rw [if_neg fun hk => h hk.2, if_neg (Ne.symm h)]
  · rw [hunused] at hk
    exact Bool.false_ne_true hk.1

/-! ## Counting -/

theorem countP_eq_card_filter :
    slots.countP used = (Finset.univ.filter fun i : Fin n => used (slots.get i) = true).card := by
  have hlist : slots.toList = (List.finRange n).map slots.get := by
    apply List.ext_getElem
    · simp
    · intro i _ _
      simp
      rfl
  have hset : (Finset.univ.filter fun i : Fin n => used (slots.get i) = true) =
      ((List.finRange n).filter fun i => used (slots.get i)).toFinset := by
    ext i
    simp
  rw [hset, List.toFinset_card_of_nodup ((List.nodup_finRange n).filter _),
    ← Vector.countP_toList, hlist, List.countP_map, List.countP_eq_length_filter]
  rfl

theorem countP_le : slots.countP used ≤ n := by
  rw [countP_eq_card_filter]
  exact (Finset.card_le_univ _).trans_eq (Fintype.card_fin n)

theorem free_eq_none_iff_countP : free used slots = none ↔ slots.countP used = n := by
  rw [free_eq_none_iff, countP_eq_card_filter]
  constructor
  · intro h
    rw [Finset.filter_true_of_mem fun i _ => h i, Finset.card_univ, Fintype.card_fin]
  · intro h i
    have hall := (Finset.card_eq_iff_eq_univ _).1 (h.trans (Fintype.card_fin n).symm)
    have hi := Finset.mem_univ i
    rw [← hall, Finset.mem_filter] at hi
    exact hi.2

theorem ncard_entry (hd : Distinct used key slots) :
    {k | entry used key slots k ≠ none}.ncard = slots.countP used := by
  have himage : {k | entry used key slots k ≠ none} =
      (fun i : Fin n => key (slots.get i)) '' {i | used (slots.get i) = true} := by
    ext k
    rw [Set.mem_ofPred_eq, Option.ne_none_iff_exists']
    simp only [entry_eq_some_iff hd, Set.mem_image, Set.mem_ofPred_eq]
    constructor
    · rintro ⟨e, i, hi, hk, -⟩
      exact ⟨i, hi, hk⟩
    · rintro ⟨i, hi, hk⟩
      exact ⟨slots.get i, i, hi, hk, rfl⟩
  have hinj : Set.InjOn (fun i : Fin n => key (slots.get i)) {i | used (slots.get i) = true} :=
    fun i hi j hj hij => hd i j hi hj hij
  rw [himage, hinj.ncard_image, countP_eq_card_filter, ← Set.ncard_coe_finset]
  simp

end SlotTable
