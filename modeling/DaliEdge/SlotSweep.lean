import Mathlib.Data.List.Nodup
import Mathlib.Data.Nat.Notation

/-!
# Sweeps over slots

A sweep visits each index of a list once. A visit changes the slot of its own index only, and
appends at most one output to a log of bounded size. After a sweep every visited slot has been
changed as if it alone had been visited, and the log holds the outputs in order. The slots may be
those of a vector, where a write changes what is read at one index.
-/

namespace SlotSweep

variable {σ ι α ο : Type*}

def put {n : ℕ} (v : Vector α n) (i : Fin n) (x : α) : Vector α n := v.set i x i.isLt

theorem get_set {n : ℕ} (v : Vector α n) (i j : Fin n) (x : α) :
    (v.set i x i.isLt).get j = if i = j then x else v.get j := by
  change (v.set i x i.isLt)[j] = if i = j then x else v[j]
  by_cases h : i = j
  · subst h
    simp
  · have hval : (i : ℕ) ≠ j := fun hval => h (Fin.ext hval)
    simp [h, hval]

theorem ext_get {n : ℕ} {v w : Vector α n} (h : ∀ i, v.get i = w.get i) : v = w :=
  Vector.ext fun i hi => h ⟨i, hi⟩

/-- What a visit does: `f i` is the new content of slot `i`, and its output. -/
structure Visits (visit : σ → ι → σ) (slot : σ → ι → α) (log : σ → List ο) (capacity : ℕ)
    (f : ι → α → α × Option ο) : Prop where
  slot_self : ∀ s i, slot (visit s i) i = (f i (slot s i)).1
  slot_other : ∀ s i j, j ≠ i → slot (visit s i) j = slot s j
  log_visit : ∀ s i, (log s).length < capacity →
    log (visit s i) = log s ++ (f i (slot s i)).2.toList

variable {visit : σ → ι → σ} {slot : σ → ι → α} {log : σ → List ο} {capacity : ℕ}
  {f : ι → α → α × Option ο}

theorem slot_foldl_of_not_mem (h : Visits visit slot log capacity f) (is : List ι) (s : σ) (j : ι)
    (hj : j ∉ is) : slot (is.foldl visit s) j = slot s j := by
  induction is generalizing s with
  | nil => rfl
  | cons i is ih =>
      rw [List.mem_cons, not_or] at hj
      rw [List.foldl_cons, ih _ hj.2, h.slot_other s i j hj.1]

theorem slot_foldl (h : Visits visit slot log capacity f) (is : List ι) (hnodup : is.Nodup) (s : σ)
    (j : ι) (hj : j ∈ is) : slot (is.foldl visit s) j = (f j (slot s j)).1 := by
  induction is generalizing s with
  | nil => cases hj
  | cons i is ih =>
      rw [List.nodup_cons] at hnodup
      rw [List.foldl_cons]
      rcases List.mem_cons.1 hj with rfl | hj
      · rw [slot_foldl_of_not_mem h is _ j hnodup.1, h.slot_self]
      · have hne : j ≠ i := fun heq => hnodup.1 (heq ▸ hj)
        rw [ih hnodup.2 _ hj, h.slot_other s i j hne]

theorem log_foldl (h : Visits visit slot log capacity f) (is : List ι) (hnodup : is.Nodup) (s : σ)
    (hroom : (log s).length + is.length ≤ capacity) :
    log (is.foldl visit s) = log s ++ is.filterMap fun i => (f i (slot s i)).2 := by
  induction is generalizing s with
  | nil => simp
  | cons i is ih =>
      rw [List.nodup_cons] at hnodup
      rw [List.length_cons] at hroom
      have hlog := h.log_visit s i (by omega)
      have hlen : (f i (slot s i)).2.toList.length ≤ 1 := by
        cases (f i (slot s i)).2 <;> simp
      have hsame : (is.filterMap fun j => (f j (slot (visit s i) j)).2) =
          is.filterMap fun j => (f j (slot s j)).2 := by
        refine List.filterMap_congr fun j hj => ?_
        rw [h.slot_other s i j fun heq => hnodup.1 (heq ▸ hj)]
      rw [List.foldl_cons, ih hnodup.2 _ (by rw [hlog, List.length_append]; omega), hlog, hsame,
        List.append_assoc]
      cases hout : (f i (slot s i)).2 with
      | none => simp [hout]
      | some o => simp [hout]

/-- The outputs that carry the key of one index are what that index gave. -/
theorem filter_filterMap [DecidableEq ι] (g : ι → Option ο) (key : ο → ι)
    (hkey : ∀ i o, g i = some o → key o = i) (is : List ι) (hnodup : is.Nodup) (i : ι)
    (hi : i ∈ is) : ((is.filterMap g).filter fun o => key o = i) = (g i).toList := by
  have hnone : ∀ js : List ι, i ∉ js → ((js.filterMap g).filter fun o => key o = i) = [] := by
    intro js hjs
    rw [List.filter_eq_nil_iff]
    intro o ho
    obtain ⟨j, hj, hjo⟩ := List.mem_filterMap.1 ho
    rw [decide_eq_true_iff, hkey j o hjo]
    exact fun heq => hjs (heq ▸ hj)
  induction is with
  | nil => cases hi
  | cons j js ih =>
      rw [List.nodup_cons] at hnodup
      rcases List.mem_cons.1 hi with rfl | hi
      · cases hg : g i with
        | none => rw [List.filterMap_cons_none hg, hnone js hnodup.1]; rfl
        | some o =>
            rw [List.filterMap_cons_some hg, List.filter_cons_of_pos (by simpa using hkey i o hg),
              hnone js hnodup.1]
            rfl
      · have hne : j ≠ i := fun heq => hnodup.1 (heq ▸ hi)
        cases hg : g j with
        | none => rw [List.filterMap_cons_none hg, ih hnodup.2 hi]
        | some o =>
            rw [List.filterMap_cons_some hg,
              List.filter_cons_of_neg (by simpa [hkey j o hg] using hne), ih hnodup.2 hi]

end SlotSweep
