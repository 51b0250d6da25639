import DaliEdge.SlotSweep
import Mathlib.Data.List.DropRight
import Mathlib.Data.List.Rotate
import Mathlib.Data.Nat.ModEq

/-!
# Ring buffers

An array of slots read from a place `head` on, and around its end. Writing the slot after the
last one either lengthens what is read or, once every slot is read, replaces the oldest element
if `head` moves on. Either way the buffer holds the last elements of what was written.
-/

namespace RingBuffer

variable {α : Type*} {n : ℕ} [NeZero n]

/-- The slot that lies `i` places after `head`. -/
def index (n : ℕ) [NeZero n] (head i : ℕ) : Fin n := ⟨(head + i) % n, Nat.mod_lt _ (Nat.pos_of_neZero n)⟩

/-- The `size` elements that are read from `head` on. -/
def contents (slots : Vector α n) (head size : ℕ) : List α :=
  (List.range size).map fun i => slots.get (index n head i)

theorem index_injOn (head : ℕ) {i j : ℕ} (hi : i < n) (hj : j < n)
    (h : index n head i = index n head j) : i = j := by
  have hmod : Nat.ModEq n (head + i) (head + j) := congrArg Fin.val h
  exact Nat.ModEq.eq_of_lt_of_lt (Nat.ModEq.add_left_cancel' head hmod) hi hj

theorem index_of_lt {head i : ℕ} (h : head + i < n) : index n head i = ⟨head + i, h⟩ :=
  Fin.ext (Nat.mod_eq_of_lt h)

theorem index_next (head i : ℕ) : index n ((head + 1) % n) i = index n head (i + 1) := by
  apply Fin.ext
  change ((head + 1) % n + i) % n = (head + (i + 1)) % n
  rw [Nat.mod_add_mod, Nat.add_assoc, Nat.add_comm 1]

section Read

variable (slots : Vector α n) (head : ℕ) {size : ℕ}

@[simp] theorem length_contents : (contents slots head size).length = size := by
  rw [contents, List.length_map, List.length_range]

theorem getElem?_contents {i : ℕ} (hi : i < size) :
    (contents slots head size)[i]? = some (slots.get (index n head i)) := by
  rw [contents, List.getElem?_map, List.getElem?_range hi]
  rfl

theorem contents_succ : contents slots head (size + 1) =
    contents slots head size ++ [slots.get (index n head size)] := by
  rw [contents, contents, List.range_succ, List.map_append]
  rfl

theorem contents_cons : contents slots head (size + 1) =
    slots.get (index n head 0) :: contents slots ((head + 1) % n) size := by
  rw [contents, contents, List.range_succ_eq_map, List.map_cons, List.map_map]
  congr 1
  refine List.map_congr_left fun i _ => ?_
  rw [index_next]
  rfl

theorem tail_contents : (contents slots head (size + 1)).tail =
    contents slots ((head + 1) % n) size := by
  rw [contents_cons, List.tail_cons]

/-- Reading every slot from `head` on turns the slots around. -/
theorem contents_eq_rotate : contents slots head n = slots.toList.rotate head := by
  apply List.ext_getElem
  · rw [length_contents, List.length_rotate, Vector.length_toList]
  · intro i _ _
    rw [List.getElem_rotate]
    simp only [contents, index, List.getElem_map, List.getElem_range, Nat.add_comm,
      Vector.length_toList, Vector.getElem_toList]
    rfl

theorem contents_zero (hsize : size ≤ n) : contents slots 0 size = slots.toList.take size := by
  apply List.ext_getElem
  · rw [length_contents, List.length_take_of_le (by rwa [Vector.length_toList])]
  · intro i hi _
    rw [length_contents] at hi
    have hmod : i % n = i := Nat.mod_eq_of_lt (hi.trans_le hsize)
    simp only [contents, index, zero_add, List.getElem_map, List.getElem_range, hmod,
      List.getElem_take, Vector.getElem_toList]
    rfl

theorem contents_set_of_le {i : ℕ} (hsize : size ≤ i) (hi : i < n) (x : α) :
    contents (slots.set (index n head i) x (index n head i).isLt) head size =
      contents slots head size := by
  refine List.map_congr_left fun j hj => ?_
  have hlt := List.mem_range.1 hj
  rw [SlotSweep.get_set, if_neg fun h => ?_]
  have heq := index_injOn head hi (hlt.trans_le (hsize.trans hi.le)) h
  omega

theorem contents_set {i : ℕ} (hsize : size ≤ n) (hi : i < size) (x : α) :
    contents (slots.set (index n head i) x (index n head i).isLt) head size =
      (contents slots head size).set i x := by
  apply List.ext_getElem?
  intro j
  by_cases hj : j < size
  · rw [getElem?_contents _ _ hj, SlotSweep.get_set, List.getElem?_set, length_contents,
      getElem?_contents _ _ hj]
    by_cases hij : i = j
    · rw [if_pos (congrArg _ hij), if_pos hij, if_pos hi]
    · rw [if_neg (mt (index_injOn head (hi.trans_le hsize) (hj.trans_le hsize)) hij), if_neg hij]
  · rw [List.getElem?_eq_none (by rw [length_contents]; omega),
      List.getElem?_eq_none (by rw [List.length_set, length_contents]; omega)]

end Read

/-! ## Writing the next element -/

theorem rtake_of_length_le {l : List α} {k : ℕ} (h : l.length ≤ k) : l.rtake k = l := by
  rw [List.rtake, Nat.sub_eq_zero_of_le h, List.drop_zero]

theorem length_rtake (l : List α) (k : ℕ) : (l.rtake k).length = min k l.length := by
  rw [List.rtake, List.length_drop]
  omega

theorem map_rtake {β : Type*} (f : α → β) (l : List α) (k : ℕ) :
    (l.rtake k).map f = (l.map f).rtake k := by
  rw [List.rtake, List.rtake, List.map_drop, List.length_map]

theorem rtake_rtake_append (l : List α) (x : α) (k : ℕ) :
    (l.rtake k ++ [x]).rtake k = (l ++ [x]).rtake k := by
  have hdrop : l.rtake k ++ [x] = (l ++ [x]).drop (l.length - k) := by
    rw [List.rtake, List.drop_append_of_le_length (Nat.sub_le _ _)]
  rw [hdrop, List.rtake, List.rtake, List.drop_drop, List.length_drop, List.length_append,
    List.length_singleton]
  congr 1
  omega

variable (slots : Vector α n) (head : ℕ)

theorem contents_push {size : ℕ} (h : size < n) (x : α) :
    contents (slots.set (index n head size) x (index n head size).isLt) head (size + 1) =
      contents slots head size ++ [x] := by
  have hlast : (slots.set (index n head size) x (index n head size).isLt).get
      (index n head size) = x := by
    rw [SlotSweep.get_set, if_pos rfl]
  rw [contents_succ, contents_set_of_le slots head (Nat.le_refl size) h, hlast]

theorem contents_grow {size : ℕ} (h : size < n) (x : α) :
    contents (slots.set (index n head size) x (index n head size).isLt) head (size + 1) =
      (contents slots head size ++ [x]).rtake n := by
  rw [contents_push slots head h, rtake_of_length_le]
  rw [List.length_append, length_contents]
  exact h

theorem contents_overwrite (x : α) :
    contents (slots.set (index n head n) x (index n head n).isLt) ((head + 1) % n) n =
      (contents slots head n ++ [x]).rtake n := by
  obtain ⟨m, rfl⟩ : ∃ m, n = m + 1 := ⟨n - 1, (Nat.succ_pred (NeZero.ne n)).symm⟩
  have holdest : index (m + 1) head (m + 1) = index (m + 1) ((head + 1) % (m + 1)) m :=
    (index_next head m).symm
  have hlast : (contents slots head (m + 1) ++ [x]).rtake (m + 1) =
      (contents slots head (m + 1)).tail ++ [x] := by
    rw [List.rtake, List.length_append, length_contents, List.length_singleton,
      Nat.add_sub_cancel_left, List.drop_append_of_le_length (by rw [length_contents]; omega),
      List.drop_one]
  rw [hlast, tail_contents, contents_succ, holdest,
    contents_set_of_le slots _ (Nat.le_refl m) (Nat.lt_succ_self m), SlotSweep.get_set, if_pos rfl]

end RingBuffer
