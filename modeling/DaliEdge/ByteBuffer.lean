import Mathlib.Data.Nat.Notation

/-!
# Byte buffers with checked access

A pointer into memory is the list of bytes that may be read through it; a buffer that may be
written is a vector. Every access outside of them is a fault, so a computation that returns
`.ok` made none, and does the same in more memory. Filling a buffer from the left is followed by
`Filled`.
-/

namespace ByteBuffer

inductive Fault where
  | read (index size : ℕ)
  | write (index size : ℕ)
  deriving DecidableEq, Repr

variable {n : ℕ}

def read (bytes : List UInt8) (i : ℕ) : Except Fault UInt8 :=
  match bytes[i]? with
  | some b => .ok b
  | none => .error (.read i bytes.length)

def write (buffer : Vector UInt8 n) (i : ℕ) (b : UInt8) : Except Fault (Vector UInt8 n) :=
  if h : i < n then .ok (buffer.set i b) else .error (.write i n)

/-- Copy the first `count` bytes of the source to the buffer, from `offset` on. -/
def copy (source : List UInt8) (buffer : Vector UInt8 n) (offset : ℕ) :
    ℕ → Except Fault (Vector UInt8 n)
  | 0 => .ok buffer
  | count + 1 => do
      let buffer ← copy source buffer offset count
      let b ← read source count
      write buffer (offset + count) b

theorem ok_bind {ε α β : Type} (a : α) (f : α → Except ε β) : (Except.ok a >>= f) = f a := rfl

theorem read_of_getElem? {bytes : List UInt8} {i : ℕ} {b : UInt8} (h : bytes[i]? = some b) :
    read bytes i = .ok b := by
  rw [read, h]

theorem read_append_right (xs ys : List UInt8) (b : UInt8) (i : ℕ) (h : i = xs.length) :
    read (xs ++ b :: ys) i = .ok b := by
  subst h
  exact read_of_getElem? (by simp)

/-- The buffer holds `bytes` at its left end and is as `old` beyond them. -/
def Filled (old : Vector UInt8 n) (bytes : List UInt8) (buffer : Vector UInt8 n) : Prop :=
  buffer.toList = bytes ++ old.toList.drop bytes.length

theorem filled_nil (old : Vector UInt8 n) : Filled old [] old := rfl

theorem Filled.take_eq {old buffer : Vector UInt8 n} {bytes : List UInt8}
    (h : Filled old bytes buffer) : buffer.toList.take bytes.length = bytes := by
  rw [h, List.take_left]

theorem Filled.write {old buffer : Vector UInt8 n} {bytes : List UInt8}
    (h : Filled old bytes buffer) (i : ℕ) (b : UInt8) (hi : i = bytes.length) (hn : i < n) :
    ∃ buffer', write buffer i b = .ok buffer' ∧ Filled old (bytes ++ [b]) buffer' := by
  subst hi
  refine ⟨_, dif_pos hn, ?_⟩
  have hold : bytes.length < old.toList.length := by simpa using hn
  rw [Filled, Vector.toList_set, h, List.set_append_right _ _ (Nat.le_refl _), Nat.sub_self,
    List.drop_eq_getElem_cons hold, List.set_cons_zero, List.length_append, List.append_assoc]
  rfl

theorem Filled.copy {old buffer : Vector UInt8 n} {bytes : List UInt8}
    (h : Filled old bytes buffer) (source : List UInt8) (offset count : ℕ)
    (hoffset : offset = bytes.length) (hsource : count ≤ source.length) (hn : offset + count ≤ n) :
    ∃ buffer', copy source buffer offset count = .ok buffer' ∧
      Filled old (bytes ++ source.take count) buffer' := by
  induction count with
  | zero => exact ⟨buffer, rfl, by simpa using h⟩
  | succ count ih =>
      obtain ⟨buffer₁, hcopy, hfilled⟩ := ih (by omega) (by omega)
      have hget : source[count]? = some source[count] := List.getElem?_eq_getElem hsource
      have hlen : offset + count = (bytes ++ source.take count).length := by
        rw [List.length_append, List.length_take_of_le (by omega), hoffset]
      obtain ⟨buffer₂, hwrite, hfilled₂⟩ :=
        hfilled.write (offset + count) source[count] hlen (by omega)
      refine ⟨buffer₂, ?_, ?_⟩
      · rw [ByteBuffer.copy, hcopy, ok_bind, read_of_getElem? hget, ok_bind, hwrite]
      · rwa [List.take_add_one, hget, Option.toList_some, ← List.append_assoc]

/-! ## More memory -/

/-- What `x` returns without a fault, `y` returns as well. -/
def Extends {α : Type} (x y : Except Fault α) : Prop := ∀ a, x = .ok a → y = .ok a

namespace Extends

variable {α β : Type}

theorem refl (x : Except Fault α) : Extends x x := fun _ h => h

theorem bind {x x' : Except Fault α} {f f' : α → Except Fault β} (h : Extends x x')
    (hf : ∀ a, Extends (f a) (f' a)) : Extends (x >>= f) (x' >>= f') := by
  intro b hb
  cases x with
  | error fault => cases hb
  | ok a =>
      rw [h a rfl]
      exact hf a b hb

theorem ite {c : Prop} [Decidable c] {x x' y y' : Except Fault α} (hx : Extends x x')
    (hy : Extends y y') : Extends (if c then x else y) (if c then x' else y') := by
  by_cases hc : c
  · rwa [if_pos hc, if_pos hc]
  · rwa [if_neg hc, if_neg hc]

end Extends

theorem read_append (bytes beyond : List UInt8) (i : ℕ) :
    Extends (read bytes i) (read (bytes ++ beyond) i) := by
  intro b hb
  cases hget : bytes[i]? with
  | none =>
      rw [read, hget] at hb
      cases hb
  | some b' =>
      rw [read_of_getElem? hget] at hb
      cases hb
      obtain ⟨hlt, -⟩ := List.getElem?_eq_some_iff.1 hget
      apply read_of_getElem?
      rw [List.getElem?_append_left hlt, hget]

theorem copy_append (source beyond : List UInt8) (buffer : Vector UInt8 n) (offset count : ℕ) :
    Extends (copy source buffer offset count) (copy (source ++ beyond) buffer offset count) := by
  induction count with
  | zero => exact Extends.refl _
  | succ count ih =>
      apply ih.bind
      intro buffer'
      apply (read_append source beyond count).bind
      exact fun b => Extends.refl _

end ByteBuffer
