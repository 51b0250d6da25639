import DaliEdge.Machine
import Mathlib.Data.Nat.Notation

/-!
# Round robin over slots in a circle

A scan looks at `n` slots from a cursor on, past the last to the first, and takes the first
offer. If the cursor then moves just behind the slot that was served, a slot that keeps
offering is served before any other slot is served twice: it stays nearer to the cursor than
the slot that was served first, until its own turn.
-/

namespace RoundRobin

variable {α : Type*} (n : ℕ)

/-- How many slots a scan from the cursor looks at before it comes to slot `a`. -/
def distance (cursor a : ℕ) : ℕ := if cursor ≤ a then a - cursor else a + n - cursor

def scan (offer : ℕ → Option α) (cursor : ℕ) : Option α :=
  (List.range n).findSome? fun offset => offer ((cursor + offset) % n)

variable {n}

theorem distance_lt {cursor a : ℕ} (hcursor : cursor < n) (ha : a < n) :
    distance n cursor a < n := by
  unfold distance
  split_ifs <;> omega

theorem add_distance_mod {cursor a : ℕ} (hcursor : cursor < n) (ha : a < n) :
    (cursor + distance n cursor a) % n = a := by
  unfold distance
  split_ifs with h
  · rw [Nat.add_sub_cancel' h, Nat.mod_eq_of_lt ha]
  · rw [Nat.add_sub_cancel' (by omega), Nat.add_mod_right, Nat.mod_eq_of_lt ha]

theorem distance_add_mod {cursor offset : ℕ} (hcursor : cursor < n) (hoffset : offset < n) :
    distance n cursor ((cursor + offset) % n) = offset := by
  unfold distance
  rcases Nat.lt_or_ge (cursor + offset) n with h | h
  · rw [Nat.mod_eq_of_lt h, if_pos (by omega)]
    omega
  · have hmod : (cursor + offset) % n = cursor + offset - n := by
      rw [Nat.mod_eq_sub_mod h, Nat.mod_eq_of_lt (by omega)]
    rw [hmod, if_neg (by omega)]
    omega

theorem scan_eq_none_iff {offer : ℕ → Option α} {cursor : ℕ} (hcursor : cursor < n) :
    scan n offer cursor = none ↔ ∀ a < n, offer a = none := by
  rw [scan, List.findSome?_eq_none_iff]
  constructor
  · intro h a ha
    have hnone := h _ (List.mem_range.2 (distance_lt hcursor ha))
    rwa [add_distance_mod hcursor ha] at hnone
  · intro h offset _
    exact h _ (Nat.mod_lt _ (by omega))

/-- The scan takes the offer of the nearest slot that makes one. -/
theorem exists_of_scan_eq_some {offer : ℕ → Option α} {cursor : ℕ} {x : α} (hcursor : cursor < n)
    (h : scan n offer cursor = some x) :
    ∃ a < n, offer a = some x ∧
      ∀ b < n, distance n cursor b < distance n cursor a → offer b = none := by
  obtain ⟨before, offset, behind, hrange, hoffer, hnone⟩ := List.findSome?_eq_some_iff.1 h
  rw [List.range_eq_range', List.range'_eq_append_iff] at hrange
  obtain ⟨k, -, rfl, hbehind⟩ := hrange
  obtain ⟨hk, hroom, -⟩ := List.range'_eq_cons_iff.1 hbehind.symm
  obtain rfl : k = offset := by omega
  refine ⟨_, Nat.mod_lt _ (by omega), hoffer, fun b hb hnear => ?_⟩
  rw [distance_add_mod hcursor (by omega)] at hnear
  have hlast := hnone (distance n cursor b) (List.mem_range'_1.2 ⟨Nat.zero_le _, by omega⟩)
  rwa [add_distance_mod hcursor hb] at hlast

/-! ## Turns -/

/-- A scan comes to slot `b` before it comes to slot `a`. -/
def Nearer (n cursor b a : ℕ) : Prop := distance n cursor b < distance n cursor a

theorem nearer_of_served {a b : ℕ} (ha : a < n) (hb : b < n) (hne : b ≠ a) :
    Nearer n ((a + 1) % n) b a := by
  unfold Nearer distance
  rcases Nat.lt_or_ge (a + 1) n with h | h
  · rw [Nat.mod_eq_of_lt h]
    split_ifs <;> omega
  · obtain rfl : a + 1 = n := by omega
    rw [Nat.mod_self]
    split_ifs <;> omega

theorem Nearer.served {cursor a b g : ℕ} (h : Nearer n cursor b a) (hcursor : cursor < n)
    (ha : a < n) (hb : b < n) (hg : g < n) (hfront : Nearer n cursor g b) :
    Nearer n ((g + 1) % n) b a := by
  unfold Nearer distance at *
  rcases Nat.lt_or_ge (g + 1) n with hlt | hge
  · rw [Nat.mod_eq_of_lt hlt]
    split_ifs at * <;> omega
  · obtain rfl : g + 1 = n := by omega
    rw [Nat.mod_self]
    split_ifs at * <;> omega

/-! ## Machines that serve in turn -/

variable {σ ι ο : Type*} {M : Machine σ ι ο} {cursor : σ → ℕ} {served : ο → Option ℕ}
  {offers : σ → ι → ℕ → Prop}

/-- Each step serves no slot and leaves the cursor, or serves the nearest slot with an offer and
moves the cursor just behind it. -/
structure Serves (n : ℕ) (M : Machine σ ι ο) (cursor : σ → ℕ) (served : ο → Option ℕ)
    (offers : σ → ι → ℕ → Prop) : Prop where
  cursor_lt : ∀ s x, cursor s < n → cursor (M.step s x).1 < n
  keeps : ∀ s x, cursor s < n → served (M.step s x).2 = none →
    cursor (M.step s x).1 = cursor s
  serves : ∀ s x a, cursor s < n → served (M.step s x).2 = some a →
    a < n ∧ cursor (M.step s x).1 = (a + 1) % n ∧ ∀ b < n, offers s x b → ¬ Nearer n (cursor s) b a

/-- Slot `b` has an offer at every step of the run that serves some slot. -/
def KeepsOffering (M : Machine σ ι ο) (served : ο → Option ℕ) (offers : σ → ι → ℕ → Prop) (b : ℕ) :
    σ → List ι → Prop :=
  M.Meets fun s x => (served (M.step s x).2).isSome → offers s x b

theorem Serves.nearer_or_equal (h : Serves n M cursor served offers) {s : σ} {x : ι} {b g : ℕ}
    (hcursor : cursor s < n) (hb : b < n) (hoffer : offers s x b)
    (hg : served (M.step s x).2 = some g) : Nearer n (cursor s) g b ∨ g = b := by
  obtain ⟨hgn, -, hfirst⟩ := h.serves s x g hcursor hg
  rcases Nat.lt_trichotomy (distance n (cursor s) g) (distance n (cursor s) b) with hlt | heq | hgt
  · exact .inl hlt
  · refine .inr ?_
    rw [← add_distance_mod hcursor hgn, heq, add_distance_mod hcursor hb]
  · exact absurd hgt (hfirst b hb hoffer)

theorem Serves.nearer_after (h : Serves n M cursor served offers) {s : σ} {a b : ℕ}
    (hcursor : cursor s < n) (ha : a < n) (hb : b < n) (hnear : Nearer n (cursor s) b a)
    (xs : List ι) (hoffers : KeepsOffering M served offers b s xs)
    (hnot : M.Meets (fun t x => served (M.step t x).2 ≠ some b) s xs) :
    Nearer n (cursor (M.after s xs)) b a ∧ cursor (M.after s xs) < n := by
  induction xs generalizing s with
  | nil => exact ⟨hnear, hcursor⟩
  | cons x xs ih =>
      refine ih (h.cursor_lt s x hcursor) ?_ hoffers.2 hnot.2
      cases hserved : served (M.step s x).2 with
      | none => rwa [h.keeps s x hcursor hserved]
      | some g =>
          obtain ⟨hg, hmoved, -⟩ := h.serves s x g hcursor hserved
          have hoffer := hoffers.1 (by rw [hserved]; rfl)
          rcases h.nearer_or_equal hcursor hb hoffer hserved with hfront | rfl
          · rw [hmoved]
            exact hnear.served hcursor ha hb hg hfront
          · exact absurd hserved hnot.1

theorem Serves.served_between (h : Serves n M cursor served offers) {s : σ} {x y : ι}
    {xs : List ι} {a b : ℕ} (hcursor : cursor s < n) (hb : b < n) (hne : b ≠ a)
    (hfirst : served (M.step s x).2 = some a)
    (hoffers : KeepsOffering M served offers b (M.step s x).1 (xs ++ [y]))
    (hsecond : served (M.step (M.after (M.step s x).1 xs) y).2 = some a) :
    ∃ pre z, pre ++ [z] <+: xs ∧
      served (M.step (M.after (M.step s x).1 pre) z).2 = some b := by
  obtain ⟨ha, hmoved, -⟩ := h.serves s x a hcursor hfirst
  obtain ⟨hoffers, hlast⟩ := (M.meets_snoc _ xs y).1 hoffers
  by_contra! hnot
  have hnever : M.Meets (fun t z => served (M.step t z).2 ≠ some b) (M.step s x).1 xs :=
    (M.meets_iff_forall_prefix _ xs).2 hnot
  have hstart : Nearer n (cursor (M.step s x).1) b a := by
    rw [hmoved]
    exact nearer_of_served ha hb hne
  obtain ⟨hnear, hcursor'⟩ :=
    h.nearer_after (h.cursor_lt s x hcursor) ha hb hstart xs hoffers hnever
  obtain ⟨-, -, hnearest⟩ := h.serves _ y a hcursor' hsecond
  exact hnearest b hb (hlast (by rw [hsecond]; rfl)) hnear

/-! ## Waiting -/

/-- A slot that is served in front of `b` leaves fewer slots in front of it. -/
theorem Nearer.distance_served {cursor b g : ℕ} (hfront : Nearer n cursor g b) (hcursor : cursor < n)
    (hb : b < n) (hg : g < n) : distance n ((g + 1) % n) b < distance n cursor b := by
  unfold Nearer distance at *
  rcases Nat.lt_or_ge (g + 1) n with hlt | hge
  · rw [Nat.mod_eq_of_lt hlt]
    split_ifs at * <;> omega
  · obtain rfl : g + 1 = n := by omega
    rw [Nat.mod_self]
    split_ifs at * <;> omega

def services (M : Machine σ ι ο) (served : ο → Option ℕ) (s : σ) (xs : List ι) : ℕ :=
  (M.outputs s xs).countP fun output => (served output).isSome

theorem services_cons (s : σ) (x : ι) (xs : List ι) :
    services M served s (x :: xs) =
      services M served (M.step s x).1 xs + if (served (M.step s x).2).isSome then 1 else 0 := by
  rw [services, Machine.outputs_cons, List.countP_cons]
  rfl

/-- A slot that keeps offering is served after at most as many other services as there were slots in
front of it. -/
theorem Serves.served_within (h : Serves n M cursor served offers) {s : σ} {b : ℕ}
    (hcursor : cursor s < n) (hb : b < n) (xs : List ι)
    (hoffers : KeepsOffering M served offers b s xs)
    (hmany : distance n (cursor s) b < services M served s xs) :
    ∃ pre x, pre ++ [x] <+: xs ∧ served (M.step (M.after s pre) x).2 = some b ∧
      services M served s pre ≤ distance n (cursor s) b := by
  induction xs generalizing s with
  | nil => exact absurd hmany (Nat.not_lt_zero _)
  | cons x xs ih =>
      have hcursor' := h.cursor_lt s x hcursor
      rw [services_cons] at hmany
      cases hserved : served (M.step s x).2 with
      | none =>
          have hkept := h.keeps s x hcursor hserved
          rw [hserved, if_neg (by simp), Nat.add_zero, ← hkept] at hmany
          obtain ⟨pre, y, hpre, hgranted, hfew⟩ := ih hcursor' hoffers.2 hmany
          refine ⟨x :: pre, y, List.cons_prefix_cons.2 ⟨rfl, hpre⟩, hgranted, ?_⟩
          rw [services_cons, hserved, if_neg (by simp), Nat.add_zero, ← hkept]
          exact hfew
      | some g =>
          obtain ⟨hg, hmoved, -⟩ := h.serves s x g hcursor hserved
          have hoffer := hoffers.1 (by rw [hserved]; rfl)
          rw [hserved, if_pos (by simp)] at hmany
          rcases h.nearer_or_equal hcursor hb hoffer hserved with hfront | rfl
          · have hless := hfront.distance_served hcursor hb hg
            rw [← hmoved] at hless
            obtain ⟨pre, y, hpre, hgranted, hfew⟩ := ih hcursor' hoffers.2 (by omega)
            refine ⟨x :: pre, y, List.cons_prefix_cons.2 ⟨rfl, hpre⟩, hgranted, ?_⟩
            rw [services_cons, hserved, if_pos (by simp)]
            omega
          · exact ⟨[], x, List.cons_prefix_cons.2 ⟨rfl, List.nil_prefix⟩, hserved, Nat.zero_le _⟩

end RoundRobin
