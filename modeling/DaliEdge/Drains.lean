import DaliEdge.Machine
import Mathlib.Data.Set.Card

/-!
# Draining what is due

An input under which a machine settles one due entry of its state and says which. Given again and
again it settles every due entry once, in as many steps as there are due entries, and is silent
from then on.
-/

namespace Machine

variable {σ ι ο κ β : Type*}

/-- On the input `x` the machine is silent and leaves all entries, when none of them is due; or it
settles one due entry, names it in its output, and leaves the others. -/
structure Drains (M : Machine σ ι (Option ο)) (x : ι) (Inv : σ → Prop) (view : σ → κ → β)
    (key : ο → κ) (Due : β → Prop) (Settles : β → ο → β → Prop) : Prop where
  keeps : ∀ s, Inv s → Inv (M.step s x).1
  quiet : ∀ s, Inv s → (M.step s x).2 = none →
    ∀ k, ¬ Due (view s k) ∧ view (M.step s x).1 k = view s k
  served : ∀ s, Inv s → ∀ o, (M.step s x).2 = some o → Due (view s (key o)) ∧
    Settles (view s (key o)) o (view (M.step s x).1 (key o))
  others : ∀ s, Inv s → ∀ o, (M.step s x).2 = some o →
    ∀ k, k ≠ key o → view (M.step s x).1 k = view s k
  settled : ∀ before o after, Settles before o after → ¬ Due after

namespace Drains

variable {M : Machine σ ι (Option ο)} {x : ι} {Inv : σ → Prop} {view : σ → κ → β} {key : ο → κ}
  {Due : β → Prop} {Settles : β → ο → β → Prop} {s : σ}

theorem step_kept (h : M.Drains x Inv view key Due Settles) (hs : Inv s) {k : κ}
    (hk : ¬ Due (view s k)) : view (M.step s x).1 k = view s k := by
  cases hout : (M.step s x).2 with
  | none => exact (h.quiet s hs hout k).2
  | some o =>
      apply h.others s hs o hout
      rintro rfl
      exact hk (h.served s hs o hout).1

theorem kept (h : M.Drains x Inv view key Due Settles) (hs : Inv s) {k : κ}
    (hk : ¬ Due (view s k)) (n : ℕ) : view (M.after s (List.replicate n x)) k = view s k := by
  induction n generalizing s with
  | zero => rfl
  | succ n ih =>
      have hstep := h.step_kept hs hk
      rw [List.replicate_succ, after_cons, ih (h.keeps s hs) (by rwa [hstep]), hstep]

theorem silent (h : M.Drains x Inv view key Due Settles) (hs : Inv s)
    (hdue : ∀ k, ¬ Due (view s k)) (n : ℕ) :
    M.outputs s (List.replicate n x) = List.replicate n none := by
  induction n generalizing s with
  | zero => rfl
  | succ n ih =>
      have hnone : (M.step s x).2 = none := by
        rw [Option.eq_none_iff_forall_not_mem]
        exact fun o hout => hdue (key o) (h.served s hs o hout).1
      have hafter : ∀ k, ¬ Due (view (M.step s x).1 k) := by
        intro k
        rw [h.step_kept hs (hdue k)]
        exact hdue k
      rw [List.replicate_succ, outputs_cons, hnone, ih (h.keeps s hs) hafter, List.replicate_succ]

theorem due_step_iff (h : M.Drains x Inv view key Due Settles) (hs : Inv s) {o : ο}
    (hout : (M.step s x).2 = some o) (k : κ) :
    Due (view (M.step s x).1 k) ↔ Due (view s k) ∧ k ≠ key o := by
  by_cases hk : k = key o
  · subst hk
    have hsettled := h.settled _ o _ (h.served s hs o hout).2
    exact ⟨fun hdue => absurd hdue hsettled, fun hdue => absurd rfl hdue.2⟩
  · rw [h.others s hs o hout k hk]
    exact (and_iff_left hk).symm

theorem ncard_step (h : M.Drains x Inv view key Due Settles) (hs : Inv s) {o : ο}
    (hout : (M.step s x).2 = some o) (hfinite : {k | Due (view s k)}.Finite) :
    {k | Due (view (M.step s x).1 k)}.Finite ∧
      {k | Due (view (M.step s x).1 k)}.ncard + 1 = {k | Due (view s k)}.ncard := by
  have hafter : {k | Due (view (M.step s x).1 k)} = {k | Due (view s k)} \ {key o} :=
    Set.ext fun k => h.due_step_iff hs hout k
  rw [hafter]
  exact ⟨hfinite.subset Set.sdiff_subset,
    Set.ncard_sdiff_singleton_add_one (h.served s hs o hout).1 hfinite⟩

/-- As many steps as there are due entries settle each of them once. -/
theorem drained (h : M.Drains x Inv view key Due Settles) (hs : Inv s)
    (hfinite : {k | Due (view s k)}.Finite) {n : ℕ} (hn : {k | Due (view s k)}.ncard = n) :
    ∃ served : List ο, M.outputs s (List.replicate n x) = served.map some ∧
      (served.map key).Nodup ∧ (∀ k, k ∈ served.map key ↔ Due (view s k)) ∧
      (∀ o ∈ served,
        Settles (view s (key o)) o (view (M.after s (List.replicate n x)) (key o))) ∧
      ∀ k, ¬ Due (view (M.after s (List.replicate n x)) k) := by
  induction n generalizing s with
  | zero =>
      have hnone := Set.eq_empty_iff_forall_notMem.1 ((Set.ncard_eq_zero hfinite).1 hn)
      exact ⟨[], rfl, List.nodup_nil, fun k => iff_of_false List.not_mem_nil (hnone k),
        fun o ho => absurd ho List.not_mem_nil, hnone⟩
  | succ n ih =>
      cases hout : (M.step s x).2 with
      | none =>
          have hempty : {k | Due (view s k)} = ∅ :=
            Set.eq_empty_iff_forall_notMem.2 fun k => (h.quiet s hs hout k).1
          rw [hempty, Set.ncard_empty] at hn
          cases hn
      | some o =>
          obtain ⟨hdue, hsettles⟩ := h.served s hs o hout
          obtain ⟨hfinite', hcount⟩ := h.ncard_step hs hout hfinite
          have hmem := h.due_step_iff hs hout
          have hserved : ¬ Due (view (M.step s x).1 (key o)) := fun hd => ((hmem _).1 hd).2 rfl
          obtain ⟨served, houts, hnodup, hkeys, hall, hend⟩ :=
            ih (h.keeps s hs) hfinite' (Nat.succ.inj (hcount.trans hn))
          rw [List.replicate_succ, outputs_cons, after_cons, hout, houts]
          refine ⟨o :: served, rfl, ?_, ?_, ?_, hend⟩
          · rw [List.map_cons, List.nodup_cons, hkeys]
            exact ⟨hserved, hnodup⟩
          · intro k
            rw [List.map_cons, List.mem_cons, hkeys, hmem]
            by_cases hk : k = key o
            · subst hk
              exact iff_of_true (.inl rfl) hdue
            · simp [hk]
          · intro o' ho'
            rcases List.mem_cons.1 ho' with rfl | ho'
            · rw [h.kept (h.keeps s hs) hserved]
              exact hsettles
            · have hlater := (hmem _).1 ((hkeys _).1 (List.mem_map_of_mem ho'))
              rw [← h.others s hs o hout _ hlater.2]
              exact hall o' ho'

end Drains

end Machine
