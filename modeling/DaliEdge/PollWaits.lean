import DaliEdge.PollTurns

/-!
# How long a light waits

A light with a poll that stays due and admissible is granted one after at most as many other grants
as there are lights between the cursor and it, whatever is configured and completed meanwhile. What
it is granted comes no later in the enumeration than that poll, so a status poll waits no longer.
-/

namespace DaliEdge

namespace DaliScheduler

variable {F : Type*} [Zero F] [LE F] [LT F] [DecidableLE F] [DecidableLT F]

def Op.isNext : Op F → Bool
  | .next _ => true
  | _ => false

/-- The poll is due and admissible at each call of `next`. -/
def Waits (address : Fin 64) (k : Fin 6) : DaliScheduler → List (Op F) → Prop :=
  machine.Meets fun s op => ∀ call, op = .next call → s.Ready call address k

theorem after_run (pre ops : List (Op F)) : machine.after (run pre) ops = run (pre ++ ops) := by
  rw [run, run, Machine.after_append]

theorem waits_iff (pre mid : List (Op F)) (address : Fin 64) (k : Fin 6) :
    Waits address k (run pre) mid ↔ ∀ before call, before ++ [.next call] <+: mid →
      (run (pre ++ before)).Ready call address k := by
  unfold Waits
  rw [Machine.meets_iff_forall_prefix]
  constructor
  · intro h before call hp
    rw [← after_run]
    exact h before _ hp call rfl
  · rintro h before _ hp call rfl
    rw [after_run]
    exact h before call hp

theorem isSome_next_of_ready {s : DaliScheduler} {call : PollCall F} {address : Fin 64} {k : Fin 6}
    (h : s.Ready call address k) (hcursor : s.roundRobinCursor.toNat < 64) :
    (grantedLight (machine.step s (.next call)).2).isSome = true := by
  obtain ⟨hnone, -⟩ | ⟨a, k', -, -, -, heq⟩ := s.next_cases call hcursor
  · exact absurd h (hnone address k)
  · change (grantedLight (s.next call).1).isSome = true
    rw [heq]
    rfl

theorem services_of_waits {address : Fin 64} {k : Fin 6} {s : DaliScheduler} {ops : List (Op F)}
    (h : Waits address k s ops) (hcursor : s.roundRobinCursor.toNat < 64) :
    RoundRobin.services machine grantedLight s ops = ops.countP Op.isNext := by
  induction ops generalizing s with
  | nil => rfl
  | cons op ops ih =>
      rw [RoundRobin.services_cons, List.countP_cons, ih h.2 (apply_cursor_lt s op hcursor)]
      cases op with
      | configure address context nowMs => rfl
      | complete request nowMs => rfl
      | next call =>
          rw [isSome_next_of_ready (h.1 call rfl) hcursor]
          rfl

/-- A poll that stays due and admissible is granted, or one before it in the order of the kinds is
granted in its place, after at most as many grants for other lights as there are lights between the
cursor and its own. -/
theorem poll_waits_at_most (pre mid : List (Op F)) (address : Fin 64) (k : Fin 6)
    (hwaits : ∀ before call, before ++ [.next call] <+: mid →
      (run (pre ++ before)).Ready call address k)
    (hmany : RoundRobin.distance 64 (run pre).roundRobinCursor.toNat address <
      mid.countP Op.isNext) :
    ∃ before call granted, before ++ [.next call] <+: mid ∧
      (run (pre ++ before)).Grants call address granted ∧ granted ≤ k ∧
      before.countP Op.isNext ≤
        RoundRobin.distance 64 (run pre).roundRobinCursor.toNat address := by
  have hwait := (waits_iff pre mid address k).2 hwaits
  have hcursor := run_cursor_lt pre
  have hoffers :
      RoundRobin.KeepsOffering machine grantedLight Offers (address : ℕ) (run pre) mid := by
    refine (Machine.meets_iff_forall_prefix _ _ _).2 fun before op hp hserved => ?_
    obtain ⟨light, hlight⟩ := Option.isSome_iff_exists.1 hserved
    rw [after_run] at hlight ⊢
    obtain ⟨call, -, rfl, -⟩ := exists_call_of_granted hlight (run_cursor_lt _)
    exact ⟨call, address, rfl, rfl, k, hwaits before call hp⟩
  rw [← services_of_waits hwait hcursor] at hmany
  obtain ⟨before, op, hp, hserved, hfew⟩ :=
    serves.served_within hcursor address.isLt mid hoffers hmany
  have hbefore : Waits address k (run pre) before :=
    Machine.Meets.of_prefix _ hwait ((List.prefix_append _ _).trans hp)
  rw [services_of_waits hbefore hcursor] at hfew
  rw [after_run] at hserved
  obtain ⟨call, light, rfl, hlight, granted, hgrants⟩ :=
    exists_call_of_granted hserved (run_cursor_lt _)
  obtain rfl : light = address := Fin.ext hlight
  exact ⟨before, call, granted, hp, hgrants,
    hgrants.le_of_ready (run_cursor_lt _) (hwaits before call hp), hfew⟩

/-- Light 2 is granted its status poll within three calls of `next`, whatever light 0 is granted. -/
theorem poll_waits_at_most_example :
    let call : PollCall ℚ := ⟨0, 0, 3 / 10, 6 / 10⟩
    let pre : List (Op ℚ) := [.configure 0 {} 0, .configure 2 {} 0]
    let mid : List (Op ℚ) := [.next call, .next call, .next call]
    ∃ before call' granted, before ++ [.next call'] <+: mid ∧
      (run (pre ++ before)).Grants call' 2 granted ∧ granted ≤ 0 ∧
      before.countP Op.isNext ≤ RoundRobin.distance 64 (run pre).roundRobinCursor.toNat 2 := by
  intro call pre mid
  have hwaits : Waits 2 0 (run pre) mid := by
    refine ⟨?_, ?_, ?_, trivial⟩
    all_goals
      rintro _ ⟨⟩
      decide +kernel
  exact poll_waits_at_most pre mid 2 0 ((waits_iff _ _ _ _).1 hwaits) (by decide +kernel)

end DaliScheduler

end DaliEdge
