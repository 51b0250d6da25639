import DaliEdge.Scheduler
import Mathlib.Algebra.Ring.Rat

/-!
# Who is polled between two polls

Lights take turns: between two grants of a light every other light with a poll that stays due
and admissible is granted one. The kinds of a light do not: of those that are ready the first
in the order of the enumeration is granted, however long a later one has been waiting.
-/

namespace DaliEdge

namespace DaliScheduler

variable {F : Type*} [Zero F] [LE F] [LT F] [DecidableLE F] [DecidableLT F]

/-- Some poll of the light is due and admissible at the call. -/
def LightReady (s : DaliScheduler) (call : PollCall F) (address : Fin 64) : Prop :=
  ∃ k, s.Ready call address k

def GrantsLight (s : DaliScheduler) (call : PollCall F) (address : Fin 64) : Prop :=
  ∃ k, s.Grants call address k

theorem toNat_request_address (slot : Slot) (a : Fin 64) (k : Fin 6) :
    (slot.request a k).address.toNat = a :=
  UInt8.toNat_ofNat_of_lt' (a.isLt.trans (by decide))

theorem Grants.spec {s : DaliScheduler} {call : PollCall F} {a : Fin 64} {k : Fin 6}
    (h : s.Grants call a k) (hcursor : s.roundRobinCursor.toNat < 64) :
    s.Ready call a k ∧ (∀ k' < k, ¬ s.Ready call a k') ∧
      (∀ b : Fin 64, RoundRobin.Nearer 64 s.roundRobinCursor.toNat b a → ¬ s.LightReady call b) ∧
      (s.next call).2.roundRobinCursor.toNat = (a + 1) % 64 := by
  obtain ⟨request, hrequest, haddress, hkind⟩ := h
  obtain ⟨-, heq⟩ | ⟨a', k', hready, hfirst, hnearest, heq⟩ := s.next_cases call hcursor
  · rw [heq] at hrequest
    cases hrequest
  · rw [heq, Option.some.injEq] at hrequest
    subst hrequest
    obtain rfl : a' = a := Fin.ext (by rw [← haddress, toNat_request_address])
    obtain rfl : k' = k := PollKind.ofIndex_injective hkind
    refine ⟨hready, hfirst, fun b hnear ⟨k'', hready'⟩ => hnearest b hnear k'' hready', ?_⟩
    rw [heq]
    exact toNat_movedCursor a'

theorem exists_grants {s : DaliScheduler} {call : PollCall F} {request : PollRequest}
    (h : (s.next call).1 = some request) (hcursor : s.roundRobinCursor.toNat < 64) :
    ∃ (a : Fin 64) (k : Fin 6), request.address.toNat = a ∧ s.Grants call a k := by
  obtain ⟨-, heq⟩ | ⟨a, k, -, -, -, heq⟩ := s.next_cases call hcursor
  · rw [heq] at h
    cases h
  · obtain rfl : (s.slots.get a).request a k = request := by rw [heq] at h; exact Option.some.inj h
    exact ⟨a, k, toNat_request_address _ a k, _, h, toNat_request_address _ a k, rfl⟩

/-! ## Turns of the lights -/

def grantedLight (result : Option PollRequest) : Option ℕ :=
  result.map fun request => request.address.toNat

def Offers (s : DaliScheduler) (op : Op F) (b : ℕ) : Prop :=
  ∃ call light, op = .next call ∧ (light : Fin 64) = b ∧ s.LightReady call light

theorem grantsLight_iff {s : DaliScheduler} (call : PollCall F) (a : Fin 64)
    (hcursor : s.roundRobinCursor.toNat < 64) :
    s.GrantsLight call a ↔ grantedLight (machine.step s (.next call)).2 = some a.val := by
  constructor
  · rintro ⟨k, request, hrequest, haddress, -⟩
    change (s.next call).1.map _ = _
    rw [hrequest, Option.map_some, haddress]
  · intro h
    obtain ⟨request, hrequest, haddress⟩ := Option.map_eq_some_iff.1 h
    obtain ⟨a', k, haddress', hgrants⟩ := exists_grants hrequest hcursor
    obtain rfl : a' = a := Fin.ext (haddress'.symm.trans haddress)
    exact ⟨k, hgrants⟩

theorem exists_call_of_granted {s : DaliScheduler} {op : Op F} {a : ℕ}
    (h : grantedLight (machine.step s op).2 = some a) (hcursor : s.roundRobinCursor.toNat < 64) :
    ∃ call light, op = .next call ∧ (light : Fin 64) = a ∧ s.GrantsLight call light := by
  cases op with
  | configure => cases h
  | complete => cases h
  | next call =>
      obtain ⟨request, hrequest, rfl⟩ := Option.map_eq_some_iff.1 h
      obtain ⟨light, k, haddress, hgrants⟩ := exists_grants hrequest hcursor
      exact ⟨call, light, rfl, haddress.symm, k, hgrants⟩

theorem serves : RoundRobin.Serves 64 (machine (F := F))
    (fun s => s.roundRobinCursor.toNat) grantedLight Offers where
  cursor_lt := apply_cursor_lt
  keeps s op hcursor h := by
    cases op with
    | configure address context nowMs => exact congrArg _ (s.configure_cursor address context nowMs)
    | complete request nowMs => exact congrArg _ (s.complete_cursor request nowMs)
    | next call =>
        obtain ⟨-, heq⟩ | ⟨a, k, -, -, -, heq⟩ := s.next_cases call hcursor
        · change (s.next call).2.roundRobinCursor.toNat = _
          rw [heq]
        · change grantedLight (s.next call).1 = none at h
          rw [heq] at h
          cases h
  serves s op a hcursor h := by
    obtain ⟨call, light, rfl, rfl, k, hgrants⟩ := exists_call_of_granted h hcursor
    obtain ⟨-, -, hnearest, hmoved⟩ := hgrants.spec hcursor
    refine ⟨light.isLt, hmoved, ?_⟩
    rintro b hb ⟨call', light', hcall, rfl, hready⟩ hnear
    cases hcall
    exact hnearest light' hnear hready

theorem run_append_next (pre mid : List (Op F)) (first : PollCall F) :
    run (pre ++ .next first :: mid) =
      machine.after (machine.step (run pre) (.next first)).1 mid := by
  rw [run, Machine.after_append, Machine.after_cons]
  rfl

/-- Between two grants of a light every other light that keeps a poll due and admissible is
granted one. -/
theorem lights_take_turns (pre mid : List (Op F)) (first second : PollCall F) (a b : Fin 64)
    (hne : b ≠ a) (hfirst : (run pre).GrantsLight first a)
    (hsecond : (run (pre ++ .next first :: mid)).GrantsLight second a)
    (hwaits : ∀ before call, before ++ [.next call] <+: mid ++ [.next second] →
      (run (pre ++ .next first :: before)).LightReady call b) :
    ∃ before call, before ++ [.next call] <+: mid ∧
      (run (pre ++ .next first :: before)).GrantsLight call b := by
  have hoffers : RoundRobin.KeepsOffering machine grantedLight Offers (b : ℕ)
      (machine.step (run pre) (.next first)).1 (mid ++ [.next second]) := by
    refine (Machine.meets_iff_forall_prefix _ _ _).2 fun before op hp hserved => ?_
    obtain ⟨a', ha'⟩ := Option.isSome_iff_exists.1 hserved
    rw [← run_append_next] at ha' ⊢
    obtain ⟨call, -, rfl, -⟩ := exists_call_of_granted ha' (run_cursor_lt _)
    exact ⟨call, b, rfl, rfl, hwaits before call hp⟩
  rw [grantsLight_iff _ _ (run_cursor_lt _)] at hfirst hsecond
  rw [run_append_next] at hsecond
  obtain ⟨before, op, hp, hserved⟩ := serves.served_between (run_cursor_lt pre) b.isLt
    (fun heq => hne (Fin.ext heq)) hfirst hoffers hsecond
  rw [← run_append_next] at hserved
  obtain ⟨call, light, rfl, hlight, hgrants⟩ := exists_call_of_granted hserved (run_cursor_lt _)
  obtain rfl : light = b := Fin.ext hlight
  exact ⟨before, call, hp, hgrants⟩

/-- Light 0 is polled twice while light 5 waits, and light 5 is polled in between. -/
theorem lights_take_turns_example :
    let call : PollCall ℚ := ⟨0, 0, 3 / 10, 6 / 10⟩
    let pre : List (Op ℚ) := [.configure 0 {} 0, .configure 5 {} 0]
    ∃ before call', before ++ [.next call'] <+: [.next call] ∧
      (run (pre ++ .next call :: before)).GrantsLight call' 5 := by
  intro call pre
  refine lights_take_turns pre [.next call] call call 0 5 (by decide)
    ⟨0, ⟨0, .status, .high, 100⟩, by decide +kernel⟩ ⟨0, ⟨0, .status, .high, 100⟩, by decide +kernel⟩ ?_
  intro before call' hp
  rcases before with _ | ⟨op, _ | ⟨op', before⟩⟩
  · obtain rfl := Op.next.inj (List.cons_prefix_cons.1 hp).1
    exact ⟨0, by decide +kernel⟩
  · obtain ⟨rfl, hrest⟩ := List.cons_prefix_cons.1 hp
    obtain rfl := Op.next.inj (List.cons_prefix_cons.1 hrest).1
    exact ⟨0, by decide +kernel⟩
  · have hlength := hp.length_le
    simp only [List.length_append, List.length_cons, List.length_nil] at hlength
    omega

/-! ## Precedence of the kinds -/

theorem Grants.unique {s : DaliScheduler} {call : PollCall F} {a : Fin 64} {k k' : Fin 6}
    (h : s.Grants call a k) (h' : s.Grants call a k') : k = k' := by
  obtain ⟨request, hrequest, -, hkind⟩ := h
  obtain ⟨request', hrequest', -, hkind'⟩ := h'
  obtain rfl : request = request' := by rwa [hrequest, Option.some.injEq] at hrequest'
  exact PollKind.ofIndex_injective (hkind.symm.trans hkind')

theorem Grants.le_of_ready {s : DaliScheduler} {call : PollCall F} {a : Fin 64} {k k' : Fin 6}
    (h : s.Grants call a k) (hcursor : s.roundRobinCursor.toNat < 64) (hready : s.Ready call a k') :
    k ≤ k' := by
  obtain ⟨-, hnone, -⟩ := h.spec hcursor
  exact not_lt.1 fun hlt => hnone k' hlt hready

/-- A kind that is due and admissible from one grant of another kind of its light through the next
is granted in between, or comes behind every kind that is granted for the light in that time. -/
theorem kind_granted_or_preceded (pre mid : List (Op F)) (first second : PollCall F) (a : Fin 64)
    (k k' : Fin 6) (hne : k' ≠ k) (hfirst : (run pre).Grants first a k)
    (hsecond : (run (pre ++ .next first :: mid)).Grants second a k)
    (hwaits : ∀ before call, before ++ [.next call] <+: .next first :: (mid ++ [.next second]) →
      (run (pre ++ before)).Ready call a k') :
    (∃ before call, before ++ [.next call] <+: mid ∧
      (run (pre ++ .next first :: before)).Grants call a k') ∨
    ∀ before call granted, before ++ [.next call] <+: .next first :: (mid ++ [.next second]) →
      (run (pre ++ before)).Grants call a granted → granted < k' := by
  by_cases hgranted : ∃ before call, before ++ [.next call] <+: mid ∧
      (run (pre ++ .next first :: before)).Grants call a k'
  · exact .inl hgranted
  · refine .inr fun before call granted hp hgrants => ?_
    have hle := hgrants.le_of_ready (run_cursor_lt _) (hwaits before call hp)
    refine lt_of_le_of_ne hle ?_
    rintro rfl
    cases before with
    | nil =>
        obtain rfl := Op.next.inj (List.cons_prefix_cons.1 hp).1
        rw [List.append_nil] at hgrants
        exact hne (hgrants.unique hfirst)
    | cons op before =>
        obtain ⟨rfl, hrest⟩ := List.cons_prefix_cons.1 hp
        rcases List.prefix_concat_iff.1 hrest with heq | hrest
        · obtain ⟨rfl, hcall⟩ := List.append_inj' heq rfl
          obtain rfl := Op.next.inj (List.cons.inj hcall).1
          exact hne (hgrants.unique hsecond)
        · exact hgranted ⟨before, call, hrest, hgrants⟩

/-- The presence poll of light 0, off since time 0, is due at both ends of the second status
interval. -/
theorem presence_ready (before : List (Op ℚ)) (call : PollCall ℚ)
    (hp : before ++ [.next call] <+: .next ⟨60000, 0, 3 / 10, 6 / 10⟩ ::
      ([.complete ⟨0, .status, .high, 100⟩ 60000] ++ [.next ⟨90000, 0, 3 / 10, 6 / 10⟩])) :
    (run ([.configure 0 {} 0] ++ before)).Ready call 0 1 := by
  rcases before with _ | ⟨op, _ | ⟨op', _ | ⟨op'', before⟩⟩⟩
  · obtain rfl := Op.next.inj (List.cons_prefix_cons.1 hp).1
    decide +kernel
  · obtain ⟨-, hrest⟩ := List.cons_prefix_cons.1 hp
    obtain ⟨heq, -⟩ := List.cons_prefix_cons.1 hrest
    cases heq
  · obtain ⟨rfl, hrest⟩ := List.cons_prefix_cons.1 hp
    obtain ⟨rfl, hlast⟩ := List.cons_prefix_cons.1 hrest
    obtain rfl := Op.next.inj (List.cons_prefix_cons.1 hlast).1
    decide +kernel
  · have hlength := hp.length_le
    simp only [List.length_append, List.length_cons, List.length_nil] at hlength
    omega

/-- A light that is off and its status polled at the end of each interval: the presence poll stays
due and is not granted. -/
theorem presence_passed_over : ¬ ∀ (pre mid : List (Op ℚ)) (first second : PollCall ℚ) (a : Fin 64)
    (k k' : Fin 6), k' ≠ k → (run pre).Grants first a k →
      (run (pre ++ .next first :: mid)).Grants second a k →
      (∀ before call, before ++ [.next call] <+: .next first :: (mid ++ [.next second]) →
        (run (pre ++ before)).Ready call a k') →
      ∃ before call, before ++ [.next call] <+: mid ∧
        (run (pre ++ .next first :: before)).Grants call a k' := by
  intro h
  obtain ⟨before, call, hp, -⟩ := h [.configure 0 {} 0] [.complete ⟨0, .status, .high, 100⟩ 60000]
    ⟨60000, 0, 3 / 10, 6 / 10⟩ ⟨90000, 0, 3 / 10, 6 / 10⟩ 0 0 1 (by decide)
    ⟨⟨0, .status, .high, 100⟩, by decide +kernel⟩ ⟨⟨0, .status, .high, 100⟩, by decide +kernel⟩
    presence_ready
  rcases before with _ | ⟨op, before⟩
  · obtain ⟨heq, -⟩ := List.cons_prefix_cons.1 hp
    cases heq
  · have hlength := hp.length_le
    simp only [List.length_append, List.length_cons, List.length_nil] at hlength
    omega

theorem kind_granted_or_preceded_example :
    let call (nowMs : UInt64) : PollCall ℚ := ⟨nowMs, 0, 3 / 10, 6 / 10⟩
    let mid : List (Op ℚ) := [.complete ⟨0, .status, .high, 100⟩ 60000]
    (∃ before call', before ++ [.next call'] <+: mid ∧
      (run (.configure 0 {} 0 :: .next (call 60000) :: before)).Grants call' 0 1) ∨
    ∀ before call' granted, before ++ [.next call'] <+: .next (call 60000) :: (mid ++ [.next (call 90000)]) →
      (run (.configure 0 {} 0 :: before)).Grants call' 0 granted → granted < 1 :=
  kind_granted_or_preceded [.configure 0 {} 0] _ _ _ 0 0 1 (by decide)
    ⟨⟨0, .status, .high, 100⟩, by decide +kernel⟩ ⟨⟨0, .status, .high, 100⟩, by decide +kernel⟩
    presence_ready

end DaliScheduler

end DaliEdge
