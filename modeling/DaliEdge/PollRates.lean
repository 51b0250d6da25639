import DaliEdge.DueTimes
import Mathlib.Order.Bounds.Basic

/-!
# How often a light is polled

A completed poll is due again no sooner than the shortest interval of its kind, whatever the
context of its light. So two grants of one poll lie that interval apart, and a window of time
has room for as many grants as the interval goes into it, and one.
-/

/-- Times in a window that lie apart from each other are few. -/
theorem length_le_of_apart {gap start span : ℕ} (hgap : 0 < gap) {times : List ℕ}
    (hwindow : ∀ t ∈ times, start ≤ t ∧ t ≤ start + span)
    (hapart : times.Pairwise fun t u => t + gap ≤ u) : times.length ≤ 1 + span / gap := by
  have hfill : ∀ t ∈ times.getLast?, start + (times.length - 1) * gap ≤ t := by
    induction times using List.reverseRecOn with
    | nil => intro t ht; cases ht
    | append_singleton times u ih =>
        intro t ht
        obtain rfl : u = t := by simpa using ht
        obtain ⟨hbefore, -, hlast⟩ := List.pairwise_append.1 hapart
        have hprevious := ih (fun t ht => hwindow t (List.mem_append_left _ ht)) hbefore
        rcases List.eq_nil_or_concat times with rfl | ⟨times, v, rfl⟩
        · simpa using (hwindow u (by simp)).1
        · have hv := hprevious v (by simp)
          have huv := hlast v (by simp) u (by simp)
          simp only [List.concat_eq_append, List.length_append, List.length_singleton,
            Nat.add_sub_cancel] at hv ⊢
          rw [Nat.add_one_mul]
          omega
  cases hlast : times.getLast? with
  | none =>
      rw [List.getLast?_eq_none_iff.1 hlast]
      exact Nat.zero_le _
  | some t =>
      have hle := hfill t hlast
      have hend := (hwindow t (List.mem_of_getLast? hlast)).2
      have hdiv : times.length - 1 ≤ span / gap := (Nat.le_div_iff_mul_le hgap).2 (by omega)
      omega

namespace DaliEdge

namespace DaliScheduler

variable {F : Type*}

/-! ## The interval that a completion starts -/

def shortestIntervalMs : Fin 6 → ℕ
  | 0 => 2000
  | 1 => 30000
  | 2 => 10000
  | 3 => 10000
  | 4 => 21600000
  | 5 => 86400000

theorem shortestIntervalMs_pos (k : Fin 6) : 0 < shortestIntervalMs k := by
  revert k
  decide

theorem shortestIntervalMs_le (k : Fin 6) (context : LightPollContext) (nowMs : UInt64) :
    shortestIntervalMs k ≤ (intervalFor (.ofIndex k) context nowMs).toNat := by
  match k with
  | 0 =>
      simp only [PollKind.ofIndex, intervalFor, shortestIntervalMs]
      split_ifs <;> decide
  | 2 | 3 =>
      simp only [PollKind.ofIndex, intervalFor, shortestIntervalMs]
      split_ifs <;> decide
  | 1 | 4 | 5 => exact Nat.le_refl _

theorem isLeast_shortestIntervalMs (k : Fin 6) :
    IsLeast {interval | ∃ context nowMs, (intervalFor (.ofIndex k) context nowMs).toNat = interval}
      (shortestIntervalMs k) := by
  constructor
  · refine ⟨{ warningActive := true }, 0, ?_⟩
    revert k
    decide
  · rintro interval ⟨context, nowMs, rfl⟩
    exact shortestIntervalMs_le k context nowMs

theorem due_complete_self (s : DaliScheduler) (request : PollRequest) (nowMs : UInt64) {a : Fin 64}
    {k : Fin 6} (hconfigured : s.Configured a) (haddress : request.address.toNat = a)
    (hkind : request.kind = .ofIndex k) : (s.complete request nowMs).due a k =
      nowMs + intervalFor (.ofIndex k) (s.slots.get a).context nowMs := by
  have hlt : request.address.toNat < 64 := haddress ▸ a.isLt
  obtain rfl : a = ⟨request.address.toNat, hlt⟩ := Fin.ext haddress.symm
  have hindex : request.kind.index? = some k := by rw [hkind, PollKind.index?_ofIndex]
  have hslot : (s.slots.get ⟨request.address.toNat, hlt⟩).configured = true := hconfigured
  simp only [due, complete, dif_pos hlt, hindex, if_pos hslot]
  rw [get_storeSlot, if_pos rfl, SlotSweep.get_set, if_pos rfl, hkind]

/-! ## Runs against a clock -/

/-- The clock reading of a call of `next` or `complete`. -/
def Op.clock : Op F → Option ℕ
  | .configure _ _ _ => none
  | .next call => some call.nowMs.toNat
  | .complete _ nowMs => some nowMs.toNat

def ClockAscends (ops : List (Op F)) : Prop := (ops.filterMap Op.clock).Pairwise (· ≤ ·)

theorem le_clock_of_ascends {pre post : List (Op F)} {call : PollCall F}
    (h : ClockAscends (pre ++ .next call :: post)) :
    ∀ op ∈ post, ∀ t ∈ op.clock, call.nowMs.toNat ≤ t := by
  intro op hop t ht
  have hcall : Op.clock (.next call) = some call.nowMs.toNat := rfl
  rw [ClockAscends, List.filterMap_append, List.filterMap_cons_some hcall] at h
  have hpost := (List.pairwise_cons.1 (List.pairwise_append.1 h).2.1).1
  exact hpost t (List.mem_filterMap.2 ⟨op, hop, ht⟩)

/-- The due time that a completion sets does not overflow. -/
def DueFits (s : DaliScheduler) : Op F → Prop
  | .complete request nowMs => ∀ a : Fin 64, request.address.toNat = a →
      nowMs.toNat + (intervalFor request.kind (s.slots.get a).context nowMs).toNat < 2 ^ 64
  | _ => True

variable [Zero F] [LE F] [LT F] [DecidableLE F] [DecidableLT F]

/-- A granted request is completed before `next` is called again. -/
def CompletesGrants (ops : List (Op F)) : Prop :=
  ∀ pre call mid call' post request, ops = pre ++ .next call :: (mid ++ .next call' :: post) →
    ((run pre).next call).1 = some request → ∃ nowMs, .complete request nowMs ∈ mid

/-- The light is not configured between two calls of `next` in the window. -/
def KeptInWindow (ops : List (Op F)) (a : Fin 64) (start span : ℕ) : Prop :=
  ∀ pre first mid second post, ops = pre ++ .next first :: (mid ++ .next second :: post) →
    start ≤ first.nowMs.toNat → second.nowMs.toNat ≤ start + span →
      ∀ address context nowMs, .configure address context nowMs ∈ mid → address.toNat ≠ a.val

/-- The time at which an operation with this result grants the poll. -/
def grantTime (a : Fin 64) (k : Fin 6) : Op F × Option PollRequest → Option ℕ
  | (.next call, some request) =>
      if request.address.toNat = a ∧ request.kind = .ofIndex k then some call.nowMs.toNat else none
  | _ => none

def grantTimes (ops : List (Op F)) (a : Fin 64) (k : Fin 6) : List ℕ :=
  (ops.zip (machine.outputs initial ops)).filterMap (grantTime a k)

theorem grantTimes_snoc (ops : List (Op F)) (op : Op F) (a : Fin 64) (k : Fin 6) :
    grantTimes (ops ++ [op]) a k =
      grantTimes ops a k ++ (grantTime a k (op, ((run ops).apply op).2)).toList := by
  rw [grantTimes, Machine.outputs_snoc, List.zip_append (Machine.length_outputs _ _ _).symm,
    List.filterMap_append]
  rfl

theorem grantTime_eq_some_iff (ops : List (Op F)) (op : Op F) (a : Fin 64) (k : Fin 6) (t : ℕ) :
    grantTime a k (op, ((run ops).apply op).2) = some t ↔
      ∃ call, op = .next call ∧ (run ops).Grants call a k ∧ call.nowMs.toNat = t := by
  cases op with
  | configure address context nowMs => simp [grantTime]
  | complete request nowMs => simp [grantTime]
  | next call =>
      simp only [apply, Grants, Op.next.injEq, exists_eq_left']
      cases ((run ops).next call).1 with
      | none => simp [grantTime]
      | some request => simp [grantTime]

theorem exists_of_mem_grantTimes {ops : List (Op F)} {a : Fin 64} {k : Fin 6} {t : ℕ}
    (h : t ∈ grantTimes ops a k) : ∃ pre call post, ops = pre ++ .next call :: post ∧
      (run pre).Grants call a k ∧ call.nowMs.toNat = t := by
  induction ops using List.reverseRecOn with
  | nil => cases h
  | append_singleton ops op ih =>
      rw [grantTimes_snoc, List.mem_append, Option.mem_toList] at h
      rcases h with h | h
      · obtain ⟨pre, call, post, rfl, hgrants⟩ := ih h
        exact ⟨pre, call, post ++ [op], by simp, hgrants⟩
      · obtain ⟨call, rfl, hgrants⟩ := (grantTime_eq_some_iff ops op a k t).1 h
        exact ⟨ops, call, [], rfl, hgrants⟩

/-! ## The distance between two grants -/

theorem le_due_complete {s : DaliScheduler} {request : PollRequest} {nowMs : UInt64} {a : Fin 64}
    {k : Fin 6} {since : ℕ} (hconfigured : s.Configured a)
    (hfits : nowMs.toNat + (intervalFor request.kind (s.slots.get a).context nowMs).toNat < 2 ^ 64)
    (hsince : since ≤ nowMs.toNat) (haddress : request.address.toNat = a)
    (hkind : request.kind = .ofIndex k) :
    since + shortestIntervalMs k ≤ ((s.complete request nowMs).due a k).toNat := by
  rw [hkind] at hfits
  rw [due_complete_self s request nowMs hconfigured haddress hkind, UInt64.toNat_add,
    Nat.mod_eq_of_lt hfits]
  exact Nat.add_le_add hsince (shortestIntervalMs_le k (s.slots.get a).context nowMs)

theorem le_due_apply {s : DaliScheduler} {op : Op F} {a : Fin 64} {k : Fin 6} {since : ℕ}
    (hconfigured : s.Configured a) (hfits : s.DueFits op) (hclock : ∀ t ∈ op.clock, since ≤ t)
    (hkept : ∀ address context nowMs, op = .configure address context nowMs → address.toNat ≠ a.val)
    (hdue : since + shortestIntervalMs k ≤ (s.due a k).toNat) :
    since + shortestIntervalMs k ≤ ((s.apply op).1.due a k).toNat := by
  cases op with
  | configure address context nowMs =>
      rwa [apply, due_configure, if_neg (hkept address context nowMs rfl)]
  | next call => rwa [apply, due, next_slots]
  | complete request nowMs =>
      rw [apply]
      by_cases hself : request.address.toNat = a ∧ request.kind = .ofIndex k
      · exact le_due_complete hconfigured (hfits a hself.1) (hclock _ rfl) hself.1 hself.2
      · rwa [due_complete s request nowMs a k hself]

theorem le_due_after {s : DaliScheduler} {ops : List (Op F)} {a : Fin 64} {k : Fin 6} {since : ℕ}
    (hconfigured : s.Configured a) (hfits : machine.Meets DueFits s ops)
    (hclock : ∀ op ∈ ops, ∀ t ∈ op.clock, since ≤ t)
    (hkept : ∀ address context nowMs, .configure address context nowMs ∈ ops → address.toNat ≠ a.val)
    (hdue : since + shortestIntervalMs k ≤ (s.due a k).toNat) :
    since + shortestIntervalMs k ≤ ((machine.after s ops).due a k).toNat := by
  induction ops generalizing s with
  | nil => exact hdue
  | cons op ops ih =>
      obtain ⟨hop, hops⟩ := (Machine.meets_cons _ _ _ _).1 hfits
      apply ih (s.configured_apply op hconfigured) hops
      · exact fun op' hop' => hclock op' (List.mem_cons_of_mem op hop')
      · exact fun address context nowMs h =>
          hkept address context nowMs (List.mem_cons_of_mem op h)
      · apply le_due_apply hconfigured hop (hclock op List.mem_cons_self) _ hdue
        rintro address context nowMs rfl
        exact hkept address context nowMs List.mem_cons_self

/-- Two grants of a poll lie its shortest interval apart, when its light is not configured in
between. -/
theorem grants_apart {pre mid post : List (Op F)} {first second : PollCall F} {a : Fin 64} {k : Fin 6}
    (hclock : ClockAscends (pre ++ .next first :: (mid ++ .next second :: post)))
    (hfits : machine.Meets DueFits initial (pre ++ .next first :: (mid ++ .next second :: post)))
    (hcompleted : CompletesGrants (pre ++ .next first :: (mid ++ .next second :: post)))
    (hkept : ∀ address context nowMs, .configure address context nowMs ∈ mid → address.toNat ≠ a.val)
    (hfirst : (run pre).Grants first a k)
    (hsecond : (run (pre ++ .next first :: mid)).Grants second a k) :
    first.nowMs.toNat + shortestIntervalMs k ≤ second.nowMs.toNat := by
  obtain ⟨request, hrequest, haddress, hkind⟩ := id hfirst
  obtain ⟨nowMs, hmem⟩ := hcompleted pre first mid second post request rfl hrequest
  obtain ⟨before, later, rfl⟩ := List.append_of_mem hmem
  have hsplit : pre ++ .next first :: ((before ++ .complete request nowMs :: later) ++
      .next second :: post) = (pre ++ .next first :: before) ++
        (.complete request nowMs :: (later ++ .next second :: post)) := by simp
  have hrun : run (pre ++ .next first :: (before ++ .complete request nowMs :: later)) =
      machine.after ((run (pre ++ .next first :: before)).complete request nowMs) later := by
    rw [← List.cons_append, ← List.append_assoc, run, Machine.after_append, Machine.after_cons]
    rfl
  have hconfigured : (run (pre ++ .next first :: before)).Configured a := by
    rw [run, Machine.after_append]
    have hready := ((hfirst.spec (run_cursor_lt pre)).1).1
    exact machine.after_induction (P := fun s => s.Configured a)
      (fun s op h => s.configured_apply op h) hready (.next first :: before)
  have hlater := le_clock_of_ascends hclock
  rw [hsplit, Machine.meets_append, Machine.meets_cons] at hfits
  obtain ⟨-, hfit, hrest⟩ := hfits
  have hmeets := ((Machine.meets_append _ _ _ _).1 hrest).1
  have hset : first.nowMs.toNat + shortestIntervalMs k ≤
      (((run (pre ++ .next first :: before)).complete request nowMs).due a k).toNat :=
    le_due_complete hconfigured (hfit a haddress)
      (hlater (.complete request nowMs) (by simp) _ rfl) haddress hkind
  -- nothing brings the poll forward again before the second grant
  have hkeeps := le_due_after (configured_complete _ request nowMs hconfigured) hmeets
    (fun op hop => hlater op (by simp [hop]))
    (fun address context nowMs h => hkept address context nowMs (by simp [h])) hset
  rw [hrun] at hsecond
  have hdue := (((ready_iff _ _ _ _).1 (hsecond.spec (by rw [← hrun]; exact run_cursor_lt _)).1)).2.1
  exact hkeeps.trans (UInt64.le_iff_toNat_le.1 hdue)

/-- A window of time has room for one grant of a poll, and one more for each of its shortest
intervals that goes into the window, whatever the context of its light. -/
theorem grants_bounded (ops : List (Op F)) (a : Fin 64) (k : Fin 6) (start span : ℕ)
    (hclock : ClockAscends ops) (hfits : machine.Meets DueFits initial ops)
    (hcompleted : CompletesGrants ops) (hkept : KeptInWindow ops a start span) :
    (grantTimes ops a k).countP (fun t => start ≤ t ∧ t ≤ start + span) ≤
      1 + span / shortestIntervalMs k := by
  rw [List.countP_eq_length_filter]
  apply length_le_of_apart (shortestIntervalMs_pos k)
  · intro t ht
    simpa using (List.mem_filter.1 ht).2
  · -- along the run, each grant is apart from all that stand before it
    have hprefix : ∀ done, done <+: ops →
        ((grantTimes done a k).filter fun t => start ≤ t ∧ t ≤ start + span).Pairwise
          fun t u => t + shortestIntervalMs k ≤ u := by
      intro done
      induction done using List.reverseRecOn with
      | nil => exact fun _ => List.Pairwise.nil
      | append_singleton done op ih =>
          rintro ⟨rest, rfl⟩
          rw [grantTimes_snoc, List.filter_append, List.pairwise_append]
          refine ⟨ih ⟨op :: rest, by simp⟩, ?_, ?_⟩
          · cases grantTime a k (op, ((run done).apply op).2) with
            | none => exact List.Pairwise.nil
            | some t => exact List.Pairwise.filter _ (List.pairwise_singleton _ t)
          · intro t ht u hu
            obtain ⟨htimes, hstart⟩ := List.mem_filter.1 ht
            obtain ⟨hnew, hend⟩ := List.mem_filter.1 hu
            obtain ⟨pre, first, mid, rfl, hfirst, rfl⟩ := exists_of_mem_grantTimes htimes
            obtain ⟨second, rfl, hsecond, rfl⟩ :=
              (grantTime_eq_some_iff _ op a k u).1 (Option.mem_toList.1 hnew)
            have hops : pre ++ .next first :: mid ++ [.next second] ++ rest =
                pre ++ .next first :: (mid ++ .next second :: rest) := by simp
            rw [hops] at hclock hfits hcompleted hkept
            have hkeptBetween := hkept pre first mid second rest rfl
              (of_decide_eq_true hstart).1 (of_decide_eq_true hend).2
            exact grants_apart hclock hfits hcompleted hkeptBetween hfirst hsecond
    exact hprefix ops List.prefix_rfl

/-- A light that is on, polled twice in five seconds. -/
theorem grants_bounded_example :
    let call (nowMs : UInt64) : PollCall ℚ := ⟨nowMs, 0, 3 / 10, 6 / 10⟩
    let ops : List (Op ℚ) := [.configure 0 { commandedOn := true } 0, .next (call 0),
      .complete ⟨0, .status, .high, 100⟩ 0, .next (call 5000)]
    (grantTimes ops 0 0).countP (fun t => 0 ≤ t ∧ t ≤ 0 + 5000) ≤ 1 + 5000 / 2000 := by
  intro call ops
  have hpair : ∀ pre first mid second post,
      ops = pre ++ .next first :: (mid ++ .next second :: post) →
        pre = [.configure 0 { commandedOn := true } 0] ∧ first = call 0 ∧
          mid = [.complete ⟨0, .status, .high, 100⟩ 0] := by
    intro pre first mid second post h
    rcases pre with _ | ⟨op, _ | ⟨op', _ | ⟨op'', pre⟩⟩⟩
    · simp [ops] at h
    · rcases mid with _ | ⟨op', _ | ⟨op'', mid⟩⟩
      · simp [ops] at h
      · simp only [ops, List.cons_append, List.nil_append, List.cons.injEq, Op.next.injEq] at h
        obtain ⟨rfl, rfl, rfl, -⟩ := h
        exact ⟨rfl, rfl, rfl⟩
      · have hlength := congrArg List.length h
        simp [ops] at hlength
    · simp [ops] at h
    · have hlength := congrArg List.length h
      simp only [ops, List.length_cons, List.length_append, List.length_nil] at hlength
      omega
  apply grants_bounded ops 0 0 0 5000
  · unfold ClockAscends
    decide
  · refine ⟨trivial, trivial, fun a _ => ?_, trivial, trivial⟩
    revert a
    decide +kernel
  · intro pre first mid second post request h hrequest
    obtain ⟨rfl, rfl, rfl⟩ := hpair pre first mid second post h
    have hgranted : ((run [Op.configure (F := ℚ) 0 { commandedOn := true } 0]).next (call 0)).1 =
        some ⟨0, .status, .high, 100⟩ := by decide +kernel
    rw [hgranted, Option.some.injEq] at hrequest
    subst hrequest
    exact ⟨0, List.mem_singleton_self _⟩
  · intro pre first mid second post h _ _ address context nowMs hmem
    obtain ⟨rfl, rfl, rfl⟩ := hpair pre first mid second post h
    cases List.mem_singleton.1 hmem

end DaliScheduler

end DaliEdge
