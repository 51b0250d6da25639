import DaliEdge.PollTurns

/-!
# Due times

A call of `next` grants a poll that is due and that the limit of its own priority admits, or
finds that there is none, and leaves the due times alone. They are moved by `complete`, which
sets one, and by `configure`, which restarts all six of a light, also when the light has been
configured before and only its context changes.
-/

namespace DaliEdge

namespace DaliScheduler

variable {F : Type*} [Zero F] [LE F] [LT F] [DecidableLE F] [DecidableLT F]

def Configured (s : DaliScheduler) (a : Fin 64) : Prop := (s.slots.get a).configured = true

instance (s : DaliScheduler) (a : Fin 64) : Decidable (s.Configured a) :=
  inferInstanceAs (Decidable (_ = true))

def due (s : DaliScheduler) (a : Fin 64) (k : Fin 6) : UInt64 := (s.slots.get a).dueMs.get k

/-- The priority that a poll of the light is requested with. -/
def priority (s : DaliScheduler) (a : Fin 64) (k : Fin 6) : PollPriority :=
  priorityFor (.ofIndex k) (s.slots.get a).context

/-- The utilisation lies below the limit of the priority. -/
def Admitted (call : PollCall F) (priority : PollPriority) : Prop :=
  0 ≤ call.utilisation ∧
    call.utilisation < if priority = .critical then call.diagnosticLimit else call.normalLimit

theorem admits_request_iff (slot : Slot) (address : ℕ) (k : Fin 6) (call : PollCall F) :
    admits (slot.request address k) call.utilisation call.normalLimit call.diagnosticLimit = true ↔
      Admitted call (priorityFor (.ofIndex k) slot.context) := by
  have hduration : (slot.request address k).estimatedDurationMs > 0 :=
    (by decide : (100 : UInt32) > 0)
  simp only [admits, Bool.and_eq_true, decide_eq_true_eq, hduration, and_true]
  rfl

theorem ready_iff (s : DaliScheduler) (call : PollCall F) (a : Fin 64) (k : Fin 6) :
    s.Ready call a k ↔ s.Configured a ∧ s.due a k ≤ call.nowMs ∧ Admitted call (s.priority a k) := by
  rw [Ready, admits_request_iff]
  rfl

theorem next_slots (s : DaliScheduler) (call : PollCall F) : (s.next call).2.slots = s.slots := by
  unfold next
  cases RoundRobin.scan 64 (s.visit call) s.roundRobinCursor.toNat <;> rfl

/-- A granted poll is of a configured light, due, and admitted at the limit of its own priority;
nothing is granted only if there is no such poll; and only the cursor moves. -/
theorem next_sound_and_complete (ops : List (Op F)) (call : PollCall F) :
    (∀ request, ((run ops).next call).1 = some request → ∃ (a : Fin 64) (k : Fin 6),
      request.address.toNat = a ∧ request.kind = .ofIndex k ∧
        request.priority = (run ops).priority a k ∧ (run ops).Configured a ∧
        (run ops).due a k ≤ call.nowMs ∧ Admitted call request.priority) ∧
    (((run ops).next call).1 = none → ∀ (a : Fin 64) (k : Fin 6), (run ops).Configured a →
      ¬ ((run ops).due a k ≤ call.nowMs ∧ Admitted call ((run ops).priority a k))) ∧
    ((run ops).next call).2.slots = (run ops).slots ∧
    (run ops).roundRobinCursor.toNat < 64 ∧
    ((run ops).next call).2.roundRobinCursor.toNat < 64 := by
  have hcursor := run_cursor_lt ops
  have hmoved : ((run ops).next call).2.roundRobinCursor.toNat < 64 :=
    apply_cursor_lt (run ops) (.next call) hcursor
  obtain ⟨hnone, heq⟩ | ⟨a, k, hready, -, -, heq⟩ := (run ops).next_cases call hcursor
  · refine ⟨fun request hrequest => ?_, fun _ a k hconfigured hdue => ?_, next_slots _ _, hcursor,
      hmoved⟩
    · rw [heq] at hrequest
      cases hrequest
    · exact hnone a k ((ready_iff _ _ _ _).2 ⟨hconfigured, hdue⟩)
  · refine ⟨fun request hrequest => ?_, fun hrequest => ?_, next_slots _ _, hcursor, hmoved⟩
    · rw [heq, Option.some.injEq] at hrequest
      subst hrequest
      exact ⟨a, k, toNat_request_address _ a k, rfl, rfl, (ready_iff _ _ _ _).1 hready⟩
    · rw [heq] at hrequest
      cases hrequest

/-- A warned light is due at once, and its status is requested above the normal limit. -/
theorem next_sound_and_complete_example :
    let call : PollCall ℚ := ⟨0, 1 / 2, 3 / 10, 6 / 10⟩
    let s := run [Op.configure (F := ℚ) 2 { warningActive := true } 0]
    ∃ (a : Fin 64) (k : Fin 6), 2 = (a : ℕ) ∧ PollKind.status = .ofIndex k ∧
      PollPriority.critical = s.priority a k ∧ s.Configured a ∧ s.due a k ≤ 0 ∧
      Admitted call .critical :=
  (next_sound_and_complete [Op.configure (F := ℚ) 2 { warningActive := true } 0]
    ⟨0, 1 / 2, 3 / 10, 6 / 10⟩).1 ⟨2, .status, .critical, 100⟩ (by decide +kernel)

/-! ## Context updates -/

/-- How far ahead `configure` sets each due time. -/
def startDelayMs : Fin 6 → UInt64
  | 0 => 0
  | 1 => 30000
  | 2 => 60000
  | 3 => 60000
  | 4 => 21600000
  | 5 => 86400000

theorem get_configuredDueMs (nowMs : UInt64) (k : Fin 6) :
    (configuredDueMs nowMs).get k = nowMs + startDelayMs k := by
  match k with
  | 0 => exact (UInt64.add_zero nowMs).symm
  | 1 | 2 | 3 | 4 | 5 => rfl

theorem get_storeSlot (s : DaliScheduler) (a b : Fin 64) (slot : Slot) :
    (s.storeSlot a slot).slots.get b = if a = b then slot else s.slots.get b :=
  SlotSweep.get_set s.slots a b slot

theorem due_configure (s : DaliScheduler) (address : UInt8) (context : LightPollContext)
    (nowMs : UInt64) (a : Fin 64) (k : Fin 6) :
    (s.configure address context nowMs).due a k =
      if address.toNat = a then nowMs + startDelayMs k else s.due a k := by
  unfold configure due
  by_cases hlt : address.toNat < 64
  · rw [dif_pos hlt, get_storeSlot]
    by_cases ha : address.toNat = a
    · rw [if_pos ha, if_pos (Fin.ext ha), ← get_configuredDueMs]
    · rw [if_neg ha, if_neg fun h => ha (congrArg Fin.val h)]
  · have ha : address.toNat ≠ a := fun h => hlt (h ▸ a.isLt)
    rw [dif_neg hlt, if_neg ha]

theorem configured_configure (s : DaliScheduler) (address : UInt8) (context : LightPollContext)
    (nowMs : UInt64) {a : Fin 64} (h : s.Configured a) :
    (s.configure address context nowMs).Configured a := by
  unfold configure Configured
  by_cases hlt : address.toNat < 64
  · rw [dif_pos hlt, get_storeSlot]
    split_ifs with ha
    · rfl
    · exact h
  · rwa [dif_neg hlt]

def Op.Completes (a : Fin 64) (k : Fin 6) : Op F → Prop
  | .complete request _ => request.address.toNat = a ∧ request.kind = .ofIndex k
  | _ => False

theorem due_complete (s : DaliScheduler) (request : PollRequest) (nowMs : UInt64) (a : Fin 64)
    (k : Fin 6) (h : ¬ (request.address.toNat = a ∧ request.kind = .ofIndex k)) :
    (s.complete request nowMs).due a k = s.due a k := by
  unfold complete due
  split_ifs with hlt
  · cases hindex : request.kind.index? with
    | none => rfl
    | some index =>
        simp only
        split_ifs with hconfigured
        · rw [get_storeSlot]
          split_ifs with ha
          · subst ha
            have hk : index ≠ k := by
              rintro rfl
              exact h ⟨rfl, PollKind.eq_ofIndex hindex⟩
            rw [SlotSweep.get_set, if_neg hk]
          · rfl
        · rfl
  · rfl

theorem configured_complete (s : DaliScheduler) (request : PollRequest) (nowMs : UInt64) {a : Fin 64}
    (h : s.Configured a) : (s.complete request nowMs).Configured a := by
  unfold complete Configured
  split_ifs with hlt
  · cases request.kind.index? with
    | none => exact h
    | some index =>
        simp only
        split_ifs with hconfigured
        · rw [get_storeSlot]
          split_ifs with ha
          · exact hconfigured
          · exact h
        · exact h
  · exact h

theorem configured_apply (s : DaliScheduler) (op : Op F) {a : Fin 64} (h : s.Configured a) :
    (s.apply op).1.Configured a := by
  cases op with
  | configure address context nowMs => exact s.configured_configure address context nowMs h
  | complete request nowMs => exact s.configured_complete request nowMs h
  | next call =>
      rw [apply, Configured, next_slots]
      exact h

/-- A context update finds each poll of the light at least its starting delay ahead. -/
def AheadOfStart (s : DaliScheduler) (a : Fin 64) (nowMs : UInt64) : Prop :=
  ∀ k, nowMs + startDelayMs k ≤ s.due a k

/-- The operation is not a context update, or comes ahead of every start. -/
def UpdatesAhead (s : DaliScheduler) : Op F → Prop
  | .configure address _ nowMs =>
      ∀ a : Fin 64, address.toNat = a → s.Configured a → s.AheadOfStart a nowMs
  | _ => True

theorem due_apply_le (s : DaliScheduler) (op : Op F) {a : Fin 64} (k : Fin 6)
    (hahead : s.UpdatesAhead op) (hconfigured : s.Configured a) (h : ¬ op.Completes a k) :
    (s.apply op).1.due a k ≤ s.due a k := by
  cases op with
  | configure address context nowMs =>
      rw [apply, due_configure]
      split_ifs with ha
      · exact hahead a ha hconfigured k
      · exact UInt64.le_refl _
  | complete request nowMs =>
      rw [apply, due_complete s request nowMs a k h]
      exact UInt64.le_refl _
  | next call =>
      rw [apply, due, next_slots]
      exact UInt64.le_refl _

theorem due_after_le (s : DaliScheduler) (ops : List (Op F)) {a : Fin 64} (k : Fin 6)
    (hahead : machine.Meets UpdatesAhead s ops) (hconfigured : s.Configured a)
    (h : ∀ op ∈ ops, ¬ op.Completes a k) : (machine.after s ops).due a k ≤ s.due a k := by
  induction ops generalizing s with
  | nil => exact UInt64.le_refl _
  | cons op ops ih =>
      obtain ⟨hop, hops⟩ := (Machine.meets_cons _ _ _ _).1 hahead
      have hrest := ih (s.apply op).1 hops (s.configured_apply op hconfigured)
        fun op' hop' => h op' (List.mem_cons_of_mem op hop')
      exact UInt64.le_trans hrest
        (s.due_apply_le op k hop hconfigured (h op List.mem_cons_self))

/-- A context update of a configured light leaves each of its polls due no later exactly when it
comes ahead of every start; in a run whose updates all do, each poll is due no later than it
was, until it is completed. -/
theorem configure_keeps_due_iff (ops : List (Op F)) :
    (∀ (address : UInt8) (context : LightPollContext) (nowMs : UInt64) (a : Fin 64),
      address.toNat = a → (run ops).Configured a →
      ((∀ k, ((run ops).configure address context nowMs).due a k ≤ (run ops).due a k) ↔
        (run ops).AheadOfStart a nowMs)) ∧
    (machine.Meets UpdatesAhead initial ops → ∀ (pre mid : List (Op F)) (a : Fin 64) (k : Fin 6),
      ops = pre ++ mid → (run pre).Configured a → (∀ op ∈ mid, ¬ op.Completes a k) →
        (run ops).due a k ≤ (run pre).due a k) := by
  refine ⟨fun address context nowMs a ha _ => forall_congr' fun k => ?_, ?_⟩
  · rw [due_configure, if_pos ha]
  · rintro hahead pre mid a k rfl hconfigured hmid
    have hrest := ((Machine.meets_append _ _ _ _).1 hahead).2
    rw [run, Machine.after_append]
    exact due_after_le (run pre) mid k hrest hconfigured hmid

/-- A warning at the very start leaves the presence poll where it was. -/
theorem configure_keeps_due_iff_example :
    let ops : List (Op ℚ) := [.configure 0 {} 0] ++ [.configure 0 { warningActive := true } 0]
    (run ops).due 0 1 ≤ (run [Op.configure (F := ℚ) 0 {} 0]).due 0 1 := by
  intro ops
  refine (configure_keeps_due_iff ops).2 ?_ [.configure 0 {} 0]
    [.configure 0 { warningActive := true } 0] 0 1 rfl (by decide +kernel) ?_
  · have hahead : (run [Op.configure (F := ℚ) 0 {} 0]).AheadOfStart 0 0 := by
      unfold AheadOfStart
      decide +kernel
    refine ⟨fun a _ hconfigured => ?_, fun a ha _ => ?_, trivial⟩
    · exact absurd hconfigured (by revert a; decide +kernel)
    · obtain rfl : a = 0 := Fin.ext ha.symm
      exact hahead
  · intro op hop
    rw [List.mem_singleton.1 hop]
    exact id

/-- A light is configured again after 29 seconds: its presence poll, due in a second, is put off
by 29 seconds. -/
theorem configure_puts_presence_off : ¬ ∀ (ops : List (Op ℚ)) (address : UInt8)
    (context : LightPollContext) (nowMs : UInt64) (a : Fin 64), address.toNat = a →
      (run ops).Configured a →
      ∀ k, ((run ops).configure address context nowMs).due a k ≤ (run ops).due a k := by
  intro h
  have hpresence := h [.configure 0 {} 0] 0 { commandedOn := true } 29000 0 rfl (by decide +kernel) 1
  revert hpresence
  decide +kernel

end DaliScheduler

end DaliEdge
