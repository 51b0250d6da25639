import DaliEdge.FaultyBus
import DaliEdge.RetryPauses

/-!
# How long a query takes

A transaction keeps its caller while it receives and while it pauses. What the attempts of a query
may take of both is bounded by the client's own settings, whatever the PHY does; and on a bus where
nothing answers a query takes nearly all of it, for it is tried as often as it may be.
-/

namespace DaliEdge

namespace BusEvent

/-- The longest that a call may keep its caller: the timeout handed to a receive, or a delay. -/
def waitMs : BusEvent → ℕ
  | .receive timeoutMs _ _ => timeoutMs.toNat
  | .delay delayMs => delayMs.toNat
  | .transmit _ _ => 0
  | .jitter _ _ => 0

/-- The PHY takes what is transmitted, and nothing answers. -/
def Silent : BusEvent → Prop
  | .transmit _ result => result = .ok
  | .receive _ result _ => result = .timeout
  | .jitter _ _ => True
  | .delay _ => True

def waited (events : List BusEvent) : ℕ := (events.map waitMs).sum

def transmits (events : List BusEvent) : ℕ := (events.filterMap transmitted).length

@[simp] theorem waited_append (xs ys : List BusEvent) :
    waited (xs ++ ys) = waited xs + waited ys := by
  rw [waited, List.map_append, List.sum_append]
  rfl

theorem waited_pause (maxInclusive value delayMs : UInt32) :
    waited [.jitter maxInclusive value, .delay delayMs] = delayMs.toNat := by
  simp [waited, waitMs]

@[simp] theorem transmits_append (xs ys : List BusEvent) :
    transmits (xs ++ ys) = transmits xs + transmits ys := by
  rw [transmits, List.filterMap_append, List.length_append]
  rfl

end BusEvent

open BusEvent

/-- What `attempts` attempts with `retries` retries between them take at least, if nothing
answers. -/
def leastWait (timeoutMs attempts retries : ℕ) : ℕ :=
  attempts * timeoutMs + ∑ i ∈ Finset.range retries, (baseRetryDelayMs i).toNat

def mostWait (timeoutMs attempts retries : ℕ) : ℕ :=
  leastWait timeoutMs attempts retries + retries * kMaximumJitterMs.toNat

/-- What `queries` queries with these settings transmit and may take. -/
structure Takes (timeoutMs : UInt32) (maxRetries : UInt8) (queries : ℕ) (events : List BusEvent) :
    Prop where
  le_transmits : queries ≤ transmits events
  transmits_le : transmits events ≤ (maxRetries.toNat + 1) * queries
  waited_le : waited events ≤
    mostWait timeoutMs.toNat (maxRetries.toNat + 1) maxRetries.toNat * queries
  of_silent : (∀ e ∈ events, e.Silent) → transmits events = (maxRetries.toNat + 1) * queries ∧
    leastWait timeoutMs.toNat (maxRetries.toNat + 1) maxRetries.toNat * queries ≤ waited events

namespace Takes

variable {timeoutMs : UInt32} {maxRetries : UInt8} {m n : ℕ} {xs ys : List BusEvent}

theorem nil : Takes timeoutMs maxRetries 0 [] :=
  ⟨le_rfl, Nat.zero_le _, Nat.zero_le _, fun _ => ⟨rfl, le_rfl⟩⟩

theorem append (h : Takes timeoutMs maxRetries m xs) (h' : Takes timeoutMs maxRetries n ys) :
    Takes timeoutMs maxRetries (m + n) (xs ++ ys) := by
  refine ⟨?_, ?_, ?_, fun hsilent => ?_⟩
  · rw [transmits_append]
    exact add_le_add h.le_transmits h'.le_transmits
  · rw [transmits_append, mul_add]
    exact add_le_add h.transmits_le h'.transmits_le
  · rw [waited_append, mul_add]
    exact add_le_add h.waited_le h'.waited_le
  · obtain ⟨hxs, hys⟩ := List.forall_mem_append.1 hsilent
    obtain ⟨htransmits, hwaited⟩ := h.of_silent hxs
    obtain ⟨htransmits', hwaited'⟩ := h'.of_silent hys
    rw [transmits_append, waited_append, mul_add, mul_add, htransmits, htransmits']
    exact ⟨rfl, add_le_add hwaited hwaited'⟩

end Takes

namespace DaliTransactionService

variable {τ : Type*} (phy : IDaliPhy τ) (delay : IDelayProvider τ) (request : DaliRequest)

section Attempts

variable {σ : Type*} (service : DaliTransactionService σ)

theorem waited_attemptEvents_le (bus : Bus σ) :
    waited (service.attemptEvents request bus) ≤ request.timeoutMs.toNat := by
  unfold attemptEvents
  split_ifs
  · exact le_of_eq (Nat.zero_add _)
  · exact Nat.zero_le _

theorem attempt_of_silent (hexpects : request.expectsResponse = true) (bus : Bus σ)
    (hsilent : ∀ e ∈ service.attemptEvents request bus, e.Silent) :
    waited (service.attemptEvents request bus) = request.timeoutMs.toNat ∧
      service.outcome request bus = .timeout := by
  have hsent : service.transmitResult request bus = .ok := hsilent _ List.mem_cons_self
  unfold attemptEvents at hsilent ⊢
  rw [if_pos ⟨hsent, hexpects⟩] at hsilent ⊢
  refine ⟨Nat.zero_add _, ?_⟩
  rw [outcome, if_pos ⟨hsent, hexpects⟩]
  exact hsilent _ (List.mem_cons_of_mem _ (List.mem_singleton.2 rfl))

end Attempts

theorem waited_retriedEvents (bus : Bus (τ × LcgJitter)) (i : ℕ) :
    waited ((jittered phy delay).retriedEvents request bus i) =
      waited ((jittered phy delay).attemptEvents request
        ((jittered phy delay).busBefore request bus i)) +
          ((baseRetryDelayMs i).toNat + (bus.state.2.draw kMaximumJitterMs i).toNat) := by
  rw [retriedEvents, waited_append, waited_pause, retryDelayAt_jittered, LcgJitter.toNat_pause]

theorem waited_retried (bus : Bus (τ × LcgJitter)) (n : ℕ) :
    let events := (List.range n).flatMap ((jittered phy delay).retriedEvents request bus)
    waited events ≤ mostWait request.timeoutMs.toNat n n ∧
      (request.expectsResponse = true → (∀ e ∈ events, e.Silent) →
        leastWait request.timeoutMs.toNat n n ≤ waited events) := by
  intro events
  induction n with
  | zero => exact ⟨Nat.zero_le _, fun _ _ => by simp [leastWait]⟩
  | succ n ih =>
      obtain ⟨hmost, hleast⟩ := ih
      have hattempt := waited_attemptEvents_le request (jittered phy delay)
        ((jittered phy delay).busBefore request bus n)
      have hjitter : (bus.state.2.draw kMaximumJitterMs n).toNat ≤ kMaximumJitterMs.toNat :=
        UInt32.le_iff_toNat_le.1 (bus.state.2.draw_le (by decide) n)
      have hevents : events =
          (List.range n).flatMap ((jittered phy delay).retriedEvents request bus) ++
            (jittered phy delay).retriedEvents request bus n := by
        simp only [events, List.range_succ, List.flatMap_append, List.flatMap_singleton]
      rw [hevents, waited_append, waited_retriedEvents]
      simp only [mostWait, leastWait, Finset.sum_range_succ, add_mul, one_mul] at hmost hleast ⊢
      refine ⟨by omega, fun hexpects hsilent => ?_⟩
      obtain ⟨hbefore, hretried⟩ := List.forall_mem_append.1 hsilent
      obtain ⟨hwhole, -⟩ := attempt_of_silent request (jittered phy delay) hexpects _
        (List.forall_mem_append.1 hretried).1
      have hrest := hleast hexpects hbefore
      omega

theorem leastWait_mono (timeoutMs : ℕ) {n r : ℕ} (h : n ≤ r) :
    leastWait timeoutMs (n + 1) n ≤ leastWait timeoutMs (r + 1) r := by
  refine add_le_add (Nat.mul_le_mul_right _ (Nat.succ_le_succ h)) ?_
  exact Finset.sum_le_sum_of_subset (Finset.range_mono h)

/-- An admissible request that waits for an answer transmits its frame and takes what its settings
allow. -/
theorem execute_takes (hexpects : request.expectsResponse = true) (h : request.Admissible)
    (bus : Bus (τ × LcgJitter)) :
    ∃ events, Bus.Extends bus ((jittered phy delay).execute request bus).2 events ∧
      (∀ frame ∈ events.filterMap transmitted, frame = request.frame.raw) ∧
      Takes request.timeoutMs request.maxRetries 1 events := by
  obtain ⟨hle, -, hended⟩ := (jittered phy delay).lastAttempt_spec request bus
  obtain ⟨n, hn⟩ : ∃ n, (jittered phy delay).lastAttempt request bus = n := ⟨_, rfl⟩
  rw [hn] at hle hended
  obtain ⟨-, hextends⟩ := (jittered phy delay).execute_eq request bus h hn
  obtain ⟨hmost, hleast⟩ := waited_retried phy delay request bus n
  have hattempt := waited_attemptEvents_le request (jittered phy delay)
    ((jittered phy delay).busBefore request bus n)
  obtain ⟨htransmitted, -⟩ := (jittered phy delay).filterMap_transactionEvents request bus n
  have hcount : transmits ((jittered phy delay).transactionEvents request bus n) = n + 1 := by
    rw [transmits, htransmitted, List.length_replicate]
  have hwaited : waited ((jittered phy delay).transactionEvents request bus n) =
      waited ((List.range n).flatMap ((jittered phy delay).retriedEvents request bus)) +
        waited ((jittered phy delay).attemptEvents request
          ((jittered phy delay).busBefore request bus n)) := waited_append _ _
  have hmono := leastWait_mono request.timeoutMs.toNat hle
  refine ⟨_, hextends, fun frame hframe => ?_, ?_, ?_, ?_, fun hsilent => ?_⟩
  · rw [htransmitted] at hframe
    exact List.eq_of_mem_replicate hframe
  · omega
  · omega
  · have hpauses := Nat.mul_le_mul_right kMaximumJitterMs.toNat hle
    simp only [mostWait, leastWait, add_mul, one_mul, mul_one] at hmost hmono ⊢
    omega
  · obtain ⟨hbefore, hlast⟩ := List.forall_mem_append.1 hsilent
    obtain ⟨hwhole, htimeout⟩ :=
      attempt_of_silent request (jittered phy delay) hexpects _ hlast
    have hall : n = request.maxRetries.toNat := by
      refine hended.resolve_left fun hfalse => ?_
      rw [outcomeAt, htimeout] at hfalse
      cases hfalse
    have hrest := hleast hexpects hbefore
    rw [hcount, hwaited, ← hall]
    simp only [leastWait, add_mul, one_mul, mul_one] at hrest ⊢
    exact ⟨trivial, by omega⟩

end DaliTransactionService

namespace PipelineQueryClient

variable {τ : Type*} (phy : IDaliPhy τ) (delay : IDelayProvider τ)

theorem query_takes (client : PipelineQueryClient) (h : client.Admissible) (address : ShortAddress)
    (command : DaliCommand) (priority : CommandPriority) {st : Station (τ × LcgJitter)}
    (hidle : st.Idle) :
    ∃ events, Bus.Extends st.bus (client.query (.jittered phy delay) address command priority
        st).2.2.bus events ∧
      (∀ frame ∈ events.filterMap transmitted, frame = (makeShortCommand address command).raw) ∧
      Takes client.timeoutMs client.maximumRetries 1 events := by
  obtain ⟨-, -, -, hbus⟩ :=
    query_of_idle (.jittered phy delay) client address command priority hidle
  rw [hbus]
  exact DaliTransactionService.execute_takes phy delay
    (client.request address command priority) rfl h st.bus

end PipelineQueryClient

end DaliEdge
