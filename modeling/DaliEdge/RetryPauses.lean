import DaliEdge.Attempts
import DaliEdge.LcgJitter

/-!
# The pauses between attempts

With the jitters of the generator the pauses of a run are settled before it starts, but for the
number of retries of each request, which is all that the PHY decides. The time that a result
reports is the time that its pauses took.
-/

namespace DaliEdge

def lcgJitter : IJitterSource LcgJitter where
  next maxInclusive jitter := jitter.next maxInclusive

/-- Transactions whose jitters are drawn from the generator, over a PHY and a delay provider that
share a state of their own. -/
def DaliTransactionService.jittered {τ : Type*} (phy : IDaliPhy τ) (delay : IDelayProvider τ) :
    DaliTransactionService (τ × LcgJitter) where
  phy :=
    { transmit := fun frame s => ((phy.transmit frame s.1).1, (phy.transmit frame s.1).2, s.2)
      receive := fun frame timeoutMs s =>
        ((phy.receive frame timeoutMs s.1).1, (phy.receive frame timeoutMs s.1).2.1,
          (phy.receive frame timeoutMs s.1).2.2, s.2) }
  delay := { delayMs := fun ms s => (delay.delayMs ms s.1, s.2) }
  jitter := { next := fun maxInclusive s =>
    ((lcgJitter.next maxInclusive s.2).1, s.1, (lcgJitter.next maxInclusive s.2).2) }

/-- The attempts of a transaction behind its first one. -/
def DaliTransactionResult.retries (result : DaliTransactionResult) : ℕ :=
  result.attempts.toNat - 1

namespace LcgJitter

/-- The pause behind attempt `i` of a transaction that starts with this generator. -/
def pause (jitter : LcgJitter) (i : ℕ) : UInt32 :=
  baseRetryDelayMs i + jitter.draw kMaximumJitterMs i

/-- The pauses of transactions with these numbers of retries. -/
def pauses : LcgJitter → List ℕ → List UInt32
  | _, [] => []
  | jitter, n :: ns => (List.range n).map jitter.pause ++ pauses (advance^[n] jitter) ns

theorem toNat_pause (jitter : LcgJitter) (i : ℕ) :
    (jitter.pause i).toNat = (baseRetryDelayMs i).toNat + (jitter.draw kMaximumJitterMs i).toNat := by
  have hbase := DaliTransactionService.toNat_baseRetryDelayMs_le i
  have hdraw : (jitter.draw kMaximumJitterMs i).toNat ≤ 25 :=
    UInt32.le_iff_toNat_le.1 (jitter.draw_le (by decide) i)
  rw [pause, UInt32.toNat_add, Nat.mod_eq_of_lt (by omega)]

end LcgJitter

namespace DaliTransactionService

open LcgJitter (advance)

variable {τ : Type*} (phy : IDaliPhy τ) (delay : IDelayProvider τ) (request : DaliRequest)

theorem exchange_jittered (bus : Bus (τ × LcgJitter)) :
    ((jittered phy delay).exchange request bus).2.2.state.2 = bus.state.2 := by
  unfold exchange
  dsimp only
  split_ifs <;> rfl

theorem busBefore_jittered (bus : Bus (τ × LcgJitter)) (i : ℕ) :
    ((jittered phy delay).busBefore request bus i).state.2 = advance^[i] bus.state.2 := by
  induction i with
  | zero => rfl
  | succ i ih =>
      rw [Function.iterate_succ_apply', ← ih,
        ← exchange_jittered phy delay request ((jittered phy delay).busBefore request bus i)]
      rfl

theorem jitterAt_jittered (bus : Bus (τ × LcgJitter)) (i : ℕ) :
    (jittered phy delay).jitterAt request bus i = bus.state.2.draw kMaximumJitterMs i := by
  have hstate := exchange_jittered phy delay request
    ((jittered phy delay).busBefore request bus i)
  rw [busBefore_jittered] at hstate
  rw [LcgJitter.draw, ← hstate]
  rfl

theorem retryDelayAt_jittered (bus : Bus (τ × LcgJitter)) (i : ℕ) :
    (jittered phy delay).retryDelayAt request bus i = bus.state.2.pause i := by
  rw [retryDelayAt, jitterAt_jittered]
  rfl

/-- What a transaction does to the generator and to the clock, by the number of its retries. -/
structure Paused (before after : Bus (τ × LcgJitter)) (result : DaliTransactionResult) : Prop where
  drawn : after.state.2 = advance^[result.retries] before.state.2
  delayed : ∃ events, Bus.Extends before after events ∧ events.filterMap BusEvent.delayed =
    (List.range result.retries).map before.state.2.pause
  total : result.retryDelayTotalMs.toNat =
    ((List.range result.retries).map fun i => (before.state.2.pause i).toNat).sum
  bounded : result.retryDelayTotalMs.toNat ≤ 2025 * result.retries

theorem execute_paused (bus : Bus (τ × LcgJitter)) :
    Paused bus ((jittered phy delay).execute request bus).2
      ((jittered phy delay).execute request bus).1 := by
  by_cases h : request.Admissible
  · have hstate := (jittered phy delay).execute_bus request bus h
    obtain ⟨hlast, -, -⟩ := (jittered phy delay).lastAttempt_spec request bus
    have hretries : request.maxRetries.toNat ≤ 8 := UInt8.le_iff_toNat_le.1 h.2
    obtain ⟨n, hn⟩ : ∃ n, (jittered phy delay).lastAttempt request bus = n := ⟨_, rfl⟩
    rw [hn] at hstate hlast
    obtain ⟨hresult, hextends⟩ := (jittered phy delay).execute_eq request bus h hn
    have hattempts : ((jittered phy delay).execute request bus).1.retries = n := by
      have hsmall : n + 1 < 256 := by omega
      rw [DaliTransactionResult.retries, hresult, UInt8.toNat_ofNat_of_lt' hsmall,
        Nat.add_sub_cancel]
    have hdraws : ∀ i < n, (jittered phy delay).jitterAt request bus i ≤ kMaximumJitterMs := by
      intro i _
      rw [jitterAt_jittered]
      exact bus.state.2.draw_le (by decide) i
    obtain ⟨htotal, hbounded⟩ := (jittered phy delay).toNat_retryDelayTotal request bus
      (hlast.trans hretries) hdraws
    refine ⟨?_, ⟨_, hextends, ?_⟩, ?_, ?_⟩
    · rw [hattempts, hstate, exchange_jittered, busBefore_jittered]
    · rw [((jittered phy delay).filterMap_transactionEvents request bus n).2, hattempts]
      exact List.map_congr_left fun i _ => retryDelayAt_jittered phy delay request bus i
    · rw [hattempts, hresult, htotal]
      simp only [LcgJitter.toNat_pause, jitterAt_jittered]
    · rw [hattempts, hresult]
      exact hbounded
  · rw [(jittered phy delay).execute_of_not_admissible request bus h]
    exact ⟨rfl, ⟨[], Bus.Extends.refl bus, rfl⟩, rfl, Nat.zero_le _⟩

/-- Over any PHY, requests of any kind that are executed one after the other pause as the generator
says, in order and without a jitter left out, and report as delays what their pauses took. -/
theorem requests_pause (bus : Bus (τ × LcgJitter)) (requests : List DaliRequest) :
    let executing := (jittered phy delay).executing
    let results := executing.outputs bus requests
    (executing.after bus requests).state.2 =
        advance^[(results.map (·.retries)).sum] bus.state.2 ∧
      (∃ events, Bus.Extends bus (executing.after bus requests) events ∧
        events.filterMap BusEvent.delayed = bus.state.2.pauses (results.map (·.retries))) ∧
      ((bus.state.2.pauses (results.map (·.retries))).map UInt32.toNat).sum =
        (results.map (·.retryDelayTotalMs.toNat)).sum ∧
      ∀ result ∈ results, result.retryDelayTotalMs.toNat ≤ 2025 * result.retries := by
  intro executing results
  induction requests generalizing bus with
  | nil => exact ⟨rfl, ⟨[], Bus.Extends.refl bus, rfl⟩, rfl, fun _ h => absurd h List.not_mem_nil⟩
  | cons request requests ih =>
      have hpaused := execute_paused phy delay request bus
      obtain ⟨hdrawn, ⟨events, hextends, hdelayed⟩, htotal, hbounded⟩ :=
        ih (executing.step bus request).1
      obtain ⟨events₀, hextends₀, hdelayed₀⟩ := hpaused.delayed
      have hstate : (executing.step bus request).1.state.2 =
          advance^[(executing.step bus request).2.retries] bus.state.2 := hpaused.drawn
      rw [hstate] at hdrawn hdelayed htotal
      simp only [results, Machine.after_cons, Machine.outputs_cons, List.map_cons, List.sum_cons,
        LcgJitter.pauses]
      refine ⟨?_, ⟨events₀ ++ events, hextends₀.trans hextends, ?_⟩, ?_, ?_⟩
      · rw [Nat.add_comm, Function.iterate_add_apply]
        exact hdrawn
      · rw [List.filterMap_append, hdelayed₀, hdelayed]
        rfl
      · rw [List.map_append, List.sum_append, List.map_map, htotal]
        exact congrArg (· + _) hpaused.total.symm
      · rintro result (_ | ⟨_, hresult⟩)
        · exact hpaused.bounded
        · exact hbounded result hresult

end DaliTransactionService

end DaliEdge
