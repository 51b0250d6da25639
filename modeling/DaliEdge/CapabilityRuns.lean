import DaliEdge.CapabilityProbes
import DaliEdge.BusWideFaults
import DaliEdge.History

/-!
# When a capability is disabled

A probe counts against its feature when it ends with no answer, no bus failure and no collision;
that includes the failures of the controller itself. Two that count in a row disable the feature.
So it is silence alone that disables a feature exactly as long as nothing else counts.
-/

namespace DaliEdge

namespace DeviceManager

def countsAgainst (result : DaliQueryResult) : Bool :=
  !isValidResponse result && !(isBusFailure result || result.outcome = .collision)

/-- The probe ended with outcome `NoResponse`. -/
def isSilence (result : DaliQueryResult) : Prop := result.outcome = .noResponse

def isInvalidResponse (result : DaliQueryResult) : Prop := isValidResponse result = false

/-- Two probes ended with `NoResponse`, and none between them with a valid response. -/
def TwoSilences (answers : List DaliQueryResult) : Prop :=
  ∃ before y after, answers = before ++ y :: after ∧ isSilence y ∧
    History.Since isSilence isInvalidResponse before

theorem TwoSilences.append {answers : List DaliQueryResult} (h : TwoSilences answers)
    (more : List DaliQueryResult) : TwoSilences (answers ++ more) := by
  obtain ⟨before, y, after, rfl, hy, hsince⟩ := h
  exact ⟨before, y, after ++ more, by simp, hy, hsince⟩

end DeviceManager

open DeviceManager

namespace CapabilityEntry

variable (entry : CapabilityEntry) {result : DaliQueryResult}

theorem received_cases (result : DaliQueryResult) :
    (isValidResponse result = true ∧ entry.received result = ⟨.supported, 0⟩) ∨
    (isValidResponse result = false ∧ countsAgainst result = false ∧
      entry.received result = entry) ∨
    (isValidResponse result = false ∧ countsAgainst result = true ∧
      entry.received result = entry.unanswered) := by
  unfold received countsAgainst
  cases hvalid : isValidResponse result with
  | true => exact .inl ⟨rfl, rfl⟩
  | false =>
      cases hbus : isBusFailure result || decide (result.outcome = .collision) with
      | true => exact .inr (.inl ⟨rfl, rfl, rfl⟩)
      | false => exact .inr (.inr ⟨rfl, rfl, rfl⟩)

theorem received_of_counts (h : countsAgainst result = true) :
    entry.received result = entry.unanswered := by
  obtain ⟨hvalid, -⟩ | ⟨-, hnot, -⟩ | ⟨-, -, heq⟩ := entry.received_cases result
  · rw [countsAgainst, hvalid] at h
    cases h
  · rw [hnot] at h
    cases h
  · exact heq

theorem sound_initial : ({} : CapabilityEntry).Sound := ⟨by decide, by decide⟩

theorem Sound.unanswered_ne {entry : CapabilityEntry} (h : entry.Sound)
    (hstate : entry.state ≠ .unsupported) :
    entry.unanswered.consecutiveNoResponses = entry.consecutiveNoResponses + 1 := by
  have hne : entry.consecutiveNoResponses ≠ 2 := mt h.unsupported_iff.2 hstate
  have hlt : entry.consecutiveNoResponses < 2 := lt_of_le_of_ne h.consecutive_le hne
  rw [CapabilityEntry.unanswered]
  simp only [if_pos hlt]
  split_ifs <;> rfl

/-- As long as only silence counts, the counter counts silences since the last valid response. -/
theorem foldl_received_spec (answers : List DaliQueryResult)
    (h : ∀ x ∈ answers, countsAgainst x = true → isSilence x) :
    let entry := answers.foldl received {}
    (entry.consecutiveNoResponses ≠ 0 → History.Since isSilence isInvalidResponse answers) ∧
      (entry.consecutiveNoResponses ≥ 2 ∨ entry.state = .unsupported → TwoSilences answers) := by
  induction answers using List.reverseRecOn with
  | nil =>
      refine ⟨fun h => absurd rfl h, fun h => ?_⟩
      rcases h with h | h <;> cases h
  | append_singleton answers x ih =>
      obtain ⟨hsince, htwice⟩ := ih fun y hy => h y (List.mem_append_left _ hy)
      have hx := h x (by simp)
      simp only [List.foldl_append, List.foldl_cons, List.foldl_nil]
      obtain ⟨-, heq⟩ | ⟨hinvalid, -, heq⟩ | ⟨hinvalid, hcounts, heq⟩ :=
        (answers.foldl received {}).received_cases x
      · rw [heq]
        refine ⟨fun h => absurd rfl h, fun h => ?_⟩
        rcases h with h | h <;> cases h
      · rw [heq]
        refine ⟨fun h => ?_, fun h => (htwice h).append [x]⟩
        exact (History.since_snoc answers x).2 (.inr ⟨hinvalid, hsince h⟩)
      · rw [heq]
        refine ⟨fun _ => (History.since_snoc answers x).2 (.inl (hx hcounts)), fun h => ?_⟩
        by_cases hzero : (answers.foldl received {}).consecutiveNoResponses = 0
        · by_cases hunsupported : (answers.foldl received {}).state = .unsupported
          · exact (htwice (.inr hunsupported)).append [x]
          · have hunanswered : (answers.foldl received {}).unanswered =
                ⟨(answers.foldl received {}).state, 1⟩ := by
              unfold unanswered
              simp only [hzero]
              rfl
            rw [hunanswered] at h
            rcases h with h | h
            · exact absurd h (by decide : ¬ 1 ≥ 2)
            · exact absurd h hunsupported
        · exact ⟨answers, x, [], rfl, hx hcounts, hsince hzero⟩

end CapabilityEntry

namespace DeviceManager

variable {σ : Type*} (client : IDaliQueryClient σ)

/-! ## Runs -/

/-- The operations of a manager, each leaving the queries that it sent. -/
def issuing : Machine (ManagerState σ) (ManagerOp σ) (List Query) where
  step state op := (((managed client).step state op).1, issued client state op)

def sent (state : ManagerState σ) (ops : List (ManagerOp σ)) : List Query :=
  ((issuing client).outputs state ops).flatten

theorem after_issuing (state : ManagerState σ) (ops : List (ManagerOp σ)) :
    (issuing client).after state ops = (managed client).after state ops := rfl

theorem sent_snoc (state : ManagerState σ) (ops : List (ManagerOp σ)) (op : ManagerOp σ) :
    sent client state (ops ++ [op]) =
      sent client state ops ++ issued client ((managed client).after state ops) op := by
  rw [sent, Machine.outputs_snoc, List.flatten_append, List.flatten_singleton, after_issuing]
  rfl

/-- After a run an entry is what the answers to its probes make of it. -/
theorem entry_after (state : ManagerState σ) (ops : List (ManagerOp σ)) (address : ShortAddress)
    {p : CoreProbe} (hp : p ∈ coreProbes) :
    ((managed client).after state ops).entry address p.feature =
      (answersFrom address p.command (sent client state ops)).foldl CapabilityEntry.received
        (state.entry address p.feature) := by
  induction ops using List.reverseRecOn with
  | nil => rfl
  | append_singleton ops op ih =>
      rw [Machine.after_snoc, entry_step client _ op address hp, ih, sent_snoc, answersFrom_append,
        List.foldl_append]

theorem entry_fresh (flags : Vector Bool 64) (initial : σ) (address : ShortAddress)
    (feature : CapabilityFeature) :
    (⟨{}, flags, initial⟩ : ManagerState σ).entry address feature = {} := by
  rw [ManagerState.entry, DaliDeviceRegistry.find_initial]
  rfl

theorem entry_after_of_no_probe (flags : Vector Bool 64) (initial : σ) (ops : List (ManagerOp σ))
    (address : ShortAddress) {feature : CapabilityFeature}
    (hfeature : ∀ p ∈ coreProbes, p.feature ≠ feature) :
    ((managed client).after ⟨{}, flags, initial⟩ ops).entry address feature = {} :=
  (managed client).after_induction (P := fun state => state.entry address feature = {})
    (fun state op h => (entry_step_of_no_probe client state op address hfeature).trans h)
    (entry_fresh flags initial address feature) ops

theorem entry_sound (flags : Vector Bool 64) (initial : σ) (ops : List (ManagerOp σ))
    (address : ShortAddress) (feature : CapabilityFeature) :
    (((managed client).after ⟨{}, flags, initial⟩ ops).entry address feature).Sound := by
  obtain ⟨raw, rfl⟩ := ShortAddress.ofIndex_surjective address
  rw [ManagerState.entry]
  cases hfound : ((managed client).after ⟨{}, flags, initial⟩ ops).registry.find (.ofIndex raw) with
  | none => exact CapabilityEntry.sound_initial
  | some record => exact (sound_after client flags initial ops raw hfound).capability feature

theorem answersFrom_eq_singleton {state : ManagerState σ} {op : ManagerOp σ}
    {address : ShortAddress} {p : CoreProbe} (hp : p ∈ coreProbes) {x : DaliQueryResult}
    (hx : x ∈ answersFrom address p.command (issued client state op)) :
    answersFrom address p.command (issued client state op) = [x] ∧
      (state.entry address p.feature).state ≠ .unsupported := by
  have hle := length_answersFrom_issued client state op address hp
  have hpos := List.length_pos_of_mem hx
  split_ifs at hle with hstate
  · omega
  · obtain ⟨y, hy⟩ := List.length_eq_one_iff.1 (Nat.le_antisymm hle hpos)
    rw [hy, List.mem_singleton] at hx
    exact ⟨hx ▸ hy, hstate⟩

/-! ## Disabling by silence -/

/-- At every operation of the run, a probe that ends neither with a valid response nor with
`NoResponse` does not count, and a feature is unsupported only after two silences. -/
def OnlySilenceDisables (start : ManagerState σ) (ops : List (ManagerOp σ)) : Prop :=
  ∀ before op, before ++ [op] <+: ops → ∀ address,
    let state := (managed client).after start before
    let next := (managed client).after start (before ++ [op])
    (∀ p ∈ coreProbes, ∀ x ∈ answersFrom address p.command (issued client state op),
      isValidResponse x = false → ¬ isSilence x →
        next.entry address p.feature = state.entry address p.feature) ∧
    ∀ feature, (next.entry address feature).state = .unsupported →
      ∃ p ∈ coreProbes, p.feature = feature ∧
        TwoSilences (answersFrom address p.command (sent client start (before ++ [op])))

/-- Every probe of the operation that counts ended with `NoResponse`. -/
def CountsOnlySilence (state : ManagerState σ) (op : ManagerOp σ) : Prop :=
  ∀ address, ∀ p ∈ coreProbes, ∀ x ∈ answersFrom address p.command (issued client state op),
    countsAgainst x = true → isSilence x

theorem counted_answers (flags : Vector Bool 64) (initial : σ) (ops : List (ManagerOp σ))
    (h : (managed client).Meets (CountsOnlySilence client) ⟨{}, flags, initial⟩ ops)
    (address : ShortAddress) {p : CoreProbe} (hp : p ∈ coreProbes) :
    ∀ x ∈ answersFrom address p.command (sent client ⟨{}, flags, initial⟩ ops),
      countsAgainst x = true → isSilence x := by
  revert h
  refine Machine.meets_induction _ (P := fun ops => ∀ x ∈ answersFrom address p.command
    (sent client ⟨{}, flags, initial⟩ ops), countsAgainst x = true → isSilence x) ?_ ?_
  · exact fun x hx => absurd hx List.not_mem_nil
  · intro ops op _ hop ih x hx
    rw [sent_snoc, answersFrom_append] at hx
    rcases List.mem_append.1 hx with hx | hx
    · exact ih x hx
    · exact hop address p hp x hx

/-- In every run only silence disables a feature if and only if nothing else counts. -/
theorem only_silence_disables_iff {σ : Type*} (client : IDaliQueryClient σ) (flags : Vector Bool 64)
    (initial : σ) (ops : List (ManagerOp σ)) :
    OnlySilenceDisables client ⟨{}, flags, initial⟩ ops ↔
      (managed client).Meets (CountsOnlySilence client) ⟨{}, flags, initial⟩ ops := by
  constructor
  · intro h
    refine (Machine.meets_iff_forall_prefix _ _ _).2 fun before op hprefix address p hp x hx hcounts => ?_
    by_contra hsilence
    obtain ⟨hsingle, hstate⟩ := answersFrom_eq_singleton client hp hx
    have hinvalid : isValidResponse x = false := by
      rw [countsAgainst, Bool.and_eq_true, Bool.not_eq_true'] at hcounts
      exact hcounts.1
    have hsame := (h before op hprefix address).1 p hp x hx hinvalid hsilence
    have hsound := entry_sound client flags initial before address p.feature
    rw [Machine.after_snoc, entry_step client _ op address hp, hsingle, List.foldl_cons,
      List.foldl_nil, CapabilityEntry.received_of_counts _ hcounts] at hsame
    have hcount := hsound.unanswered_ne hstate
    rw [hsame] at hcount
    omega
  · intro h before op hprefix address
    have hmeets := Machine.Meets.of_prefix _ h hprefix
    refine ⟨fun p hp x hx hinvalid hsilence => ?_, fun feature hstate => ?_⟩
    · have hop := ((Machine.meets_snoc _ _ _ _).1 hmeets).2
      obtain ⟨hsingle, -⟩ := answersFrom_eq_singleton client hp hx
      rw [Machine.after_snoc, entry_step client _ op address hp, hsingle, List.foldl_cons,
        List.foldl_nil]
      obtain ⟨hvalid, -⟩ | ⟨-, -, heq⟩ | ⟨-, hcounts, -⟩ :=
        (((managed client).after ⟨{}, flags, initial⟩ before).entry address p.feature).received_cases x
      · rw [hvalid] at hinvalid
        cases hinvalid
      · exact heq
      · exact absurd (hop address p hp x hx hcounts) hsilence
    · by_cases hcore : ∃ p ∈ coreProbes, p.feature = feature
      · obtain ⟨p, hp, rfl⟩ := hcore
        refine ⟨p, hp, rfl, ?_⟩
        have hcounted := counted_answers client flags initial (before ++ [op]) hmeets address hp
        have hspec := CapabilityEntry.foldl_received_spec _ hcounted
        rw [entry_after client _ _ address hp, entry_fresh] at hstate
        exact hspec.2 (.inr hstate)
      · rw [entry_after_of_no_probe client flags initial _ address
          fun p hp heq => hcore ⟨p, hp, heq⟩] at hstate
        cases hstate

theorem TwoSilences.exists_mem {answers : List DaliQueryResult} (h : TwoSilences answers) :
    ∃ y ∈ answers, isSilence y := by
  obtain ⟨before, y, after, rfl, hy, -⟩ := h
  exact ⟨y, by simp, hy⟩

/-- Two detections over a bus that is busy for every attempt of every query disable the features of
a device that was never silent. -/
theorem busy_bus_disables : ¬ ∀ (client : IDaliQueryClient (PipelineQueryClient × Station Unit))
    (flags : Vector Bool 64) (initial : PipelineQueryClient × Station Unit)
    (ops : List (ManagerOp (PipelineQueryClient × Station Unit))),
      OnlySilenceDisables client ⟨{}, flags, initial⟩ ops := by
  intro h
  obtain ⟨p, hp, hfeature, htwice⟩ := (h (PipelineQueryClient.toQueryClient (brokenService .busy))
    (Vector.replicate 64 false) ({}, .initial ())
    [.upsert (.ofIndex 5) 0, .detectCoreCapabilities (.ofIndex 5) 0,
      .detectCoreCapabilities (.ofIndex 5) 1]
    [.upsert (.ofIndex 5) 0, .detectCoreCapabilities (.ofIndex 5) 0]
    (.detectCoreCapabilities (.ofIndex 5) 1) List.prefix_rfl (.ofIndex 5)).2 .basicStatus (by decide +kernel)
  obtain ⟨y, hy, hsilence⟩ := htwice.exists_mem
  obtain ⟨q, hq, rfl⟩ := List.mem_map.1 hy
  have hbusy : ∀ q ∈ sent (PipelineQueryClient.toQueryClient (brokenService .busy))
      ⟨{}, Vector.replicate 64 false, ({}, .initial ())⟩ [.upsert (.ofIndex 5) 0,
        .detectCoreCapabilities (.ofIndex 5) 0, .detectCoreCapabilities (.ofIndex 5) 1],
        q.result.outcome ≠ .noResponse := by
    decide +kernel
  exact hbusy q (List.mem_of_mem_filter hq) hsilence

end DeviceManager

end DaliEdge
