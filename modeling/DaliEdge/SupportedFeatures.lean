import DaliEdge.CapabilityRuns

/-!
# Features that have answered

A detection probes every core feature that is not unsupported, so a feature that has answered is
probed again, and two probes that count in a row disable it as they do any other. It stays
supported exactly as long as no two probes count in a row against it.
-/

namespace DaliEdge

namespace DeviceManager

variable {σ : Type*} (client : IDaliQueryClient σ)

/-- Through the run no supported feature becomes unsupported. -/
def StaysSupported (start : ManagerState σ) (ops : List (ManagerOp σ)) : Prop :=
  ∀ before more, before ++ more <+: ops → ∀ address feature,
    (((managed client).after start before).entry address feature).state = .supported →
    (((managed client).after start (before ++ more)).entry address feature).state ≠ .unsupported

/-- Every operation of the run sends queries only for features that are still unknown. -/
def ProbesOnlyUnknown (start : ManagerState σ) (ops : List (ManagerOp σ)) : Prop :=
  ∀ before op, before ++ [op] <+: ops → ∀ address, ∀ p ∈ coreProbes,
    answersFrom address p.command
      (issued client ((managed client).after start before) op) ≠ [] →
    (((managed client).after start before).entry address p.feature).state = .unknown

/-- No supported feature that has gone unanswered once is counted against by the operation. -/
def ForgivesSupported (state : ManagerState σ) (op : ManagerOp σ) : Prop :=
  ∀ address, ∀ p ∈ coreProbes, state.entry address p.feature = ⟨.supported, 1⟩ →
    ∀ x ∈ answersFrom address p.command (issued client state op), countsAgainst x = false

/-- The operation is no detection on a device with a supported core feature. -/
def DetectsUndecided (state : ManagerState σ) : ManagerOp σ → Prop
  | .detectCoreCapabilities address _ =>
      ∀ p ∈ coreProbes, (state.entry address p.feature).state ≠ .supported
  | _ => True

theorem supported_of_entry {state : ManagerState σ} {address : ShortAddress}
    {feature : CapabilityFeature} (h : (state.entry address feature).state = .supported) :
    ∃ record, state.registry.find address = some record ∧
      (record.capabilities.at feature).state = .supported := by
  rw [ManagerState.entry] at h
  cases hfound : state.registry.find address with
  | none =>
      rw [hfound] at h
      cases h
  | some record =>
      rw [hfound] at h
      exact ⟨record, rfl, h⟩

/-- One operation leaves a supported feature supported, unless it is the second that counts. -/
theorem supported_step {state : ManagerState σ} {op : ManagerOp σ} {address : ShortAddress}
    {feature : CapabilityFeature} (hsound : (state.entry address feature).Sound)
    (hforgives : ForgivesSupported client state op)
    (h : (state.entry address feature).state = .supported) :
    (((managed client).step state op).1.entry address feature).state = .supported := by
  by_cases hcore : ∃ p ∈ coreProbes, p.feature = feature
  · obtain ⟨p, hp, rfl⟩ := hcore
    rw [entry_step client state op address hp]
    cases hanswers : answersFrom address p.command (issued client state op) with
    | nil => exact h
    | cons x rest =>
        have hx : x ∈ answersFrom address p.command (issued client state op) := by
          rw [hanswers]
          exact List.mem_cons_self
        have hsingle := (answersFrom_eq_singleton client hp hx).1
        rw [hanswers] at hsingle
        rw [hsingle, List.foldl_cons, List.foldl_nil]
        obtain ⟨-, heq⟩ | ⟨-, -, heq⟩ | ⟨-, hcounts, heq⟩ :=
          (state.entry address p.feature).received_cases x
        · rw [heq]
        · rw [heq, h]
        · have hstate : (state.entry address p.feature).state ≠ .unsupported := by
            rw [h]
            decide
          have hnotOne : (state.entry address p.feature).consecutiveNoResponses ≠ 1 := by
            intro hone
            have hentry : state.entry address p.feature = ⟨.supported, 1⟩ := by
              rw [← h, ← hone]
            rw [hforgives address p hp hentry x hx] at hcounts
            cases hcounts
          have hle := hsound.consecutive_le
          have hnotTwo := mt hsound.unsupported_iff.2 hstate
          have hzero : (state.entry address p.feature).consecutiveNoResponses = 0 := by omega
          rw [heq, CapabilityEntry.unanswered]
          simp only [hzero]
          exact h
  · rw [entry_step_of_no_probe client state op address fun p hp heq => hcore ⟨p, hp, heq⟩]
    exact h

theorem supported_after (flags : Vector Bool 64) (initial : σ) (before more : List (ManagerOp σ))
    (h : (managed client).Meets (ForgivesSupported client) ⟨{}, flags, initial⟩ (before ++ more))
    (address : ShortAddress) (feature : CapabilityFeature)
    (hstate : (((managed client).after ⟨{}, flags, initial⟩ before).entry address feature).state =
      .supported) :
    (((managed client).after ⟨{}, flags, initial⟩ (before ++ more)).entry address feature).state =
      .supported := by
  induction more using List.reverseRecOn with
  | nil => rwa [List.append_nil]
  | append_singleton more op ih =>
      rw [← List.append_assoc] at h ⊢
      obtain ⟨hmore, hop⟩ := (Machine.meets_snoc _ _ _ _).1 h
      rw [Machine.after_snoc]
      exact supported_step client (entry_sound client flags initial _ address feature) hop (ih hmore)

theorem unsupported_of_counts {state : ManagerState σ} {op : ManagerOp σ} {address : ShortAddress}
    {p : CoreProbe} (hp : p ∈ coreProbes) (hentry : state.entry address p.feature = ⟨.supported, 1⟩)
    {x : DaliQueryResult} (hx : x ∈ answersFrom address p.command (issued client state op))
    (hcounts : countsAgainst x = true) :
    (((managed client).step state op).1.entry address p.feature).state = .unsupported := by
  rw [entry_step client state op address hp, (answersFrom_eq_singleton client hp hx).1,
    List.foldl_cons, List.foldl_nil, CapabilityEntry.received_of_counts _ hcounts, hentry]
  rfl

theorem staysSupported_iff (flags : Vector Bool 64) (initial : σ) (ops : List (ManagerOp σ)) :
    StaysSupported client ⟨{}, flags, initial⟩ ops ↔
      (managed client).Meets (ForgivesSupported client) ⟨{}, flags, initial⟩ ops := by
  constructor
  · intro h
    refine (Machine.meets_iff_forall_prefix _ _ _).2 fun before op hprefix address p hp hentry x hx =>
      eq_false_of_ne_true fun hcounts => ?_
    refine h before [op] hprefix address p.feature (by rw [hentry]) ?_
    rw [Machine.after_snoc]
    exact unsupported_of_counts client hp hentry hx hcounts
  · intro h before more hprefix address feature hstate
    rw [supported_after client flags initial before more (Machine.Meets.of_prefix _ h hprefix)
      address feature hstate]
    decide

theorem probesOnlyUnknown_iff (start : ManagerState σ) (ops : List (ManagerOp σ)) :
    ProbesOnlyUnknown client start ops ↔ (managed client).Meets DetectsUndecided start ops := by
  rw [Machine.meets_iff_forall_prefix]
  refine forall_congr' fun before => forall_congr' fun op => forall_congr' fun _ => ?_
  constructor
  · intro h
    cases op with
    | detectCoreCapabilities address nowMs =>
        intro p hp hsupported
        obtain ⟨record, hfound, hstate⟩ := supported_of_entry hsupported
        have hlength := length_answersFrom_detection client ((managed client).after start before)
          address nowMs hfound hp
        rw [hstate, if_neg (by decide)] at hlength
        have hunknown := h address p hp fun hnil => by
          rw [hnil] at hlength
          cases hlength
        rw [hsupported] at hunknown
        cases hunknown
    | scanPresence | upsert | elsewhere => exact trivial
  · intro h address p hp hne
    obtain ⟨nowMs, rfl⟩ : ∃ nowMs, op = .detectCoreCapabilities address nowMs := by
      by_contra hno
      exact hne (answersFrom_issued_eq_nil client _ op address hp fun nowMs heq => hno ⟨nowMs, heq⟩)
    obtain ⟨x, rest, hanswers⟩ := List.exists_cons_of_ne_nil hne
    have hx : x ∈ answersFrom address p.command
        (issued client ((managed client).after start before)
          (.detectCoreCapabilities address nowMs)) := by
      rw [hanswers]
      exact List.mem_cons_self
    have hunsupported := (answersFrom_eq_singleton client hp hx).2
    have hsupported := h p hp
    cases hstate : (((managed client).after start before).entry address p.feature).state with
    | unknown => rfl
    | supported => exact absurd hstate hsupported
    | unsupported => exact absurd hstate hunsupported

/-- A supported feature stays supported through a run if and only if no operation of it counts a
second time in a row against one; and only unknown features are probed if and only if no device
with a supported core feature is detected again. -/
theorem stays_supported_iff {σ : Type*} (client : IDaliQueryClient σ) (flags : Vector Bool 64)
    (initial : σ) (ops : List (ManagerOp σ)) :
    (StaysSupported client ⟨{}, flags, initial⟩ ops ↔
      (managed client).Meets (ForgivesSupported client) ⟨{}, flags, initial⟩ ops) ∧
    (ProbesOnlyUnknown client ⟨{}, flags, initial⟩ ops ↔
      (managed client).Meets DetectsUndecided ⟨{}, flags, initial⟩ ops) :=
  ⟨staysSupported_iff client flags initial ops, probesOnlyUnknown_iff client _ ops⟩

/-- A client whose device answers the first four queries and is gone afterwards. -/
def fadingClient : IDaliQueryClient ℕ where
  query _ _ _ asked :=
    if asked < 4 then (⟨.ok, .valid 1 0 0, 1, .ok⟩, asked + 1)
    else (⟨.noResponse, .temporarilyUnavailable 0, 4, .timeout⟩, asked + 1)

/-- A device that has answered once is detected twice while it is absent. -/
theorem absent_device_disabled : ¬ ∀ (client : IDaliQueryClient ℕ) (flags : Vector Bool 64)
    (initial : ℕ) (ops : List (ManagerOp ℕ)), StaysSupported client ⟨{}, flags, initial⟩ ops ∧
      ProbesOnlyUnknown client ⟨{}, flags, initial⟩ ops := by
  intro h
  refine (h fadingClient (Vector.replicate 64 false) 0 [.upsert (.ofIndex 5) 0,
    .detectCoreCapabilities (.ofIndex 5) 0, .detectCoreCapabilities (.ofIndex 5) 1,
    .detectCoreCapabilities (.ofIndex 5) 2]).1 [.upsert (.ofIndex 5) 0,
      .detectCoreCapabilities (.ofIndex 5) 0] [.detectCoreCapabilities (.ofIndex 5) 1,
      .detectCoreCapabilities (.ofIndex 5) 2] List.prefix_rfl (.ofIndex 5) .basicStatus ?_ ?_
  · decide +kernel
  · decide +kernel

end DeviceManager

end DaliEdge
