import DaliEdge.Acknowledgements

/-!
# Sequence numbers

A caller publishes frames that it leaves at sequence 0, makes status requests, and publishes
requests that it has made, in any order and any number of times. Messages are numbered as they
should be exactly until the counter has wrapped to 0: a frame numbered then goes out with the
number that stands for no number, and a request made then is numbered again when it is published.
-/

namespace DaliEdge

open FrameCodec

inductive CallerOp
  | publish (frame : Frame)
  | makeStatusRequest (address : UInt8)
  | publishRequest (index : ℕ)

/-- A link and the status requests that its caller has made, in order. -/
structure C6Caller (τ : Type*) where
  link : C6Link τ
  requests : List Frame

namespace C6Caller

variable {τ : Type*} (transport : IC6Transport τ)

def initial (maximumRetries : UInt8) (state : τ) : C6Caller τ :=
  ⟨.initial maximumRetries state, []⟩

def frame? (caller : C6Caller τ) : CallerOp → Option Frame
  | .publish frame => some { frame with sequence := 0 }
  | .makeStatusRequest _ => none
  | .publishRequest index => caller.requests[index]?

/-- The messages handed to the transport are the output of a step. -/
def machine : Machine (C6Caller τ) CallerOp (List SentMessage) where
  step caller op :=
    match caller.frame? op with
    | some frame =>
        let r := (C6Link.machine transport).step caller.link (.publish frame)
        ({ caller with link := r.1 }, r.2.sent)
    | none =>
        match op with
        | .makeStatusRequest address =>
            let r := caller.link.session.makeStatusRequest address
            (⟨{ caller.link with session := r.2 }, caller.requests ++ [r.1]⟩, [])
        | _ => (caller, [])

/-- The step hands no message with sequence 0 to the transport, and a status request with no other
sequence than its own. -/
def Sequenced (caller : C6Caller τ) (op : CallerOp) : Prop :=
  ∀ message ∈ ((machine transport).step caller op).2, C6Link.sequenceOf message.bytes ≠ some 0 ∧
    ∀ index frame, op = .publishRequest index → caller.requests[index]? = some frame →
      C6Link.sequenceOf message.bytes = some frame.sequence

/-- If the step publishes at all, the counter is not at 0 for a frame without a sequence, and was
not at 0 when a status request was made. -/
def CounterNonzero (caller : C6Caller τ) : CallerOp → Prop
  | .publish frame => caller.link.session.maximumRetries ≠ 0 →
      frame.payloadLength.toNat ≤ Frame.kMaximumPayload → caller.link.session.nextSequence ≠ 0
  | .makeStatusRequest _ => True
  | .publishRequest index => caller.link.session.maximumRetries ≠ 0 →
      ∀ frame, caller.requests[index]? = some frame → frame.sequence ≠ 0

theorem sequence_numbered (link : C6Link τ) (frame : Frame) : (link.numbered frame).sequence =
    if frame.sequence = 0 then link.session.nextSequence else frame.sequence := by
  unfold C6Link.numbered C6Session.number
  split_ifs <;> rfl

theorem sent_of_publish (link : C6Link τ) (frame : Frame) :
    let sent := ((C6Link.machine transport).step link (.publish frame)).2.sent
    if link.session.maximumRetries ≠ 0 ∧ frame.payloadLength.toNat ≤ Frame.kMaximumPayload then
      ∃ message, sent = [message] ∧
        C6Link.sequenceOf message.bytes = some (link.numbered frame).sequence
    else sent = [] := by
  obtain ⟨link', ok, sent, hpublishes, hstep⟩ := C6Link.step_publish transport link frame
  simp only [hstep]
  have hle : ∀ {bytes}, Encodes (link.numbered frame) bytes →
      frame.payloadLength.toNat ≤ Frame.kMaximumPayload := by
    intro bytes hencodes
    have hle := ((encodes_iff _ bytes).1 hencodes).1
    rwa [C6Link.numbered, C6Link.payloadLength_number] at hle
  cases hpublishes with
  | disabled hretries => rw [if_neg fun h => h.1 hretries]
  | refused _ hlong => rw [if_neg fun h => not_lt.2 h.2 hlong]
  | failed hretries bytes _ hencodes =>
      rw [if_pos ⟨hretries, hle hencodes⟩]
      exact ⟨_, rfl, C6Link.sequenceOf_encodes hencodes⟩
  | delivered hretries bytes _ hencodes =>
      rw [if_pos ⟨hretries, hle hencodes⟩]
      exact ⟨_, rfl, C6Link.sequenceOf_encodes hencodes⟩

theorem forall_sent_iff (link : C6Link τ) (frame : Frame) (P : Option UInt16 → Prop) :
    (∀ message ∈ ((C6Link.machine transport).step link (.publish frame)).2.sent,
      P (C6Link.sequenceOf message.bytes)) ↔
    (link.session.maximumRetries ≠ 0 → frame.payloadLength.toNat ≤ Frame.kMaximumPayload →
      P (some (link.numbered frame).sequence)) := by
  have hsent := sent_of_publish transport link frame
  simp only at hsent
  split_ifs at hsent with hsends
  · obtain ⟨message, heq, hsequence⟩ := hsent
    rw [heq, List.forall_mem_singleton, hsequence]
    exact ⟨fun h _ _ => h, fun h => h hsends.1 hsends.2⟩
  · rw [hsent]
    constructor
    · exact fun _ hretries hle => absurd ⟨hretries, hle⟩ hsends
    · exact fun _ message hmem => absurd hmem List.not_mem_nil

/-- A status request is always short enough to be encoded. -/
def RequestsEncodable (caller : C6Caller τ) : Prop :=
  ∀ frame ∈ caller.requests, frame.payloadLength.toNat ≤ Frame.kMaximumPayload

theorem requestsEncodable_step (caller : C6Caller τ) (op : CallerOp) (h : caller.RequestsEncodable) :
    ((machine transport).step caller op).1.RequestsEncodable := by
  cases op with
  | publish frame => exact h
  | makeStatusRequest address =>
      intro frame hframe
      rcases List.mem_append.1 hframe with hframe | hframe
      · exact h frame hframe
      · rw [List.mem_singleton.1 hframe]
        exact (by decide : (1 : UInt16).toNat ≤ 240)
  | publishRequest index =>
      simp only [machine]
      cases caller.frame? (.publishRequest index) <;> exact h

theorem sequenced_publish_iff (caller : C6Caller τ) (frame : Frame) :
    Sequenced transport caller (.publish frame) ↔ caller.CounterNonzero (.publish frame) := by
  refine (forall_sent_iff transport caller.link { frame with sequence := 0 } fun sequence =>
    sequence ≠ some 0 ∧ ∀ index request, CallerOp.publish frame = .publishRequest index →
      caller.requests[index]? = some request → sequence = some request.sequence).trans ?_
  rw [sequence_numbered, if_pos rfl, CounterNonzero]
  constructor
  · exact fun h hretries hle hzero => (h hretries hle).1 (congrArg some hzero)
  · intro h hretries hle
    refine ⟨fun hzero => h hretries hle (Option.some.inj hzero), fun index _ hop => ?_⟩
    cases hop

theorem sequenced_publishRequest_iff (caller : C6Caller τ) (index : ℕ)
    (h : caller.RequestsEncodable) : Sequenced transport caller (.publishRequest index) ↔
      caller.CounterNonzero (.publishRequest index) := by
  cases hrequest : caller.requests[index]? with
  | none =>
      simp only [Sequenced, CounterNonzero, machine, frame?, hrequest]
      refine ⟨fun _ _ frame hframe => (by cases hframe), fun _ message hmem => ?_⟩
      exact absurd hmem List.not_mem_nil
  | some request =>
      have hencodable := h request (List.mem_of_getElem? hrequest)
      have hsent := forall_sent_iff transport caller.link request fun sequence =>
        sequence ≠ some 0 ∧ ∀ index' frame, CallerOp.publishRequest index = .publishRequest index' →
          caller.requests[index']? = some frame → sequence = some frame.sequence
      simp only [Sequenced, CounterNonzero, machine, frame?, hrequest]
      refine hsent.trans ?_
      rw [sequence_numbered]
      constructor
      · intro hs hretries frame hframe hzero
        obtain rfl := Option.some.inj hframe
        obtain ⟨hnonzero, hown⟩ := hs hretries hencodable
        exact hnonzero ((hown index request rfl hrequest).trans (congrArg some hzero))
      · intro hs hretries _
        have hne := hs hretries request rfl
        rw [if_neg hne]
        refine ⟨fun hzero => hne (Option.some.inj hzero), fun index' frame hop hframe => ?_⟩
        obtain rfl := CallerOp.publishRequest.inj hop
        rw [hrequest] at hframe
        rw [Option.some.inj hframe]

theorem sequenced_iff (caller : C6Caller τ) (op : CallerOp) (h : caller.RequestsEncodable) :
    Sequenced transport caller op ↔ caller.CounterNonzero op := by
  cases op with
  | makeStatusRequest address =>
      exact ⟨fun _ => trivial, fun _ message hmem => absurd hmem List.not_mem_nil⟩
  | publish frame => exact sequenced_publish_iff transport caller frame
  | publishRequest index => exact sequenced_publishRequest_iff transport caller index h

variable (maximumRetries : UInt8) (state : τ)

theorem requestsEncodable_initial : (initial maximumRetries state).RequestsEncodable :=
  fun _ hframe => absurd hframe List.not_mem_nil

/-- Messages are numbered as they should be in exactly those runs in which no message is numbered
while the counter is at 0. -/
theorem sequenced_runs_iff (ops : List CallerOp) :
    (machine transport).Meets (Sequenced transport) (initial maximumRetries state) ops ↔
      (machine transport).Meets CounterNonzero (initial maximumRetries state) ops := by
  have hall : ∀ caller : C6Caller τ, caller.RequestsEncodable →
      ((machine transport).Meets (Sequenced transport) caller ops ↔
        (machine transport).Meets CounterNonzero caller ops) := by
    induction ops with
    | nil => exact fun _ _ => Iff.rfl
    | cons op ops ih =>
        intro caller h
        rw [Machine.meets_cons, Machine.meets_cons, sequenced_iff transport caller op h,
          ih _ (requestsEncodable_step transport caller op h)]
  exact hall _ (requestsEncodable_initial maximumRetries state)

theorem session_step_request (caller : C6Caller τ) (address : UInt8) :
    ((machine transport).step caller (.makeStatusRequest address)).1.link.session =
      { caller.link.session with nextSequence := caller.link.session.nextSequence + 1 } := rfl

theorem session_after_requests (address : UInt8) (n : ℕ) :
    ((machine transport).after (initial maximumRetries state)
      (List.replicate n (.makeStatusRequest address))).link.session =
        { maximumRetries := maximumRetries, nextSequence := UInt16.ofNat (n + 1) } := by
  induction n with
  | zero => rfl
  | succ n ih =>
      rw [List.replicate_succ', Machine.after_snoc, session_step_request, ih]
      rw [UInt16.ofNat_add (n + 1)]
      rfl

/-- The frame published after 65535 status requests is sent with sequence 0. -/
theorem not_sequenced_after_wrap :
    ¬ (machine C6Link.acceptingTransport).Meets (Sequenced C6Link.acceptingTransport)
      (initial 3 ()) (List.replicate 65535 (.makeStatusRequest 0) ++ [.publish {}]) := by
  rw [Machine.meets_snoc, sequenced_iff C6Link.acceptingTransport _ _
    (Machine.after_induction _ (requestsEncodable_step _) (requestsEncodable_initial 3 ()) _)]
  rintro ⟨-, hnonzero⟩
  simp only [CounterNonzero, session_after_requests] at hnonzero
  exact hnonzero (by decide) (by decide) (by decide)

end C6Caller

end DaliEdge
