import DaliEdge.FrameRoundTrip
import DaliEdge.Machine

/-!
# The session of the host link

`publish` numbers a frame that has no sequence yet, encodes it, hands the bytes to the
transport and, if the transport takes them, awaits the acknowledgement of that one sequence.
The transport is any transition function on a state of its own; the line keeps a record of all
that was handed to it.
-/

namespace DaliEdge

open ByteBuffer FrameCodec

/-- `send` is handed the buffer and the length of the message in it. -/
structure IC6Transport (τ : Type*) where
  send : List UInt8 → ℕ → τ → Bool × τ

/-- A message handed to the transport, and whether the transport took it. -/
structure SentMessage where
  bytes : List UInt8
  accepted : Bool
  deriving DecidableEq

structure C6Line (τ : Type*) where
  state : τ
  sent : List SentMessage

def C6Line.send {τ : Type*} (transport : IC6Transport τ) (bytes : List UInt8) (length : ℕ)
    (line : C6Line τ) : Bool × C6Line τ :=
  let r := transport.send bytes length line.state
  (r.1, ⟨r.2, line.sent ++ [⟨bytes.take length, r.1⟩]⟩)

structure C6Session where
  maximumRetries : UInt8 := 3
  nextSequence : UInt16 := 1
  pendingSequence : UInt16 := 0
  pending : Bool := false
  deriving DecidableEq

namespace C6Session

variable {τ : Type*} (transport : IC6Transport τ)

/-- The frame with a sequence, taken from the counter if it has none. -/
def number (s : C6Session) (frame : Frame) : Frame × C6Session :=
  if frame.sequence = 0 then
    ({ frame with sequence := s.nextSequence }, { s with nextSequence := s.nextSequence + 1 })
  else (frame, s)

def await (s : C6Session) (sequence : UInt16) : C6Session :=
  { s with pendingSequence := sequence, pending := true }

def publish (s : C6Session) (frame : Frame) (line : C6Line τ) :
    Except Fault (Bool × C6Session × C6Line τ) :=
  if s.maximumRetries = 0 then .ok (false, s, line)
  else
    let numbered := s.number frame
    match encode numbered.1 (Vector.replicate kMaximumEncodedSize 0) 0 with
    | .error fault => .error fault
    | .ok (encoded, wire, wireLength) =>
        if encoded = false then .ok (false, numbered.2, line)
        else
          let sent := line.send transport wire.toList wireLength
          if sent.1 = false then .ok (false, numbered.2, sent.2)
          else .ok (true, numbered.2.await numbered.1.sequence, sent.2)

def acknowledge (s : C6Session) (sequence : UInt16) : Bool × C6Session :=
  if s.pending = false ∨ sequence ≠ s.pendingSequence then (false, s)
  else (true, { s with pending := false })

def statusRequest (sequence : UInt16) (address : UInt8) : Frame :=
  { type := .lightStatusResponse
    sequence := sequence
    payload := (Vector.replicate 240 0).setIfInBounds 0 address
    payloadLength := 1 }

def makeStatusRequest (s : C6Session) (address : UInt8) : Frame × C6Session :=
  (statusRequest s.nextSequence address, { s with nextSequence := s.nextSequence + 1 })

end C6Session

/-! ## Operations on a session and its line -/

structure C6Link (τ : Type*) where
  session : C6Session
  line : C6Line τ

inductive C6Op
  | publish (frame : Frame)
  | acknowledge (sequence : UInt16)
  | makeStatusRequest (address : UInt8)
  deriving DecidableEq

inductive C6Answer
  | published (ok : Bool)
  | acknowledged (ok : Bool)
  | requested (frame : Frame)
  | fault (fault : Fault)
  deriving DecidableEq

/-- An operation, its answer, and what it handed to the transport. -/
structure C6Record where
  op : C6Op
  answer : C6Answer
  sent : List SentMessage

namespace C6Link

variable {τ : Type*} (transport : IC6Transport τ)

def initial (maximumRetries : UInt8) (state : τ) : C6Link τ :=
  ⟨{ maximumRetries := maximumRetries }, ⟨state, []⟩⟩

def apply (link : C6Link τ) : C6Op → C6Link τ × C6Answer
  | .publish frame =>
      match link.session.publish transport frame link.line with
      | .ok (ok, session, line) => (⟨session, line⟩, .published ok)
      | .error fault => (link, .fault fault)
  | .acknowledge sequence =>
      let r := link.session.acknowledge sequence
      (⟨r.2, link.line⟩, .acknowledged r.1)
  | .makeStatusRequest address =>
      let r := link.session.makeStatusRequest address
      (⟨r.2, link.line⟩, .requested r.1)

def machine : Machine (C6Link τ) C6Op C6Record where
  step link op :=
    let r := link.apply transport op
    (r.1, ⟨op, r.2, r.1.line.sent.drop link.line.sent.length⟩)

/-- The frame that `publish` encodes. -/
def numbered (link : C6Link τ) (frame : Frame) : Frame := (link.session.number frame).1

/-- All that a call of `publish` can do. -/
inductive Publishes (link : C6Link τ) (frame : Frame) : C6Link τ → Bool → List SentMessage → Prop
  | disabled (hretries : link.session.maximumRetries = 0) : Publishes link frame link false []
  | refused (hretries : link.session.maximumRetries ≠ 0)
      (hlong : Frame.kMaximumPayload < frame.payloadLength.toNat) :
      Publishes link frame ⟨(link.session.number frame).2, link.line⟩ false []
  | failed (hretries : link.session.maximumRetries ≠ 0) (bytes : List UInt8) (state : τ)
      (hencodes : Encodes (link.numbered frame) bytes) :
      Publishes link frame
        ⟨(link.session.number frame).2, ⟨state, link.line.sent ++ [⟨bytes, false⟩]⟩⟩ false
        [⟨bytes, false⟩]
  | delivered (hretries : link.session.maximumRetries ≠ 0) (bytes : List UInt8) (state : τ)
      (hencodes : Encodes (link.numbered frame) bytes) :
      Publishes link frame
        ⟨(link.session.number frame).2.await (link.numbered frame).sequence,
          ⟨state, link.line.sent ++ [⟨bytes, true⟩]⟩⟩ true
        [⟨bytes, true⟩]

theorem payloadLength_number (s : C6Session) (frame : Frame) :
    (s.number frame).1.payloadLength = frame.payloadLength := by
  unfold C6Session.number
  split_ifs <;> rfl

theorem step_publish (link : C6Link τ) (frame : Frame) :
    ∃ link' ok sent, Publishes link frame link' ok sent ∧
      (machine transport).step link (.publish frame) =
        (link', ⟨.publish frame, .published ok, sent⟩) := by
  by_cases hretries : link.session.maximumRetries = 0
  · refine ⟨link, false, [], .disabled hretries, ?_⟩
    simp only [machine, apply, C6Session.publish, if_pos hretries, List.drop_length]
  rcases Nat.lt_or_ge Frame.kMaximumPayload frame.payloadLength.toNat with hlong | hle
  · have hnumbered : Frame.kMaximumPayload < (link.session.number frame).1.payloadLength.toNat := by
      rwa [payloadLength_number]
    have hrefused := encode_refused hnumbered (Vector.replicate kMaximumEncodedSize 0) 0
    refine ⟨_, false, [], .refused hretries hlong, ?_⟩
    simp only [machine, apply, C6Session.publish, if_neg hretries, hrefused, if_true,
      List.drop_length]
  · have hnumbered : (link.session.number frame).1.payloadLength.toNat ≤ Frame.kMaximumPayload := by
      rwa [payloadLength_number]
    obtain ⟨wire, hwire, -⟩ := encode_filled hnumbered (Vector.replicate kMaximumEncodedSize 0) 0
    generalize (link.session.number frame).1.payloadLength.toNat + 10 = length at hwire
    have hencodes : Encodes (link.numbered frame) (wire.toList.take length) :=
      ⟨_, _, _, _, hwire, rfl⟩
    cases hsend : (transport.send wire.toList length link.line.state).1 with
    | false =>
        refine ⟨_, false, _, .failed hretries _
          (transport.send wire.toList length link.line.state).2 hencodes, ?_⟩
        simp only [machine, apply, C6Session.publish, if_neg hretries, hwire, C6Line.send, hsend,
          Bool.true_eq_false, if_false, if_true, List.drop_left]
    | true =>
        refine ⟨_, true, _, .delivered hretries _
          (transport.send wire.toList length link.line.state).2 hencodes, ?_⟩
        simp only [machine, apply, C6Session.publish, if_neg hretries, hwire, C6Line.send, hsend,
          Bool.true_eq_false, if_false, List.drop_left, numbered]

/-- A transport that takes every message of the codec's size gets every frame of an enabled session
that fits. -/
theorem step_publish_accepted (haccepts : ∀ bytes length state, length ≤ kMaximumEncodedSize →
      (transport.send bytes length state).1 = true) (link : C6Link τ) (frame : Frame)
    (hretries : link.session.maximumRetries ≠ 0)
    (hle : frame.payloadLength.toNat ≤ Frame.kMaximumPayload) :
    ((machine transport).step link (.publish frame)).1.session.maximumRetries =
        link.session.maximumRetries ∧
      ((machine transport).step link (.publish frame)).2.op = .publish frame ∧
      ((machine transport).step link (.publish frame)).2.answer = .published true := by
  have hnumbered : (link.session.number frame).1.payloadLength.toNat ≤ Frame.kMaximumPayload := by
    rwa [payloadLength_number]
  have hsession : (link.session.number frame).2.maximumRetries = link.session.maximumRetries := by
    unfold C6Session.number
    split_ifs <;> rfl
  obtain ⟨wire, hwire, -⟩ := encode_filled hnumbered (Vector.replicate kMaximumEncodedSize 0) 0
  have hlength : (link.session.number frame).1.payloadLength.toNat + 10 ≤ kMaximumEncodedSize :=
    Nat.add_le_add_right hnumbered 10
  have hsend := haccepts wire.toList _ link.line.state hlength
  simp only [machine, apply, C6Session.publish, if_neg hretries, hwire, C6Line.send, hsend,
    Bool.true_eq_false, if_false]
  exact ⟨hsession, trivial, trivial⟩

theorem step_acknowledge (link : C6Link τ) (sequence : UInt16) :
    (machine transport).step link (.acknowledge sequence) =
      (⟨(link.session.acknowledge sequence).2, link.line⟩,
        ⟨.acknowledge sequence, .acknowledged (link.session.acknowledge sequence).1, []⟩) := by
  simp only [machine, apply, List.drop_length]

theorem step_makeStatusRequest (link : C6Link τ) (address : UInt8) :
    (machine transport).step link (.makeStatusRequest address) =
      (⟨(link.session.makeStatusRequest address).2, link.line⟩,
        ⟨.makeStatusRequest address, .requested (link.session.makeStatusRequest address).1, []⟩) := by
  simp only [machine, apply, List.drop_length]

/-- The sequence that `decode` reads from a message. -/
def sequenceOf (bytes : List UInt8) : Option UInt16 :=
  match decode (some bytes) bytes.length {} with
  | .ok (true, frame) => some frame.sequence
  | _ => none

theorem sequenceOf_encodes {frame : Frame} {bytes : List UInt8} (h : Encodes frame bytes) :
    sequenceOf bytes = some frame.sequence := by
  obtain ⟨decoded, hdecoded, hsame⟩ := decode_encodes h {}
  rw [sequenceOf, hdecoded]
  exact congrArg some hsame.sequence_eq

end C6Link

end DaliEdge
