import DaliEdge.Machine
import DaliEdge.Phy
import DaliEdge.RingBuffer

/-!
# The simulated PHY

The tests of the protocol stack run on a PHY that answers from a ring of 32 prepared responses. A
receive looks at the response at the head and takes it only if the bus works and the response comes
within the timeout. So the responses are received in the order in which they were enqueued, each
once, however the operations and the faults are mixed.
-/

namespace DaliEdge

structure SimulatedResponse where
  result : PhyResult := .timeout
  value : UInt8 := 0
  delayMs : UInt32 := 0
  deriving DecidableEq

structure PhyHealth where
  initialised : Bool := false
  busPowered : Bool := false
  transceiverHealthy : Bool := false
  lineStuckHigh : Bool := false
  lineStuckLow : Bool := false
  deriving DecidableEq

structure SimulatedDaliPhy where
  responses : Vector SimulatedResponse 32 := Vector.replicate 32 {}
  responseHead : ℕ := 0
  responseCount : ℕ := 0
  lastForwardFrame : UInt16 := 0
  transmittedFrameCount : UInt32 := 0
  health : PhyHealth := ⟨false, true, true, false, false⟩
  busBusy : Bool := false
  collision : Bool := false
  responseHead_lt : responseHead < 32 := by decide
  responseCount_le : responseCount ≤ 32 := by decide

namespace SimulatedDaliPhy

abbrev kResponseCapacity : ℕ := 32

def init (phy : SimulatedDaliPhy) : PhyResult × SimulatedDaliPhy :=
  let phy := { phy with health.initialised := true }
  (if phy.health.transceiverHealthy then .ok else .transceiverFault, phy)

def transmit (frame : UInt16) (phy : SimulatedDaliPhy) : PhyResult × SimulatedDaliPhy :=
  if !phy.health.initialised then (.notInitialised, phy)
  else if !phy.health.busPowered then (.busPowerLost, phy)
  else if !phy.health.transceiverHealthy then (.transceiverFault, phy)
  else if phy.busBusy then (.busy, phy)
  else if phy.collision then (.collision, phy)
  else
    (.ok, { phy with
      lastForwardFrame := frame
      transmittedFrameCount := phy.transmittedFrameCount + 1 })

def head (phy : SimulatedDaliPhy) : SimulatedResponse :=
  phy.responses.get ⟨phy.responseHead, phy.responseHead_lt⟩

def dropHead (phy : SimulatedDaliPhy) : SimulatedDaliPhy :=
  { phy with
    responseHead := (phy.responseHead + 1) % kResponseCapacity
    responseCount := phy.responseCount - 1
    responseHead_lt := Nat.mod_lt _ (Nat.succ_pos 31)
    responseCount_le := (Nat.sub_le _ _).trans phy.responseCount_le }

def receive (frame : UInt8) (timeoutMs : UInt32) (phy : SimulatedDaliPhy) :
    PhyResult × UInt8 × SimulatedDaliPhy :=
  if !phy.health.initialised then (.notInitialised, frame, phy)
  else if !phy.health.busPowered then (.busPowerLost, frame, phy)
  else if !phy.health.transceiverHealthy then (.transceiverFault, frame, phy)
  else if phy.responseCount = 0 then (.timeout, frame, phy)
  else if phy.head.delayMs > timeoutMs then (.timeout, frame, phy)
  else
    let consumed := phy.head
    (consumed.result, if consumed.result = .ok then consumed.value else frame, phy.dropHead)

def reset (phy : SimulatedDaliPhy) : PhyResult × SimulatedDaliPhy :=
  let phy := { phy with
    busBusy := false
    collision := false
    health.lineStuckHigh := false
    health.lineStuckLow := false }
  (if phy.health.transceiverHealthy then .ok else .transceiverFault, phy)

def enqueueResponse (response : SimulatedResponse) (phy : SimulatedDaliPhy) :
    PhyResult × SimulatedDaliPhy :=
  if h : phy.responseCount = kResponseCapacity then (.busy, phy)
  else
    let tail := RingBuffer.index kResponseCapacity phy.responseHead phy.responseCount
    (.ok, { phy with
      responses := phy.responses.set tail response tail.isLt
      responseCount := phy.responseCount + 1
      responseCount_le := lt_of_le_of_ne phy.responseCount_le h })

def setBusPowered (value : Bool) (phy : SimulatedDaliPhy) : SimulatedDaliPhy :=
  { phy with health.busPowered := value }

def setTransceiverHealthy (value : Bool) (phy : SimulatedDaliPhy) : SimulatedDaliPhy :=
  { phy with health.transceiverHealthy := value }

def setBusBusy (value : Bool) (phy : SimulatedDaliPhy) : SimulatedDaliPhy :=
  { phy with busBusy := value }

def setCollision (value : Bool) (phy : SimulatedDaliPhy) : SimulatedDaliPhy :=
  { phy with collision := value }

def setLineStuckHigh (value : Bool) (phy : SimulatedDaliPhy) : SimulatedDaliPhy :=
  { phy with health.lineStuckHigh := value }

def setLineStuckLow (value : Bool) (phy : SimulatedDaliPhy) : SimulatedDaliPhy :=
  { phy with health.lineStuckLow := value }

end SimulatedDaliPhy

/-! ## Runs -/

inductive SimulatorOp
  | init
  | transmit (frame : UInt16)
  | receive (frame : UInt8) (timeoutMs : UInt32)
  | reset
  | enqueueResponse (response : SimulatedResponse)
  | setBusPowered (value : Bool)
  | setTransceiverHealthy (value : Bool)
  | setBusBusy (value : Bool)
  | setCollision (value : Bool)
  | setLineStuckHigh (value : Bool)
  | setLineStuckLow (value : Bool)
  deriving DecidableEq

/-- The result of an operation, and the caller's byte after a receive. -/
structure SimulatorAnswer where
  result : Option PhyResult := none
  frame : Option UInt8 := none
  deriving DecidableEq

namespace SimulatedDaliPhy

def apply (phy : SimulatedDaliPhy) : SimulatorOp → SimulatedDaliPhy × SimulatorAnswer
  | .init => (phy.init.2, { result := some phy.init.1 })
  | .transmit frame => ((phy.transmit frame).2, { result := some (phy.transmit frame).1 })
  | .receive frame timeoutMs =>
      ((phy.receive frame timeoutMs).2.2,
        ⟨some (phy.receive frame timeoutMs).1, some (phy.receive frame timeoutMs).2.1⟩)
  | .reset => (phy.reset.2, { result := some phy.reset.1 })
  | .enqueueResponse response =>
      ((phy.enqueueResponse response).2, { result := some (phy.enqueueResponse response).1 })
  | .setBusPowered value => (phy.setBusPowered value, {})
  | .setTransceiverHealthy value => (phy.setTransceiverHealthy value, {})
  | .setBusBusy value => (phy.setBusBusy value, {})
  | .setCollision value => (phy.setCollision value, {})
  | .setLineStuckHigh value => (phy.setLineStuckHigh value, {})
  | .setLineStuckLow value => (phy.setLineStuckLow value, {})

def machine : Machine SimulatedDaliPhy SimulatorOp SimulatorAnswer := ⟨apply⟩

def run (ops : List SimulatorOp) : SimulatedDaliPhy := machine.after {} ops

def held (phy : SimulatedDaliPhy) : List SimulatedResponse :=
  RingBuffer.contents phy.responses phy.responseHead phy.responseCount

/-- The response that an operation enqueues, unless it is refused. -/
def accepted (phy : SimulatedDaliPhy) : SimulatorOp → Option SimulatedResponse
  | .enqueueResponse response =>
      if (phy.enqueueResponse response).1 = .ok then some response else none
  | _ => none

/-- The response that a receive takes off the ring: the head, if fewer are held afterwards. -/
def consumed (phy : SimulatedDaliPhy) : SimulatorOp → Option SimulatedResponse
  | .receive frame timeoutMs =>
      if (phy.receive frame timeoutMs).2.2.responseCount < phy.responseCount then some phy.head
      else none
  | _ => none

def Usable (phy : SimulatedDaliPhy) : Prop :=
  phy.health.initialised = true ∧ phy.health.busPowered = true ∧
    phy.health.transceiverHealthy = true

/-- A fault, no response, or one that comes after the timeout. -/
def Unanswered (phy : SimulatedDaliPhy) (timeoutMs : UInt32) : Prop :=
  ¬ phy.Usable ∨ phy.responseCount = 0 ∨ timeoutMs < phy.head.delayMs

variable (phy : SimulatedDaliPhy)

@[simp] theorem length_held : phy.held.length = phy.responseCount :=
  RingBuffer.length_contents _ _

theorem held_eq_nil_iff : phy.held = [] ↔ phy.responseCount = 0 := by
  rw [← List.length_eq_zero_iff, length_held]

@[simp] theorem responseCount_dropHead : phy.dropHead.responseCount = phy.responseCount - 1 := rfl

theorem held_eq_cons (h : phy.responseCount ≠ 0) : phy.held = phy.head :: phy.dropHead.held := by
  obtain ⟨count, hcount⟩ := Nat.exists_eq_succ_of_ne_zero h
  have hhead : RingBuffer.index kResponseCapacity phy.responseHead 0 =
      ⟨phy.responseHead, phy.responseHead_lt⟩ := RingBuffer.index_of_lt phy.responseHead_lt
  have hdrop : phy.dropHead.responseCount = count := by
    rw [responseCount_dropHead, hcount, Nat.succ_sub_one]
  rw [held, hcount, RingBuffer.contents_cons, hhead, held, hdrop]
  rfl

variable {phy} in
theorem head_of_held {response : SimulatedResponse} {rest : List SimulatedResponse}
    (h : phy.held = response :: rest) :
    phy.responseCount ≠ 0 ∧ phy.head = response ∧ phy.dropHead.held = rest := by
  have hcount : phy.responseCount ≠ 0 := by
    rw [ne_eq, ← held_eq_nil_iff, h]
    exact List.cons_ne_nil _ _
  rw [phy.held_eq_cons hcount, List.cons.injEq] at h
  exact ⟨hcount, h⟩

variable {phy} in
theorem unanswered_of_held {timeoutMs : UInt32}
    (h : ¬ phy.Usable ∨ phy.held = [] ∨
      ∃ response rest, phy.held = response :: rest ∧ timeoutMs < response.delayMs) :
    phy.Unanswered timeoutMs := by
  rcases h with hfault | hempty | ⟨response, rest, hheld, hlate⟩
  · exact .inl hfault
  · exact .inr (.inl (phy.held_eq_nil_iff.1 hempty))
  · obtain ⟨-, hhead, -⟩ := head_of_held hheld
    rw [← hhead] at hlate
    exact .inr (.inr hlate)

/-! ## One operation -/

theorem receive_of_unanswered (frame : UInt8) {timeoutMs : UInt32} (h : phy.Unanswered timeoutMs) :
    ∃ result, result ≠ .ok ∧ phy.receive frame timeoutMs = (result, frame, phy) := by
  unfold receive
  split_ifs with hinit hpower htransceiver hcount hdelay
  · exact ⟨.notInitialised, PhyResult.noConfusion, rfl⟩
  · exact ⟨.busPowerLost, PhyResult.noConfusion, rfl⟩
  · exact ⟨.transceiverFault, PhyResult.noConfusion, rfl⟩
  · exact ⟨.timeout, PhyResult.noConfusion, rfl⟩
  · exact ⟨.timeout, PhyResult.noConfusion, rfl⟩
  all_goals
    rw [Bool.not_eq_true', Bool.not_eq_false] at hinit hpower htransceiver
    rcases h with hfault | hempty | hlate
    · exact absurd ⟨hinit, hpower, htransceiver⟩ hfault
    · exact absurd hempty hcount
    · exact absurd hlate hdelay

theorem receive_of_answered (frame : UInt8) {timeoutMs : UInt32} (husable : phy.Usable)
    (hcount : phy.responseCount ≠ 0) (hdelay : phy.head.delayMs ≤ timeoutMs) :
    phy.receive frame timeoutMs =
      (phy.head.result, if phy.head.result = .ok then phy.head.value else frame, phy.dropHead) := by
  obtain ⟨hinit, hpower, htransceiver⟩ := husable
  unfold receive
  rw [hinit, hpower, htransceiver, if_neg Bool.noConfusion, if_neg Bool.noConfusion,
    if_neg Bool.noConfusion, if_neg hcount, if_neg (UInt32.not_lt.2 hdelay)]

theorem enqueueResponse_of_full (response : SimulatedResponse)
    (h : phy.responseCount = kResponseCapacity) : phy.enqueueResponse response = (.busy, phy) :=
  dif_pos h

theorem enqueueResponse_of_room (response : SimulatedResponse)
    (h : phy.responseCount ≠ kResponseCapacity) :
    (phy.enqueueResponse response).1 = .ok ∧
      (phy.enqueueResponse response).2.held = phy.held ++ [response] := by
  have hlt : phy.responseCount < kResponseCapacity := lt_of_le_of_ne phy.responseCount_le h
  rw [enqueueResponse, dif_neg h]
  exact ⟨rfl, RingBuffer.contents_push phy.responses phy.responseHead hlt response⟩

theorem enqueueResponse_busy_iff (response : SimulatedResponse) :
    (phy.enqueueResponse response).1 = .busy ↔ phy.responseCount = kResponseCapacity := by
  constructor
  · intro hbusy
    by_contra hroom
    rw [(phy.enqueueResponse_of_room response hroom).1] at hbusy
    exact PhyResult.noConfusion hbusy
  · intro hfull
    rw [phy.enqueueResponse_of_full response hfull]

theorem held_transmit (frame : UInt16) : (phy.transmit frame).2.held = phy.held := by
  unfold transmit
  split_ifs <;> rfl

theorem consumed_of_unanswered (frame : UInt8) {timeoutMs : UInt32}
    (h : phy.Unanswered timeoutMs) : phy.consumed (.receive frame timeoutMs) = none := by
  obtain ⟨result, -, hreceive⟩ := phy.receive_of_unanswered frame h
  simp only [consumed, hreceive, Nat.lt_irrefl, if_false]

theorem consumed_of_answered (frame : UInt8) {timeoutMs : UInt32} (husable : phy.Usable)
    (hcount : phy.responseCount ≠ 0) (hdelay : phy.head.delayMs ≤ timeoutMs) :
    phy.consumed (.receive frame timeoutMs) = some phy.head := by
  have hfewer : phy.dropHead.responseCount < phy.responseCount :=
    Nat.sub_lt (Nat.pos_of_ne_zero hcount) Nat.one_pos
  simp only [consumed, phy.receive_of_answered frame husable hcount hdelay]
  exact if_pos hfewer

theorem conserved_receive (frame : UInt8) (timeoutMs : UInt32) :
    phy.held = (phy.consumed (.receive frame timeoutMs)).toList ++
      (phy.receive frame timeoutMs).2.2.held := by
  by_cases h : phy.Unanswered timeoutMs
  · obtain ⟨result, -, hreceive⟩ := phy.receive_of_unanswered frame h
    rw [phy.consumed_of_unanswered frame h, hreceive]
    rfl
  · rw [Unanswered, not_or, not_or, not_not, UInt32.not_lt] at h
    obtain ⟨husable, hcount, hdelay⟩ := h
    rw [phy.consumed_of_answered frame husable hcount hdelay,
      phy.receive_of_answered frame husable hcount hdelay]
    exact phy.held_eq_cons hcount

theorem conserved_enqueueResponse (response : SimulatedResponse) :
    phy.held ++ (phy.accepted (.enqueueResponse response)).toList =
      (phy.enqueueResponse response).2.held := by
  by_cases h : phy.responseCount = kResponseCapacity
  · simp only [accepted, phy.enqueueResponse_of_full response h]
    exact List.append_nil _
  · obtain ⟨hok, hheld⟩ := phy.enqueueResponse_of_room response h
    simp only [accepted, hok, hheld]
    rfl

/-- What an operation accepts goes behind what is held, and what it consumes comes off the front. -/
theorem conserved_step (op : SimulatorOp) : phy.held ++ (phy.accepted op).toList =
    (phy.consumed op).toList ++ (machine.step phy op).1.held := by
  cases op with
  | enqueueResponse response => exact phy.conserved_enqueueResponse response
  | receive frame timeoutMs =>
      change phy.held ++ [] = _
      rw [List.append_nil]
      exact phy.conserved_receive frame timeoutMs
  | transmit frame =>
      change phy.held ++ [] = _
      rw [List.append_nil]
      exact (phy.held_transmit frame).symm
  | _ => exact List.append_nil _

/-- Over every run the consumed responses are the accepted ones in their order, up to those that
are still held, and each operation does to what is held what it answers. -/
theorem responses_in_order (ops : List SimulatorOp) :
    machine.collect accepted {} ops = machine.collect consumed {} ops ++ (run ops).held ∧
      (∀ frame timeoutMs,
        (¬ (run ops).Usable ∨ (run ops).held = [] ∨
            ∃ response rest, (run ops).held = response :: rest ∧ timeoutMs < response.delayMs) →
          (run ops).consumed (.receive frame timeoutMs) = none ∧
            ∃ result, result ≠ .ok ∧
              (run ops).receive frame timeoutMs = (result, frame, run ops)) ∧
      (∀ frame timeoutMs response rest, (run ops).Usable → (run ops).held = response :: rest →
        response.delayMs ≤ timeoutMs →
          (run ops).consumed (.receive frame timeoutMs) = some response ∧
            ((run ops).receive frame timeoutMs).1 = response.result ∧
            ((run ops).receive frame timeoutMs).2.1 =
              (if response.result = .ok then response.value else frame) ∧
            ((run ops).receive frame timeoutMs).2.2.held = rest) ∧
      ∀ response,
        (((run ops).enqueueResponse response).1 = .busy ↔ (run ops).held.length = 32) ∧
          ((run ops).held.length = 32 → ((run ops).enqueueResponse response).2 = run ops) ∧
          ((run ops).held.length ≠ 32 →
            ((run ops).enqueueResponse response).1 = .ok ∧
              ((run ops).enqueueResponse response).2.held = (run ops).held ++ [response]) := by
  refine ⟨machine.collect_conserved conserved_step {} ops, fun frame timeoutMs h => ?_,
    fun frame timeoutMs response rest husable hheld hdelay => ?_, fun response => ?_⟩
  · have hunanswered := unanswered_of_held h
    exact ⟨(run ops).consumed_of_unanswered frame hunanswered,
      (run ops).receive_of_unanswered frame hunanswered⟩
  · obtain ⟨hcount, hhead, hrest⟩ := head_of_held hheld
    rw [← hhead] at hdelay ⊢
    rw [(run ops).consumed_of_answered frame husable hcount hdelay,
      (run ops).receive_of_answered frame husable hcount hdelay]
    exact ⟨rfl, rfl, rfl, hrest⟩
  · rw [length_held]
    refine ⟨(run ops).enqueueResponse_busy_iff response, fun hfull => ?_,
      (run ops).enqueueResponse_of_room response⟩
    rw [(run ops).enqueueResponse_of_full response hfull]

/-- A response that comes too late stays for a receive that waits longer. -/
example : machine.outputs {} [.init, .enqueueResponse ⟨.ok, 7, 20⟩, .receive 1 10, .receive 1 20] =
    [⟨some .ok, none⟩, ⟨some .ok, none⟩, ⟨some .timeout, some 1⟩, ⟨some .ok, some 7⟩] := by
  decide

end SimulatedDaliPhy

end DaliEdge
