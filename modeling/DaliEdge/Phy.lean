import DaliEdge.Types

/-!
# The physical layer and its surroundings

The PHY, the delay provider and the jitter source are interfaces of the source. Here each
is a transition function on one environment state `σ`, so that every behaviour of the
hardware, its memory included, is some choice of these functions. The `Bus` carries the
environment state together with the record of every call made to it, in order.
-/

namespace DaliEdge

inductive PhyResult
  | ok | timeout | busy | collision | busPowerLost | transceiverFault | invalidArgument
  | notInitialised | internalError
  deriving DecidableEq

/-- `receive` is handed the caller's byte and returns what the byte is afterwards. -/
structure IDaliPhy (σ : Type*) where
  transmit : UInt16 → σ → PhyResult × σ
  receive : UInt8 → UInt32 → σ → PhyResult × UInt8 × σ

structure IDelayProvider (σ : Type*) where
  delayMs : UInt32 → σ → σ

structure IJitterSource (σ : Type*) where
  next : UInt32 → σ → UInt32 × σ

inductive BusEvent
  | transmit (forwardFrame : UInt16) (result : PhyResult)
  | receive (timeoutMs : UInt32) (result : PhyResult) (backwardFrame : UInt8)
  | jitter (maxInclusive value : UInt32)
  | delay (delayMs : UInt32)
  deriving DecidableEq

structure Bus (σ : Type*) where
  state : σ
  trace : List BusEvent

namespace Bus

variable {σ : Type*}

def record (e : BusEvent) (state : σ) (bus : Bus σ) : Bus σ := ⟨state, bus.trace ++ [e]⟩

/-- What `after` recorded beyond `before`. -/
def since (before after : Bus σ) : List BusEvent := after.trace.drop before.trace.length

/-- `after` continues the record of `before` by `events`. -/
def Extends (before after : Bus σ) (events : List BusEvent) : Prop :=
  after.trace = before.trace ++ events

variable {a b c : Bus σ} {xs ys : List BusEvent}

theorem Extends.refl (a : Bus σ) : Extends a a [] := (List.append_nil _).symm

theorem extends_record (e : BusEvent) (state : σ) (bus : Bus σ) :
    Extends bus (record e state bus) [e] := rfl

theorem Extends.trans (h : Extends a b xs) (h' : Extends b c ys) : Extends a c (xs ++ ys) := by
  unfold Extends at *
  rw [h', h, List.append_assoc]

theorem Extends.since_eq (h : Extends a b xs) : since a b = xs := by
  unfold Extends at h
  rw [since, h, List.drop_left]

end Bus

end DaliEdge
