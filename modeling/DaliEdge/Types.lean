import Mathlib.Data.Rat.Defs

/-!
# Domain types of the controller

Addresses carry the range check of their `fromRaw` constructor, so an address that exists
is in range. Fixed-width integers keep their width. Measurements, `float` in the source,
are rational numbers.
-/

namespace DaliEdge

structure ShortAddress where
  value : UInt8
  value_le : value ≤ 63
  deriving DecidableEq

namespace ShortAddress

def fromRaw (value : UInt8) : Option ShortAddress :=
  if h : value ≤ 63 then some ⟨value, h⟩ else none

theorem toNat_value_lt (a : ShortAddress) : a.value.toNat < 64 := by
  have h := a.value_le
  rw [UInt8.le_iff_toNat_le] at h
  exact Nat.lt_succ_of_le h

def index (a : ShortAddress) : Fin 64 := ⟨a.value.toNat, a.toNat_value_lt⟩

/-- The address scanned at loop counter `raw`. -/
def ofIndex (raw : Fin 64) : ShortAddress where
  value := UInt8.ofNat raw
  value_le := by
    rw [UInt8.le_iff_toNat_le, UInt8.toNat_ofNat_of_lt' (raw.isLt.trans (by decide))]
    exact Nat.le_of_lt_succ raw.isLt

@[simp] theorem index_ofIndex (raw : Fin 64) : (ofIndex raw).index = raw := by
  apply Fin.ext
  exact UInt8.toNat_ofNat_of_lt' (raw.isLt.trans (by decide))

@[simp] theorem ofIndex_index (a : ShortAddress) : ofIndex a.index = a := by
  obtain ⟨v, hv⟩ := a
  simp [ofIndex, index]

theorem index_injective : Function.Injective index :=
  Function.LeftInverse.injective ofIndex_index

theorem ofIndex_injective : Function.Injective ofIndex :=
  Function.LeftInverse.injective index_ofIndex

theorem ofIndex_surjective : Function.Surjective ofIndex :=
  Function.RightInverse.surjective ofIndex_index

theorem fromRaw_eq_some_ofIndex (raw : Fin 64) :
    fromRaw (UInt8.ofNat raw) = some (ofIndex raw) :=
  dif_pos (ofIndex raw).value_le

end ShortAddress

structure GroupAddress where
  value : UInt8
  value_le : value ≤ 15
  deriving DecidableEq

def GroupAddress.fromRaw (value : UInt8) : Option GroupAddress :=
  if h : value ≤ 15 then some ⟨value, h⟩ else none

inductive ReadingQuality
  | unknown | valid | estimated | temporarilyUnavailable | unsupported | invalid
  deriving DecidableEq

structure Reading (α : Type*) where
  value : α
  quality : ReadingQuality
  uptimeMs : UInt64
  unixTimeSeconds : UInt64
  unixTimeValid : Bool
  deriving DecidableEq

namespace Reading

variable {α : Type*}

/-- A reading as default initialisation leaves it: the type's zero, of unknown quality. -/
def initial (zero : α) : Reading α := ⟨zero, .unknown, 0, 0, false⟩

def valid (value : α) (uptimeMs unixTimeSeconds : UInt64) : Reading α :=
  ⟨value, .valid, uptimeMs, unixTimeSeconds, false⟩

def temporarilyUnavailable (zero : α) : Reading α := ⟨zero, .temporarilyUnavailable, 0, 0, false⟩

def invalid (zero : α) : Reading α := ⟨zero, .invalid, 0, 0, false⟩

def hasValue (r : Reading α) : Bool := r.quality = .valid || r.quality = .estimated

@[simp] theorem hasValue_valid (value : α) (uptimeMs unixTimeSeconds : UInt64) :
    (valid value uptimeMs unixTimeSeconds).hasValue = true := rfl

@[simp] theorem hasValue_temporarilyUnavailable (zero : α) :
    (temporarilyUnavailable zero).hasValue = false := rfl

@[simp] theorem hasValue_invalid (zero : α) : (invalid zero).hasValue = false := rfl

end Reading

inductive EventSeverity
  | info | warning | critical
  deriving DecidableEq

def EventSeverity.code : EventSeverity → UInt8
  | .info => 0
  | .warning => 1
  | .critical => 2

inductive LightEventType
  | deviceDiscovered | deviceReplaced | deviceMissing | deviceRecovered | lampFailure
  | controlGearFailure | possibleLampFailure | daliBusFailure | daliBusRecovered
  | communicationDegraded | communicationRecovered | thermalWarning | thermalCritical
  | electricalDrift | intermittentFault | healthScoreChanged | serviceRecommended
  | baselineEstablished | baselineReset
  deriving DecidableEq

structure LightRealtimeData where
  shortAddress : UInt8 := 0
  present : Bool := false
  commandedOn : Bool := false
  commandedLevel : UInt8 := 0
  actualLevel : Reading UInt8 := .initial 0
  lampFailure : Reading Bool := .initial false
  gearFailure : Reading Bool := .initial false
  limitError : Reading Bool := .initial false
  fadeRunning : Reading Bool := .initial false
  resetState : Reading Bool := .initial false
  inputVoltage : Reading ℚ := .initial 0
  inputCurrent : Reading ℚ := .initial 0
  inputPower : Reading ℚ := .initial 0
  outputCurrent : Reading ℚ := .initial 0
  outputPower : Reading ℚ := .initial 0
  temperature : Reading ℚ := .initial 0
  timestampMs : UInt64 := 0
  deriving DecidableEq

structure LightEvent where
  eventId : UInt32 := 0
  shortAddress : UInt8 := 0
  type : LightEventType := .healthScoreChanged
  severity : EventSeverity := .info
  timestamp : UInt64 := 0
  healthScore : ℚ := 100
  activeFaultFlags : UInt32 := 0
  snapshot : LightRealtimeData := {}
  description : Vector UInt8 160 := Vector.replicate 160 0
  deriving DecidableEq

end DaliEdge
