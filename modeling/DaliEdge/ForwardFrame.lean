import DaliEdge.Types
import DaliEdge.WordBytes

/-!
# Forward frames and their constructors

A command is any byte of the source's `enum class ... : uint8_t`; the named values are the
ones the modelled functions use. A forward frame is the address byte over the data byte.
-/

namespace DaliEdge

structure DaliCommand where
  code : UInt8
  deriving DecidableEq

namespace DaliCommand

def queryStatus : DaliCommand := ⟨0x90⟩
def queryControlGearPresent : DaliCommand := ⟨0x91⟩
def queryVersionNumber : DaliCommand := ⟨0x97⟩
def queryDeviceType : DaliCommand := ⟨0x99⟩
def queryPhysicalMinimum : DaliCommand := ⟨0x9A⟩

end DaliCommand

structure DaliSpecialCommand where
  code : UInt8
  deriving DecidableEq

def DaliSpecialCommand.setDtr0 : DaliSpecialCommand := ⟨0xA3⟩

@[ext] structure ForwardFrame where
  raw : UInt16 := 0
  deriving DecidableEq

namespace ForwardFrame

def addressByte (frame : ForwardFrame) : UInt8 := ((frame.raw >>> 8) &&& 0xFF).toUInt8

def dataByte (frame : ForwardFrame) : UInt8 := (frame.raw &&& 0xFF).toUInt8

end ForwardFrame

structure ArcLevel where
  value : UInt8
  value_le : value ≤ 254
  deriving DecidableEq

def ArcLevel.fromRaw (value : UInt8) : Option ArcLevel :=
  if h : value ≤ 254 then some ⟨value, h⟩ else none

def makeFrame (address data : UInt8) : ForwardFrame :=
  ⟨(address.toUInt16 <<< 8) ||| data.toUInt16⟩

def makeShortCommand (address : ShortAddress) (command : DaliCommand) : ForwardFrame :=
  makeFrame ((address.value <<< 1) ||| 0x01) command.code

def makeShortArc (address : ShortAddress) (level : ArcLevel) : ForwardFrame :=
  makeFrame (address.value <<< 1) level.value

def makeGroupCommand (address : GroupAddress) (command : DaliCommand) : ForwardFrame :=
  makeFrame ((0x81 : UInt8) ||| (address.value <<< 1)) command.code

def makeGroupArc (address : GroupAddress) (level : ArcLevel) : ForwardFrame :=
  makeFrame ((0x80 : UInt8) ||| (address.value <<< 1)) level.value

def makeBroadcastCommand (command : DaliCommand) : ForwardFrame := makeFrame 0xFF command.code

def makeSpecialCommand (command : DaliSpecialCommand) (parameter : UInt8) : ForwardFrame :=
  makeFrame command.code parameter

theorem raw_makeFrame (address data : UInt8) :
    (makeFrame address data).raw = WordBytes.word data address := UInt16.or_comm _ _

@[simp] theorem addressByte_makeFrame (address data : UInt8) :
    (makeFrame address data).addressByte = address := by
  have hd := data.toNat_lt
  have ha := address.toNat_lt
  apply UInt8.toNat_inj.1
  change (WordBytes.lowByte ((makeFrame address data).raw >>> 8)).toNat = _
  rw [WordBytes.toNat_lowByte, raw_makeFrame, UInt16.toNat_shiftRight, WordBytes.toNat_word]
  change (data.toNat + 256 * address.toNat) >>> 8 % 256 = _
  rw [Nat.shiftRight_eq_div_pow]
  omega

@[simp] theorem dataByte_makeFrame (address data : UInt8) :
    (makeFrame address data).dataByte = data := by
  change WordBytes.lowByte (makeFrame address data).raw = data
  rw [raw_makeFrame, WordBytes.lowByte_word]

theorem shortCommand_address (address : ShortAddress) :
    ((address.value <<< 1) ||| 0x01) >>> 1 = address.value := by
  obtain ⟨raw, rfl⟩ := ShortAddress.ofIndex_surjective address
  revert raw
  decide

theorem makeShortCommand_injective (command : DaliCommand) :
    Function.Injective (fun address => makeShortCommand address command) := by
  intro a b h
  have hbyte : (makeShortCommand a command).addressByte = (makeShortCommand b command).addressByte :=
    congrArg ForwardFrame.addressByte h
  simp only [makeShortCommand, addressByte_makeFrame] at hbyte
  have hvalue : a.value = b.value := by
    rw [← shortCommand_address a, hbyte, shortCommand_address b]
  cases a
  cases b
  simpa using hvalue

end DaliEdge
