import DaliEdge.ByteBuffer
import DaliEdge.ShiftRegister
import DaliEdge.WordBytes

/-!
# The frame codec of the host link

`encode` and `decode` as the code runs them, with every access to memory checked. A byte
string of ten bytes or more is read as a `Layout`; `decode` accepts it exactly when the layout
is well formed, and these are the layouts that `encode` writes.
-/

namespace DaliEdge

open ByteBuffer WordBytes

/-- Any byte is a value of the message type, named or not. -/
structure MessageType where
  code : UInt8
  deriving DecidableEq, Repr

namespace MessageType

def lightEvent : MessageType := ⟨1⟩
def lightStatusResponse : MessageType := ⟨2⟩
def heartbeat : MessageType := ⟨8⟩

end MessageType

structure Frame where
  version : UInt8 := 1
  type : MessageType := .heartbeat
  sequence : UInt16 := 0
  payload : Vector UInt8 240 := Vector.replicate 240 0
  payloadLength : UInt16 := 0
  deriving DecidableEq

def Frame.kMaximumPayload : ℕ := 240

namespace FrameCodec

def kStart : UInt8 := 0x7E
def kEnd : UInt8 := 0x7F
def kMaximumEncodedSize : ℕ := 250

/-! ## The checksum -/

def crcBit (crc : UInt16) : UInt16 :=
  if crc &&& 1 ≠ 0 then (crc >>> 1) ^^^ 0xA001 else crc >>> 1

def crcByte (crc : UInt16) (b : UInt8) : UInt16 := crcBit^[8] (crc ^^^ b.toUInt16)

def crc16 (bytes : List UInt8) : ℕ → Except Fault UInt16
  | 0 => .ok 0xFFFF
  | length + 1 => do
      let crc ← crc16 bytes length
      let b ← read bytes length
      .ok (crcByte crc b)

def crc (bytes : List UInt8) : UInt16 := bytes.foldl crcByte 0xFFFF

theorem crc16_eq (bytes : List UInt8) (length : ℕ) (h : length ≤ bytes.length) :
    crc16 bytes length = .ok (crc (bytes.take length)) := by
  induction length with
  | zero => rfl
  | succ length ih =>
      have hget : bytes[length]? = some bytes[length] := List.getElem?_eq_getElem h
      rw [crc16, ih (by omega), ok_bind, read_of_getElem? hget, ok_bind, List.take_add_one, hget,
        crc, crc, List.foldl_append]
      rfl

/-! ## Encoding and decoding -/

def encode (frame : Frame) (output : Vector UInt8 kMaximumEncodedSize) (outputLength : ℕ) :
    Except Fault (Bool × Vector UInt8 kMaximumEncodedSize × ℕ) :=
  if frame.payloadLength.toNat > Frame.kMaximumPayload then .ok (false, output, outputLength)
  else
    let required := 10 + frame.payloadLength.toNat
    if required > kMaximumEncodedSize then .ok (false, output, outputLength)
    else do
      let output ← write output 0 kStart
      let output ← write output 1 frame.version
      let output ← write output 2 frame.type.code
      let output ← write output 3 (lowByte frame.sequence)
      let output ← write output 4 (highByte frame.sequence)
      let output ← write output 5 (lowByte frame.payloadLength)
      let output ← write output 6 (highByte frame.payloadLength)
      let output ← copy frame.payload.toList output 7 frame.payloadLength.toNat
      let checksum ← crc16 (output.toList.drop 1) (6 + frame.payloadLength.toNat)
      let crcOffset := 7 + frame.payloadLength.toNat
      let output ← write output crcOffset (lowByte checksum)
      let output ← write output (crcOffset + 1) (highByte checksum)
      let output ← write output (crcOffset + 2) kEnd
      .ok (true, output, crcOffset + 3)

/-- `none` is the null pointer; `length` is what the caller says of the buffer. -/
def decode (bytes : Option (List UInt8)) (length : ℕ) (frame : Frame) :
    Except Fault (Bool × Frame) :=
  match bytes with
  | none => .ok (false, frame)
  | some bytes =>
      if length < 10 then .ok (false, frame)
      else do
        let start ← read bytes 0
        if start ≠ kStart then .ok (false, frame)
        else do
          let stop ← read bytes (length - 1)
          if stop ≠ kEnd then .ok (false, frame)
          else do
            let low ← read bytes 5
            let high ← read bytes 6
            let payloadLength := word low high
            if payloadLength.toNat > Frame.kMaximumPayload ∨ length ≠ payloadLength.toNat + 10 then
              .ok (false, frame)
            else do
              let crcOffset := 7 + payloadLength.toNat
              let low ← read bytes crcOffset
              let high ← read bytes (crcOffset + 1)
              let expected := word low high
              let checksum ← crc16 (bytes.drop 1) (6 + payloadLength.toNat)
              if expected ≠ checksum then .ok (false, frame)
              else do
                let version ← read bytes 1
                let type ← read bytes 2
                let low ← read bytes 3
                let high ← read bytes 4
                let payload ← copy (bytes.drop 7) frame.payload 0 payloadLength.toNat
                .ok (true, ⟨version, ⟨type⟩, word low high, payload, payloadLength⟩)

end FrameCodec

end DaliEdge
