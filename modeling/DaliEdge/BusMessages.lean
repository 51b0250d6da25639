import DaliEdge.Attempts
import DaliEdge.ControlDelivery

/-!
# What the frames say on the bus

A forward frame is read by every light on the bus: from its address byte a light tells whether the
frame is for it, and whether the data byte is a level or a command. The frames of the controller say
what they were made for, and no frame says two things. So what a light hears of a run of control
calls is what those that succeeded had to say to it.
-/

namespace DaliEdge

def makeBroadcastArc (level : ArcLevel) : ForwardFrame := makeFrame 0xFE level.value

/-- Whom a frame is for. -/
inductive Target
  | short (address : ShortAddress)
  | group (address : GroupAddress)
  | broadcast
  deriving DecidableEq

inductive BusMessage
  | command (target : Target) (command : DaliCommand)
  | arc (target : Target) (level : ArcLevel)
  | special (command : DaliSpecialCommand) (parameter : UInt8)
  deriving DecidableEq

namespace Target

/-- The address byte of a level for the target; that of a command is the next one. -/
def byte : Target → UInt8
  | short address => 2 * address.value
  | group address => 0x80 + 2 * address.value
  | broadcast => 0xFE

def ofByte (byte : UInt8) : Option Target :=
  if byte < 0x80 then (ShortAddress.fromRaw (byte / 2)).map short
  else if byte < 0xA0 then (GroupAddress.fromRaw ((byte - 0x80) / 2)).map group
  else if byte ≥ 0xFE then some broadcast
  else none

end Target

def DaliSpecialCommand.named : List DaliSpecialCommand :=
  [⟨0xA1⟩, ⟨0xA3⟩, ⟨0xA5⟩, ⟨0xA7⟩, ⟨0xA9⟩, ⟨0xAB⟩, ⟨0xB1⟩, ⟨0xB3⟩, ⟨0xB5⟩, ⟨0xB7⟩, ⟨0xB9⟩, ⟨0xBB⟩,
    ⟨0xC1⟩]

namespace BusMessage

/-- The frame that the controller makes for the message. -/
def frame : BusMessage → ForwardFrame
  | command (.short address) code => makeShortCommand address code
  | command (.group address) code => makeGroupCommand address code
  | command .broadcast code => makeBroadcastCommand code
  | arc (.short address) level => makeShortArc address level
  | arc (.group address) level => makeGroupArc address level
  | arc .broadcast level => makeBroadcastArc level
  | special code parameter => makeSpecialCommand code parameter

/-- What a frame says, if anything. -/
def read (frame : ForwardFrame) : Option BusMessage :=
  match Target.ofByte frame.addressByte with
  | some target =>
      if frame.addressByte % 2 = 1 then some (.command target ⟨frame.dataByte⟩)
      else (ArcLevel.fromRaw frame.dataByte).map (arc target)
  | none =>
      if ⟨frame.addressByte⟩ ∈ DaliSpecialCommand.named then
        some (.special ⟨frame.addressByte⟩ frame.dataByte)
      else none

/-- A special command of the message is one that the source names. -/
def Named : BusMessage → Prop
  | special code _ => code ∈ DaliSpecialCommand.named
  | _ => True

end BusMessage

/-! ## Address bytes -/

namespace Target

theorem toNat_byte (target : Target) : target.byte.toNat = match target with
    | short address => 2 * address.value.toNat
    | group address => 128 + 2 * address.value.toNat
    | broadcast => 254 := by
  cases target with
  | short address =>
      have hlt := address.toNat_value_lt
      change (2 * address.value).toNat = 2 * address.value.toNat
      rw [UInt8.toNat_mul]
      change 2 * address.value.toNat % 256 = 2 * address.value.toNat
      omega
  | group address =>
      have hle := UInt8.le_iff_toNat_le.1 address.value_le
      change address.value.toNat ≤ 15 at hle
      change (0x80 + 2 * address.value).toNat = 128 + 2 * address.value.toNat
      rw [UInt8.toNat_add, UInt8.toNat_mul]
      change (128 + 2 * address.value.toNat % 256) % 256 = 128 + 2 * address.value.toNat
      omega
  | broadcast => rfl

theorem toNat_byte_add (target : Target) {bit : UInt8} (hbit : bit.toNat ≤ 1) :
    (target.byte + bit).toNat = target.byte.toNat + bit.toNat ∧ target.byte.toNat % 2 = 0 := by
  have hbyte := target.toNat_byte
  rw [UInt8.toNat_add]
  cases target with
  | short address =>
      have hlt := address.toNat_value_lt
      simp only at hbyte
      omega
  | group address =>
      have hle := UInt8.le_iff_toNat_le.1 address.value_le
      change address.value.toNat ≤ 15 at hle
      simp only at hbyte
      omega
  | broadcast =>
      simp only at hbyte
      omega

theorem shortAddress_fromRaw (address : ShortAddress) :
    ShortAddress.fromRaw address.value = some address := dif_pos address.value_le

theorem groupAddress_fromRaw (address : GroupAddress) :
    GroupAddress.fromRaw address.value = some address := dif_pos address.value_le

/-- The address bytes of a target are read back. -/
theorem ofByte_byte (target : Target) {bit : UInt8} (hbit : bit.toNat ≤ 1) :
    ofByte (target.byte + bit) = some target := by
  obtain ⟨hsum, -⟩ := target.toNat_byte_add hbit
  have hbyte := target.toNat_byte
  cases target with
  | short address =>
      have hlt := address.toNat_value_lt
      simp only at hbyte
      have hsmall : (short address).byte + bit < 0x80 := by
        rw [UInt8.lt_iff_toNat_lt, hsum, hbyte]
        change 2 * address.value.toNat + bit.toNat < 128
        omega
      have hhalf : ((short address).byte + bit) / 2 = address.value := by
        apply UInt8.toNat_inj.1
        rw [UInt8.toNat_div, hsum, hbyte]
        change (2 * address.value.toNat + bit.toNat) / 2 = address.value.toNat
        omega
      rw [ofByte, if_pos hsmall, hhalf, shortAddress_fromRaw]
      rfl
  | group address =>
      have hle : address.value.toNat ≤ 15 := UInt8.le_iff_toNat_le.1 address.value_le
      simp only at hbyte
      have hlarge : ¬ (group address).byte + bit < 0x80 := by
        rw [UInt8.lt_iff_toNat_lt, hsum, hbyte]
        change ¬ 128 + 2 * address.value.toNat + bit.toNat < 128
        omega
      have hsmall : (group address).byte + bit < 0xA0 := by
        rw [UInt8.lt_iff_toNat_lt, hsum, hbyte]
        change 128 + 2 * address.value.toNat + bit.toNat < 160
        omega
      have hhalf : ((group address).byte + bit - 0x80) / 2 = address.value := by
        have hle' : 0x80 ≤ (group address).byte + bit := UInt8.not_lt.1 hlarge
        apply UInt8.toNat_inj.1
        rw [UInt8.toNat_div, UInt8.toNat_sub_of_le _ _ hle', hsum, hbyte]
        change (128 + 2 * address.value.toNat + bit.toNat - 128) / 2 = address.value.toNat
        omega
      rw [ofByte, if_neg hlarge, if_pos hsmall, hhalf, groupAddress_fromRaw]
      rfl
  | broadcast =>
      have hbits : bit = 0 ∨ bit = 1 := by
        rw [← UInt8.toNat_inj, ← UInt8.toNat_inj]
        change bit.toNat = 0 ∨ bit.toNat = 1
        omega
      rcases hbits with rfl | rfl <;> rfl

theorem parity_byte (target : Target) {bit : UInt8} (hbit : bit.toNat ≤ 1) :
    (target.byte + bit) % 2 = bit := by
  obtain ⟨hsum, heven⟩ := target.toNat_byte_add hbit
  apply UInt8.toNat_inj.1
  rw [UInt8.toNat_mod, hsum]
  change (target.byte.toNat + bit.toNat) % 2 = bit.toNat
  omega

/-- A byte that is read as a target is one of its two address bytes. -/
theorem byte_of_ofByte {byte : UInt8} {target : Target} (h : ofByte byte = some target) :
    byte = target.byte + byte % 2 := by
  have hparity : (byte % 2).toNat ≤ 1 := by
    rw [UInt8.toNat_mod]
    change byte.toNat % 2 ≤ 1
    omega
  apply UInt8.toNat_inj.1
  rw [(target.toNat_byte_add hparity).1, target.toNat_byte, UInt8.toNat_mod]
  unfold ofByte at h
  split_ifs at h with hshort hgroup hbroadcast
  · obtain ⟨address, haddress, rfl⟩ := Option.map_eq_some_iff.1 h
    unfold ShortAddress.fromRaw at haddress
    split_ifs at haddress with hle
    obtain rfl := Option.some.inj haddress
    change byte.toNat = 2 * (byte / 2).toNat + byte.toNat % 2
    rw [UInt8.toNat_div]
    exact (Nat.div_add_mod _ _).symm
  · obtain ⟨address, haddress, rfl⟩ := Option.map_eq_some_iff.1 h
    unfold GroupAddress.fromRaw at haddress
    split_ifs at haddress with hle
    obtain rfl := Option.some.inj haddress
    have hle' := UInt8.not_lt.1 hshort
    have hlarge : 128 ≤ byte.toNat := UInt8.le_iff_toNat_le.1 hle'
    change byte.toNat = 128 + 2 * ((byte - 0x80) / 2).toNat + byte.toNat % 2
    rw [UInt8.toNat_div, UInt8.toNat_sub_of_le _ _ hle']
    change byte.toNat = 128 + 2 * ((byte.toNat - 128) / 2) + byte.toNat % 2
    omega
  · obtain rfl := Option.some.inj h
    have hlarge : 254 ≤ byte.toNat := UInt8.le_iff_toNat_le.1 hbroadcast
    have hlt := byte.toNat_lt
    change byte.toNat = 254 + byte.toNat % 2
    omega

end Target

/-! ## Frames -/

namespace BusMessage

/-- The address byte and the data byte of a message. -/
def bytes : BusMessage → UInt8 × UInt8
  | command target code => (target.byte + 1, code.code)
  | arc target level => (target.byte + 0, level.value)
  | special code parameter => (code.code, parameter)

theorem frame_eq (m : BusMessage) : m.frame = makeFrame m.bytes.1 m.bytes.2 := by
  cases m with
  | command target code =>
      cases target with
      | short address => exact congrArg (makeFrame · _) (ClientCall.shortAddress_bits address).1
      | group address => exact congrArg (makeFrame · _) (ClientCall.groupAddress_bits address).1
      | broadcast => rfl
  | arc target level =>
      rw [bytes, UInt8.add_zero]
      cases target with
      | short address => exact congrArg (makeFrame · _) (ClientCall.shortAddress_bits address).2
      | group address => exact congrArg (makeFrame · _) (ClientCall.groupAddress_bits address).2
      | broadcast => rfl
  | special code parameter => rfl

theorem makeFrame_bytes (frame : ForwardFrame) :
    makeFrame frame.addressByte frame.dataByte = frame := by
  have hlt := frame.raw.toNat_lt
  have hdata : frame.dataByte.toNat = frame.raw.toNat % 256 := WordBytes.toNat_lowByte frame.raw
  have haddress : frame.addressByte.toNat = frame.raw.toNat / 256 % 256 := by
    change (WordBytes.lowByte (frame.raw >>> 8)).toNat = _
    rw [WordBytes.toNat_lowByte, UInt16.toNat_shiftRight]
    change frame.raw.toNat >>> 8 % 256 = _
    rw [Nat.shiftRight_eq_div_pow]
  apply ForwardFrame.ext
  apply UInt16.toNat_inj.1
  rw [raw_makeFrame, WordBytes.toNat_word, hdata, haddress]
  omega

theorem arcLevel_fromRaw (level : ArcLevel) : ArcLevel.fromRaw level.value = some level :=
  dif_pos level.value_le

variable {address data : UInt8} {target : Target}

theorem read_of_odd (htarget : Target.ofByte address = some target) (hodd : address % 2 = 1) :
    read (makeFrame address data) = some (.command target ⟨data⟩) := by
  unfold read
  simp only [addressByte_makeFrame, dataByte_makeFrame, htarget, hodd, if_true]

theorem read_of_even (htarget : Target.ofByte address = some target) (heven : ¬ address % 2 = 1) :
    read (makeFrame address data) = (ArcLevel.fromRaw data).map (arc target) := by
  unfold read
  simp only [addressByte_makeFrame, dataByte_makeFrame, htarget, heven, if_false]

theorem read_of_none (htarget : Target.ofByte address = none) :
    read (makeFrame address data) =
      if ⟨address⟩ ∈ DaliSpecialCommand.named then some (.special ⟨address⟩ data) else none := by
  unfold read
  simp only [addressByte_makeFrame, dataByte_makeFrame, htarget]

theorem ofByte_named : ∀ code ∈ DaliSpecialCommand.named, Target.ofByte code.code = none := by
  decide

theorem read_frame (m : BusMessage) (h : m.Named) : read m.frame = some m := by
  rw [frame_eq]
  cases m with
  | command target code =>
      have hbit : (1 : UInt8).toNat ≤ 1 := Nat.le.refl
      exact read_of_odd (target.ofByte_byte hbit) (target.parity_byte hbit)
  | arc target level =>
      have hbit : (0 : UInt8).toNat ≤ 1 := Nat.zero_le 1
      have heven : ¬ (target.byte + 0) % 2 = 1 := by
        rw [target.parity_byte hbit]
        decide
      have hread : read (makeFrame (target.byte + 0) level.value) = _ :=
        read_of_even (target.ofByte_byte hbit) heven
      rwa [arcLevel_fromRaw] at hread
  | special code parameter =>
      have hnamed : code ∈ DaliSpecialCommand.named := h
      exact (read_of_none (ofByte_named code hnamed)).trans (if_pos hnamed)

theorem frame_of_read {f : ForwardFrame} {m : BusMessage} (h : read f = some m) :
    m.Named ∧ m.frame = f := by
  rw [← makeFrame_bytes f] at h ⊢
  rw [frame_eq]
  cases htarget : Target.ofByte f.addressByte with
  | some target =>
      have hbyte := Target.byte_of_ofByte htarget
      by_cases hodd : f.addressByte % 2 = 1
      · rw [read_of_odd htarget hodd] at h
        obtain rfl := Option.some.inj h
        rw [hodd] at hbyte
        exact ⟨trivial, congrArg (makeFrame · _) hbyte.symm⟩
      · have heven : f.addressByte % 2 = 0 := by
          rw [← UInt8.toNat_inj, UInt8.toNat_mod] at hodd ⊢
          change ¬ f.addressByte.toNat % 2 = 1 at hodd
          change f.addressByte.toNat % 2 = 0
          omega
        rw [read_of_even htarget hodd] at h
        obtain ⟨level, hlevel, rfl⟩ := Option.map_eq_some_iff.1 h
        rw [heven] at hbyte
        exact ⟨trivial, congrArg₂ makeFrame hbyte.symm (ClientCall.value_of_fromRaw hlevel)⟩
  | none =>
      rw [read_of_none htarget] at h
      split_ifs at h with hnamed
      obtain rfl := Option.some.inj h
      exact ⟨hnamed, rfl⟩

/-- The frames that say something are those of the messages, each of which has one frame. -/
theorem read_eq_some_iff (f : ForwardFrame) (m : BusMessage) :
    read f = some m ↔ m.Named ∧ m.frame = f := by
  constructor
  · exact frame_of_read
  · rintro ⟨hnamed, rfl⟩
    exact m.read_frame hnamed

end BusMessage

/-! ## Calls -/

namespace ClientCall

/-- What a call says on the bus. -/
def message : ClientCall → Option BusMessage
  | .query _ address command _ => some (.command (.short address) command)
  | .sendShort _ address command _ => some (.command (.short address) command)
  | .sendGroup _ address command _ => some (.command (.group address) command)
  | .sendBroadcast _ command _ => some (.command .broadcast command)
  | .setShortLevel _ address level _ => (ArcLevel.fromRaw level).map (.arc (.short address))
  | .setGroupLevel _ address level _ => (ArcLevel.fromRaw level).map (.arc (.group address))
  | .setDtr0 _ value _ => some (.special .setDtr0 value)
  | .sendSpecial _ command parameter _ => some (.special command parameter)

/-- The special command of the call is one that the source names. -/
def Named (call : ClientCall) : Prop := ∀ m, call.message = some m → m.Named

theorem frame_of_message (call : ClientCall) :
    call.request.map DaliRequest.frame = call.message.map BusMessage.frame := by
  cases call with
  | setShortLevel control address level priority =>
      rw [request, message, Option.map_map, Option.map_map]
      rfl
  | setGroupLevel control address level priority =>
      rw [request, message, Option.map_map, Option.map_map]
      rfl
  | _ => rfl

theorem read_of_request {call : ClientCall} (hnamed : call.Named) {request : DaliRequest}
    (h : call.request = some request) : BusMessage.read request.frame = call.message := by
  have hframe := call.frame_of_message
  rw [h, Option.map_some] at hframe
  obtain ⟨m, hm, hmframe⟩ := Option.map_eq_some_iff.1 hframe.symm
  rw [← hmframe, m.read_frame (hnamed m hm), hm]

end ClientCall

theorem mem_acceptedFrames {events : List BusEvent} {frame : ForwardFrame}
    (h : frame ∈ acceptedFrames events) : frame.raw ∈ events.filterMap BusEvent.transmitted := by
  obtain ⟨event, hevent, haccepted⟩ := List.mem_filterMap.1 h
  refine List.mem_filterMap.2 ⟨event, hevent, ?_⟩
  cases event with
  | transmit forwardFrame result =>
      cases result <;> cases haccepted
      rfl
  | _ => cases haccepted

theorem DaliTransactionService.accepted_of_execute {σ : Type*} (service : DaliTransactionService σ)
    (request : DaliRequest) (bus : Bus σ) {frame : ForwardFrame}
    (h : frame ∈ acceptedFrames (Bus.since bus (service.execute request bus).2)) :
    frame = request.frame := by
  by_cases hadmissible : request.Admissible
  · obtain ⟨-, hextends⟩ := service.execute_eq request bus hadmissible rfl
    rw [hextends.since_eq] at h
    have htransmitted := mem_acceptedFrames h
    rw [(service.filterMap_transactionEvents request bus _).1] at htransmitted
    exact ForwardFrame.ext (List.eq_of_mem_replicate htransmitted)
  · rw [service.execute_of_not_admissible request bus hadmissible,
      (Bus.Extends.refl bus).since_eq] at h
    cases h

/-! ## Lights -/

/-- A light on the bus: its short address, and the groups that it is in. -/
structure ControlGear where
  address : ShortAddress
  groups : List GroupAddress

namespace ControlGear

variable (gear : ControlGear)

def isTarget : Target → Bool
  | .short address => address = gear.address
  | .group address => address ∈ gear.groups
  | .broadcast => true

def heeds : BusMessage → Bool
  | .command target _ => gear.isTarget target
  | .arc target _ => gear.isTarget target
  | .special _ _ => true

def hear (frames : List ForwardFrame) : List BusMessage :=
  (frames.filterMap BusMessage.read).filter gear.heeds

end ControlGear

namespace ClientCall

variable {σ : Type*} (service : DaliTransactionService σ)

/-- During a call on an idle pipeline the bus carries what the call says, and nothing else. -/
theorem read_of_idle {call : ClientCall} (hnamed : call.Named) {st : Station σ} (h : st.Idle) :
    ∀ frame ∈ ((recorder service).step st call).2.accepted,
      BusMessage.read frame = call.message := by
  intro frame hframe
  simp only [recorder] at hframe
  cases hrequest : call.request with
  | none =>
      rw [call.perform_of_no_request service st hrequest, (Bus.Extends.refl st.bus).since_eq]
        at hframe
      cases hframe
  | some request =>
      obtain ⟨-, -, hbus⟩ := perform_of_idle service hrequest h
      rw [hbus] at hframe
      rw [service.accepted_of_execute request st.bus hframe]
      exact read_of_request hnamed hrequest

theorem read_run {calls : List ClientCall} (hnamed : ∀ call ∈ calls, call.Named) {st : Station σ}
    (h : st.Idle) : ∀ r ∈ (recorder service).outputs st calls,
      r.call.Named ∧ ∀ frame ∈ r.accepted, BusMessage.read frame = r.call.message := by
  induction calls generalizing st with
  | nil => exact fun r hr => absurd hr List.not_mem_nil
  | cons call calls ih =>
      intro r hr
      have hcall := hnamed call List.mem_cons_self
      rcases List.mem_cons.1 hr with rfl | hr
      · exact ⟨hcall, read_of_idle service hcall h⟩
      · exact ih (fun call' hcall' => hnamed call' (List.mem_cons_of_mem _ hcall'))
          (delivered_of_idle service call h).1 r hr

end ClientCall

theorem CallRecord.read_of_delivered {records : List CallRecord} (hdelivered : ∀ r ∈ records,
    r.Delivered) (hread : ∀ r ∈ records, r.call.Named ∧
      ∀ frame ∈ r.accepted, BusMessage.read frame = r.call.message) :
    ((records.filter isControl).flatMap accepted).filterMap BusMessage.read =
      (records.filter succeeded).filterMap fun r => r.call.message := by
  rw [frames_of_delivered hdelivered, List.filterMap_map]
  refine List.filterMap_congr fun r hr => ?_
  obtain ⟨hmem, hok⟩ := List.mem_filter.1 hr
  have hcontrol := (hdelivered r hmem).control_of_outcome .ok (of_decide_eq_true hok)
  have haccepted := (hdelivered r hmem).accepted_eq hcontrol
  rw [if_pos hok] at haccepted
  exact (hread r hmem).2 _ (haccepted ▸ List.mem_singleton_self _)

namespace ClientCall

variable {σ : Type*} (service : DaliTransactionService σ)

/-- Whatever the PHY does, each frame on the bus during a call says what that call says; and of the
control calls a light hears what those that succeed have to say to it, each once and in order. -/
theorem calls_are_heard (calls : List ClientCall) (hnamed : ∀ call ∈ calls, call.Named)
    (st : Station σ) (h : st.Idle) :
    let records := (recorder service).outputs st calls
    (∀ r ∈ records, ∀ frame ∈ r.accepted, BusMessage.read frame = r.call.message) ∧
      ∀ gear : ControlGear, gear.hear ((records.filter CallRecord.isControl).flatMap
          CallRecord.accepted) =
        ((records.filter CallRecord.succeeded).filterMap fun r => r.call.message).filter
          gear.heeds := by
  intro records
  have hread := read_run service hnamed h
  have hdelivered := (delivered_run service calls h).2
  refine ⟨fun r hr => (hread r hr).2, fun gear => ?_⟩
  rw [ControlGear.hear, CallRecord.read_of_delivered hdelivered hread]

/-- A light of group 3 hears a level for the group, and not the command for the light next to it. -/
theorem calls_are_heard_group :
    let gear : ControlGear := ⟨⟨5, by decide⟩, [⟨3, by decide⟩]⟩
    let records := (recorder hesitantService).outputs (Station.initial 0)
      [.setGroupLevel {} ⟨3, by decide⟩ 128 .normal, .sendShort {} ⟨6, by decide⟩ ⟨0x05⟩ .high,
        .setDtr0 {} 7 .normal]
    gear.hear ((records.filter CallRecord.isControl).flatMap CallRecord.accepted) =
      [.arc (.group ⟨3, by decide⟩) ⟨128, by decide⟩, .special .setDtr0 7] := by
  intro gear records
  have hnamed : ∀ call ∈ ([.setGroupLevel {} ⟨3, by decide⟩ 128 .normal,
      .sendShort {} ⟨6, by decide⟩ ⟨0x05⟩ .high, .setDtr0 {} 7 .normal] : List ClientCall),
      call.Named := by
    simp only [List.forall_mem_cons, List.not_mem_nil, false_imp_iff, implies_true, and_true]
    refine ⟨fun m hm => ?_, fun m hm => ?_, fun m hm => ?_⟩ <;> cases hm
    · trivial
    · trivial
    · change DaliSpecialCommand.setDtr0 ∈ DaliSpecialCommand.named
      decide
  obtain ⟨-, hheard⟩ := calls_are_heard hesitantService _ hnamed (Station.initial 0) rfl
  rw [hheard]
  decide +kernel

end ClientCall

end DaliEdge
