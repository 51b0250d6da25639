import DaliEdge.Capabilities

/-!
# Sound device records

The lifecycle of a record, its presence and its missed checks are updated piecemeal, by answers,
collisions, silence, upserts and probes. Each of these keeps the relations between them, and
none removes a record or moves the time at which it was first seen.
-/

namespace DaliEdge

namespace DaliDeviceRecord

/-- The relations between the fields of the record of an address. -/
structure Sound (address : ShortAddress) (record : DaliDeviceRecord) : Prop where
  address_eq : record.address = address
  missed_le : record.missedPresenceChecks ≤ 3
  of_present : record.present = true →
    (record.lifecycle = .present ∨ record.lifecycle = .duplicateAddress) ∧
      record.missedPresenceChecks < 3
  present_of_lifecycle : record.lifecycle = .present → record.present = true
  of_missing : record.lifecycle = .missing →
    record.present = false ∧ record.missedPresenceChecks = 3
  capability : record.capabilities.Sound

namespace Sound

variable {address : ShortAddress} {record : DaliDeviceRecord} (nowMs : UInt64)

theorem created : Sound address
    { address := address, firstSeenUptimeMs := nowMs, lastSeenUptimeMs := nowMs } where
  address_eq := rfl
  missed_le := Nat.zero_le 3
  of_present hp := by cases hp
  present_of_lifecycle hl := by cases hl
  of_missing hm := by cases hm
  capability := DaliCapabilityMap.Sound.initial

theorem discovered : (DaliDeviceRecord.discovered address nowMs).Sound address where
  address_eq := rfl
  missed_le := Nat.zero_le 3
  of_present _ := ⟨.inl rfl, Nat.zero_lt_succ 2⟩
  present_of_lifecycle _ := rfl
  of_missing hm := by cases hm
  capability := DaliCapabilityMap.Sound.initial

theorem seen (h : record.Sound address) : (record.seen nowMs).Sound address where
  address_eq := h.address_eq
  missed_le := Nat.zero_le 3
  of_present _ := ⟨.inl rfl, Nat.zero_lt_succ 2⟩
  present_of_lifecycle _ := rfl
  of_missing hm := by cases hm
  capability := h.capability

theorem duplicated (h : record.Sound address) : record.duplicated.Sound address where
  address_eq := h.address_eq
  missed_le := h.missed_le
  of_present hp := ⟨.inr rfl, (h.of_present hp).2⟩
  present_of_lifecycle hl := by cases hl
  of_missing hm := by cases hm
  capability := h.capability

theorem touched (h : record.Sound address) :
    Sound address { record with lastSeenUptimeMs := nowMs } :=
  ⟨h.address_eq, h.missed_le, h.of_present, h.present_of_lifecycle, h.of_missing, h.capability⟩

theorem sameDevice {later : DaliDeviceRecord} (h : record.Sound address)
    (hsame : record.SameDevice later) : later.Sound address where
  address_eq := hsame.address_eq.trans h.address_eq
  missed_le := hsame.missedPresenceChecks_eq.trans_le h.missed_le
  of_present hp := by
    rw [hsame.lifecycle_eq, hsame.missedPresenceChecks_eq]
    exact h.of_present (hsame.present_eq.symm.trans hp)
  present_of_lifecycle hl :=
    hsame.present_eq.trans (h.present_of_lifecycle (hsame.lifecycle_eq.symm.trans hl))
  of_missing hm := by
    rw [hsame.present_eq, hsame.missedPresenceChecks_eq]
    exact h.of_missing (hsame.lifecycle_eq.symm.trans hm)
  capability := hsame.sound h.capability

theorem missed {checks : ℕ} (h : record.Sound address) (hm : record.lifecycle ≠ .missing)
    (hlt : checks < 3) :
    Sound address { record with missedPresenceChecks := checks } where
  address_eq := h.address_eq
  missed_le := hlt.le
  of_present hp := ⟨(h.of_present hp).1, hlt⟩
  present_of_lifecycle := h.present_of_lifecycle
  of_missing hmissing := absurd hmissing hm
  capability := h.capability

theorem lost {checks : ℕ} (h : record.Sound address) (hthree : checks = 3) :
    (DaliDeviceRecord.lost { record with missedPresenceChecks := checks }).Sound address where
  address_eq := h.address_eq
  missed_le := hthree.le
  of_present hp := by cases hp
  present_of_lifecycle hl := by cases hl
  of_missing _ := ⟨rfl, hthree⟩
  capability := h.capability

theorem missed_eq_three (h : record.Sound address)
    (hlost : record.missedOnce.missedPresenceChecks ≥ 3) :
    record.missedOnce.missedPresenceChecks = 3 := by
  have hle := h.missed_le
  rw [missedPresenceChecks_missedOnce] at hlost ⊢
  split_ifs at hlost ⊢ <;> omega

end Sound

end DaliDeviceRecord

/-! ## What a step may do to one slot -/

/-- A slot is filled once, with a sound record of the time `clock`; its record stays sound, keeps
the time it was first seen, and was last seen as before or at the time `clock`. -/
def SlotEvolves (address : ShortAddress) (clock : Option UInt64) :
    Option DaliDeviceRecord → Option DaliDeviceRecord → Prop
  | none, none => True
  | none, some record => record.Sound address ∧ clock = some record.firstSeenUptimeMs ∧
      record.lastSeenUptimeMs = record.firstSeenUptimeMs
  | some _, none => False
  | some record, some later => (record.Sound address → later.Sound address) ∧
      later.firstSeenUptimeMs = record.firstSeenUptimeMs ∧
      (later.lastSeenUptimeMs = record.lastSeenUptimeMs ∨ clock = some later.lastSeenUptimeMs)

namespace SlotEvolves

variable {address : ShortAddress} {clock : Option UInt64}

theorem refl (slot : Option DaliDeviceRecord) : SlotEvolves address clock slot slot := by
  cases slot with
  | none => trivial
  | some record => exact ⟨id, rfl, .inl rfl⟩

theorem trans {slot slot' slot'' : Option DaliDeviceRecord}
    (h : SlotEvolves address clock slot slot') (h' : SlotEvolves address clock slot' slot'') :
    SlotEvolves address clock slot slot'' := by
  cases slot' with
  | none =>
      cases slot with
      | none => exact h'
      | some record => exact h.elim
  | some record' =>
      cases slot'' with
      | none => exact h'.elim
      | some record'' =>
          obtain ⟨hsound', hfirst', hlast'⟩ := h'
          cases slot with
          | none =>
              obtain ⟨hsound, hfirst, hlast⟩ := h
              refine ⟨hsound' hsound, hfirst' ▸ hfirst, ?_⟩
              rcases hlast' with hlast' | hlast'
              · rw [hlast', hlast, hfirst']
              · rw [hfirst', ← Option.some_inj, ← hlast', hfirst]
          | some record =>
              obtain ⟨hsound, hfirst, hlast⟩ := h
              refine ⟨hsound' ∘ hsound, hfirst'.trans hfirst, ?_⟩
              rcases hlast' with hlast' | hlast'
              · rwa [hlast']
              · exact .inr hlast'

theorem isSome {slot slot' : Option DaliDeviceRecord} (h : SlotEvolves address clock slot slot')
    (hsome : slot.isSome = true) : slot'.isSome = true := by
  cases slot' with
  | some record => rfl
  | none =>
      cases slot with
      | none => exact hsome
      | some record => exact h.elim

end SlotEvolves

namespace DeviceManager

theorem Slot.observe_evolves (address : ShortAddress) (nowMs : UInt64) (outcome : ScanOutcome)
    (slot : Slot) :
    SlotEvolves address (some nowMs) slot.record (slot.observe address nowMs outcome).1.record := by
  obtain ⟨record, reported⟩ := slot
  cases record with
  | none =>
      cases outcome with
      | answered => exact ⟨.discovered nowMs, rfl, rfl⟩
      | collision => trivial
      | busFailure => trivial
      | silent => trivial
  | some record =>
      cases outcome with
      | answered => exact ⟨fun h => h.seen nowMs, rfl, .inr rfl⟩
      | collision => exact ⟨fun h => h.duplicated, rfl, .inl rfl⟩
      | busFailure => exact SlotEvolves.refl _
      | silent =>
          by_cases hm : record.lifecycle = .missing
          · rw [observe_silent_missing address nowMs reported hm]
            exact SlotEvolves.refl _
          · by_cases hlost : record.missedOnce.missedPresenceChecks ≥ 3
            · rw [observe_silent_lost address nowMs reported hm hlost, record.missedOnce_eq]
              exact ⟨fun h => h.lost (h.missed_eq_three hlost), rfl, .inl rfl⟩
            · rw [observe_silent_missed address nowMs reported hm hlost, record.missedOnce_eq]
              exact ⟨fun h => h.missed hm (not_le.1 hlost), rfl, .inl rfl⟩

end DeviceManager

end DaliEdge
