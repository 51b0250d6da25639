import DaliEdge.DemoController
import DaliEdge.AlarmCapacity

/-!
# What the demo controller announces

Every event of the demo is one of fifteen alarms, each always raised with the same severity, so
the alarm table never fills up and no alarm escalates. An event is published exactly when its
alarm is not active yet, and from then on it is active: nothing clears an alarm.
-/

namespace DaliEdge

namespace LightEventType

def named (code : UInt8) : LightEventType :=
  [deviceDiscovered, deviceReplaced, deviceMissing, deviceRecovered, lampFailure,
    controlGearFailure, possibleLampFailure, daliBusFailure, daliBusRecovered,
    communicationDegraded, communicationRecovered, thermalWarning, thermalCritical,
    electricalDrift, intermittentFault, healthScoreChanged, serviceRecommended,
    baselineEstablished].getD code.toNat baselineReset

theorem named_code (type : LightEventType) : named type.code = type := by
  cases type <;> rfl

theorem code_injective : Function.Injective code := Function.LeftInverse.injective named_code

end LightEventType

namespace DemoController

/-- The severity with which the demo raises an event. -/
def severityOf : LightEventType → EventSeverity
  | .deviceMissing | .lampFailure => .critical
  | .thermalWarning | .intermittentFault => .warning
  | _ => .info

def alarms : List AlarmKey :=
  ([0, 1, 2, 3].flatMap fun address =>
    [(address, .deviceDiscovered), (address, .deviceMissing), (address, .deviceRecovered)]) ++
  [(1, .lampFailure), (2, .thermalWarning), (3, .intermittentFault)]

def alarmFrame (k : AlarmKey) : Frame :=
  eventFrame { shortAddress := k.1, type := k.2, severity := severityOf k.2 }

theorem eventFrame_eq {event : LightEvent} (h : event.severity = severityOf event.type) :
    eventFrame event = alarmFrame event.alarm := by
  rw [eventFrame, h]
  rfl

theorem payload_alarmFrame (k : AlarmKey) :
    (alarmFrame k).payload[0]? = some k.1 ∧ (alarmFrame k).payload[1]? = some k.2.code := by
  simp [alarmFrame, eventFrame]

theorem alarmFrame_injective : Function.Injective alarmFrame := by
  intro k l h
  have haddress := congrArg (fun frame => frame.payload[0]?) h
  have htype := congrArg (fun frame => frame.payload[1]?) h
  simp only [payload_alarmFrame] at haddress htype
  exact Prod.ext (Option.some_inj.1 haddress)
    (LightEventType.code_injective (Option.some_inj.1 htype))

/-- What an announcement reads and writes. -/
structure Outbox where
  events : EventManager
  c6 : C6Link MockC6Transport

def outbox (demo : DemoController) : Outbox := ⟨demo.events, demo.c6⟩

/-- The alarms are the demo's, with their severities, and the session is enabled. -/
structure Outbox.Ready (box : Outbox) : Prop where
  keyed : box.events.Keyed
  known : ∀ k item, box.events.board.alarms k = some item →
    k ∈ alarms ∧ item.event.severity = severityOf k.2
  retries : box.c6.session.maximumRetries = 3

def Forwarded (k : AlarmKey) (records : List C6Record) : Prop :=
  ∃ record ∈ records, record.op = .publish (alarmFrame k) ∧ record.answer = .published true

/-- The given alarms are active afterwards, and those that were not before are published. -/
structure Announces (box box' : Outbox) (keys : List AlarmKey) (records : List C6Record) :
    Prop where
  ready : box'.Ready
  isActive_iff : ∀ k, box'.events.IsActive k ↔ box.events.IsActive k ∨ k ∈ keys
  forwarded_iff : ∀ k, Forwarded k records ↔ k ∈ keys ∧ ¬ box.events.IsActive k

theorem Announces.refl {box : Outbox} (h : box.Ready) : Announces box box [] [] where
  ready := h
  isActive_iff k := by simp
  forwarded_iff k := by simp [Forwarded]

theorem Announces.trans {box box' box'' : Outbox} {keys keys' : List AlarmKey}
    {records records' : List C6Record} (h : Announces box box' keys records)
    (h' : Announces box' box'' keys' records') :
    Announces box box'' (keys ++ keys') (records ++ records') where
  ready := h'.ready
  isActive_iff k := by rw [h'.isActive_iff, h.isActive_iff, List.mem_append, or_assoc]
  forwarded_iff k := by
    have happend : Forwarded k (records ++ records') ↔
        Forwarded k records ∨ Forwarded k records' := by
      simp only [Forwarded, List.mem_append, or_and_right, exists_or]
    rw [happend, h.forwarded_iff, h'.forwarded_iff, h.isActive_iff, List.mem_append]
    tauto

theorem Announces.run {ι : Type*} (M : Machine DemoController ι (Option C6Record))
    {P : ι → Prop} (keys : ι → List AlarmKey)
    (hstep : ∀ demo x, demo.outbox.Ready → P x →
      Announces demo.outbox (M.step demo x).1.outbox (keys x) (M.step demo x).2.toList)
    (xs : List ι) (hxs : ∀ x ∈ xs, P x) {demo : DemoController} (h : demo.outbox.Ready) :
    Announces demo.outbox (M.after demo xs).outbox (xs.flatMap keys)
      (M.outputs demo xs).reduceOption := by
  induction xs generalizing demo with
  | nil => exact .refl h
  | cons x xs ih =>
      have hfirst := hstep demo x h (hxs x List.mem_cons_self)
      have hrest := ih (fun y hy => hxs y (List.mem_cons_of_mem x hy)) hfirst.ready
      have hrun := hfirst.trans hrest
      rw [Machine.after_cons, Machine.outputs_cons, List.flatMap_cons]
      cases hout : (M.step demo x).2 with
      | none =>
          rw [hout] at hrun
          rwa [List.reduceOption_cons_of_none]
      | some record =>
          rw [hout] at hrun
          rwa [List.reduceOption_cons_of_some]

/-! ## One announcement -/

theorem Outbox.Ready.size_lt {box : Outbox} (h : box.Ready) :
    box.events.board.size < EventManager.kCapacity := by
  have hsubset : {k | box.events.board.alarms k ≠ none} ⊆ (alarms.toFinset : Set AlarmKey) := by
    intro k hk
    obtain ⟨item, hitem⟩ := Option.ne_none_iff_exists'.1 hk
    simpa using (h.known k item hitem).1
  have hle := Set.ncard_le_ncard hsubset (Finset.finite_toSet _)
  rw [Set.ncard_coe_finset] at hle
  have hcard : alarms.toFinset.card ≤ 15 := alarms.toFinset_card_le
  exact lt_of_le_of_lt (hle.trans hcard) (by decide)

theorem mockC6Transport_accepts (bytes : List UInt8) (length : ℕ) (transport : MockC6Transport)
    (h : length ≤ FrameCodec.kMaximumEncodedSize) :
    (mockC6Transport.send bytes length transport).1 = true := by
  simp only [mockC6Transport]
  rw [if_neg (by omega)]

theorem announce_of_some {demo : DemoController} {event : LightEvent} {events : EventManager}
    {transition : EventTransition} (h : demo.events.raise event = (events, some transition)) :
    demo.announce event = ((({ demo with events } : DemoController).publish event).1,
      some (({ demo with events } : DemoController).publish event).2) := by
  rw [announce, h]
  rfl

theorem announce_of_none {demo : DemoController} {event : LightEvent} {events : EventManager}
    (h : demo.events.raise event = (events, none)) :
    demo.announce event = ({ demo with events }, none) := by
  rw [announce, h]
  rfl

theorem publish_published (demo : DemoController) (event : LightEvent)
    (h : demo.c6.session.maximumRetries = 3) :
    (demo.publish event).1.c6.session.maximumRetries = 3 ∧
      (demo.publish event).2.op = .publish (eventFrame event) ∧
      (demo.publish event).2.answer = .published true := by
  obtain ⟨hretries, hop, hanswer⟩ := C6Link.step_publish_accepted mockC6Transport
    mockC6Transport_accepts demo.c6 (eventFrame event) (by rw [h]; decide)
    (show 3 ≤ 240 by omega)
  exact ⟨hretries.trans h, hop, hanswer⟩

theorem forwarded_singleton {record : C6Record} {event : LightEvent}
    (hseverity : event.severity = severityOf event.type)
    (hop : record.op = .publish (eventFrame event)) (hanswer : record.answer = .published true)
    (k : AlarmKey) : Forwarded k [record] ↔ k = event.alarm := by
  rw [Forwarded]
  simp only [List.mem_singleton, exists_eq_left, hop, hanswer, and_true, C6Op.publish.injEq]
  rw [eventFrame_eq hseverity, alarmFrame_injective.eq_iff, eq_comm]

theorem known_of_update {b b' : AlarmBoard} {item : Active} {event : LightEvent}
    (hknown : ∀ k item, b.alarms k = some item →
      k ∈ alarms ∧ item.event.severity = severityOf k.2)
    (halarms : b'.alarms = Function.update b.alarms event.alarm (some item))
    (hevent : event.alarm ∈ alarms) (hitem : item.event.severity = severityOf event.type) :
    ∀ k item, b'.alarms k = some item → k ∈ alarms ∧ item.event.severity = severityOf k.2 := by
  intro k found hfound
  rw [halarms] at hfound
  by_cases hk : k = event.alarm
  · rw [hk, Function.update_self, Option.some_inj] at hfound
    rw [hk, ← hfound]
    exact ⟨hevent, hitem⟩
  · rw [Function.update_of_ne hk] at hfound
    exact hknown k found hfound

theorem isActive_of_update {events events' : EventManager} (hkeyed : events.Keyed)
    (hkeyed' : events'.Keyed) {item : Active} {key : AlarmKey}
    (halarms : events'.board.alarms = Function.update events.board.alarms key (some item))
    (k : AlarmKey) : events'.IsActive k ↔ events.IsActive k ∨ k ∈ [key] := by
  rw [hkeyed.isActive_iff_ne_none, hkeyed'.isActive_iff_ne_none, halarms, List.mem_singleton]
  by_cases hk : k = key
  · rw [hk, Function.update_self]
    exact iff_of_true (Option.some_ne_none _) (Or.inr rfl)
  · rw [Function.update_of_ne hk]
    exact (or_iff_left hk).symm

/-- An event is published exactly when its alarm is not active yet. -/
theorem announce_announces (demo : DemoController) (h : demo.outbox.Ready) (event : LightEvent)
    (hevent : event.alarm ∈ alarms) (hseverity : event.severity = severityOf event.type) :
    Announces demo.outbox (demo.announce event).1.outbox [event.alarm]
      (demo.announce event).2.toList := by
  obtain ⟨hkeyed, hstep⟩ : (demo.events.raise event).1.Keyed ∧ demo.events.board.Step
    (demo.events.raise event).1.board (.raise event) (demo.events.raise event).2 :=
      h.keyed.raise_step event
  have hactive : demo.events.IsActive event.alarm ↔
      demo.events.board.alarms event.alarm ≠ none := h.keyed.isActive_iff_ne_none event.alarm
  rcases hraise : demo.events.raise event with ⟨events, out⟩
  rw [hraise] at hkeyed hstep
  cases hstep with
  | activate absent room alarms_eq next_eq =>
      obtain ⟨hretries, hop, hanswer⟩ :=
        publish_published { demo with events } event h.retries
      have hknown := known_of_update h.known alarms_eq hevent (by
        rw [AlarmBoard.stamp]
        split_ifs <;> exact hseverity)
      rw [announce_of_some hraise]
      refine ⟨⟨hkeyed, hknown, hretries⟩, isActive_of_update h.keyed hkeyed alarms_eq, fun k => ?_⟩
      have hinactive : ¬ demo.events.IsActive event.alarm := fun hevent => hactive.1 hevent absent
      refine (forwarded_singleton hseverity hop hanswer k).trans ?_
      rw [List.mem_singleton]
      exact ⟨fun hk => ⟨hk, hk ▸ hinactive⟩, And.left⟩
  | overflow absent full => exact absurd full h.size_lt.ne
  | escalate present above updates =>
      have hsame := (h.known _ _ present).2
      rw [hsame, hseverity] at above
      exact absurd above (UInt8.lt_irrefl _)
  | overwrite present notAbove updates =>
      rw [announce_of_none hraise]
      have hknown := known_of_update h.known updates.alarms_eq hevent hseverity
      refine ⟨⟨hkeyed, hknown, h.retries⟩, isActive_of_update h.keyed hkeyed updates.alarms_eq,
        fun k => ?_⟩
      have hevent : demo.events.IsActive event.alarm := hactive.2 (by simp [present])
      constructor
      · rintro ⟨record, hrecord, -⟩
        exact absurd hrecord List.not_mem_nil
      · rintro ⟨hk, hinactive⟩
        rw [List.mem_singleton.1 hk] at hinactive
        exact absurd hevent hinactive

/-! ## A step -/

def changeAlarm (change : DiscoveryChange) : AlarmKey :=
  (change.address.value, changeEventType change.type)

theorem severity_changeEvent (nowMs : UInt64) (change : DiscoveryChange) :
    (changeEvent nowMs change).severity = severityOf (changeEvent nowMs change).type := by
  rw [changeEvent]
  cases change.type <;> rfl

theorem changeAlarm_mem {change : DiscoveryChange} (h : change.address.value ≤ 3) :
    changeAlarm change ∈ alarms := by
  have haddress : change.address.value ∈ [(0 : UInt8), 1, 2, 3] := by
    rw [UInt8.le_iff_toNat_le] at h
    simp only [UInt8.reduceToNat] at h
    simp only [List.mem_cons, List.not_mem_nil, or_false, ← UInt8.toNat_inj, UInt8.reduceToNat]
    omega
  refine List.mem_append_left _ (List.mem_flatMap.2 ⟨_, haddress, ?_⟩)
  rw [changeAlarm]
  cases change.type <;> simp [changeEventType]

theorem reporting_announces (nowMs : UInt64) (demo : DemoController) (change : DiscoveryChange)
    (h : demo.outbox.Ready) (hle : change.address.value ≤ 3) :
    Announces demo.outbox ((reporting nowMs).step demo change).1.outbox [changeAlarm change]
      ((reporting nowMs).step demo change).2.toList := by
  have hannounce := announce_announces demo h (changeEvent nowMs change) (changeAlarm_mem hle)
    (severity_changeEvent nowMs change)
  simp only [reporting]
  split_ifs <;> exact hannounce

/-- The alarms of the faults that a light shows. -/
def faultAlarms (nowMs : UInt64) (light : Fin 4) : List AlarmKey :=
  let observation := observation nowMs light
  if observation.lampFailure || observation.thermalWarning || observation.intermittentFault then
    [(faultEvent nowMs light {}).alarm]
  else []

theorem faultEvent_known (nowMs : UInt64) (light : Fin 4) (evaluation : HealthEvaluation)
    (h : ((observation nowMs light).lampFailure || (observation nowMs light).thermalWarning ||
      (observation nowMs light).intermittentFault) = true) :
    (faultEvent nowMs light evaluation).alarm ∈
        [((1 : UInt8), LightEventType.lampFailure), (2, .thermalWarning), (3, .intermittentFault)] ∧
      (faultEvent nowMs light evaluation).severity =
        severityOf (faultEvent nowMs light evaluation).type := by
  fin_cases light
  · simp [observation] at h
  · simp [faultEvent, observation, LightEvent.alarm, severityOf]
  · simp [observation] at h
    simp [faultEvent, observation, LightEvent.alarm, severityOf, h]
  · simp [faultEvent, observation, LightEvent.alarm, severityOf]

theorem checking_announces (nowMs : UInt64) (demo : DemoController) (light : Fin 4)
    (h : demo.outbox.Ready) :
    Announces demo.outbox ((checking nowMs).step demo light).1.outbox (faultAlarms nowMs light)
      ((checking nowMs).step demo light).2.toList := by
  simp only [checking, faultAlarms]
  split_ifs with hfault
  · obtain ⟨hknown, hseverity⟩ := faultEvent_known nowMs light
      ((demo.health.get light).evaluate (observation nowMs light)).1 hfault
    exact announce_announces { demo with health := demo.health.set light _ } h _
      (List.mem_append_right _ hknown) hseverity
  · exact .refl h

theorem outbox_scanned (demo : DemoController) (nowMs : UInt64) :
    (demo.scanned nowMs).outbox = demo.outbox := by
  simp only [outbox, scanned]

theorem step_announces (demo : DemoController) (nowMs : UInt64) (h : demo.outbox.Ready)
    (hlights : ∀ change ∈ (demo.step nowMs).2.changes.changes, change.address.value ≤ 3) :
    Announces demo.outbox (demo.step nowMs).1.outbox
      ((demo.step nowMs).2.changes.changes.map changeAlarm ++
        (List.finRange 4).flatMap (faultAlarms nowMs)) (demo.step nowMs).2.published := by
  simp only [step] at hlights ⊢
  have hscanned : Announces demo.outbox (demo.scanned nowMs).outbox [] [] := by
    rw [outbox_scanned]
    exact .refl h
  have hreported := Announces.run (reporting nowMs) (fun change => [changeAlarm change])
    (reporting_announces nowMs) (demo.scan nowMs).batch.changes hlights hscanned.ready
  have hchecked := Announces.run (checking nowMs) (faultAlarms nowMs)
    (fun demo light h (_ : True) => checking_announces nowMs demo light h) (List.finRange 4)
    (fun _ _ => trivial) hreported.ready
  have hstep := hscanned.trans (hreported.trans hchecked)
  rw [List.nil_append, List.nil_append, ← List.map_eq_flatMap, ← List.reduceOption_append] at hstep
  exact hstep

theorem not_mem_faultAlarms (nowMs : UInt64) (lights : List (Fin 4)) {k : AlarmKey}
    (h : k.2 = .deviceMissing ∨ k.2 = .deviceRecovered) :
    k ∉ lights.flatMap (faultAlarms nowMs) := by
  intro hk
  obtain ⟨light, -, hlight⟩ := List.mem_flatMap.1 hk
  simp only [faultAlarms] at hlight
  split_ifs at hlight with hfault
  · have hknown := (faultEvent_known nowMs light {} hfault).1
    rw [← List.mem_singleton.1 hlight] at hknown
    obtain ⟨address, type⟩ := k
    rcases h with h | h <;> cases h <;> simp at hknown
  · exact absurd hlight List.not_mem_nil

theorem ready_started (duplicateReported : Vector Bool 64) : (started duplicateReported).outbox.Ready where
  keyed := EventManager.keyed_init
  known k item h := by
    have hnone := EventManager.board_init k
    exact absurd (hnone.symm.trans h) (by simp)
  retries := rfl

end DemoController

end DaliEdge
