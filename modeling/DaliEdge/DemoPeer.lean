import DaliEdge.DemoOutages

/-!
# The peer of the demo controller

A peer that decodes what the demo hands to its transport, in order, learns of every active alarm
once, with its severity and in messages numbered from one; it learns of nothing else. So its list
of alarms is the table of the event manager, at any moment of any run.
-/

namespace DaliEdge

namespace DemoController

open FrameCodec

/-! ## Messages -/

/-- What a peer reads off a message. -/
structure Notice where
  sequence : UInt16
  address : UInt8
  type : UInt8
  severity : UInt8
  deriving DecidableEq

def readNotice (bytes : List UInt8) : Option Notice :=
  match decode (some bytes) bytes.length {} with
  | .ok (true, frame) =>
      if frame.type = .lightEvent ∧ frame.payloadLength = 3 then
        return ⟨frame.sequence, ← frame.payload[0]?, ← frame.payload[1]?, ← frame.payload[2]?⟩
      else none
  | _ => none

theorem payload_of_sameContent {decoded frame : Frame} (h : decoded.SameContent frame)
    (hlength : frame.payloadLength = 3) {i : ℕ} (hi : i < 3) :
    decoded.payload[i]? = frame.payload[i]? := by
  have htake := congrArg (fun bytes => bytes[i]?) h.payload_eq
  have hthree : frame.payloadLength.toNat = 3 := congrArg UInt16.toNat hlength
  have hdecoded : decoded.payloadLength.toNat = 3 := by rw [h.payloadLength_eq, hthree]
  simp only [hdecoded, List.getElem?_take_of_lt hi] at htake
  rwa [Vector.getElem?_toList, Vector.getElem?_toList] at htake

theorem readNotice_encodes {event : LightEvent} {sequence : UInt16} {bytes : List UInt8}
    (h : Encodes { eventFrame event with sequence } bytes) :
    readNotice bytes =
      some ⟨sequence, event.shortAddress, event.type.code, event.severity.code⟩ := by
  obtain ⟨decoded, hdecoded, hsame⟩ := decode_encodes h {}
  have hzero : decoded.payload[0]? = some event.shortAddress := by
    rw [payload_of_sameContent hsame rfl (show 0 < 3 by omega)]
    simp [eventFrame]
  have hone : decoded.payload[1]? = some event.type.code := by
    rw [payload_of_sameContent hsame rfl (show 1 < 3 by omega)]
    simp [eventFrame]
  have htwo : decoded.payload[2]? = some event.severity.code := by
    rw [payload_of_sameContent hsame rfl (show 2 < 3 by omega)]
    simp [eventFrame]
  have hfits : decoded.type = .lightEvent ∧ decoded.payloadLength = 3 :=
    ⟨hsame.type_eq, hsame.payloadLength_eq⟩
  simp only [readNotice, hdecoded]
  rw [if_pos hfits, hsame.sequence_eq, hzero, hone, htwo]
  rfl

/-- The demo's session and transport deliver every event, under the next sequence. -/
theorem publish_delivers (demo : DemoController) (event : LightEvent)
    (hretries : demo.c6.session.maximumRetries = 3) :
    ∃ bytes, Encodes { eventFrame event with sequence := demo.c6.session.nextSequence } bytes ∧
      (demo.publish event).1.c6.session.nextSequence = demo.c6.session.nextSequence + 1 ∧
      (demo.publish event).1.c6.line =
        ⟨⟨bytes ++ demo.c6.line.state.lastFrame.drop bytes.length, bytes.length,
          demo.c6.line.state.sentCount + 1⟩, demo.c6.line.sent ++ [⟨bytes, true⟩]⟩ := by
  have hnumber : demo.c6.session.number (eventFrame event) =
      ({ eventFrame event with sequence := demo.c6.session.nextSequence },
        { demo.c6.session with nextSequence := demo.c6.session.nextSequence + 1 }) := rfl
  have hle : ({ eventFrame event with sequence := demo.c6.session.nextSequence } :
      Frame).payloadLength.toNat ≤ Frame.kMaximumPayload := show 3 ≤ 240 by omega
  obtain ⟨wire, hwire, -⟩ := encode_filled hle (Vector.replicate kMaximumEncodedSize 0) 0
  have hlength : (wire.toList.take 13).length = 13 := by
    rw [List.length_take, Vector.length_toList]
    rfl
  have hwire' : encode { eventFrame event with sequence := demo.c6.session.nextSequence }
      (Vector.replicate kMaximumEncodedSize 0) 0 = .ok (true, wire, 13) := hwire
  have hsend : mockC6Transport.send wire.toList 13 demo.c6.line.state =
      (true, ⟨wire.toList.take 13 ++ demo.c6.line.state.lastFrame.drop 13, 13,
        demo.c6.line.state.sentCount + 1⟩) := rfl
  have hne : demo.c6.session.maximumRetries ≠ 0 := by
    rw [hretries]
    decide
  refine ⟨wire.toList.take 13, ⟨_, _, _, _, hwire', rfl⟩, ?_⟩
  simp only [publish, C6Link.machine, C6Link.apply, C6Session.publish, if_neg hne, hnumber, hwire',
    C6Line.send, hsend, Bool.true_eq_false, if_false, hlength]
  exact ⟨rfl, trivial⟩

/-! ## The mirror -/

/-- The notice that message `i` gives of an alarm. -/
def notice (i : ℕ) (k : AlarmKey) : Notice :=
  ⟨UInt16.ofNat (i + 1), k.1, k.2.code, (severityOf k.2).code⟩

/-- The messages handed to the transport tell of the active alarms, one after the other, and the
transport keeps the last of them. -/
structure Mirrors (box : Outbox) (keys : List AlarmKey) : Prop where
  ready : box.Ready
  nodup : keys.Nodup
  mem_iff : ∀ k, k ∈ keys ↔ box.events.IsActive k
  sent : box.c6.line.sent.map (fun message => (message.accepted, readNotice message.bytes)) =
    keys.mapIdx fun i k => (true, some (notice i k))
  nextSequence : box.c6.session.nextSequence = UInt16.ofNat (keys.length + 1)
  sentCount : box.c6.line.state.sentCount = keys.length
  lastFrame : box.c6.line.state.lastFrame.take box.c6.line.state.lastLength =
    (box.c6.line.sent.getLast?.map (·.bytes)).getD []

theorem mirrors_started (duplicateReported : Vector Bool 64) :
    Mirrors (started duplicateReported).outbox [] where
  ready := ready_started duplicateReported
  nodup := List.nodup_nil
  mem_iff k := by
    have hinactive := (EventManager.keyed_init.isActive_iff_ne_none k).not_left.2
      (EventManager.board_init k)
    exact iff_of_false List.not_mem_nil hinactive
  sent := rfl
  nextSequence := rfl
  sentCount := rfl
  lastFrame := rfl

theorem Mirrors.snoc {box box' : Outbox} {keys : List AlarmKey} (h : Mirrors box keys)
    {k : AlarmKey} {bytes : List UInt8} (hready : box'.Ready) (hnew : k ∉ keys)
    (hmem : ∀ other, other ∈ keys ++ [k] ↔ box'.events.IsActive other)
    (hread : readNotice bytes = some (notice keys.length k))
    (hnext : box'.c6.session.nextSequence = box.c6.session.nextSequence + 1)
    (hline : box'.c6.line =
      ⟨⟨bytes ++ box.c6.line.state.lastFrame.drop bytes.length, bytes.length,
        box.c6.line.state.sentCount + 1⟩, box.c6.line.sent ++ [⟨bytes, true⟩]⟩) :
    Mirrors box' (keys ++ [k]) where
  ready := hready
  nodup := h.nodup.append (List.nodup_singleton _) (List.disjoint_singleton.2 hnew)
  mem_iff := hmem
  sent := by
    rw [hline, List.map_append, List.mapIdx_concat, ← h.sent, List.map_singleton, hread]
  nextSequence := by
    rw [hnext, List.length_append, List.length_singleton, UInt16.ofNat_add _ 1, ← h.nextSequence]
    rfl
  sentCount := by rw [hline, List.length_append, List.length_singleton, ← h.sentCount]
  lastFrame := by
    rw [hline, List.getLast?_concat]
    exact List.take_left

/-- An announcement adds a message about its alarm, unless the peer knows of it. -/
theorem Mirrors.announce {demo : DemoController} {keys : List AlarmKey}
    (h : Mirrors demo.outbox keys) (event : LightEvent) (hevent : event.alarm ∈ alarms)
    (hseverity : event.severity = severityOf event.type) :
    Mirrors (demo.announce event).1.outbox
      (if event.alarm ∈ keys then keys else keys ++ [event.alarm]) := by
  have hannounces := announce_announces demo h.ready event hevent hseverity
  have hmem : ∀ k, (k ∈ if event.alarm ∈ keys then keys else keys ++ [event.alarm]) ↔
      (demo.announce event).1.outbox.events.IsActive k := by
    intro k
    rw [hannounces.isActive_iff, ← h.mem_iff]
    split_ifs with hknown
    · rw [List.mem_singleton, or_iff_left_of_imp]
      rintro rfl
      exact hknown
    · rw [List.mem_append]
  have hforwarded := hannounces.forwarded_iff event.alarm
  rcases hraise : demo.events.raise event with ⟨events, out⟩
  cases out with
  | none =>
      rw [announce_of_none hraise] at hannounces hmem hforwarded ⊢
      have hknown : event.alarm ∈ keys := by
        rw [h.mem_iff]
        by_contra hinactive
        obtain ⟨record, hrecord, -⟩ := hforwarded.2 ⟨List.mem_singleton_self _, hinactive⟩
        exact absurd hrecord List.not_mem_nil
      rw [if_pos hknown] at hmem ⊢
      exact ⟨hannounces.ready, h.nodup, hmem, h.sent, h.nextSequence, h.sentCount, h.lastFrame⟩
  | some transition =>
      rw [announce_of_some hraise] at hannounces hmem hforwarded ⊢
      have hretries : ({ demo with events } : DemoController).c6.session.maximumRetries = 3 :=
        h.ready.retries
      obtain ⟨bytes, hbytes, hnext, hline⟩ := publish_delivers { demo with events } event hretries
      obtain ⟨-, hop, hanswer⟩ := publish_published { demo with events } event hretries
      have hnew : event.alarm ∉ keys := by
        have hpublished := (forwarded_singleton hseverity hop hanswer event.alarm).2 rfl
        rw [h.mem_iff]
        exact (hforwarded.1 hpublished).2
      have hnotice : readNotice bytes = some (notice keys.length event.alarm) := by
        rw [readNotice_encodes hbytes, hseverity]
        exact congrArg (fun sequence => some (Notice.mk sequence _ _ _)) h.nextSequence
      rw [if_neg hnew] at hmem ⊢
      exact h.snoc hannounces.ready hnew hmem hnotice hnext hline

def Grows (box box' : Outbox) : Prop :=
  ∀ keys, Mirrors box keys → ∃ keys', keys <+: keys' ∧ Mirrors box' keys'

theorem Grows.refl (box : Outbox) : Grows box box := fun keys h => ⟨keys, List.prefix_rfl, h⟩

theorem Grows.trans {box box' box'' : Outbox} (h : Grows box box') (h' : Grows box' box'') :
    Grows box box'' := by
  intro keys hkeys
  obtain ⟨keys', hprefix, hmirrors⟩ := h keys hkeys
  obtain ⟨keys'', hprefix', hmirrors'⟩ := h' keys' hmirrors
  exact ⟨keys'', hprefix.trans hprefix', hmirrors'⟩

theorem grows_announce (demo : DemoController) (event : LightEvent) (hevent : event.alarm ∈ alarms)
    (hseverity : event.severity = severityOf event.type) :
    Grows demo.outbox (demo.announce event).1.outbox := by
  intro keys h
  refine ⟨_, ?_, h.announce event hevent hseverity⟩
  split_ifs
  · exact List.prefix_rfl
  · exact List.prefix_append keys _

theorem grows_run {ι : Type*} {M : Machine DemoController ι (Option C6Record)} {P : ι → Prop}
    (hstep : ∀ demo x, P x → Grows demo.outbox (M.step demo x).1.outbox) (xs : List ι)
    (hxs : ∀ x ∈ xs, P x) (demo : DemoController) :
    Grows demo.outbox (M.after demo xs).outbox := by
  induction xs generalizing demo with
  | nil => exact Grows.refl demo.outbox
  | cons x xs ih =>
      have hrest := ih (fun y hy => hxs y (List.mem_cons_of_mem x hy)) (M.step demo x).1
      exact (hstep demo x (hxs x List.mem_cons_self)).trans hrest

theorem grows_reporting (nowMs : UInt64) (demo : DemoController) (change : DiscoveryChange)
    (hle : change.address.value ≤ 3) :
    Grows demo.outbox ((reporting nowMs).step demo change).1.outbox := by
  have hannounce := grows_announce demo (changeEvent nowMs change) (changeAlarm_mem hle)
    (severity_changeEvent nowMs change)
  simp only [reporting]
  split_ifs <;> exact hannounce

theorem grows_checking (nowMs : UInt64) (demo : DemoController) (light : Fin 4) :
    Grows demo.outbox ((checking nowMs).step demo light).1.outbox := by
  simp only [checking]
  split_ifs with hfault
  · obtain ⟨hknown, hseverity⟩ := faultEvent_known nowMs light
      ((demo.health.get light).evaluate (observation nowMs light)).1 hfault
    exact grows_announce { demo with health := demo.health.set light _ } _
      (List.mem_append_right _ hknown) hseverity
  · exact Grows.refl demo.outbox

theorem grows_step (demo : DemoController) (nowMs : UInt64)
    (hlights : ∀ change ∈ (demo.step nowMs).2.changes.changes, change.address.value ≤ 3) :
    Grows demo.outbox (demo.step nowMs).1.outbox := by
  simp only [step] at hlights ⊢
  have hreported := grows_run (grows_reporting nowMs) (demo.scan nowMs).batch.changes hlights
    (demo.scanned nowMs)
  have hchecked := grows_run (M := checking nowMs) (P := fun _ => True)
    (fun demo light _ => grows_checking nowMs demo light) (List.finRange 4) (fun _ _ => trivial)
    ((reporting nowMs).after (demo.scanned nowMs) (demo.scan nowMs).batch.changes)
  rw [outbox_scanned] at hreported
  exact hreported.trans hchecked

theorem mirrors_after (duplicateReported : Vector Bool 64) (times more : List UInt64) :
    ∃ keys later, keys <+: later ∧
      Mirrors (machine.after (started duplicateReported) times).outbox keys ∧
      Mirrors (machine.after (started duplicateReported) (times ++ more)).outbox later := by
  have hgrows : ∀ times more, Grows (machine.after (started duplicateReported) times).outbox
      (machine.after (started duplicateReported) (times ++ more)).outbox := by
    intro times more
    induction more using List.reverseRecOn with
    | nil =>
        rw [List.append_nil]
        exact Grows.refl _
    | append_singleton more nowMs ih =>
        rw [← List.append_assoc, after_snoc]
        exact ih.trans (grows_step _ nowMs fun change h =>
          value_le_of_found duplicateReported (mem_changes_iff duplicateReported h))
  obtain ⟨keys, -, hkeys⟩ := hgrows [] times [] (mirrors_started duplicateReported)
  obtain ⟨later, hprefix, hlater⟩ := hgrows times more keys hkeys
  exact ⟨keys, later, hprefix, hkeys, hlater⟩

theorem Mirrors.stores {box : Outbox} {keys : List AlarmKey} (h : Mirrors box keys) {k : AlarmKey}
    (hk : k ∈ keys) : k ∈ alarms ∧ box.events.Stores k (severityOf k.2) := by
  obtain ⟨item, hitem⟩ := (h.ready.keyed.isActive_iff k).1 ((h.mem_iff k).1 hk)
  obtain ⟨hknown, hseverity⟩ := h.ready.known k item hitem
  refine ⟨hknown, (h.ready.keyed.stores_iff k _).2 ?_⟩
  rw [hitem, Option.map_some, hseverity]

theorem Mirrors.activeCount_eq {box : Outbox} {keys : List AlarmKey} (h : Mirrors box keys) :
    box.events.activeCount = keys.length := by
  rw [← h.ready.keyed.size_board]
  refine EventManager.size_of_keys h.nodup fun k => ?_
  rw [h.mem_iff, h.ready.keyed.isActive_iff_ne_none]

theorem Mirrors.length_le {box : Outbox} {keys : List AlarmKey} (h : Mirrors box keys) :
    keys.length ≤ 15 := by
  have hsubset : keys ⊆ alarms := fun k hk => (h.stores hk).1
  exact (List.subperm_of_subset h.nodup hsubset).length_le

/-- What the peer decodes is the alarm table: each active alarm once, with the severity that is
stored, in messages numbered from one, all of which the transport took. It never loses an alarm,
hears at most fifteen messages, and the transport's counter and last frame are those of its list. -/
theorem peer_mirrors (duplicateReported : Vector Bool 64) (times more : List UInt64) :
    let demo : DemoController := machine.after (started duplicateReported) times
    let afterwards := machine.after (started duplicateReported) (times ++ more)
    ∃ keys : List AlarmKey, keys.Nodup ∧ keys.length ≤ 15 ∧
      (∀ k, k ∈ keys ↔ demo.events.IsActive k) ∧
      (∀ k ∈ keys, demo.events.Stores k (severityOf k.2)) ∧
      demo.c6.line.sent.map (fun message => (message.accepted, readNotice message.bytes)) =
        keys.mapIdx (fun i k => (true, some (notice i k))) ∧
      demo.c6.line.state.sentCount = keys.length ∧ demo.events.activeCount = keys.length ∧
      demo.c6.line.state.lastFrame.take demo.c6.line.state.lastLength =
        (demo.c6.line.sent.getLast?.map (·.bytes)).getD [] ∧
      ∀ k ∈ keys, afterwards.events.IsActive k := by
  intro demo afterwards
  obtain ⟨keys, later, hgrown, hkeys, hlater⟩ := mirrors_after duplicateReported times more
  exact ⟨keys, hkeys.nodup, hkeys.length_le, hkeys.mem_iff, fun k hk => (hkeys.stores hk).2,
    hkeys.sent, hkeys.sentCount, hkeys.activeCount_eq, hkeys.lastFrame,
    fun k hk => (hlater.mem_iff k).1 (hgrown.subset hk)⟩

end DemoController

end DaliEdge
