import DaliEdge.C6Session
import DaliEdge.History

/-!
# Acknowledgements of published frames

The session has one pending slot. After any run it holds the sequence of the latest frame that
the transport took, until that one is acknowledged, so an acknowledgement is believed only for
that frame and only once, and a frame that another successful publish has followed can no
longer be acknowledged.
-/

namespace DaliEdge

open FrameCodec

namespace C6Record

/-- A call of `publish` that returned true. -/
def Published (r : C6Record) : Prop := r.answer = .published true

/-- A call of `acknowledge` that returned true. -/
def Acknowledged (r : C6Record) : Prop := r.answer = .acknowledged true

/-- A successful publish whose message carries this sequence. -/
def PutOnWire (r : C6Record) (sequence : UInt16) : Prop :=
  r.Published ∧ r.sent.map (fun message => (message.accepted, C6Link.sequenceOf message.bytes)) =
    [(true, some sequence)]

/-- Neither a successful publish nor a successful acknowledgement. -/
def Quiet (r : C6Record) : Prop := ¬ r.Published ∧ ¬ r.Acknowledged

instance (r : C6Record) : Decidable r.Published := inferInstanceAs (Decidable (_ = _))

instance (r : C6Record) : Decidable r.Acknowledged := inferInstanceAs (Decidable (_ = _))

instance (r : C6Record) (sequence : UInt16) : Decidable (r.PutOnWire sequence) :=
  inferInstanceAs (Decidable (_ ∧ _))

end C6Record

namespace C6Link

variable {τ : Type*} (transport : IC6Transport τ)

def awaiting (link : C6Link τ) : Option UInt16 :=
  if link.session.pending then some link.session.pendingSequence else none

theorem acknowledge_eq_true_iff (link : C6Link τ) (sequence : UInt16) :
    (link.session.acknowledge sequence).1 = true ↔ link.awaiting = some sequence := by
  unfold C6Session.acknowledge awaiting
  cases link.session.pending with
  | false => simp
  | true =>
      by_cases h : sequence = link.session.pendingSequence
      · simp [h]
      · simp [h, Ne.symm h]

theorem acknowledge_again {s : C6Session} {sequence : UInt16}
    (h : (s.acknowledge sequence).1 = true) :
    ((s.acknowledge sequence).2.acknowledge sequence).1 = false := by
  unfold C6Session.acknowledge at h ⊢
  split_ifs at h ⊢
  · rfl
  · rename_i hne
    exact absurd (.inl rfl) hne

theorem sameContent_of_number {s : C6Session} {frame g : Frame}
    (h : g.SameContent (s.number frame).1) :
    g.SameContent { frame with sequence := g.sequence } ∧
      (frame.sequence ≠ 0 → g.sequence = frame.sequence) := by
  unfold C6Session.number at h
  split_ifs at h with hzero
  · exact ⟨⟨h.version_eq, h.type_eq, rfl, h.payloadLength_eq, h.payload_eq⟩,
      fun hne => absurd hzero hne⟩
  · exact ⟨⟨h.version_eq, h.type_eq, rfl, h.payloadLength_eq, h.payload_eq⟩,
      fun _ => h.sequence_eq⟩

theorem pending_number (s : C6Session) (frame : Frame) :
    (s.number frame).2.pending = s.pending ∧
      (s.number frame).2.pendingSequence = s.pendingSequence := by
  unfold C6Session.number
  split_ifs <;> exact ⟨rfl, rfl⟩

theorem Publishes.unchanged {link link' : C6Link τ} {frame : Frame} {sent : List SentMessage}
    (h : link.Publishes frame link' false sent) :
    link'.session.pending = link.session.pending ∧
      link'.session.pendingSequence = link.session.pendingSequence := by
  cases h with
  | disabled => exact ⟨rfl, rfl⟩
  | refused => exact pending_number _ _
  | failed => exact pending_number _ _

theorem Publishes.sent_of_true {link link' : C6Link τ} {frame : Frame} {sent : List SentMessage}
    (h : link.Publishes frame link' true sent) :
    ∃ bytes, sent = [⟨bytes, true⟩] ∧ Encodes (link.numbered frame) bytes ∧
      link'.awaiting = some (link.numbered frame).sequence := by
  cases h with
  | delivered _ bytes _ hencodes => exact ⟨bytes, rfl, hencodes, rfl⟩

theorem awaiting_step (link : C6Link τ) (op : C6Op) :
    let r := (machine transport).step link op
    (r.2.Published → ∃ sequence, r.2.PutOnWire sequence ∧ r.1.awaiting = some sequence) ∧
      (r.2.Acknowledged → r.1.awaiting = none) ∧ (r.2.Quiet → r.1.awaiting = link.awaiting) := by
  intro r
  cases op with
  | publish frame =>
      obtain ⟨link', ok, sent, hpublishes, hstep⟩ := step_publish transport link frame
      simp only [r, hstep]
      refine ⟨fun hpublished => ?_, fun hacknowledged => (by cases hacknowledged), fun hquiet => ?_⟩
      · obtain rfl : ok = true := C6Answer.published.inj hpublished
        obtain ⟨bytes, rfl, hencodes, hawaiting⟩ := hpublishes.sent_of_true
        refine ⟨_, ⟨rfl, ?_⟩, hawaiting⟩
        rw [List.map_singleton, sequenceOf_encodes hencodes]
      · obtain rfl : ok = false := Bool.eq_false_iff.2 fun hok => hquiet.1 (congrArg _ hok)
        obtain ⟨hpending, hsequence⟩ := hpublishes.unchanged
        rw [awaiting, hpending, hsequence, awaiting]
  | acknowledge sequence =>
      simp only [r, step_acknowledge]
      refine ⟨fun hpublished => (by cases hpublished), fun hacknowledged => ?_, fun hquiet => ?_⟩
      · have htrue : (link.session.acknowledge sequence).1 = true :=
          C6Answer.acknowledged.inj hacknowledged
        unfold C6Session.acknowledge at htrue ⊢
        split_ifs at htrue ⊢
        rfl
      · have hfalse : ¬ (link.session.acknowledge sequence).1 = true :=
          fun htrue => hquiet.2 (congrArg _ htrue)
        unfold C6Session.acknowledge at hfalse ⊢
        split_ifs at hfalse ⊢ with hrefused
        · rfl
        · exact absurd rfl hfalse
  | makeStatusRequest address =>
      simp only [r, step_makeStatusRequest]
      exact ⟨fun hpublished => (by cases hpublished), fun hacknowledged => (by cases hacknowledged),
        fun _ => rfl⟩

theorem putOnWire_unique {r : C6Record} {s s' : UInt16} (h : r.PutOnWire s) (h' : r.PutOnWire s') :
    s = s' := by
  have heq := h.2.symm.trans h'.2
  simpa using heq

variable (maximumRetries : UInt8) (state : τ)

def run (ops : List C6Op) : C6Link τ := (machine transport).after (initial maximumRetries state) ops

def history (ops : List C6Op) : List C6Record :=
  (machine transport).outputs (initial maximumRetries state) ops

theorem run_snoc (ops : List C6Op) (op : C6Op) : run transport maximumRetries state (ops ++ [op]) =
    ((machine transport).step (run transport maximumRetries state ops) op).1 :=
  (machine transport).after_snoc _ ops op

theorem history_snoc (ops : List C6Op) (op : C6Op) :
    history transport maximumRetries state (ops ++ [op]) =
      history transport maximumRetries state ops ++
        [((machine transport).step (run transport maximumRetries state ops) op).2] :=
  (machine transport).outputs_snoc _ ops op

/-- What is awaited is the sequence of the latest successful publish, if nothing was acknowledged
since. -/
theorem awaiting_iff (ops : List C6Op) (sequence : UInt16) :
    (run transport maximumRetries state ops).awaiting = some sequence ↔
      History.Since (C6Record.PutOnWire · sequence) C6Record.Quiet
        (history transport maximumRetries state ops) := by
  induction ops using List.reverseRecOn with
  | nil => exact ⟨fun h => (by cases h), fun h => absurd h History.not_since_nil⟩
  | append_singleton ops op ih =>
      rw [run_snoc, history_snoc, History.since_snoc]
      obtain ⟨hpublished, hacknowledged, hquiet⟩ :=
        awaiting_step transport (run transport maximumRetries state ops) op
      generalize (machine transport).step (run transport maximumRetries state ops) op = r at *
      by_cases hp : r.2.Published
      · obtain ⟨sent, hsent, hawaiting⟩ := hpublished hp
        rw [hawaiting, Option.some.injEq]
        constructor
        · rintro rfl
          exact .inl hsent
        · rintro (hwire | ⟨hr, -⟩)
          · exact putOnWire_unique hsent hwire
          · exact absurd hp hr.1
      · by_cases ha : r.2.Acknowledged
        · rw [hacknowledged ha]
          constructor
          · intro hnone
            cases hnone
          · rintro (hwire | ⟨hr, -⟩)
            · exact absurd hwire.1 hp
            · exact absurd ha hr.2
        · rw [hquiet ⟨hp, ha⟩, ih]
          constructor
          · exact fun hsince => .inr ⟨⟨hp, ha⟩, hsince⟩
          · rintro (hwire | ⟨-, hsince⟩)
            · exact absurd hwire.1 hp
            · exact hsince

/-! ## What acknowledgements mean -/

theorem awaiting_eq_none_after {link : C6Link τ} (h : link.awaiting = none) (ops : List C6Op)
    (hno : ∀ r ∈ (machine transport).outputs link ops, ¬ r.Published) :
    ((machine transport).after link ops).awaiting = none := by
  induction ops generalizing link with
  | nil => exact h
  | cons op ops ih =>
      obtain ⟨-, hacknowledged, hquiet⟩ := awaiting_step transport link op
      have hop := hno _ List.mem_cons_self
      refine ih ?_ fun r hr => hno r (List.mem_cons_of_mem _ hr)
      by_cases ha : ((machine transport).step link op).2.Acknowledged
      · exact hacknowledged ha
      · rw [hquiet ⟨hop, ha⟩, h]

/-- What is awaited stays awaited until it is acknowledged or another frame is published. -/
theorem awaiting_eq_some_after {link : C6Link τ} {sequence : UInt16}
    (h : link.awaiting = some sequence) (ops : List C6Op)
    (hno : ∀ r ∈ (machine transport).outputs link ops,
      ¬ r.Published ∧ ¬ (r.op = .acknowledge sequence ∧ r.Acknowledged)) :
    ((machine transport).after link ops).awaiting = some sequence := by
  induction ops generalizing link with
  | nil => exact h
  | cons op ops ih =>
      obtain ⟨-, -, hquiet⟩ := awaiting_step transport link op
      obtain ⟨hpublished, hown⟩ := hno _ List.mem_cons_self
      refine ih ?_ fun r hr => hno r (List.mem_cons_of_mem _ hr)
      by_cases ha : ((machine transport).step link op).2.Acknowledged
      · cases op with
        | acknowledge sequence' =>
            rw [step_acknowledge] at ha hown
            have htrue := C6Answer.acknowledged.inj ha
            rw [acknowledge_eq_true_iff, h, Option.some.injEq] at htrue
            exact absurd ⟨congrArg _ htrue.symm, ha⟩ hown
        | publish frame =>
            obtain ⟨link', ok, sent, -, hstep⟩ := step_publish transport link frame
            rw [hstep] at ha
            cases ha
        | makeStatusRequest address =>
            rw [step_makeStatusRequest] at ha
            cases ha
      · rw [hquiet ⟨hpublished, ha⟩, h]

theorem run_append_cons (ops later : List C6Op) (op : C6Op) :
    run transport maximumRetries state (ops ++ op :: later) =
      (machine transport).after
        ((machine transport).step (run transport maximumRetries state ops) op).1 later := by
  rw [run, Machine.after_append, Machine.after_cons]
  rfl

/-- The latest frame that the transport took can be acknowledged until it is. -/
theorem acknowledge_latest (ops later : List C6Op) (frame : Frame) (sequence : UInt16)
    (hsent : ((machine transport).step (run transport maximumRetries state ops)
      (.publish frame)).2.PutOnWire sequence)
    (hlater : ∀ r ∈ (machine transport).outputs
        ((machine transport).step (run transport maximumRetries state ops) (.publish frame)).1 later,
      ¬ r.Published ∧ ¬ (r.op = .acknowledge sequence ∧ r.Acknowledged)) :
    ((run transport maximumRetries state (ops ++ .publish frame :: later)).session.acknowledge
      sequence).1 = true := by
  obtain ⟨hpublished, -, -⟩ :=
    awaiting_step transport (run transport maximumRetries state ops) (.publish frame)
  obtain ⟨sequence', hsent', hawaiting⟩ := hpublished hsent.1
  obtain rfl := putOnWire_unique hsent hsent'
  rw [acknowledge_eq_true_iff, run_append_cons]
  exact awaiting_eq_some_after transport hawaiting later hlater

def acceptingTransport : IC6Transport Unit := ⟨fun _ _ s => (true, s)⟩

theorem acknowledge_latest_example :
    ((run acceptingTransport 3 () [.publish {}, .acknowledge 7]).session.acknowledge 1).1 = true :=
  acknowledge_latest acceptingTransport 3 () [] [.acknowledge 7] {} 1 (by decide +kernel)
    (by decide +kernel)

/-- A second frame is published before the first is acknowledged. -/
theorem acknowledge_overwritten : ¬ ∀ (ops later : List C6Op) (frame : Frame) (sequence : UInt16),
    ((machine acceptingTransport).step (run acceptingTransport 3 () ops)
      (.publish frame)).2.PutOnWire sequence →
    (∀ r ∈ (machine acceptingTransport).outputs
        ((machine acceptingTransport).step (run acceptingTransport 3 () ops) (.publish frame)).1 later,
      ¬ r.PutOnWire sequence ∧ ¬ (r.op = .acknowledge sequence ∧ r.Acknowledged)) →
    ((run acceptingTransport 3 () (ops ++ .publish frame :: later)).session.acknowledge
      sequence).1 = true := by
  intro h
  have htrue := h [] [.publish {}] {} 1 (by decide +kernel) (by decide +kernel)
  have hfalse : ((run acceptingTransport 3 ()
      ([] ++ .publish {} :: [.publish {}])).session.acknowledge 1).1 = false := by decide +kernel
  rw [hfalse] at htrue
  cases htrue

/-- Acknowledgements are sound: they are believed for the latest published frame only and once, a
failed publish leaves what is awaited, and a successful one sends the frame and awaits the sequence
that its receiver reads. -/
theorem acknowledgements_sound (ops : List C6Op) :
    let link := run transport maximumRetries state ops
    (∀ sequence, (link.session.acknowledge sequence).1 = true →
      History.Since (C6Record.PutOnWire · sequence) C6Record.Quiet
        (history transport maximumRetries state ops)) ∧
    (∀ sequence later sequence', (link.session.acknowledge sequence).1 = true →
      ((run transport maximumRetries state
        (ops ++ .acknowledge sequence :: later)).session.acknowledge sequence').1 = true →
      ∃ r ∈ (machine transport).outputs
        ((machine transport).step link (.acknowledge sequence)).1 later, r.Published) ∧
    ∀ frame, let r := (machine transport).step link (.publish frame)
      (r.2.answer = .published false → r.1.session.pending = link.session.pending ∧
        r.1.session.pendingSequence = link.session.pendingSequence) ∧
      (r.2.answer = .published true → ∀ into, ∃ bytes decoded, r.2.sent = [⟨bytes, true⟩] ∧
        decode (some bytes) bytes.length into = .ok (true, decoded) ∧
        decoded.SameContent { frame with sequence := decoded.sequence } ∧
        (frame.sequence ≠ 0 → decoded.sequence = frame.sequence) ∧
        (r.1.session.acknowledge decoded.sequence).1 = true ∧
        ((r.1.session.acknowledge decoded.sequence).2.acknowledge decoded.sequence).1 = false) := by
  intro link
  refine ⟨fun sequence h => ?_, fun sequence later sequence' h h' => ?_, fun frame => ?_⟩
  · rwa [acknowledge_eq_true_iff, awaiting_iff] at h
  · by_contra! hno
    obtain ⟨-, hacknowledged, -⟩ := awaiting_step transport link (.acknowledge sequence)
    have hfirst : ((machine transport).step link (.acknowledge sequence)).2.Acknowledged := by
      rw [step_acknowledge]
      exact congrArg _ h
    rw [acknowledge_eq_true_iff, run_append_cons,
      awaiting_eq_none_after transport (hacknowledged hfirst) later hno] at h'
    cases h'
  · intro r
    obtain ⟨link', ok, sent, hpublishes, hstep⟩ := step_publish transport link frame
    simp only [r, hstep]
    refine ⟨fun hfalse => ?_, fun htrue into => ?_⟩
    · obtain rfl := C6Answer.published.inj hfalse
      exact hpublishes.unchanged
    · obtain rfl := C6Answer.published.inj htrue
      obtain ⟨bytes, rfl, hencodes, hawaiting⟩ := hpublishes.sent_of_true
      obtain ⟨decoded, hdecoded, hsame⟩ := decode_encodes hencodes into
      rw [← hsame.sequence_eq] at hawaiting
      obtain ⟨hcontent, hsequence⟩ := sameContent_of_number hsame
      have haccepted := (acknowledge_eq_true_iff link' _).2 hawaiting
      exact ⟨bytes, decoded, rfl, hdecoded, hcontent, hsequence, haccepted,
        acknowledge_again haccepted⟩

/-- A heartbeat is published; its receiver acknowledges what it has read. -/
theorem acknowledgements_sound_heartbeat : ∃ bytes decoded,
    ((machine acceptingTransport).step (run acceptingTransport 3 () []) (.publish {})).2.sent =
      [⟨bytes, true⟩] ∧
    decode (some bytes) bytes.length {} = .ok (true, decoded) ∧
    decoded.SameContent { sequence := decoded.sequence } := by
  obtain ⟨-, -, hpublish⟩ := acknowledgements_sound acceptingTransport 3 () []
  obtain ⟨bytes, decoded, hsent, hdecode, hcontent, -⟩ := (hpublish {}).2 (by decide +kernel) {}
  exact ⟨bytes, decoded, hsent, hdecode, hcontent⟩

end C6Link

end DaliEdge
