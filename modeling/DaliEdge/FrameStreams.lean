import DaliEdge.Acknowledgements
import DaliEdge.SelfDelimiting

/-!
# The stream of frames

On the wire the messages of a session follow each other without a gap. A frame tells its length in
its fifth and sixth byte, so a peer that sees nothing but the stream of bytes finds the messages
again, and reads in them the frames that were published, in order.
-/

namespace DaliEdge

open ByteBuffer WordBytes

namespace FrameCodec

/-- The length of the frame that the bytes begin with, by its length field. -/
def frameSize (bytes : List UInt8) : ℕ := (word (bytes.getD 5 0) (bytes.getD 6 0)).toNat + 10

theorem frameSize_bytes {l : Layout} (h : l.WellFormed) (rest : List UInt8) :
    frameSize (l.bytes ++ rest) = l.bytes.length := by
  rw [Layout.length_bytes, ← h.length_eq]
  rfl

def frames : Set (List UInt8) := {bytes | ∃ frame, Encodes frame bytes}

theorem frames_selfDelimiting : SelfDelimiting frames frameSize where
  nil_notMem := by
    rintro ⟨frame, hencodes⟩
    cases ((encodes_iff frame []).1 hencodes).2
  size_append := by
    rintro bytes ⟨frame, hencodes⟩ rest
    obtain ⟨hle, rfl⟩ := (encodes_iff frame bytes).1 hencodes
    exact frameSize_bytes (Layout.wellFormed_ofFrame hle) rest

/-- No stream is the stream of two lists of messages. -/
theorem frames_uniquelyDecodable : InformationTheory.UniquelyDecodable frames :=
  frames_selfDelimiting.uniquelyDecodable

def readFrame (bytes : List UInt8) : Option Frame :=
  match decode (some bytes) bytes.length {} with
  | .ok (true, frame) => some frame
  | _ => none

def readStream (stream : List UInt8) : List (Option Frame) :=
  (SelfDelimiting.split frameSize stream.length stream).map readFrame

theorem readStream_flatten {messages : List (List UInt8)} (h : ∀ bytes ∈ messages, bytes ∈ frames) :
    readStream messages.flatten = messages.map readFrame := by
  rw [readStream, frames_selfDelimiting.split_text h]

theorem readFrame_encodes {frame : Frame} {bytes : List UInt8} (h : Encodes frame bytes) :
    ∃ read, readFrame bytes = some read ∧ read.SameContent frame := by
  obtain ⟨decoded, hdecoded, hsame⟩ := decode_encodes h {}
  exact ⟨decoded, by rw [readFrame, hdecoded], hsame⟩

end FrameCodec

open FrameCodec

namespace C6Record

def taken (r : C6Record) : List (List UInt8) :=
  (r.sent.filter (·.accepted)).map (·.bytes)

/-- The message of a successful publish carries the frame that was published; its sequence is the
frame's, if that has one. -/
structure Carries (r : C6Record) (bytes : List UInt8) (frame : Frame) : Prop where
  op : ∃ sequence, r.op = .publish { frame with sequence } ∧
    (sequence ≠ 0 → frame.sequence = sequence)
  encodes : Encodes frame bytes
  putOnWire : r.PutOnWire frame.sequence

end C6Record

namespace C6Link

variable {τ : Type*} (transport : IC6Transport τ)

theorem taken_step (link : C6Link τ) (op : C6Op) :
    let r := ((machine transport).step link op).2
    (r.Published → ∃ bytes frame, r.taken = [bytes] ∧ r.Carries bytes frame) ∧
      (¬ r.Published → r.taken = []) := by
  intro r
  cases op with
  | publish frame =>
      obtain ⟨link', ok, sent, hpublishes, hstep⟩ := step_publish transport link frame
      simp only [r, hstep]
      cases hpublishes with
      | disabled => exact ⟨fun h => (by cases h), fun _ => rfl⟩
      | refused => exact ⟨fun h => (by cases h), fun _ => rfl⟩
      | failed => exact ⟨fun h => (by cases h), fun _ => rfl⟩
      | delivered _ bytes _ hencodes =>
          refine ⟨fun _ => ⟨bytes, link.numbered frame, rfl, ⟨frame.sequence, ?_, ?_⟩, hencodes,
            rfl, ?_⟩, fun h => absurd rfl h⟩
          · unfold numbered C6Session.number
            split_ifs <;> rfl
          · intro hne
            unfold numbered C6Session.number
            rw [if_neg hne]
          · rw [List.map_singleton, sequenceOf_encodes hencodes]
  | acknowledge sequence =>
      simp only [r, step_acknowledge]
      exact ⟨fun h => (by cases h), fun _ => rfl⟩
  | makeStatusRequest address =>
      simp only [r, step_makeStatusRequest]
      exact ⟨fun h => (by cases h), fun _ => rfl⟩

theorem taken_run (link : C6Link τ) (ops : List C6Op) :
    let records := (machine transport).outputs link ops
    List.Forall₂ (fun r bytes => ∃ frame, r.Carries bytes frame)
      (records.filter (·.Published)) (records.flatMap C6Record.taken) := by
  induction ops generalizing link with
  | nil => exact .nil
  | cons op ops ih =>
      obtain ⟨hpublished, hquiet⟩ := taken_step transport link op
      simp only [Machine.outputs_cons, List.flatMap_cons, List.filter_cons]
      split_ifs with hp
      · obtain ⟨bytes, frame, htaken, hcarries⟩ := hpublished (of_decide_eq_true hp)
        rw [htaken]
        exact .cons ⟨frame, hcarries⟩ (ih _)
      · rw [hquiet fun h => hp (decide_eq_true h)]
        exact ih _

/-- Over any transport, a peer that reads nothing but the stream of the bytes that were taken reads
the frames of the successful publishes, each once and in order: their fields and payload, and the
sequence under which they were put on the wire, which is their own if they had one. -/
theorem stream_recovered (link : C6Link τ) (ops : List C6Op) :
    let records := (machine transport).outputs link ops
    List.Forall₂ (fun r read => ∃ frame g, read = some g ∧ g.SameContent frame ∧
        r.PutOnWire g.sequence ∧ ∃ sequence, r.op = .publish { frame with sequence } ∧
          (sequence ≠ 0 → g.sequence = sequence))
      (records.filter (·.Published)) (readStream (records.flatMap C6Record.taken).flatten) := by
  intro records
  have htaken := taken_run transport link ops
  have hframes : ∀ bytes ∈ records.flatMap C6Record.taken, bytes ∈ frames := by
    refine ((List.forall₂_and_left (R := fun _ _ => True) _ _).1 (htaken.flip.imp ?_)).1
    rintro bytes r ⟨frame, hcarries⟩
    exact ⟨⟨frame, hcarries.encodes⟩, trivial⟩
  rw [readStream_flatten hframes, List.forall₂_map_right_iff]
  refine htaken.imp ?_
  rintro r bytes ⟨frame, hop, hencodes, hwire⟩
  obtain ⟨read, hread, hsame⟩ := readFrame_encodes hencodes
  rw [← hsame.sequence_eq] at hop hwire
  exact ⟨frame, read, hread, hsame, hwire, hop⟩

end C6Link

end DaliEdge
