import DaliEdge.DemoController
import DaliEdge.MissedAnswers
import DaliEdge.ScanEffects

/-!
# The lights of the demo in its scans

The scans of the demo are presence scans whose answers depend on the clock alone, and nothing
else in a step touches what they know. So at every light the lifecycle changes of a run count
the phases of the answers that the light missed.
-/

namespace DaliEdge

namespace DemoController

open DeviceManager (PresenceState Scan Slot lifecycleAt)

/-- The light does not answer a presence query at this time. -/
def unanswered (address : ShortAddress) (nowMs : UInt64) : Bool :=
  address.value > 3 || (address.value = 3 && away nowMs)

/-- The scan of a step, as a scan with given answers. -/
def demoScan (nowMs : UInt64) : Scan where
  nowMs := nowMs
  answers address := (⟨nowMs⟩ : DemoQueryClient).query address .queryControlGearPresent

def presence (demo : DemoController) : PresenceState := ⟨demo.registry, demo.duplicateReported⟩

theorem poll_demoQueryClient (client : DemoQueryClient) (raws : List (Fin 64)) {raw : Fin 64}
    (h : raw ∈ raws) : (DeviceManager.poll demoQueryClient raws client).1 (.ofIndex raw) =
      client.query (.ofIndex raw) .queryControlGearPresent := by
  induction raws with
  | nil => exact absurd h List.not_mem_nil
  | cons other raws ih =>
      change Function.update (DeviceManager.poll demoQueryClient raws client).1 (.ofIndex other)
        (client.query (.ofIndex other) .queryControlGearPresent) (.ofIndex raw) = _
      by_cases heq : raw = other
      · rw [heq, Function.update_self]
      · rw [Function.update_of_ne fun h => heq (ShortAddress.ofIndex_injective h)]
        exact ih ((List.mem_cons.1 h).resolve_left heq)

theorem scanAnswers_demoQueryClient (client : DemoQueryClient) (address : ShortAddress) :
    DeviceManager.scanAnswers demoQueryClient client address =
      client.query address .queryControlGearPresent := by
  rw [← address.ofIndex_index]
  exact poll_demoQueryClient client _ (List.mem_finRange _)

theorem presence_announce (demo : DemoController) (event : LightEvent) :
    (demo.announce event).1.presence = demo.presence := by
  simp only [announce]
  split_ifs <;> rfl

theorem presence_after {ι : Type*} {M : Machine DemoController ι (Option C6Record)}
    (hstep : ∀ demo x, (M.step demo x).1.presence = demo.presence) (demo : DemoController)
    (xs : List ι) : (M.after demo xs).presence = demo.presence :=
  M.after_induction (P := fun found => found.presence = demo.presence)
    (fun found x h => (hstep found x).trans h) rfl xs

theorem presence_reporting (nowMs : UInt64) (demo : DemoController) (change : DiscoveryChange) :
    ((reporting nowMs).step demo change).1.presence = demo.presence := by
  have hannounce := presence_announce demo (changeEvent nowMs change)
  simp only [reporting]
  split_ifs <;> exact hannounce

theorem presence_checking (nowMs : UInt64) (demo : DemoController) (light : Fin 4) :
    ((checking nowMs).step demo light).1.presence = demo.presence := by
  simp only [checking]
  split_ifs
  · exact presence_announce { demo with health := demo.health.set light _ } _
  · rfl

theorem step_presence (demo : DemoController) (nowMs : UInt64) :
    (demo.step nowMs).1.presence =
        (DeviceManager.presence.step demo.presence (demoScan nowMs)).1 ∧
      (demo.step nowMs).2.changes =
        (DeviceManager.presence.step demo.presence (demoScan nowMs)).2 := by
  have hanswers : DeviceManager.scanAnswers demoQueryClient ⟨nowMs⟩ = (demoScan nowMs).answers :=
    funext fun address => scanAnswers_demoQueryClient ⟨nowMs⟩ address
  have hscan := DeviceManager.scanPresence_eq_presence demoQueryClient nowMs
    demo.duplicateReported demo.registry ⟨nowMs⟩
  rw [hanswers] at hscan
  change DeviceManager.presence.step demo.presence (demoScan nowMs) = _ at hscan
  rw [hscan]
  simp only [step]
  rw [presence_after (presence_checking nowMs), presence_after (presence_reporting nowMs)]
  simp only [presence, scanned, scan, and_self]

theorem after_snoc (duplicateReported : Vector Bool 64) (times : List UInt64) (nowMs : UInt64) :
    machine.after (started duplicateReported) (times ++ [nowMs]) =
      ((machine.after (started duplicateReported) times).step nowMs).1 :=
  Machine.after_snoc ..

theorem after_presence (duplicateReported : Vector Bool 64) (times : List UInt64) :
    (machine.after (started duplicateReported) times).presence =
      DeviceManager.presence.after (started duplicateReported).presence (times.map demoScan) := by
  induction times using List.reverseRecOn with
  | nil => rfl
  | append_singleton times nowMs ih =>
      rw [after_snoc, List.map_append, List.map_singleton, Machine.after_snoc, ← ih]
      exact (step_presence _ nowMs).1

/-! ## The lifecycle of each light -/

variable (duplicateReported : Vector Bool 64) (address : ShortAddress)

/-- The lifecycle changes that a run of the demo finds at a light. -/
def lifecycle (times : List UInt64) : List DiscoveryChangeType :=
  lifecycleAt (started duplicateReported).presence (times.map demoScan) address

def slotAfter (times : List UInt64) : Slot :=
  (machine.after (started duplicateReported) times).presence.slot address

def found (times : List UInt64) (nowMs : UInt64) : Slot × Option DiscoveryChangeType :=
  (slotAfter duplicateReported address times).observe address nowMs
    (DeviceManager.answerOf (unanswered address nowMs))

theorem outcome_demoScan (nowMs : UInt64) :
    (demoScan nowMs).outcome address = DeviceManager.answerOf (unanswered address nowMs) := by
  simp only [DeviceManager.Scan.outcome, demoScan, DemoQueryClient.query, decide_true, Bool.and_true]
  change DeviceManager.classify (if unanswered address nowMs = true then _ else _) = _
  cases unanswered address nowMs <;> rfl

theorem slotAfter_snoc (times : List UInt64) (nowMs : UInt64) :
    slotAfter duplicateReported address (times ++ [nowMs]) =
      (found duplicateReported address times nowMs).1 := by
  rw [found, slotAfter, slotAfter, after_snoc, (step_presence _ nowMs).1, DeviceManager.slot_presence_step, ← outcome_demoScan]
  rfl

theorem lifecycle_snoc (times : List UInt64) (nowMs : UInt64) :
    lifecycle duplicateReported address (times ++ [nowMs]) =
      lifecycle duplicateReported address times ++
        (found duplicateReported address times nowMs).2.toList.filter
          DeviceManager.isLifecycleChange := by
  rw [lifecycle, List.map_append, List.map_singleton, DeviceManager.lifecycleAt_snoc,
    ← after_presence, outcome_demoScan]
  rfl

theorem lifecycle_tracks (times : List UInt64) :
    DeviceManager.Tracks (lifecycle duplicateReported address times)
        (slotAfter duplicateReported address times).record ∧
      DeviceManager.CountsMisses (times.map (unanswered address))
        (slotAfter duplicateReported address times).record := by
  induction times using List.reverseRecOn with
  | nil =>
      have hrecord : (slotAfter duplicateReported address []).record = none :=
        congrArg Slot.record (DeviceManager.slot_initial address)
      rw [hrecord]
      exact ⟨rfl, fun r hr => (by cases hr)⟩
  | append_singleton times nowMs ih =>
      obtain ⟨htracks, hcounts⟩ := ih
      rw [lifecycle_snoc, slotAfter_snoc, List.map_append, List.map_singleton]
      refine ⟨htracks.observe address nowMs _ fun record _ _ => ?_,
        hcounts.observe address nowMs (unanswered address nowMs)⟩
      cases unanswered address nowMs <;> exact fun h => (by cases h)

theorem phases_iff_lifecycle (n : ℕ) (times : List UInt64) :
    Outages.Phases 2 n (times.map (unanswered address)) ↔
      n ≤ (lifecycle duplicateReported address times).length := by
  refine Outages.phases_iff_le (unanswered address)
    (f := fun times => (lifecycle duplicateReported address times).length) rfl ?_ ?_ n times
  · intro times nowMs hcloses
    obtain ⟨htracks, hcounts⟩ := lifecycle_tracks duplicateReported address times
    obtain ⟨change, hchange⟩ :=
      (htracks.changes_observe hcounts address nowMs (unanswered address nowMs)).1 hcloses
    rw [lifecycle_snoc, List.length_append, found, hchange, List.length_singleton]
  · intro times nowMs hopen
    obtain ⟨htracks, hcounts⟩ := lifecycle_tracks duplicateReported address times
    have hnone :=
      (htracks.changes_observe hcounts address nowMs (unanswered address nowMs)).2 hopen
    rw [lifecycle_snoc, found, hnone, List.append_nil]

end DemoController

end DaliEdge
