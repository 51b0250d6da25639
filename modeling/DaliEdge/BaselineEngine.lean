import DaliEdge.Machine
import DaliEdge.RunningMeans
import DaliEdge.SlotSweep
import DaliEdge.Types
import Mathlib.Algebra.Ring.Nat
import Mathlib.Algebra.Field.Rat

/-!
# Baselines of the commanded levels

The levels fall into five bands, and each band keeps the number of its observations and the means
of their two readings. Only an observation of a stable, healthy and reachable device that has both
readings counts, and it counts for the band of its level alone.
-/

namespace DaliEdge

open RunningMean

inductive LevelBand
  | band1 | band2 | band3 | band4 | band5
  deriving DecidableEq

def LevelBand.index : LevelBand → Fin 5
  | .band1 => 0
  | .band2 => 1
  | .band3 => 2
  | .band4 => 3
  | .band5 => 4

theorem LevelBand.index_inj {a b : LevelBand} : a.index = b.index ↔ a = b := by
  cases a <;> cases b <;> simp [index]

structure BaselineObservation (F : Type*) [Zero F] where
  stable : Bool := false
  healthy : Bool := false
  communicationAcceptable : Bool := false
  inputPower : Reading F := .initial 0
  outputCurrent : Reading F := .initial 0

structure BandStats (F : Type*) [Zero F] where
  count : UInt32 := 0
  inputPowerMean : F := 0
  outputCurrentMean : F := 0
  deriving DecidableEq

structure BaselineStore (F : Type*) [Zero F] where
  bands : Vector (BandStats F) 5 := Vector.replicate 5 {}

/-- A call of `update`: the commanded level and the observation. -/
abbrev BaselineCall (F : Type*) [Zero F] := UInt8 × BaselineObservation F

variable {F : Type*} [Field F]

/-- The part of `update` that changes the stats of one band. -/
def BandStats.add (stats : BandStats F) (observation : BaselineObservation F) : BandStats F :=
  let count := stats.count + 1
  { count
    inputPowerMean := stats.inputPowerMean +
      (observation.inputPower.value - stats.inputPowerMean) / (count.toNat : F)
    outputCurrentMean := stats.outputCurrentMean +
      (observation.outputCurrent.value - stats.outputCurrentMean) / (count.toNat : F) }

namespace BaselineStore

def bandFor (level : UInt8) : LevelBand :=
  if level ≤ 20 then .band1
  else if level ≤ 40 then .band2
  else if level ≤ 60 then .band3
  else if level ≤ 80 then .band4
  else .band5

def update (store : BaselineStore F) (commandedLevel : UInt8)
    (observation : BaselineObservation F) : BaselineStore F × Bool :=
  if !observation.stable || !observation.healthy || !observation.communicationAcceptable ||
      !observation.inputPower.hasValue || !observation.outputCurrent.hasValue then
    (store, false)
  else
    let band := (bandFor commandedLevel).index
    let stats := store.bands.get band
    ({ bands := store.bands.set band (stats.add observation) band.isLt }, true)

def stats (store : BaselineStore F) (band : LevelBand) : BandStats F := store.bands.get band.index

def meanInputPower (store : BaselineStore F) (band : LevelBand) : F :=
  (store.stats band).inputPowerMean

def meanOutputCurrent (store : BaselineStore F) (band : LevelBand) : F :=
  (store.stats band).outputCurrentMean

def sampleCount (store : BaselineStore F) (band : LevelBand) : UInt32 := (store.stats band).count

def machine : Machine (BaselineStore F) (BaselineCall F) Bool :=
  ⟨fun store call => store.update call.1 call.2⟩

def run (calls : List (BaselineCall F)) : BaselineStore F := machine.after {} calls

/-! ## What is accepted -/

/-- Stable, healthy, acceptable in communication, and with a value for both readings. -/
def accepted (observation : BaselineObservation F) : Bool :=
  observation.stable && observation.healthy && observation.communicationAcceptable &&
    observation.inputPower.hasValue && observation.outputCurrent.hasValue

/-- The accepted observations whose level falls in the band, in order. -/
def acceptedIn (band : LevelBand) (calls : List (BaselineCall F)) : List (BaselineObservation F) :=
  (calls.filter fun call => accepted call.2 ∧ bandFor call.1 = band).map Prod.snd

variable (store : BaselineStore F) (level : UInt8) {observation : BaselineObservation F}

theorem update_of_not_accepted (h : accepted observation = false) :
    store.update level observation = (store, false) := by
  apply if_pos
  simpa only [accepted, Bool.and_eq_false_iff, Bool.or_eq_true, Bool.not_eq_true'] using h

theorem update_of_accepted (h : accepted observation = true) :
    store.update level observation =
      ({ bands := SlotSweep.put store.bands (bandFor level).index
          ((store.stats (bandFor level)).add observation) }, true) := by
  apply if_neg
  simpa only [accepted, Bool.and_eq_true, Bool.or_eq_true, Bool.not_eq_true', not_or,
    Bool.not_eq_false] using h

theorem update_snd (observation : BaselineObservation F) :
    (store.update level observation).2 = accepted observation := by
  cases h : accepted observation with
  | false => rw [store.update_of_not_accepted level h]
  | true => rw [store.update_of_accepted level h]

theorem stats_update (observation : BaselineObservation F) (band : LevelBand) :
    (store.update level observation).1.stats band =
      if accepted observation = true ∧ bandFor level = band then
        (store.stats band).add observation
      else store.stats band := by
  cases h : accepted observation with
  | false =>
      rw [store.update_of_not_accepted level h, if_neg]
      rintro ⟨hfalse, -⟩
      cases hfalse
  | true =>
      rw [store.update_of_accepted level h]
      change (SlotSweep.put store.bands _ _).get band.index = _
      rw [SlotSweep.put, SlotSweep.get_set]
      by_cases hband : bandFor level = band
      · rw [if_pos (congrArg _ hband), if_pos ⟨rfl, hband⟩, hband]
      · rw [if_neg (mt LevelBand.index_inj.1 hband), if_neg fun hboth => hband hboth.2]
        rfl

/-! ## The means of a band -/

def summary (observations : List (BaselineObservation F)) : BandStats F where
  count := UInt32.ofNat observations.length
  inputPowerMean := mean (observations.map (·.inputPower.value))
  outputCurrentMean := mean (observations.map (·.outputCurrent.value))

theorem summary_snoc [CharZero F] (observations : List (BaselineObservation F))
    (observation : BaselineObservation F) (hlt : observations.length + 1 < 2 ^ 32) :
    summary (observations ++ [observation]) = (summary observations).add observation := by
  have hcount : (UInt32.ofNat observations.length + 1).toNat = observations.length + 1 :=
    toNat_count_succ (UInt32.toNat_ofNat_of_lt' (Nat.lt_of_succ_lt hlt)) hlt
  have hlength : UInt32.ofNat (observations ++ [observation]).length =
      UInt32.ofNat observations.length + 1 := by
    rw [List.length_append, List.length_singleton, UInt32.ofNat_add]
    rfl
  rw [summary, hlength, List.map_append, List.map_append, List.map_singleton, List.map_singleton,
    mean_snoc, mean_snoc, List.length_map, List.length_map]
  simp only [BandStats.add, summary, hcount]

theorem foldl_add [CharZero F] (observations : List (BaselineObservation F))
    (hlt : observations.length < 2 ^ 32) :
    observations.foldl BandStats.add {} = summary observations := by
  induction observations using List.reverseRecOn with
  | nil => simp [summary]
  | append_singleton observations observation ih =>
      rw [List.length_append, List.length_singleton] at hlt
      rw [List.foldl_append, ih (Nat.lt_of_succ_lt hlt), summary_snoc _ _ hlt, List.foldl_cons,
        List.foldl_nil]

theorem length_acceptedIn_le (band : LevelBand) (calls : List (BaselineCall F)) :
    (acceptedIn band calls).length ≤ calls.length := by
  rw [acceptedIn, List.length_map]
  exact List.length_filter_le _ _

theorem stats_run [CharZero F] (calls : List (BaselineCall F)) (hlt : calls.length < 2 ^ 32)
    (band : LevelBand) : (run calls).stats band = summary (acceptedIn band calls) := by
  have hstep : ∀ (store : BaselineStore F) (call : BaselineCall F) (band : LevelBand),
      stats (machine.step store call).1 band =
        if accepted call.2 = true ∧ bandFor call.1 = band then (stats store band).add call.2
        else stats store band := fun store call => store.stats_update call.1 call.2
  have hslot := machine.slot_after (g := fun stats call => BandStats.add stats call.2) hstep {}
    calls band
  have hfresh : ({} : BaselineStore F).stats band = {} := Vector.getElem_replicate band.index.isLt
  rw [run, hslot, hfresh, ← foldl_add _ ((length_acceptedIn_le band calls).trans_lt hlt),
    acceptedIn, List.foldl_map]

theorem outputs_eq (store : BaselineStore F) (calls : List (BaselineCall F)) :
    machine.outputs store calls = calls.map fun call => accepted call.2 := by
  induction calls generalizing store with
  | nil => rfl
  | cons call calls ih =>
      rw [Machine.outputs_cons, ih, List.map_cons]
      congr 1
      exact store.update_snd call.1 call.2

/-- The bands hold the accepted observations of their levels and nothing else, every update
answers whether it was accepted, and one that was not changes nothing. -/
theorem baselines_of_accepted [CharZero F] (calls : List (BaselineCall F))
    (hlt : calls.length < 2 ^ 32) :
    (∀ band, ((run calls).sampleCount band).toNat = (acceptedIn band calls).length ∧
      (run calls).meanInputPower band =
        mean ((acceptedIn band calls).map (·.inputPower.value)) ∧
      (run calls).meanOutputCurrent band =
        mean ((acceptedIn band calls).map (·.outputCurrent.value))) ∧
      machine.outputs {} calls = calls.map (fun call => accepted call.2) ∧
      ∀ (store : BaselineStore F) (level : UInt8) (observation : BaselineObservation F),
        (accepted observation = false → store.update level observation = (store, false)) ∧
          ∀ band, band ≠ bandFor level →
            (store.update level observation).1.stats band = store.stats band := by
  refine ⟨fun band => ?_, outputs_eq {} calls, fun store level observation => ⟨?_, ?_⟩⟩
  · have hstats := stats_run calls hlt band
    have hlength := (length_acceptedIn_le band calls).trans_lt hlt
    refine ⟨?_, congrArg BandStats.inputPowerMean hstats,
      congrArg BandStats.outputCurrentMean hstats⟩
    rw [sampleCount, hstats]
    exact UInt32.toNat_ofNat_of_lt' hlength
  · exact store.update_of_not_accepted level
  · intro band hband
    rw [stats_update, if_neg fun hboth => hband hboth.2.symm]

/-- Two samples of the highest band with an unhealthy one and one of another band between them. -/
theorem baselines_of_accepted_mixed :
    let sample : ℚ → BaselineObservation ℚ := fun power =>
      ⟨true, true, true, .valid power 0 0, .valid 2 0 0⟩
    let calls : List (BaselineCall ℚ) :=
      [(100, sample 100), (100, { sample 999 with healthy := false }), (40, sample 50),
        (81, sample 104)]
    ((run calls).sampleCount .band5).toNat = 2 ∧ (run calls).meanInputPower .band5 = 102 ∧
      machine.outputs {} calls = [true, false, true, true] := by
  intro sample calls
  obtain ⟨hbands, houtputs, -⟩ := baselines_of_accepted calls (by norm_num [calls])
  obtain ⟨hcount, hpower, -⟩ := hbands .band5
  refine ⟨hcount, ?_, houtputs⟩
  rw [hpower]
  change mean [(100 : ℚ), 104] = 102
  norm_num [mean]

end BaselineStore

end DaliEdge
