import DaliEdge.QueryReadings
import DaliEdge.ScriptedBus
import Mathlib.Algebra.Order.Field.Basic
import Mathlib.Algebra.Order.Ring.Rat
import Mathlib.Data.Rat.Cast.Order
import Mathlib.Tactic.Linarith

/-!
# Start-up

The configuration comes from the build's menu, whose ranges leave four conditions for the check at
start-up. The retries that the check allows are those that a transaction allows, so behind the check
nothing can fail: the query of the self-check on the simulated PHY is sent once and answered.
-/

namespace DaliEdge

/-! ## The configuration -/

structure SmartLightConfig where
  daliTxGpio : ℤ := -1
  daliRxGpio : ℤ := -1
  busPowerGpio : ℤ := -1
  transceiverFaultGpio : ℤ := -1
  busVoltageAdcGpio : ℤ := -1
  busCurrentAdcGpio : ℤ := -1
  c6TxGpio : ℤ := -1
  c6RxGpio : ℤ := -1
  c6RtsGpio : ℤ := -1
  c6CtsGpio : ℤ := -1
  maximumLights : UInt8 := 64
  onStatusPollMs : UInt32 := 5000
  offStatusPollMs : UInt32 := 30000
  warningStatusPollMs : UInt32 := 2000
  maxCommandRetries : UInt8 := 3
  maximumNormalBusUtilisation : ℚ := 30 / 100
  maximumDiagnosticBusUtilisation : ℚ := 60 / 100
  temperatureWarningC : ℚ := 80
  temperatureCriticalC : ℚ := 90
  warningPersistenceSamples : UInt8 := 3
  faultPersistenceSamples : UInt8 := 5
  recoveryPersistenceSamples : UInt8 := 10
  c6Enabled : Bool := false
  demoEnabled : Bool := true
  anomalyInterfaceEnabled : Bool := false
  deriving DecidableEq

/-- A number of the menu, within the range that the menu gives it. -/
abbrev Setting (low high : ℕ) := { n : ℕ // low ≤ n ∧ n ≤ high }

/-- The menu of the build: its entries, their ranges and their defaults. -/
structure Kconfig where
  daliTxGpio : ℤ := -1
  daliRxGpio : ℤ := -1
  busPowerGpio : ℤ := -1
  transceiverFaultGpio : ℤ := -1
  busVoltageAdcGpio : ℤ := -1
  busCurrentAdcGpio : ℤ := -1
  c6TxGpio : ℤ := -1
  c6RxGpio : ℤ := -1
  c6RtsGpio : ℤ := -1
  c6CtsGpio : ℤ := -1
  maxLights : Setting 1 64 := ⟨64, by decide⟩
  onStatusPollMs : Setting 100 3600000 := ⟨5000, by decide⟩
  offStatusPollMs : Setting 100 3600000 := ⟨30000, by decide⟩
  warningStatusPollMs : Setting 100 60000 := ⟨2000, by decide⟩
  maxCommandRetries : Setting 0 8 := ⟨3, by decide⟩
  normalBusUtilisationPercent : Setting 1 100 := ⟨30, by decide⟩
  diagnosticBusUtilisationPercent : Setting 1 100 := ⟨60, by decide⟩
  temperatureWarningC : Setting 0 200 := ⟨80, by decide⟩
  temperatureCriticalC : Setting 1 220 := ⟨90, by decide⟩
  warningPersistenceSamples : Setting 1 32 := ⟨3, by decide⟩
  faultPersistenceSamples : Setting 1 32 := ⟨5, by decide⟩
  recoveryPersistenceSamples : Setting 1 64 := ⟨10, by decide⟩
  c6Enable : Bool := false
  demoEnable : Bool := true
  anomalyInterfaceEnable : Bool := false

namespace SmartLightConfig

def kMaximumDaliLights : UInt8 := 64

def defaults : SmartLightConfig := {}

/-- The configuration of a build for the device; a build for the host has `defaults`. -/
def fromKconfig (menu : Kconfig) : SmartLightConfig where
  daliTxGpio := menu.daliTxGpio
  daliRxGpio := menu.daliRxGpio
  busPowerGpio := menu.busPowerGpio
  transceiverFaultGpio := menu.transceiverFaultGpio
  busVoltageAdcGpio := menu.busVoltageAdcGpio
  busCurrentAdcGpio := menu.busCurrentAdcGpio
  c6TxGpio := menu.c6TxGpio
  c6RxGpio := menu.c6RxGpio
  c6RtsGpio := menu.c6RtsGpio
  c6CtsGpio := menu.c6CtsGpio
  maximumLights := UInt8.ofNat menu.maxLights
  onStatusPollMs := UInt32.ofNat menu.onStatusPollMs
  offStatusPollMs := UInt32.ofNat menu.offStatusPollMs
  warningStatusPollMs := UInt32.ofNat menu.warningStatusPollMs
  maxCommandRetries := UInt8.ofNat menu.maxCommandRetries
  maximumNormalBusUtilisation := (menu.normalBusUtilisationPercent : ℕ) / 100
  maximumDiagnosticBusUtilisation := (menu.diagnosticBusUtilisationPercent : ℕ) / 100
  temperatureWarningC := (menu.temperatureWarningC : ℕ)
  temperatureCriticalC := (menu.temperatureCriticalC : ℕ)
  warningPersistenceSamples := UInt8.ofNat menu.warningPersistenceSamples
  faultPersistenceSamples := UInt8.ofNat menu.faultPersistenceSamples
  recoveryPersistenceSamples := UInt8.ofNat menu.recoveryPersistenceSamples
  c6Enabled := menu.c6Enable
  demoEnabled := menu.demoEnable
  anomalyInterfaceEnabled := menu.anomalyInterfaceEnable

variable (config : SmartLightConfig)

def lightCountValid : Bool :=
  config.maximumLights > 0 && config.maximumLights ≤ kMaximumDaliLights

def periodsValid : Bool :=
  config.onStatusPollMs > 0 && config.offStatusPollMs > 0 && config.warningStatusPollMs > 0

def retryValid : Bool := config.maxCommandRetries ≤ 8

def utilisationValid : Bool :=
  config.maximumNormalBusUtilisation > 0 && config.maximumNormalBusUtilisation ≤ 1 &&
    config.maximumDiagnosticBusUtilisation ≥ config.maximumNormalBusUtilisation &&
    config.maximumDiagnosticBusUtilisation ≤ 1

def temperatureValid : Bool := config.temperatureCriticalC > config.temperatureWarningC

def persistenceValid : Bool :=
  config.warningPersistenceSamples > 0 && config.faultPersistenceSamples > 0 &&
    config.recoveryPersistenceSamples > 0

def daliPinsDistinct : Bool :=
  config.daliTxGpio < 0 || config.daliRxGpio < 0 || config.daliTxGpio ≠ config.daliRxGpio

def c6PinsValid : Bool :=
  !config.c6Enabled ||
    (config.c6TxGpio ≥ 0 && config.c6RxGpio ≥ 0 && config.c6TxGpio ≠ config.c6RxGpio)

def validate : Bool :=
  config.lightCountValid && config.periodsValid && config.retryValid && config.utilisationValid &&
    config.temperatureValid && config.persistenceValid && config.daliPinsDistinct &&
    config.c6PinsValid

end SmartLightConfig

/-- What the ranges of the menu leave to be checked. -/
structure Kconfig.Consistent (menu : Kconfig) : Prop where
  utilisation : menu.normalBusUtilisationPercent ≤ menu.diagnosticBusUtilisationPercent.val
  temperature : menu.temperatureWarningC.val < menu.temperatureCriticalC
  dali_pins : menu.daliTxGpio < 0 ∨ menu.daliRxGpio < 0 ∨ menu.daliTxGpio ≠ menu.daliRxGpio
  c6_pins : menu.c6Enable = true →
    0 ≤ menu.c6TxGpio ∧ 0 ≤ menu.c6RxGpio ∧ menu.c6TxGpio ≠ menu.c6RxGpio

namespace SmartLightConfig

theorem fromKconfig_defaults : fromKconfig {} = defaults := by
  simp [fromKconfig, defaults]

theorem ofNat_pos {low high : ℕ} (n : Setting low high) (hlow : 0 < low) (hhigh : high < 256) :
    0 < UInt8.ofNat n := by
  obtain ⟨value, hle, hle'⟩ := n
  rw [UInt8.lt_iff_toNat_lt, UInt8.toNat_ofNat_of_lt' (hle'.trans_lt hhigh)]
  exact hlow.trans_le hle

theorem ofNat_le {low high : ℕ} (n : Setting low high) (hhigh : high < 256) :
    UInt8.ofNat n ≤ UInt8.ofNat high := by
  obtain ⟨value, -, hle⟩ := n
  rw [UInt8.le_iff_toNat_le, UInt8.toNat_ofNat_of_lt' (hle.trans_lt hhigh),
    UInt8.toNat_ofNat_of_lt' hhigh]
  exact hle

theorem period_pos {low high : ℕ} (n : Setting low high) (hlow : 0 < low)
    (hhigh : high < 4294967296) : 0 < UInt32.ofNat n := by
  obtain ⟨value, hle, hle'⟩ := n
  rw [UInt32.lt_iff_toNat_lt, UInt32.toNat_ofNat_of_lt' (hle'.trans_lt hhigh)]
  exact hlow.trans_le hle

variable (menu : Kconfig)

theorem checked_fromKconfig :
    (fromKconfig menu).lightCountValid = true ∧ (fromKconfig menu).periodsValid = true ∧
      (fromKconfig menu).retryValid = true ∧ (fromKconfig menu).persistenceValid = true := by
  unfold lightCountValid periodsValid retryValid persistenceValid fromKconfig
  simp only [Bool.and_eq_true, decide_eq_true_eq]
  refine ⟨⟨ofNat_pos _ ?_ ?_, ofNat_le _ ?_⟩, ⟨⟨period_pos _ ?_ ?_, period_pos _ ?_ ?_⟩,
    period_pos _ ?_ ?_⟩, ofNat_le _ ?_, ⟨ofNat_pos _ ?_ ?_, ofNat_pos _ ?_ ?_⟩, ofNat_pos _ ?_ ?_⟩
  all_goals norm_num

theorem utilisationValid_fromKconfig : (fromKconfig menu).utilisationValid = true ↔
    menu.normalBusUtilisationPercent ≤ menu.diagnosticBusUtilisationPercent.val := by
  obtain ⟨⟨normal, hnormal, hnormal'⟩, hmenu⟩ :
      ∃ n, menu.normalBusUtilisationPercent = n := ⟨_, rfl⟩
  obtain ⟨⟨diagnostic, hdiagnostic, hdiagnostic'⟩, hmenu'⟩ :
      ∃ n, menu.diagnosticBusUtilisationPercent = n := ⟨_, rfl⟩
  have hpos : (0 : ℚ) < normal := Nat.cast_pos.2 hnormal
  have hle : (normal : ℚ) ≤ 100 := by exact_mod_cast hnormal'
  have hle' : (diagnostic : ℚ) ≤ 100 := by exact_mod_cast hdiagnostic'
  unfold utilisationValid fromKconfig
  simp only [hmenu, hmenu', Bool.and_eq_true, decide_eq_true_eq]
  rw [ge_iff_le, div_le_div_iff_of_pos_right (by norm_num), Nat.cast_le]
  constructor
  · exact fun h => h.1.2
  · exact fun h => ⟨⟨⟨div_pos hpos (by norm_num), (div_le_one (by norm_num)).2 hle⟩, h⟩,
      (div_le_one (by norm_num)).2 hle'⟩

theorem validate_fromKconfig : (fromKconfig menu).validate = true ↔ menu.Consistent := by
  obtain ⟨hcount, hperiods, hretries, hpersistence⟩ := checked_fromKconfig menu
  have hutilisation := utilisationValid_fromKconfig menu
  have htemperature : (fromKconfig menu).temperatureValid = true ↔
      menu.temperatureWarningC.val < menu.temperatureCriticalC := by
    rw [temperatureValid, decide_eq_true_iff]
    exact Nat.cast_lt
  have hpins : (fromKconfig menu).daliPinsDistinct = true ↔
      menu.daliTxGpio < 0 ∨ menu.daliRxGpio < 0 ∨ menu.daliTxGpio ≠ menu.daliRxGpio := by
    simp only [daliPinsDistinct, Bool.or_eq_true, decide_eq_true_eq, or_assoc]
    rfl
  have hc6 : (fromKconfig menu).c6PinsValid = true ↔ (menu.c6Enable = true →
      0 ≤ menu.c6TxGpio ∧ 0 ≤ menu.c6RxGpio ∧ menu.c6TxGpio ≠ menu.c6RxGpio) := by
    simp only [c6PinsValid, Bool.or_eq_true, Bool.and_eq_true, decide_eq_true_eq, Bool.not_eq_true',
      and_assoc, imp_iff_not_or, Bool.not_eq_true]
    rfl
  rw [validate, hcount, hperiods, hretries, hpersistence]
  simp only [Bool.and_eq_true, true_and, and_true, hutilisation, htemperature, hpins, hc6]
  constructor
  · rintro ⟨⟨⟨hu, ht⟩, hd⟩, hc⟩
    exact ⟨hu, ht, hd, hc⟩
  · rintro ⟨hu, ht, hd, hc⟩
    exact ⟨⟨⟨hu, ht⟩, hd⟩, hc⟩

end SmartLightConfig

/-! ## Start-up -/

inductive FoundationResult
  | ready | invalidConfiguration | phyInitialisationFailed | phyUnhealthy
  deriving DecidableEq

/-- On any PHY, given by its `init` and its `health`. -/
def initialiseFoundation {σ : Type*} (init : σ → PhyResult × σ) (health : σ → PhyHealth)
    (config : SmartLightConfig) (phy : σ) : FoundationResult × σ :=
  if !config.validate then (.invalidConfiguration, phy)
  else
    let r := init phy
    if r.1 ≠ .ok then (.phyInitialisationFailed, r.2)
    else
      let h := health r.2
      if !h.initialised || !h.busPowered || !h.transceiverHealthy || h.lineStuckHigh ||
          h.lineStuckLow then (.phyUnhealthy, r.2)
      else (.ready, r.2)

/-- Where `app_main` ends; the demo runs on for ever. -/
inductive AppOutcome
  | invalidConfiguration | noHardwarePhy | foundationFailed (result : FoundationResult)
  | setupFailed | queueFull | transactionFailed | responseInvalid | running
  deriving DecidableEq

section AppMain

variable {τ : Type*} (delay : IDelayProvider τ) (jitter : IJitterSource τ)

/-- The request of the self-check. -/
def selfCheckRequest (config : SmartLightConfig) (address : ShortAddress) : DaliRequest where
  frame := makeShortCommand address .queryStatus
  expectsResponse := true
  timeoutMs := 20
  maxRetries := config.maxCommandRetries
  priority := .normal
  deviceKey := address.value
  requestSequence := 1

/-- What the self-check makes of the processed request. -/
def selfCheckOutcome : Option ProcessedDaliRequest → AppOutcome
  | none => .transactionFailed
  | some processed =>
      match processed.result.status, processed.result.response with
      | .ok, some value =>
          let status := parseBasicStatus
            (makeBackwardResponse processed.result.lastPhyResult value)
          if !status.hasValue || !status.value.lampPowerOn then .responseInvalid else .running
      | _, _ => .transactionFailed

def selfCheck (config : SmartLightConfig) (address : ShortAddress)
    (st : Station (SimulatedDaliPhy × τ)) : AppOutcome × Station (SimulatedDaliPhy × τ) :=
  let enqueued := st.enqueue (selfCheckRequest config address)
  if enqueued.1 ≠ .ok then (.queueFull, enqueued.2)
  else
    let processed := enqueued.2.processNext (SimulatedDaliPhy.service delay jitter)
    (selfCheckOutcome processed.1, processed.2)

/-- The station of `app_main` with another state of its PHY. -/
def Station.withPhy (st : Station (SimulatedDaliPhy × τ)) (phy : SimulatedDaliPhy) :
    Station (SimulatedDaliPhy × τ) :=
  { st with bus.state.1 := phy }

def appMain (config : SmartLightConfig) (st : Station (SimulatedDaliPhy × τ)) :
    AppOutcome × Station (SimulatedDaliPhy × τ) :=
  if !config.validate then (.invalidConfiguration, st)
  else if !config.demoEnabled then (.noHardwarePhy, st)
  else
    let founded := initialiseFoundation SimulatedDaliPhy.init SimulatedDaliPhy.health config
      st.bus.state.1
    if founded.1 ≠ .ready then (.foundationFailed founded.1, st.withPhy founded.2)
    else
      match ShortAddress.fromRaw 3 with
      | none => (.setupFailed, st.withPhy founded.2)
      | some address =>
          let prepared := founded.2.enqueueResponse { result := .ok, value := 0x04 }
          if prepared.1 ≠ .ok then (.setupFailed, st.withPhy prepared.2)
          else selfCheck delay jitter config address (st.withPhy prepared.2)

variable {config : SmartLightConfig} {address : ShortAddress}

theorem admissible_selfCheckRequest (h : config.retryValid = true) :
    (selfCheckRequest config address).Admissible :=
  ⟨(by decide : (20 : UInt32) ≠ 0), of_decide_eq_true h⟩

theorem events_of_first_answer (request : DaliRequest) {bus : Bus (SimulatedDaliPhy × τ)}
    (hreads : bus.state.1.outlook.Reads request) {response : SimulatedResponse}
    (hresponse : bus.state.1.outlook.response request 0 = some response)
    (hresult : response.result = .ok) :
    (SimulatedDaliPhy.service delay jitter).transactionEvents request bus 0 =
      [.transmit request.frame.raw .ok, .receive request.timeoutMs .ok response.value] := by
  obtain ⟨hrefusal, hexpects⟩ := hreads
  have htransmit : (SimulatedDaliPhy.service delay jitter).transmitResult request bus = .ok :=
    congrArg Prod.fst (SimulatedDaliPhy.transmit_of_accepted request.frame.raw hrefusal)
  obtain ⟨-, houtcome, hvalue⟩ := SimulatedDaliPhy.exchange_attempted request delay jitter bus
  have hok : bus.state.1.outlook.outcome request 0 = .ok := by
    rw [Outlook.outcome, hrefusal, hresponse]
    simp only [hexpects, if_true]
    exact hresult
  have hreceive : (SimulatedDaliPhy.service delay jitter).receiveResult request bus =
      (.ok, response.value) := by
    have hfirst := houtcome.trans hok
    have hsecond := hvalue hfirst hexpects
    rw [DaliTransactionService.outcome, if_pos ⟨htransmit, hexpects⟩] at hfirst
    rw [hresponse] at hsecond
    exact Prod.ext hfirst (Option.some.inj hsecond).symm
  have hattempt : (SimulatedDaliPhy.service delay jitter).attemptEvents request bus =
      [.transmit request.frame.raw .ok, .receive request.timeoutMs .ok response.value] := by
    rw [DaliTransactionService.attemptEvents, htransmit, hreceive, if_pos ⟨rfl, hexpects⟩]
  exact hattempt

theorem last_selfCheckRequest {outlook : Outlook}
    (h : outlook.outcome (selfCheckRequest config address) 0 = .ok) :
    outlook.last (selfCheckRequest config address) = 0 := by
  unfold Outlook.last
  cases (selfCheckRequest config address).maxRetries.toNat with
  | zero => rfl
  | succ n =>
      simp only [List.range_succ_eq_map, List.find?_cons, h]
      rfl

variable (address) in
theorem selfCheck_of_idle {st : Station (SimulatedDaliPhy × τ)} (hidle : st.Idle) :
    ∃ st', selfCheck delay jitter config address st =
        (selfCheckOutcome (some ⟨selfCheckRequest config address,
          ((SimulatedDaliPhy.service delay jitter).execute (selfCheckRequest config address)
            st.bus).1⟩), st') ∧
      st'.Idle ∧ st'.bus = ((SimulatedDaliPhy.service delay jitter).execute
        (selfCheckRequest config address) st.bus).2 := by
  obtain ⟨st', htransact, hidle', hbus⟩ := Station.transact_of_idle
    (SimulatedDaliPhy.service delay jitter) (selfCheckRequest config address) hidle
  rw [Station.transact_of_lt _ _ st hidle.count_lt, Prod.mk.injEq] at htransact
  have hok := (st.enqueue_ok_iff (selfCheckRequest config address)).2 hidle.count_lt
  refine ⟨st', ?_, hidle', hbus⟩
  simp only [selfCheck, hok, ne_eq, not_true_eq_false, if_false, htransact.2]

variable (address) in
/-- On an idle pipeline, over a PHY that refuses no transmit and whose next response reports in time
that the lamp is on, the self-check passes, with one transmit. -/
theorem selfCheck_passes (hretries : config.retryValid = true)
    {st : Station (SimulatedDaliPhy × τ)} (hidle : st.Idle) {response : SimulatedResponse}
    {script : List SimulatedResponse}
    (houtlook : st.bus.state.1.outlook = ⟨none, response :: script⟩)
    (hresult : response.result = .ok) (hdelay : response.delayMs ≤ 20)
    (hlamp : response.value &&& 0x04 ≠ 0) :
    let checked := selfCheck delay jitter config address st
    checked.1 = .running ∧ checked.2.Idle ∧
      Bus.Extends st.bus checked.2.bus [.transmit (makeShortCommand address .queryStatus).raw .ok,
        .receive 20 .ok response.value] ∧
      checked.2.bus.state.1.outlook = ⟨none, script⟩ := by
  intro checked
  have hadmissible : (selfCheckRequest config address).Admissible :=
    admissible_selfCheckRequest hretries
  have hin : response.inTime (selfCheckRequest config address).timeoutMs = true :=
    decide_eq_true hdelay
  have hreads : st.bus.state.1.outlook.Reads (selfCheckRequest config address) := by
    rw [houtlook]
    exact ⟨rfl, rfl⟩
  have hresponse : st.bus.state.1.outlook.response (selfCheckRequest config address) 0 =
      some response := by
    rw [Outlook.response, houtlook, Script.read_zero, List.head?_cons, Option.filter_some, if_pos hin]
  have houtcome : st.bus.state.1.outlook.outcome (selfCheckRequest config address) 0 = .ok := by
    rw [Outlook.outcome, hresponse, houtlook]
    exact hresult
  have hlast := last_selfCheckRequest houtcome
  obtain ⟨hreport, hattempted⟩ := SimulatedDaliPhy.execute_on_script
    (selfCheckRequest config address) delay jitter hadmissible st.bus
  obtain ⟨-, hextends⟩ := (SimulatedDaliPhy.service delay jitter).execute_eq
    (selfCheckRequest config address) st.bus hadmissible
    ((SimulatedDaliPhy.lastAttempt_eq _ delay jitter st.bus).trans hlast)
  obtain ⟨st', hchecked, hidle', hbus⟩ := selfCheck_of_idle delay jitter address hidle
  have hoks : st.bus.state.1.outlook.report (selfCheckRequest config address) =
      { status := .ok, response := some response.value, attempts := 1, lastPhyResult := .ok } := by
    rw [Outlook.report, hlast, houtcome, hresponse]
    rfl
  have hevents := events_of_first_answer delay jitter (selfCheckRequest config address) hreads
    hresponse hresult
  change checked = _ at hchecked
  rw [hchecked]
  rw [hoks] at hreport
  refine ⟨?_, hidle', ?_, ?_⟩
  · rw [hreport]
    have hlampOn : decide (response.value &&& 0x04 ≠ 0) = true := decide_eq_true hlamp
    change (if (!true || !decide (response.value &&& 0x04 ≠ 0)) = true then AppOutcome.responseInvalid
      else .running) = .running
    rw [hlampOn]
    rfl
  · rw [hbus]
    rw [hevents] at hextends
    exact hextends
  · rw [hbus, hattempted.outlook, Outlook.after, if_pos hreads, hlast, houtlook,
      Script.rest_succ_cons hin, Script.rest_zero]

/-- The PHY of the self-check: initialised, with its one response. -/
def preparedPhy (phy : SimulatedDaliPhy) : SimulatedDaliPhy :=
  (SimulatedDaliPhy.enqueueResponse { result := .ok, value := 0x04 } phy.init.2).2

theorem appMain_of_valid (hvalid : config.validate = true) (hdemo : config.demoEnabled = true)
    (state : τ) :
    appMain delay jitter config (Station.initial ({}, state)) =
      selfCheck delay jitter config ⟨3, by decide⟩
        ((Station.initial ({}, state)).withPhy (preparedPhy {})) := by
  unfold appMain initialiseFoundation
  rw [hvalid, hdemo]
  rfl

/-- Every build that the menu allows ends its start-up in one of three ways. A configuration that
fails the check and one without the demo leave the PHY alone; any other runs, after a self-check
that takes one transmit and no retry. -/
theorem appMain_starts (menu : Kconfig) (state : τ) :
    let started := appMain delay jitter (.fromKconfig menu) (Station.initial ({}, state))
    (started.1 = .invalidConfiguration ↔ ¬ menu.Consistent) ∧
      (started.1 = .noHardwarePhy ↔ menu.Consistent ∧ menu.demoEnable = false) ∧
      (started.1 = .running ↔ menu.Consistent ∧ menu.demoEnable = true) ∧
      started.2.Idle ∧
      started.2.bus.trace =
        (if started.1 = .running then [.transmit 0x0790 .ok, .receive 20 .ok 0x04] else []) ∧
      started.2.bus.state.1.held = [] := by
  intro started
  have hvalidate := SmartLightConfig.validate_fromKconfig menu
  by_cases hconsistent : menu.Consistent
  · have hvalid := hvalidate.2 hconsistent
    have hretries := (SmartLightConfig.checked_fromKconfig menu).2.2.1
    cases hdemo : menu.demoEnable with
    | false =>
        have hstarted : started = (.noHardwarePhy, Station.initial ({}, state)) := by
          have hoff : (SmartLightConfig.fromKconfig menu).demoEnabled = false := hdemo
          simp only [started, appMain, hvalid, hoff, Bool.not_true, Bool.not_false, if_true,
            Bool.false_eq_true, if_false]
        rw [hstarted]
        simp only [hconsistent, reduceCtorEq, not_true_eq_false, true_and, and_false, if_false,
          Bool.false_eq_true]
        exact ⟨rfl, rfl, rfl⟩
    | true =>
        have hstarted := appMain_of_valid delay jitter hvalid hdemo state
        have hprepared : ((Station.initial ({}, state)).withPhy
            (preparedPhy {})).bus.state.1.outlook = ⟨none, [{ result := .ok, value := 0x04 }]⟩ := rfl
        have hstation : ((Station.initial ({}, state)).withPhy (preparedPhy {})).Idle := rfl
        obtain ⟨hrunning, hidle, hextends, houtlook⟩ := selfCheck_passes delay jitter
          ⟨3, by decide⟩ hretries hstation hprepared rfl (by decide) (by decide)
        rw [← hstarted] at hrunning hidle hextends houtlook
        change started.1 = .running at hrunning
        rw [hrunning]
        simp only [hconsistent, reduceCtorEq, not_true_eq_false, true_and, and_false, if_true,
          Bool.true_eq_false]
        exact ⟨hidle, hextends, congrArg Outlook.script houtlook⟩
  · have hinvalid : (SmartLightConfig.fromKconfig menu).validate = false :=
      Bool.eq_false_iff.2 fun h => hconsistent (hvalidate.1 h)
    have hstarted : started = (.invalidConfiguration, Station.initial ({}, state)) := by
      simp only [started, appMain, hinvalid, Bool.not_false, if_true]
    rw [hstarted]
    simp only [hconsistent, reduceCtorEq, not_false_eq_true, false_and, if_false]
    exact ⟨trivial, trivial, trivial, rfl, rfl, rfl⟩

end AppMain

end DaliEdge
