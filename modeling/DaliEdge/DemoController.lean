import DaliEdge.EventManager
import DaliEdge.C6Session
import DaliEdge.DeviceManager
import DaliEdge.LightHealth

/-!
# The demo controller

Four lights, one of which is away in every other interval of two seconds. A step scans the
lights, raises an event for each change and for each fault, and publishes the events that the
event manager forwards. The flags that a scan shares with the whole process are kept with the
controller.
-/

namespace DaliEdge

/-- A light that is asked for its presence does not answer in these intervals. -/
def DemoController.away (nowMs : UInt64) : Bool := nowMs / 2000 % 2 = 1

structure DemoQueryClient where
  nowMs : UInt64 := 0
  deriving DecidableEq

def DemoQueryClient.query (client : DemoQueryClient) (address : ShortAddress)
    (command : DaliCommand) : DaliQueryResult :=
  if address.value > 3 || (address.value = 3 && command = .queryControlGearPresent &&
      DemoController.away client.nowMs) then
    ⟨.noResponse, .temporarilyUnavailable 0, 1, .timeout⟩
  else ⟨.ok, .valid 0 client.nowMs 0, 1, .ok⟩

def demoQueryClient : IDaliQueryClient DemoQueryClient where
  query address command _ client := (client.query address command, client)

structure MockC6Transport where
  lastFrame : List UInt8 := List.replicate FrameCodec.kMaximumEncodedSize 0
  lastLength : ℕ := 0
  sentCount : ℕ := 0
  deriving DecidableEq

def mockC6Transport : IC6Transport MockC6Transport where
  send bytes length transport :=
    if length > FrameCodec.kMaximumEncodedSize then (false, transport)
    else (true, ⟨bytes.take length ++ transport.lastFrame.drop length, length,
      transport.sentCount + 1⟩)

def LightEventType.code : LightEventType → UInt8
  | .deviceDiscovered => 0
  | .deviceReplaced => 1
  | .deviceMissing => 2
  | .deviceRecovered => 3
  | .lampFailure => 4
  | .controlGearFailure => 5
  | .possibleLampFailure => 6
  | .daliBusFailure => 7
  | .daliBusRecovered => 8
  | .communicationDegraded => 9
  | .communicationRecovered => 10
  | .thermalWarning => 11
  | .thermalCritical => 12
  | .electricalDrift => 13
  | .intermittentFault => 14
  | .healthScoreChanged => 15
  | .serviceRecommended => 16
  | .baselineEstablished => 17
  | .baselineReset => 18

structure DemoController where
  client : DemoQueryClient := {}
  registry : DaliDeviceRegistry := {}
  duplicateReported : Vector Bool 64
  events : EventManager := {}
  c6 : C6Link MockC6Transport := .initial 3 {}
  health : Vector LightHealthEngine 4 := Vector.replicate 4 {}
  discoveredLights : ℕ := 0

/-- What a step found and what it published. -/
structure DemoReport where
  changes : DiscoveryBatch
  published : List C6Record

namespace DemoController

/-- The controller as it is built, in a process whose flags may have been used. -/
def started (duplicateReported : Vector Bool 64) : DemoController := { duplicateReported }

/-- The frame in which an event is published. -/
def eventFrame (event : LightEvent) : Frame where
  type := .lightEvent
  payload := (((Vector.replicate 240 0).setIfInBounds 0 event.shortAddress).setIfInBounds 1
    event.type.code).setIfInBounds 2 event.severity.code
  payloadLength := 3

def publish (demo : DemoController) (event : LightEvent) : DemoController × C6Record :=
  let published := (C6Link.machine mockC6Transport).step demo.c6 (.publish (eventFrame event))
  ({ demo with c6 := published.1 }, published.2)

/-- Raise an event, and publish it if the event manager forwards it. -/
def announce (demo : DemoController) (event : LightEvent) : DemoController × Option C6Record :=
  let raised := demo.events.raise event
  let demo := { demo with events := raised.1 }
  if raised.2.isSome then
    let published := demo.publish event
    (published.1, some published.2)
  else (demo, none)

/-! ## The changes of a scan -/

def changeEventType : DiscoveryChangeType → LightEventType
  | .deviceMissing => .deviceMissing
  | .deviceRecovered => .deviceRecovered
  | _ => .deviceDiscovered

def changeEvent (nowMs : UInt64) (change : DiscoveryChange) : LightEvent where
  shortAddress := change.address.value
  timestamp := nowMs
  type := changeEventType change.type
  severity := if changeEventType change.type = .deviceMissing then .critical else .info

def reporting (nowMs : UInt64) : Machine DemoController DiscoveryChange (Option C6Record) where
  step demo change :=
    let announced := demo.announce (changeEvent nowMs change)
    if change.type = .deviceDiscovered then
      ({ announced.1 with discoveredLights := announced.1.discoveredLights + 1 }, announced.2)
    else announced

/-! ## The faults of the lights -/

def observation (nowMs : UInt64) (light : Fin 4) : HealthObservation where
  commandedOn := true
  lampFailure := light = 1
  thermalWarning := light = 2 && nowMs ≥ 1000
  intermittentFault := light = 3 && away nowMs

/-- The event of a light that the observation finds at fault. -/
def faultEvent (nowMs : UInt64) (light : Fin 4) (evaluation : HealthEvaluation) : LightEvent :=
  let observation := observation nowMs light
  { shortAddress := UInt8.ofNat light
    timestamp := nowMs
    healthScore := evaluation.healthScore
    activeFaultFlags := evaluation.activeFaultFlags
    type := if observation.lampFailure then .lampFailure
      else if observation.thermalWarning then .thermalWarning else .intermittentFault
    severity := if observation.lampFailure then .critical else .warning }

/-- The body of the loop over the four lights. -/
def checking (nowMs : UInt64) : Machine DemoController (Fin 4) (Option C6Record) where
  step demo light :=
    let observation := observation nowMs light
    let evaluated := (demo.health.get light).evaluate observation
    let demo := { demo with health := demo.health.set light evaluated.2 }
    if observation.lampFailure || observation.thermalWarning || observation.intermittentFault then
      demo.announce (faultEvent nowMs light evaluated.1)
    else (demo, none)

/-! ## Steps -/

def scan (demo : DemoController) (nowMs : UInt64) : DeviceManager.PresenceScan DemoQueryClient :=
  DeviceManager.scanPresence demoQueryClient nowMs demo.duplicateReported demo.registry ⟨nowMs⟩

def scanned (demo : DemoController) (nowMs : UInt64) : DemoController :=
  { demo with
    client := (demo.scan nowMs).client
    registry := (demo.scan nowMs).registry
    duplicateReported := (demo.scan nowMs).duplicateReported }

def step (demo : DemoController) (nowMs : UInt64) : DemoController × DemoReport :=
  let changes := (demo.scan nowMs).batch
  let reported := (reporting nowMs).after (demo.scanned nowMs) changes.changes
  let forwarded := (reporting nowMs).outputs (demo.scanned nowMs) changes.changes
  let checked := (checking nowMs).outputs reported (List.finRange 4)
  ((checking nowMs).after reported (List.finRange 4),
    ⟨changes, (forwarded ++ checked).reduceOption⟩)

def machine : Machine DemoController UInt64 DemoReport := ⟨step⟩

end DemoController

end DaliEdge
