import DaliEdge.Acknowledgements
import DaliEdge.AlarmBoard
import DaliEdge.AlarmCapacity
import DaliEdge.AlarmIdentity
import DaliEdge.AlarmLog
import DaliEdge.AlarmMap
import DaliEdge.AlarmReplay
import DaliEdge.Attempts
import DaliEdge.BaselineEngine
import DaliEdge.BusMessages
import DaliEdge.BusWideFaults
import DaliEdge.ByteBuffer
import DaliEdge.C6Session
import DaliEdge.CallTimes
import DaliEdge.Capabilities
import DaliEdge.CapabilityProbes
import DaliEdge.CapabilityRuns
import DaliEdge.ClientCalls
import DaliEdge.ClientSimulation
import DaliEdge.CommandQueue
import DaliEdge.ControlDelivery
import DaliEdge.DemoController
import DaliEdge.DemoEvents
import DaliEdge.DemoLifecycle
import DaliEdge.DemoLights
import DaliEdge.DemoOutages
import DaliEdge.DemoPeer
import DaliEdge.DeviceManager
import DaliEdge.DeviceReadings
import DaliEdge.Drains
import DaliEdge.DueTimes
import DaliEdge.EventHistory
import DaliEdge.EventManager
import DaliEdge.FailureFigure
import DaliEdge.FaultPersistence
import DaliEdge.FaultyBus
import DaliEdge.FaultyScans
import DaliEdge.ForwardFrame
import DaliEdge.Foundation
import DaliEdge.FrameCodec
import DaliEdge.FrameErrors
import DaliEdge.FrameLayout
import DaliEdge.FrameRoundTrip
import DaliEdge.FrameSafety
import DaliEdge.FrameStreams
import DaliEdge.HealthScores
import DaliEdge.History
import DaliEdge.HistoryDamage
import DaliEdge.Hysteresis
import DaliEdge.Latches
import DaliEdge.LcgJitter
import DaliEdge.Lifecycle
import DaliEdge.LightHealth
import DaliEdge.LinearCongruential
import DaliEdge.Machine
import DaliEdge.ManagerIsolation
import DaliEdge.MissedAnswers
import DaliEdge.NvsStore
import DaliEdge.Outages
import DaliEdge.Ownership
import DaliEdge.Phy
import DaliEdge.Pipeline
import DaliEdge.PipelineAccounts
import DaliEdge.PollRates
import DaliEdge.PollTurns
import DaliEdge.PollWaits
import DaliEdge.PresenceRuns
import DaliEdge.QualityCounters
import DaliEdge.QueryLog
import DaliEdge.QueryReadings
import DaliEdge.QueueRuns
import DaliEdge.RecordInvariant
import DaliEdge.RegisterBytes
import DaliEdge.RegistryInvariant
import DaliEdge.Reminders
import DaliEdge.RetryLoop
import DaliEdge.RetryPauses
import DaliEdge.RingBuffer
import DaliEdge.RollingBaseline
import DaliEdge.RoundRobin
import DaliEdge.RunningMeans
import DaliEdge.ScanEffects
import DaliEdge.ScanSlots
import DaliEdge.ScanTimes
import DaliEdge.Scheduler
import DaliEdge.Script
import DaliEdge.ScriptedBus
import DaliEdge.ScriptedScans
import DaliEdge.SelfDelimiting
import DaliEdge.SequenceNumbers
import DaliEdge.Severity
import DaliEdge.ShiftRegister
import DaliEdge.SimulatedPhy
import DaliEdge.SimulatorBench
import DaliEdge.SlotSweep
import DaliEdge.SlotTable
import DaliEdge.StableQueue
import DaliEdge.SupportedFeatures
import DaliEdge.SystemMonitor
import DaliEdge.TimeSource
import DaliEdge.Transaction
import DaliEdge.TrendAverages
import DaliEdge.TrendEngine
import DaliEdge.TrendWindows
import DaliEdge.Types
import DaliEdge.WordBytes
