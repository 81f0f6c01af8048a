import LoraRan.Bridge.LoraRuns
import LoraRan.Bridge.LoraLink
import LoraRan.Link.MediaAccess
import LoraRan.Bridge.HexBudget
import LoraRan.Bridge.RollGate
import LoraRan.Bridge.PathTurns
import LoraRan.Bridge.AirTurn
import LoraRan.Bridge.ConfigStrict
import LoraRan.Bridge.ConfigSyntax
import LoraRan.Bridge.ConfigJson
import LoraRan.Library.JsonLocal
import LoraRan.Bridge.HexAudit
import LoraRan.Node.ConfigAnswers
import LoraRan.Config.Readback
import LoraRan.Library.GreedyCut
import LoraRan.Bridge.CellDeadband
import LoraRan.Bridge.StatusDocuments
import LoraRan.Bridge.JsonDocument
import LoraRan.Bridge.EventOnce
import LoraRan.Bridge.Publish
import LoraRan.Bridge.PublishTables
import LoraRan.Bridge.NodeAvailability
import LoraRan.Bridge.UtcText
import LoraRan.Library.Calendar
import LoraRan.Config.BlobVersions
import LoraRan.System.AwaitedReplies
import LoraRan.GateLink.TxGate
import LoraRan.Protocol.SchemaTrip
import LoraRan.Protocol.Schemas
import LoraRan.Library.ByteStream
import LoraRan.System.OwedReports
import LoraRan.Node.SendWhole
import LoraRan.Node.Handover
import LoraRan.Node.Reports
import LoraRan.Protocol.Deliveries
import LoraRan.Bridge.PollFairness
import LoraRan.Protocol.CrcDetects
import LoraRan.GateLink.HoldHistory
import LoraRan.GateLink.HoldSteps
import LoraRan.GateLink.DetectionIds
import LoraRan.GateLink.HeldAlerts
import LoraRan.Library.Occurrence
import LoraRan.GateLink.Detections
import LoraRan.GateLink.ChargeSpans
import LoraRan.GateLink.AppTask
import LoraRan.GateLink.GateState
import LoraRan.GateLink.DetectSteps
import LoraRan.GateLink.BmsReadings
import LoraRan.BmsBle.Reassembly
import LoraRan.BmsBle.TdtProtocol
import LoraRan.GateLink.TextReadings
import LoraRan.Bridge.HexClass
import LoraRan.VeDirect.HexCodec
import LoraRan.Bridge.JsonWriter
import LoraRan.Library.JsonText
import LoraRan.Library.Json
import LoraRan.Bridge.IntakeRuns
import LoraRan.Bridge.CommandIntake
import LoraRan.Bridge.MqttIntake
import LoraRan.Bridge.PhyOnFlash
import LoraRan.Bridge.PhyPersisted
import LoraRan.Bridge.NvsPersist
import LoraRan.Bridge.ClampedValues
import LoraRan.Protocol.ConfigTrip
import LoraRan.Bridge.ConfigStore
import LoraRan.GateLink.TrueSpacing
import LoraRan.Config.PersistHonest
import LoraRan.Config.StoreRuns
import LoraRan.System.HexAnswers
import LoraRan.GateLink.HexSlots
import LoraRan.Node.HexMoves
import LoraRan.GateLink.StatusAges
import LoraRan.GateLink.ChargeInhibit
import LoraRan.GateLink.Detect
import LoraRan.GateLink.Readings
import LoraRan.VeDirect.Mppt
import LoraRan.GateLink.SdConfig
import LoraRan.GateLink.ConfigText
import LoraRan.Bridge.ReadbackAnswers
import LoraRan.Bridge.ConfigPath
import LoraRan.Bridge.PhyEvidence
import LoraRan.Bridge.PhyChange
import LoraRan.Node.PhyFlash
import LoraRan.Config.BlobTrip
import LoraRan.Node.BoardMembers
import LoraRan.Node.IdleGroup
import LoraRan.Node.PhyBoard
import LoraRan.Config.Overrides
import LoraRan.VeDirect.Resync
import LoraRan.VeDirect.TextStream
import LoraRan.Bridge.ContextRoll
import LoraRan.Bridge.Tasks
import LoraRan.GateLink.BootAlarms
import LoraRan.GateLink.AlarmWatch
import LoraRan.System.ForwardedWrites
import LoraRan.System.AckContext
import LoraRan.Node.HexServing
import LoraRan.Bridge.PeerIsolation
import LoraRan.Bridge.NoSilentDiscard
import LoraRan.Protocol.BoundedReads
import LoraRan.Library.CheckedReads
import LoraRan.Bridge.RxLadder
import LoraRan.Protocol.FragmentTrip
import LoraRan.Protocol.IndexMap
import LoraRan.Library.Ring
import LoraRan.Protocol.DedupRule
import LoraRan.Library.ReplayWindow
import LoraRan.System.CommandProgress
import LoraRan.System.OutcomeAgreement
import LoraRan.System.AtMostOnce
import LoraRan.System.CommandLink
import LoraRan.Node.Commanding
import LoraRan.System.ChargerWrites
import LoraRan.GateLink.HexPipeline
import LoraRan.GateLink.GateLinkApp
import LoraRan.GateLink.VedLink
import LoraRan.System.Authenticated
import LoraRan.Node.Provenance
import LoraRan.Node.Acts
import LoraRan.Node.Sends
import LoraRan.Protocol.FragmentMap
import LoraRan.Node.Engine
import LoraRan.Protocol.RoundTrip
import LoraRan.GateLink.IoTask
import LoraRan.GateLink.IoIntegrity
import LoraRan.Protocol.CommandGate
import LoraRan.Library.StepSystem
import LoraRan.Bridge.CommandPath
import LoraRan.Bridge.HexProxy
import LoraRan.System.SequenceDistinct
import LoraRan.Protocol.ChunkRule
import LoraRan.Bridge.LadderChunk
import LoraRan.System.ChunkTruth
