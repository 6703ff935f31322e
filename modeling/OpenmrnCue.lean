import OpenmrnCue.Library.Run
import OpenmrnCue.Library.Except
import OpenmrnCue.Library.Trace
import OpenmrnCue.Library.Lockstep
import OpenmrnCue.Library.StateFlow
import OpenmrnCue.Library.Sorted
import OpenmrnCue.Library.SlotTable
import OpenmrnCue.Library.Reconcile
import OpenmrnCue.Library.Regions
import OpenmrnCue.Library.TokenLine
import OpenmrnCue.Library.Interference
import OpenmrnCue.Library.LateBinding
import OpenmrnCue.Library.Buffer
import OpenmrnCue.Library.MapSum
import OpenmrnCue.Logic.Bytecode
import OpenmrnCue.Logic.Variable
import OpenmrnCue.Logic.VM
import OpenmrnCue.Logic.Symbol
import OpenmrnCue.Logic.AST
import OpenmrnCue.Logic.Semantics
import OpenmrnCue.Logic.Execution
import OpenmrnCue.Logic.ExpressionCorrect
import OpenmrnCue.Logic.ProgramCorrect
import OpenmrnCue.Logic.Driver
import OpenmrnCue.Logic.Parser
import OpenmrnCue.Logic.Static
import OpenmrnCue.Logic.CallChecks
import OpenmrnCue.Logic.Emit
import OpenmrnCue.Logic.Sound
import OpenmrnCue.Logic.CallSites
import OpenmrnCue.Logic.SoundRun
import OpenmrnCue.Logic.StackAccounting
import OpenmrnCue.Logic.Scopes
import OpenmrnCue.Logic.Scoping
import OpenmrnCue.Logic.Runner
import OpenmrnCue.Logic.CreationRequests
import OpenmrnCue.Logic.ExportedVariables
import OpenmrnCue.CommandStation.TrackPower
import OpenmrnCue.CommandStation.UpdateProcessor
import OpenmrnCue.CommandStation.ExclusiveSource
import OpenmrnCue.CommandStation.UrgentUpdates
import OpenmrnCue.CommandStation.RailcomBroadcast
import OpenmrnCue.CommandStation.RailcomTimeouts
import OpenmrnCue.CommandStation.RailcomPresence
import OpenmrnCue.CommandStation.RailcomQueries
import OpenmrnCue.CommandStation.TrainNodeInfoCache
import OpenmrnCue.CommandStation.TrainListReplies
import OpenmrnCue.CommandStation.TrainListSearch
import OpenmrnCue.CommandStation.TrainListPaging
import OpenmrnCue.CommandStation.TrainListWindow
import OpenmrnCue.CommandStation.TrainListOverflow
import OpenmrnCue.CommandStation.FindProtocolDefs
import OpenmrnCue.CommandStation.TrainAllocation
import OpenmrnCue.CommandStation.TrainConfigSpace
import OpenmrnCue.CommandStation.TrainDb
import OpenmrnCue.CommandStation.TrainNodes
import OpenmrnCue.CommandStation.TrainIndices
import OpenmrnCue.CommandStation.RemoteFindTrainNode
import OpenmrnCue.CommandStation.TrainSearchSteps
import OpenmrnCue.CommandStation.TrainSearchResults
import OpenmrnCue.CommandStation.FindProtocolServer
import OpenmrnCue.CommandStation.FindProtocolRequests
import OpenmrnCue.CommandStation.ProgrammingTrackFrontend
import OpenmrnCue.CommandStation.ServiceMode
import OpenmrnCue.CommandStation.ProgrammingTrackCVSpace
import OpenmrnCue.CommandStation.CvAccesses
import OpenmrnCue.Custom.DetectorPort
import OpenmrnCue.Custom.DetectorRest
import OpenmrnCue.Custom.DetectorRetries
import OpenmrnCue.Custom.SignalLoop
import OpenmrnCue.Automata.Operations
import OpenmrnCue.Automata.Machine
import OpenmrnCue.Automata.Runner
import OpenmrnCue.Automata.Decoding
import OpenmrnCue.Automata.Refinement
import OpenmrnCue.Automata.Imports
import OpenmrnCue.Automata.Board
import OpenmrnCue.Automata.Preamble
import OpenmrnCue.Automata.Table
import OpenmrnCue.Automata.Allocation
import OpenmrnCue.Automata.Identity
import OpenmrnCue.Automata.Track
import OpenmrnCue.Automata.Layout
import OpenmrnCue.Automata.Reservation
import OpenmrnCue.Automata.RouteExclusion
import OpenmrnCue.Automata.Binding
import OpenmrnCue.Automata.Signal
import OpenmrnCue.Automata.SignalsAhead
import OpenmrnCue.Server.PacketStream
import OpenmrnCue.MobileStation.MobileStationSlave
import OpenmrnCue.Logic.OlcbIntVariable
import OpenmrnCue.Logic.OlcbBindings
import OpenmrnCue.Automata.Line
import OpenmrnCue.Automata.LineTokens
import OpenmrnCue.Automata.LineSteps
import OpenmrnCue.Automata.LineRuns
import OpenmrnCue.Automata.EventBlock
import OpenmrnCue.Automata.Magnets
import OpenmrnCue.Automata.FlipFlop
import OpenmrnCue.Automata.TrainSchedule
import OpenmrnCue.Automata.SchedulePermaloc
import OpenmrnCue.Automata.ScheduleTransitions
import OpenmrnCue.Automata.ScheduleBinding
import OpenmrnCue.Automata.ScheduleDirections
import OpenmrnCue.Logic.BlockIndependence
import OpenmrnCue.Logic.CompiledBlocks
import OpenmrnCue.Logic.ItemStream
import OpenmrnCue.Logic.InstructionPointer
import OpenmrnCue.CommandStation.QueryMatching
import OpenmrnCue.CommandStation.QueryEncoding
import OpenmrnCue.CommandStation.PacketSpacing
import OpenmrnCue.Automata.Debounce
import OpenmrnCue.Automata.PluginWrites
import OpenmrnCue.Automata.RawDetector
import OpenmrnCue.Automata.RouteRequests
import OpenmrnCue.Automata.RouteReset
import OpenmrnCue.Automata.RouteResetPieces
import OpenmrnCue.Automata.RouteResetTurnouts
import OpenmrnCue.CommandStation.XmlGenerator
import OpenmrnCue.CommandStation.FdiXmlGenerator
import OpenmrnCue.CommandStation.TrainFDISpace
import OpenmrnCue.Custom.MCPCanFrameFormat
import OpenmrnCue.Custom.HostProtocol
import OpenmrnCue.Server.LayoutState
import OpenmrnCue.Server.TrainControlService
import OpenmrnCue.Server.LayoutMirror
import OpenmrnCue.Server.WaitForChange
import OpenmrnCue.CommandStation.FrontendRuns
import OpenmrnCue.CommandStation.ServiceModeResults
import OpenmrnCue.CommandStation.PomWrite
import OpenmrnCue.Custom.MemorizingEventHandler
import OpenmrnCue.DccMaster.Steps
import OpenmrnCue.DccMaster.BoosterRoom
import OpenmrnCue.DccMaster.RefreshTurns
import OpenmrnCue.DccMaster.ServiceMode
import OpenmrnCue.DccMaster.TableBounds
