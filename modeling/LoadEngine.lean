import LoadEngine.Benchmark.Codec
import LoadEngine.Json.Text
import LoadEngine.Proofs.ArenaCursors
import LoadEngine.Proofs.ArenaPlaces
import LoadEngine.Proofs.BranchBudget
import LoadEngine.Proofs.BranchTree
import LoadEngine.Proofs.ClosedPopulation
import LoadEngine.Proofs.ConcurrencyCeiling
import LoadEngine.Proofs.CountedOnce
import LoadEngine.Proofs.Dismissal
import LoadEngine.Proofs.FinalStatistics
import LoadEngine.Proofs.Fleet
import LoadEngine.Proofs.FleetBooks
import LoadEngine.Proofs.FleetPassages
import LoadEngine.Proofs.FleetSteps
import LoadEngine.Proofs.ForcedEnd
import LoadEngine.Proofs.ForksAndTimers
import LoadEngine.Proofs.HistogramSlots
import LoadEngine.Proofs.IterationCap
import LoadEngine.Proofs.LaneBooks
import LoadEngine.Proofs.Ledger
import LoadEngine.Proofs.Occurrences
import LoadEngine.Proofs.OrderedMap
import LoadEngine.Proofs.OwedStarts
import LoadEngine.Proofs.OwnResponse
import LoadEngine.Proofs.PhaseCourse
import LoadEngine.Proofs.PhaseLoads
import LoadEngine.Proofs.Recordings
import LoadEngine.Proofs.ShardDeeds
import LoadEngine.Proofs.ShardRun
import LoadEngine.Proofs.SlotAttempts
import LoadEngine.Proofs.SlotLog
import LoadEngine.Proofs.SlotMarks
import LoadEngine.Proofs.StaleTags
import LoadEngine.Proofs.TagNumbers
import LoadEngine.Proofs.TurnBooks
import LoadEngine.Proofs.TurnCauses
import LoadEngine.Proofs.TurnData
import LoadEngine.Proofs.TurnEvents
import LoadEngine.Proofs.TurnInvariant
import LoadEngine.Proofs.TurnPasses
import LoadEngine.Proofs.TurnRun
import LoadEngine.Proofs.TurnSettle
import LoadEngine.Proofs.TurnSteps
import LoadEngine.Proofs.WaitingOrder
import LoadEngine.Proofs.WholeScenario
import LoadEngine.Report.Codec
import LoadEngine.Session.Rehearsal
import LoadEngine.Simulation.Run
import LoadEngine.Simulation.Script
import LoadEngine.Proofs.Renumbering
import LoadEngine.Proofs.SlotReuse
import LoadEngine.Proofs.StreamedSearch
import LoadEngine.Proofs.SearchVerdicts
import LoadEngine.Proofs.ArrivalBooks
import LoadEngine.Proofs.MergeLaws
import LoadEngine.Proofs.LifecycleOrder
import LoadEngine.Proofs.HeldSlots
import LoadEngine.Proofs.ResolvedDraft
import LoadEngine.Proofs.WrittenForm
import LoadEngine.Proofs.GraphSearch
import LoadEngine.Proofs.WellFormedDrafts
import LoadEngine.Proofs.ArenaPurposes
import LoadEngine.Proofs.ArenaWrites
import LoadEngine.Proofs.ConfinedWrites
import LoadEngine.Proofs.StartLimit
import LoadEngine.Proofs.ForkCounts
import LoadEngine.Proofs.CycleSearch
import LoadEngine.Proofs.PhaseCircles
import LoadEngine.Proofs.EventBudget
import LoadEngine.Proofs.TurnLoop
import LoadEngine.Proofs.TimerOrder
import LoadEngine.Proofs.ShardWatch
import LoadEngine.Proofs.TimerFiring
import LoadEngine.Proofs.RoundRobin
import LoadEngine.Proofs.RecorderReset
import LoadEngine.Proofs.HistogramCounts
import LoadEngine.Proofs.LongestBorders
import LoadEngine.Proofs.MergeRefusals
import LoadEngine.Proofs.LateReplacements
import LoadEngine.Proofs.SimulationFleet
