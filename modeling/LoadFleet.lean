import LoadFleet.Agent.RosterRecord
import LoadFleet.Machine.Staged
import LoadFleet.Main
import LoadFleet.Rehearsal
import LoadFleet.Proofs.Procedures
import LoadFleet.Proofs.FieldAccess
import LoadFleet.Proofs.Interruption
import LoadFleet.Proofs.ReplyFormat
import LoadFleet.Proofs.Adaptation
import LoadFleet.Proofs.ParameterHistories
import LoadFleet.Proofs.FixedSchedule
import LoadFleet.Proofs.FixedOutcome
import LoadFleet.Proofs.RoundTrips
import LoadFleet.Proofs.Exchanges
import LoadFleet.Proofs.Responders
import LoadFleet.Proofs.Transparency
import LoadFleet.Proofs.Framing
import LoadFleet.Proofs.ContactLog
import LoadFleet.Proofs.Sessions
import LoadFleet.Proofs.OrderFree
import LoadFleet.Proofs.Parallel
import LoadFleet.Proofs.ListingOrder
import LoadFleet.Proofs.Traces
import LoadFleet.Proofs.Requests
import LoadFleet.Proofs.PhaseOrder
import LoadFleet.Proofs.Provenance
import LoadFleet.Proofs.Sweeps
import LoadFleet.Proofs.Refusals
import LoadFleet.Proofs.IndependentSamples
import LoadFleet.Proofs.Numerals
import LoadFleet.Proofs.SplitTexts
import LoadFleet.Proofs.PatternGrammar
import LoadFleet.Proofs.Resolution
import LoadFleet.Proofs.LinkFailures
import LoadFleet.Proofs.DescribedFleets
import LoadFleet.Proofs.AgentNames
import LoadFleet.Proofs.OptionPrecedence
import LoadFleet.Proofs.CommandFormat
import LoadFleet.Proofs.MergedFigures
import LoadFleet.Proofs.ExpectedReplies
import LoadFleet.Proofs.MergedBounds
import LoadFleet.Proofs.ShortReads
import LoadFleet.Proofs.Collecting
import LoadFleet.Proofs.Verdicts
import LoadFleet.Proofs.SweepLoads
import LoadFleet.Proofs.NameLists
import LoadFleet.Proofs.CappedTotals
import LoadFleet.Proofs.Deployments
import LoadFleet.Proofs.LaunchLines
import LoadFleet.Proofs.RecordLines
