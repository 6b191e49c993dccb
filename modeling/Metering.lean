import Metering.Category
import Metering.Collector
import Metering.Configuration
import Metering.Data.Distinct
import Metering.Data.Index
import Metering.Decimal.Notation
import Metering.Decimal.Shortest
import Metering.Event
import Metering.Family
import Metering.Fault
import Metering.Gating
import Metering.Handle
import Metering.Instrument
import Metering.Instrument.Kind
import Metering.Instrument.Tally
import Metering.NameBook
import Metering.Number
import Metering.Observation
import Metering.Proofs.BuiltinStart
import Metering.Proofs.CacheNames
import Metering.Proofs.CallComposition
import Metering.Proofs.CollectedFamilies
import Metering.Proofs.CollectionQuestions
import Metering.Proofs.CommaListLayout
import Metering.Proofs.CommaListSegments
import Metering.Proofs.CompleteDismissal
import Metering.Proofs.ConfigurationInUse
import Metering.Proofs.Consultations
import Metering.Proofs.CounterNames
import Metering.Proofs.DisplacedHandles
import Metering.Proofs.DistinctObservations
import Metering.Proofs.Enrolment
import Metering.Proofs.EnrolmentInvariants
import Metering.Proofs.ExactReplacement
import Metering.Proofs.ExpositionAgreement
import Metering.Proofs.HandleFounder
import Metering.Proofs.HandleIdentity
import Metering.Proofs.HandleTargets
import Metering.Proofs.HeldCollectors
import Metering.Proofs.IncrementCounts
import Metering.Proofs.InstrumentChanges
import Metering.Proofs.InterleavedPulls
import Metering.Proofs.InterruptedCalls
import Metering.Proofs.InterruptedRegistration
import Metering.Proofs.LastingDeclarations
import Metering.Proofs.LaunchFromEnvironment
import Metering.Proofs.Moves
import Metering.Proofs.NamesThereAndBack
import Metering.Proofs.ObservationAddresses
import Metering.Proofs.PartialStart
import Metering.Proofs.PastIndependence
import Metering.Proofs.QuietSteps
import Metering.Proofs.RaisedFaults
import Metering.Proofs.RecordedAmountsShown
import Metering.Proofs.RecordsAddUp
import Metering.Proofs.RefusedNames
import Metering.Proofs.RegistrationInvariants
import Metering.Proofs.RegistrationVisits
import Metering.Proofs.RegistryRecords
import Metering.Proofs.ReleaseAndRestore
import Metering.Proofs.RosterRuns
import Metering.Proofs.SampleReading
import Metering.Proofs.SelectedCategories
import Metering.Proofs.SharedCacheCollector
import Metering.Proofs.SharedRegistry
import Metering.Proofs.ShutdownReset
import Metering.Proofs.StreamItinerary
import Metering.Proofs.StreamPages
import Metering.Proofs.SummaryReadBack
import Metering.Proofs.SuppliedReports
import Metering.Proofs.SystemMemory
import Metering.Proofs.SystemReadings
import Metering.Proofs.SystemRuns
import Metering.Proofs.TimedOnce
import Metering.Proofs.TimerReadBack
import Metering.Proofs.VeiledPast
import Metering.Proofs.WellLabelledMetrics
import Metering.Proofs.WorkBesideLists
import Metering.Reference
import Metering.Registry
import Metering.Roster
import Metering.Scenario.Perform
import Metering.Scenario.Step
import Metering.Scenario.Workspace
import Metering.Settings
import Metering.Site
import Metering.Site.Collecting
import Metering.Site.Holding
import Metering.Supplier
import Metering.System
import Metering.System.Builtin
import Metering.System.Creation
import Metering.System.Lifecycle
import Metering.System.Reading
import Metering.System.Stream
import Metering.Text.Affix
import Metering.Text.Blank
import Metering.Text.CommaList
import Metering.Text.Order
import Metering.Text.Printable
import Metering.Text.Quoted
import Metering.Timing
