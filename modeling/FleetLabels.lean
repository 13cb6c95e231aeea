import FleetLabels.Controller.Events
import FleetLabels.Discovery.Wait
import FleetLabels.Main
import FleetLabels.Selection.Generator
import FleetLabels.Store.Remote
import FleetLabels.Json.Writer
import FleetLabels.Proofs.ChangeMark
import FleetLabels.Proofs.Choice
import FleetLabels.Proofs.Churn
import FleetLabels.Proofs.Commutation
import FleetLabels.Proofs.Deletion
import FleetLabels.Proofs.Documents.Instants
import FleetLabels.Proofs.Documents.JsonNumbers
import FleetLabels.Proofs.Documents.JsonText
import FleetLabels.Proofs.Documents.MergePatch
import FleetLabels.Proofs.Documents.Numerals
import FleetLabels.Proofs.Documents.Objects
import FleetLabels.Proofs.Documents.Readers
import FleetLabels.Proofs.Documents.RoundTrip
import FleetLabels.Proofs.Documents.SpecGrammar
import FleetLabels.Proofs.Discovery.Backoff
import FleetLabels.Proofs.Discovery.Served
import FleetLabels.Proofs.Discovery.Versions
import FleetLabels.Proofs.Duality
import FleetLabels.Proofs.Effect
import FleetLabels.Proofs.Exchanges
import FleetLabels.Proofs.Fairness
import FleetLabels.Proofs.Footprint
import FleetLabels.Proofs.InMemory
import FleetLabels.Proofs.Joining
import FleetLabels.Proofs.Labels
import FleetLabels.Proofs.Lifecycle
import FleetLabels.Proofs.ListingOrder
import FleetLabels.Proofs.Locality
import FleetLabels.Proofs.NodeEvents
import FleetLabels.Proofs.Overlay
import FleetLabels.Proofs.Ownership
import FleetLabels.Proofs.Plan
import FleetLabels.Proofs.Positions
import FleetLabels.Proofs.Precedence
import FleetLabels.Proofs.Quiescence
import FleetLabels.Proofs.Remote.Addresses
import FleetLabels.Proofs.Remote.Mirror
import FleetLabels.Proofs.Remote.Refinement
import FleetLabels.Proofs.Remote.Server
import FleetLabels.Proofs.Retry
import FleetLabels.Proofs.Selection
import FleetLabels.Proofs.Settings.Environment
import FleetLabels.Proofs.Settings.Values
import FleetLabels.Proofs.Versioned.Alone
import FleetLabels.Proofs.Versioned.Cluster
import FleetLabels.Proofs.Versioned.Contract
import FleetLabels.Proofs.Versioned.Frame
import FleetLabels.Proofs.Versioned.Interleaving
import FleetLabels.Proofs.Versioned.LeakFreedom
import FleetLabels.Proofs.Versioned.Outside
import FleetLabels.Proofs.Versioned.Steps
import FleetLabels.Proofs.Versioned.Store
import FleetLabels.Proofs.Shuffles
import FleetLabels.Proofs.Words
import FleetLabels.Proofs.Work
import FleetLabels.Proofs.Writes
import FleetLabels.Proofs.UnknownStrategy
import FleetLabels.Proofs.Undoing
import FleetLabels.Proofs.Refusals
import FleetLabels.Proofs.Teardown
import FleetLabels.Proofs.Finalizers
import FleetLabels.Proofs.Remote.Answers
import FleetLabels.Proofs.Remote.Bodies
import FleetLabels.Proofs.Text.Utf8
import FleetLabels.Proofs.KeySpaces
import FleetLabels.Proofs.CreationOrder
import FleetLabels.Proofs.Scheduling
import FleetLabels.Proofs.Documents.KeptValues
import FleetLabels.Proofs.Documents.Nodes
