import EventQuery.Aggregation.CallSites
import EventQuery.Aggregation.Collect
import EventQuery.Aggregation.Family
import EventQuery.Aggregation.Forge
import EventQuery.Aggregation.Handler
import EventQuery.Aggregation.Key
import EventQuery.Aggregation.Recording
import EventQuery.Aggregation.State
import EventQuery.AttributeType
import EventQuery.Compile
import EventQuery.Compile.Names
import EventQuery.Compile.Resolution
import EventQuery.Compile.Resolve
import EventQuery.Compile.Statement
import EventQuery.Configuration
import EventQuery.Definition
import EventQuery.Document.Json
import EventQuery.Document.Json.Numeral
import EventQuery.Document.Json.Parser
import EventQuery.Document.Json.Printer
import EventQuery.Document.Reading
import EventQuery.Entries
import EventQuery.EventType
import EventQuery.Exchange.Fields
import EventQuery.Exchange.Specs
import EventQuery.Exchange.Statements
import EventQuery.Exchange.Types
import EventQuery.Exchange.Values
import EventQuery.Expression
import EventQuery.Expression.Size
import EventQuery.Failure
import EventQuery.Getter
import EventQuery.Getter.Build
import EventQuery.Getter.Cache
import EventQuery.Numeric.Binary
import EventQuery.Numeric.Decimal
import EventQuery.Numeric.Reading
import EventQuery.Proofs.Access.Acceptance
import EventQuery.Proofs.Access.Capabilities
import EventQuery.Proofs.Access.Navigation
import EventQuery.Proofs.Access.Paths
import EventQuery.Proofs.Access.Records
import EventQuery.Proofs.Access.Uniformity
import EventQuery.Proofs.Access.Written
import EventQuery.Proofs.Checked
import EventQuery.Proofs.Collection.Readings
import EventQuery.Proofs.Collection.Runs
import EventQuery.Proofs.Driving.Loops
import EventQuery.Proofs.Driving.Turns
import EventQuery.Proofs.Equality.Identity
import EventQuery.Proofs.Equality.Laws
import EventQuery.Proofs.Equality.Places
import EventQuery.Proofs.Expansion.Arguments
import EventQuery.Proofs.Expansion.Blame
import EventQuery.Proofs.Expansion.CallGraph
import EventQuery.Proofs.Expansion.Calls
import EventQuery.Proofs.Expansion.Erasure
import EventQuery.Proofs.Expansion.Parallels
import EventQuery.Proofs.Expansion.SelfReference
import EventQuery.Proofs.Expansion.Similarity
import EventQuery.Proofs.Extension.Anchoring
import EventQuery.Proofs.Extension.Obliviousness
import EventQuery.Proofs.Extension.Probing
import EventQuery.Proofs.Extension.Requests
import EventQuery.Proofs.Extension.Sessions
import EventQuery.Proofs.Extension.Survival
import EventQuery.Proofs.History.Cache
import EventQuery.Proofs.History.Lookups
import EventQuery.Proofs.History.Mirror
import EventQuery.Proofs.History.Renaming
import EventQuery.Proofs.History.Session
import EventQuery.Proofs.History.Settled
import EventQuery.Proofs.History.Simulation
import EventQuery.Proofs.Nesting.Expansion
import EventQuery.Proofs.Nesting.Parameters
import EventQuery.Proofs.Nesting.Reached
import EventQuery.Proofs.Nesting.Reflection
import EventQuery.Proofs.Order.Answers
import EventQuery.Proofs.Order.Independence
import EventQuery.Proofs.Order.Refusals
import EventQuery.Proofs.Order.Reordering
import EventQuery.Proofs.Order.Thorough
import EventQuery.Proofs.Order.Twins
import EventQuery.Proofs.Protocol.Callbacks
import EventQuery.Proofs.Protocol.Episodes
import EventQuery.Proofs.Protocol.Passes
import EventQuery.Proofs.Protocol.Phases
import EventQuery.Proofs.Protocol.Sites
import EventQuery.Proofs.Protocol.Telling
import EventQuery.Proofs.Registration.Admission
import EventQuery.Proofs.Registration.Batches
import EventQuery.Proofs.Registration.Closure
import EventQuery.Proofs.Registration.Documents
import EventQuery.Proofs.Resolution.Carrying
import EventQuery.Proofs.Resolution.Conclusion
import EventQuery.Proofs.Resolution.Derivation
import EventQuery.Proofs.Resolution.Employment
import EventQuery.Proofs.Resolution.Fuel
import EventQuery.Proofs.Resolution.Growth
import EventQuery.Proofs.Resolution.Inversion
import EventQuery.Proofs.Resolution.Leaves
import EventQuery.Proofs.Resolution.Local
import EventQuery.Proofs.Resolution.Referents
import EventQuery.Proofs.Resolution.Retention
import EventQuery.Proofs.Resolution.Rules
import EventQuery.Proofs.Resolution.Runs
import EventQuery.Proofs.Resolution.Soundness
import EventQuery.Proofs.Scoping.InPlace
import EventQuery.Proofs.Scoping.Restoration
import EventQuery.Proofs.Sharing.Accounts
import EventQuery.Proofs.Sharing.Compilations
import EventQuery.Proofs.Sharing.Families
import EventQuery.Proofs.Sharing.Forges
import EventQuery.Proofs.Sharing.Handlers
import EventQuery.Proofs.Sharing.Slots
import EventQuery.Proofs.Sharing.States
import EventQuery.Proofs.Specification.Annotations
import EventQuery.Proofs.Specification.Clauses
import EventQuery.Proofs.Specification.Closed
import EventQuery.Proofs.Specification.Keys
import EventQuery.Proofs.Specification.Placement
import EventQuery.Proofs.Specification.References
import EventQuery.Proofs.Specification.Typing
import EventQuery.Proofs.Specification.TypingRules
import EventQuery.Proofs.Streams.Lookups
import EventQuery.Proofs.Streams.Renumbering
import EventQuery.Proofs.Streams.Reordering
import EventQuery.Proofs.Streams.States
import EventQuery.Proofs.Substitution.Binding
import EventQuery.Proofs.Substitution.Numbering
import EventQuery.Proofs.Substitution.Preparation
import EventQuery.Proofs.Substitution.Slots
import EventQuery.Proofs.Substitution.Styles
import EventQuery.Proofs.Symbols.Listing
import EventQuery.Proofs.Symbols.Recording
import EventQuery.Proofs.Symbols.Replacement
import EventQuery.Proofs.Termination.Budget
import EventQuery.Proofs.Termination.Recurrence
import EventQuery.Proofs.Termination.Starving
import EventQuery.Proofs.Termination.Subqueries
import EventQuery.Proofs.Termination.Visits
import EventQuery.Registry
import EventQuery.Representation
import EventQuery.Resolved
import EventQuery.Resolved.Typing
import EventQuery.Schema
import EventQuery.Services
import EventQuery.Statement.Binding
import EventQuery.Statement.Spec
import EventQuery.SymbolContext
import EventQuery.Text.Blank
import EventQuery.Text.Quoted
import EventQuery.Text.Segments
import EventQuery.Text.Unprintable
import EventQuery.Value
import EventQuery.Value.Equality
import EventQuery.XmlNode
