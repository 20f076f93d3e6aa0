import CompositeKeys.Main
import CompositeKeys.Proofs.Emission.Generatable
import CompositeKeys.Proofs.Emission.KeyPlans
import CompositeKeys.Proofs.Tasks.Soundness
import CompositeKeys.Proofs.Text.Blank
import CompositeKeys.Proofs.Validator.Expression
import CompositeKeys.Proofs.Validator.Scanning
import CompositeKeys.Proofs.Validator.Acceptance
import CompositeKeys.Proofs.Validator.Forms
import CompositeKeys.Proofs.Text.Layout
import CompositeKeys.Proofs.Emission.Writing
import CompositeKeys.Emission.Session
import CompositeKeys.Proofs.Emission.Placement
import CompositeKeys.Proofs.Emission.Specialization
import CompositeKeys.Proofs.Emission.Validation
import CompositeKeys.Proofs.Emission.Guards
import CompositeKeys.Proofs.Text.Substitution
import CompositeKeys.Proofs.Text.Comment
import CompositeKeys.Proofs.Emission.Wording
import CompositeKeys.Proofs.Emission.Comments
import CompositeKeys.Proofs.Collection.ClassNames
import CompositeKeys.Proofs.Collection.Grammar
import CompositeKeys.Proofs.Collection.Lifecycle
import CompositeKeys.Proofs.Emission.ModuleNames
import CompositeKeys.Proofs.Emission.Identifiers
import CompositeKeys.Proofs.Emission.Confinement
import CompositeKeys.Proofs.Emission.Heads
import CompositeKeys.Proofs.Emission.Hygiene
import CompositeKeys.Proofs.Emission.Pairing
import CompositeKeys.Proofs.Tasks.Dependencies
import CompositeKeys.Proofs.Tasks.Failure
import CompositeKeys.Proofs.Tasks.Steps
import CompositeKeys.Proofs.Tasks.Reachability
import CompositeKeys.Proofs.Tasks.Tour
import CompositeKeys.Proofs.Tasks.Position
import CompositeKeys.Proofs.Tasks.Course
import CompositeKeys.Proofs.Tasks.RootRun
import CompositeKeys.Proofs.Collection.Representation
import CompositeKeys.Proofs.Collection.Edits
import CompositeKeys.Proofs.Tasks.Aftermath
import CompositeKeys.Proofs.Tasks.LoneRun
import CompositeKeys.Proofs.Tasks.Budget
import CompositeKeys.Proofs.Generation.Plan
import CompositeKeys.Proofs.Generation.Claims
import CompositeKeys.Proofs.Generation.Completion
import CompositeKeys.Proofs.Generation.Session
import CompositeKeys.Proofs.Files.Changes
import CompositeKeys.Proofs.Generation.Written
import CompositeKeys.Proofs.Generation.Delivery
import CompositeKeys.Proofs.Emission.KeyLibrary
import CompositeKeys.Proofs.Generation.KeyLibrary
import CompositeKeys.Proofs.Emission.Entries
import CompositeKeys.Proofs.Emission.Parameters
import CompositeKeys.Proofs.Emission.Margins
import CompositeKeys.Proofs.Emission.Filling
import CompositeKeys.Proofs.Generation.Refusals
import CompositeKeys.Proofs.Generation.Registry
import CompositeKeys.Proofs.Emission.Inlining
import CompositeKeys.Proofs.Generation.Links
import CompositeKeys.Proofs.Files.Bearings
import CompositeKeys.Proofs.Files.Directories
import CompositeKeys.Proofs.Files.Sorting
import CompositeKeys.Proofs.Files.Search
import CompositeKeys.Proofs.Files.Upkeep
import CompositeKeys.Proofs.Generation.Outputs
import CompositeKeys.Proofs.Generation.Imports
import CompositeKeys.Proofs.Generation.Listing
import CompositeKeys.Proofs.Generation.Discovery
import CompositeKeys.Proofs.Text.NormalForm
import CompositeKeys.Proofs.Emission.Sessions
import CompositeKeys.Proofs.Emission.Columns
import CompositeKeys.Proofs.Emission.Closing
import CompositeKeys.Proofs.Tasks.Declarations
import CompositeKeys.Proofs.Tasks.Pending
import CompositeKeys.Proofs.Emission.ImportText
