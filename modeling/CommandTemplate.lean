import CommandTemplate.Cache.Settings
import CommandTemplate.CommandLine.FileTree
import CommandTemplate.Document.Collection
import CommandTemplate.Main
import CommandTemplate.Template.Workspace
import CommandTemplate.Proofs.Tag.Pieces
import CommandTemplate.Proofs.Tag.Substitution
import CommandTemplate.Proofs.Tag.Expansion
import CommandTemplate.Proofs.Tag.Ends
import CommandTemplate.Proofs.Template.Calls
import CommandTemplate.Proofs.Template.Run
import CommandTemplate.Proofs.Template.Outcome
import CommandTemplate.Proofs.Template.Creation
import CommandTemplate.Proofs.Template.Fragments
import CommandTemplate.Proofs.Template.OnePass
import CommandTemplate.Proofs.Template.Delivery
import CommandTemplate.Proofs.Cache.Entries
import CommandTemplate.Proofs.Template.Orderly
import CommandTemplate.Proofs.Cache.Sharing
import CommandTemplate.Proofs.Cache.HitAndMiss
import CommandTemplate.Proofs.Workspace.Steps
import CommandTemplate.Proofs.Workspace.Redaction
import CommandTemplate.Proofs.Cache.Provenance
import CommandTemplate.Proofs.Compile.Repetition
import CommandTemplate.Proofs.Document.StrictNumbers
import CommandTemplate.Proofs.Document.Gaps
import CommandTemplate.Proofs.Document.RelaxedNumbers
import CommandTemplate.Proofs.Document.Strings
import CommandTemplate.Proofs.Document.Listing
import CommandTemplate.Proofs.Document.StrictReading
import CommandTemplate.Proofs.Document.RelaxedReading
import CommandTemplate.Proofs.Document.Agreement
import CommandTemplate.Proofs.Document.Interior
import CommandTemplate.Proofs.Document.Concatenation
import CommandTemplate.Proofs.Tag.Joins
import CommandTemplate.Proofs.Template.Joining
import CommandTemplate.Proofs.Template.Shape
import CommandTemplate.Proofs.Template.EarlyRequests
import CommandTemplate.Proofs.Tag.StandApart
import CommandTemplate.Proofs.Template.Locality
import CommandTemplate.Proofs.Workspace.Renders
import CommandTemplate.Proofs.Workspace.Sharing
import CommandTemplate.Proofs.Cache.LeastRecent
import CommandTemplate.Proofs.Path.Grammar
import CommandTemplate.Proofs.Path.Display
import CommandTemplate.Proofs.Path.Identifiers
import CommandTemplate.Proofs.Path.Positional
import CommandTemplate.Proofs.Document.FilterWalk
import CommandTemplate.Proofs.Document.ElementFilters
import CommandTemplate.Proofs.Document.BoundIdentifiers
import CommandTemplate.Proofs.Compile.Defaults
import CommandTemplate.Proofs.Compile.Views
import CommandTemplate.Proofs.Distinct
import CommandTemplate.Proofs.Tag.Discovery
import CommandTemplate.Proofs.Tag.Matches
import CommandTemplate.Proofs.Template.AnyOrder
import CommandTemplate.Proofs.Path.Arguments
import CommandTemplate.Proofs.Template.ErrorOrder
