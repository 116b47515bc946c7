import PolymerAnalysis.Text.Blank
import PolymerAnalysis.Text.Word
import PolymerAnalysis.Text.Quoted
import PolymerAnalysis.Text.Utf8
import PolymerAnalysis.Json.Reader
import PolymerAnalysis.Value.Written
import PolymerAnalysis.Source.Coordinates
import PolymerAnalysis.Syntax.Definition
import PolymerAnalysis.Syntax.Comment
import PolymerAnalysis.Warning
import PolymerAnalysis.Documentation.Reader
import PolymerAnalysis.Url.Basic
import PolymerAnalysis.Html.Reference
import PolymerAnalysis.Source.Document
import PolymerAnalysis.Scan.Barrier
import PolymerAnalysis.Feature.Basic
import PolymerAnalysis.Scan.Registry
import PolymerAnalysis.Resolution.Basic
import PolymerAnalysis.Metadata.Generation
import PolymerAnalysis.Logging
import PolymerAnalysis.Loading.Tree
import PolymerAnalysis.Session.Opening
import PolymerAnalysis.Session.Change
import PolymerAnalysis.Proofs.Keyed
import PolymerAnalysis.Proofs.Resolution.Flattening
import PolymerAnalysis.Proofs.Resolution.Accounting
import PolymerAnalysis.Proofs.Resolution.Acyclic
import PolymerAnalysis.Proofs.Graph.Updates
import PolymerAnalysis.Proofs.Session.Coherence
import PolymerAnalysis.Proofs.Session.Invalidation
import PolymerAnalysis.Proofs.Session.History
import PolymerAnalysis.Proofs.Session.Outdated
import PolymerAnalysis.Proofs.Session.Outcome
import PolymerAnalysis.Proofs.Session.Growth
import PolymerAnalysis.Proofs.Session.Following
import PolymerAnalysis.Proofs.Session.Opening
import PolymerAnalysis.Proofs.Session.Analyses
import PolymerAnalysis.Proofs.Session.Pages
import PolymerAnalysis.Proofs.Session.DepthLimit
import PolymerAnalysis.Proofs.Session.Failures
import PolymerAnalysis.Proofs.Graph.Isomorphism
import PolymerAnalysis.Proofs.Session.UpToDate
import PolymerAnalysis.Proofs.Session.Correspondence
import PolymerAnalysis.Proofs.Session.Reanalysis
import PolymerAnalysis.Proofs.Resolution.Building
import PolymerAnalysis.Proofs.Resolution.Requests
import PolymerAnalysis.Proofs.Resolution.Cycles
import PolymerAnalysis.Proofs.Resolution.Order
import PolymerAnalysis.Proofs.Resolution.Names
import PolymerAnalysis.Proofs.Graph.Regions
import PolymerAnalysis.Proofs.Graph.Locals
import PolymerAnalysis.Proofs.Graph.Traversal
import PolymerAnalysis.Proofs.Resolution.Renaming
import PolymerAnalysis.Proofs.Resolution.Surroundings
import PolymerAnalysis.Proofs.Resolution.Locality
import PolymerAnalysis.Proofs.Scan.Barrier
import PolymerAnalysis.Proofs.Scan.Multiplexing
import PolymerAnalysis.Proofs.Scan.Interleaving
import PolymerAnalysis.Proofs.Scan.Scripts
import PolymerAnalysis.Proofs.Scan.Conduct
import PolymerAnalysis.Proofs.Source.Coordinates
import PolymerAnalysis.Proofs.Scan.InlineScripts
import PolymerAnalysis.Proofs.Scan.Stack
import PolymerAnalysis.Proofs.Metadata.Generation
import PolymerAnalysis.Proofs.Metadata.Listing
import PolymerAnalysis.Proofs.Documentation.Segmentation
import PolymerAnalysis.Proofs.Documentation.Writing
import PolymerAnalysis.Proofs.Resolution.Origins
import PolymerAnalysis.Proofs.Resolution.Overrides
import PolymerAnalysis.Proofs.Resolution.Listing
import PolymerAnalysis.Proofs.Feature.Redeclaration
import PolymerAnalysis.Proofs.Text.Numeral
import PolymerAnalysis.Proofs.Version.Reader
import PolymerAnalysis.Proofs.Metadata.VersionRule
import PolymerAnalysis.Proofs.Url.Path
import PolymerAnalysis.Proofs.Metadata.PackageFilter
import PolymerAnalysis.Proofs.Binary64.Range
import PolymerAnalysis.Proofs.Syntax.Literal
import PolymerAnalysis.Proofs.Syntax.Evaluation
import PolymerAnalysis.Proofs.Syntax.IdentifierName
import PolymerAnalysis.Proofs.Syntax.Source
import PolymerAnalysis.Proofs.Scan.Flags
import PolymerAnalysis.Proofs.Syntax.Escapes
import PolymerAnalysis.Proofs.Syntax.Number
import PolymerAnalysis.Proofs.Syntax.Expression
import PolymerAnalysis.Proofs.Syntax.MemberName
import PolymerAnalysis.Proofs.Scan.Heritage
import PolymerAnalysis.Proofs.Scan.Gathering
import PolymerAnalysis.Proofs.Scan.Members
import PolymerAnalysis.Proofs.Scan.Behaviors
import PolymerAnalysis.Proofs.Binary64.Spelling
import PolymerAnalysis.Proofs.Json.Grammar
import PolymerAnalysis.Proofs.Value.Written
import PolymerAnalysis.Proofs.Scan.Mixins
import PolymerAnalysis.Proofs.Documentation.Names
import PolymerAnalysis.Proofs.Documentation.Delimiters
import PolymerAnalysis.Proofs.Session.FaultyScripts
import PolymerAnalysis.Proofs.Session.Batches
import PolymerAnalysis.Proofs.Session.Addresses
import PolymerAnalysis.Proofs.Session.Defaults
import PolymerAnalysis.Proofs.Scan.Tags
import PolymerAnalysis.Proofs.Feature.Keys
import PolymerAnalysis.Proofs.Feature.AttributeName
