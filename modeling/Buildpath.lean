import Buildpath.Main
import Buildpath.Workspace
import Buildpath.Proofs.Configuration.Graph
import Buildpath.Proofs.Context.Listing
import Buildpath.Proofs.Distinct
import Buildpath.Proofs.FirstFault
import Buildpath.Proofs.Ring
import Buildpath.Proofs.Repeats
import Buildpath.Proofs.Lockfile.Unfolding
import Buildpath.Proofs.View.Files
import Buildpath.Proofs.Project.Acyclic
import Buildpath.Proofs.Project.Table
import Buildpath.Proofs.Project.Faults
import Buildpath.Proofs.Lockfile.Faults
import Buildpath.Proofs.Lockfile.Order
import Buildpath.Proofs.Workspace.Contexts
import Buildpath.Proofs.Traversal
import Buildpath.Proofs.Lockfile.Visit
import Buildpath.Proofs.Lockfile.Alone
import Buildpath.Proofs.View.Intransitive
import Buildpath.Proofs.Workspace.History
import Buildpath.Proofs.Workspace.KeptView
import Buildpath.Proofs.View.Frame
import Buildpath.Proofs.View.Separation
import Buildpath.Proofs.Project.Identity
import Buildpath.Proofs.Disk.Outline
import Buildpath.Proofs.Project.Redeclared
import Buildpath.Proofs.CommandLine.Redeclared
import Buildpath.Proofs.Context.Faults
import Buildpath.Proofs.Path.Joining
import Buildpath.Proofs.Project.Climbing
import Buildpath.Proofs.Lockfile.Places
import Buildpath.Proofs.View.Addition
import Buildpath.Proofs.Lockfile.Selection
import Buildpath.Proofs.Context.Once
import Buildpath.Proofs.Lockfile.Nesting
import Buildpath.Proofs.Project.Nesting
import Buildpath.Proofs.Context.Nesting
import Buildpath.Proofs.Coordinate.Grammar
import Buildpath.Proofs.Workspace.Nesting
import Buildpath.Proofs.Manifest.Validation
import Buildpath.Proofs.Project.Validity
import Buildpath.Proofs.Disk.Search
import Buildpath.Proofs.Collection.Extension
import Buildpath.Proofs.Lockfile.Apart
import Buildpath.Proofs.Module.Forest
import Buildpath.Proofs.Report.Lines
import Buildpath.Proofs.Lockfile.Legible
import Buildpath.Proofs.CommandLine.Forest
