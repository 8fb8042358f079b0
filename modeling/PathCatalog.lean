import PathCatalog.Archive
import PathCatalog.CommandLine.Report
import PathCatalog.CommandLine.Run
import PathCatalog.Document.Node
import PathCatalog.Document.Tag
import PathCatalog.LogSetting
import PathCatalog.Main
import PathCatalog.Policy
import PathCatalog.Provider.Walk
import PathCatalog.Query
import PathCatalog.Table.Display
import PathCatalog.Table.Ensemble
import PathCatalog.Template
import PathCatalog.Template.Assignment
import PathCatalog.Template.Expression
import PathCatalog.Text.Natural
import PathCatalog.Proofs.Finding.Agreement
import PathCatalog.Proofs.Finding.Duplicates
import PathCatalog.Proofs.Finding.Integrity
import PathCatalog.Proofs.Glob.Filling
import PathCatalog.Proofs.Template.Spelling
import PathCatalog.Proofs.Matching.RoundTrip
import PathCatalog.Proofs.Table.Projection
import PathCatalog.Proofs.Finding.Rearrangement
import PathCatalog.Proofs.Provider.Agreement
import PathCatalog.Proofs.Finding.Separators
import PathCatalog.Proofs.Archive
import PathCatalog.Proofs.Finding.Clash
import PathCatalog.Proofs.Finding.Directories
import PathCatalog.Proofs.Finding.QueryOrder
import PathCatalog.Proofs.Finding.Policies
import PathCatalog.Proofs.Table.Reachable
import PathCatalog.Proofs.Query.Odometer
import PathCatalog.Proofs.Query.Product
import PathCatalog.Proofs.Template.Lacking
import PathCatalog.Proofs.Text.Numeral
import PathCatalog.Proofs.Archive.Names
import PathCatalog.Proofs.Template.Unhinted
import PathCatalog.Proofs.Table.RowOrder
import PathCatalog.Proofs.Table.Conjunction
import PathCatalog.Proofs.Table.Labels
import PathCatalog.Proofs.Table.Members
import PathCatalog.Proofs.Table.Records
import PathCatalog.Proofs.Table.Slicing
import PathCatalog.Proofs.Table.Display
import PathCatalog.Proofs.Template.Hints
import PathCatalog.Proofs.CommandLine.Constraints
import PathCatalog.Proofs.CommandLine.Resolution
import PathCatalog.Proofs.CommandLine.Objects
