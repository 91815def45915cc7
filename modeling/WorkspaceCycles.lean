import WorkspaceCycles.Issue.Reading
import WorkspaceCycles.Main
import WorkspaceCycles.Settings.Rendering
import WorkspaceCycles.Proofs.ClosedWalk
import WorkspaceCycles.Proofs.SearchMoves
import WorkspaceCycles.Proofs.SearchPath
import WorkspaceCycles.Proofs.SearchCover
import WorkspaceCycles.Proofs.CycleKey
import WorkspaceCycles.Proofs.DistinctCycles
import WorkspaceCycles.Proofs.DependencyScan
import WorkspaceCycles.Proofs.SearchEdges
import WorkspaceCycles.Proofs.DependencyIssues
import WorkspaceCycles.Proofs.PackageScan
import WorkspaceCycles.Proofs.ElementaryCycles
import WorkspaceCycles.Proofs.ImportCycles
import WorkspaceCycles.Proofs.PrintedClauses
import WorkspaceCycles.Proofs.PrintedStatements
import WorkspaceCycles.Proofs.PrintedCalls
import WorkspaceCycles.Proofs.PrintedImports
import WorkspaceCycles.Proofs.ClauseGaps
import WorkspaceCycles.Proofs.ListedHits
import WorkspaceCycles.Proofs.LocalForms
import WorkspaceCycles.Proofs.LeadingStatements
import WorkspaceCycles.Proofs.LocalExports
import WorkspaceCycles.Proofs.LongerTexts
import WorkspaceCycles.Proofs.BlankLines
import WorkspaceCycles.Proofs.CommentLines
import WorkspaceCycles.Proofs.ReadingLimits
import WorkspaceCycles.Proofs.SettingsFile
import WorkspaceCycles.Proofs.RelativeImports
import WorkspaceCycles.Proofs.ImportTargets
import WorkspaceCycles.Proofs.ToolOutput
import WorkspaceCycles.Proofs.WorkspaceFile
import WorkspaceCycles.Proofs.WrittenJson
import WorkspaceCycles.Proofs.PrintableJson
import WorkspaceCycles.Proofs.ReportText
import WorkspaceCycles.Proofs.KeptCycles
import WorkspaceCycles.Proofs.CutTexts
import WorkspaceCycles.Proofs.TrailingComments
import WorkspaceCycles.Proofs.WiderScans
import WorkspaceCycles.Proofs.BrokenManifests
import WorkspaceCycles.Proofs.Negations
import WorkspaceCycles.Proofs.PackageGraph
import WorkspaceCycles.Proofs.PackageSets
import WorkspaceCycles.Proofs.ExcludedFiles
import WorkspaceCycles.Proofs.EnteredNames
import WorkspaceCycles.Proofs.StarPatterns
import WorkspaceCycles.Proofs.SettingsSpellings
