import RenderProbe.Main
import RenderProbe.Proofs.Syntax.Outline
import RenderProbe.Proofs.Wrap.Firing
import RenderProbe.Proofs.Wrap.EditedTree
import RenderProbe.Proofs.Wrap.Session
import RenderProbe.Proofs.Source.Splice
import RenderProbe.Proofs.Syntax.Placement
import RenderProbe.Proofs.Wrap.Conservation
import RenderProbe.Proofs.Syntax.Reading
import RenderProbe.Proofs.Syntax.ExportShape
import RenderProbe.Proofs.Component.Exports
import RenderProbe.Proofs.Wrap.Agreement
import RenderProbe.Proofs.Syntax.Bindings
import RenderProbe.Proofs.Wrap.Redeclaration
import RenderProbe.Proofs.Source.Boundary
import RenderProbe.Proofs.Wrap.Conflict
import RenderProbe.Proofs.Syntax.Calls
import RenderProbe.Proofs.Wrap.DoubleWrap
import RenderProbe.Proofs.Fallback.Shape
import RenderProbe.Proofs.Fallback.ImportText
import RenderProbe.Proofs.Fallback.Prologue
import RenderProbe.Proofs.Fallback.Import
import RenderProbe.Proofs.Fallback.Repeat
import RenderProbe.Proofs.Disk.Entry
import RenderProbe.Proofs.Disk.Follow
import RenderProbe.Proofs.Disk.Replace
import RenderProbe.Proofs.Engine.WrapFile
import RenderProbe.Proofs.Engine.Accounting
import RenderProbe.Proofs.Disk.Independence
import RenderProbe.Proofs.Engine.DryRun
import RenderProbe.Proofs.Disk.Walk
import RenderProbe.Proofs.Text.Fields
import RenderProbe.Proofs.Path
import RenderProbe.Proofs.Scan.Listing
import RenderProbe.Proofs.Engine.Naming
import RenderProbe.Proofs.Engine.Addressing
import RenderProbe.Proofs.Component.Layout
import RenderProbe.Proofs.Wrap.Bystanders
import RenderProbe.Proofs.Wrap.ExportSurface
import RenderProbe.Proofs.Source.Rounds
import RenderProbe.Proofs.Wrap.TwoNames
import RenderProbe.Proofs.Wrap.Landmarks
import RenderProbe.Proofs.Wrap.SecondWrap
import RenderProbe.Proofs.Wrap.Commute
import RenderProbe.Proofs.Component.ReturnScan
import RenderProbe.Proofs.Source.Reference
import RenderProbe.Proofs.Fallback.Conservation
import RenderProbe.Proofs.Text.LineStyle
import RenderProbe.Proofs.Syntax.LineBoundary
import RenderProbe.Proofs.Syntax.LexemeEnd
import RenderProbe.Proofs.Syntax.Sitting
import RenderProbe.Proofs.Syntax.SittingGrammar
import RenderProbe.Proofs.Syntax.SittingTree
import RenderProbe.Proofs.Wrap.LineStyle
import RenderProbe.Proofs.Fallback.LineStyle
import RenderProbe.Proofs.Engine.LineEndings
import RenderProbe.Proofs.Wrap.ImportScan
import RenderProbe.Proofs.Component.ClauseExports
import RenderProbe.Proofs.Fallback.ImportStatement
import RenderProbe.Proofs.Fallback.ImportPlace
import RenderProbe.Proofs.Fallback.ImportBinding
import RenderProbe.Proofs.Source.ImportPath
import RenderProbe.Proofs.Fallback.WholeNames
import RenderProbe.Proofs.Wrap.Overloads
import RenderProbe.Proofs.Wrap.Remarks
import RenderProbe.Proofs.Component.TreeGrowth
import RenderProbe.Proofs.Component.TreeContents
import RenderProbe.Proofs.Component.TreeOrder
import RenderProbe.Proofs.Scan.Exclusion
import RenderProbe.Proofs.Text.Glob
import RenderProbe.Proofs.Scan.Wildcards
import RenderProbe.Proofs.Config.Refusal
import RenderProbe.Proofs.Disk.WalkOrder
import RenderProbe.Proofs.Project.Files
import RenderProbe.Proofs.Project.Helper
import RenderProbe.Proofs.Project.Locate
import RenderProbe.Proofs.Diff.Match
import RenderProbe.Proofs.Diff.Hunks
import RenderProbe.Proofs.Diff.Application
import RenderProbe.Proofs.Diff.HunkLines
import RenderProbe.Proofs.Diff.Faithful
import RenderProbe.Proofs.Engine.ReportedDiff
import RenderProbe.Proofs.Source.StringLiteral
import RenderProbe.Proofs.Component.Padding
