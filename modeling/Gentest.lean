import Gentest.Lib.Interleaving
import Gentest.Lib.Loops
import Gentest.Lib.Removal
import Gentest.Lib.Sorting
import Gentest.Lib.WhileLoops
import Gentest.Lib.WriteBehind
import Gentest.Lib.Csv
import Gentest.Lib.Grouping
import Gentest.Lib.IndexedGroups
import Gentest.Lib.Json
import Gentest.Lib.Utf8
import Gentest.Lib.JsonUtf8
import Gentest.Runner.ResultModel
import Gentest.Runner.CaseResult
import Gentest.Runner.Reporting
import Gentest.Async.Event
import Gentest.Async.Promise
import Gentest.Async.TimedWait
import Gentest.Async.SchedulerCore
import Gentest.Async.Cancellation
import Gentest.Async.LinkInvariant
import Gentest.Async.SchedulerRuns
import Gentest.Async.TimerQueue
import Gentest.Async.TimerRuns
import Gentest.Async.Wakeup
import Gentest.Async.Unresumable
import Gentest.Runner.AsyncState
import Gentest.Async.ContextClose
import Gentest.Context.LocalBuffer
import Gentest.Context.Buffering
import Gentest.Context.ScopedRuns
import Gentest.Runner.AsyncExecutor
import Gentest.Runner.BatchMoves
import Gentest.Runner.BatchAccounting
import Gentest.Runner.BatchControl
import Gentest.Runner.BatchCompletion
import Gentest.Runner.ExactlyOnce
import Gentest.Runner.FailFast
import Gentest.Runner.SyncExecutor
import Gentest.Runner.ExecutorsAgree
import Gentest.Fixture.Registration
import Gentest.Fixture.Lifecycle
import Gentest.Fixture.SetupTeardown
import Gentest.Fixture.Pairing
import Gentest.Fixture.NearestSuite
import Gentest.Mock.InstanceState
import Gentest.Mock.CallAccounting
import Gentest.Mock.Verification
import Gentest.Measured.MeasuredCase
import Gentest.Measured.PassIffClean
import Gentest.Measured.Calibration
import Gentest.Runner.TestPlan
import Gentest.Runner.Orchestrator
import Gentest.Runner.StaticSkip
import Gentest.Runner.CalmRun
import Gentest.Runner.SkippedCases
import Gentest.Report.ReportTables
import Gentest.Report.Histogram
import Gentest.Report.CsvReport
import Gentest.Report.JsonReport
import Gentest.Report.InventoryJson
import Gentest.Report.ReportBytes
import Gentest.Report.CompareReports
import Gentest.Report.FormatsAgree
import Gentest.Codegen.CodegenModel
import Gentest.Codegen.FixtureFound
import Gentest.Codegen.FixtureResolution
import Gentest.Codegen.HeaderMerge
import Gentest.Codegen.ExactlyOnce
import Gentest.Runner.CaseSelection
import Gentest.Runner.Wildcard
import Gentest.Runner.PlanIndices
import Gentest.Runner.GroupFixtures
import Gentest.Runner.XmlText
import Gentest.Runner.TerminalText
import Gentest.Runner.StatusRows
import Gentest.Runner.StatusBlock
import Gentest.Codegen.CaseNames
import Gentest.Codegen.ModulePrecompile
import Gentest.Codegen.PrecompileCalls
import Gentest.Codegen.PrecompileEnds
import Gentest.Codegen.PrecompileOrder
import Gentest.Codegen.AttributeRoundTrip
import Gentest.Codegen.Outputs
import Gentest.Codegen.Emit
import Gentest.Codegen.OutputsApart
import Gentest.Codegen.RegisteredOnce
import Gentest.Codegen.RegistrarNames
import Gentest.Codegen.FaithfulText
import Gentest.Codegen.WrapperSpelling
import Gentest.Codegen.ContextFingerprint
import Gentest.Codegen.AdjustedContext
import Gentest.Codegen.ArtifactManifest
import Gentest.Codegen.ManifestAgrees
import Gentest.Lib.CppLiteral
import Gentest.Codegen.TypeKind
import Gentest.Codegen.LiteralValues
import Gentest.Lib.Pieces
import Gentest.Codegen.TopLevelItems
import Gentest.Codegen.ArgumentTokens
import Gentest.Codegen.ArgumentLiterals
import Gentest.Codegen.CommentedSpecifier
import Gentest.Codegen.PayloadReads
import Gentest.Codegen.CommentsHarmless
import Gentest.Codegen.RowTexts
import Gentest.Codegen.TemplateCombos
import Gentest.Codegen.ParameterExpansion
import Gentest.Codegen.ExpansionProduct
import Gentest.Lib.CppInteger
import Gentest.Codegen.IntegerRange
import Gentest.Lib.Visits
import Gentest.Runner.KindSelection
import Gentest.Async.BlockingRun
import Gentest.Scan.Directives
import Gentest.Scan.Conditionals
import Gentest.Scan.MacroTable
import Gentest.Lib.LongLong
import Gentest.Scan.IntegerLiteral
import Gentest.Scan.Expression
import Gentest.Scan.ExpressionTrees
import Gentest.Lib.LoopCycles
import Gentest.Scan.HasInclude
import Gentest.Scan.ExpressionText
import Gentest.Scan.CppConditions
import Gentest.Scan.ConditionMeaning
import Gentest.Scan.ConditionArithmetic
import Gentest.Scan.ConditionValues
import Gentest.Scan.PhysicalLines
import Gentest.Scan.ScanTermination
import Gentest.Scan.MacroReplacement
import Gentest.Lib.Squeezing
import Gentest.Scan.TranslationPhases
import Gentest.Scan.SourceReading
import Gentest.Scan.DirectiveSpace
import Gentest.Scan.PhaseSimulation
import Gentest.Scan.ModuleNames
import Gentest.Scan.PhasesAgree
import Gentest.Scan.ModuleGrammar
import Gentest.Codegen.CommentsAgree
import Gentest.Codegen.TemplateDefaults
import Gentest.Codegen.CompilerBehindLaunchers
import Gentest.Codegen.PrecompileArguments
import Gentest.Lib.LexicalPath
import Gentest.Codegen.SourcePathAliases
import Gentest.Codegen.IncludePaths
import Gentest.Codegen.MockIncludes
import Gentest.Codegen.IncludesResolve
import Gentest.Report.AllureFiles
import Gentest.Report.SampleThinning
import Gentest.Runner.DecimalOptions
import Gentest.Codegen.MockManifest
import Gentest.Codegen.ManifestRoundTrip
import Gentest.Lib.ScopeText
import Gentest.Codegen.AttachmentScopes
import Gentest.Lib.Trimming
