import VirtTestTools.Analyzer.ChangedLines
import VirtTestTools.Analyzer.Classification
import VirtTestTools.Analyzer.ConftestChanges
import VirtTestTools.Analyzer.Deletions
import VirtTestTools.Analyzer.DiffText
import VirtTestTools.Analyzer.Discovery
import VirtTestTools.Analyzer.FixtureCompleteness
import VirtTestTools.Analyzer.FixtureGraph
import VirtTestTools.Analyzer.FunctionAttribution
import VirtTestTools.Analyzer.Impact
import VirtTestTools.Analyzer.ImportPathways
import VirtTestTools.Analyzer.ImportSearch
import VirtTestTools.Analyzer.MarkerExpressions
import VirtTestTools.Analyzer.Markers
import VirtTestTools.Analyzer.MemberNarrowing
import VirtTestTools.Analyzer.Model
import VirtTestTools.Analyzer.Narrowing
import VirtTestTools.Analyzer.PullRequestFiles
import VirtTestTools.Analyzer.RemovedModules
import VirtTestTools.Analyzer.Result
import VirtTestTools.Analyzer.Run
import VirtTestTools.Analyzer.Schedules
import VirtTestTools.Analyzer.SetupPlan
import VirtTestTools.Analyzer.Symbols
import VirtTestTools.Analyzer.Visitors
import VirtTestTools.BooleanGrammar
import VirtTestTools.Branches
import VirtTestTools.Closure
import VirtTestTools.CodeRabbit.RetryScans
import VirtTestTools.CodeRabbit.ReviewRetry
import VirtTestTools.Collecting
import VirtTestTools.Counter
import VirtTestTools.Dict
import VirtTestTools.Execution
import VirtTestTools.Flows
import VirtTestTools.Futures
import VirtTestTools.Groups
import VirtTestTools.GuardedRuns
import VirtTestTools.Joins
import VirtTestTools.KeySort
import VirtTestTools.KeyedRuns
import VirtTestTools.LevelOrder
import VirtTestTools.Levels
import VirtTestTools.Lines
import VirtTestTools.Matches
import VirtTestTools.Numerals
import VirtTestTools.Outcome
import VirtTestTools.Pages
import VirtTestTools.Pairings
import VirtTestTools.Placeholders.Agreement
import VirtTestTools.Placeholders.Definitions
import VirtTestTools.Placeholders.MarkerRoots
import VirtTestTools.Placeholders.Reports
import VirtTestTools.Placeholders.Stats
import VirtTestTools.Placeholders.StdCheck
import VirtTestTools.Placeholders.TestDocumentation
import VirtTestTools.Policy.AddedLines
import VirtTestTools.Policy.Banned
import VirtTestTools.Policy.BindingJoins
import VirtTestTools.Policy.BindingPaths
import VirtTestTools.Policy.BindingSoundness
import VirtTestTools.Policy.BindingStatements
import VirtTestTools.Policy.BindingSteps
import VirtTestTools.Policy.BindingTracking
import VirtTestTools.Policy.BindingTries
import VirtTestTools.Policy.BindingVisits
import VirtTestTools.Policy.BranchingBindings
import VirtTestTools.Policy.CacheComments
import VirtTestTools.Policy.ClassBodies
import VirtTestTools.Policy.ClassMarkers
import VirtTestTools.Policy.DefinitionHeaders
import VirtTestTools.Policy.DiffSections
import VirtTestTools.Policy.DirectivePositions
import VirtTestTools.Policy.DiscoveryAgreement
import VirtTestTools.Policy.ExceptionManifest
import VirtTestTools.Policy.GitPaths
import VirtTestTools.Policy.HeaderPaths
import VirtTestTools.Policy.HeaderScripts
import VirtTestTools.Policy.Hook
import VirtTestTools.Policy.HookRuns
import VirtTestTools.Policy.LinterDirectives
import VirtTestTools.Policy.ManifestUpdate
import VirtTestTools.Policy.ModuleBindings
import VirtTestTools.Policy.ModulePaths
import VirtTestTools.Policy.NodeRecords
import VirtTestTools.Policy.PytestmarkScope
import VirtTestTools.Policy.Resolution
import VirtTestTools.Policy.ResolutionTermination
import VirtTestTools.Policy.ResourceClients
import VirtTestTools.Policy.ResourceDiscovery
import VirtTestTools.Policy.ResourceRecords
import VirtTestTools.Policy.ScopeShapes
import VirtTestTools.Policy.ScopeStatements
import VirtTestTools.Policy.Scopes
import VirtTestTools.Policy.SkipMarkers
import VirtTestTools.Policy.SourceChecks
import VirtTestTools.Policy.StagedChanges
import VirtTestTools.Policy.StagedDiff
import VirtTestTools.Policy.StagedStatus
import VirtTestTools.Policy.StatementEntries
import VirtTestTools.Policy.StpLinks
import VirtTestTools.Policy.TestBasics
import VirtTestTools.Policy.Violations
import VirtTestTools.Policy.WrittenFiles
import VirtTestTools.Positions
import VirtTestTools.Recursions
import VirtTestTools.Reporter.Collector
import VirtTestTools.Reporter.Delivery
import VirtTestTools.Reporter.ItemNames
import VirtTestTools.Reporter.Launch
import VirtTestTools.Reporter.Main
import VirtTestTools.Reporter.MarkerFilter
import VirtTestTools.Reporter.Overrides
import VirtTestTools.Reporter.Push
import VirtTestTools.Reporter.Results
import VirtTestTools.Reporter.Retry
import VirtTestTools.Scans
import VirtTestTools.Scripts
import VirtTestTools.Substitutions
import VirtTestTools.Suite.Collection
import VirtTestTools.Suite.Dashboard
import VirtTestTools.Suite.Incremental
import VirtTestTools.Suite.QuarantineScan
import VirtTestTools.Suite.RepositoryScan
import VirtTestTools.Suite.RunLock
import VirtTestTools.Suite.StorageClasses
import VirtTestTools.Suite.VersionBranches
import VirtTestTools.Suite.VmiConditions
import VirtTestTools.Syntax
import VirtTestTools.Text
import VirtTestTools.Traversal
import VirtTestTools.UnifiedDiff
import VirtTestTools.Visits
import VirtTestTools.Worklist
import VirtTestTools.Yaml
