import SourceAudit.Main
import SourceAudit.Page.Dashboard
import SourceAudit.Project.Index
import SourceAudit.Proofs.AdvisoryOrder
import SourceAudit.Proofs.AssignedNames
import SourceAudit.Proofs.BlockNesting
import SourceAudit.Proofs.BuildFileVersions
import SourceAudit.Proofs.CacheMap
import SourceAudit.Proofs.CommandInjection
import SourceAudit.Proofs.CommandReport
import SourceAudit.Proofs.ConnectionLog
import SourceAudit.Proofs.ContextRanges
import SourceAudit.Proofs.ContextSnippets
import SourceAudit.Proofs.CountedFlows
import SourceAudit.Proofs.CrossFileChains
import SourceAudit.Proofs.DeclaredFunctions
import SourceAudit.Proofs.EntityCoding
import SourceAudit.Proofs.EvidenceChecks
import SourceAudit.Proofs.FencedReplies
import SourceAudit.Proofs.FileLog
import SourceAudit.Proofs.GroundedThreats
import SourceAudit.Proofs.HookNesting
import SourceAudit.Proofs.LineNumbers
import SourceAudit.Proofs.ModuleRequirements
import SourceAudit.Proofs.MonitoredOutcomes
import SourceAudit.Proofs.NearestMarked
import SourceAudit.Proofs.PageMarkup
import SourceAudit.Proofs.PayloadBudget
import SourceAudit.Proofs.ProjectIdentity
import SourceAudit.Proofs.ProjectRisk
import SourceAudit.Proofs.ReportedOnce
import SourceAudit.Proofs.RequirementLines
import SourceAudit.Proofs.RuleMatches
import SourceAudit.Proofs.RunnerLiterals
import SourceAudit.Proofs.SavedReports
import SourceAudit.Proofs.SettingsUnion
import SourceAudit.Proofs.SourceReaders
import SourceAudit.Proofs.StackLines
import SourceAudit.Proofs.StatementExtents
import SourceAudit.Proofs.StrippedLines
import SourceAudit.Proofs.TargetBudget
import SourceAudit.Proofs.ThreatShapes
import SourceAudit.Proofs.ThreatUnion
import SourceAudit.Proofs.TreeOperations
import SourceAudit.Proofs.WholeNames
