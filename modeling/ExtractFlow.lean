import ExtractFlow.Lib.Transition
import ExtractFlow.Lib.Table
import ExtractFlow.Lib.UtcTime
import ExtractFlow.Lib.Failing
import ExtractFlow.Lib.LowerCase
import ExtractFlow.ExternalPolicy
import ExtractFlow.ReviewRaces
import ExtractFlow.ExportGate
import ExtractFlow.ExportIntegrity
import ExtractFlow.Exports
import ExtractFlow.ApproveAll
import ExtractFlow.ProcessOnce
import ExtractFlow.Cancellation
import ExtractFlow.RoutePermissions
import ExtractFlow.ParsedText
import ExtractFlow.BlobStore
import ExtractFlow.DocumentStatus
import ExtractFlow.CalculationLimits
import ExtractFlow.CalculationOrder
import ExtractFlow.VersionDiff
import ExtractFlow.TenantChain
import ExtractFlow.ClaimCounting
import ExtractFlow.DryRun
import ExtractFlow.ProfileRaces
import ExtractFlow.Conditionals
import ExtractFlow.Comparisons
import ExtractFlow.HelperCalls
import ExtractFlow.StructuredValues
import ExtractFlow.FieldRules
import ExtractFlow.IfCalls
import ExtractFlow.Sandbox
import ExtractFlow.BestCandidate
import ExtractFlow.Chunking
import ExtractFlow.PageMarkers
import ExtractFlow.Feedback
import ExtractFlow.Recognizers
import ExtractFlow.RedactedResults
import ExtractFlow.ReviewComposition
import ExtractFlow.StorageReferences
import ExtractFlow.Uploads
import ExtractFlow.ProbeFreshness
import ExtractFlow.AuditPages
import ExtractFlow.FeedbackSuggestions
import ExtractFlow.FeedbackAccounting
import ExtractFlow.DependencySort
import ExtractFlow.EvalHarness
import ExtractFlow.StructuredEditor
import ExtractFlow.TableEditor
import ExtractFlow.LangExtractDrafts
import ExtractFlow.DraftGuidance
import ExtractFlow.ExtractionReadiness
import ExtractFlow.SchemaCopy
import ExtractFlow.AppliedSuggestions
import ExtractFlow.ProviderForm
import ExtractFlow.ReviewDrafts
import ExtractFlow.SavedReviews
import ExtractFlow.Suspension
import ExtractFlow.StoredResults
import ExtractFlow.AuditTrail
import ExtractFlow.ProviderCalls
import ExtractFlow.QueueFairness
import ExtractFlow.WorkspacePage
