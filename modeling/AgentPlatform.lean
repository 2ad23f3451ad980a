import AgentPlatform.SessionFencing
import AgentPlatform.Submission
import AgentPlatform.BudgetCalls
import AgentPlatform.PublishOrder
import AgentPlatform.ReservationClosing
import AgentPlatform.ConsumerProgress
import AgentPlatform.ClassificationCeiling
import AgentPlatform.ApprovalTrail
import AgentPlatform.ApprovalPermanence
import AgentPlatform.AuditEvidence
import AgentPlatform.PolicyContinuity
import AgentPlatform.VersionAllocation
import AgentPlatform.AdmissionBooks
import AgentPlatform.AdminIdempotency
import AgentPlatform.Deployments
import AgentPlatform.StorageReplication
import AgentPlatform.ChangeLog
import AgentPlatform.StorageControl
import AgentPlatform.StorageDiscipline
import AgentPlatform.StoragePrograms
import AgentPlatform.MigrationControl
import AgentPlatform.SwitchEvidence
import AgentPlatform.ChannelInbound
import AgentPlatform.InboundIdentity
import AgentPlatform.InboundLedger
import AgentPlatform.InboundRuns
import AgentPlatform.InboundPromises
import AgentPlatform.ReplyPromises
import AgentPlatform.LeaseRenewal
import AgentPlatform.OutboxDelivery
import AgentPlatform.FailoverLease
import AgentPlatform.Typestate
import AgentPlatform.ContentLifecycle
import AgentPlatform.LifecyclePhases
import AgentPlatform.LegalHolds
import AgentPlatform.LongConnectionFencing
import AgentPlatform.ProjectionDelivery
import AgentPlatform.ReserveOutcomes
import AgentPlatform.RetryContract
import AgentPlatform.RepeatedInvocations
import AgentPlatform.CheckpointLeases
import AgentPlatform.CandidateProfiles
import AgentPlatform.MaskedRequests
import AgentPlatform.AdmissionLimits
import AgentPlatform.AllowanceAdjustments
import AgentPlatform.BudgetPages
import AgentPlatform.DuplicateSubmissions
import AgentPlatform.CanaryIsolation
import AgentPlatform.ReplySplitting
import AgentPlatform.DeliveryBudgets
import AgentPlatform.RedisCache
import AgentPlatform.ArtifactGrants
import AgentPlatform.StreamedReplies
import AgentPlatform.MigrationOutcomes
import AgentPlatform.SubmittedEnvelopes
import AgentPlatform.StreamedSecrets
import AgentPlatform.ScannerCompleteness
import AgentPlatform.KnowledgeChunks
import AgentPlatform.SummaryWindow
import AgentPlatform.ReplyBackoff
import AgentPlatform.RateWindows
import AgentPlatform.CircuitBreaker
import AgentPlatform.StreamBatching
import AgentPlatform.MarkdownBalance
import AgentPlatform.WeComCrypto
