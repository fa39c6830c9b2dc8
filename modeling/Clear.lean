import Clear.Ai.Cdm.Proof.ReadingOrder
import Clear.Ai.Cdm.Proof.Sections
import Clear.Ai.DocPipeline.Proof.Citations
import Clear.Ai.Embedding.Proof.Convergence
import Clear.Ai.Embedding.Proof.Nvidia
import Clear.Ai.Embedding.Proof.Pairing
import Clear.Ai.Extraction.BatchPlanner
import Clear.Ai.Extraction.Proof.Corrections
import Clear.Ai.Extraction.Proof.DateConflicts
import Clear.Ai.Extraction.Proof.Isolation
import Clear.Ai.Extraction.Proof.Quotes
import Clear.Ai.Extraction.Proof.RiskFlag
import Clear.Ai.Extraction.Selector
import Clear.Ai.Graph.Proof.Coverage
import Clear.Ai.Parsers.Quality
import Clear.Ai.Proof.Resilience
import Clear.Ai.Rag.Proof.Citations
import Clear.Ai.Rag.Proof.Pricing
import Clear.Ai.Rag.Proof.Sanitise
import Clear.Ai.Rag.Proof.Schemas
import Clear.Ai.Retrieval.Proof.Analysis
import Clear.Ai.Retrieval.Proof.Assembly
import Clear.Ai.Retrieval.Proof.Deduplication
import Clear.Ai.Retrieval.Proof.Rerank
import Clear.Api.V1.Proof.Dashboard
import Clear.Core.Proof.Permissions
import Clear.Core.Proof.RateLimit
import Clear.Evaluation.Baseline
import Clear.Evaluation.ExtractionCompare
import Clear.Evaluation.Proof.Calibration
import Clear.Export.Proof.Reliability
import Clear.Export.Proof.Xlsx
import Clear.Orchestrator.Proof.Cancellation
import Clear.Orchestrator.Proof.Exclusion
import Clear.Orchestrator.Proof.FailureRecord
import Clear.Orchestrator.Proof.Force
import Clear.Orchestrator.Proof.Freshness
import Clear.Orchestrator.Proof.Generations
import Clear.Orchestrator.Proof.Metadata
import Clear.Orchestrator.Proof.RetryBudget
import Clear.Orchestrator.Proof.Standing
import Clear.Orchestrator.Stages.Proof.ClauseScope
import Clear.Orchestrator.Stages.Proof.Sections
import Clear.Queue.Proof.Budget
import Clear.Queue.Proof.RedisList
import Clear.Queue.Proof.RoundTrip
import Clear.Repositories.Proof.Neighbours
import Clear.Repositories.Proof.Paging
import Clear.Services.Proof.Administration.Members
import Clear.Services.Proof.Alerts.LifeCycle
import Clear.Services.Proof.Alerts.Rules
import Clear.Services.Proof.Archive
import Clear.Services.Proof.Binding
import Clear.Services.Proof.CallersChange
import Clear.Services.Proof.Deletion
import Clear.Services.Proof.Refusals
import Clear.Services.Proof.StoredFile
import Clear.Services.Proof.Transports
import Clear.Services.Sessions
import Clear.Storage.Proof.Local
