import VibeWorkflow.JsonProofs
import VibeWorkflow.ContractProofs
import VibeWorkflow.RoutingProofs
import VibeWorkflow.GraphProofs
import VibeWorkflow.TemplateProofs
import VibeWorkflow.ValidatorProofs
import VibeWorkflow.StaticRoutingProofs
import VibeWorkflow.WalkProofs
import VibeWorkflow.AcquisitionProofs
import VibeWorkflow.AgreementProofs
import VibeWorkflow.ApiProofs
import VibeWorkflow.BegunProofs
import VibeWorkflow.BoundedProofs
import VibeWorkflow.ChoiceProofs
import VibeWorkflow.ConfidentialityProofs
import VibeWorkflow.RecoveryProofs
import VibeWorkflow.ReplayPipelineProofs
import VibeWorkflow.TailProofs
import VibeWorkflow.EnvelopeProofs
import VibeWorkflow.FrameProofs
import VibeWorkflow.IdempotencyProofs
import VibeWorkflow.PairingProofs
import VibeWorkflow.PatternProofs
import VibeWorkflow.ReconnectProofs
import VibeWorkflow.RedactionProofs
import VibeWorkflow.RelayRoutingProofs
import VibeWorkflow.ResultPathProofs
import VibeWorkflow.RunLifecycleProofs
import VibeWorkflow.SlotProofs
import VibeWorkflow.CanonicalProofs
import VibeWorkflow.CompileKeyProofs
import VibeWorkflow.CompileOutcomeProofs
import VibeWorkflow.CompletionEvidenceProofs
import VibeWorkflow.CreateRequestProofs
import VibeWorkflow.EvaluationProofs
import VibeWorkflow.EventClientProofs
import VibeWorkflow.EventStreamProofs
import VibeWorkflow.LongRunProofs
import VibeWorkflow.PageProofs
import VibeWorkflow.PruneProofs
import VibeWorkflow.RecoverScanProofs
import VibeWorkflow.RecreateProofs
import VibeWorkflow.RenderingProofs
import VibeWorkflow.RunPayloadProofs
import VibeWorkflow.CursorProofs
import VibeWorkflow.EventCollectionProofs
import VibeWorkflow.TruncationProofs
import VibeWorkflow.AgentOutputProofs
import VibeWorkflow.ContainmentProofs
import VibeWorkflow.DurableResultProofs
import VibeWorkflow.OutputParserProofs
import VibeWorkflow.RepoPolicyProofs
import VibeWorkflow.SigningProofs
import VibeWorkflow.LookupProofs
import VibeWorkflow.RedactionFixedProofs
import VibeWorkflow.DominatorProofs
import VibeWorkflow.OutputBoundProofs
import VibeWorkflow.ApprovalProofs
import VibeWorkflow.SchemaProofs
