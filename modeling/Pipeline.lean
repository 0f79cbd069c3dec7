import Pipeline.Component.Validation
import Pipeline.Main
import Pipeline.Proofs.Acceptance
import Pipeline.Proofs.AcceptedValues
import Pipeline.Proofs.Acyclicity
import Pipeline.Proofs.ArgumentSources
import Pipeline.Proofs.BranchCalls
import Pipeline.Proofs.BranchSelection
import Pipeline.Proofs.CallFit
import Pipeline.Proofs.ClaimMeaning
import Pipeline.Proofs.CommandEffects
import Pipeline.Proofs.ComponentDocuments
import Pipeline.Proofs.ComposedScopes
import Pipeline.Proofs.ConditionalVolumes
import Pipeline.Proofs.DeclaredVolumes
import Pipeline.Proofs.Dereferencing
import Pipeline.Proofs.DistinctNames
import Pipeline.Proofs.ErrorPaths
import Pipeline.Proofs.FailingReferences
import Pipeline.Proofs.FanOut
import Pipeline.Proofs.FiniteRegistries
import Pipeline.Proofs.FirstViolation
import Pipeline.Proofs.InlineTrees
import Pipeline.Proofs.InterfaceFrames
import Pipeline.Proofs.JoinedPaths
import Pipeline.Proofs.Labels
import Pipeline.Proofs.LoweringFaults
import Pipeline.Proofs.ManifestDocuments
import Pipeline.Proofs.NumberedDocuments
import Pipeline.Proofs.OutputSources
import Pipeline.Proofs.PortTypes
import Pipeline.Proofs.QuotedNames
import Pipeline.Proofs.Rearrangement
import Pipeline.Proofs.RenderedArguments
import Pipeline.Proofs.RepeatedTemplates
import Pipeline.Proofs.RequestOrder
import Pipeline.Proofs.SharedTemplates
import Pipeline.Proofs.StoredVersions
import Pipeline.Proofs.TaskOrder
import Pipeline.Proofs.VolumeClosure
import Pipeline.Proofs.VolumeEdges
