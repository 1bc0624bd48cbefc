import MediaPipeline.Main
import MediaPipeline.Proofs.DryRun
import MediaPipeline.Proofs.DryRunDisk
import MediaPipeline.Proofs.PipeBytes
import MediaPipeline.Proofs.StoreInvariant
import MediaPipeline.Proofs.TemplateBinding
import MediaPipeline.Proofs.TemplateWalk
import MediaPipeline.Proofs.ArgumentLayout
import MediaPipeline.Proofs.ParsedTemplate
import MediaPipeline.Proofs.TemplateResolution
import MediaPipeline.Proofs.ValueIndependence
import MediaPipeline.Proofs.TemplatePrinter
import MediaPipeline.Proofs.TemplateRoundTrip
import MediaPipeline.Proofs.AcceptedPipelines
import MediaPipeline.Proofs.UnreadParameter
import MediaPipeline.Proofs.EvaluationGuarantees
import MediaPipeline.Proofs.RunCourse
import MediaPipeline.Proofs.RunScopes
import MediaPipeline.Proofs.LogNames
import MediaPipeline.Proofs.ProcessNumbers
import MediaPipeline.Proofs.RunFrame
import MediaPipeline.Proofs.Registration
import MediaPipeline.Proofs.IterationOrder
import MediaPipeline.Proofs.CleanupCoverage
import MediaPipeline.Proofs.WrittenLoops
import MediaPipeline.Proofs.LoopRanges
import MediaPipeline.Proofs.LoopRounds
import MediaPipeline.Proofs.SkippedStages
import MediaPipeline.Proofs.SkippedTail
import MediaPipeline.Proofs.MarkedOutput
import MediaPipeline.Proofs.SplitterAgreement
import MediaPipeline.Proofs.BlockGrammar
import MediaPipeline.Proofs.QuotedCommands
import MediaPipeline.Proofs.LiteralText
import MediaPipeline.Proofs.SharedConditions
import MediaPipeline.Proofs.WrittenReferences
import MediaPipeline.Proofs.TemplateWrites
import MediaPipeline.Proofs.ParameterWrites
import MediaPipeline.Proofs.SiblingListings
import MediaPipeline.Proofs.SiblingLoops
import MediaPipeline.Proofs.ParameterScans
import MediaPipeline.Proofs.ResourceAgreement
import MediaPipeline.Proofs.ChannelMappings
import MediaPipeline.Proofs.DefaultMapping
import MediaPipeline.Proofs.StraightPaths
import MediaPipeline.Proofs.CleanupExtent
import MediaPipeline.Proofs.StoredParameters
import MediaPipeline.Proofs.PackageLoading
import MediaPipeline.Proofs.FilledParameters
import MediaPipeline.Proofs.ProbedParameters
import MediaPipeline.Proofs.LogDirectoryCheck
