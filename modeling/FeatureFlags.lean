import FeatureFlags.Draft.Edit
import FeatureFlags.Json.Distinct
import FeatureFlags.Log.Logged
import FeatureFlags.Main
import FeatureFlags.Proofs.CommaLists
import FeatureFlags.Proofs.Conditions
import FeatureFlags.Proofs.Tables
import FeatureFlags.Proofs.Chains
import FeatureFlags.Proofs.Records
import FeatureFlags.Proofs.Resaving
import FeatureFlags.Proofs.Findings
import FeatureFlags.Proofs.ValidDrafts
import FeatureFlags.Proofs.WellFormed
import FeatureFlags.Proofs.Places
import FeatureFlags.Proofs.NormalForm
import FeatureFlags.Proofs.Reopening
import FeatureFlags.Proofs.NumberText
import FeatureFlags.Proofs.ValueText
import FeatureFlags.Proofs.DraftJson
import FeatureFlags.Proofs.DefaultVariants
import FeatureFlags.Proofs.MissingSubjects
import FeatureFlags.Proofs.ValidDocuments
import FeatureFlags.Proofs.RecordText
import FeatureFlags.Proofs.Nesting
import FeatureFlags.Proofs.DocumentText
import FeatureFlags.Proofs.SaveRequests
import FeatureFlags.Proofs.TypedVariants
import FeatureFlags.Proofs.FlagTrees
import FeatureFlags.Proofs.DocumentTrees
import FeatureFlags.Proofs.Warnings
import FeatureFlags.Proofs.CompiledVariants
import FeatureFlags.Proofs.ChainPositions
import FeatureFlags.Proofs.Negations
