import OperationLibrary.Client.Session
import OperationLibrary.Command.Outcome
import OperationLibrary.Document.Literals
import OperationLibrary.Lockfile
import OperationLibrary.Main
import OperationLibrary.Proofs.CacheEntries
import OperationLibrary.Proofs.ConditionalRequests
import OperationLibrary.Proofs.DependencyOrder
import OperationLibrary.Proofs.Execution
import OperationLibrary.Proofs.Lexemes
import OperationLibrary.Proofs.NormalForm
import OperationLibrary.Proofs.ProjectedEntries
import OperationLibrary.Proofs.QueryText
import OperationLibrary.Proofs.Reachability
import OperationLibrary.Proofs.RequiredKeys
import OperationLibrary.Proofs.ResponseCoverage
import OperationLibrary.Proofs.RunTypes
import OperationLibrary.Proofs.SelectionProjection
import OperationLibrary.Proofs.SelfContained
import OperationLibrary.Proofs.ShapePlaces
import OperationLibrary.Proofs.SpreadInlining
import OperationLibrary.Proofs.TemplateLiteral
import OperationLibrary.Proofs.ValidProjection
import OperationLibrary.Proofs.Validity
import OperationLibrary.Proofs.ValidityCheck
import OperationLibrary.Schema.Files
import OperationLibrary.Shape.FullType
import OperationLibrary.Sink
import OperationLibrary.Text.WordCharacter
import OperationLibrary.Proofs.BlockLines
import OperationLibrary.Proofs.BlockText
import OperationLibrary.Proofs.NumberText
import OperationLibrary.Proofs.StringText
import OperationLibrary.Proofs.FragmentClosure
import OperationLibrary.Proofs.SharedMemo
import OperationLibrary.Proofs.AnnotationTables
import OperationLibrary.Proofs.LibraryInputs
import OperationLibrary.Proofs.OrderSteps
import OperationLibrary.Proofs.CycleWarnings
import OperationLibrary.Proofs.StableOrder
import OperationLibrary.Proofs.ShapeReading
import OperationLibrary.Proofs.FullSelection
import OperationLibrary.Proofs.HandlerCalls
import OperationLibrary.Proofs.Unfolding
import OperationLibrary.Proofs.CanonicalOrder
import OperationLibrary.Proofs.ToolingDirectives
import OperationLibrary.Proofs.MatchingDeclarations
import OperationLibrary.Proofs.WrapperLimit
import OperationLibrary.Proofs.MergeAlgebra
import OperationLibrary.Proofs.GroupedSelections
import OperationLibrary.Proofs.RecentUse
import OperationLibrary.Proofs.LatestPuts
import OperationLibrary.Proofs.SharedAnswers
import OperationLibrary.Proofs.GeneratedFiles
import OperationLibrary.Proofs.ExtractedDefinitions
import OperationLibrary.Proofs.FetchMethods
import OperationLibrary.Proofs.RenamedOperations
import OperationLibrary.Proofs.VariableDescriptions
import OperationLibrary.Proofs.TemplateEscapes
import OperationLibrary.Proofs.DescriptionComments
import OperationLibrary.Proofs.ExportedNames
import OperationLibrary.Proofs.RequestParameters
import OperationLibrary.Proofs.ReadValues
import OperationLibrary.Proofs.IndentedTypes
import OperationLibrary.Proofs.FragmentExpansion
