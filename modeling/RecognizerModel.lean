import RecognizerModel.Build.Model
import RecognizerModel.Report.Render
import RecognizerModel.Model.Encode
import RecognizerModel.Model.Outline
import RecognizerModel.Proofs.BareTranslation
import RecognizerModel.Proofs.CodeTokens
import RecognizerModel.Proofs.ContextFields
import RecognizerModel.Proofs.DecisionTables
import RecognizerModel.Proofs.BuiltParts
import RecognizerModel.Proofs.LayoutIndependence
import RecognizerModel.Proofs.Losslessness
import RecognizerModel.Proofs.ReferenceLabels
import RecognizerModel.Proofs.TokenTable
import RecognizerModel.Proofs.TreeBuilding
import RecognizerModel.Proofs.Validation
import RecognizerModel.Proofs.WellFormed
import RecognizerModel.Proofs.LexemeTiling
import RecognizerModel.Proofs.TokenGrammar
import RecognizerModel.Proofs.TreeTiling
import RecognizerModel.Proofs.ImplicitLabels
import RecognizerModel.Proofs.ChainFold
import RecognizerModel.Proofs.TokenNames
import RecognizerModel.Proofs.LosslessEncoding
import RecognizerModel.Proofs.PlacedOps
import RecognizerModel.Proofs.TokenPatterns
import RecognizerModel.Proofs.TokenBoundaries
import RecognizerModel.Proofs.ReferenceRouting
import RecognizerModel.Proofs.TypeSets
import RecognizerModel.Proofs.AttributeLists
import RecognizerModel.Proofs.ContextHistory
import RecognizerModel.Proofs.TokenContents
import RecognizerModel.Proofs.AttributeReferences
import RecognizerModel.Proofs.RewrittenNames
import RecognizerModel.Proofs.OutlineText
import RecognizerModel.Proofs.NodeSpans
import RecognizerModel.Proofs.DrawnLines
