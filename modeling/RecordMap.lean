import RecordMap.Floating.Interchange
import RecordMap.Condition
import RecordMap.Connection.Text
import RecordMap.World
import RecordMap.Proofs.Term
import RecordMap.Proofs.Lowering
import RecordMap.Proofs.Regions
import RecordMap.Proofs.Placeholders
import RecordMap.Proofs.Inlining
import RecordMap.Proofs.Lexer
import RecordMap.Proofs.Reading
import RecordMap.Proofs.Accepted
import RecordMap.Proofs.Batch
import RecordMap.Proofs.Rounding
import RecordMap.Proofs.RoundTrip
import RecordMap.Proofs.WellFormed
import RecordMap.Proofs.Ignored
import RecordMap.Proofs.ReadBack
import RecordMap.Proofs.FirstBuilt
import RecordMap.Proofs.OneStatement
import RecordMap.Proofs.OneByOne
import RecordMap.Proofs.Nearest
import RecordMap.Proofs.Numerals
import RecordMap.Proofs.Constants
import RecordMap.Proofs.EitherWay
import RecordMap.Proofs.Delimiters
import RecordMap.Proofs.Unambiguous
import RecordMap.Proofs.Typed
import RecordMap.Proofs.Cutting
import RecordMap.Proofs.SettingList
import RecordMap.Proofs.Encoding
import RecordMap.Proofs.UrlForm
import RecordMap.Proofs.Context
import RecordMap.Proofs.Resolution
import RecordMap.Proofs.Nodes
import RecordMap.Proofs.Breaches
import RecordMap.Proofs.NullOperands
import RecordMap.Proofs.OperandCount
import RecordMap.Proofs.Chains
import RecordMap.Proofs.Contents
import RecordMap.Proofs.Bindings
import RecordMap.Proofs.Rearranged
import RecordMap.Proofs.Loading
import RecordMap.Proofs.Matching
import RecordMap.Proofs.Reserved
import RecordMap.Proofs.IdentifierTexts
import RecordMap.Proofs.Histories
