import MethodSignature.Lexer.Step
import MethodSignature.Request
import MethodSignature.Signature.Data
import MethodSignature.Proofs.Cut
import MethodSignature.Proofs.TypeGrammar
import MethodSignature.Proofs.Block
import MethodSignature.Proofs.Number
import MethodSignature.Proofs.Quote
import MethodSignature.Proofs.Layout
import MethodSignature.Proofs.Token
import MethodSignature.Proofs.Grammar
import MethodSignature.Proofs.Lexer
import MethodSignature.Proofs.Soundness.Parameter
import MethodSignature.Proofs.Soundness.Signature
import MethodSignature.Proofs.Completeness.Parameter
import MethodSignature.Proofs.Completeness.Signature
import MethodSignature.Proofs.WellFormed
import MethodSignature.Proofs.Canonical
import MethodSignature.Proofs.RoundTrip
import MethodSignature.Proofs.Context
import MethodSignature.Proofs.Stability
import MethodSignature.Proofs.Alternation
import MethodSignature.Proofs.Located
import MethodSignature.Proofs.Safety
import MethodSignature.Proofs.Refusal
import MethodSignature.Proofs.Composition
import MethodSignature.Proofs.Relocation
import MethodSignature.Proofs.Conservation
import MethodSignature.Proofs.Lookahead
import MethodSignature.Proofs.Segmentation
import MethodSignature.Proofs.TypeConstraint
import MethodSignature.Proofs.Json
import MethodSignature.Proofs.Model
import MethodSignature.Proofs.Data
import MethodSignature.Proofs.Delimited
import MethodSignature.Proofs.Offset
import MethodSignature.Proofs.Quotation
import MethodSignature.Proofs.Extent
import MethodSignature.Proofs.Code
import MethodSignature.Proofs.Lookup
import MethodSignature.Proofs.Cursor
import MethodSignature.Proofs.Closing
import MethodSignature.Proofs.Literal
