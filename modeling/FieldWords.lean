import FieldWords.Assignment
import FieldWords.Chain
import FieldWords.Expr
import FieldWords.Failure
import FieldWords.Json.Reader
import FieldWords.Json.Writer
import FieldWords.Order
import FieldWords.Panic.Program
import FieldWords.Rlp
import FieldWords.Proofs.Bytes
import FieldWords.Proofs.Chain
import FieldWords.Proofs.Evaluation
import FieldWords.Proofs.Felt.Residue
import FieldWords.Proofs.Felt.Arithmetic
import FieldWords.Proofs.Felt.Field
import FieldWords.Proofs.Panic.Checked
import FieldWords.Proofs.Panic.Layers
import FieldWords.Proofs.Payload.Contains
import FieldWords.Proofs.Payload.Message
import FieldWords.Proofs.Text.Boundary
import FieldWords.Proofs.Text.Hex
import FieldWords.Proofs.Felt.Reading
import FieldWords.Proofs.U256.Encoding
import FieldWords.Proofs.U256.Reading
import FieldWords.Proofs.Rlp
import FieldWords.Proofs.Felt.Origin
import FieldWords.Proofs.Rlp.Agreement
import FieldWords.Proofs.U128.Arithmetic
import FieldWords.Proofs.U256.Arithmetic
import FieldWords.Proofs.Felt.Narrowing
import FieldWords.Proofs.Felt.Integers
import FieldWords.Proofs.Json.Token
import FieldWords.Proofs.Json.RoundTrip
import FieldWords.Proofs.Address
import FieldWords.Proofs.U128.Native
import FieldWords.Proofs.U256.Division
import FieldWords.Proofs.Payload.Alignment
import FieldWords.Proofs.Felt.ShortString
import FieldWords.Proofs.Text.NormalForm
import FieldWords.Proofs.U256.Writing
import FieldWords.Proofs.Felt.Bytes
import FieldWords.Proofs.Lexicographic
import FieldWords.Proofs.Order
import FieldWords.Proofs.U256.Layout
import FieldWords.Proofs.U256.Bits
import FieldWords.Proofs.Totals
import FieldWords.Proofs.U128.Columns
import FieldWords.Proofs.Sequence
import FieldWords.Proofs.Guarded
import FieldWords.Proofs.Text.Quoted
import FieldWords.Proofs.Rlp.List
import FieldWords.Proofs.Sequence.Session
import FieldWords.Proofs.Sorting
