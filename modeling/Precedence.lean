import Precedence.Text.Span
import Precedence.Text.Lines
import Precedence.Number.Decimal
import Precedence.Number.Shortest
import Precedence.Text.Unicode.Classes
import Precedence.Text.Unicode.CaseFolding
import Precedence.Regex.Read
import Precedence.Classifier
import Precedence.Json.Read
import Precedence.Json.Write
import Precedence.LineScanner
import Precedence.Rule.Builder
import Precedence.Expr.Printer
import Precedence.Expr.Encode
import Precedence.Grammar.Parse
import Precedence.Grammar.Options.Format
import Precedence.Token.Listing
import Precedence.Grammar.Options.Yaml
import Precedence.Main
import Precedence.Pratt.Context
import Precedence.Proofs.Grammar.Conservation
import Precedence.Proofs.Grammar.Leaves
import Precedence.Proofs.Grammar.Parentheses
import Precedence.Proofs.Grammar.RoundTrip
import Precedence.Proofs.Rule.Contract
import Precedence.Proofs.Rule.Numbering
import Precedence.Proofs.Rule.Termination
import Precedence.Proofs.Rule.Transparency
import Precedence.Proofs.Grammar.Location
import Precedence.Proofs.Pratt.Binding
import Precedence.Proofs.Pratt.Agreement
import Precedence.Proofs.Text.Positions
import Precedence.Proofs.Classifier.Segmentation
import Precedence.Proofs.LineScanner.Coverage
import Precedence.Proofs.LineScanner.Spacing
import Precedence.Proofs.Grammar.Boundaries
import Precedence.Proofs.Grammar.Literals
import Precedence.Proofs.Grammar.Decoders
import Precedence.Proofs.Grammar.ReservedWords
import Precedence.Proofs.Grammar.Sites
import Precedence.Proofs.Pratt.Sites
import Precedence.Proofs.Pratt.Printed
import Precedence.Proofs.Pratt.Context
import Precedence.Proofs.Pratt.Quotation
import Precedence.Proofs.Rule.Calls
import Precedence.Proofs.Grammar.Validity
import Precedence.Proofs.Grammar.Outline
import Precedence.Proofs.LineScanner.Numerals
import Precedence.Proofs.Grammar.Captures
import Precedence.Proofs.Text.Terminators
