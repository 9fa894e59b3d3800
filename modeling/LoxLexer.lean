import LoxLexer.Cursor.Call
import LoxLexer.Editor.Workspace
import LoxLexer.Main
import LoxLexer.Proofs.Command.Breakdown
import LoxLexer.Proofs.Command.Contract
import LoxLexer.Proofs.Command.Files
import LoxLexer.Proofs.Command.Insertion
import LoxLexer.Proofs.Command.Presentation
import LoxLexer.Proofs.Cursor.Progress
import LoxLexer.Proofs.Cursor.Sharing
import LoxLexer.Proofs.Cursor.Total
import LoxLexer.Proofs.Editor.Agreement
import LoxLexer.Proofs.Editor.CodeUnits
import LoxLexer.Proofs.Editor.Designation
import LoxLexer.Proofs.Editor.Session
import LoxLexer.Proofs.Grammar.CleanLine
import LoxLexer.Proofs.Grammar.Tokenization
import LoxLexer.Proofs.Lexing.CarriageReturn
import LoxLexer.Proofs.Lexing.Comment
import LoxLexer.Proofs.Lexing.LineFeed
import LoxLexer.Proofs.Lexing.Overwriting
import LoxLexer.Proofs.Lexing.Respelling
import LoxLexer.Proofs.Listing.Overflow
import LoxLexer.Proofs.Listing.PlainText
import LoxLexer.Proofs.Table.Unambiguity
import LoxLexer.Proofs.Editor.Correspondence
import LoxLexer.Proofs.Number.Nearest
import LoxLexer.Proofs.Number.Reading
import LoxLexer.Proofs.Lexing.NumberLiteral
import LoxLexer.Proofs.Command.Merging
import LoxLexer.Proofs.Command.RoundTrip
