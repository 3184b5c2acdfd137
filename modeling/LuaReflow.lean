import LuaReflow.Text.Printable
import LuaReflow.Text.Blank
import LuaReflow.Text.Quote
import LuaReflow.Text.Digit
import LuaReflow.Tag
import LuaReflow.Token
import LuaReflow.Location
import LuaReflow.LexError
import LuaReflow.Config
import LuaReflow.Lexeme.Numeral
import LuaReflow.Lexeme.Bracket
import LuaReflow.Lexeme.Rule
import LuaReflow.Lexeme.Scan
import LuaReflow.Line
import LuaReflow.Document
import LuaReflow.Layout
import LuaReflow.Reflow
import LuaReflow.Source.Decode
import LuaReflow.Source.Tree
import LuaReflow.Command.Arguments
import LuaReflow.Command.Run
import LuaReflow.Main
import LuaReflow.Proofs.Document.Split
import LuaReflow.Proofs.Layout.Lines
import LuaReflow.Proofs.Lexeme.Extent
import LuaReflow.Proofs.Lexeme.Shape
import LuaReflow.Proofs.Lexeme.Scanned
import LuaReflow.Proofs.Lexeme.Relex
import LuaReflow.Proofs.Layout.Spaced
import LuaReflow.Proofs.Reflow.Rescan
import LuaReflow.Proofs.Blocks.Piece
import LuaReflow.Proofs.Document.Parameters
import LuaReflow.Proofs.Document.Starts
import LuaReflow.Proofs.Lexeme.Tiling
import LuaReflow.Proofs.Document.Notes
import LuaReflow.Proofs.Blocks.Chunk
import LuaReflow.Proofs.Blocks.Program
import LuaReflow.Proofs.Lexeme.Grammar
import LuaReflow.Proofs.Lexeme.Progress
import LuaReflow.Proofs.Lexeme.Language
import LuaReflow.Proofs.Lexeme.Faults
import LuaReflow.Proofs.Lexeme.Classes
import LuaReflow.Proofs.Text.Lines
