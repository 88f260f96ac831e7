import TigerTree.Assembly
import TigerTree.Command
import TigerTree.Decode
import TigerTree.Json.Encoding
import TigerTree.Main
import TigerTree.Outline.Expr
import TigerTree.Session
import TigerTree.Proofs.Json.Grammar
import TigerTree.Proofs.Json.Spelling
import TigerTree.Proofs.Decode.Token
import TigerTree.Proofs.Decode.Text
import TigerTree.Proofs.Decode.Number
import TigerTree.Proofs.Decode.Skip
import TigerTree.Proofs.Decode.Value
import TigerTree.Proofs.Decode.Bracket
import TigerTree.Proofs.Decode.Shape
import TigerTree.Proofs.Decode.Tree
import TigerTree.Proofs.Expr.Normalized
import TigerTree.Proofs.Json.Writing
import TigerTree.Proofs.Decode.RoundTrip
import TigerTree.Proofs.Evaluation.Compose
import TigerTree.Proofs.Evaluation.BigStep
import TigerTree.Proofs.Expr.Position
import TigerTree.Proofs.Evaluation.Entered
import TigerTree.Proofs.Evaluation.Raised
import TigerTree.Proofs.Evaluation.Normalized
import TigerTree.Proofs.Evaluation.Log
import TigerTree.Proofs.Expr.Produced
import TigerTree.Proofs.Evaluation.Result
import TigerTree.Proofs.Expr.Replacement
import TigerTree.Proofs.Evaluation.Congruence
import TigerTree.Proofs.Evaluation.Leading
import TigerTree.Proofs.Session.Books
import TigerTree.Proofs.Command.Refinement
import TigerTree.Proofs.Evaluation.Modular
import TigerTree.Proofs.Json.Cut
import TigerTree.Proofs.Decode.Following
import TigerTree.Proofs.Decode.Payload
import TigerTree.Proofs.Decode.Cut
import TigerTree.Proofs.Decode.Truncated
import TigerTree.Proofs.Expr.Same
import TigerTree.Proofs.Text.Quoted
import TigerTree.Proofs.Text.Lines
import TigerTree.Proofs.Outline.Inline
import TigerTree.Proofs.Outline.Flatten
import TigerTree.Proofs.Outline.Lines
import TigerTree.Proofs.Outline.Expr
import TigerTree.Proofs.Command.ShownTree
import TigerTree.Proofs.Evaluation.Proper
import TigerTree.Proofs.Evaluation.Spliced
import TigerTree.Proofs.Evaluation.Visited
import TigerTree.Proofs.Text.Brackets
import TigerTree.Proofs.Outline.Layout
import TigerTree.Proofs.Command.StandardInput
import TigerTree.Proofs.Decode.Placed
import TigerTree.Proofs.Decode.Position
import TigerTree.Proofs.Text.Filled
import TigerTree.Proofs.Report
import TigerTree.Proofs.Expr.Assembled
import TigerTree.Proofs.Decode.Bound
