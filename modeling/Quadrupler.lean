import Quadrupler.CommandLine.Basic
import Quadrupler.CommandLine.Folder
import Quadrupler.Compile
import Quadrupler.Location
import Quadrupler.Lowering.Emit
import Quadrupler.Lowering.Error
import Quadrupler.Lowering.Generator
import Quadrupler.Lowering.Statement
import Quadrupler.Main
import Quadrupler.Operator
import Quadrupler.Proofs.CommandLine
import Quadrupler.Proofs.Compile
import Quadrupler.Proofs.Cost
import Quadrupler.Proofs.Join
import Quadrupler.Proofs.Layout
import Quadrupler.Proofs.Listing
import Quadrupler.Proofs.Loops
import Quadrupler.Proofs.Lowering.Code
import Quadrupler.Proofs.Lowering.Cost
import Quadrupler.Proofs.Lowering.Generator
import Quadrupler.Proofs.Lowering.History
import Quadrupler.Proofs.Lowering.Labels
import Quadrupler.Proofs.Lowering.Liveness
import Quadrupler.Proofs.Lowering.Loops
import Quadrupler.Proofs.Lowering.Meaning
import Quadrupler.Proofs.Lowering.Names
import Quadrupler.Proofs.Lowering.Numbering
import Quadrupler.Proofs.Lowering.Placing
import Quadrupler.Proofs.Lowering.Price
import Quadrupler.Proofs.Lowering.Renumber
import Quadrupler.Proofs.Lowering.Simplify
import Quadrupler.Proofs.Lowering.Total
import Quadrupler.Proofs.Names
import Quadrupler.Proofs.Quadruple.Check
import Quadrupler.Proofs.Quadruple.Direction
import Quadrupler.Proofs.Quadruple.Liveness
import Quadrupler.Proofs.Quadruple.Realization
import Quadrupler.Proofs.Quadruple.Run
import Quadrupler.Proofs.Quadruple.Sound
import Quadrupler.Proofs.Syntax.Blame
import Quadrupler.Proofs.Syntax.Brackets
import Quadrupler.Proofs.Syntax.Cursor
import Quadrupler.Proofs.Syntax.Deep
import Quadrupler.Proofs.Syntax.Depth
import Quadrupler.Proofs.Syntax.Earliest
import Quadrupler.Proofs.Syntax.ErrorPlace
import Quadrupler.Proofs.Syntax.Expression
import Quadrupler.Proofs.Syntax.Faultless
import Quadrupler.Proofs.Syntax.Formula
import Quadrupler.Proofs.Syntax.Limit
import Quadrupler.Proofs.Syntax.Parse
import Quadrupler.Proofs.Syntax.Place
import Quadrupler.Proofs.Syntax.Price
import Quadrupler.Proofs.Syntax.Program
import Quadrupler.Proofs.Syntax.Prompt
import Quadrupler.Proofs.Syntax.PromptExpression
import Quadrupler.Proofs.Syntax.PromptStatement
import Quadrupler.Proofs.Syntax.Reading
import Quadrupler.Proofs.Syntax.Shape
import Quadrupler.Proofs.Syntax.Statement
import Quadrupler.Proofs.Syntax.Steady
import Quadrupler.Proofs.Syntax.Step
import Quadrupler.Proofs.Token.Boundary
import Quadrupler.Proofs.Token.Brackets
import Quadrupler.Proofs.Token.Join
import Quadrupler.Proofs.Token.Lexeme
import Quadrupler.Proofs.Token.Longest
import Quadrupler.Proofs.Token.Print
import Quadrupler.Proofs.Token.Segments
import Quadrupler.Proofs.Token.Visible
import Quadrupler.Proofs.Token.Words
import Quadrupler.Proofs.Tree.Effect
import Quadrupler.Proofs.Tree.Normal
import Quadrupler.Proofs.Tree.Shape
import Quadrupler.Proofs.Tree.Walk
import Quadrupler.Proofs.Tree.Way
import Quadrupler.Proofs.Viewer.Highlight
import Quadrupler.Proofs.Viewer.Scroll
import Quadrupler.Quadruple.Basic
import Quadrupler.Quadruple.Check
import Quadrupler.Quadruple.Flow
import Quadrupler.Quadruple.Listing
import Quadrupler.Quadruple.Machine
import Quadrupler.Quadruple.Renumber
import Quadrupler.Quadruple.Sound
import Quadrupler.Screen.Basic
import Quadrupler.Screen.Panel
import Quadrupler.Screen.Style
import Quadrupler.Syntax.Cursor
import Quadrupler.Syntax.Error
import Quadrupler.Syntax.Expression
import Quadrupler.Syntax.Grammar
import Quadrupler.Syntax.Parse
import Quadrupler.Syntax.Reading
import Quadrupler.Syntax.Statement
import Quadrupler.Syntax.Step
import Quadrupler.Text.Blank
import Quadrupler.Text.Column
import Quadrupler.Text.Fields
import Quadrupler.Text.Letter
import Quadrupler.Text.Lines
import Quadrupler.Token.Basic
import Quadrupler.Token.Lexeme
import Quadrupler.Token.Scan
import Quadrupler.Tree.Basic
import Quadrupler.Tree.Execution
import Quadrupler.Tree.Formula
import Quadrupler.Tree.Normal
import Quadrupler.Tree.Simplify
import Quadrupler.Tree.Walk
import Quadrupler.Viewer.Basic
import Quadrupler.Viewer.Frame
import Quadrupler.Viewer.Panes
import Quadrupler.Viewer.Scroll
import Quadrupler.Viewer.Status
import Quadrupler.Viewer.Theme
