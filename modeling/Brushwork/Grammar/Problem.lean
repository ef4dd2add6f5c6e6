import Brushwork.Token.Basic

/-!
What can be wrong with a row of tokens, and how it is reported.
-/

namespace Brushwork

/-- The two directions of the canvas. -/
inductive Axis where
  | x | y
deriving DecidableEq

/-- The name of the direction argument along an axis. -/
def Axis.argument : Axis → String
  | .x => "dirX"
  | .y => "dirY"

/-- Why a token is out of place. -/
inductive Problem.Cause where
  | notAStatement
  | secondSpawn
  | openParen (after : String)
  | closeParen (after : String)
  | comma (command : Command)
  | surplusArgument (command : Command) (count : Nat)
  | direction (axis : Axis)
  | colorName
  | openBracket
  | goToLabel
  | closeBracket
  | assignSign
  | endOfLine (after : String)
  | unexpected (lexeme : String)
  | unknownFunction (name : String)
  | argumentCount (name : String) (expected : Nat)
  | duplicateLabel (name : String)
  | undefinedLabel (name : String)
deriving DecidableEq

/-- The cause lies with a label: it is declared twice or not at all. -/
def Problem.Cause.isOfLabel : Problem.Cause → Bool
  | duplicateLabel _ | undefinedLabel _ => true
  | _ => false

/-- A fault of a row of tokens. -/
inductive Problem where
  /-- Something is wrong at a token. -/
  | near (token : Token) (cause : Problem.Cause)
  /-- The first statement, on that line, does not put the cursor down. -/
  | spawnNotFirst (line : Option Int)
  /-- No statement puts the cursor down. -/
  | missingSpawn
deriving DecidableEq

namespace Problem

/-- The wording of a cause. -/
def Cause.message : Cause → String
  | notAStatement => "Expected a statement, assignment or label."
  | secondSpawn => "Only one 'Spawn' allowed."
  | openParen after => "Expected '(' after " ++ after ++ "."
  | closeParen after => "Expected ')' after " ++ after ++ "."
  | comma command => "Expected ',' between " ++ command.word ++ " arguments."
  | surplusArgument command count =>
    command.word ++ " takes exactly " ++ toString count ++ " arguments."
  | direction axis => axis.argument ++ " must be -1, 0 or 1."
  | colorName => "Expected color name as string or identifier for Color."
  | openBracket => "Expected '[' after GoTo."
  | goToLabel => "Expected label inside GoTo brackets."
  | closeBracket => "Expected ']' after label."
  | assignSign => "Expected '<-' after variable name."
  | endOfLine after => "Expected end of line after " ++ after ++ "."
  | unexpected lexeme => "Unexpected token '" ++ lexeme ++ "'."
  | unknownFunction name => "Unknown function '" ++ name ++ "'"
  | argumentCount name expected =>
    let wanted :=
      if expected = 0 then "does not take arguments"
      else if expected = 1 then "requires 1 argument"
      else "requires " ++ toString expected ++ " arguments"
    "Function '" ++ name ++ "' " ++ wanted
  | duplicateLabel name => "Duplicate label '" ++ name ++ "'"
  | undefinedLabel name => "Undefined label '" ++ name ++ "'"

/-- A lexeme on one line: line ends inside it are written out. -/
def onOneLine (lexeme : String) : String :=
  String.ofList (lexeme.toList.flatMap fun c => if c = '\n' then ['\\', 'n'] else [c])

/-- A problem as it is reported. -/
def message : Problem → String
  | near token cause =>
    "[Line " ++ toString token.position.line ++ "] Error at '" ++ onOneLine token.lexeme ++ "': " ++
      cause.message
  | spawnNotFirst line =>
    "[Line " ++ (line.map toString).getD "None" ++
      "] Error: 'Spawn' must be the first executable statement"
  | missingSpawn => "Missing 'Spawn(...)' instruction at the beginning."

end Problem

end Brushwork
