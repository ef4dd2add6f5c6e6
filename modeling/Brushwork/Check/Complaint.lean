import Brushwork.Grammar.Problem

/-!
What can be wrong with a program that could be read.
-/

namespace Brushwork.Check

/-- The types of expressions. -/
inductive Ty where
  | integer | boolean
deriving DecidableEq

/-- The name of a type. -/
def Ty.label : Ty → String
  | .integer => "Integer"
  | .boolean => "Boolean"

/-- A fault of a program that could be read. -/
inductive Complaint where
  | spawnNotFirst
  | duplicateLabel (name : String)
  | spawnNotInteger (axis : Axis)
  | sizeNotInteger
  | argumentNotInteger (command : Command) (argument : String)
  | directionOutOfRange (command : Command) (axis : Axis)
  | undefinedLabel (name : String)
  | conditionNotBoolean
  | unhandledStatement (form : String)
  | textAsValue (text : String)
  | undefinedVariable (name : String)
  | unknownFunction (name : String)
  | typeMismatch (symbol : String)
  | unhandledExpression (form : String)
deriving DecidableEq

namespace Complaint

/-- The wording of a complaint. -/
def wording : Complaint → String
  | spawnNotFirst => "'Spawn' must be the first statement."
  | duplicateLabel name => "Duplicate label '" ++ name ++ "'."
  | spawnNotInteger .x => "Spawn X must evaluate to an integer."
  | spawnNotInteger .y => "Spawn Y must evaluate to an integer."
  | sizeNotInteger => "Size must be an integer expression."
  | argumentNotInteger command argument =>
    command.word ++ " " ++ argument ++ " must be an integer expression."
  | directionOutOfRange command axis =>
    command.word ++ " " ++ axis.argument ++ " literal must be -1, 0 or 1."
  | undefinedLabel name => "Undefined label '" ++ name ++ "' in GoTo."
  | conditionNotBoolean => "GoTo condition must be boolean."
  | unhandledStatement form => "Unhandled statement " ++ form ++ "."
  | textAsValue text => "String literal \"" ++ text ++ "\" cannot be used as a value."
  | undefinedVariable name => "Undefined variable '" ++ name ++ "'."
  | unknownFunction name => "Unknown function '" ++ name ++ "'."
  | typeMismatch symbol => "Type mismatch in binary expression '" ++ symbol ++ "'."
  | unhandledExpression form => "Unhandled expression " ++ form ++ "."

/-- A complaint as it is reported. -/
def message (c : Complaint) : String := "Semantic Error: " ++ c.wording

end Complaint

end Brushwork.Check
