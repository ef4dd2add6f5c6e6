import Brushwork.Text.Numeral
import Brushwork.Token.Kind

/-!
What can go wrong while a program runs, and how it is reported.

A fault is reported by a message with the line of the statement that was running. Two things have
no message: an integer that is too long to be written down, and a radius that is too large to draw
a circle with. Beyond the bounds of what it runs on, a program is given up without any message.
-/

namespace Brushwork

/-- Why something has no message, or no result at all. -/
inductive Escape where
  /-- A row of digits in the program text is too long to be read. -/
  | overlongNumber
  /-- An integer is too long to be written into a message. -/
  | unwritable
  /-- The radius of a circle is too large for a floating-point number. -/
  | radiusTooLarge
  /-- The run has not come to an end. -/
  | unfinished
  /-- Calls are nested deeper in one another than there is room for. -/
  | tooDeep
  /-- A row of the canvas has more cells than can be counted. -/
  | uncountable
  /-- There is no memory for the canvas. -/
  | outOfMemory
deriving DecidableEq

/-- What stops a run. -/
inductive Fault where
  | missingSpawn
  | canvasNotPositive (size : Int)
  | stepLimit (limit : Int)
  | spawnOutside (x y : Int)
  | sizeNotPositive
  | cursorOutside (x y : Int)
  | undefinedLabel (name : String)
  | unknownStatement (form : String)
  | notANumber (text : String)
  | undefinedVariable (name : String)
  | divisionByZero
  | moduloByZero
  | notComputable (base exponent : Int)
  | unsupportedOperator (symbol : String)
  | unknownFunction (name : String)
  | argumentCount (name : String) (expected : Nat)
  | unsupportedExpression (form : String)
  | radiusTooLarge
deriving DecidableEq

namespace Fault

/-- An integer inside a message. -/
def number (n : Int) : Except Escape String :=
  match Text.Numeral.decimal? n with
  | some s => .ok s
  | none => .error .unwritable

/-- The wording of a fault, if it has one. -/
def wording : Fault → Except Escape String
  | missingSpawn => .ok "Missing initial Spawn."
  | canvasNotPositive size => return "Canvas size must be positive, got " ++ (← number size) ++ "."
  | stepLimit limit => return "Step limit of " ++ (← number limit) ++ " exceeded."
  | spawnOutside x y =>
    return "Spawn coordinates (" ++ (← number x) ++ ", " ++ (← number y) ++
      ") out of canvas bounds."
  | sizeNotPositive => .ok "Brush size must be greater than 0."
  | cursorOutside x y =>
    return "Cursor (" ++ (← number x) ++ ", " ++ (← number y) ++ ") is outside the canvas."
  | undefinedLabel name => .ok ("Undefined label: " ++ name)
  | unknownStatement form => .ok ("Unknown statement type: " ++ form)
  | notANumber text => .ok ("String \"" ++ text ++ "\" is not a number.")
  | undefinedVariable name => .ok ("Undefined variable " ++ name)
  | divisionByZero => .ok "Division by zero."
  | moduloByZero => .ok "Modulo by zero."
  | notComputable a b =>
    return "Cannot compute " ++ (← number a) ++ " ** " ++ (← number b) ++ "."
  | unsupportedOperator symbol => .ok ("Unsupported binary operator " ++ symbol)
  | unknownFunction name => .ok ("Unknown function " ++ name)
  | argumentCount name expected =>
    .ok ("Function '" ++ name ++ "' expects " ++ toString expected ++ " arguments.")
  | unsupportedExpression form => .ok ("Unsupported expression type: " ++ form)
  | radiusTooLarge => .error .radiusTooLarge

/-- A fault as it is reported, with the line on which it arose, if that is known. -/
def message (f : Fault) (line : Option Int) : Except Escape String := do
  let text ← f.wording
  match line with
  | some n => return "Line " ++ (← number n) ++ ": " ++ text
  | none => return text

end Fault

end Brushwork
