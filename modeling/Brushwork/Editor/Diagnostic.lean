import Brushwork.Machine.Fault
import Brushwork.Text.Line
import Brushwork.Text.Numeral

/-!
Diagnostics: messages with the lines that they speak of, and hints on a text that was not run.
-/

namespace Brushwork.Editor

/-- A message, and its line if it has one. -/
structure Diagnostic where
  line : Option Nat
  text : String
deriving DecidableEq

/-! ### The line of a message -/

/-- The digits between `front` and the character `close`, where a text begins so. -/
def digitsBetween? (front : String) (close : Char) (cs : List Char) : Option (List Char) :=
  if front.toList.isPrefixOf cs then
    let rest := cs.drop front.length
    let digits := rest.takeWhile Text.Digit.isDecimal
    if digits.isEmpty ∨ (rest.dropWhile Text.Digit.isDecimal).head? ≠ some close then none
    else some digits
  else none

/-- The digits of the line that a message names at its beginning. -/
def lineDigits? (message : String) : Option (List Char) :=
  (digitsBetween? "[Line " ']' message.toList).or (digitsBetween? "Line " ':' message.toList)

/-- The line that a message names; a number that is too long cannot be read. -/
def lineOf (message : String) : Except Escape (Option Nat) :=
  match lineDigits? message with
  | none => .ok none
  | some digits =>
    match Text.Numeral.nat? digits with
    | some n => .ok (some n)
    | none => .error .overlongNumber

/-- The diagnostics of messages. -/
def diagnose (messages : List String) : Except Escape (List Diagnostic) :=
  messages.mapM fun message => do return ⟨← lineOf message, message⟩

/-! ### Hints -/

/-- What can be said of a line by its looks. -/
inductive Hint where
  | spawnFirst
  | goToForm
  | assignmentForm
  | trailingBlanks
deriving DecidableEq

namespace Hint

/-- The words of a hint. -/
def message : Hint → String
  | spawnFirst => "Programs must start with Spawn(x, y)"
  | goToForm => "GoTo syntax: GoTo [label] (condition)"
  | assignmentForm => "Assignment uses '<-': name <- expression"
  | trailingBlanks => "Trailing whitespace"

end Hint

/-- The text begins with a misspelled assignment: an arrow to the right, an arrow with an equals
sign, or a colon with one. -/
def startsMisspelled (cs : List Char) : Bool :=
  let next (rest : List Char) (c : Char) : Bool := (rest.dropWhile Text.isBlank).head? = some c
  match cs with
  | ':' :: '=' :: _ => true
  | c :: rest =>
    (c = '=' && next rest '<') ||
      (c != '<' && match rest with
        | '-' :: rest => next rest '>'
        | _ => false)
  | [] => false

/-- Some part of the text is a misspelled assignment. -/
def hasMisspelled : List Char → Bool
  | [] => false
  | c :: cs => startsMisspelled (c :: cs) || hasMisspelled cs

/-- The hints on a line that do not depend on the lines before it. -/
def lineHints (line : List Char) : List Hint :=
  let trimmed := Text.trim line
  (if "GoTo".toList.isPrefixOf trimmed && !trimmed.contains '[' then [Hint.goToForm] else []) ++
    (if hasMisspelled trimmed then [Hint.assignmentForm] else []) ++
    (if Text.trimEnd line ≠ line then [Hint.trailingBlanks] else [])

/-- The hint on the first line that is not blank. -/
def firstHint (lines : List (List Char × Nat)) : List (Nat × Hint) :=
  match lines.find? fun line => !(Text.trim line.1).isEmpty with
  | some (line, number) =>
    if "Spawn".toList.isPrefixOf (Text.trim line) then [] else [(number, .spawnFirst)]
  | none => []

/-- The hints on a text, with their lines. -/
def hints (text : String) : List (Nat × Hint) :=
  let lines := (Text.splitLines text.toList).zipIdx 1
  firstHint lines ++ lines.flatMap fun line => (lineHints line.1).map fun hint => (line.2, hint)

/-- A hint as a diagnostic. -/
def hintDiagnostic (hint : Nat × Hint) : Diagnostic :=
  ⟨some hint.1, "Hint (line " ++ toString hint.1 ++ "): " ++ hint.2.message⟩

/-- The diagnostics of the messages of a run, and the hints on the text as it is now. -/
def collectDiagnostics (messages : List String) (text : String) :
    Except Escape (List Diagnostic) :=
  (diagnose messages).map (· ++ (hints text).map hintDiagnostic)

end Brushwork.Editor
