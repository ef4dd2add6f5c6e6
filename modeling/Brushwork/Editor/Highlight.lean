import Brushwork.Table
import Brushwork.Token.Segment

/-!
The colors of a program text in the editor.

A line is colored by a row of rules: one for every reserved word, one for numbers and one for
strings. Every rule colors all that it finds, from left to right, and later rules go on top.

* `Pattern.spans`: what a rule finds in a line.
-/

namespace Brushwork.Editor

/-- The colors of words, numbers and strings. -/
structure SyntaxColors where
  keyword : String
  function : String
  number : String
  string : String
deriving DecidableEq

namespace SyntaxColors

/-- The colors that a table names; all four have to be there. -/
def ofTable? (t : Table String) : Option SyntaxColors := do
  return ⟨← t.find? "keyword", ← t.find? "function", ← t.find? "number", ← t.find? "string"⟩

/-- The colors on a light ground. -/
def light : SyntaxColors := ⟨"#0057b7", "#6a1b9a", "#b71c1c", "#2e7d32"⟩

/-- The colors on a dark ground. -/
def dark : SyntaxColors := ⟨"#569cd6", "#c586c0", "#ce9178", "#6a9955"⟩

end SyntaxColors

/-- What a rule looks for. -/
inductive Pattern where
  /-- A whole word. -/
  | word (w : String)
  /-- A whole word of digits. -/
  | number
  /-- A string with both its quotes. -/
  | string
deriving DecidableEq

/-- A stretch of a line. -/
structure Span where
  start : Nat
  length : Nat
deriving DecidableEq

/-! ### Words -/

/-- The words of a line, with their places: the longest rows of letters, digits and underscores. The
line goes on at place `i`, after a word that was begun and is read backwards. -/
def wordsFrom (i : Nat) (word : List Char) : List Char → List (Nat × List Char)
  | [] => if word.isEmpty then [] else [(i - word.length, word.reverse)]
  | c :: cs =>
    if Segment.isWordChar c then wordsFrom (i + 1) (c :: word) cs
    else if word.isEmpty then wordsFrom (i + 1) [] cs
    else (i - word.length, word.reverse) :: wordsFrom (i + 1) [] cs

/-- The spans of the words that pass a test. -/
def wordSpans (test : List Char → Bool) (line : List Char) : List Span :=
  ((wordsFrom 0 [] line).filter fun w => test w.2).map fun w => ⟨w.1, w.2.length⟩

/-! ### Strings -/

/-- How many characters it takes to the quote that closes a string, with that quote. A backslash
takes the next character with it, but no line end. -/
def closing? : List Char → Option Nat
  | [] => none
  | '"' :: _ => some 1
  | ['\\'] => none
  | '\\' :: c :: cs => if c = '\n' then none else (closing? cs).map (· + 2)
  | _ :: cs => (closing? cs).map (· + 1)

/-- The spans of the strings of a line that goes on at place `i`. A quote that nothing closes is
passed over. -/
def stringSpansFrom (i : Nat) (cs : List Char) : List Span :=
  match cs with
  | [] => []
  | '"' :: rest =>
    match closing? rest with
    | some n => ⟨i, n + 1⟩ :: stringSpansFrom (i + n + 1) (rest.drop n)
    | none => stringSpansFrom (i + 1) rest
  | _ :: rest => stringSpansFrom (i + 1) rest
termination_by cs.length
decreasing_by
  all_goals simp only [List.length_drop, List.length_cons]; omega

namespace Pattern

/-- What is found in a line, from left to right. -/
def spans : Pattern → List Char → List Span
  | word w, line => wordSpans (· == w.toList) line
  | number, line => wordSpans (·.all Text.Digit.isAscii) line
  | string, line => stringSpansFrom 0 line

/-- The pattern as a regular expression. -/
def regex : Pattern → String
  | word w => "\\b" ++ w ++ "\\b"
  | number => "\\b\\d+\\b"
  | string => "\"[^\"\\\\]*(?:\\\\.[^\"\\\\]*)*\""

end Pattern

/-! ### Rules -/

/-- The look of a stretch. -/
structure Style where
  color : String
  bold : Bool
deriving DecidableEq

/-- A rule: what it looks for, and how that looks then. -/
structure Rule where
  pattern : Pattern
  style : Style
deriving DecidableEq

/-- The rules, in the order in which they color. -/
def rules (colors : SyntaxColors) : List Rule :=
  (Kind.reserved.map fun (w, kind) =>
    ⟨.word w, match kind with
      | .builtin _ => ⟨colors.function, false⟩
      | _ => ⟨colors.keyword, true⟩⟩) ++
    [⟨.number, ⟨colors.number, false⟩⟩, ⟨.string, ⟨colors.string, false⟩⟩]

/-- How a line is colored: the spans with their looks, in the order in which they are laid on. -/
def highlightLine (colors : SyntaxColors) (line : String) : List (Span × Style) :=
  (rules colors).flatMap fun rule =>
    (rule.pattern.spans line.toList).map fun span => (span, rule.style)

/-- The coloring of the editor, and how often all was colored anew. -/
structure Highlighter where
  colors : SyntaxColors
  refreshes : Nat
deriving DecidableEq

namespace Highlighter

/-- Coloring with these colors. -/
def new (colors : SyntaxColors) : Highlighter := ⟨colors, 1⟩

/-- Other colors; all is colored anew. -/
def recolor (h : Highlighter) (colors : SyntaxColors) : Highlighter := ⟨colors, h.refreshes + 1⟩

/-- The colors to begin with: those of a table, or those on a light ground if there is no table or
nothing in it. -/
def initialColors? (t : Option (Table String)) : Option SyntaxColors :=
  match t with
  | none | some ⟨[]⟩ => some .light
  | some t => SyntaxColors.ofTable? t

end Highlighter

end Brushwork.Editor
