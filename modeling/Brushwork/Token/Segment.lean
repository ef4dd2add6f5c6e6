import Brushwork.Text.Numeral
import Brushwork.Token.Basic

/-!
Cutting a program text into segments.

A text falls into consecutive segments: tokens, single skipped characters, and stretches that are
no token. The cut is made at the front, by the longest match, until nothing is left.

* `Segment.first_append`: the first segment and the rest make up the text.
* `Segment.first_rest_length`: the rest is shorter, so the cutting ends.
* `Segment.flatMap_text_cut`: the segments of a text, one after the other, are the text.
-/

namespace Brushwork

/-- The largest number that can be written down. -/
def maxNumber : Nat := Nat.pow 2 31 - 1

/-- What a stretch of a program text is. -/
inductive Segment.Role where
  /-- A token of that kind, with the value that it stands for. -/
  | token (kind : Kind) (literal : Option Literal)
  /-- A character that is passed over. -/
  | skipped
  /-- A character that begins no token. -/
  | stray
  /-- A number above `maxNumber`. -/
  | tooLarge
  /-- A row of digits too long to be read as a number. -/
  | overlong
  /-- A string that is still open at the end of the text. -/
  | unclosed
deriving DecidableEq

/-- A stretch of a program text. -/
structure Segment where
  text : List Char
  role : Segment.Role
deriving DecidableEq

namespace Segment

/-! ### Characters -/

/-- A letter `a` to `z` or `A` to `Z`. -/
def isLetter (c : Char) : Bool := ('a' ≤ c && c ≤ 'z') || ('A' ≤ c && c ≤ 'Z')

/-- A character that can go on a word: letter, digit or underscore. -/
def isWordChar (c : Char) : Bool := isLetter c || Text.Digit.isAscii c || c == '_'

/-- The kind of a token of two characters. -/
def pairKind? : Char → Char → Option Kind
  | '<', '-' => some .assign
  | '<', '=' => some (.op .lessEqual)
  | '>', '=' => some (.op .greaterEqual)
  | '=', '=' => some (.op .equal)
  | '!', '=' => some (.op .notEqual)
  | '*', '*' => some (.op .pow)
  | '&', '&' => some (.op .and)
  | '|', '|' => some (.op .or)
  | _, _ => none

/-- The kind of a token of one character that is neither word nor number. -/
def singleKind? : Char → Option Kind
  | '\n' => some .newline
  | '<' => some (.op .less)
  | '>' => some (.op .greater)
  | '=' => some .equals
  | '!' => some .bang
  | '*' => some (.op .mul)
  | '+' => some (.op .add)
  | '-' => some (.op .sub)
  | '/' => some (.op .div)
  | '%' => some (.op .mod)
  | '(' => some .openParen
  | ')' => some .closeParen
  | '[' => some .openBracket
  | ']' => some .closeBracket
  | ',' => some .comma
  | _ => none

/-- A character that is passed over where it begins no token: blanks, and a single `&` or `|`. -/
def isPassedOver (c : Char) : Bool :=
  c == ' ' || c == '\t' || c == '\r' || c == '&' || c == '|'

/-! ### Strings -/

/-- Splits a text that follows an opening quote at the quote that closes it: what stands before that
quote, and what follows it. A backslash takes the next character with it. -/
def closeQuote? : List Char → Option (List Char × List Char)
  | [] => none
  | ['\\'] => none
  | '"' :: cs => some ([], cs)
  | '\\' :: c :: cs => (closeQuote? cs).map fun s => ('\\' :: c :: s.1, s.2)
  | c :: cs => (closeQuote? cs).map fun s => (c :: s.1, s.2)

/-- The text that the inside of a string stands for: a backslash gives way to the character that it
protects. -/
def unescape : List Char → List Char
  | [] => []
  | '\\' :: c :: cs => c :: unescape cs
  | c :: cs => c :: unescape cs

/-! ### The first segment -/

/-- The string that begins with the quote before `cs`. -/
def quoted (cs : List Char) : Segment × List Char :=
  match closeQuote? cs with
  | some (inside, rest) =>
    (⟨'"' :: inside ++ ['"'], .token .string (some (.text (String.ofList (unescape inside))))⟩, rest)
  | none => (⟨'"' :: cs, .unclosed⟩, [])

/-- What a row of digits is. -/
def digitsRole (ds : List Char) : Role :=
  if Text.Numeral.maxDigits < ds.length then .overlong
  else if maxNumber < Text.Numeral.ofAscii ds then .tooLarge
  else .token .number (some (.int (Text.Numeral.ofAscii ds)))

/-- The row of digits that begins with `c`. -/
def number (c : Char) (cs : List Char) : Segment × List Char :=
  let ds := c :: cs.takeWhile Text.Digit.isAscii
  (⟨ds, digitsRole ds⟩, cs.dropWhile Text.Digit.isAscii)

/-- The value that a word stands for: truth values for themselves, an identifier for its name. -/
def wordLiteral (w : String) : Kind → Option Literal
  | .truth b => some (.bool b)
  | .ident => some (.text w)
  | _ => none

/-- The word that begins with `c`. -/
def word (c : Char) (cs : List Char) : Segment × List Char :=
  let w := c :: cs.takeWhile isWordChar
  let kind := Kind.ofWord (String.ofList w)
  (⟨w, .token kind (wordLiteral (String.ofList w) kind)⟩, cs.dropWhile isWordChar)

/-- The segment of one character that `c` makes by itself. -/
def single (c : Char) (cs : List Char) : Segment × List Char :=
  match singleKind? c with
  | some kind => (⟨[c], .token kind none⟩, cs)
  | none => (⟨[c], if isPassedOver c then .skipped else .stray⟩, cs)

/-- The operator, the punctuation or the lone character that begins with `c`. -/
def mark (c : Char) : List Char → Segment × List Char
  | [] => single c []
  | d :: cs =>
    match pairKind? c d with
    | some kind => (⟨[c, d], .token kind none⟩, cs)
    | none => single c (d :: cs)

/-- The first segment of the text `c :: cs`, and what is left of the text. -/
def first (c : Char) (cs : List Char) : Segment × List Char :=
  if c = '"' then quoted cs
  else if Text.Digit.isAscii c then number c cs
  else if isLetter c then word c cs
  else mark c cs

/-! ### Nothing is lost -/

theorem closeQuote?_append {cs inside rest : List Char} (h : closeQuote? cs = some (inside, rest)) :
    inside ++ '"' :: rest = cs := by
  fun_induction closeQuote? cs generalizing inside with
  | case1 => simp at h
  | case2 => simp at h
  | case3 cs => simp_all
  | case4 c cs ih =>
    obtain ⟨⟨b, r⟩, hb, heq⟩ := Option.map_eq_some_iff.1 h
    obtain ⟨rfl, rfl⟩ := Prod.mk.inj heq
    simpa using ih hb
  | case5 c cs _ _ _ ih =>
    obtain ⟨⟨b, r⟩, hb, heq⟩ := Option.map_eq_some_iff.1 h
    obtain ⟨rfl, rfl⟩ := Prod.mk.inj heq
    simpa using ih hb

theorem quoted_append (cs : List Char) : (quoted cs).1.text ++ (quoted cs).2 = '"' :: cs := by
  rw [quoted]
  split
  · next inside rest h => simpa using closeQuote?_append h
  · simp

theorem single_append (c : Char) (cs : List Char) :
    (single c cs).1.text ++ (single c cs).2 = c :: cs := by
  rw [single]
  split <;> rfl

theorem mark_append (c : Char) (cs : List Char) :
    (mark c cs).1.text ++ (mark c cs).2 = c :: cs := by
  rw [mark.eq_def]
  split
  · exact single_append c []
  · split
    · rfl
    · exact single_append c _

theorem first_append (c : Char) (cs : List Char) :
    (first c cs).1.text ++ (first c cs).2 = c :: cs := by
  rw [first]
  split
  · next h => rw [h]; exact quoted_append cs
  · split
    · simp [number, List.takeWhile_append_dropWhile]
    · split
      · simp [word, List.takeWhile_append_dropWhile]
      · exact mark_append c cs

theorem first_text_ne_nil (c : Char) (cs : List Char) : (first c cs).1.text ≠ [] := by
  rw [first]
  split
  · unfold quoted; split <;> simp
  · split
    · simp [number]
    · split
      · simp [word]
      · unfold mark single
        repeat' split
        all_goals simp

theorem first_rest_length (c : Char) (cs : List Char) :
    (first c cs).2.length < (c :: cs).length := by
  have h := congrArg List.length (first_append c cs)
  have h' := List.length_pos_iff.2 (first_text_ne_nil c cs)
  rw [List.length_append] at h
  omega

/-! ### All segments -/

/-- The segments of a text, in order. -/
def cut : List Char → List Segment
  | [] => []
  | c :: cs =>
    let s := first c cs
    s.1 :: cut s.2
termination_by cs => cs.length
decreasing_by exact first_rest_length c cs

theorem flatMap_text_cut (cs : List Char) : (cut cs).flatMap text = cs := by
  fun_induction cut cs with
  | case1 => rfl
  | case2 c cs s ih => rw [List.flatMap_cons, ih]; exact first_append c cs

end Segment

end Brushwork
