/-!
Line ends. A text read from a file has its line ends made alike, `unifyNewlines`; a text in the
editor is looked at line by line, `splitLines`, where more characters end a line.
-/

namespace Brushwork.Text

/-- Writes every line end as a single line feed: a carriage return, alone or before a line feed,
is one too. -/
def unifyNewlines : List Char → List Char
  | [] => []
  | '\r' :: '\n' :: cs => '\n' :: unifyNewlines cs
  | '\r' :: cs => '\n' :: unifyNewlines cs
  | c :: cs => c :: unifyNewlines cs

/-- The character ends a line: line feed, carriage return, vertical tab, form feed, the file, group
and record separators, next line, and the line and paragraph separators. -/
def endsLine (c : Char) : Bool :=
  let n := c.toNat
  (0xa ≤ n && n ≤ 0xd) || (0x1c ≤ n && n ≤ 0x1e) || n == 0x85 || n == 0x2028 || n == 0x2029

/-- The lines of a text that goes on after `line`, read backwards; a line end at the very end of the
text opens no further line. -/
def splitLinesFrom (line : List Char) : List Char → List (List Char)
  | [] => if line.isEmpty then [] else [line.reverse]
  | '\r' :: '\n' :: cs => line.reverse :: splitLinesFrom [] cs
  | c :: cs =>
    if endsLine c then line.reverse :: splitLinesFrom [] cs else splitLinesFrom (c :: line) cs

/-- The lines of a text, without their ends. -/
def splitLines (cs : List Char) : List (List Char) := splitLinesFrom [] cs

end Brushwork.Text
