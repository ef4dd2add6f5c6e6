import Brushwork.Token.Segment

/-!
The tokens of a program text.

`Scan.ofSegments` walks along the segments of a text, keeps the place, and gathers tokens and
faults. Inside a string a backslash and the character behind it count as two columns of the line on
which they stand, whatever that character is.
-/

namespace Brushwork

/-! ### Places -/

/-- The place behind a string that begins at `p`. -/
def Position.afterQuoted (p : Position) : List Char → Position
  | [] => p
  | '\\' :: _ :: cs => (p.right 2).afterQuoted cs
  | '\n' :: cs => p.nextLine.afterQuoted cs
  | _ :: cs => (p.right 1).afterQuoted cs

/-- The place behind a segment that begins at `p`. -/
def Position.after (p : Position) (s : Segment) : Position :=
  match s.role with
  | .token .newline _ => p.nextLine
  | .token .string _ | .unclosed => p.afterQuoted s.text
  | _ => p.right s.text.length

/-! ### Faults -/

/-- What can be wrong with a program text before it is parsed. -/
inductive ScanFault.Cause where
  | unexpected (c : Char)
  | invalidNumber (digits : String)
  | unterminated
deriving DecidableEq

/-- A stretch of text that is no token, and the line on which it ends. -/
structure ScanFault where
  line : Nat
  cause : ScanFault.Cause
deriving DecidableEq

namespace ScanFault

/-- The wording of a cause. -/
def Cause.message : Cause → String
  | unexpected c => "Unexpected character '" ++ String.singleton c ++ "'."
  | invalidNumber digits => "Invalid number '" ++ digits ++ "'."
  | unterminated => "Unterminated string."

/-- A fault as it is reported. -/
def message (f : ScanFault) : String := "Line " ++ toString f.line ++ ": " ++ f.cause.message

end ScanFault

/-- What is wrong with a segment, if something is. -/
def Segment.cause? (s : Segment) : Option ScanFault.Cause :=
  match s.role with
  | .stray => some (.unexpected (s.text.headD ' '))
  | .tooLarge => some (.invalidNumber (String.ofList s.text))
  | .unclosed => some .unterminated
  | .token _ _ | .skipped | .overlong => none

/-- The token that a segment at `p` is, if it is one. -/
def Segment.token? (p : Position) (s : Segment) : Option Token :=
  match s.role with
  | .token kind literal => some ⟨kind, String.ofList s.text, literal, p⟩
  | _ => none

/-! ### Scanning -/

/-- What scanning a text gives: its tokens, its faults, and the place where the text ends. -/
structure Scan where
  tokens : List Token
  faults : List ScanFault
  finish : Position

namespace Scan

/-- The tokens and faults of segments that begin at `p`. -/
def ofSegments (p : Position) : List Segment → Scan
  | [] => ⟨[], [], p⟩
  | s :: ss =>
    let q := p.after s
    let r := ofSegments q ss
    ⟨(s.token? p).toList ++ r.tokens,
      (s.cause?.map fun cause => ⟨q.line, cause⟩).toList ++ r.faults,
      r.finish⟩

/-- The tokens with the mark that closes them. -/
def closed (s : Scan) : List Token := s.tokens ++ [.eof s.finish]

/-- The faults as they are reported. -/
def errors (s : Scan) : List String := s.faults.map ScanFault.message

end Scan

/-- A text holds a row of digits that is too long to be read. -/
def hasOverlongNumber (segments : List Segment) : Bool :=
  segments.any fun s => s.role == .overlong

/-- Scans a program text; there is no result for one with a row of digits too long to be read. -/
def scan? (source : String) : Option Scan :=
  let segments := Segment.cut source.toList
  if hasOverlongNumber segments then none else some (Scan.ofSegments .origin segments)

/-- Scanning one text `n` times over: the first time takes all of it, every further time only finds
its end once more. -/
def rescan? (source : String) : Nat → Option (List Token × List ScanFault)
  | 0 => some ([], [])
  | n + 1 =>
    (scan? source).map fun s => (s.tokens ++ List.replicate (n + 1) (.eof s.finish), s.faults)

end Brushwork
