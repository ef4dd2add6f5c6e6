import Brushwork.Text.Blank
import Brushwork.Text.Digit

/-!
Integers in decimal notation, with a bound on their length.

Numbers of more than `maxDigits` digits are neither read nor written: `decimal?` has no text for
them, and `int?` refuses them.
-/

namespace Brushwork.Text.Numeral

/-- The longest decimal notation that is read or written. -/
def maxDigits : Nat := 4300

/-- The number that a row of digit values stands for. -/
def ofDigits (ds : List Nat) : Nat := ds.foldl (fun n d => 10 * n + d) 0

/-- The number that a row of the digits `0` to `9` stands for. -/
def ofAscii (cs : List Char) : Nat := ofDigits (cs.map fun c => c.toNat - 48)

/-- The decimal text of an integer, unless it has too many digits. -/
def decimal? (n : Int) : Option String :=
  if n.natAbs < Nat.pow 10 maxDigits then some (toString n) else none

/-- The digit values of a row of digits in which single underscores may stand between digits. -/
def digits? : List Char → Option (List Nat)
  | [] => none
  | [c] => (Digit.value? c).map ([·])
  | c :: '_' :: cs => do
    let d ← Digit.value? c
    let ds ← digits? cs
    return d :: ds
  | c :: cs => do
    let d ← Digit.value? c
    let ds ← digits? cs
    return d :: ds

/-- Reads digits without a sign, unless there are too many. -/
def nat? (cs : List Char) : Option Nat := do
  let ds ← digits? cs
  guard (ds.length ≤ maxDigits)
  return ofDigits ds

/-- Reads an integer as a user types it: blanks around it, a sign, digits of any script with single
underscores between them. -/
def int? (s : String) : Option Int :=
  match trim s.toList with
  | '-' :: cs => (nat? cs).map fun n => -(n : Int)
  | '+' :: cs => (nat? cs).map fun n => (n : Int)
  | cs => (nat? cs).map fun n => (n : Int)

end Brushwork.Text.Numeral
