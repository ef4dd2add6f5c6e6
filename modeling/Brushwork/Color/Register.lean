import Brushwork.Color.Call
import Brushwork.Table

/-!
The register of the colors.

A palette is kept in two parts, which are brought up to date one after the other: a row of the names in
the order of their codes, and a table of the codes. A code is looked up in the table, a name in the row.
-/

namespace Brushwork

/-- The color names in use, in a row and in a table. -/
structure Register where
  /-- The code of each name. -/
  codes : Table Nat
  /-- The names, in the order of their codes. -/
  names : Array String

namespace Register

/-- No color in use. -/
def empty : Register := ⟨.empty, #[]⟩

/-- The register behind a call for the code of a name, and the code. A name that is not in the table is
put at the end of the row, then into the table, with the length that the row has by then. -/
def code (r : Register) (name : String) : Register × Nat :=
  match r.codes.find? name with
  | some found => (r, found)
  | none =>
    let r := { r with names := r.names.push name }
    let code := r.names.size
    ({ r with codes := r.codes.put name code }, code)

/-- The code of a name, if it is in use. -/
def code? (r : Register) (name : String) : Option Nat := r.codes.find? name

/-- The name of a code, if it is one. -/
def name? (r : Register) (code : Int) : Option String :=
  if code = Palette.blank ∨ ¬(0 < code ∧ code ≤ r.names.size) then none
  else r.names[(code - 1).toNat]?

/-- The name is in use. -/
def contains (r : Register) (name : String) : Bool := r.codes.contains name

/-- How many names are in use. -/
def size (r : Register) : Nat := r.names.size

/-- The register behind a call, and the answer. -/
def answer (r : Register) : Palette.Call → Register × Palette.Answer
  | .code name => ((r.code name).1, .code (r.code name).2)
  | .find name => (r, .found (r.code? name))
  | .name code => (r, .name (r.name? code))
  | .contains name => (r, .truth (r.contains name))
  | .size => (r, .size r.size)

/-- The register behind a row of calls, and their answers. -/
def answerAll (r : Register) (calls : List Palette.Call) : Register × List Palette.Answer :=
  Palette.answerAll answer r calls

end Register

end Brushwork
