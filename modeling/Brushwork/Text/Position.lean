/-!
Places in a text. Lines and columns are counted from one, a column counts characters.
-/

namespace Brushwork

/-- A place in a text: the line, and the column within that line. -/
structure Position where
  line : Nat
  col : Nat
deriving DecidableEq

namespace Position

/-- Where every text begins. -/
def origin : Position := ⟨1, 1⟩

/-- The place `n` characters further on the same line. -/
def right (p : Position) (n : Nat) : Position := ⟨p.line, p.col + n⟩

/-- The first column of the next line. -/
def nextLine (p : Position) : Position := ⟨p.line + 1, 1⟩

end Position

end Brushwork
