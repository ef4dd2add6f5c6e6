/-!
Square canvases.

A canvas has as many rows as columns. `x` counts the columns and `y` the rows, from the corner at
the top left; a cell holds a color code, zero where nothing was painted.
-/

namespace Brushwork

/-- A square canvas of cells with color codes. -/
structure Canvas where
  size : Nat
  rows : Array (Array Nat)
deriving DecidableEq

namespace Canvas

/-- A canvas on which nothing was painted. -/
def blank (size : Nat) : Canvas := ⟨size, Array.replicate size (Array.replicate size 0)⟩

/-- The cell lies on the canvas. -/
def contains (c : Canvas) (x y : Int) : Bool :=
  decide (0 ≤ x ∧ x < c.size ∧ 0 ≤ y ∧ y < c.size)

/-- The code of a cell; off the canvas every cell is blank. -/
def cell (c : Canvas) (x y : Int) : Nat :=
  if 0 ≤ x ∧ 0 ≤ y then (c.rows[y.toNat]?.bind fun row => row[x.toNat]?).getD 0 else 0

/-- A place in a row of `n`, where negative numbers count from the end. -/
def place? (n : Nat) (i : Int) : Option Nat :=
  if 0 ≤ i ∧ i < n then some i.toNat
  else if i < 0 ∧ 0 ≤ i + n then some (i + n).toNat
  else none

/-- The code of a cell, where negative numbers count from the end; none off the canvas. -/
def cellFromEnd? (c : Canvas) (x y : Int) : Option Nat := do
  let row ← c.rows[(← place? c.rows.size y)]?
  row[(← place? row.size x)]?

/-- Gives a cell a code; off the canvas nothing happens. -/
def setCell (c : Canvas) (x y : Int) (code : Nat) : Canvas :=
  if 0 ≤ x ∧ 0 ≤ y then
    { c with rows := c.rows.modify y.toNat fun row => row.setIfInBounds x.toNat code }
  else c

/-- Gives `n` cells of a row, from column `x` on, a code. -/
def paintRow (code : Nat) (x : Nat) : Nat → Array Nat → Array Nat
  | 0, row => row
  | n + 1, row => paintRow code (x + 1) n (row.setIfInBounds x code)

/-- Gives `w` cells, from column `x` on, of `h` rows, from row `y` on, a code. -/
def paintRows (code x w y : Nat) : Nat → Array (Array Nat) → Array (Array Nat)
  | 0, rows => rows
  | h + 1, rows => paintRows code x w (y + 1) h (rows.modify y (paintRow code x w))

/-- Gives every cell of the canvas from `(x₀, y₀)` to `(x₁, y₁)`, both included, a code. -/
def paintBlock (c : Canvas) (x₀ y₀ x₁ y₁ : Int) (code : Nat) : Canvas :=
  let left := max x₀ 0
  let top := max y₀ 0
  let right := min x₁ (c.size - 1)
  let bottom := min y₁ (c.size - 1)
  { c with
    rows := paintRows code left.toNat (right - left + 1).toNat top.toNat (bottom - top + 1).toNat
      c.rows }

/-- How many cells from `(x₀, y₀)` to `(x₁, y₁)`, both included, have a code. -/
def countCode (c : Canvas) (x₀ y₀ x₁ y₁ : Int) (code : Nat) : Nat :=
  let rows := (c.rows.toList.take (y₁ + 1).toNat).drop y₀.toNat
  rows.foldl (fun n row => n + ((row.toList.take (x₁ + 1).toNat).drop x₀.toNat).count code) 0

/-- The cells that are not blank, row by row. -/
def painted (c : Canvas) : List (Nat × Nat) :=
  c.rows.toList.zipIdx.flatMap fun row =>
    (row.1.toList.zipIdx.filter fun cell => cell.1 ≠ 0).map fun cell => (cell.2, row.2)

/-- The canvas as text: a row of the canvas is a line of the text. -/
def render (c : Canvas) (blank ink : String) : String :=
  "\n".intercalate (c.rows.toList.map fun row =>
    String.join (row.toList.map fun cell => if cell = 0 then blank else ink))

end Canvas

end Brushwork
