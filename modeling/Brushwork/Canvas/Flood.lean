import Brushwork.Canvas.Basic

/-!
Flooding a region of a canvas.

The flood starts at a cell and takes every cell that is joined to it, side by side, through cells
of the same code. `flood` keeps the cells whose neighbours are still to be looked at, in the order in
which they were taken; each cell of the canvas is taken at most once, so that many rounds are enough.
-/

namespace Brushwork.Canvas

/-- The four cells beside a cell. -/
def neighbours (x y : Int) : List (Int × Int) := [(x + 1, y), (x - 1, y), (x, y + 1), (x, y - 1)]

/-- Takes those of the given cells that hold `target`: they get the new code, and go to the end of the
queue. -/
def takeCells (target code : Nat) : List (Int × Int) → Canvas × List (Int × Int) →
    Canvas × List (Int × Int)
  | [], s => s
  | (x, y) :: cells, (c, queue) =>
    if c.contains x y && c.cell x y == target then
      takeCells target code cells (c.setCell x y code, queue ++ [(x, y)])
    else takeCells target code cells (c, queue)

/-- Looks at the neighbours of the first cell in the queue, for a number of rounds. -/
def flood (target code : Nat) : Nat → Canvas → List (Int × Int) → Canvas
  | 0, c, _ => c
  | _ + 1, c, [] => c
  | rounds + 1, c, (x, y) :: queue =>
    let s := takeCells target code (neighbours x y) (c, queue)
    flood target code rounds s.1 s.2

/-- Gives the region around a cell of the canvas a code. -/
def fill (c : Canvas) (x y : Int) (code : Nat) : Canvas :=
  let target := c.cell x y
  if target = code then c
  else flood target code (c.size * c.size) (c.setCell x y code) [(x, y)]

end Brushwork.Canvas
