import Brushwork.Canvas.Flood
import Brushwork.Color.Palette
import Brushwork.Table

/-!
What a program draws with: a canvas, its colors, a brush, a cursor, and the variables.
-/

namespace Brushwork

/-- A square brush. Its code is the code of its color. -/
structure Brush where
  size : Int
  color : String
  code : Nat
deriving DecidableEq

/-- Everything that the statements of a program look at and change. -/
structure Easel where
  canvas : Canvas
  palette : Palette
  brush : Brush
  x : Int
  y : Int
  store : Table Int
deriving DecidableEq

namespace Easel

/-- The color of a brush that was given none. -/
def firstColor : String := "Transparent"

/-- A blank canvas, a brush of one cell, the cursor in the corner at the top left. -/
def new (size : Nat) : Easel :=
  { canvas := .blank size
    palette := Palette.empty.intern firstColor
    brush := ⟨1, firstColor, Palette.empty.code firstColor⟩
    x := 0
    y := 0
    store := .empty }

/-- How many cells the brush reaches from its middle. -/
def reach (e : Easel) : Int := e.brush.size / 2

/-- The color of a cell, if it is painted. -/
def colorAt? (e : Easel) (x y : Int) : Option String := e.palette.name? (e.canvas.cell x y)

/-- Paints the square of the brush around a cell, as far as it lies on the canvas. -/
def paint (e : Easel) (cx cy : Int) : Easel :=
  match e with
  | ⟨canvas, palette, brush, x, y, store⟩ =>
    let r := brush.size / 2
    ⟨canvas.paintBlock (cx - r) (cy - r) (cx + r) (cy + r) brush.code, palette, brush, x, y,
      store⟩

/-- Takes up a color. -/
def pickColor (e : Easel) (name : String) : Easel :=
  { e with
    palette := e.palette.intern name
    brush := { e.brush with color := name, code := e.palette.code name } }

/-- Takes up a brush of that size; an even one is too wide by one. -/
def pickSize (e : Easel) (size : Int) : Easel :=
  { e with brush := { e.brush with size := if size % 2 = 0 then size - 1 else size } }

/-- Moves the cursor by `(dx, dy)` and paints there, `n` times. -/
def walk (dx dy : Int) : Nat → Easel → Easel
  | 0, e => e
  | n + 1, e =>
    let x := e.x + dx
    let y := e.y + dy
    walk dx dy n ({ e with x := x, y := y }.paint x y)

/-- Paints at the cursor, then walks `n` steps. -/
def drawLine (e : Easel) (dx dy : Int) (n : Nat) : Easel :=
  walk dx dy n (e.paint e.x e.y)

/-- Paints at each of the given places around a middle. -/
def paintAround (cx cy : Int) : List (Int × Int) → Easel → Easel
  | [], e => e
  | (dx, dy) :: ds, e => paintAround cx cy ds (e.paint (cx + dx) (cy + dy))

/-- Paints `n` places of a column, downward from `(x, y)`. -/
def paintColumn (x y : Int) : Nat → Easel → Easel
  | 0, e => e
  | n + 1, e => paintColumn x (y + 1) n (e.paint x y)

/-- Paints the places of `w` columns, from `(x, y)` to the right, each `h` deep. -/
def paintColumns (x y : Int) (h : Nat) : Nat → Easel → Easel
  | 0, e => e
  | w + 1, e => paintColumns (x + 1) y h w (paintColumn x y h e)

/-- Floods the region around the cursor. -/
def fill (e : Easel) : Easel :=
  match e with
  | ⟨canvas, palette, brush, x, y, store⟩ =>
    ⟨canvas.fill x y brush.code, palette, brush, x, y, store⟩

/-- Gives a variable a value. -/
def assign (e : Easel) (name : String) (value : Int) : Easel :=
  { e with store := e.store.put name value }

end Easel

end Brushwork
