import Brushwork.Color.Swatch
import Brushwork.Editor.Theme
import Brushwork.Report

/-!
The picture of a canvas in the editor.

The view shows a blank canvas or that of a run, as large as its place allows: every painted cell is a
square, and lines are drawn between the cells where these are large enough.
-/

namespace Brushwork.Editor

/-- The view of a canvas. -/
structure CanvasView where
  /-- The run whose canvas is shown. -/
  machine : Option Machine
  size : Int
  colors : CanvasColors
  /-- How often the view was asked to show something else. -/
  updates : Nat

/-- A step in drawing the view. -/
inductive Stroke where
  | fill (x y width height : Float) (color : String)
  | pen (color : String)
  | line (x₀ y₀ x₁ y₁ : Float)
  | finish

namespace CanvasView

/-- A view that shows nothing yet. -/
def new : CanvasView := ⟨none, 0, Tone.light.canvasColors, 0⟩

/-- Shows in other colors. -/
def recolor (v : CanvasView) (colors : CanvasColors) : CanvasView :=
  { v with colors := colors, updates := v.updates + 1 }

/-- Takes colors from a table. If one is missing this fails, but the background is taken first. -/
def recolorFrom (v : CanvasView) (t : Table String) : CanvasView × Bool :=
  match t.find? "background", t.find? "grid" with
  | some background, some grid => (v.recolor ⟨background, grid⟩, true)
  | some background, none => ({ v with colors := ⟨background, v.colors.grid⟩ }, false)
  | none, _ => (v, false)

/-- Shows a blank canvas. -/
def showBlank (v : CanvasView) (size : Int) : CanvasView :=
  { v with machine := none, size := size, updates := v.updates + 1 }

/-- Shows the canvas of a run. -/
def showMachine (v : CanvasView) (m : Machine) : CanvasView :=
  { v with machine := some m, size := m.easel.canvas.size, updates := v.updates + 1 }

/-- Shows the canvas of a report, if it has one. -/
def showReport (v : CanvasView) (r : Report) : CanvasView :=
  match r.machine with
  | some m => v.showMachine m
  | none => v

/-! ### Drawing -/

/-- The color in which a cell is shown. -/
def cellColor? (m : Machine) (x y : Nat) : Option String :=
  (m.easel.colorAt? x y).bind Swatch.hex?

/-- The squares of the painted cells, row by row, where a cell is `cell` wide and the canvas begins at
`(left, top)`. -/
def squares (m : Machine) (size : Nat) (left top cell : Float) : List Stroke :=
  (List.range size).flatMap fun y => (List.range size).filterMap fun x =>
    (cellColor? m x y).map fun color =>
      .fill (left + Float.ofNat x * cell) (top + Float.ofNat y * cell) cell cell color

/-- The lines between the cells and around them, where the canvas is `side` wide. -/
def gridLines (size : Nat) (left top cell side : Float) : List Stroke :=
  (List.range (size + 1)).flatMap fun i =>
    let offset := Float.ofNat i * cell
    [.line (left + offset) top (left + offset) (top + side),
      .line left (top + offset) (left + side) (top + offset)]

/-- Draws the view in a place of that width and height, on a ground of the window color. -/
def draw (v : CanvasView) (width height : Int) (windowColor : String) : List Stroke :=
  let ground := Stroke.fill 0.0 0.0 (Float.ofInt width) (Float.ofInt height) windowColor
  if v.size ≤ 0 then [ground]
  else
    let size := v.size.toNat
    let side := min width height
    let cell := Float.ofInt side / Float.ofInt v.size
    let left := Float.ofInt (width - side) / 2.0
    let top := Float.ofInt (height - side) / 2.0
    let span := Float.ofInt side
    let painted := match v.machine with
      | some m => squares m size left top cell
      | none => []
    let grid :=
      if cell ≥ 6.0 then .pen v.colors.grid :: gridLines size left top cell span else []
    ground :: .fill left top span span v.colors.background :: painted ++ grid ++ [.finish]

end CanvasView

end Brushwork.Editor
