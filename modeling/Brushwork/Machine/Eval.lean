import Brushwork.Machine.Easel
import Brushwork.Machine.Fault
import Brushwork.Number.Binary64
import Brushwork.Syntax.Expr

/-!
The values of expressions.

Every value is an integer of any size; a truth value is one or zero, and everything but zero counts
as true. Division goes toward zero, and a remainder has the sign of the dividend.
-/

namespace Brushwork

/-- One for true, zero for false. -/
def bit (p : Prop) [Decidable p] : Int := if p then 1 else 0

/-- The quotient rounded toward zero: the absolute values are divided, rounding down, and the sign is
changed if one of the two is negative and the other is not. -/
def truncDiv (a b : Int) : Int :=
  let q : Int := a.natAbs / b.natAbs
  if 0 ≤ a ↔ 0 ≤ b then q else -q

/-- The value of an operator. -/
def Op.apply (op : Op) (a b : Int) : Except Fault Int :=
  match op with
  | .add => .ok (a + b)
  | .sub => .ok (a - b)
  | .mul => .ok (a * b)
  | .div => if b = 0 then .error .divisionByZero else .ok (truncDiv a b)
  | .mod => if b = 0 then .error .moduloByZero else .ok (a - b * truncDiv a b)
  | .pow =>
    match Binary64.pow? a b with
    | some n => .ok n
    | none => .error (.notComputable a b)
  | .equal => .ok (bit (a = b))
  | .notEqual => .ok (bit (a ≠ b))
  | .greater => .ok (bit (a > b))
  | .less => .ok (bit (a < b))
  | .greaterEqual => .ok (bit (a ≥ b))
  | .lessEqual => .ok (bit (a ≤ b))
  | .and => .ok (bit (a ≠ 0 ∧ b ≠ 0))
  | .or => .ok (bit (a ≠ 0 ∨ b ≠ 0))

namespace Easel

/-- How many cells of a box have a color, where two opposite corners are given; none if the box
sticks out of the canvas. -/
def colorCount (e : Easel) (color : String) (x₁ y₁ x₂ y₂ : Int) : Int :=
  let left := min x₁ x₂
  let top := min y₁ y₂
  let right := max x₁ x₂
  let bottom := max y₁ y₂
  if e.canvas.contains left top && e.canvas.contains right bottom then
    match e.palette.code? color with
    | some code => e.canvas.countCode left top right bottom code
    | none => 0
  else 0

/-- Whether the cell at that distance from the cursor has a color. -/
def hasColor (e : Easel) (color : String) (down right : Int) : Bool :=
  let x := e.x + right
  let y := e.y + down
  match e.palette.code? color with
  | some code => e.canvas.contains x y && e.canvas.cell x y == code
  | none => false

/-- The value of a function, given the color that its first argument names and the values of its
arguments. Only the arguments that a function looks at can stop it. -/
def query (e : Easel) (b : Builtin) (color : String) (args : List (Except Fault Int)) :
    Except Fault Int :=
  match b, args with
  | .getActualX, [] => .ok e.x
  | .getActualY, [] => .ok e.y
  | .getCanvasSize, [] => .ok e.canvas.size
  | .isCanvasSize, [size] => return bit ((← size) = e.canvas.size)
  | .isBrushColor, [_] => .ok (bit (e.brush.color = color))
  | .isBrushSize, [size] => return bit (e.brush.size = (← size))
  | .getColorCount, [_, x₁, y₁, x₂, y₂] =>
    return e.colorCount color (← x₁) (← y₁) (← x₂) (← y₂)
  | .isCanvasColor, [_, down, right] => return bit (e.hasColor color (← down) (← right))
  | b, _ => .error (.argumentCount b.word b.arity)

mutual

/-- The value of an expression. -/
def eval (easel : Easel) : Expr → Except Fault Int
  | .lit _ (.int n) => .ok n
  | .lit _ (.bool b) => .ok (bit b)
  | .lit _ (.text s) => .error (.notANumber s)
  | .var _ name =>
    match easel.store.find? name with
    | some n => .ok n
    | none => .error (.undefinedVariable name)
  | .group _ e => eval easel e
  | .binary _ l symbol r => do
    let a ← eval easel l
    let b ← eval easel r
    match Op.ofSymbol? symbol with
    | some op => op.apply a b
    | none => .error (.unsupportedOperator symbol)
  | .call _ name args =>
    match Builtin.ofWord? name with
    | some b =>
      easel.query b ((args.head?.bind Expr.textLiteral?).getD "") (evalEach easel args)
    | none => .error (.unknownFunction name)
  | .foreign _ form => .error (.unsupportedExpression form)

/-- The value of each of a row of expressions. -/
def evalEach (easel : Easel) : List Expr → List (Except Fault Int)
  | [] => []
  | e :: es => eval easel e :: evalEach easel es

end

end Easel

end Brushwork
