import Brushwork.Machine.Eval
import Brushwork.Syntax.Stmt

/-!
How deep the calls are nested that find values.

Values are asked for from the left, and nothing behind a fault is looked at. Each expression takes a
call, an operator and a function one more, and so do the corners of a box that are valued one by one.
-/

namespace Brushwork

namespace Builtin

/-- How many arguments of a function have no value: its first one may name a color. -/
def unvalued : Builtin → Nat
  | isBrushColor | getColorCount | isCanvasColor => 1
  | getActualX | getActualY | getCanvasSize | isBrushSize | isCanvasSize => 0

/-- The calls that a function takes, but for those that value its arguments. -/
def calls : Builtin → Nat
  | getColorCount => 3
  | _ => 2

end Builtin

namespace Easel

mutual

/-- How deep the calls are nested that find the value of an expression. -/
def depth (easel : Easel) : Expr → Nat
  | .lit _ _ | .var _ _ | .foreign _ _ => 1
  | .group _ e => 1 + depth easel e
  | .binary _ l _ r => 2 + max (depth easel l) (if (easel.eval l).isOk then depth easel r else 0)
  | .call _ name args =>
    match Builtin.ofWord? name with
    | some b => if args.length = b.arity then b.calls + depthOfRow easel b.unvalued args else 2
    | none => 2

/-- The same for the values of a row of expressions, of which the first few are not asked for. -/
def depthOfRow (easel : Easel) : Nat → List Expr → Nat
  | _, [] => 0
  | n + 1, _ :: es => depthOfRow easel n es
  | 0, e :: es => max (depth easel e) (if (easel.eval e).isOk then depthOfRow easel 0 es else 0)

end

/-- How deep the calls are nested that find the values of an action. -/
def planDepth (easel : Easel) (a : Action) : Nat := easel.depthOfRow 0 a.exprs

end Easel

end Brushwork
