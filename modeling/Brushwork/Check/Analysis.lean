import Brushwork.Check.Typing
import Brushwork.Syntax.Stmt

/-!
Checking programs.

An analysis keeps what it has seen: programs checked one after the other share their variables and
labels. Types follow the order of the statements, each assignment gives its variable a type anew.
-/

namespace Brushwork.Check

/-- What has been seen of the programs checked so far. -/
structure Analysis where
  complaints : List Complaint
  types : Table Ty
  labels : List String

namespace Analysis

/-- Nothing seen. -/
def empty : Analysis := ⟨[], .empty, []⟩

/-- Adds complaints. -/
def report (a : Analysis) (cs : List Complaint) : Analysis :=
  { a with complaints := a.complaints ++ cs }

/-- The type of an expression with the variables seen so far. -/
def typing (a : Analysis) (e : Expr) : Typing := Check.typing a.types e

/-- Checks that an expression has a type, else adds the complaint. -/
def require (a : Analysis) (e : Expr) (ty : Ty) (otherwise : Complaint) : Analysis :=
  let t := a.typing e
  a.report (t.complaints ++ if t.ty = ty then [] else [otherwise])

/-- Checks an argument of a drawing command. -/
def integer (a : Analysis) (command : Command) (argument : String) (e : Expr) : Analysis :=
  a.require e .integer (.argumentNotInteger command argument)

/-- Checks a direction: an integer, and if it is a literal one of `-1`, `0` and `1`. -/
def direction (a : Analysis) (command : Command) (axis : Axis) (e : Expr) : Analysis :=
  let range : List Complaint :=
    match e.intLiteral? with
    | some n => if -1 ≤ n ∧ n ≤ 1 then [] else [.directionOutOfRange command axis]
    | none => []
  let t := a.typing e
  a.report (t.complaints ++
    if t.ty = .integer then range else [.argumentNotInteger command axis.argument])

/-- Declares a label; a second declaration of a name is a fault. -/
def declare (a : Analysis) (name : String) : Analysis :=
  if name ∈ a.labels then a.report [.duplicateLabel name]
  else { a with labels := a.labels ++ [name] }

/-- Checks a statement. -/
def statement (a : Analysis) (s : Stmt) : Analysis :=
  match s.action with
  | .spawn x y =>
    (a.require x .integer (.spawnNotInteger .x)).require y .integer (.spawnNotInteger .y)
  | .size e => a.require e .integer .sizeNotInteger
  | .drawLine dx dy distance =>
    ((a.direction .drawLine .x dx).direction .drawLine .y dy).integer .drawLine "distance" distance
  | .drawCircle dx dy radius =>
    ((a.direction .drawCircle .x dx).direction .drawCircle .y dy).integer .drawCircle "radius" radius
  | .drawRectangle dx dy distance width height =>
    let a := (a.direction .drawRectangle .x dx).direction .drawRectangle .y dy
    let a := a.integer .drawRectangle "distance" distance
    let a := a.integer .drawRectangle "width" width
    a.integer .drawRectangle "height" height
  | .assign name e =>
    let t := a.typing e
    { a.report t.complaints with types := a.types.put name t.ty }
  | .goTo label condition =>
    let a := if label ∈ a.labels then a else a.report [.undefinedLabel label]
    a.require condition .boolean .conditionNotBoolean
  | .color _ | .fill | .label _ => a
  | .foreign form => a.report [.unhandledStatement form]

/-- Checks a program: how it begins, its labels, then each statement. -/
def program (a : Analysis) (statements : Array Stmt) : Analysis :=
  let a := if Program.startsWithSpawn statements then a else a.report [.spawnNotFirst]
  let a := (statements.toList.filterMap (·.action.label?)).foldl declare a
  statements.toList.foldl statement a

/-- The complaints as they are reported. -/
def errors (a : Analysis) : List String := a.complaints.map Complaint.message

end Analysis

/-- The errors of a program checked by itself. -/
def errors (statements : Array Stmt) : List String := (Analysis.empty.program statements).errors

/-- How deep the calls are nested that check the expressions of a program. -/
def depthOf (statements : Array Stmt) : Nat :=
  (statements.toList.flatMap (·.action.exprs)).foldr (fun e deepest => max (depth e) deepest) 0

end Brushwork.Check
