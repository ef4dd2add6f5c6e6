import Brushwork.Syntax.Expr
import Brushwork.Table

/-!
Statements, and programs as rows of statements.
-/

namespace Brushwork

/-- What a statement does. -/
inductive Action where
  | spawn (x y : Expr)
  | color (name : String)
  | size (value : Expr)
  | drawLine (dirX dirY distance : Expr)
  | drawCircle (dirX dirY radius : Expr)
  | drawRectangle (dirX dirY distance width height : Expr)
  | fill
  | assign (name : String) (value : Expr)
  | label (name : String)
  | goTo (label : String) (condition : Expr)
  /-- A node that is no statement; only the name of its form matters. -/
  | foreign (form : String)

/-- A statement and its place. -/
structure Stmt where
  mark : Mark
  action : Action

namespace Action

/-- The action puts the cursor down. -/
def isSpawn : Action → Bool
  | spawn _ _ => true
  | _ => false

/-- The expressions of an action, in the order in which their values are asked for. -/
def exprs : Action → List Expr
  | spawn x y => [x, y]
  | size value => [value]
  | drawLine dirX dirY distance => [dirX, dirY, distance]
  | drawCircle dirX dirY radius => [dirX, dirY, radius]
  | drawRectangle dirX dirY distance width height => [dirX, dirY, distance, width, height]
  | assign _ value => [value]
  | goTo _ condition => [condition]
  | color _ | fill | label _ | foreign _ => []

/-- The name of the label that the action declares. -/
def label? : Action → Option String
  | label name => some name
  | _ => none

end Action

/-- A program: its statements, and for each label the place where it was first declared. -/
structure Program where
  statements : Array Stmt
  labels : Table Nat

namespace Program

/-- The program begins by putting the cursor down. -/
def startsWithSpawn (statements : Array Stmt) : Bool :=
  match statements[0]? with
  | some s => s.action.isSpawn
  | none => false

/-- The labels of statements that stand from `index` on, added to those of `labels`; the first
declaration of a name counts. -/
def labelsFrom (index : Nat) (labels : Table Nat) : List Stmt → Table Nat
  | [] => labels
  | s :: ss =>
    match s.action.label? with
    | some name =>
      labelsFrom (index + 1) (if labels.contains name then labels else labels.put name index) ss
    | none => labelsFrom (index + 1) labels ss

/-- Every label of a row of statements, with the place where it is first declared. -/
def labelTable (statements : Array Stmt) : Table Nat := labelsFrom 0 .empty statements.toList

end Program

end Brushwork
