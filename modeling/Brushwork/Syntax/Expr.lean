import Brushwork.Literal
import Brushwork.Text.Position

/-!
Expressions.

A unary minus has no form of its own: `-e` is the difference of a literal zero and `e`. An operator
is kept by its symbol and a function by its name, so that a tree can hold one that does not exist.
-/

namespace Brushwork

/-- Where a node of a tree stands in the text, as far as that is known. -/
structure Mark where
  line : Option Int
  col : Option Int
deriving DecidableEq

/-- The mark of a known place. -/
def Position.mark (p : Position) : Mark := ⟨some p.line, some p.col⟩

/-- Expressions. -/
inductive Expr where
  | lit (mark : Mark) (value : Literal)
  | var (mark : Mark) (name : String)
  | binary (mark : Mark) (left : Expr) (symbol : String) (right : Expr)
  | group (mark : Mark) (inner : Expr)
  | call (mark : Mark) (name : String) (args : List Expr)
  /-- A node that is no expression; only the name of its form matters. -/
  | foreign (mark : Mark) (form : String)

namespace Expr

/-- Where an expression stands. -/
def mark : Expr → Mark
  | lit m _ | var m _ | binary m _ _ _ | group m _ | call m _ _ | foreign m _ => m

/-- The difference of a literal zero and `e`, all of it at `m`: the form of `-e`. -/
def negated (m : Mark) (e : Expr) : Expr := binary m (lit m (.int 0)) "-" e

/-- The value of an integer literal, of a negated one too. -/
def intLiteral? : Expr → Option Int
  | lit _ (.int n) => some n
  | binary _ (lit _ (.int 0)) "-" e => e.intLiteral?.map (- ·)
  | _ => none

/-- The text of a text literal. -/
def textLiteral? : Expr → Option String
  | lit _ (.text s) => some s
  | _ => none

/-- A literal zero or one. -/
def isBit : Expr → Bool
  | lit _ (.int n) => n == 0 || n == 1
  | _ => false

end Expr

end Brushwork
