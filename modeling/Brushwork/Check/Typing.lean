import Brushwork.Check.Complaint
import Brushwork.Syntax.Expr
import Brushwork.Table

/-!
The types of expressions.

Every expression has a type, also one that is at fault: what is not known counts as an integer, and
a mismatch counts as what its left side is. All functions give integers, and a text among their
arguments names a color.
-/

namespace Brushwork.Check

/-- The type of an expression, and the complaints about it in reading order. -/
structure Typing where
  ty : Ty
  complaints : List Complaint

/-- The type that an operator gives for operands `left` of type `l` and `right` of type `r`, if it
takes them. Truth values can be compared with a literal zero or one. -/
def resultType? (op : Op) (left right : Expr) (l r : Ty) : Option Ty :=
  match op with
  | .add | .sub | .mul | .div | .mod | .pow =>
    if l = .integer ∧ r = .integer then some .integer else none
  | .greater | .less | .greaterEqual | .lessEqual =>
    if l = .integer ∧ r = .integer then some .boolean else none
  | .equal | .notEqual =>
    if l = r ∨ (l = .boolean ∧ right.isBit) ∨ (r = .boolean ∧ left.isBit) then some .boolean
    else none
  | .and | .or => if l = .boolean ∧ r = .boolean then some .boolean else none

/-- The type of two typed operands under the operator with that symbol. -/
def binaryTyping (symbol : String) (left right : Expr) (l r : Typing) : Typing :=
  match (Op.ofSymbol? symbol).bind fun op => resultType? op left right l.ty r.ty with
  | some ty => ⟨ty, l.complaints ++ r.complaints⟩
  | none => ⟨l.ty, l.complaints ++ r.complaints ++ [.typeMismatch symbol]⟩

mutual

/-- The type of an expression, where the variables have the given types. -/
def typing (vars : Table Ty) : Expr → Typing
  | .lit _ (.int _) => ⟨.integer, []⟩
  | .lit _ (.bool _) => ⟨.boolean, []⟩
  | .lit _ (.text s) => ⟨.integer, [.textAsValue s]⟩
  | .var _ name =>
    match vars.find? name with
    | some ty => ⟨ty, []⟩
    | none => ⟨.integer, [.undefinedVariable name]⟩
  | .group _ e => typing vars e
  | .call _ name args =>
    let unknown := if (Builtin.ofWord? name).isSome then [] else [.unknownFunction name]
    ⟨.integer, unknown ++ argumentComplaints vars args⟩
  | .binary _ l symbol r => binaryTyping symbol l r (typing vars l) (typing vars r)
  | .foreign _ form => ⟨.integer, [.unhandledExpression form]⟩

/-- The complaints about the arguments of a function; a text is taken for the name of a color. -/
def argumentComplaints (vars : Table Ty) : List Expr → List Complaint
  | [] => []
  | e :: es =>
    (if e.textLiteral?.isSome then [] else (typing vars e).complaints) ++
      argumentComplaints vars es

end

mutual

/-- How deep the calls are nested that find the type of an expression: two for an operator, and one
for everything else. -/
def depth : Expr → Nat
  | .lit _ _ | .var _ _ | .foreign _ _ => 1
  | .group _ e => 1 + depth e
  | .call _ _ args => 1 + argumentDepth args
  | .binary _ l _ r => 2 + max (depth l) (depth r)

/-- The same for the arguments of a function, those apart that name a color. -/
def argumentDepth : List Expr → Nat
  | [] => 0
  | e :: es => max (if e.textLiteral?.isSome then 0 else depth e) (argumentDepth es)

end

end Brushwork.Check
