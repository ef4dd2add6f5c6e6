import Brushwork.Grammar.Reading
import Brushwork.Syntax.Expr

/-!
Reading expressions.

Six levels of binary operators, each grouped to the left, over the unary minus, over names, calls,
literals and parenthesised expressions. A call of an unknown function or with the wrong number of
arguments is noted and read all the same.

The readers call each other as the levels lie over one another. Two calls are counted for each level
of operators, and one each for an expression, a unary one, a primary one and the arguments of a call.
-/

namespace Brushwork.Grammar

/-- The level of the operator that a token is, if it is one. -/
def level? (t : Token) : Option Level :=
  match t.kind with
  | .op o => some o.level
  | _ => none

/-- What there is to note about a call, from the token of the name, the closing parenthesis and the
number of arguments. -/
def callProblems (name close : Token) (count : Nat) : List Problem :=
  match Builtin.ofWord? name.lexeme with
  | none => [.near name (.unknownFunction name.lexeme)]
  | some b => if count = b.arity then [] else [.near close (.argumentCount name.lexeme b.arity)]

/-- The end of a call: the closing parenthesis after the arguments. -/
def closeCall (name : Token) (args : List Expr) (ts : List Token) : Bounded Expr ts.length :=
  (Bounded.expect .closeParen (.closeParen "function arguments") ts).bind fun close rest h =>
    (Bounded.found (.call name.position.mark name.lexeme args) rest h).noting
      (callProblems name close args.length)

mutual

/-- Operands of a level, joined by its operators from the left. -/
def level (l : Level) (ts : List Token) : Bounded Expr ts.length :=
  ((operand l ts).bind fun e rest h => (chain l e rest).weaken h).nested 2
termination_by 16 * ts.length + 15 - 2 * l.rank
decreasing_by
  all_goals have := l.rank_le
  all_goals omega

/-- An operand of a level: an expression of the next tighter one. -/
def operand (l : Level) (ts : List Token) : Bounded Expr ts.length :=
  match _h : l.tighter with
  | some m => level m ts
  | none => unary ts
termination_by 16 * ts.length + 14 - 2 * l.rank
decreasing_by
  · have := Level.rank_tighter _h
    have := m.rank_le
    omega
  · have := l.rank_le
    omega

/-- Goes on from `left` as long as an operator of the level follows. -/
def chain (l : Level) (left : Expr) (ts : List Token) : Bounded Expr ts.length :=
  match ts with
  | [] => .cut
  | t :: us =>
    if level? t = some l then
      ((operand l us).bind fun right rest h =>
        (chain l (.binary t.position.mark left t.lexeme right) rest).weaken h).weaken (Nat.le_succ _)
    else .found left (t :: us) (Nat.le_refl _)
termination_by 16 * ts.length
decreasing_by
  all_goals simp only [List.length_cons]
  all_goals omega

/-- Any number of minus signs, then a primary expression. -/
def unary (ts : List Token) : Bounded Expr ts.length :=
  match ts with
  | [] => .cut
  | t :: us =>
    if t.kind = .op .sub then
      (((unary us).bind fun e rest h => .found (.negated t.position.mark e) rest h).weaken
        (Nat.le_succ _)).nested 1
    else (primary (t :: us)).nested 1
termination_by 16 * ts.length + 2
decreasing_by
  all_goals simp only [List.length_cons]
  all_goals omega

/-- A name, a call, a literal or an expression in parentheses. -/
def primary (ts : List Token) : Bounded Expr ts.length :=
  match ts with
  | [] => .cut
  | t :: us =>
    match t.kind with
    | .ident | .builtin _ => ((named t us).weaken (Nat.le_succ _)).nested 1
    | .truth _ | .number | .string =>
      (Bounded.found (.lit t.position.mark t.value) us (Nat.le_succ _)).nested 1
    | .openParen =>
      ((((level .or us).nested 1).bind fun e rest h =>
        ((Bounded.expect .closeParen (.closeParen "expression") rest).weaken h).bind
          fun _ rest' h' => .found (.group t.position.mark e) rest' h').weaken
            (Nat.le_succ _)).nested 1
    | _ => (Bounded.refused (.near t (.unexpected t.lexeme)) (t :: us) (Nat.le_refl _)).nested 1
termination_by 16 * ts.length + 1
decreasing_by
  all_goals simp only [List.length_cons]
  · omega
  · simp only [Level.rank]
    omega

/-- What follows the name `t`: a call if a parenthesis opens, else nothing more. -/
def named (t : Token) (ts : List Token) : Bounded Expr ts.length :=
  match ts with
  | [] => .cut
  | u :: us =>
    if u.kind = .openParen then (callOf t us).weaken (Nat.le_succ _)
    else .found (.var t.position.mark t.lexeme) (u :: us) (Nat.le_refl _)
termination_by 16 * ts.length + 2
decreasing_by
  simp only [List.length_cons]
  omega

/-- The arguments of a call, after its opening parenthesis. -/
def callOf (t : Token) (ts : List Token) : Bounded Expr ts.length :=
  match ts with
  | [] => .cut
  | u :: us =>
    if u.kind = .closeParen then (closeCall t [] (u :: us)).nested 1
    else ((arguments (u :: us)).bind fun args rest h => (closeCall t args rest).weaken h).nested 1
termination_by 16 * ts.length + 17
decreasing_by
  omega

/-- Expressions with commas between them, at least one. -/
def arguments (ts : List Token) : Bounded (List Expr) ts.length :=
  ((level .or ts).nested 1).bind fun e rest h =>
    match rest, h with
    | [], _ => .cut
    | t :: us, h =>
      if t.kind = .comma then
        ((arguments us).bind fun es rest' h' => .found (e :: es) rest' h').weaken
          (Nat.le_of_succ_le h)
      else .found [e] (t :: us) h
termination_by 16 * ts.length + 16
decreasing_by
  · simp only [Level.rank]
    omega
  · simp only [List.length_cons] at h
    omega

end

/-- An expression at the front of a row of tokens. -/
def whole (ts : List Token) : Bounded Expr ts.length := (level .or ts).nested 1

/-- Reads an expression from the front of a row of tokens. -/
def expression (ts : List Token) : Reading Expr := (whole ts).reading

end Brushwork.Grammar
