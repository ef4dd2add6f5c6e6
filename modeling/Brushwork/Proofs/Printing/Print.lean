import Brushwork.Proofs.Grammar.Yield
import Brushwork.Token.Segment

/-!
Writing programs down.

A program is printed statement by statement, one on each line, with a blank between each two tokens.

* `Piece`: a token without its place. `Expr.pieces` and `Action.pieces` are the tokens of a tree.
* `print`: the text of a program.
* `Expr.Graded`: the trees that have a text, grade by grade.
* `Expr.bare` and `Stmt.bare`: trees without their places.
-/

namespace Brushwork

open Grammar

/-! ### Pieces -/

/-- A backslash in front of every quote and every backslash. -/
def escape : List Char → List Char
  | [] => []
  | c :: cs => if c = '"' ∨ c = '\\' then '\\' :: c :: escape cs else c :: escape cs

/-- A text in quotes. -/
def quote (s : String) : String := String.ofList ('"' :: (escape s.toList ++ ['"']))

/-- A token without its place. -/
structure Piece where
  kind : Kind
  text : String
  literal : Option Literal
deriving DecidableEq

/-- The token apart from its place. -/
def Token.piece (t : Token) : Piece := ⟨t.kind, t.lexeme, t.literal⟩

namespace Piece

/-- A word, reserved or not. -/
def word (w : String) : Piece := ⟨.ofWord w, w, Segment.wordLiteral w (.ofWord w)⟩

/-- A number. -/
def number (n : Nat) : Piece := ⟨.number, toString n, some (.int n)⟩

/-- A text in quotes. -/
def quoted (s : String) : Piece := ⟨.string, quote s, some (.text s)⟩

/-- An operator. -/
def op (o : Op) : Piece := ⟨.op o, o.symbol, none⟩

/-- An opening parenthesis. -/
def openParen : Piece := ⟨.openParen, "(", none⟩

/-- A closing parenthesis. -/
def closeParen : Piece := ⟨.closeParen, ")", none⟩

/-- An opening bracket. -/
def openBracket : Piece := ⟨.openBracket, "[", none⟩

/-- A closing bracket. -/
def closeBracket : Piece := ⟨.closeBracket, "]", none⟩

/-- A comma. -/
def comma : Piece := ⟨.comma, ",", none⟩

/-- The arrow of an assignment. -/
def arrow : Piece := ⟨.assign, "<-", none⟩

/-- A line end. -/
def newline : Piece := ⟨.newline, "\n", none⟩

end Piece

/-! ### Printing -/

namespace Expr

/-- A literal zero. -/
def isZero : Expr → Bool
  | lit _ (.int n) => n == 0
  | _ => false

/-- The expression can stand behind a minus sign without parentheses. -/
def isUnary : Expr → Bool
  | binary _ l symbol r => l.isZero && symbol == "-" && r.isUnary
  | _ => true

mutual

/-- The tokens of an expression. The difference of zero and a unary expression is written with a
minus sign alone. -/
def pieces : Expr → List Piece
  | lit _ (.int n) => [.number n.toNat]
  | lit _ (.bool b) => [.word (if b then "true" else "false")]
  | lit _ (.text s) => [.quoted s]
  | var _ name => [.word name]
  | binary m l symbol r =>
    if (binary m l symbol r).isUnary then .op .sub :: pieces r
    else pieces l ++ ((Op.ofSymbol? symbol).map Piece.op).toList ++ pieces r
  | group _ e => .openParen :: (pieces e ++ [.closeParen])
  | call _ name args => .word name :: .openParen :: (argPieces args ++ [.closeParen])
  | foreign _ _ => []

/-- The tokens of a row of arguments, with a comma between each two. -/
def argPieces : List Expr → List Piece
  | [] => []
  | [e] => pieces e
  | e :: e' :: es => pieces e ++ .comma :: argPieces (e' :: es)

end

end Expr

namespace Action

/-- The tokens of a command with its arguments. -/
def commandPieces (c : Command) (args : List Expr) : List Piece :=
  .word c.word :: .openParen :: (Expr.argPieces args ++ [.closeParen])

/-- The tokens of a statement. -/
def pieces : Action → List Piece
  | spawn x y => commandPieces .spawn [x, y]
  | color name => [.word Command.color.word, .openParen, .quoted name, .closeParen]
  | size value => commandPieces .size [value]
  | drawLine dirX dirY distance => commandPieces .drawLine [dirX, dirY, distance]
  | drawCircle dirX dirY radius => commandPieces .drawCircle [dirX, dirY, radius]
  | drawRectangle dirX dirY distance width height =>
    commandPieces .drawRectangle [dirX, dirY, distance, width, height]
  | fill => commandPieces .fill []
  | assign name value => .word name :: .arrow :: value.pieces
  | label name => [.word name]
  | goTo target condition =>
    [.word Command.goTo.word, .openBracket, .word target, .closeBracket, .openParen] ++
      (condition.pieces ++ [.closeParen])
  | foreign _ => []

end Action

/-- The text of a program. -/
def print (ss : List Stmt) : String :=
  "\n".intercalate (ss.map fun s => " ".intercalate (s.action.pieces.map Piece.text))

/-! ### What can be printed -/

/-- A letter, then letters, digits and underscores. -/
def isWord (w : String) : Bool :=
  match w.toList with
  | [] => false
  | c :: cs => Segment.isLetter c && cs.all Segment.isWordChar

/-- A word that is not reserved. -/
def IsName (name : String) : Prop := isWord name = true ∧ name ∉ Kind.reserved.map Prod.fst

instance (name : String) : Decidable (IsName name) :=
  inferInstanceAs (Decidable (isWord name = true ∧ name ∉ Kind.reserved.map Prod.fst))

/-- The tree is of that grade: operators are grouped to the left, level by level, and everything
else is in parentheses. -/
inductive Expr.Graded : Grade → Expr → Prop
  | operand {l : Level} {e : Expr} (h : Graded (operandGrade l) e) : Graded (.level l) e
  | chain {m : Mark} {left right : Expr} (o : Op) (hl : Graded (.level o.level) left)
      (hr : Graded (operandGrade o.level) right) :
      Graded (.level o.level) (.binary m left o.symbol right)
  | minus {m m' : Mark} {e : Expr} (h : Graded .unary e) :
      Graded .unary (.binary m (.lit m' (.int 0)) "-" e)
  | primary {e : Expr} (h : Graded .primary e) : Graded .unary e
  | number {m : Mark} {n : Int} (h₀ : 0 ≤ n) (h₁ : n ≤ maxNumber) :
      Graded .primary (.lit m (.int n))
  | truth {m : Mark} (b : Bool) : Graded .primary (.lit m (.bool b))
  | text {m : Mark} (s : String) : Graded .primary (.lit m (.text s))
  | var {m : Mark} {name : String} (h : IsName name) : Graded .primary (.var m name)
  | group {m : Mark} {e : Expr} (h : Graded (.level .or) e) : Graded .primary (.group m e)
  | call {m : Mark} {name : String} {args : List Expr} (h : ∀ a ∈ args, Graded (.level .or) a) :
      Graded .primary (.call m name args)

lemma Expr.Graded.climb {e : Expr} (h : e.Graded .unary) (l : Level) : e.Graded (.level l) :=
  level_of_unary (P := fun g => e.Graded g) (fun _ => .operand) h l

namespace Action

/-- The names that an action gives to variables and labels. -/
def names : Action → List String
  | assign name _ | label name | goTo name _ => [name]
  | _ => []

/-- The action has a text. -/
structure Writable (a : Action) : Prop where
  isForm : a.IsForm
  names : ∀ name ∈ a.names, IsName name
  exprs : ∀ e ∈ a.exprs, e.Graded (.level .or)

end Action

/-! ### Trees without places -/

/-- No place. -/
def Mark.none : Mark := ⟨.none, .none⟩

namespace Expr

mutual

/-- The expression without its places. -/
def bare : Expr → Expr
  | lit _ v => lit .none v
  | var _ name => var .none name
  | binary _ l symbol r => binary .none (bare l) symbol (bare r)
  | group _ e => group .none (bare e)
  | call _ name args => call .none name (bareEach args)
  | foreign _ form => foreign .none form

/-- Expressions without their places. -/
def bareEach : List Expr → List Expr
  | [] => []
  | e :: es => bare e :: bareEach es

end

lemma bareEach_eq_map (es : List Expr) : bareEach es = es.map bare := by
  induction es with
  | nil => rfl
  | cons e es ih => rw [bareEach, ih, List.map_cons]

lemma eq_lit_of_isZero {e : Expr} (h : e.isZero = true) : ∃ m, e = lit m (.int 0) := by
  rw [isZero.eq_def] at h
  split at h
  · next m n =>
    obtain rfl : n = 0 := by simpa using h
    exact ⟨m, rfl⟩
  · cases h

lemma isZero_bare (e : Expr) : e.bare.isZero = e.isZero := by
  cases e with
  | lit m v => cases v <;> rfl
  | _ => rfl

lemma intLiteral?_binary (m : Mark) (l : Expr) (symbol : String) (r : Expr) :
    (binary m l symbol r).intLiteral? =
      if l.isZero = true ∧ symbol = "-" then r.intLiteral?.map (- ·) else none := by
  by_cases h : l.isZero = true ∧ symbol = "-"
  · rw [if_pos h]
    obtain ⟨hl, rfl⟩ := h
    obtain ⟨m', rfl⟩ := eq_lit_of_isZero hl
    rw [intLiteral?]
  · rw [if_neg h, intLiteral?.eq_def]
    split
    · next heq => cases heq
    · next heq =>
      obtain ⟨-, rfl, rfl, -⟩ := Expr.binary.inj heq
      exact absurd ⟨rfl, rfl⟩ h
    · rfl

/-- Places do not matter to the value of a literal. -/
lemma intLiteral?_bare (e : Expr) : e.bare.intLiteral? = e.intLiteral? := by
  induction e using Expr.ind with
  | lit m v => cases v <;> rfl
  | binary m l symbol r _ ihr =>
      rw [bare, intLiteral?_binary, intLiteral?_binary, isZero_bare, ihr]
  | _ => rfl

/-- Places do not matter to whether calls fit. -/
lemma all_callFits_bare (e : Expr) : e.bare.All CallFits ↔ e.All CallFits := by
  induction e using Expr.ind with
  | lit m v => simp [bare, CallFits]
  | var m name => simp [bare, CallFits]
  | binary m l symbol r ihl ihr => simp [bare, CallFits, ihl, ihr]
  | group m e ih => simp [bare, CallFits, ih]
  | call m name args ih =>
      rw [bare, bareEach_eq_map, all_call, all_call, List.forall_mem_map]
      refine and_congr ?_ (forall₂_congr ih)
      simp [CallFits]
  | foreign m form => simp [bare, CallFits]

end Expr

namespace Action

/-- The action without the places inside it. -/
def bare : Action → Action
  | spawn x y => spawn x.bare y.bare
  | size value => size value.bare
  | drawLine dirX dirY distance => drawLine dirX.bare dirY.bare distance.bare
  | drawCircle dirX dirY radius => drawCircle dirX.bare dirY.bare radius.bare
  | drawRectangle dirX dirY distance width height =>
    drawRectangle dirX.bare dirY.bare distance.bare width.bare height.bare
  | assign name value => assign name value.bare
  | goTo name condition => goTo name condition.bare
  | color name => color name
  | fill => fill
  | label name => label name
  | foreign form => foreign form

end Action

/-- The statement without its places. -/
def Stmt.bare (s : Stmt) : Stmt := ⟨.none, s.action.bare⟩

end Brushwork
