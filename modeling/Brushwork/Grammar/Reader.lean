import Brushwork.Grammar.Expression
import Brushwork.Syntax.Stmt

/-!
Reading with a draft at hand.

The draft is what a row of tokens has given so far; whatever a reader writes into it stays, also if
the reader refuses later on.

* `Shrinks`: a reader that leaves no more tokens than it was given.
-/

namespace Brushwork.Grammar

/-- What has been gathered from a row of tokens so far. -/
structure Draft where
  /-- The statements, in order. -/
  statements : Array Stmt
  /-- The labels, each with the number of statements before its first declaration. -/
  labels : Table Nat
  /-- The label tokens of all jumps. -/
  references : List Token
  /-- A statement that puts the cursor down has been begun. -/
  hasSpawn : Bool
  /-- It has been noted that another statement came first. -/
  orderNoted : Bool
  /-- The problems, in the order in which they were noted. -/
  problems : List Problem
  /-- How deep the calls were nested that read the expressions. -/
  depth : Nat

namespace Draft

/-- Nothing gathered. -/
def empty : Draft := ⟨#[], .empty, [], false, false, [], 0⟩

/-- Notes a problem. -/
def note (d : Draft) (p : Problem) : Draft := { d with problems := d.problems ++ [p] }

/-- Declares the label of a token, with the number of statements so far; a second declaration of a
name is noted and changes nothing. -/
def declare (d : Draft) (t : Token) : Draft :=
  if d.labels.contains t.name then d.note (.near t (.duplicateLabel t.name))
  else { d with labels := d.labels.put t.name d.statements.size }

/-- Adds a statement. The first one to come before the cursor is put down is noted. -/
def add (d : Draft) (s : Stmt) : Draft :=
  let d :=
    if s.action.isSpawn || d.hasSpawn || d.orderNoted then d
    else { d with orderNoted := true }.note (.spawnNotFirst s.mark.line)
  { d with statements := d.statements.push s }

end Draft

/-- A reader of a row of tokens, with a draft at hand. -/
def Reader (α : Type) : Type := Draft → List Token → Draft × Answer α

namespace Reader

variable {α β : Type}

instance : Monad Reader where
  pure v := fun d ts => (d, .found v ts)
  bind r f := fun d ts =>
    match r d ts with
    | (d', .found v rest) => f v d' rest
    | (d', .refused p rest) => (d', .refused p rest)
    | (d', .cut) => (d', .cut)

/-- Writes into the draft. -/
def update (f : Draft → Draft) : Reader Unit := fun d ts => (f d, .found () ts)

/-- The token at the front, which stays there. -/
def peek : Reader Token := fun d ts =>
  match ts with
  | [] => (d, .cut)
  | t :: us => (d, .found t (t :: us))

/-- Refuses, for a reason that lies with the token `t`. -/
def refuseAt (t : Token) (cause : Problem.Cause) : Reader α := fun d ts =>
  (d, .refused (.near t cause) ts)

/-- Refuses the token at the front. -/
def refuse (cause : Problem.Cause) : Reader α := do
  refuseAt (← peek) cause

/-- Refuses the token at the front if it is of that kind. -/
def refuseIf (kind : Kind) (cause : Problem.Cause) : Reader Unit := fun d ts =>
  match ts with
  | [] => (d, .cut)
  | t :: us =>
    if t.kind = kind then (d, .refused (.near t cause) (t :: us)) else (d, .found () (t :: us))

/-- Takes a token of the given kind. -/
def expect (kind : Kind) (cause : Problem.Cause) : Reader Token := fun d ts =>
  (d, (Bounded.expect kind cause ts).1.answer)

/-- Takes a token of one of two kinds. -/
def expectEither (k₁ k₂ : Kind) (cause : Problem.Cause) : Reader Token := fun d ts =>
  match ts with
  | [] => (d, .cut)
  | t :: us =>
    if t.kind = k₁ ∨ t.kind = k₂ then (d, .found t us)
    else (d, .refused (.near t cause) (t :: us))

/-- Reads an expression and notes its problems, and how deep its calls are nested. -/
def expr : Reader Expr := fun d ts =>
  let r := whole ts
  ({ d with problems := d.problems ++ r.reading.problems, depth := max d.depth r.depth },
    r.reading.answer)

/-- Reads an expression for a direction: an integer literal there is `-1`, `0` or `1`. -/
def direction (axis : Axis) : Reader Expr := fun d ts =>
  match ts with
  | [] => (d, .cut)
  | start :: us =>
    match expr d (start :: us) with
    | (d', .found e rest) =>
      match e.intLiteral? with
      | some n =>
        if -1 ≤ n ∧ n ≤ 1 then (d', .found e rest)
        else (d', .refused (.near start (.direction axis)) rest)
      | none => (d', .found e rest)
    | (d', a) => (d', a)

/-- What is left of a row of tokens behind its next line end; the closing mark is not passed. -/
def skipLine : List Token → Option (List Token)
  | [] => none
  | t :: us =>
    if t.kind = .eof then some (t :: us) else if t.kind = .newline then some us else skipLine us

/-- The end of the line, or of the row. Anything else is noted and passed over with its line. -/
def lineEnd (after : String) : Reader Unit := fun d ts =>
  match ts with
  | [] => (d, .cut)
  | t :: us =>
    if t.kind = .newline then (d, .found () us)
    else if t.kind = .eof then (d, .found () (t :: us))
    else
      let d := d.note (.near t (.endOfLine after))
      match skipLine (t :: us) with
      | some rest => (d, .found () rest)
      | none => (d, .cut)

/-! ### Readers do not lengthen the row -/

/-- The reader leaves no more tokens than it was given. -/
def Shrinks (r : Reader α) : Prop := ∀ d ts, (r d ts).2.Within ts.length

theorem Shrinks.bind {r : Reader α} {f : α → Reader β} (hr : Shrinks r) (hf : ∀ v, Shrinks (f v)) :
    Shrinks (r >>= f) := by
  intro d ts
  have h := hr d ts
  show (match r d ts with
    | (d', .found v rest) => f v d' rest
    | (d', .refused p rest) => (d', .refused p rest)
    | (d', .cut) => (d', .cut)).2.Within ts.length
  split
  · next d' v rest heq =>
    rw [heq] at h
    exact (hf v d' rest).mono h
  · next d' p rest heq =>
    rw [heq] at h
    exact h
  · trivial

theorem shrinks_refuse (cause : Problem.Cause) : Shrinks (refuse cause : Reader α) := by
  intro d ts
  cases ts with
  | nil => trivial
  | cons t us => exact Nat.le_refl _

theorem shrinks_refuseIf (kind : Kind) (cause : Problem.Cause) : Shrinks (refuseIf kind cause) := by
  intro d ts
  cases ts with
  | nil => trivial
  | cons t us =>
    rw [refuseIf]
    split <;> exact Nat.le_refl _

theorem shrinks_expect (kind : Kind) (cause : Problem.Cause) : Shrinks (expect kind cause) :=
  fun _ ts => (Bounded.expect kind cause ts).within

theorem shrinks_expectEither (k₁ k₂ : Kind) (cause : Problem.Cause) :
    Shrinks (expectEither k₁ k₂ cause) := by
  intro d ts
  cases ts with
  | nil => trivial
  | cons t us =>
    rw [expectEither]
    split
    · exact Nat.le_succ _
    · exact Nat.le_refl _

theorem shrinks_expr : Shrinks expr := fun _ ts => (whole ts).within

theorem shrinks_direction (axis : Axis) : Shrinks (direction axis) := by
  intro d ts
  cases ts with
  | nil => trivial
  | cons t us =>
    have h := shrinks_expr d (t :: us)
    rw [direction]
    split
    · next d' e rest heq =>
      rw [heq] at h
      repeat' split
      all_goals exact h
    · next d' a _ heq =>
      rw [heq] at h
      exact h

theorem skipLine_length {ts rest : List Token} (h : skipLine ts = some rest) :
    rest.length ≤ ts.length := by
  induction ts with
  | nil => simp [skipLine] at h
  | cons t us ih =>
    rw [skipLine] at h
    split at h
    · obtain rfl := Option.some.inj h
      exact Nat.le_refl _
    · split at h
      · obtain rfl := Option.some.inj h
        exact Nat.le_succ _
      · exact Nat.le_succ_of_le (ih h)

theorem shrinks_lineEnd (after : String) : Shrinks (lineEnd after) := by
  intro d ts
  cases ts with
  | nil => trivial
  | cons t us =>
    rw [lineEnd]
    split
    · exact Nat.le_succ _
    · split
      · exact Nat.le_refl _
      · split
        · next rest h => exact skipLine_length h
        · trivial

end Reader

end Brushwork.Grammar
