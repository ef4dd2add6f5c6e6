import Brushwork.Grammar.Problem

/-!
Reading from a row of tokens.

A reading ends in one of three ways: something was found, the tokens were refused, or the row ended
without its closing mark. On the way it notes problems that do not stop it.

* `Bounded`: a reading that leaves no more tokens than it may. Readings that call each other end
  because of this bound. It also tells how deep they are nested in one another.
-/

namespace Brushwork.Grammar

/-- How a reading ends. -/
inductive Answer (α : Type) where
  /-- A value was read; the rest is still to be read. -/
  | found (value : α) (rest : List Token)
  /-- The tokens do not fit; reading stopped before `rest`. -/
  | refused (problem : Problem) (rest : List Token)
  /-- The row ended without its closing mark. -/
  | cut

/-- A reading: the problems noted on the way, and its end. -/
structure Reading (α : Type) where
  problems : List Problem
  answer : Answer α

/-- No more than `n` tokens are left. -/
def Answer.Within {α : Type} (n : Nat) : Answer α → Prop
  | found _ rest | refused _ rest => rest.length ≤ n
  | cut => True

theorem Answer.Within.mono {α : Type} {m n : Nat} {a : Answer α} (h : a.Within m) (hmn : m ≤ n) :
    a.Within n := by
  cases a with
  | found v rest => exact Nat.le_trans h hmn
  | refused p rest => exact Nat.le_trans h hmn
  | cut => trivial

/-- A reading that leaves no more than `n` tokens, with the calls that it takes. -/
structure Bounded (α : Type) (n : Nat) where
  reading : Reading α
  within : reading.answer.Within n
  /-- How many calls are nested in one another, where they are nested deepest. -/
  depth : Nat

namespace Bounded

variable {α β : Type} {m n : Nat}

/-- Finds `v` and leaves `ts`. -/
def found (v : α) (ts : List Token) (h : ts.length ≤ n) : Bounded α n := ⟨⟨[], .found v ts⟩, h, 0⟩

/-- Refuses `ts`. -/
def refused (p : Problem) (ts : List Token) (h : ts.length ≤ n) : Bounded α n :=
  ⟨⟨[], .refused p ts⟩, h, 0⟩

/-- The row of tokens has ended. -/
def cut : Bounded α n := ⟨⟨[], .cut⟩, trivial, 0⟩

/-- The same reading under a wider bound. -/
def weaken (r : Bounded α m) (h : m ≤ n) : Bounded α n := ⟨r.1, r.2.mono h, r.depth⟩

/-- The same reading inside `k` more calls. -/
def nested (k : Nat) (r : Bounded α n) : Bounded α n := ⟨r.1, r.2, k + r.depth⟩

/-- The same reading beside one with calls to that depth. -/
def beside (depth : Nat) (r : Bounded α n) : Bounded α n := ⟨r.1, r.2, max depth r.depth⟩

/-- Notes problems ahead of those of a reading. -/
def noting (ps : List Problem) (r : Bounded α n) : Bounded α n :=
  ⟨⟨ps ++ r.1.problems, r.1.answer⟩, r.2, r.depth⟩

/-- Goes on with what was found. -/
def bind (r : Bounded α n) (f : α → (ts : List Token) → ts.length ≤ n → Bounded β n) :
    Bounded β n :=
  match r with
  | ⟨⟨ps, .found v rest⟩, h, depth⟩ => ((f v rest h).noting ps).beside depth
  | ⟨⟨ps, .refused p rest⟩, h, depth⟩ => ⟨⟨ps, .refused p rest⟩, h, depth⟩
  | ⟨⟨ps, .cut⟩, _, depth⟩ => ⟨⟨ps, .cut⟩, trivial, depth⟩

@[simp] theorem reading_nested (k : Nat) (r : Bounded α n) : (r.nested k).reading = r.reading := rfl

/-- Takes a token of the given kind off the front of `ts`. -/
def expect (kind : Kind) (cause : Problem.Cause) (ts : List Token) : Bounded Token ts.length :=
  match ts with
  | [] => cut
  | t :: us =>
    if t.kind = kind then found t us (Nat.le_succ _) else refused (.near t cause) (t :: us) (Nat.le_refl _)

end Bounded

end Brushwork.Grammar
