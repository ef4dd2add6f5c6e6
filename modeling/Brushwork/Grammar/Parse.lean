import Brushwork.Grammar.Statement

/-!
Reading programs.

`readAll` reads statement after statement up to the closing mark; `Draft.finish` then looks for what
only the whole program can show. Reading can be taken up again at the closing mark: labels, jumps,
problems and the rule on the first statement carry over.
-/

namespace Brushwork.Grammar

/-- Reads statements up to the closing mark, which is left; there is no rest if it is missing. -/
def readAll (d : Draft) (ts : List Token) : Draft × Option (List Token) :=
  match ts with
  | [] => (d, none)
  | t :: us =>
    if t.kind = .eof then (d, some (t :: us))
    else
      match _h : step d t us with
      | (d', some rest) => readAll d' rest
      | (d', none) => (d', none)
termination_by ts.length
decreasing_by exact Nat.lt_succ_of_le (step_length _h)

/-- Notes that no statement puts the cursor down, and every jump whose label is not declared. -/
def Draft.finish (d : Draft) : Draft :=
  let missing := if d.hasSpawn then [] else [.missingSpawn]
  let undefined := (d.references.filter fun t => !d.labels.contains t.name).map fun t =>
    .near t (.undefinedLabel t.name)
  { d with problems := d.problems ++ missing ++ undefined }

/-- What reading a row of tokens gives: the draft, and the tokens from the closing mark on, unless
that mark is missing. -/
structure Parse where
  draft : Draft
  rest : Option (List Token)

namespace Parse

/-- The program that was read. -/
def program (p : Parse) : Program := ⟨p.draft.statements, p.draft.labels⟩

/-- Everything that was noted, as it is reported. -/
def errors (p : Parse) : List String := p.draft.problems.map Problem.message

/-- Reads a program, with what earlier readings have left in the draft. -/
def resume (d : Draft) (ts : List Token) : Parse :=
  match readAll { d with statements := #[] } ts with
  | (d', some rest) => ⟨d'.finish, some rest⟩
  | (d', none) => ⟨d', none⟩

/-- Reads a program from the start of a row of tokens. -/
def ofTokens (ts : List Token) : Parse := resume .empty ts

/-- Reads `n` times over, each time from where the last reading ended: the programs, and the draft
that is left. -/
def repeated (d : Draft) (ts : List Token) : Nat → List Program × Draft
  | 0 => ([], d)
  | n + 1 =>
    let p := resume d ts
    let r := repeated p.draft (p.rest.getD []) n
    (p.program :: r.1, r.2)

end Parse

end Brushwork.Grammar
