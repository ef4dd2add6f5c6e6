import Brushwork.Color.Palette

/-!
Calls on a palette.

A palette is asked for codes and names, in any order. Asking for the code of a name may take the name
into use; no other call changes the palette.
-/

namespace Brushwork.Palette

/-- A call on a palette. -/
inductive Call where
  /-- The code of a name, after taking it into use. -/
  | code (name : String)
  /-- The code of a name, if it is in use. -/
  | find (name : String)
  /-- The name of a code, if it is one. -/
  | name (code : Int)
  /-- Whether a name is in use. -/
  | contains (name : String)
  /-- How many names are in use. -/
  | size

/-- What a call answers. -/
inductive Answer where
  | code (code : Nat)
  | found (code : Option Nat)
  | name (name : Option String)
  | truth (value : Bool)
  | size (size : Nat)
deriving DecidableEq

/-- What is behind a row of calls, and their answers, where each call is answered in turn. -/
def answerAll {σ : Type} (answer : σ → Call → σ × Answer) (s : σ) : List Call → σ × List Answer
  | [] => (s, [])
  | call :: calls =>
    let (s, first) := answer s call
    let (s, rest) := answerAll answer s calls
    (s, first :: rest)

/-- The palette behind a call, and the answer. -/
def answer (p : Palette) : Call → Palette × Answer
  | .code name => (p.intern name, .code (p.code name))
  | .find name => (p, .found (p.code? name))
  | .name code => (p, .name (p.name? code))
  | .contains name => (p, .truth (p.contains name))
  | .size => (p, .size p.size)

end Brushwork.Palette
