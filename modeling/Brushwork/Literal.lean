/-!
The values that can be written down in a program: integers, truth values and texts.
-/

namespace Brushwork

/-- A written value. Truth values and integers are kept apart: `true` is not `1`. -/
inductive Literal where
  | int (value : Int)
  | bool (value : Bool)
  | text (value : String)
deriving DecidableEq

namespace Literal

/-- The integer that a literal is, if it is one. -/
def int? : Literal → Option Int
  | int n => some n
  | _ => none

/-- The text that a literal is, if it is one. -/
def text? : Literal → Option String
  | text s => some s
  | _ => none

end Literal

end Brushwork
