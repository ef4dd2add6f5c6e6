/-!
The colors of a canvas.

Every color name gets a code when it is first used: one for the first, two for the second, and so
on. Zero is the code of a blank cell and of no color.
-/

namespace Brushwork

/-- The color names in use, in the order of their codes. -/
structure Palette where
  names : Array String
deriving DecidableEq

namespace Palette

/-- The code of a blank cell. -/
def blank : Nat := 0

/-- No color in use. -/
def empty : Palette := ⟨#[]⟩

/-- The code of a name, if it is in use. -/
def code? (p : Palette) (name : String) : Option Nat := (p.names.findIdx? (· == name)).map (· + 1)

/-- The palette with a name in use. -/
def intern (p : Palette) (name : String) : Palette :=
  match p.code? name with
  | some _ => p
  | none => ⟨p.names.push name⟩

/-- The code of a name, after taking it into use. -/
def code (p : Palette) (name : String) : Nat := (p.code? name).getD (p.names.size + 1)

/-- The name of a code, if it is one. -/
def name? (p : Palette) (code : Int) : Option String :=
  if 0 < code then p.names[(code - 1).toNat]? else none

/-- The name is in use. -/
def contains (p : Palette) (name : String) : Bool := (p.code? name).isSome

/-- How many names are in use. -/
def size (p : Palette) : Nat := p.names.size

end Palette

end Brushwork
