import Brushwork.Machine.Fault

/-!
What programs run on.

A host has room for only so many calls inside one another, and for canvases of only so many cells.
Calls are counted from the one for a whole expression on, and only those of functions that call each
other again and again. The calls around these and below them are a fixed number, and what they take is
not part of the room.
-/

namespace Brushwork

/-- The bounds of a host, where it has any. -/
structure Host where
  /-- How many calls can be nested in one another to read an expression. -/
  reading : Option Nat
  /-- How many can be nested to check one. -/
  checking : Option Nat
  /-- How many can be nested to find its value. -/
  valuing : Option Nat
  /-- The largest number of cells in a row that can be counted. -/
  counting : Option Nat
  /-- The largest size of a canvas that there is memory for. -/
  memory : Option Nat

namespace Host

/-- The number does not go beyond the bound. -/
def allows (bound : Option Nat) (n : Nat) : Bool := bound.all fun most => n ≤ most

/-- A host without bounds. -/
def unbounded : Host := ⟨none, none, none, none, none⟩

/-- Lays out a canvas of the size. -/
def layOut (host : Host) (size : Int) : Except Escape Unit :=
  if !allows host.counting size.toNat then .error .uncountable
  else if !allows host.memory size.toNat then .error .outOfMemory
  else .ok ()

end Host

end Brushwork
