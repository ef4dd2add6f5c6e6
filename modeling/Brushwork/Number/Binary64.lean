/-!
Integers and floating-point numbers of 64 bits.

`Significand.ofNat` rounds a natural number to 53 binary digits, a half to the even neighbour;
`ofInt?` is the floating-point number of an integer, if there is one; `truncate` drops the fraction
of a floating-point number and gives the exact integer that is left.
-/

namespace Brushwork.Binary64

/-- The number `digits * 2 ^ exponent`. -/
structure Significand where
  digits : Nat
  exponent : Nat
deriving DecidableEq

namespace Significand

/-- The number itself. -/
def value (s : Significand) : Nat := s.digits * Nat.pow 2 s.exponent

/-- Divides by `2 ^ k` and rounds to the nearest integer, a half to the even one. -/
def halve (n k : Nat) : Nat :=
  let unit := Nat.pow 2 k
  let q := n / unit
  let r := n % unit
  if 2 * r < unit ∨ (2 * r = unit ∧ q % 2 = 0) then q else q + 1

/-- The nearest number with at most 53 binary digits in front of its zeros. -/
def ofNat (n : Nat) : Significand :=
  if n < Nat.pow 2 53 then ⟨n, 0⟩
  else
    let k := n.log2 - 52
    ⟨halve n k, k⟩

end Significand

/-- The integer is too large for a floating-point number: rounded, it reaches `2 ^ 1024`. -/
def isTooLarge (n : Int) : Bool := Nat.pow 2 1024 ≤ (Significand.ofNat n.natAbs).value

/-- The floating-point number nearest to an integer, unless that is too large. -/
def ofInt? (n : Int) : Option Float :=
  if isTooLarge n then none
  else
    let s := Significand.ofNat n.natAbs
    let magnitude := Float.scaleB (Float.ofNat s.digits) s.exponent
    some (if n < 0 then -magnitude else magnitude)

/-- The sign, the digits and the exponent of a finite floating-point number: its magnitude is
`digits * 2 ^ (exponent - 1074)`. -/
def decode (f : Float) : Bool × Nat × Nat :=
  let bits := f.toBits.toNat
  let unit := Nat.pow 2 52
  let fraction := bits % unit
  let field := bits / unit % Nat.pow 2 11
  let negative := bits / Nat.pow 2 63 = 1
  if field = 0 then (negative, fraction, 0) else (negative, fraction + unit, field - 1)

/-- A finite floating-point number without its fraction. -/
def truncate (f : Float) : Int :=
  let (negative, digits, exponent) := decode f
  let n : Int := (digits * Nat.pow 2 exponent / Nat.pow 2 1074 : Nat)
  if negative then -n else n

/-- The power of two integers, computed with floating-point numbers and without its fraction, if all
of them are finite. -/
def pow? (base exponent : Int) : Option Int := do
  let b ← ofInt? base
  let e ← ofInt? exponent
  let r := Float.pow b e
  if r.isFinite then some (truncate r) else none

end Brushwork.Binary64
