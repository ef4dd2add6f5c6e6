import Brushwork.Number.Binary64
import Brushwork.Number.Checksum
import Brushwork.Text.Quoted

/-!
How color names are shown.

Common names have a fixed shade, whatever their case. Any other name gets a hue from its checksum, so
that the same name is always shown alike.
-/

namespace Brushwork.Swatch

/-- The names with a fixed shade, in small letters. -/
def named : List (String × String) :=
  [("red", "#e53935"), ("blue", "#1e88e5"), ("green", "#43a047"), ("yellow", "#fdd835"),
    ("orange", "#fb8c00"), ("purple", "#8e24aa"), ("black", "#000000"), ("white", "#ffffff"),
    ("gray", "#9e9e9e"), ("grey", "#9e9e9e"), ("pink", "#ec407a"), ("brown", "#6d4c41"),
    ("cyan", "#00acc1")]

/-- The small letter of a letter `A` to `Z`, and of the kelvin sign, which is a `K`. No other letter
has a small letter from `a` to `z`, so nothing else matters for the comparison with `named`. -/
def lower (c : Char) : Char := if c = '\u212a' then 'k' else c.toLower

/-- The shade of a name that has a fixed one. -/
def named? (name : String) : Option String := named.lookup (name.map lower)

/-! ### Hues -/

/-- The part of a hue that counts: it lies on a circle of length one. -/
def wrap (hue : Float) : Float :=
  if hue < 0.0 then hue + 1.0 else if hue < 1.0 then hue else hue - 1.0

/-- One of the three parts of a color, between the least part `low` and the greatest, `high`. -/
def part (low high hue : Float) : Float :=
  let h := wrap hue
  if h < 1.0 / 6.0 then low + (high - low) * h * 6.0
  else if h < 0.5 then high
  else if h < 2.0 / 3.0 then low + (high - low) * (2.0 / 3.0 - h) * 6.0
  else low

/-- A part of a color, as two hexadecimal digits. -/
def byteText (v : Float) : String :=
  String.ofList (Text.hexDigits 2 (Binary64.truncate (v * 255.0)).toNat)

/-- The color of a hue, at half lightness and a saturation of 0.65. -/
def ofHue (hue : Float) : String :=
  let high := 0.5 * (1.0 + 0.65)
  let low := 2.0 * 0.5 - high
  let third := 1.0 / 3.0
  "#" ++ byteText (part low high (hue + third)) ++ byteText (part low high hue) ++
    byteText (part low high (hue - third))

/-- The hue of a name. -/
def hueOf (name : String) : Float :=
  Float.ofNat ((Checksum.ofBytes name.toUTF8.toList).toNat % 360) / 360.0

/-- The color in which a name is shown; the transparent one is not shown. -/
def hex? (name : String) : Option String :=
  if name = "Transparent" then none else some ((named? name).getD (ofHue (hueOf name)))

end Brushwork.Swatch
