import Brushwork.Number.Binary64
import Brushwork.Table
import Brushwork.Text.Numeral

/-!
Settings: values that are kept under names, and that may hold anything.
-/

namespace Brushwork.Editor

/-- A value of a setting. -/
inductive Setting where
  | null
  | flag (b : Bool)
  /-- A decimal number: the digits, and how many of them stand behind the point. -/
  | number (digits : Int) (places : Nat)
  | text (s : String)
  /-- A value of another sort, as it is written. -/
  | other (written : String)
deriving DecidableEq

/-- Why a setting is no integer. -/
inductive SettingError where
  /-- A text that holds no integer. -/
  | noInteger
  /-- A value of the wrong sort. -/
  | wrongSort
deriving DecidableEq

namespace Setting

/-- An integer as a setting. -/
def ofInt (n : Int) : Setting := number n 0

/-- The integer of a setting; a number loses its fraction. -/
def toInt : Setting → Except SettingError Int
  | flag b => .ok (if b then 1 else 0)
  | number n 0 => .ok n
  | number n places =>
    let size := Binary64.truncate (Float.ofScientific n.natAbs true places)
    .ok (if n < 0 then -size else size)
  | text s =>
    match Text.Numeral.int? s with
    | some n => .ok n
    | none => .error .noInteger
  | null | other _ => .error .wrongSort

end Setting

/-- The settings by their names. -/
abbrev Settings := Table Setting

namespace Settings

/-- The integer of a setting, or `fallback` where the name is not set. -/
def int (s : Settings) (name : String) (fallback : Int) : Except SettingError Int :=
  match s.find? name with
  | some v => v.toInt
  | none => .ok fallback

end Settings

end Brushwork.Editor
