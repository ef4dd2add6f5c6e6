import Brushwork.File.Folder
import Brushwork.Machine.Fault

/-!
What a command prints, and how it ends.
-/

namespace Brushwork.CommandLine

/-- How a command ends. -/
inductive Ending where
  /-- With an exit code. -/
  | exit (code : Nat)
  /-- A file could not be read. -/
  | unreadable (error : File.Error)
  /-- There is no result. -/
  | escaped (cause : Escape)
deriving DecidableEq

/-- The lines that a command prints, and how it ends. -/
structure Output where
  lines : List String
  ending : Ending

namespace Output

/-- All that is printed. -/
def text (o : Output) : String := String.join (o.lines.map (· ++ "\n"))

/-- The arguments did not fit: nothing is printed. -/
def misused : Output := ⟨[], .exit 2⟩

end Output

end Brushwork.CommandLine
