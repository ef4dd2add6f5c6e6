import Brushwork.File.Folder
import Brushwork.Text.Line

/-!
The texts of files: valid text only, with all line ends alike.
-/

namespace Brushwork.File

/-- The text of bytes, line ends unchanged. -/
def textOf (bytes : ByteArray) : Except Error String :=
  match String.fromUTF8? bytes with
  | some s => .ok s
  | none => .error .notText

/-- The text of bytes, with all line ends alike. -/
def readText (bytes : ByteArray) : Except Error String :=
  (textOf bytes).map fun s => String.ofList (Text.unifyNewlines s.toList)

namespace Folder

/-- The text of a file, with all line ends alike. -/
def text (f : Folder) (p : Path) : Except Error String := do readText (← f.bytes p)

/-- The text of a file as it is. -/
def rawText (f : Folder) (p : Path) : Except Error String := do textOf (← f.bytes p)

/-- Writes a text into a file. -/
def writeText (f : Folder) (p : Path) (s : String) : Except Error Folder := f.write p s.toUTF8

end Folder

end Brushwork.File
