import Brushwork.CommandLine.Draw
import Brushwork.CommandLine.Listing

/-!
The commands, on real files.

The first argument says which command is meant, `draw` or `tokens`; the others are its own.
-/

namespace Brushwork.CommandLine

/-- Reads a file. -/
def readFile (p : File.Path) : IO (Except File.Error ByteArray) := do
  try
    return .ok (← IO.FS.readBinFile p.toString)
  catch
    | .noFileOrDirectory .. => return .error .notFound
    | _ => return .error .isFolder

/-- The text of an ending that has no exit code of its own. -/
def endingText : Ending → String
  | .exit _ => ""
  | .unreadable .notFound => "file not found"
  | .unreadable .isFolder => "not a file"
  | .unreadable .notFolder => "not a folder"
  | .unreadable .notText => "not a text"
  | .escaped .overlongNumber => "a number in the program is too long"
  | .escaped .unwritable => "a number is too long to be shown"
  | .escaped .radiusTooLarge => "a radius is too large"
  | .escaped .unfinished => "the program does not end"
  | .escaped .tooDeep => "an expression is nested too deep"
  | .escaped .uncountable => "the canvas is too large"
  | .escaped .outOfMemory => "there is no memory for the canvas"

/-- Prints what a command has to say, and gives its exit code. -/
def finish (output : Output) : IO UInt32 := do
  IO.print output.text
  match output.ending with
  | .exit code => return code.toUInt32
  | ending =>
    IO.eprintln (endingText ending)
    return 1

/-- The greatest number of steps of a run. -/
def patience : Nat := Nat.pow 2 62

/-- Runs a program and prints its canvas. -/
def draw (argv : List String) : IO UInt32 := do
  match Draw.asked argv with
  | .perform (_, file) =>
    let content ← readFile file
    finish (Draw.command argv (fun _ => content) patience)
  | _ => finish (Draw.command argv (fun _ => .error .notFound) patience)

/-- Lists the tokens of a program. -/
def listTokens (argv : List String) : IO UInt32 := do
  match Listing.asked argv with
  | .perform file =>
    let content ← readFile file
    finish (Listing.command argv fun _ => content)
  | _ => finish (Listing.command argv fun _ => .error .notFound)

end Brushwork.CommandLine

/-- The entry point. -/
def main (argv : List String) : IO UInt32 := do
  match argv with
  | "draw" :: rest => Brushwork.CommandLine.draw rest
  | "tokens" :: rest => Brushwork.CommandLine.listTokens rest
  | _ =>
    IO.eprintln "usage: brushwork (draw | tokens) ..."
    return 2
