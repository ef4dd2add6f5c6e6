import Brushwork.CommandLine.Argument
import Brushwork.CommandLine.Output
import Brushwork.File.Text
import Brushwork.Text.Quoted
import Brushwork.Token.Scan

/-!
The command that lists the tokens of a program.
-/

namespace Brushwork.CommandLine.Listing

/-- What the arguments ask for. -/
def asked (argv : List String) : Request File.Path :=
  match request [] (fun _ _ (_ : Unit) => none) () argv with
  | .perform (_, file) => .perform (.ofString file)
  | .help => .help
  | .misused => .misused

/-- How the command is used. -/
def help : List String :=
  ["usage: walle-lex [-h] path",
    "",
    "Lex a Wall-E source file",
    "",
    "positional arguments:",
    "  path        Path to Wall-E source (.pw)",
    "",
    "options:",
    "  -h, --help  show this help message and exit"]

/-- A token, as the command prints it. -/
def tokenLine (t : Token) : String :=
  t.kind.label ++ "\t" ++ Text.quoted t.lexeme ++ "\t(line " ++ toString t.position.line ++ ")"

/-- Lists the tokens of a program text. -/
def listSource (source : String) : Output :=
  match scan? source with
  | none => ⟨[], .escaped .overlongNumber⟩
  | some scan =>
    ⟨scan.closed.map tokenLine ++ scan.errors.map ("lexer error: " ++ ·),
      .exit (if scan.faults.isEmpty then 0 else 1)⟩

/-- Carries out the command, where `read` gives the bytes of a file. -/
def perform (file : File.Path) (read : File.Path → Except File.Error ByteArray) : Output :=
  match read file >>= File.readText with
  | .ok source => listSource source
  | .error .notFound => ⟨["error: file not found: " ++ file.toString], .exit 1⟩
  | .error e => ⟨[], .unreadable e⟩

/-- The command, from its arguments. -/
def command (argv : List String) (read : File.Path → Except File.Error ByteArray) : Output :=
  match asked argv with
  | .perform file => perform file read
  | .help => ⟨help, .exit 0⟩
  | .misused => .misused

end Brushwork.CommandLine.Listing
