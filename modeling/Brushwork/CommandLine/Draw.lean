import Brushwork.CommandLine.Argument
import Brushwork.CommandLine.Output
import Brushwork.File.Text
import Brushwork.Report
import Brushwork.Syntax.Record

/-!
The command that runs a program and prints its canvas.
-/

namespace Brushwork.CommandLine.Draw

/-- The settings of the command. -/
structure Settings where
  size : Int
  maxSteps : Option Int
  tokens : Bool
  statements : Bool
  blank : String
  ink : String

/-- The settings where nothing is asked for. -/
def defaults : Settings := ⟨20, none, false, false, ".", "#"⟩

/-- The options of the command. -/
def switches : List Switch :=
  [⟨["--size"], true⟩, ⟨["--max-steps"], true⟩, ⟨["--tokens"], false⟩, ⟨["--ast"], false⟩,
    ⟨["--blank"], true⟩, ⟨["--ink"], true⟩]

/-- Takes up an option. -/
def set (s : Switch) (value : Option String) (settings : Settings) : Option Settings :=
  match s.spellings, value with
  | ["--size"], some v => (Text.Numeral.int? v).map fun n => { settings with size := n }
  | ["--max-steps"], some v => (Text.Numeral.int? v).map fun n => { settings with maxSteps := some n }
  | ["--tokens"], none => some { settings with tokens := true }
  | ["--ast"], none => some { settings with statements := true }
  | ["--blank"], some v => some { settings with blank := v }
  | ["--ink"], some v => some { settings with ink := v }
  | _, _ => none

/-- What the arguments ask for. -/
def asked (argv : List String) : Request (Settings × File.Path) :=
  match request switches set defaults argv with
  | .perform (settings, file) => .perform (settings, .ofString file)
  | .help => .help
  | .misused => .misused

/-- How the command is used. -/
def help : List String :=
  ["usage: walle [-h] [--size SIZE] [--max-steps MAX_STEPS] [--tokens] [--ast]",
    "             [--blank BLANK] [--ink INK]",
    "             input",
    "",
    "Run a Wall-E drawing program",
    "",
    "positional arguments:",
    "  input                 Input .pw file",
    "",
    "options:",
    "  -h, --help            show this help message and exit",
    "  --size SIZE           Canvas width and height in cells (default: 20)",
    "  --max-steps MAX_STEPS",
    "                        Abort after this many executed statements (default:",
    "                        unbounded)",
    "  --tokens              Print the token stream",
    "  --ast                 Print the parsed statements",
    "  --blank BLANK         Glyph for blank cells",
    "  --ink INK             Glyph for painted cells"]

/-- An error, as the command prints it. -/
def errorLine (message : String) : String := "[walle:error] " ++ message

/-- A stage, as the command announces it. -/
def stageLine (s : Stage) : String := "[walle] " ++ s.announcement ++ "..."

/-- What is printed of a report, behind the announcements. -/
def reportLines (settings : Settings) (r : Report) : List String :=
  let tokens :=
    if settings.tokens then "Tokens:" :: r.tokens.map fun t => "  " ++ t.describe else []
  let statements :=
    match r.program with
    | some p =>
      if settings.statements then
        ("Parsed " ++ toString p.statements.size ++ " statements:") ::
          p.statements.toList.map fun s => "  - " ++ s.record
      else []
    | none => []
  let picture :=
    match r.machine with
    | some m => [m.easel.canvas.render settings.blank settings.ink]
    | none => []
  tokens ++ statements ++ r.errors.map errorLine ++ picture

/-- Runs a program text. -/
def drawSource (settings : Settings) (source : String) (patience : Nat) : Output :=
  let outcome := runSource source settings.size settings.maxSteps patience
  let announced := outcome.begun.map stageLine
  match outcome.report with
  | .error cause => ⟨announced, .escaped cause⟩
  | .ok report =>
    ⟨announced ++ reportLines settings report, .exit (if report.ok then 0 else 1)⟩

/-- Carries out the command, where `read` gives the bytes of a file. The size is looked at before the
file is. -/
def perform (settings : Settings) (file : File.Path)
    (read : File.Path → Except File.Error ByteArray) (patience : Nat) : Output :=
  if settings.size ≤ 0 then
    ⟨[errorLine ("canvas size must be positive: " ++ toString settings.size)], .exit 1⟩
  else
    match read file >>= File.readText with
    | .ok source => drawSource settings source patience
    | .error .notFound => ⟨[errorLine ("file not found: " ++ file.toString)], .exit 1⟩
    | .error e => ⟨[], .unreadable e⟩

/-- The command, from its arguments. -/
def command (argv : List String) (read : File.Path → Except File.Error ByteArray)
    (patience : Nat) : Output :=
  match asked argv with
  | .perform (settings, file) => perform settings file read patience
  | .help => ⟨help, .exit 0⟩
  | .misused => .misused

end Brushwork.CommandLine.Draw
