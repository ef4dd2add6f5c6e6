import Brushwork.Text.Numeral

/-!
The arguments of a command.

An argument that begins with a dash is an option, unless it is a dash alone, a negative number, or
holds a blank and is no option. An option may be cut short as long as only one is meant, and can
have its value behind an equals sign. Options of one letter can stand behind one dash together. After
two dashes all arguments are plain.
-/

namespace Brushwork.CommandLine

/-- An option: its spellings, and whether it takes a value. -/
structure Switch where
  spellings : List String
  takesValue : Bool
deriving DecidableEq

/-- An argument, by what it is. -/
inductive Argument where
  | plain (text : String)
  /-- An option, with the value behind its equals sign or its letter. -/
  | option (s : Switch) (value : Option String)
  /-- An option that there is not. -/
  | unknown (text : String)
  /-- Letters with something behind them that they do not take. -/
  | misfit
  /-- Two dashes. -/
  | separator
deriving DecidableEq

/-- Splits a text at its first equals sign. -/
def splitEquals (s : String) : String × Option String :=
  let cs := s.toList
  match cs.dropWhile (· ≠ '=') with
  | [] => (s, none)
  | _ :: value => (String.ofList (cs.takeWhile (· ≠ '=')), some (String.ofList value))

/-- The text is a negative number: a dash, then digits, perhaps with a point before the last of
them. One line end may follow. -/
def isNegativeNumber (s : String) : Bool :=
  let isDigit := Text.Digit.isDecimal
  let atEnd : List Char → Bool := fun cs => cs = [] ∨ cs = ['\n']
  match s.toList with
  | '-' :: cs =>
    match cs.dropWhile isDigit with
    | '.' :: ds => !(ds.takeWhile isDigit).isEmpty && atEnd (ds.dropWhile isDigit)
    | rest => !(cs.takeWhile isDigit).isEmpty && atEnd rest
  | _ => false

/-- All spellings with their options. -/
def spellings (switches : List Switch) : List (String × Switch) :=
  switches.flatMap fun s => s.spellings.map fun spelling => (spelling, s)

/-- The options that a long spelling can mean, with its value. -/
def longMatches (switches : List Switch) (s : String) : List Argument :=
  let (start, value) := splitEquals s
  ((spellings switches).filter fun e => start.toList.isPrefixOf e.1.toList).map
    fun e => .option e.2 value

/-- The options that stand together behind one dash: the option `s`, then the letters behind it. An
option that takes a value takes all that follows, without an equals sign at its front. Letters that
are no option end the row as an unknown one. Behind one without a value there can be neither an equals
sign nor a dash: then there is no answer, whatever the letters before it are. -/
def letters? (table : List (String × Switch)) (s : Switch) : List Char → Option (List Argument)
  | [] => some [.option s none]
  | c :: cs =>
    if s.takesValue then
      some [.option s (some (String.ofList (if c = '=' then cs else c :: cs)))]
    else if c = '=' ∨ c = '-' then none
    else
      match table.lookup (String.ofList ['-', c]) with
      | some next => (letters? table next cs).map (.option s none :: ·)
      | none => some [.option s none, .unknown (String.ofList ('-' :: c :: cs))]

/-- The options that a spelling with one dash can mean: the first letter counts and more can follow,
or all of it is the beginning of an option. -/
def shortMatches (switches : List Switch) (s : String) : List (List Argument) :=
  let table := spellings switches
  table.filterMap fun e =>
    if e.1.toList = s.toList.take 2 then
      some ((letters? table e.2 (s.toList.drop 2)).getD [.misfit])
    else if s.toList.isPrefixOf e.1.toList then some [.option e.2 none]
    else none

/-- What an argument is; there is no answer if an option is meant and it is not clear which. -/
def classify? (switches : List Switch) (s : String) : Option (List Argument) :=
  let table := spellings switches
  match s.toList with
  | '-' :: c :: _ =>
    match table.lookup s with
    | some switch => some [.option switch none]
    | none =>
      let (start, value) := splitEquals s
      match value, table.lookup start with
      | some v, some switch => some [.option switch (some v)]
      | _, _ =>
        match if c = '-' then (longMatches switches s).map ([·]) else shortMatches switches s with
        | [meant] => some meant
        | _ :: _ :: _ => none
        | [] =>
          if isNegativeNumber s || s.toList.contains ' ' then some [.plain s]
          else some [.unknown s]
  | _ => some [.plain s]

/-- What the arguments are; there is no answer if it is not clear which option is meant. -/
def classifyAll? (switches : List Switch) : List String → Option (List Argument)
  | [] => some []
  | "--" :: rest => some (.separator :: rest.map .plain)
  | s :: rest => do
    let meant ← classify? switches s
    return meant ++ (← classifyAll? switches rest)

/-- What a command was asked to do. -/
inductive Request (α : Type) where
  /-- The command shall be carried out, with these settings. -/
  | perform (settings : α)
  /-- The command shall be explained. -/
  | help
  /-- The arguments do not fit. -/
  | misused

/-- The option that asks for an explanation. -/
def helpSwitch : Switch := ⟨["-h", "--help"], false⟩

/-- Goes through the arguments of a command with one plain argument, `file`. `set` takes up an option
with its value, if that fits. `surplus` tells of arguments that are too many. -/
def collect {α : Type} (set : Switch → Option String → α → Option α) :
    List Argument → α → Option String → Bool → Request (α × String)
  | [], settings, some file, false => .perform (settings, file)
  | [], _, _, _ => .misused
  | .plain s :: .separator :: rest, settings, none, surplus =>
    collect set rest settings (some s) surplus
  | .plain s :: rest, settings, none, surplus => collect set rest settings (some s) surplus
  | .plain _ :: rest, settings, file, _ => collect set rest settings file true
  | .separator :: .plain s :: rest, settings, none, surplus =>
    collect set rest settings (some s) surplus
  | .separator :: rest, settings, file, _ => collect set rest settings file true
  | .unknown _ :: rest, settings, file, _ => collect set rest settings file true
  | .misfit :: _, _, _, _ => .misused
  | .option s value :: rest, settings, file, surplus =>
    if s = helpSwitch then
      match value with
      | none => .help
      | some _ => .misused
    else if s.takesValue then
      match value, rest with
      | some v, rest =>
        match set s (some v) settings with
        | some settings => collect set rest settings file surplus
        | none => .misused
      | none, .plain v :: rest =>
        match set s (some v) settings with
        | some settings => collect set rest settings file surplus
        | none => .misused
      | none, _ => .misused
    else
      match value, set s none settings with
      | none, some settings => collect set rest settings file surplus
      | _, _ => .misused

/-- What the arguments of a command with one plain argument ask for. -/
def request {α : Type} (switches : List Switch) (set : Switch → Option String → α → Option α)
    (defaults : α) (argv : List String) : Request (α × String) :=
  match classifyAll? (helpSwitch :: switches) argv with
  | some arguments => collect set arguments defaults none false
  | none => .misused

end Brushwork.CommandLine
