import Brushwork.Check.Analysis
import Brushwork.Grammar.Parse
import Brushwork.Machine.Run
import Brushwork.Token.Scan

/-!
From a program text to a picture.

A text is scanned, read, checked and run; the first stage that finds errors is the last one. A run
that is stopped by a fault still shows what it has painted. Where a stage takes more than the host has
to give, there is no report.
-/

namespace Brushwork

/-- The stages, in order. -/
inductive Stage where
  | lex | parse | semantic | runtime
deriving DecidableEq

namespace Stage

/-- The name of a stage. -/
def label : Stage → String
  | lex => "lex"
  | parse => "parse"
  | semantic => "semantic"
  | runtime => "runtime"

/-- How a stage is announced. -/
def announcement : Stage → String
  | lex => "lexing"
  | parse => "parsing"
  | semantic => "semantic checks"
  | runtime => "executing"

end Stage

/-- What has become of a program text. -/
structure Report where
  /-- The stage that found errors, if one did. -/
  failed : Option Stage
  errors : List String
  tokens : List Token
  program : Option Program
  machine : Option Machine

namespace Report

/-- No stage found errors. -/
def ok (r : Report) : Bool := r.failed.isNone

/-- The name of the stage that found errors. -/
def stageLabel (r : Report) : String := (r.failed.map Stage.label).getD "ok"

end Report

/-- A text on its way through the stages: those that were begun, and the report, if there is one. -/
structure Outcome where
  begun : List Stage
  report : Except Escape Report

/-- The report on a program that was read and checked, on a canvas of the given size. -/
def runProgram (host : Host) (tokens : List Token) (program : Program) (size : Int)
    (limit : Option Int) (patience : Nat) : Except Escape Report := do
  let failure (fault : Fault) (line : Option Int) (machine : Option Machine) :=
    (fault.message line).map fun message =>
      ⟨some .runtime, [message], tokens, some program, machine⟩
  match ← Machine.newOn host program.statements size with
  | .error fault => failure fault none none
  | .ok machine =>
    match ← machine.executeOn host limit patience with
    | (m, .finished) => return ⟨none, [], tokens, some program, some m⟩
    | (m, .stopped fault) => failure fault m.line (some m)
    | (_, .unfinished) => throw .unfinished

/-- Takes a program text through the stages on a host, with a canvas of the given size and at most
`limit` statements carried out. Without a limit, a run that takes more than `patience` steps has no
report. -/
def runSourceOn (host : Host) (source : String) (size : Int) (limit : Option Int) (patience : Nat) :
    Outcome :=
  match scan? source with
  | none => ⟨[.lex], .error .overlongNumber⟩
  | some scan =>
    let tokens := scan.closed
    if !scan.errors.isEmpty then
      ⟨[.lex], .ok ⟨some .lex, scan.errors, tokens, none, none⟩⟩
    else
      let parse := Grammar.Parse.ofTokens tokens
      let program := parse.program
      if !Host.allows host.reading parse.draft.depth then ⟨[.lex, .parse], .error .tooDeep⟩
      else if !parse.errors.isEmpty then
        ⟨[.lex, .parse], .ok ⟨some .parse, parse.errors, tokens, some program, none⟩⟩
      else if !Host.allows host.checking (Check.depthOf program.statements) then
        ⟨[.lex, .parse, .semantic], .error .tooDeep⟩
      else
        let errors := Check.errors program.statements
        if !errors.isEmpty then
          ⟨[.lex, .parse, .semantic], .ok ⟨some .semantic, errors, tokens, some program, none⟩⟩
        else
          ⟨[.lex, .parse, .semantic, .runtime],
            runProgram host tokens program size limit patience⟩

/-- Takes a program text through the stages without a bound on anything but its steps. -/
def runSource (source : String) (size : Int) (limit : Option Int) (patience : Nat) : Outcome :=
  runSourceOn .unbounded source size limit patience

end Brushwork
