import Brushwork.Machine.Depth
import Brushwork.Machine.Effect
import Brushwork.Machine.Host

/-!
Running programs.

A machine holds a program and the state of its run. `Machine.step` carries out one statement,
`Machine.run` goes on until the program ends, something stops it, or patience is at its end. A run
with a step limit always comes to its end. `Machine.runOn` is the same on a host, which gives a run up
at a statement whose values are nested too deep for it.
-/

namespace Brushwork

/-- A program with the state of its run. -/
structure Machine where
  statements : Array Stmt
  labels : Table Nat
  easel : Easel
  /-- The place of the statement that comes next. -/
  pc : Nat
  /-- How many statements have been carried out. -/
  steps : Nat
  /-- The line of the statement that was begun last. -/
  line : Option Int

namespace Machine

/-- A machine that is about to begin. The program has to put the cursor down first, and the canvas
needs at least one cell. -/
def new (statements : Array Stmt) (size : Int) : Except Fault Machine :=
  if !Program.startsWithSpawn statements then .error .missingSpawn
  else if size ≤ 0 then .error (.canvasNotPositive size)
  else
    .ok
      { statements := statements
        labels := Program.labelTable statements
        easel := .new size.toNat
        pc := 0
        steps := 0
        line := none }

/-- The machine back at the first statement; all else stays. -/
def rewind (m : Machine) : Machine := { m with pc := 0, steps := 0 }

/-- How a run ends. -/
inductive Ending where
  /-- All statements are done. -/
  | finished
  /-- A fault stopped the run. -/
  | stopped (fault : Fault)
  /-- Patience is at its end. -/
  | unfinished
deriving DecidableEq

/-- The number of steps reaches a limit. -/
def reaches (steps : Nat) : Option Int → Option Int
  | some limit => if limit ≤ steps then some limit else none
  | none => none

/-- Begins a statement: from now on its line is the current one. -/
def begin (m : Machine) (s : Stmt) : Machine :=
  match m with
  | ⟨statements, labels, easel, pc, steps, _⟩ => ⟨statements, labels, easel, pc, steps, s.mark.line⟩

/-- Completes a statement with its effect. -/
def complete (m : Machine) (effect : Effect) : Machine :=
  match m with
  | ⟨statements, labels, easel, pc, steps, line⟩ =>
    ⟨statements, labels, effect.apply easel, effect.next pc, steps + 1, line⟩

/-- One step of a run: the end of the run, or nothing if it goes on. -/
def step (limit : Option Int) (m : Machine) : Machine × Option Ending :=
  match m.statements[m.pc]? with
  | none => (m, some .finished)
  | some s =>
    match reaches m.steps limit with
    | some n => (m, some (.stopped (.stepLimit n)))
    | none =>
      match m.easel.plan m.labels s.action with
      | .error fault => (m.begin s, some (.stopped fault))
      | .ok effect => ((m.begin s).complete effect, none)

/-- Steps until the run ends, `patience` times at most. -/
def run (limit : Option Int) : Nat → Machine → Machine × Ending
  | 0, m => (m, .unfinished)
  | patience + 1, m =>
    match m.step limit with
    | (m, some ending) => (m, ending)
    | (m, none) => run limit patience m

/-- How many steps a run may take: its limit decides, if it has one. -/
def patienceFor (limit : Option Int) (patience : Nat) : Nat :=
  match limit with
  | some n => n.toNat + 1
  | none => patience

/-- Runs a program from its first statement. -/
def execute (m : Machine) (limit : Option Int) (patience : Nat) : Machine × Ending :=
  run limit (patienceFor limit patience) m.rewind

/-! ### Hosts -/

/-- A machine on a host, which has to lay out the canvas once nothing else is in the way. -/
def newOn (host : Host) (statements : Array Stmt) (size : Int) :
    Except Escape (Except Fault Machine) := do
  if Program.startsWithSpawn statements then host.layOut size
  return new statements size

/-- The host has room for the values of the statement that comes next, if there is one to be carried
out. -/
def fits (host : Host) (limit : Option Int) (m : Machine) : Bool :=
  match m.statements[m.pc]?, reaches m.steps limit with
  | some s, none => Host.allows host.valuing (m.easel.planDepth s.action)
  | _, _ => true

/-- Steps on a host until the run ends, `patience` times at most. -/
def runOn (host : Host) (limit : Option Int) : Nat → Machine → Except Escape (Machine × Ending)
  | 0, m => .ok (m, .unfinished)
  | patience + 1, m =>
    if m.fits host limit then
      match m.step limit with
      | (m, some ending) => .ok (m, ending)
      | (m, none) => runOn host limit patience m
    else .error .tooDeep

/-- Runs a program on a host from its first statement. -/
def executeOn (host : Host) (m : Machine) (limit : Option Int) (patience : Nat) :
    Except Escape (Machine × Ending) :=
  runOn host limit (patienceFor limit patience) m.rewind

/-! ### Tracing -/

/-- What a completed statement leaves behind: where it stood, where the run goes on, and the easel. -/
structure Trace where
  pc : Nat
  next : Nat
  x : Int
  y : Int
  brushSize : Int
  brushColor : String
  painted : Nat

/-- Runs and notes, for the first `entries` statements that are completed, what they leave behind. -/
def runTraced (limit : Option Int) : Nat → Nat → Machine → Machine × Ending × List Trace
  | 0, _, m => (m, .unfinished, [])
  | patience + 1, 0, m =>
    let (m, ending) := run limit (patience + 1) m
    (m, ending, [])
  | patience + 1, entries + 1, m =>
    let pc := m.pc
    match m.step limit with
    | (m, some ending) => (m, ending, [])
    | (m, none) =>
      let e := m.easel
      let t : Trace :=
        ⟨pc, m.pc, e.x, e.y, e.brush.size, e.brush.color, e.canvas.painted.length⟩
      let (m, ending, ts) := runTraced limit patience entries m
      (m, ending, t :: ts)

/-- Runs a program from its first statement and notes the first `entries` completed statements. -/
def executeTraced (m : Machine) (limit : Option Int) (patience entries : Nat) :
    Machine × Ending × List Trace :=
  runTraced limit (patienceFor limit patience) entries m.rewind

end Machine

end Brushwork
