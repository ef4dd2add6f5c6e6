import Brushwork.Editor.CanvasView
import Brushwork.Editor.Diagnostic
import Brushwork.Editor.Layout
import Brushwork.File.Text

/-!
The window of the editor.

The window holds a program text, the canvas of its last run, and what there is to say about both.
`Window.new` opens it, `Window.act` carries out what the user does. Where that fails, the window
keeps what was changed until then.
-/

namespace Brushwork.Editor

/-- A box for the size of the canvas. Whatever is set, its value lies within the bounds, and when its
value has changed it says so. -/
structure SizeBox where
  /-- The value that the box takes on. -/
  settle : Int → Nat
  /-- Whether the box says that it was set, by its value before and its value now. -/
  signals : Nat → Nat → Bool
  settle_bounds : ∀ n, minSize ≤ settle n ∧ settle n ≤ maxSize
  signals_of_ne : ∀ before now, now ≠ before → signals before now = true

/-- The box that takes on the nearest value within the bounds, and says no more than it has to. -/
def SizeBox.nearest : SizeBox where
  settle n := max minSize (min n.toNat maxSize)
  signals before now := now != before
  settle_bounds n := by
    simp only [minSize, maxSize]
    omega
  signals_of_ne before now h := bne_iff_ne.2 h

/-- A window. -/
structure Window where
  /-- The program text. -/
  text : String
  /-- The file that the text belongs to. -/
  path : Option File.Path
  log : List String
  errors : List String
  diagnostics : List Diagnostic
  tab : Tab
  /-- The line that is marked. -/
  marked : Option Nat
  /-- The line that the cursor was last sent to. -/
  cursor : Option Nat
  fontSize : Nat
  box : SizeBox
  /-- The value of the size box. -/
  size : Nat
  view : CanvasView
  settings : Settings
  mode : Mode
  /-- The tone that was applied last. -/
  tone : Tone
  highlighter : Highlighter
  /-- The messages of the last run. -/
  lastErrors : List String
  /-- The text was changed, and its hints have not been looked at since. -/
  lintDue : Bool
  folder : File.Folder

/-- Why a gesture fails. -/
inductive Failure where
  | file (e : File.Error)
  | setting (e : SettingError)
  | escape (e : Escape)
deriving DecidableEq

/-- Where a file dialog begins. -/
inductive StartFolder where
  /-- The folder of the project. -/
  | project
  /-- The folder of the samples. -/
  | samples
  | folder (p : File.Path)
deriving DecidableEq

/-- A question to the user. -/
inductive Dialog where
  | openFile (caption : String) (start : StartFolder)
  | saveFile (caption : String) (start : StartFolder)
  | number (title label : String) (current least greatest : Int)
  /-- The choice of a mode, where one is checked at first. -/
  | theme (checked : Mode)
deriving DecidableEq

/-- The files that file dialogs show. -/
def fileFilter : String := "Wall-E Files (*.pw);;All Files (*)"

/-- What the user does, with the answers to the questions that this leads to. A file dialog that is
answered with an empty text was cancelled. -/
inductive Gesture where
  | type (text : String)
  | openFile (answer : String)
  | loadSample (answer : String)
  | saveFile (answer : String)
  | run
  | clearLogs
  | clearErrors
  | increaseFont
  | decreaseFont
  | resetFont
  | chooseTheme (choice : Option Mode) (accepted : Bool)
  | chooseBudget (value : Int) (accepted : Bool)
  | setSize (value : Int)
  /-- Nothing, for a while. -/
  | idle
  /-- Clicks a diagnostic. -/
  | visit (index : Nat)

/-- What comes of a gesture. -/
structure Reaction where
  window : Window
  asked : List Dialog
  failure : Option Failure

namespace Reaction

/-- A gesture that went well, without a question. -/
def quiet (w : Window) : Reaction := ⟨w, [], none⟩

end Reaction

/-- The size of the font at first. -/
def baseFontSize : Nat := 12

/-- The least size of the font. -/
def minFontSize : Nat := 6

/-- The size of the canvas where none is set. -/
def defaultSize : Int := 20

/-- How many statements a run may carry out where nothing is set. -/
def defaultBudget : Int := 100000

/-- The greatest number of statements that can be chosen. -/
def maxBudget : Int := 100000000

/-- The name of the setting that keeps the size of the canvas. -/
def sizeSetting : String := "canvas_size"

/-- The name of the setting that keeps the number of statements. -/
def budgetSetting : String := "step_budget"

/-- The background of the marked line. -/
def markColor : String := "#ffebee"

namespace Window

/-- Opens a window with that size box, in an application whose window color has that lightness. -/
def new (box : SizeBox) (settings : Settings) (lightness : Int) (folder : File.Folder) :
    Except SettingError Window := do
  let mode := Mode.ofSettings settings
  let tone := mode.tone (some lightness)
  let size := box.settle (← settings.int sizeSetting defaultSize)
  return {
    text := "", path := none, log := [], errors := [], diagnostics := [], tab := .logs,
    marked := none, cursor := none, fontSize := baseFontSize, box := box, size := size,
    view := (CanvasView.new.recolor tone.canvasColors).showBlank size,
    settings := settings, mode := mode, tone := tone,
    highlighter := (Highlighter.new .light).recolor tone.syntaxColors,
    lastErrors := [], lintDue := false, folder := folder }

/-! ### Messages -/

/-- Writes a message into the log. -/
def say (w : Window) (message : String) : Window := { w with log := w.log ++ [message] }

/-- Shows errors, and brings their page to the front if there are any. -/
def complain (w : Window) (messages : List String) : Window :=
  { w with
    errors := w.errors ++ messages
    tab := if messages.isEmpty then w.tab else .errors }

/-- Marks a line and sends the cursor there. -/
def markLine (w : Window) (line : Nat) : Window :=
  { w with marked := some line, cursor := some line }

/-- Takes away the mark. -/
def unmark (w : Window) : Window := { w with marked := none }

/-- Replaces the program text. Its hints are looked at later. -/
def setText (w : Window) (text : String) : Window := { w with text := text, lintDue := true }

/-! ### Diagnostics -/

/-- Lists the diagnostics of the messages of the last run and of the text. -/
def listDiagnostics (w : Window) : Except Escape (List Diagnostic) :=
  collectDiagnostics w.lastErrors w.text

/-- The line of the first message of the last run. -/
def firstErrorLine (w : Window) : Except Escape (Option Nat) :=
  match w.lastErrors with
  | [] => .ok none
  | message :: _ => lineOf message

/-- Shows the diagnostics. -/
def showDiagnostics (w : Window) : Window × Option Escape :=
  match w.listDiagnostics with
  | .ok list => ({ w with diagnostics := list }, none)
  | .error e => ({ w with diagnostics := [] }, some e)

/-- Brings the line of the first message of the last run to the front, if it has one. -/
def showFirstError (w : Window) : Window :=
  match w.firstErrorLine with
  | .ok (some (line + 1)) => { w.markLine (line + 1) with tab := .diagnostics }
  | _ => w

/-- Shows the diagnostics; this fails if they cannot be listed. -/
def reactWithDiagnostics (w : Window) (focus : Bool) : Reaction :=
  match w.showDiagnostics with
  | (w, none) => .quiet (if focus then w.showFirstError else w)
  | (w, some e) => ⟨w, [], some (.escape e)⟩

/-! ### Files -/

/-- Reads a file into the window. The file counts as that of the text even if it cannot be read. -/
def loadFile (w : Window) (p : File.Path) : Window × Option File.Error :=
  let w := { w with path := some p, lastErrors := [] }
  match w.folder.text p with
  | .ok text => ((w.setText text).say ("Opened " ++ p.name), none)
  | .error e => (w, some e)

/-- The folder of the file, or another one where the text belongs to no file. -/
def startFolder (w : Window) (otherwise : StartFolder) : StartFolder :=
  match w.path with
  | some p => .folder p.parent
  | none => otherwise

/-- Opens a file that the user chooses. -/
def openFile (w : Window) (answer : String) : Reaction :=
  let asked := [Dialog.openFile "Open Wall-E file" (w.startFolder .samples)]
  if answer = "" then ⟨w, asked, none⟩
  else
    let (w, error) := w.loadFile (.ofString answer)
    ⟨w, asked, error.map .file⟩

/-- Opens a sample that the user chooses; the text then belongs to no file. -/
def loadSample (w : Window) (answer : String) : Reaction :=
  let asked := [Dialog.openFile "Load sample" .samples]
  if answer = "" then ⟨w, asked, none⟩
  else
    match w.loadFile (.ofString answer) with
    | (w, none) => ⟨{ w with path := none }, asked, none⟩
    | (w, some e) => ⟨w, asked, some (.file e)⟩

/-- Writes the text into a file that the user chooses. The file counts as that of the text even if
it cannot be written. -/
def saveFile (w : Window) (answer : String) : Reaction :=
  let asked := [Dialog.saveFile "Save Wall-E file" (w.startFolder .project)]
  if answer = "" then ⟨w, asked, none⟩
  else
    let p := File.Path.ofString answer
    let w := { w with path := some p }
    match w.folder.writeText p w.text with
    | .ok folder => ⟨{ w with folder := folder }.say ("Saved " ++ p.name), asked, none⟩
    | .error e => ⟨w, asked, some (.file e)⟩

/-! ### Runs -/

/-- How many statements a run may carry out; zero stands for any number. -/
def budget (w : Window) : Except SettingError Int := w.settings.int budgetSetting defaultBudget

/-- Shows what has become of a run. -/
def showReport (w : Window) (r : Report) : Window :=
  let view := match r.machine with
    | some m => w.view.showMachine m
    | none => w.view.showBlank w.size
  let w := { w with view := view, lastErrors := r.errors }
  match r.failed, r.machine with
  | none, some m => w.say ("Run completed in " ++ toString m.steps ++ " step(s)")
  | _, _ => (w.say ("Run failed during " ++ r.stageLabel)).complain r.errors

/-- Runs the program text. -/
def runText (w : Window) (patience : Nat) : Reaction :=
  if (Text.trim w.text.toList).isEmpty then .quiet (w.complain ["No source to run"])
  else
    let w := { w with errors := [] }.unmark
    match w.budget with
    | .error e => ⟨w, [], some (.setting e)⟩
    | .ok budget =>
      let limit := if budget = 0 then none else some budget
      let outcome := runSource w.text w.size limit patience
      let w := { w with log := w.log ++ outcome.begun.map fun s => s.announcement ++ "..." }
      match outcome.report with
      | .error e => ⟨w, [], some (.escape e)⟩
      | .ok report => (w.showReport report).reactWithDiagnostics true

/-- Asks how many statements a run may carry out. -/
def chooseBudget (w : Window) (value : Int) (accepted : Bool) : Reaction :=
  match w.budget with
  | .error e => ⟨w, [], some (.setting e)⟩
  | .ok current =>
    let asked :=
      [Dialog.number "Step Budget" "Maximum executed statements (0 = unlimited):" current 0 maxBudget]
    if accepted then
      let w := { w with settings := w.settings.put budgetSetting (.ofInt value) }
      let shown := if value = 0 then "unlimited" else toString value
      ⟨w.say ("Step budget set to " ++ shown), asked, none⟩
    else ⟨w, asked, none⟩

/-- Heeds that the size box was set: the size is kept, and a blank canvas is shown. -/
def heedSize (w : Window) : Window :=
  { w with
    settings := w.settings.put sizeSetting (.ofInt w.size)
    view := w.view.showBlank w.size }

/-- Sets the size box. -/
def setSize (w : Window) (value : Int) : Window :=
  let size := w.box.settle value
  if w.box.signals w.size size then { w with size := size }.heedSize else { w with size := size }

/-! ### Looks -/

/-- Sets the size of the font, which has a least value. -/
def setFontSize (w : Window) (n : Nat) : Window := { w with fontSize := max minFontSize n }

/-- Applies the mode. -/
def applyMode (w : Window) : Window :=
  let tone := w.mode.tone (some w.tone.lightness)
  { w with
    tone := tone
    highlighter := w.highlighter.recolor tone.syntaxColors
    view := w.view.recolor tone.canvasColors }

/-- Asks for a mode. Where no other is chosen the one that is checked at first counts. -/
def chooseTheme (w : Window) (choice : Option Mode) (accepted : Bool) : Reaction :=
  let asked := [Dialog.theme w.mode]
  if accepted then
    let mode := choice.getD w.mode
    let w := { w with mode := mode, settings := mode.save w.settings }.applyMode
    ⟨w.say ("Theme changed to " ++ mode.label), asked, none⟩
  else ⟨w, asked, none⟩

/-! ### Gestures -/

/-- Looks at the hints if that is due. -/
def lint (w : Window) : Reaction :=
  if w.lintDue then { w with lintDue := false }.reactWithDiagnostics false else .quiet w

/-- Goes to the line of a diagnostic, if it has one. -/
def visit (w : Window) (index : Nat) : Window :=
  match w.diagnostics[index]? with
  | some ⟨some (line + 1), _⟩ => w.markLine (line + 1)
  | _ => w

/-- Carries out what the user does. -/
def act (w : Window) (patience : Nat) : Gesture → Reaction
  | .type text => .quiet (w.setText text)
  | .openFile answer => w.openFile answer
  | .loadSample answer => w.loadSample answer
  | .saveFile answer => w.saveFile answer
  | .run => w.runText patience
  | .clearLogs => .quiet { w with log := [] }
  | .clearErrors => .quiet { w with errors := [] }
  | .increaseFont => .quiet (w.setFontSize (w.fontSize + 1))
  | .decreaseFont => .quiet (w.setFontSize (w.fontSize - 1))
  | .resetFont => .quiet { w with fontSize := baseFontSize }
  | .chooseTheme choice accepted => w.chooseTheme choice accepted
  | .chooseBudget value accepted => w.chooseBudget value accepted
  | .setSize value => .quiet (w.setSize value)
  | .idle => w.lint
  | .visit index => .quiet (w.visit index)

/-- Draws the canvas in a place of that width and height. -/
def draw (w : Window) (width height : Int) : List Stroke :=
  w.view.draw width height (w.tone.color .window)

end Window

/-! ### Buttons and menus -/

/-- The answer to a question. -/
inductive Reply where
  | none
  | path (s : String)
  | number (value : Int) (accepted : Bool)
  | theme (choice : Option Mode) (accepted : Bool)

namespace Reply

/-- The answer to a file dialog. -/
def toPath : Reply → String
  | path s => s
  | _ => ""

end Reply

/-- What a button does. -/
def Button.gesture (b : Button) (reply : Reply) : Gesture :=
  match b with
  | openFile => .openFile reply.toPath
  | saveFile => .saveFile reply.toPath
  | loadSample => .loadSample reply.toPath
  | run => .run
  | clearLogs => .clearLogs
  | clearErrors => .clearErrors

/-- What an entry of a menu does. -/
def Entry.gesture (e : Entry) (reply : Reply) : Gesture :=
  match e, reply with
  | increaseFont, _ => .increaseFont
  | decreaseFont, _ => .decreaseFont
  | resetFont, _ => .resetFont
  | theme, .theme choice accepted => .chooseTheme choice accepted
  | theme, _ => .chooseTheme none false
  | run, _ => .run
  | stepBudget, .number value accepted => .chooseBudget value accepted
  | stepBudget, _ => .chooseBudget 0 false

end Brushwork.Editor
