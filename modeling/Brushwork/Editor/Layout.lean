import Brushwork.Editor.Theme

/-!
What the window of the editor is made of, and what its buttons and menus are for.
-/

namespace Brushwork.Editor

/-- The buttons of the window. -/
inductive Button where
  | openFile | saveFile | loadSample | run | clearLogs | clearErrors
deriving DecidableEq

namespace Button

/-- All buttons. -/
def all : List Button := [openFile, saveFile, loadSample, run, clearLogs, clearErrors]

/-- What stands on a button. -/
def label : Button → String
  | openFile => "Open…"
  | saveFile => "Save As…"
  | loadSample => "Load Sample…"
  | run => "Run"
  | clearLogs => "Clear Logs"
  | clearErrors => "Clear Errors"

/-- The button with that label. -/
def ofLabel? (s : String) : Option Button := all.find? (·.label == s)

end Button

/-- The entries of the menus. -/
inductive Entry where
  | increaseFont | decreaseFont | resetFont | theme | run | stepBudget
deriving DecidableEq

namespace Entry

/-- All entries. -/
def all : List Entry := [increaseFont, decreaseFont, resetFont, theme, run, stepBudget]

/-- What stands in the menu. -/
def label : Entry → String
  | increaseFont => "Increase Editor Font"
  | decreaseFont => "Decrease Editor Font"
  | resetFont => "Reset Editor Font"
  | theme => "Theme…"
  | run => "Run Program"
  | stepBudget => "Step Budget…"

/-- The key that does the same. -/
def key? : Entry → Option String
  | run => some "F5"
  | _ => none

/-- The menu that an entry stands in. -/
def menu : Entry → String
  | run | stepBudget => "Run"
  | _ => "View"

/-- The entry with that label in a menu. -/
def find? (menu label : String) : Option Entry :=
  all.find? fun e => e.menu == menu && e.label == label

/-- The entry with that key. -/
def ofKey? (key : String) : Option Entry := all.find? (·.key? == some key)

end Entry

/-- The menus with their entries; nothing stands for a line between two of them. -/
def menus : List (String × List (Option Entry)) :=
  [("View", [some .increaseFont, some .decreaseFont, some .resetFont, none, some .theme]),
    ("Run", [some .run, some .stepBudget])]

/-- The pages below the program text. -/
inductive Tab where
  | logs | errors | diagnostics
deriving DecidableEq

namespace Tab

/-- All pages. -/
def all : List Tab := [logs, errors, diagnostics]

/-- What stands on a page's tab. -/
def title : Tab → String
  | logs => "Logs"
  | errors => "Errors"
  | diagnostics => "Diagnostics"

end Tab

/-- Where things lie in a row, or one below the other. -/
inductive Direction where
  | horizontal | vertical
deriving DecidableEq

/-- How tight things lie. -/
structure Spacing where
  margins : Nat
  gap : Nat
deriving DecidableEq

/-- The parts that windows are made of. -/
inductive Widget where
  | window (title : String) (content : Widget)
  | panel (content : Widget)
  | stack (direction : Direction) (spacing : Option Spacing) (parts : List Widget)
  | splitter (direction : Direction) (sizes : List Nat) (parts : List Widget)
  | button (b : Button)
  /-- A button of fixed height that explains itself. -/
  | smallButton (b : Button) (height : Nat)
  | sizeBox (label : String) (least greatest : Nat)
  | stretch (factor : Nat)
  | textEditor (font placeholder : String)
  | textPage (placeholder : String)
  | canvas (width height : Nat)
  | tabs (titles : List String) (pages : List Widget)
  | list
  | dialog (title : String) (width : Nat) (content : Widget)
  | group (title : String) (content : Widget)
  | choice (label : String)
  /-- The buttons that accept and reject. -/
  | acceptOrReject

/-- The least size of a canvas. -/
def minSize : Nat := 1

/-- The greatest size of a canvas. -/
def maxSize : Nat := 256

/-- No space around things, and little between them. -/
def tight : Spacing := ⟨0, 4⟩

/-- The row of buttons at the top. -/
def toolRow : Widget :=
  .stack .horizontal none
    [.button .openFile, .button .saveFile, .button .loadSample, .button .run,
      .sizeBox "Canvas: " minSize maxSize, .stretch 1]

/-- The pages at the bottom, with the buttons that clear them. -/
def outputPanel : Widget :=
  .panel (.stack .vertical (some tight)
    [.stack .horizontal (some tight)
      [.smallButton .clearLogs 22, .smallButton .clearErrors 22, .stretch 1],
      .tabs (Tab.all.map Tab.title) [.textPage "Logs…", .textPage "Errors…", .list]])

/-- The window. -/
def mainWindow : Widget :=
  .window "Wall-E IDE (PySide6)" (.panel (.stack .vertical none
    [toolRow,
      .splitter .vertical [3, 1]
        [.splitter .horizontal [1, 1]
          [.textEditor "Consolas" "Write Wall-E code here…", .canvas 240 240],
          outputPanel]]))

/-- The dialog in which the mode is chosen. -/
def themeDialog : Widget :=
  .dialog "Theme Settings" 300 (.stack .vertical none
    [.group "Theme Mode" (.stack .vertical none (Mode.all.map fun m => .choice m.title)),
      .acceptOrReject])

end Brushwork.Editor
