import Brushwork.Editor.Window

/-!
The editor as an application: it opens one window, and in it the file that it was started with.
-/

namespace Brushwork.Editor.Application

/-- The name of the organization under which settings are kept. -/
def organization : String := "WallE"

/-- The name of the application. -/
def name : String := "WallE IDE"

/-- The width and the height of the window. -/
def extent : Nat × Nat := (1100, 750)

/-- Starts the application: its first argument is opened if it is a file. -/
def start (argv : List String) (box : SizeBox) (settings : Settings) (lightness : Int)
    (folder : File.Folder) : Except SettingError (Window × Option File.Error) := do
  let window ← Window.new box settings lightness folder
  match argv with
  | first :: _ =>
    let p := File.Path.ofString first
    return if folder.hasFile p then window.loadFile p else (window, none)
  | [] => return (window, none)

end Brushwork.Editor.Application
