import Brushwork.Editor.Highlight
import Brushwork.Editor.Setting

/-!
Light and dark colors.

The user chooses a mode; the system's mode follows the lightness of the window color that the
application has at that time.
-/

namespace Brushwork.Editor

/-- What the user can choose. -/
inductive Mode where
  | light | dark | system
deriving DecidableEq

namespace Mode

/-- The modes in the order in which they are offered. -/
def all : List Mode := [light, dark, system]

/-- The name under which a mode is kept. -/
def label : Mode → String
  | light => "light"
  | dark => "dark"
  | system => "system"

/-- How a mode is offered. -/
def title : Mode → String
  | light => "Light"
  | dark => "Dark"
  | system => "System"

/-- The mode that is kept under a name. -/
def ofLabel? (s : String) : Option Mode := all.find? (·.label == s)

/-- The mode that is offered under a title. -/
def ofTitle? (s : String) : Option Mode := all.find? (·.title == s)

/-- The name of the setting that keeps the mode. -/
def settingName : String := "theme_mode"

/-- The mode of the settings; it is the system's if nothing sensible is set. -/
def ofSettings (s : Settings) : Mode :=
  match s.find? settingName with
  | some (.text label) => (ofLabel? label).getD system
  | _ => system

/-- The settings with a mode kept in them. -/
def save (m : Mode) (s : Settings) : Settings := s.put settingName (.text m.label)

end Mode

/-- The two sorts of colors. -/
inductive Tone where
  | light | dark
deriving DecidableEq

/-- The parts of a window that have a color. -/
inductive WindowPart where
  | window | windowText | base | text | button | buttonText | highlight
deriving DecidableEq

namespace WindowPart

/-- All parts. -/
def all : List WindowPart := [window, windowText, base, text, button, buttonText, highlight]

/-- The name of a part. -/
def label : WindowPart → String
  | window => "Window"
  | windowText => "WindowText"
  | base => "Base"
  | text => "Text"
  | button => "Button"
  | buttonText => "ButtonText"
  | highlight => "Highlight"

end WindowPart

/-- The colors of the canvas: its ground, and the lines between the cells. -/
structure CanvasColors where
  background : String
  grid : String
deriving DecidableEq

namespace Tone

/-- The tone as a mode. -/
def mode : Tone → Mode
  | light => .light
  | dark => .dark

/-- The tone of a window color of that lightness, from 0 to 255. -/
def ofLightness (n : Int) : Tone := if n < 128 then dark else light

/-- The color of a part of the window. -/
def color : Tone → WindowPart → String
  | light, .window => "#ffffff"
  | light, .windowText => "#000000"
  | light, .base => "#ffffff"
  | light, .text => "#000000"
  | light, .button => "#f0f0f0"
  | light, .buttonText => "#000000"
  | light, .highlight => "#0078d4"
  | dark, .window => "#1e1e1e"
  | dark, .windowText => "#e0e0e0"
  | dark, .base => "#252526"
  | dark, .text => "#e0e0e0"
  | dark, .button => "#3e3e42"
  | dark, .buttonText => "#e0e0e0"
  | dark, .highlight => "#005a9e"

/-- The lightness of the window color. -/
def lightness : Tone → Int
  | light => 255
  | dark => 30

/-- The colors of program texts. -/
def syntaxColors : Tone → SyntaxColors
  | light => .light
  | dark => .dark

/-- The colors of the canvas. -/
def canvasColors : Tone → CanvasColors
  | light => ⟨"#fafafa", "#e0e0e0"⟩
  | dark => ⟨"#2d2d30", "#3e3e42"⟩

end Tone

namespace Mode

/-- The tone of a mode, in an application whose window color has that lightness. Without an
application the system's tone is light. -/
def tone (m : Mode) (lightness : Option Int) : Tone :=
  match m with
  | light => .light
  | dark => .dark
  | system => (lightness.map Tone.ofLightness).getD .light

end Mode

end Brushwork.Editor
