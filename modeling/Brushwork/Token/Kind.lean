import Brushwork.Syntax.Op

/-!
The kinds of tokens, and the reserved words.

A statement begins with one of the words of `Command`, a query of the drawing state is one of the
words of `Builtin`; `Kind` gathers these with the literals, the operators and the punctuation.
-/

namespace Brushwork

/-- The words that begin a statement. -/
inductive Command where
  | spawn | color | size | drawLine | drawCircle | drawRectangle | fill | goTo
deriving DecidableEq

namespace Command

/-- How a command is written. -/
def word : Command → String
  | spawn => "Spawn"
  | color => "Color"
  | size => "Size"
  | drawLine => "DrawLine"
  | drawCircle => "DrawCircle"
  | drawRectangle => "DrawRectangle"
  | fill => "Fill"
  | goTo => "GoTo"

/-- All commands. -/
def all : List Command := [spawn, color, size, drawLine, drawCircle, drawRectangle, fill, goTo]

end Command

/-- The functions that an expression may call. -/
inductive Builtin where
  | getActualX | getActualY | getCanvasSize | getColorCount
  | isBrushColor | isBrushSize | isCanvasColor | isCanvasSize
deriving DecidableEq

namespace Builtin

/-- How a function is written. -/
def word : Builtin → String
  | getActualX => "GetActualX"
  | getActualY => "GetActualY"
  | getCanvasSize => "GetCanvasSize"
  | getColorCount => "GetColorCount"
  | isBrushColor => "IsBrushColor"
  | isBrushSize => "IsBrushSize"
  | isCanvasColor => "IsCanvasColor"
  | isCanvasSize => "IsCanvasSize"

/-- All functions. -/
def all : List Builtin :=
  [getActualX, getActualY, getCanvasSize, getColorCount,
    isBrushColor, isBrushSize, isCanvasColor, isCanvasSize]

/-- How many arguments a function takes. -/
def arity : Builtin → Nat
  | getActualX | getActualY | getCanvasSize => 0
  | isBrushColor | isBrushSize | isCanvasSize => 1
  | isCanvasColor => 3
  | getColorCount => 5

/-- The function of that name, if there is one. -/
def ofWord? (s : String) : Option Builtin := all.find? (·.word == s)

end Builtin

/-- The kinds of tokens. -/
inductive Kind where
  | command (c : Command)
  | builtin (b : Builtin)
  | truth (value : Bool)
  | number
  | string
  | ident
  | op (o : Op)
  | assign
  | equals
  | bang
  | openParen
  | closeParen
  | openBracket
  | closeBracket
  | comma
  | newline
  | eof
deriving DecidableEq

namespace Kind

/-- The name under which a token of this kind is listed. -/
def label : Kind → String
  | command .spawn => "SPAWN"
  | command .color => "COLOR"
  | command .size => "SIZE"
  | command .drawLine => "DRAW_LINE"
  | command .drawCircle => "DRAW_CIRCLE"
  | command .drawRectangle => "DRAW_RECTANGLE"
  | command .fill => "FILL"
  | command .goTo => "GOTO"
  | builtin .getActualX => "GET_ACTUAL_X"
  | builtin .getActualY => "GET_ACTUAL_Y"
  | builtin .getCanvasSize => "GET_CANVAS_SIZE"
  | builtin .getColorCount => "GET_COLOR_COUNT"
  | builtin .isBrushColor => "IS_BRUSH_COLOR"
  | builtin .isBrushSize => "IS_BRUSH_SIZE"
  | builtin .isCanvasColor => "IS_CANVAS_COLOR"
  | builtin .isCanvasSize => "IS_CANVAS_SIZE"
  | truth true => "TRUE"
  | truth false => "FALSE"
  | number => "NUMBER"
  | string => "STRING"
  | ident => "IDENT"
  | op .or => "OR"
  | op .and => "AND"
  | op .equal => "EQEQ"
  | op .notEqual => "NEQ"
  | op .greater => "GT"
  | op .less => "LT"
  | op .greaterEqual => "GTE"
  | op .lessEqual => "LTE"
  | op .add => "PLUS"
  | op .sub => "MINUS"
  | op .mul => "STAR"
  | op .div => "SLASH"
  | op .mod => "PERCENT"
  | op .pow => "POWER"
  | assign => "ASSIGN"
  | equals => "EQ"
  | bang => "BANG"
  | openParen => "LPAREN"
  | closeParen => "RPAREN"
  | openBracket => "LBRACKET"
  | closeBracket => "RBRACKET"
  | comma => "COMMA"
  | newline => "NEWLINE"
  | eof => "EOF"

/-- All kinds. -/
def all : List Kind :=
  Command.all.map command ++ Builtin.all.map builtin ++ [truth true, truth false] ++
    [number, string, ident] ++ Op.all.map op ++
    [assign, equals, bang, openParen, closeParen, openBracket, closeBracket, comma, newline, eof]

/-- The kind that is listed under that name, if there is one. -/
def ofLabel? (s : String) : Option Kind := all.find? (·.label == s)

/-- The reserved words with their kinds: commands, functions, truth values. -/
def reserved : List (String × Kind) :=
  Command.all.map (fun c => (c.word, command c)) ++
    Builtin.all.map (fun b => (b.word, builtin b)) ++
    [("true", truth true), ("false", truth false)]

/-- The kind of a word: its own if it is reserved, else an identifier. -/
def ofWord (w : String) : Kind := (reserved.lookup w).getD ident

/-- A token of such a kind can begin a statement. -/
def startsStatement : Kind → Bool
  | command _ | ident => true
  | _ => false

end Kind

end Brushwork
