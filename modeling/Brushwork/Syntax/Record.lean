import Brushwork.Syntax.Stmt
import Brushwork.Text.Quoted

/-!
Statements written as records, the way the statement list shows them: the name of the form, the
place, then the parts under their names.
-/

namespace Brushwork

/-- A form with its named parts, the place first. -/
def record (form : String) (m : Mark) (parts : List (String × String)) : String :=
  let number : Option Int → String := fun n => (n.map toString).getD "None"
  let fields := ("line", number m.line) :: ("col", number m.col) :: parts
  form ++ "(" ++ ", ".intercalate (fields.map fun f => f.1 ++ "=" ++ f.2) ++ ")"

/-- A literal as a record shows it. -/
def Literal.record : Literal → String
  | .int n => toString n
  | .bool true => "True"
  | .bool false => "False"
  | .text s => Text.quoted s

/-- Arguments as a record shows them: a single one is followed by a comma. -/
def recordArgs : List String → String
  | [a] => "(" ++ a ++ ",)"
  | as => "(" ++ ", ".intercalate as ++ ")"

mutual

/-- An expression as a record. -/
def Expr.record : Expr → String
  | .lit m v => Brushwork.record "Literal" m [("value", v.record)]
  | .var m name => Brushwork.record "Variable" m [("name", Text.quoted name)]
  | .binary m l s r =>
    Brushwork.record "Binary" m [("left", l.record), ("op", Text.quoted s), ("right", r.record)]
  | .group m e => Brushwork.record "Grouping" m [("inner", e.record)]
  | .call m name args =>
    Brushwork.record "Call" m
      [("name", Text.quoted name), ("args", recordArgs (Expr.records args))]
  | .foreign m form => Brushwork.record form m []

/-- A row of expressions as records. -/
def Expr.records : List Expr → List String
  | [] => []
  | e :: es => e.record :: Expr.records es

end

/-- A statement as a record. -/
def Stmt.record (s : Stmt) : String :=
  match s.action with
  | .spawn x y => Brushwork.record "Spawn" s.mark [("x", x.record), ("y", y.record)]
  | .color name => Brushwork.record "Color" s.mark [("name", Text.quoted name)]
  | .size e => Brushwork.record "Size" s.mark [("size", e.record)]
  | .drawLine dx dy d =>
    Brushwork.record "DrawLine" s.mark
      [("dir_x", dx.record), ("dir_y", dy.record), ("distance", d.record)]
  | .drawCircle dx dy r =>
    Brushwork.record "DrawCircle" s.mark
      [("dir_x", dx.record), ("dir_y", dy.record), ("radius", r.record)]
  | .drawRectangle dx dy d w h =>
    Brushwork.record "DrawRectangle" s.mark
      [("dir_x", dx.record), ("dir_y", dy.record), ("distance", d.record),
        ("width", w.record), ("height", h.record)]
  | .fill => Brushwork.record "Fill" s.mark []
  | .assign name e => Brushwork.record "Assign" s.mark [("name", Text.quoted name), ("expr", e.record)]
  | .label name => Brushwork.record "Label" s.mark [("name", Text.quoted name)]
  | .goTo label e =>
    Brushwork.record "GoTo" s.mark [("label", Text.quoted label), ("cond", e.record)]
  | .foreign form => Brushwork.record form s.mark []

end Brushwork
