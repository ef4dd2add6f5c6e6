import Brushwork.Machine.Eval
import Brushwork.Syntax.Stmt

/-!
The effects of statements.

A statement is carried out in two parts: `plan` computes all values and finds every fault, and
`Effect.apply` then changes the easel, which cannot fail. So a statement has its whole effect or
none.
-/

namespace Brushwork

/-- What a statement does once all its values are known. -/
inductive Effect where
  | nothing
  | moveTo (x y : Int)
  | pickColor (name : String)
  | pickSize (size : Int)
  | line (dx dy : Int) (steps : Nat)
  | around (cx cy : Int) (places : List (Int × Int))
  | block (x y : Int) (width height : Nat)
  | flood
  | assign (name : String) (value : Int)
  | jump (target : Nat)

/-- At how many places a circle is painted. -/
def circlePlaces : Nat := 360

/-- The length of one degree on the unit circle. -/
def degree : Float := 0.017453292519943295

/-- The places of a circle, from its middle: for each degree, the two parts of the radius, without
their fractions. There are none if the radius is too large. -/
def circle? (radius : Int) : Option (List (Int × Int)) :=
  (Binary64.ofInt? radius).map fun r =>
    (List.range circlePlaces).map fun angle =>
      let a := Float.ofNat angle * degree
      (Binary64.truncate (r * Float.cos a), Binary64.truncate (r * Float.sin a))

namespace Easel

/-- What an action will do, or what stops it. -/
def plan (easel : Easel) (labels : Table Nat) : Action → Except Fault Effect
  | .spawn x y => do
    let x ← easel.eval x
    let y ← easel.eval y
    if easel.canvas.contains x y then return .moveTo x y else throw (.spawnOutside x y)
  | .color name => return .pickColor name
  | .size e => do
    let size ← easel.eval e
    if size ≤ 0 then throw .sizeNotPositive else return .pickSize size
  | .drawLine dx dy distance => do
    let dx ← easel.eval dx
    let dy ← easel.eval dy
    let steps ← easel.eval distance
    return .line dx dy steps.toNat
  | .drawCircle dx dy radius => do
    let dx ← easel.eval dx
    let dy ← easel.eval dy
    let radius ← easel.eval radius
    match circle? radius with
    | some places => return .around (easel.x + dx * radius) (easel.y + dy * radius) places
    | none => throw .radiusTooLarge
  | .drawRectangle dx dy distance width height => do
    let dx ← easel.eval dx
    let dy ← easel.eval dy
    let distance ← easel.eval distance
    let width ← easel.eval width
    let height ← easel.eval height
    return .block (easel.x + dx * distance) (easel.y + dy * distance) width.toNat height.toNat
  | .fill =>
    if easel.canvas.contains easel.x easel.y then return .flood
    else throw (.cursorOutside easel.x easel.y)
  | .assign name e => do return .assign name (← easel.eval e)
  | .label _ => return .nothing
  | .goTo label condition => do
    let value ← easel.eval condition
    if value = 0 then return .nothing
    else
      match labels.find? label with
      | some target => return .jump target
      | none => throw (.undefinedLabel label)
  | .foreign form => throw (.unknownStatement form)

end Easel

namespace Effect

/-- Carries out an effect. -/
def apply (effect : Effect) (easel : Easel) : Easel :=
  match effect with
  | nothing | jump _ => easel
  | moveTo x y => { easel with x := x, y := y }
  | pickColor name => easel.pickColor name
  | pickSize size => easel.pickSize size
  | line dx dy steps => easel.drawLine dx dy steps
  | around cx cy places => easel.paintAround cx cy places
  | block x y width height => easel.paintColumns x y height width
  | flood => easel.fill
  | assign name value => easel.assign name value

/-- The statement that comes after the one at `pc`. -/
def next (effect : Effect) (pc : Nat) : Nat :=
  match effect with
  | jump target => target
  | _ => pc + 1

end Effect

end Brushwork
