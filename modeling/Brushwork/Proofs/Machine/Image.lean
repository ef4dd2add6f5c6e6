import Brushwork.Proofs.Machine.Stepping

/-!
Runs of a machine and of its image.

Two runs go side by side if one machine is at every step the image of the other:

* `Easel.Carries`: a map of easels that painting and moving commute with. Whatever is drawn with
  the first easel is then drawn with its image too, `Easel.Carries.drawLine` and its like.
* `Machine.Carries`: a map of machines that steps commute with. `Machine.Carries.run` says that runs
  commute with it, however long they are and however they end.
-/

namespace Brushwork

/-! ### Drawing -/

namespace Easel

/-- Painting at a place and moving the cursor commute with the map, on easels with the property, and
keep the property. -/
structure Carries (P : Easel → Prop) (φ : Easel → Easel) : Prop where
  kept : Kept P
  paint : ∀ e x y, P e → φ (e.paint x y) = (φ e).paint x y
  move : ∀ e x y, P e → φ { e with x := x, y := y } = { φ e with x := x, y := y }
  x_eq : ∀ e, (φ e).x = e.x
  y_eq : ∀ e, (φ e).y = e.y

variable {P : Easel → Prop} {φ : Easel → Easel} {e : Easel}

lemma Carries.walk (h : Carries P φ) (he : P e) (dx dy : Int) (n : Nat) :
    φ (walk dx dy n e) = walk dx dy n (φ e) := by
  induction n generalizing e with
  | zero => rfl
  | succ n ih =>
      have hmoved : P { e with x := e.x + dx, y := e.y + dy } := h.kept.move e _ _ he
      rw [Easel.walk, Easel.walk, ih (h.kept.paint _ _ _ hmoved), h.paint _ _ _ hmoved,
        h.move _ _ _ he, h.x_eq, h.y_eq]

lemma Carries.drawLine (h : Carries P φ) (he : P e) (dx dy : Int) (n : Nat) :
    φ (e.drawLine dx dy n) = (φ e).drawLine dx dy n := by
  rw [Easel.drawLine, Easel.drawLine, h.walk (h.kept.paint _ _ _ he), h.paint _ _ _ he, h.x_eq,
    h.y_eq]

lemma Carries.paintAround (h : Carries P φ) (he : P e) (cx cy : Int) (places : List (Int × Int)) :
    φ (e.paintAround cx cy places) = (φ e).paintAround cx cy places := by
  induction places generalizing e with
  | nil => rfl
  | cons place places ih =>
      rw [Easel.paintAround, Easel.paintAround, ih (h.kept.paint _ _ _ he), h.paint _ _ _ he]

lemma Carries.paintColumn (h : Carries P φ) (he : P e) (x y : Int) (n : Nat) :
    φ (e.paintColumn x y n) = (φ e).paintColumn x y n := by
  induction n generalizing y e with
  | zero => rfl
  | succ n ih =>
      rw [Easel.paintColumn, Easel.paintColumn, ih (h.kept.paint _ _ _ he), h.paint _ _ _ he]

lemma Carries.paintColumns (h : Carries P φ) (he : P e) (x y : Int) (height width : Nat) :
    φ (e.paintColumns x y height width) = (φ e).paintColumns x y height width := by
  induction width generalizing x e with
  | zero => rfl
  | succ width ih =>
      rw [Easel.paintColumns, Easel.paintColumns, ih (h.kept.paintColumn he _ _ _),
        h.paintColumn he]

end Easel

/-! ### Runs -/

namespace Machine

/-- The ending with another fault in place of the one that stopped the run, if one did. -/
def Ending.map (g : Fault → Fault) : Ending → Ending
  | .finished => .finished
  | .stopped fault => .stopped (g fault)
  | .unfinished => .unfinished

@[simp] lemma Ending.map_id (ending : Ending) : ending.map id = ending := by
  cases ending <;> rfl

/-- Steps commute with the map, on machines with the property, and keep the property. The faults of
the image are those of the machine under `g`. -/
structure Carries (limit : Option Int) (P : Machine → Prop) (φ : Machine → Machine)
    (g : Fault → Fault) : Prop where
  kept : ∀ m m', m.step limit = (m', none) → P m → P m'
  step : ∀ m, P m → (φ m).step limit = (φ (m.step limit).1, (m.step limit).2.map (Ending.map g))

variable {limit : Option Int} {P : Machine → Prop} {φ : Machine → Machine} {g : Fault → Fault}
  {m : Machine}

/-- **Runs commute with what steps commute with.** -/
theorem Carries.run (h : Carries limit P φ g) (hm : P m) (patience : Nat) :
    Machine.run limit patience (φ m) =
      (φ (Machine.run limit patience m).1, (Machine.run limit patience m).2.map g) := by
  induction patience generalizing m with
  | zero => rfl
  | succ patience ih =>
      rw [Machine.run, Machine.run, h.step m hm]
      cases hstep : m.step limit with
      | mk m' ending =>
          cases ending with
          | some ending => rfl
          | none => exact ih (h.kept m m' hstep hm)

end Machine

end Brushwork
