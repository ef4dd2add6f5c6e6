import Mathlib.Logic.Equiv.Basic
import Brushwork.Proofs.Machine.Faults
import Brushwork.Proofs.Machine.Image

/-!
Colors by another name.

The color names and the texts of a program are exchanged for others, different ones for different
ones; the first color and the empty name stay.

* `Machine.recolor`: a machine with its program, its colors and its brush under their new names.
* `Palette.code?_recolor`: a color keeps its code.
* `Easel.eval_recolor`, `Easel.plan_recolor` and `Effect.apply_recolor`: values, plans and effects
  stay what they are, up to the names in them.
* `execute_recolor`: a run goes through the same statements and ends in the same way, with the
  same picture under other names.
-/

namespace Brushwork

/-! ### New names -/

variable (f : String → String)

/-- A literal with its text under its new name. -/
def Literal.recolor : Literal → Literal
  | text s => text (f s)
  | v => v

namespace Expr

mutual

/-- An expression with all its texts under their new names. -/
def recolor : Expr → Expr
  | lit m v => lit m (v.recolor f)
  | var m name => var m name
  | binary m l symbol r => binary m (recolor l) symbol (recolor r)
  | group m e => group m (recolor e)
  | call m name args => call m name (recolorEach args)
  | foreign m form => foreign m form

/-- Each of a row of expressions with its texts under their new names. -/
def recolorEach : List Expr → List Expr
  | [] => []
  | e :: es => recolor e :: recolorEach es

end

lemma recolorEach_eq_map (es : List Expr) : recolorEach f es = es.map (recolor f) := by
  induction es with
  | nil => rfl
  | cons e es ih => rw [recolorEach, ih, List.map_cons]

end Expr

/-- An action with its color and its texts under their new names. -/
def Action.recolor : Action → Action
  | spawn x y => spawn (x.recolor f) (y.recolor f)
  | color name => color (f name)
  | size value => size (value.recolor f)
  | drawLine dx dy distance => drawLine (dx.recolor f) (dy.recolor f) (distance.recolor f)
  | drawCircle dx dy radius => drawCircle (dx.recolor f) (dy.recolor f) (radius.recolor f)
  | drawRectangle dx dy distance width height =>
    drawRectangle (dx.recolor f) (dy.recolor f) (distance.recolor f) (width.recolor f)
      (height.recolor f)
  | fill => fill
  | assign name value => assign name (value.recolor f)
  | label name => label name
  | goTo name condition => goTo name (condition.recolor f)
  | foreign form => foreign form

/-- A statement with its color and its texts under their new names. -/
def Stmt.recolor (s : Stmt) : Stmt := { s with action := s.action.recolor f }

/-- The colors in use under their new names, in the same order. -/
def Palette.recolor (p : Palette) : Palette := ⟨p.names.map f⟩

/-- An easel with its colors and the color of its brush under their new names. -/
def Easel.recolor (e : Easel) : Easel :=
  { e with
    palette := e.palette.recolor f
    brush := { e.brush with color := f e.brush.color } }

/-- A machine with its program and its easel under the new names. -/
def Machine.recolor (m : Machine) : Machine :=
  { m with statements := m.statements.map (Stmt.recolor f), easel := m.easel.recolor f }

/-- A fault with the text that it quotes under its new name. -/
def Fault.recolor : Fault → Fault
  | notANumber text => notANumber (f text)
  | fault => fault

/-- An effect with its color under its new name. -/
def Effect.recolor : Effect → Effect
  | pickColor name => pickColor (f name)
  | effect => effect

/-- What a statement leaves behind, with the color of the brush under its new name. -/
def Machine.Trace.recolor (t : Machine.Trace) : Machine.Trace :=
  { t with brushColor := f t.brushColor }

variable {f}

/-! ### Codes -/

section Codes

variable (hf : Function.Injective f)
include hf

/-- **A color keeps its code** under its new name. -/
theorem Palette.code?_recolor (p : Palette) (name : String) :
    (p.recolor f).code? (f name) = p.code? name := by
  have hsame : ((· == f name) ∘ f) = (· == name) := by
    funext other
    simp [hf.eq_iff]
  rw [Palette.code?, Palette.recolor, Array.findIdx?_map, hsame, Palette.code?]

lemma Palette.code_recolor (p : Palette) (name : String) :
    (p.recolor f).code (f name) = p.code name := by
  rw [Palette.code, Palette.code, Palette.code?_recolor hf]
  simp [Palette.recolor]

lemma Palette.intern_recolor (p : Palette) (name : String) :
    (p.recolor f).intern (f name) = (p.intern name).recolor f := by
  rw [Palette.intern, Palette.intern, Palette.code?_recolor hf]
  cases p.code? name with
  | some code => rfl
  | none => simp [Palette.recolor]

end Codes

/-! ### Values -/

lemma bit_congr {p q : Prop} [Decidable p] [Decidable q] (h : p ↔ q) : bit p = bit q := by
  simp [bit, h]

/-- An outcome with its fault under the new names, and its value changed by `h`. -/
def recolored {α β : Type} (f : String → String) (h : α → β) : Except Fault α → Except Fault β
  | .ok v => .ok (h v)
  | .error fault => .error (fault.recolor f)

/-- Outcomes that are used one after the other may be changed one by one. -/
lemma recolored_bind {α β γ : Type} {h : β → γ} {r : Except Fault α} {k : α → Except Fault β}
    {k' : α → Except Fault γ} (hk : ∀ v, k' v = recolored f h (k v)) :
    (recolored f id r >>= k') = recolored f h (r >>= k) := by
  cases r with
  | ok v => exact hk v
  | error fault => rfl

namespace Easel

section Values

variable (hf : Function.Injective f)
include hf

lemma colorCount_recolor (e : Easel) (color : String) (x₁ y₁ x₂ y₂ : Int) :
    (e.recolor f).colorCount (f color) x₁ y₁ x₂ y₂ = e.colorCount color x₁ y₁ x₂ y₂ := by
  have hcode := e.palette.code?_recolor hf color
  rw [colorCount, colorCount]
  simp only [Easel.recolor, hcode]

lemma hasColor_recolor (e : Easel) (color : String) (down right : Int) :
    (e.recolor f).hasColor (f color) down right = e.hasColor color down right := by
  have hcode := e.palette.code?_recolor hf color
  rw [hasColor, hasColor]
  simp only [Easel.recolor, hcode]

/-- A function gives the same value for a color under its new name. -/
lemma query_recolor (e : Easel) (b : Builtin) (color : String) (args : List (Except Fault Int)) :
    (e.recolor f).query b (f color) (args.map (recolored f id)) =
      recolored f id (e.query b color args) := by
  by_cases harity : args.length = b.arity
  · cases b with
    | getActualX | getActualY | getCanvasSize =>
        obtain rfl := List.length_eq_zero_iff.1 harity
        rfl
    | isBrushColor =>
        obtain ⟨a, rfl⟩ := List.length_eq_one_iff.1 harity
        exact congrArg Except.ok (bit_congr hf.eq_iff)
    | isBrushSize | isCanvasSize =>
        obtain ⟨a, rfl⟩ := List.length_eq_one_iff.1 harity
        exact recolored_bind fun _ => rfl
    | isCanvasColor =>
        match args, harity with
        | [_, _, _], _ =>
            refine recolored_bind fun down => recolored_bind fun right => ?_
            rw [hasColor_recolor hf]
            rfl
    | getColorCount =>
        match args, harity with
        | [_, _, _, _, _], _ =>
            refine recolored_bind fun x₁ => recolored_bind fun y₁ => recolored_bind fun x₂ =>
              recolored_bind fun y₂ => ?_
            rw [colorCount_recolor hf]
            rfl
  · rw [query_of_arity harity, query_of_arity (by simpa using harity)]
    rfl

omit hf in
/-- The color that the arguments of a function name is under its new name. -/
lemma named_recolor (hempty : f "" = "") (args : List Expr) :
    ((args.map (Expr.recolor f)).head?.bind Expr.textLiteral?).getD "" =
      f ((args.head?.bind Expr.textLiteral?).getD "") := by
  cases args with
  | nil => exact hempty.symm
  | cons e es =>
      cases e with
      | lit m v =>
          cases v with
          | text s => rfl
          | int | bool => exact hempty.symm
      | _ => exact hempty.symm

omit hf in
/-- The faults of operators quote no text. -/
lemma recolored_apply (op : Op) (a b : Int) : recolored f id (op.apply a b) = op.apply a b := by
  cases h : op.apply a b with
  | ok v => rfl
  | error fault =>
      obtain rfl | rfl | rfl := apply_error h
      all_goals rfl

/-- **Values** do not depend on the names of colors. -/
theorem eval_recolor (hempty : f "" = "") (easel : Easel) (e : Expr) :
    (easel.recolor f).eval (e.recolor f) = recolored f id (easel.eval e) := by
  induction e using Expr.ind with
  | lit m v => cases v <;> rfl
  | var m name =>
      rw [Expr.recolor, eval, eval, show (easel.recolor f).store = easel.store from rfl]
      cases easel.store.find? name <;> rfl
  | group m e ih => rw [Expr.recolor, eval, eval, ih]
  | binary m l symbol r ihl ihr =>
      rw [Expr.recolor, eval, eval, ihl, ihr]
      refine recolored_bind fun a => recolored_bind fun b => ?_
      cases Op.ofSymbol? symbol with
      | none => rfl
      | some op => exact (recolored_apply op a b).symm
  | call m name args ih =>
      have heach : (args.map (Expr.recolor f)).map (easel.recolor f).eval =
          (args.map easel.eval).map (recolored f id) := by
        rw [List.map_map, List.map_map]
        exact List.map_congr_left ih
      rw [Expr.recolor, eval, eval, Expr.recolorEach_eq_map]
      cases Builtin.ofWord? name with
      | none => rfl
      | some b =>
          dsimp only
          rw [evalEach_eq_map, evalEach_eq_map, heach, named_recolor hempty]
          exact query_recolor hf easel b _ _
  | foreign m form => rfl

/-! ### Statements -/

/-- **Plans** do not depend on the names of colors. -/
theorem plan_recolor (hempty : f "" = "") (easel : Easel) (labels : Table Nat) (a : Action) :
    (easel.recolor f).plan labels (a.recolor f) =
      recolored f (Effect.recolor f) (easel.plan labels a) := by
  have heval := eval_recolor hf hempty easel
  cases a with
  | spawn x y =>
      rw [Action.recolor, plan, plan, heval, heval]
      refine recolored_bind fun u => recolored_bind fun v => ?_
      rw [show (easel.recolor f).canvas = easel.canvas from rfl]
      cases easel.canvas.contains u v <;> rfl
  | color name => rfl
  | size e =>
      rw [Action.recolor, plan, plan, heval]
      refine recolored_bind fun size => ?_
      split <;> rfl
  | drawLine dx dy distance =>
      rw [Action.recolor, plan, plan, heval, heval, heval]
      exact recolored_bind fun _ => recolored_bind fun _ => recolored_bind fun _ => rfl
  | drawCircle dx dy radius =>
      rw [Action.recolor, plan, plan, heval, heval, heval]
      refine recolored_bind fun u => recolored_bind fun v => recolored_bind fun r => ?_
      cases circle? r <;> rfl
  | drawRectangle dx dy distance width height =>
      rw [Action.recolor, plan, plan, heval, heval, heval, heval, heval]
      exact recolored_bind fun _ => recolored_bind fun _ => recolored_bind fun _ =>
        recolored_bind fun _ => recolored_bind fun _ => rfl
  | fill =>
      have hsame : (easel.recolor f).plan labels .fill = easel.plan labels .fill := rfl
      rw [Action.recolor, hsame, plan]
      split <;> rfl
  | assign name e =>
      rw [Action.recolor, plan, plan, heval]
      exact recolored_bind fun _ => rfl
  | label name => rfl
  | goTo name condition =>
      rw [Action.recolor, plan, plan, heval]
      refine recolored_bind fun v => ?_
      split
      · rfl
      · cases labels.find? name <;> rfl
  | foreign form => rfl

end Values

/-- Painting and moving look at the code of the brush, not at its color. -/
lemma carries_recolor : Carries (fun _ => True) (Easel.recolor f) where
  kept := ⟨fun _ _ _ h => h, fun _ _ _ h => h⟩
  paint _ _ _ _ := rfl
  move _ _ _ _ := rfl
  x_eq _ := rfl
  y_eq _ := rfl

end Easel

/-- **Effects** do not depend on the names of colors. -/
theorem Effect.apply_recolor (hf : Function.Injective f) (effect : Effect) (easel : Easel) :
    (effect.recolor f).apply (easel.recolor f) = (effect.apply easel).recolor f := by
  have hcarries := Easel.carries_recolor (f := f)
  cases effect with
  | pickColor name =>
      have hcode := easel.palette.code_recolor hf name
      have hintern := easel.palette.intern_recolor hf name
      simp only [Effect.recolor, Effect.apply, Easel.pickColor, Easel.recolor, hcode, hintern]
  | line dx dy steps => exact (hcarries.drawLine trivial dx dy steps).symm
  | around cx cy places => exact (hcarries.paintAround trivial cx cy places).symm
  | block x y width height => exact (hcarries.paintColumns trivial x y height width).symm
  | nothing | jump | moveTo | pickSize | flood | assign => rfl

lemma Effect.next_recolor (effect : Effect) (pc : Nat) :
    (effect.recolor f).next pc = effect.next pc := by
  cases effect <;> rfl

/-! ### Runs -/

namespace Machine

variable {limit : Option Int}

lemma complete_recolor (hf : Function.Injective f) (m : Machine) (s : Stmt) (effect : Effect) :
    ((m.recolor f).begin (s.recolor f)).complete (effect.recolor f) =
      ((m.begin s).complete effect).recolor f := by
  have happly := effect.apply_recolor hf m.easel
  have hnext := effect.next_recolor (f := f) m.pc
  simp only [complete, begin, Machine.recolor, Stmt.recolor, happly, hnext]

/-- **A step** does the same under the new names. -/
theorem step_recolor (hf : Function.Injective f) (hempty : f "" = "") (m : Machine) :
    (m.recolor f).step limit =
      ((m.step limit).1.recolor f, (m.step limit).2.map (Ending.map (Fault.recolor f))) := by
  have hget : (m.recolor f).statements[(m.recolor f).pc]? =
      m.statements[m.pc]?.map (Stmt.recolor f) := Array.getElem?_map
  have hsteps : (m.recolor f).steps = m.steps := rfl
  have hplan : ∀ s : Stmt, (m.recolor f).easel.plan (m.recolor f).labels (s.recolor f).action =
      recolored f (Effect.recolor f) (m.easel.plan m.labels s.action) :=
    fun s => Easel.plan_recolor hf hempty m.easel m.labels s.action
  obtain ⟨hs, hstep⟩ | ⟨s, hs, ⟨n, hn, hstep⟩ | ⟨fault, hn, hfault, hstep⟩ |
    ⟨effect, hn, heffect, hstep⟩⟩ := step_cases limit m
  · rw [step, hget, hs, hstep]
    rfl
  · rw [step, hget, hs, hstep]
    simp only [Option.map_some, hsteps, hn]
    rfl
  · rw [step, hget, hs, hstep]
    simp only [Option.map_some, hsteps, hn, hplan, hfault]
    rfl
  · rw [step, hget, hs, hstep]
    simp only [Option.map_some, hsteps, hn, hplan, heffect, recolored, complete_recolor hf]
    rfl

lemma carries_recolor (hf : Function.Injective f) (hempty : f "" = "") :
    Carries limit (fun _ => True) (Machine.recolor f) (Fault.recolor f) :=
  ⟨fun _ _ _ h => h, fun m _ => step_recolor hf hempty m⟩

/-- **A run that is noted down** statement by statement is the same under the new names. -/
theorem runTraced_recolor (hf : Function.Injective f) (hempty : f "" = "")
    (patience entries : Nat) (m : Machine) :
    runTraced limit patience entries (m.recolor f) =
      ((runTraced limit patience entries m).1.recolor f,
        (runTraced limit patience entries m).2.1.map (Fault.recolor f),
        (runTraced limit patience entries m).2.2.map (Trace.recolor f)) := by
  induction patience generalizing entries m with
  | zero => rfl
  | succ patience ih =>
      cases entries with
      | zero =>
          have hcarries : Carries limit (fun _ => True) (Machine.recolor f) (Fault.recolor f) :=
            carries_recolor hf hempty
          rw [runTraced, runTraced, hcarries.run (m := m) trivial (patience + 1)]
          rfl
      | succ entries =>
          rw [runTraced, runTraced, step_recolor hf hempty]
          cases hstep : m.step limit with
          | mk m' ending =>
              cases ending with
              | some ending => rfl
              | none =>
                  dsimp only [Option.map_none]
                  rw [ih entries m']
                  rfl

end Machine

/-! ### Set up under the new names -/

lemma Program.labelsFrom_recolor (index : Nat) (labels : Table Nat) (ss : List Stmt) :
    labelsFrom index labels (ss.map (Stmt.recolor f)) = labelsFrom index labels ss := by
  induction ss generalizing index labels with
  | nil => rfl
  | cons s ss ih =>
      have hlabel : (s.recolor f).action.label? = s.action.label? := by
        rw [Stmt.recolor]
        cases s.action <;> rfl
      rw [List.map_cons, labelsFrom, labelsFrom, hlabel]
      cases s.action.label? <;> exact ih _ _

lemma Program.labelTable_recolor (statements : Array Stmt) :
    labelTable (statements.map (Stmt.recolor f)) = labelTable statements := by
  rw [labelTable, Array.toList_map, labelsFrom_recolor, labelTable]

lemma Program.startsWithSpawn_recolor (statements : Array Stmt) :
    startsWithSpawn (statements.map (Stmt.recolor f)) = startsWithSpawn statements := by
  rw [startsWithSpawn, Array.getElem?_map, startsWithSpawn]
  cases statements[0]? with
  | none => rfl
  | some s =>
      show (s.action.recolor f).isSpawn = s.action.isSpawn
      cases s.action <;> rfl

lemma Easel.new_recolor (hf : Function.Injective f) (hfirst : f firstColor = firstColor)
    (size : Nat) : (new size).recolor f = new size := by
  have hempty : Palette.empty.recolor f = Palette.empty := by
    simp [Palette.recolor, Palette.empty]
  have hpalette : (Palette.empty.intern firstColor).recolor f =
      Palette.empty.intern firstColor := by
    rw [← Palette.intern_recolor hf, hfirst, hempty]
  simp only [Easel.recolor, new, hpalette, hfirst]

/-- A machine is set up under the new names as under the old ones. -/
lemma Machine.new_recolor (hf : Function.Injective f)
    (hfirst : f Easel.firstColor = Easel.firstColor) {statements : Array Stmt} {size : Int}
    {m : Machine} (h : Machine.new statements size = .ok m) :
    Machine.new (statements.map (Stmt.recolor f)) size = .ok (m.recolor f) := by
  rw [Machine.new] at h ⊢
  rw [Program.startsWithSpawn_recolor]
  split at h
  · cases h
  · next hspawn =>
    split at h
    · cases h
    · next hsize =>
      obtain rfl := Except.ok.inj h
      rw [if_neg hspawn, if_neg hsize, Program.labelTable_recolor, Machine.recolor]
      simp only [Easel.new_recolor hf hfirst]

/-- **Colors matter only by which of them are the same.** Let the color names and the texts of a
program be exchanged, different ones for different ones, the first color and the empty name staying
what they are. The program can be set up as before. Every run goes through the same statements and
stops at the same place after as many steps, with the same codes on the canvas, the same cursor,
brush size and variables. The colors in use and the color of the brush are the same under their new
names, and so is the text that a fault quotes. -/
theorem execute_recolor {f : String → String} (hf : Function.Injective f)
    (hfirst : f Easel.firstColor = Easel.firstColor) (hempty : f "" = "") {statements : Array Stmt}
    {size : Int} {m : Machine} (h : Machine.new statements size = .ok m) :
    Machine.new (statements.map (Stmt.recolor f)) size = .ok (m.recolor f) ∧
      ∀ limit patience,
        (m.recolor f).execute limit patience =
          ((m.execute limit patience).1.recolor f,
            (m.execute limit patience).2.map (Fault.recolor f)) ∧
        ∀ entries, (m.recolor f).executeTraced limit patience entries =
          ((m.executeTraced limit patience entries).1.recolor f,
            (m.executeTraced limit patience entries).2.1.map (Fault.recolor f),
            (m.executeTraced limit patience entries).2.2.map (Machine.Trace.recolor f)) := by
  refine ⟨Machine.new_recolor hf hfirst h, fun limit patience => ⟨?_, fun entries => ?_⟩⟩
  · exact (Machine.carries_recolor hf hempty).run (m := m.rewind) trivial _
  · exact Machine.runTraced_recolor hf hempty _ entries m.rewind

/-- A program that paints, asks for two colors, and takes the name of one for a number. -/
def blushing : Array Stmt :=
  let mark : Mark := ⟨none, none⟩
  let int (n : Int) : Expr := .lit mark (.int n)
  let red : Expr := .lit mark (.text "Red")
  let blue : Expr := .lit mark (.text "Blue")
  #[⟨mark, .spawn (int 0) (int 0)⟩, ⟨mark, .color "Red"⟩,
    ⟨mark, .drawLine (int 1) (int 0) (.call mark "IsBrushColor" [red])⟩,
    ⟨mark, .goTo "end" (.call mark "IsBrushColor" [blue])⟩,
    ⟨mark, .assign "n" (.call mark "GetColorCount" [red, int 0, int 0, int 2, int 0])⟩,
    ⟨mark, .label "end"⟩, ⟨mark, .assign "n" red⟩]

theorem execute_recolor_blushing :
    let f := Equiv.swap "Red" "Blue"
    Function.Injective f ∧ f Easel.firstColor = Easel.firstColor ∧ f "" = "" ∧
      ∃ m, Machine.new blushing 3 = .ok m ∧
        (m.execute (some 9) 0).2 = .stopped (.notANumber "Red") ∧
        Machine.new (blushing.map (Stmt.recolor f)) 3 = .ok (m.recolor f) ∧
        ∀ limit patience,
          (m.recolor f).execute limit patience =
            ((m.execute limit patience).1.recolor f,
              (m.execute limit patience).2.map (Fault.recolor f)) ∧
          ∀ entries, (m.recolor f).executeTraced limit patience entries =
            ((m.executeTraced limit patience entries).1.recolor f,
              (m.executeTraced limit patience entries).2.1.map (Fault.recolor f),
              (m.executeTraced limit patience entries).2.2.map (Machine.Trace.recolor f)) := by
  intro f
  have hf : Function.Injective f := f.injective
  have hfirst : f Easel.firstColor = Easel.firstColor := by decide
  have hempty : f "" = "" := by decide
  obtain ⟨m, hm, hend⟩ : ∃ m, Machine.new blushing 3 = .ok m ∧
      (m.execute (some 9) 0).2 = .stopped (.notANumber "Red") := ⟨_, rfl, by decide +kernel⟩
  exact ⟨hf, hfirst, hempty, m, hm, hend, execute_recolor hf hfirst hempty hm⟩

end Brushwork
