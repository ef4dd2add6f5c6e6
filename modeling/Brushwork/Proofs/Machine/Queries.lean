import Mathlib.Algebra.BigOperators.Group.Finset.Piecewise
import Mathlib.Algebra.BigOperators.Group.Finset.Sigma
import Mathlib.Data.Int.ConditionallyCompleteOrder
import Mathlib.Data.Int.Interval
import Mathlib.Order.ConditionallyCompleteLattice.Basic
import Brushwork.Proofs.Machine.Session

/-!
Questions about colors are answered by what is seen.

* `Canvas.Fits.countCode_eq_card`: the cells of a box that have a code are counted, each once.
* `Machine.Past`: the actions that a machine has carried out since it was set up.
  `Machine.Past.execute` goes through a run.
* `Machine.Past.lists`: the colors in use are the first color and those that were taken up.
* `Easel.colorAt?_eq_some_iff`: cells have the same color if and only if they have the same code.
* `color_queries_exact`: the functions that ask for colors, for all their arguments.
-/

namespace Brushwork

/-! ### Counting -/

namespace Canvas

lemma sum_take {α : Type} (l : List α) (f : α → Nat) (k : Nat) :
    ((l.take k).map f).sum = ∑ i ∈ Finset.range k, (l[i]?.map f).getD 0 := by
  induction k with
  | zero => rfl
  | succ k ih =>
      rw [List.take_add_one, List.map_append, List.sum_append, ih, Finset.sum_range_succ]
      cases l[k]? <;> rfl

/-- A part of a list is summed up place by place. -/
lemma sum_slice {α : Type} (l : List α) (f : α → Nat) {a : Int} (ha : 0 ≤ a) (b : Int) :
    (((l.take (b + 1).toNat).drop a.toNat).map f).sum =
      ∑ i ∈ Finset.Icc a b, (l[i.toNat]?.map f).getD 0 := by
  have hlength : (b + 1).toNat - a.toNat = (b + 1 - a).toNat := by omega
  rw [List.drop_take, sum_take, Int.Icc_eq_finset_map, Finset.sum_map, hlength]
  refine Finset.sum_congr rfl fun i _ => ?_
  have hplace : (a + (i : Int)).toNat = a.toNat + i := by omega
  rw [List.getElem?_drop, ← hplace]
  rfl

lemma count_eq_sum (l : List Nat) (code : Nat) :
    l.count code = (l.map fun other => if other = code then 1 else 0).sum := by
  induction l with
  | nil => rfl
  | cons other l ih =>
      rw [List.count_cons, List.map_cons, List.sum_cons, ih, Nat.add_comm]
      simp

variable {n k : Nat} {c : Canvas} {x₀ y₀ x₁ y₁ : Int}

/-- **The cells of a box that have a code**, with all of the box on the canvas, are counted. -/
theorem Fits.countCode_eq_card (h : c.Fits n k) (hfirst : c.contains x₀ y₀ = true)
    (hlast : c.contains x₁ y₁ = true) (code : Nat) :
    c.countCode x₀ y₀ x₁ y₁ code =
      ((Finset.Icc x₀ x₁ ×ˢ Finset.Icc y₀ y₁).filter fun p => c.cell p.1 p.2 = code).card := by
  rw [contains, h.size_eq, decide_eq_true_iff] at hfirst hlast
  rw [countCode, ← List.foldl_map, ← List.sum_eq_foldl, sum_slice _ _ hfirst.2.2.1,
    Finset.card_filter, Finset.sum_product_right]
  refine Finset.sum_congr rfl fun y hy => ?_
  obtain ⟨hy₀, hy₁⟩ := Finset.mem_Icc.1 hy
  have hlt : y.toNat < c.rows.size := by rw [h.rows_size]; omega
  have hrow := Array.getElem?_eq_getElem hlt
  have hsize := (h.rows_fit _ (Array.getElem_mem hlt)).1
  rw [Array.getElem?_toList, hrow, Option.map_some, Option.getD_some, count_eq_sum,
    sum_slice _ _ hfirst.1]
  refine Finset.sum_congr rfl fun x hx => ?_
  obtain ⟨hx₀, hx₁⟩ := Finset.mem_Icc.1 hx
  have hget := Array.getElem?_eq_getElem (show x.toNat < c.rows[y.toNat].size by rw [hsize]; omega)
  have hcell : c.cell x y = c.rows[y.toNat][x.toNat] := by
    rw [cell, if_pos ⟨by omega, by omega⟩, hrow, Option.bind_some, hget, Option.getD_some]
  rw [Array.getElem?_toList, hget, Option.map_some, Option.getD_some, hcell]

end Canvas

/-! ### Colors and codes -/

namespace Easel

variable {n k : Nat} {e : Easel} {ns : List String} {color : String} {x₁ y₁ x₂ y₂ : Int}

/-- **A cell has a color** if it has the code of the color. -/
theorem colorAt?_eq_some_iff (h : e.palette.Lists ns) {x y : Int} :
    e.colorAt? x y = some color ↔ e.palette.code? color = some (e.canvas.cell x y) := by
  rw [colorAt?, h.name?_eq_some_iff]
  constructor
  · rintro ⟨c, hc, hcode⟩
    rwa [Int.natCast_inj.1 hc]
  · exact fun hcode => ⟨_, rfl, hcode⟩

/-- All four corners of a box are on the canvas if the first and the last one are. -/
lemma corners_iff (e : Easel) (x₁ y₁ x₂ y₂ : Int) :
    (e.canvas.contains (min x₁ x₂) (min y₁ y₂) && e.canvas.contains (max x₁ x₂) (max y₁ y₂)) = true ↔
      ∀ x ∈ [x₁, x₂], ∀ y ∈ [y₁, y₂], e.canvas.contains x y = true := by
  simp only [Bool.and_eq_true, Canvas.contains, decide_eq_true_iff, List.forall_mem_cons,
    List.not_mem_nil, false_implies, implies_true, and_true]
  omega

/-- The cells of a box with two opposite corners given. -/
lemma colorCount_eq_card (hfits : e.canvas.Fits n k) (h : e.palette.Lists ns)
    (hcorners : ∀ x ∈ [x₁, x₂], ∀ y ∈ [y₁, y₂], e.canvas.contains x y = true) :
    e.colorCount color x₁ y₁ x₂ y₂ =
      ((Finset.Icc (min x₁ x₂) (max x₁ x₂) ×ˢ Finset.Icc (min y₁ y₂) (max y₁ y₂)).filter fun p =>
        e.colorAt? p.1 p.2 = some color).card := by
  have hbox := (e.corners_iff x₁ y₁ x₂ y₂).2 hcorners
  obtain ⟨hfirst, hlast⟩ := (Bool.and_eq_true _ _).mp hbox
  rw [colorCount, if_pos hbox]
  cases hcode : e.palette.code? color with
  | none => simp [colorAt?_eq_some_iff h, hcode]
  | some code => simp [colorAt?_eq_some_iff h, hcode, hfits.countCode_eq_card hfirst hlast, eq_comm]

lemma colorCount_outside
    (h : ¬∀ x ∈ [x₁, x₂], ∀ y ∈ [y₁, y₂], e.canvas.contains x y = true) :
    e.colorCount color x₁ y₁ x₂ y₂ = 0 := by
  rw [colorCount, if_neg (mt (e.corners_iff x₁ y₁ x₂ y₂).1 h)]

/-- A box has the same cells whichever two of its corners are given. -/
lemma colorCount_swap (e : Easel) (color : String) (x₁ y₁ x₂ y₂ : Int) :
    e.colorCount color x₂ y₁ x₁ y₂ = e.colorCount color x₁ y₁ x₂ y₂ ∧
      e.colorCount color x₁ y₂ x₂ y₁ = e.colorCount color x₁ y₁ x₂ y₂ := by
  constructor
  · rw [colorCount, min_comm x₂, max_comm x₂, colorCount]
  · rw [colorCount, min_comm y₂, max_comm y₂, colorCount]

lemma hasColor_iff (h : e.palette.Lists ns) {down right : Int} :
    e.hasColor color down right = true ↔
      e.canvas.contains (e.x + right) (e.y + down) = true ∧
        e.colorAt? (e.x + right) (e.y + down) = some color := by
  rw [hasColor, colorAt?_eq_some_iff h]
  cases e.palette.code? color with
  | none => simp
  | some code =>
      rw [Bool.and_eq_true, beq_iff_eq, Option.some.injEq, eq_comm (b := code)]

lemma colorCount_unknown (h : e.palette.code? color = none) :
    e.colorCount color x₁ y₁ x₂ y₂ = 0 := by
  rw [colorCount, h]
  split <;> rfl

end Easel

/-! ### Calls -/

/-- Asks how many cells of a box have a color. -/
def Expr.colorCount (mark mark' : Mark) (color : String) (x₁ y₁ x₂ y₂ : Expr) : Expr :=
  .call mark "GetColorCount" [.lit mark' (.text color), x₁, y₁, x₂, y₂]

/-- Asks whether the cell at that distance from the cursor has a color. -/
def Expr.hasColor (mark mark' : Mark) (color : String) (down right : Expr) : Expr :=
  .call mark "IsCanvasColor" [.lit mark' (.text color), down, right]

namespace Easel

variable {e : Easel} (mark mark' : Mark) (color : String)

lemma eval_colorCount {a b c d : Expr} {x₁ y₁ x₂ y₂ : Int} (ha : e.eval a = .ok x₁)
    (hb : e.eval b = .ok y₁) (hc : e.eval c = .ok x₂) (hd : e.eval d = .ok y₂) :
    e.eval (.colorCount mark mark' color a b c d) = .ok (e.colorCount color x₁ y₁ x₂ y₂) := by
  have hword : Builtin.ofWord? "GetColorCount" = some .getColorCount := rfl
  rw [Expr.colorCount, eval, hword]
  simp only [evalEach, ha, hb, hc, hd]
  rfl

lemma eval_hasColor {a b : Expr} {down right : Int} (ha : e.eval a = .ok down)
    (hb : e.eval b = .ok right) :
    e.eval (.hasColor mark mark' color a b) = .ok (bit (e.hasColor color down right)) := by
  have hword : Builtin.ofWord? "IsCanvasColor" = some .isCanvasColor := rfl
  rw [Expr.hasColor, eval, hword]
  simp only [evalEach, ha, hb]
  rfl

end Easel

/-! ### What has been carried out -/

/-- The colors that an action takes up. -/
def Action.colors : Action → List String
  | .color name => [name]
  | _ => []

lemma Action.mem_colors {a : Action} {name : String} : name ∈ a.colors ↔ a = .color name := by
  cases a <;> simp [Action.colors, eq_comm]

/-- **Only taking up a color** changes the colors in use. -/
theorem Easel.palette_apply {e : Easel} {labels : Table Nat} {a : Action} {effect : Effect}
    (hplan : e.plan labels a = .ok effect) :
    (effect.apply e).palette = a.colors.foldl Palette.intern e.palette := by
  have hkept : Easel.Kept fun e' => e'.palette = e.palette := ⟨fun _ _ _ h => h, fun _ _ _ h => h⟩
  cases plans_of_plan hplan with
  | drawLine => exact hkept.drawLine rfl _ _ _
  | drawCircle => exact hkept.paintAround rfl _ _ _
  | drawRectangle => exact hkept.paintColumns rfl _ _ _ _
  | _ => rfl

namespace Machine

variable {statements : Array Stmt} {n : Nat} {limit : Option Int} {m m' : Machine}
  {done : List Action}

/-- The machine has been set up with the program on a canvas of `n` rows, and these are the actions that
it has carried out since then, in one run or in several. Between them it may have been stopped, begun
again, and painted with. -/
inductive Past (statements : Array Stmt) (n : Nat) : List Action → Machine → Prop
  | fresh {m : Machine} (h : Machine.new statements n = .ok m) : Past statements n [] m
  | step {done : List Action} {m m' : Machine} {limit : Option Int} {s : Stmt}
      (h : Past statements n done m) (hs : m.statements[m.pc]? = some s)
      (hstep : m.step limit = (m', none)) : Past statements n (done ++ [s.action]) m'
  | stop {done : List Action} {m m' : Machine} {limit : Option Int} {ending : Ending}
      (h : Past statements n done m) (hstep : m.step limit = (m', some ending)) :
      Past statements n done m'
  | rewind {done : List Action} {m : Machine} (h : Past statements n done m) :
      Past statements n done m.rewind
  | paint {done : List Action} {m : Machine} (h : Past statements n done m) (x y : Int) :
      Past statements n done { m with easel := m.easel.paint x y }

lemma Past.reaches (h : m.Past statements n done) (hreach : Reaches limit m m') :
    ∃ more, m'.Past statements n (done ++ more) := by
  induction hreach generalizing done with
  | refl => exact ⟨[], by rwa [List.append_nil]⟩
  | step hstep _ ih =>
      obtain ⟨s, -, hs, -, -⟩ := step_completed hstep
      obtain ⟨more, hmore⟩ := ih (h.step hs hstep)
      exact ⟨s.action :: more, by rwa [List.append_assoc] at hmore⟩

/-- **A run** carries out some more actions, however it ends. -/
theorem Past.execute (h : m.Past statements n done) (limit : Option Int) (patience : Nat) :
    ∃ more, (m.execute limit patience).1.Past statements n (done ++ more) := by
  obtain ⟨m₁, hreach, hrun | ⟨m₂, ending, hstep, hrun⟩⟩ :=
    run_reaches limit (patienceFor limit patience) m.rewind
  · rw [Machine.execute, hrun]
    exact h.rewind.reaches hreach
  · rw [Machine.execute, hrun]
    obtain ⟨more, hmore⟩ := h.rewind.reaches hreach
    exact ⟨more, hmore.stop hstep⟩

lemma Past.inOrder (h : m.Past statements n done) : m.InOrder statements n := by
  induction h with
  | fresh h => exact inOrder_new h
  | step _ _ hstep ih => exact ih.step hstep
  | stop _ hstep ih =>
      rcases step_ended hstep with rfl | ⟨s, -, rfl⟩
      · exact ih
      · exact ih.begin s
  | rewind _ ih => exact ih.rewind
  | paint _ x y ih => exact ih.paint x y

/-- What was carried out stands in the program. -/
lemma Past.exists_stmt (h : m.Past statements n done) {a : Action} (ha : a ∈ done) :
    ∃ s ∈ statements, s.action = a := by
  induction h with
  | fresh => cases ha
  | step hpast hs _ ih =>
      rcases List.mem_append.1 ha with hold | hnew
      · exact ih hold
      · rw [hpast.inOrder.program] at hs
        exact ⟨_, Array.mem_of_getElem? hs, (List.mem_singleton.1 hnew).symm⟩
  | stop _ _ ih => exact ih ha
  | rewind _ ih => exact ih ha
  | paint _ _ _ ih => exact ih ha

/-- **The colors in use** are the first color and those that were taken up. -/
theorem Past.lists (h : m.Past statements n done) :
    m.easel.palette.Lists (Easel.firstColor :: done.flatMap Action.colors) := by
  induction h with
  | fresh h =>
      rw [new_easel h]
      exact Palette.lists_empty.intern Easel.firstColor
  | step _ hs hstep ih =>
      obtain ⟨s, effect, hs', hplan, rfl⟩ := step_completed hstep
      obtain rfl := Option.some.inj (hs'.symm.trans hs)
      rw [List.flatMap_append, List.flatMap_singleton, ← List.cons_append, complete_easel,
        begin_easel, Easel.palette_apply hplan]
      exact ih.internAll _
  | stop _ hstep ih =>
      rcases step_ended hstep with rfl | ⟨s, -, rfl⟩
      · exact ih
      · exact ih
  | rewind _ ih => exact ih
  | paint _ x y ih => exact ih

/-- A color that was never taken up has no code. -/
lemma Past.code?_eq_none (h : m.Past statements n done) {color : String}
    (hfirst : color ≠ Easel.firstColor) (hdone : .color color ∉ done) :
    m.easel.palette.code? color = none := by
  rw [Palette.code?_eq, if_neg]
  rw [h.lists.mem_iff, List.mem_cons, List.mem_flatMap]
  rintro (rfl | ⟨action, hmem, hname⟩)
  · exact hfirst rfl
  · rw [Action.mem_colors.1 hname] at hmem
    exact hdone hmem

/-- A statement that takes up no color leaves the colors in use as they are, completed or not. -/
lemma palette_step {s : Stmt} (hs : m.statements[m.pc]? = some s)
    (hcolor : ∀ name, s.action ≠ .color name) (limit : Option Int) :
    (m.step limit).1.easel.palette = m.easel.palette := by
  have hnone : s.action.colors = [] :=
    List.eq_nil_iff_forall_not_mem.2 fun name hname => hcolor name (Action.mem_colors.1 hname)
  cases hstep : m.step limit with
  | mk m' ending =>
      cases ending with
      | some ending =>
          rcases step_ended hstep with rfl | ⟨s, -, rfl⟩
          · rfl
          · rfl
      | none =>
          obtain ⟨s', effect, hs', hplan, rfl⟩ := step_completed hstep
          obtain rfl := Option.some.inj (hs'.symm.trans hs)
          rw [complete_easel, begin_easel, Easel.palette_apply hplan, hnone]
          rfl

end Machine

/-- **Questions about colors are answered by what is seen.** Ask a machine, whatever it has done before,
for a color, with any values.

* The count is zero if a corner of the box is off the canvas, and else the number of cells of the box
  that are seen in the color. It is the same whichever corners are given, and zero for a color that was
  never taken up.
* The cell at some distance from the cursor has the color if it is on the canvas and seen in the color.
* Whatever is asked, a statement that takes up no color leaves the colors in use as they are. -/
theorem color_queries_exact {statements : Array Stmt} {n : Nat} {done : List Action} {m : Machine}
    (h : m.Past statements n done) :
    (∀ mark mark' color a b c d x₁ y₁ x₂ y₂, m.easel.eval a = .ok x₁ → m.easel.eval b = .ok y₁ →
      m.easel.eval c = .ok x₂ → m.easel.eval d = .ok y₂ →
      m.easel.eval (.colorCount mark mark' color a b c d) =
        .ok (if ∀ x ∈ [x₁, x₂], ∀ y ∈ [y₁, y₂], m.easel.canvas.contains x y = true then
          ((Finset.Icc (min x₁ x₂) (max x₁ x₂) ×ˢ Finset.Icc (min y₁ y₂) (max y₁ y₂)).filter fun p =>
            m.easel.colorAt? p.1 p.2 = some color).card else 0) ∧
      m.easel.eval (.colorCount mark mark' color c b a d) =
        m.easel.eval (.colorCount mark mark' color a b c d) ∧
      m.easel.eval (.colorCount mark mark' color a d c b) =
        m.easel.eval (.colorCount mark mark' color a b c d) ∧
      (color ≠ Easel.firstColor → .color color ∉ done →
        m.easel.eval (.colorCount mark mark' color a b c d) = .ok 0)) ∧
    (∀ mark mark' color a b down right, m.easel.eval a = .ok down → m.easel.eval b = .ok right →
      m.easel.eval (.hasColor mark mark' color a b) =
        .ok (if m.easel.canvas.contains (m.easel.x + right) (m.easel.y + down) = true ∧
          m.easel.colorAt? (m.easel.x + right) (m.easel.y + down) = some color then 1 else 0)) ∧
    ∀ s, m.statements[m.pc]? = some s → (∀ name, s.action ≠ .color name) →
      ∀ limit, (m.step limit).1.easel.palette = m.easel.palette := by
  have hlists := h.lists
  refine ⟨fun mark mark' color a b c d x₁ y₁ x₂ y₂ ha hb hc hd => ?_,
    fun mark mark' color a b down right ha hb => ?_, fun s hs hcolor limit => ?_⟩
  · rw [Easel.eval_colorCount mark mark' color ha hb hc hd,
      Easel.eval_colorCount mark mark' color hc hb ha hd,
      Easel.eval_colorCount mark mark' color ha hd hc hb]
    obtain ⟨hcolumns, hrows⟩ := m.easel.colorCount_swap color x₁ y₁ x₂ y₂
    refine ⟨?_, congrArg Except.ok hcolumns, congrArg Except.ok hrows, fun hfirst hdone => ?_⟩
    · split
      · next hin => rw [Easel.colorCount_eq_card h.inOrder.easel.canvas hlists hin]
      · next hout => rw [Easel.colorCount_outside hout]
    · rw [Easel.colorCount_unknown (h.code?_eq_none hfirst hdone)]
  · rw [Easel.eval_hasColor mark mark' color ha hb, bit]
    simp only [Easel.hasColor_iff hlists]
  · exact Machine.palette_step hs hcolor limit

/-- A program that paints two cells and counts the cells of a color that it has not taken up. -/
def blotting : Array Stmt :=
  let mark : Mark := ⟨none, none⟩
  let int (n : Int) : Expr := .lit mark (.int n)
  #[⟨mark, .spawn (int 0) (int 0)⟩, ⟨mark, .color "Red"⟩, ⟨mark, .drawLine (int 1) (int 0) (int 1)⟩,
    ⟨mark, .assign "k" (.colorCount mark mark "Blue" (int 0) (int 0) (int 2) (int 2))⟩]

theorem color_queries_exact_blotting :
    let mark : Mark := ⟨none, none⟩
    let int (n : Int) : Expr := .lit mark (.int n)
    ∃ (m : Machine) (done : List Action), m.Past blotting 3 done ∧ .color "Blue" ∉ done ∧
      m.easel.eval (.colorCount mark mark "Red" (int 2) (int 0) (int 0) (int 1)) = .ok 2 ∧
      m.easel.eval (.colorCount mark mark "Red" (int 3) (int 0) (int 0) (int 1)) = .ok 0 ∧
      m.easel.eval (.colorCount mark mark "Blue" (int 2) (int 0) (int 0) (int 1)) = .ok 0 ∧
      m.easel.eval (.hasColor mark mark "Red" (int 0) (int (-1))) = .ok 1 ∧
      (m.step none).1.easel.palette = m.easel.palette := by
  intro mark int
  obtain ⟨m, hm, hpc⟩ : ∃ m, Machine.new blotting 3 = .ok m ∧
      (m.execute (some 3) 0).1.statements[(m.execute (some 3) 0).1.pc]? = blotting[3]? := ⟨_, rfl, rfl⟩
  obtain ⟨done, hpast⟩ := (Machine.Past.fresh hm).execute (some 3) 0
  obtain rfl := Except.ok.inj hm
  rw [List.nil_append] at hpast
  have hprogram : ∀ s ∈ blotting, s.action ≠ .color "Blue" := by simp [blotting]
  have hblue : .color "Blue" ∉ done := by
    intro hmem
    obtain ⟨s, hs, hcolor⟩ := hpast.exists_stmt hmem
    exact hprogram s hs hcolor
  obtain ⟨hcount, hcolor, hpalette⟩ := color_queries_exact hpast
  refine ⟨_, _, hpast, hblue, ?_, ?_, ?_, ?_, ?_⟩
  · refine (hcount mark mark "Red" (int 2) (int 0) (int 0) (int 1) 2 0 0 1 rfl rfl rfl rfl).1.trans ?_
    exact congrArg Except.ok (by decide +kernel)
  · refine (hcount mark mark "Red" (int 3) (int 0) (int 0) (int 1) 3 0 0 1 rfl rfl rfl rfl).1.trans ?_
    exact congrArg Except.ok (by decide +kernel)
  · exact (hcount mark mark "Blue" (int 2) (int 0) (int 0) (int 1) 2 0 0 1 rfl rfl rfl rfl).2.2.2
      (by decide) hblue
  · refine (hcolor mark mark "Red" (int 0) (int (-1)) 0 (-1) rfl rfl).trans ?_
    exact congrArg Except.ok (by decide +kernel)
  · exact hpalette _ hpc (fun name hname => by cases hname) none

end Brushwork
