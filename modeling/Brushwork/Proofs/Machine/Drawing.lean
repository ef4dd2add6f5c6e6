import Brushwork.Proofs.Canvas.Crop
import Brushwork.Proofs.Canvas.Shape
import Brushwork.Proofs.Machine.Stepping

/-!
What is painted, cell by cell.

* `Canvas.Painted`: a canvas with a code in every cell of a region, where all other cells are as they
  were. `Canvas.Painted.trans`: one region after another comes to both together.
* `Canvas.Fits.painted_block`: a block is painted as far as it lies on the canvas.
* `Easel.Paints`: the same for an easel, where nothing else has changed but the cursor.
  `Easel.paint_paints`: at a place, the cells within the reach of the brush are painted.
* `Canvas.paintSquare`: the cells around a place, one by one. `Easel.paint_eq_paintSquare`: so the brush
  paints.
* `Easel.drawLine_paints`: along a line, those within its reach from any place of the line.
* `Easel.paints_row`: the same for a row of places, and so for the columns of a rectangle.
  `Easel.paintColumns_block`: these leave no gap.
* `drawLine_exact` and `drawRectangle_exact`: the same for the statements, whatever their values are.
-/

namespace Brushwork

/-! ### Canvases -/

namespace Canvas

variable {n k code : Nat} {c c₁ c₂ : Canvas} {R S : Int → Int → Prop}

/-- The second canvas has the code in every cell of the region, and else what the first one has. It has
the shape of the first one. -/
structure Painted (c : Canvas) (R : Int → Int → Prop) (code : Nat) (c' : Canvas) : Prop where
  inside : ∀ x y, c.contains x y = true → R x y → c'.cell x y = code
  outside : ∀ x y, c.contains x y = true → ¬R x y → c'.cell x y = c.cell x y
  size_eq : c'.size = c.size
  fits : ∀ n k, c.Fits n k → code ≤ k → c'.Fits n k

lemma Painted.congr (h : c.Painted R code c₁) (hRS : ∀ x y, R x y ↔ S x y) :
    c.Painted S code c₁ := by
  obtain rfl : R = S := funext fun x => funext fun y => propext (hRS x y)
  exact h

/-- **One region after another**: what was painted last stays, and so does what was painted first,
since it has the same code. -/
theorem Painted.trans (h : c.Painted R code c₁) (h' : c₁.Painted S code c₂) :
    c.Painted (fun x y => R x y ∨ S x y) code c₂ := by
  have hin : ∀ x y, c.contains x y = true → c₁.contains x y = true := fun x y hxy => by
    rwa [contains, h.size_eq]
  refine ⟨fun x y hxy hRS => ?_, fun x y hxy hRS => ?_, h'.size_eq.trans h.size_eq,
    fun n k hfits hcode => h'.fits n k (h.fits n k hfits hcode) hcode⟩
  · by_cases hS : S x y
    · exact h'.inside x y (hin x y hxy) hS
    · rw [h'.outside x y (hin x y hxy) hS]
      exact h.inside x y hxy (hRS.resolve_right hS)
  · obtain ⟨hR, hS⟩ := not_or.1 hRS
    rw [h'.outside x y (hin x y hxy) hS, h.outside x y hxy hR]

/-- A cell of the canvas has the new code if its column and its row lie between the ends of the
block. -/
lemma Fits.cell_paintBlock (h : c.Fits n k) {x y : Nat} (hx : x < n) (hy : y < n)
    (x₀ y₀ x₁ y₁ : Int) (code : Nat) :
    (c.paintBlock x₀ y₀ x₁ y₁ code).cell x y =
      if (x₀ ≤ x ∧ x ≤ x₁) ∧ y₀ ≤ y ∧ y ≤ y₁ then code else c.cell x y := by
  obtain ⟨-, row, old, hrow, hold⟩ := h.exists_cell hx hy
  have hxsize : x < c.size := h.size_eq.symm ▸ hx
  have hysize : y < c.size := h.size_eq.symm ▸ hy
  rw [cell_natCast, cell_natCast, Canvas.paintBlock]
  simp only [getElem?_paintRows, between_iff hysize, hrow]
  by_cases hrows : y₀ ≤ y ∧ y ≤ y₁
  · rw [if_pos hrows, Option.map_some, Option.bind_some, Option.bind_some]
    simp only [getElem?_paintRow, between_iff hxsize, hold, hrows, and_self, and_true]
    split <;> rfl
  · simp only [hrows, and_false, if_false]

/-- **A block** is painted on the canvas, as far as it lies there. -/
theorem Fits.painted_block (h : c.Fits n k) (x₀ y₀ x₁ y₁ : Int) (code : Nat) :
    c.Painted (fun x y => (x₀ ≤ x ∧ x ≤ x₁) ∧ y₀ ≤ y ∧ y ≤ y₁) code
      (c.paintBlock x₀ y₀ x₁ y₁ code) := by
  have hcell : ∀ x y, c.contains x y = true → (c.paintBlock x₀ y₀ x₁ y₁ code).cell x y =
      if (x₀ ≤ x ∧ x ≤ x₁) ∧ y₀ ≤ y ∧ y ≤ y₁ then code else c.cell x y := by
    intro x y hxy
    rw [contains, h.size_eq, decide_eq_true_iff] at hxy
    obtain ⟨i, rfl⟩ := Int.eq_ofNat_of_zero_le hxy.1
    obtain ⟨j, rfl⟩ := Int.eq_ofNat_of_zero_le hxy.2.2.1
    exact h.cell_paintBlock (by omega) (by omega) x₀ y₀ x₁ y₁ code
  refine ⟨fun x y hxy hR => ?_, fun x y hxy hR => ?_, rfl,
    fun n k hfits hcode => hfits.paintBlock hcode x₀ y₀ x₁ y₁⟩
  · rw [hcell x y hxy, if_pos hR]
  · rw [hcell x y hxy, if_neg hR]

/-! ### Cell by cell -/

/-- There is only one canvas on which a region was painted. -/
lemma Painted.eq (h : c.Fits n k) (h₁ : c.Painted R code c₁) (h₂ : c.Painted R code c₂) :
    c₁ = c₂ := by
  have hfits := h.mono (Nat.le_max_left k code)
  refine (h₁.fits _ _ hfits (Nat.le_max_right k code)).ext
    (h₂.fits _ _ hfits (Nat.le_max_right k code)) fun x y hx hy => ?_
  have hxy := (h.exists_cell hx hy).1
  by_cases hR : R x y
  · rw [h₁.inside x y hxy hR, h₂.inside x y hxy hR]
  · rw [h₁.outside x y hxy hR, h₂.outside x y hxy hR]

lemma painted_refl (c : Canvas) (code : Nat) : c.Painted (fun _ _ => False) code c :=
  ⟨fun _ _ _ h => h.elim, fun _ _ _ _ => rfl, rfl, fun _ _ h _ => h⟩

/-- **A loop that paints** a region in each round paints all of them. -/
theorem painted_foldl {α : Type} {paint : Canvas → α → Canvas} {R : α → Int → Int → Prop}
    (hpaint : ∀ {c : Canvas} {n k : Nat}, c.Fits n k → ∀ a, c.Painted (R a) code (paint c a)) (h : c.Fits n k)
    (as : List α) : c.Painted (fun x y => ∃ a ∈ as, R a x y) code (as.foldl paint c) := by
  induction as generalizing c k with
  | nil => exact (painted_refl c code).congr (by simp)
  | cons a as ih =>
      have hfirst := hpaint h a
      have hfits := hfirst.fits _ _ (h.mono (Nat.le_max_left k code)) (Nat.le_max_right k code)
      exact (hfirst.trans (ih hfits)).congr (by simp)

/-- Gives a cell a code, if it lies on the canvas. -/
def paintCell (c : Canvas) (x y : Int) (code : Nat) : Canvas :=
  if c.contains x y then c.setCell x y code else c

lemma Fits.painted_cell (h : c.Fits n k) (x y : Int) (code : Nat) :
    c.Painted (fun a b => a = x ∧ b = y) code (c.paintCell x y code) := by
  rw [paintCell]
  split
  · next hin =>
    refine ⟨fun a b _ hab => ?_, fun a b _ hab => ?_, size_setCell c x y code,
      fun n k hfits hcode => hfits.setCell hcode x y⟩
    · rw [h.cell_setCell hin, if_pos (Prod.ext hab.1 hab.2)]
    · rw [h.cell_setCell hin, if_neg (mt Prod.mk.inj hab)]
  · next hin =>
    refine ⟨fun a b hab heq => ?_, fun _ _ _ _ => rfl, rfl, fun _ _ hfits _ => hfits⟩
    obtain ⟨rfl, rfl⟩ := heq
    exact absurd hab hin

/-- The numbers from `-r` to `r`. -/
def offsets (r : Int) : List Int := (List.range (2 * r + 1).toNat).map fun i : Nat => (i : Int) - r

lemma mem_offsets {r d : Int} : d ∈ offsets r ↔ (d.natAbs : Int) ≤ r := by
  rw [offsets, List.mem_map]
  constructor
  · rintro ⟨i, hi, rfl⟩
    rw [List.mem_range] at hi
    omega
  · intro h
    exact ⟨(d + r).toNat, List.mem_range.2 (by omega), by omega⟩

/-- Gives the cells of a square around `(cx, cy)` a code, one after the other, column by column; those
that do not lie on the canvas are passed over. -/
def paintSquare (c : Canvas) (cx cy r : Int) (code : Nat) : Canvas :=
  (offsets r).foldl (fun c dx =>
    (offsets r).foldl (fun c dy => c.paintCell (cx + dx) (cy + dy) code) c) c

lemma Fits.painted_square (h : c.Fits n k) (cx cy r : Int) (code : Nat) :
    c.Painted (fun x y => ((x - cx).natAbs : Int) ≤ r ∧ ((y - cy).natAbs : Int) ≤ r) code
      (c.paintSquare cx cy r code) := by
  refine (painted_foldl (fun h dx => painted_foldl
    (fun h dy => h.painted_cell (cx + dx) (cy + dy) code) h (offsets r)) h (offsets r)).congr
    fun x y => ?_
  simp only [mem_offsets]
  constructor
  · rintro ⟨dx, hdx, dy, hdy, rfl, rfl⟩
    omega
  · rintro ⟨hx, hy⟩
    exact ⟨x - cx, hx, y - cy, hy, by omega, by omega⟩

end Canvas

/-! ### Easels -/

namespace Easel

variable {n k : Nat} {e e₁ e₂ : Easel} {R S : Int → Int → Prop}

/-- The second easel is the first one with the region painted by its brush and the cursor at
`(x, y)`. -/
def Paints (e : Easel) (R : Int → Int → Prop) (x y : Int) (e' : Easel) : Prop :=
  ∃ c, e' = { e with canvas := c, x := x, y := y } ∧ e.canvas.Painted R e.brush.code c

variable {x y x' y' : Int}

lemma Paints.congr (h : e.Paints R x y e₁) (hRS : ∀ a b, R a b ↔ S a b) : e.Paints S x y e₁ := by
  obtain ⟨c, heq, hc⟩ := h
  exact ⟨c, heq, hc.congr hRS⟩

lemma Paints.trans (h : e.Paints R x y e₁) (h' : e₁.Paints S x' y' e₂) :
    e.Paints (fun a b => R a b ∨ S a b) x' y' e₂ := by
  obtain ⟨c, rfl, hc⟩ := h
  obtain ⟨c', rfl, hc'⟩ := h'
  exact ⟨c', rfl, hc.trans hc'⟩

/-- The cell lies within the reach of the brush from the place `(cx, cy)`. -/
def Covers (e : Easel) (cx cy x y : Int) : Prop :=
  ((x - cx).natAbs : Int) ≤ e.reach ∧ ((y - cy).natAbs : Int) ≤ e.reach

/-- **Painting at a place** paints the cells within the reach of the brush. -/
theorem paint_paints (h : e.canvas.Fits n k) (cx cy : Int) :
    e.Paints (e.Covers cx cy) e.x e.y (e.paint cx cy) := by
  refine ⟨_, rfl, (h.painted_block _ _ _ _ _).congr fun a b => ?_⟩
  simp only [Covers, reach]
  omega

/-- **The block of the brush** is what two loops over the distances up to its reach paint, which ask of
every single cell whether it lies on the canvas. -/
theorem paint_eq_paintSquare (h : e.canvas.Fits n k) (cx cy : Int) :
    e.paint cx cy = { e with canvas := e.canvas.paintSquare cx cy e.reach e.brush.code } := by
  obtain ⟨c, hpaint, hc⟩ := paint_paints h cx cy
  rw [hpaint, hc.eq h (h.painted_square cx cy e.reach e.brush.code)]

/-! ### Lines -/

/-- The cell lies within the reach of the brush from one of the places that are `0` to `n` steps of
`(dx, dy)` away from the cursor. -/
def Crosses (e : Easel) (dx dy : Int) (n : Nat) (x y : Int) : Prop :=
  ∃ i ≤ n, e.Covers (e.x + i * dx) (e.y + i * dy) x y

lemma place_succ (z d : Int) (i : Nat) : z + d + i * d = z + (i + 1 : Nat) * d := by
  rw [Int.natCast_add, Int.add_mul, Int.natCast_one, Int.one_mul]
  omega

/-- A line starts at the cursor and goes on from the place one step away. -/
lemma crosses_succ (c : Canvas) (dx dy : Int) (steps : Nat) (a b : Int) :
    e.Covers e.x e.y a b ∨
        Crosses { e with canvas := c, x := e.x + dx, y := e.y + dy } dx dy steps a b ↔
      e.Crosses dx dy (steps + 1) a b := by
  constructor
  · rintro (hstart | ⟨i, hi, hcovers⟩)
    · exact ⟨0, Nat.zero_le _, by simpa using hstart⟩
    · refine ⟨i + 1, Nat.succ_le_succ hi, ?_⟩
      rwa [← place_succ, ← place_succ]
  · rintro ⟨i, hi, hcovers⟩
    cases i with
    | zero => exact .inl (by simpa using hcovers)
    | succ i =>
        refine .inr ⟨i, Nat.le_of_succ_le_succ hi, ?_⟩
        rwa [← place_succ, ← place_succ] at hcovers

/-- **Along a line** the cells within the reach of the brush are painted, and the cursor comes to its
end. -/
theorem drawLine_paints (h : e.canvas.Fits n k) (hcode : e.brush.code ≤ k) (dx dy : Int)
    (steps : Nat) :
    e.Paints (e.Crosses dx dy steps) (e.x + steps * dx) (e.y + steps * dy)
      (e.drawLine dx dy steps) := by
  induction steps generalizing e with
  | zero =>
      obtain ⟨c, hpaint, hc⟩ := paint_paints h e.x e.y
      refine ⟨c, ?_, hc.congr fun a b => by simp [Crosses]⟩
      rw [drawLine, hpaint]
      simp [walk]
  | succ steps ih =>
      obtain ⟨c, hpaint, hc⟩ := paint_paints h e.x e.y
      -- the rest of the line is a line from the next place, drawn by the same brush
      let e₁ : Easel := { e with canvas := c, x := e.x + dx, y := e.y + dy }
      have hline : e.drawLine dx dy (steps + 1) = e₁.drawLine dx dy steps := by
        rw [drawLine, walk, hpaint]
        rfl
      have hstart : e.Paints (e.Covers e.x e.y) e₁.x e₁.y e₁ := ⟨c, rfl, hc⟩
      have hrest := ih (e := e₁) (hc.fits n k h hcode) hcode
      rw [hline, ← place_succ, ← place_succ]
      exact (hstart.trans hrest).congr (crosses_succ c dx dy steps)

/-! ### Blocks -/

/-- **One place after another**: a row of `length` places, painted by the same brush, comes to all of
them together. -/
theorem paints_row (row : Int → Nat → Easel → Easel) {one : Int → Easel → Easel}
    {R : Int → Int → Int → Prop} (hnil : ∀ z e, row z 0 e = e)
    (hcons : ∀ z length e, row z (length + 1) e = row (z + 1) length (one z e))
    (hcode : e.brush.code ≤ k)
    (hone : ∀ z c, c.Fits n k →
      { e with canvas := c }.Paints (R z) e.x e.y (one z { e with canvas := c }))
    (h : e.canvas.Fits n k) (z : Int) (length : Nat) :
    e.Paints (fun a b => ∃ i < length, R (z + (i : Nat)) a b) e.x e.y (row z length e) := by
  induction length generalizing e z with
  | zero =>
      rw [hnil]
      exact ⟨e.canvas, rfl, fun _ _ _ hR => by simp at hR, fun _ _ _ _ => rfl, rfl, fun _ _ hc _ => hc⟩
  | succ length ih =>
      obtain ⟨c, hfirst, hc⟩ := hone z e.canvas h
      -- the rest of the row is a row from the next place, painted by the same brush
      have hrest := ih (e := { e with canvas := c }) hcode hone (hc.fits n k h hcode) (z + 1)
      rw [hcons, hfirst]
      refine (Paints.trans ⟨c, rfl, hc⟩ hrest).congr fun a b => ?_
      simp only [Nat.exists_lt_succ_left, Int.add_assoc, Int.natCast_add, Int.natCast_one,
        Int.natCast_zero, Int.add_zero, Int.add_comm 1]

/-- A column of places. -/
lemma paintColumn_paints (h : e.canvas.Fits n k) (hcode : e.brush.code ≤ k) (x y : Int)
    (height : Nat) :
    e.Paints (fun a b => ∃ j < height, e.Covers x (y + (j : Nat)) a b) e.x e.y
      (paintColumn x y height e) :=
  paints_row (paintColumn x) (R := fun y => e.Covers x y) (fun _ _ => rfl) (fun _ _ _ => rfl) hcode
    (fun y _ hc => paint_paints hc x y) h y height

/-- Columns of places, side by side. -/
lemma paintColumns_paints (h : e.canvas.Fits n k) (hcode : e.brush.code ≤ k) (x y : Int)
    (height width : Nat) :
    e.Paints (fun a b => ∃ i < width, ∃ j < height, e.Covers (x + (i : Nat)) (y + (j : Nat)) a b)
      e.x e.y (paintColumns x y height width e) :=
  paints_row (fun x => paintColumns x y height)
    (R := fun x a b => ∃ j < height, e.Covers x (y + (j : Nat)) a b) (fun _ _ => rfl)
    (fun _ _ _ => rfl) hcode
    (fun x c hc => paintColumn_paints (e := { e with canvas := c }) hc hcode x y height) h x width

/-- Without places in a column nothing is painted. -/
lemma paintColumns_flat (x y : Int) (width : Nat) : paintColumns x y 0 width e = e := by
  induction width generalizing x with
  | zero => rfl
  | succ width ih => exact ih (x + 1)

/-- What is near to one of some places in a row lies between the ends of the row, or near to them:
there is no gap between one place and the next. -/
lemma exists_near_iff {length : Nat} {r : Int} (hlength : 0 < length) (hr : 0 ≤ r) (z a : Int) :
    (∃ i < length, ((a - (z + (i : Nat))).natAbs : Int) ≤ r) ↔
      z - r ≤ a ∧ a ≤ z + length - 1 + r := by
  constructor
  · rintro ⟨i, hi, hnear⟩
    omega
  · rintro ⟨hleft, hright⟩
    exact ⟨min (a - z).toNat (length - 1), by omega, by omega⟩

/-- **Columns of places** come to a solid block. -/
theorem paintColumns_block (h : e.canvas.Fits n k) (hcode : e.brush.code ≤ k) (hreach : 0 ≤ e.reach)
    (x y : Int) {height width : Nat} (hheight : 0 < height) (hwidth : 0 < width) :
    e.Paints
      (fun a b => (x - e.reach ≤ a ∧ a ≤ x + width - 1 + e.reach) ∧
        y - e.reach ≤ b ∧ b ≤ y + height - 1 + e.reach)
      e.x e.y (paintColumns x y height width e) := by
  refine (paintColumns_paints h hcode x y height width).congr fun a b => ?_
  rw [← exists_near_iff hwidth hreach, ← exists_near_iff hheight hreach]
  constructor
  · rintro ⟨i, hi, j, hj, hcolumn, hrow⟩
    exact ⟨⟨i, hi, hcolumn⟩, j, hj, hrow⟩
  · rintro ⟨⟨i, hi, hcolumn⟩, j, hj, hrow⟩
    exact ⟨i, hi, j, hj, hcolumn, hrow⟩

end Easel

/-! ### The statements -/

/-- A statement that is planned, with the limit not reached, is completed. -/
lemma Machine.step_of_plan {m : Machine} {limit : Option Int} {s : Stmt} {effect : Effect}
    (hroom : reaches m.steps limit = none) (hs : m.statements[m.pc]? = some s)
    (hplan : m.easel.plan m.labels s.action = .ok effect) :
    m.step limit = ((m.begin s).complete effect, none) := by
  rw [step, hs]
  simp only [hroom, hplan]

/-- **A line is drawn exactly.** Let the next statement draw a line, with the values `dx`, `dy` and
`steps`, whatever these are and wherever the cursor is. It is completed. A cell of the canvas has the
code of the brush then if it lies within the reach of the brush from one of the places on the way, on
the canvas or not, and else what it had. The cursor is at the end of the line, the next statement comes,
and nothing else has changed. -/
theorem drawLine_exact {m : Machine} {n k : Nat} (hfits : m.easel.canvas.Fits n k)
    {limit : Option Int} (hroom : Machine.reaches m.steps limit = none) {s : Stmt}
    (hs : m.statements[m.pc]? = some s) {x y distance : Expr}
    (haction : s.action = .drawLine x y distance) {dx dy steps : Int}
    (hx : m.easel.eval x = .ok dx) (hy : m.easel.eval y = .ok dy)
    (hdistance : m.easel.eval distance = .ok steps) :
    ∃ canvas, m.step limit =
        ({ m with
            easel :=
              { m.easel with
                canvas := canvas
                x := m.easel.x + max steps 0 * dx
                y := m.easel.y + max steps 0 * dy }
            pc := m.pc + 1
            steps := m.steps + 1
            line := s.mark.line }, none) ∧
      m.easel.canvas.Painted
        (fun a b => ∃ i : Int, 0 ≤ i ∧ i ≤ max steps 0 ∧
          m.easel.Covers (m.easel.x + i * dx) (m.easel.y + i * dy) a b)
        m.easel.brush.code canvas := by
  have hplan : m.easel.plan m.labels s.action = .ok (.line dx dy steps.toNat) := by
    rw [haction, Easel.plan, hx, hy, hdistance]
    rfl
  obtain ⟨canvas, hline, hcanvas⟩ :=
    Easel.drawLine_paints (hfits.mono (Nat.le_max_left k m.easel.brush.code)) (Nat.le_max_right _ _)
      dx dy steps.toNat
  rw [Int.toNat_eq_max] at hline
  refine ⟨canvas, ?_, hcanvas.congr fun a b => ?_⟩
  · rw [Machine.step_of_plan hroom hs hplan, Machine.complete, Effect.apply, Machine.begin_easel, hline]
    rfl
  · constructor
    · rintro ⟨i, hi, hcovers⟩
      exact ⟨i, by omega, by omega, hcovers⟩
    · rintro ⟨i, hnonneg, hi, hcovers⟩
      refine ⟨i.toNat, by omega, ?_⟩
      rwa [Int.toNat_of_nonneg hnonneg]

/-- A machine that is about to draw a line from outside of its canvas, across it and out again, with a
brush of three cells. -/
def slanting : Machine :=
  let value (n : Int) : Expr := .lit Position.origin.mark (.int n)
  { statements := #[⟨Position.origin.mark, .drawLine (value 2) (value (-1)) (value 3)⟩]
    labels := .empty
    easel := { Easel.new 4 with brush := ⟨3, "Red", 2⟩, x := -2, y := 4 }
    pc := 0
    steps := 0
    line := none }

theorem drawLine_exact_slanting :
    slanting.easel.canvas.Fits 4 0 ∧ Machine.reaches slanting.steps (some 1) = none ∧
      ∃ canvas, slanting.step (some 1) =
          ({ slanting with
              easel := { slanting.easel with canvas := canvas, x := 4, y := 1 }
              pc := 1
              steps := 1
              line := some 1 }, none) ∧
        slanting.easel.canvas.Painted
          (fun a b => ∃ i : Int, 0 ≤ i ∧ i ≤ 3 ∧ slanting.easel.Covers (-2 + i * 2) (4 + i * -1) a b)
          2 canvas := by
  have hfits : slanting.easel.canvas.Fits 4 0 := Canvas.fits_blank 4 0
  exact ⟨hfits, rfl, drawLine_exact hfits rfl rfl rfl rfl rfl rfl⟩

/-- **A rectangle is painted exactly.** Let the next statement draw a rectangle, with the values `dx`,
`dy`, `d`, `w` and `h`, whatever these are and wherever the cursor is, by a brush that has no negative
size, as none has in a session (`Easel.InOrder`). It is completed. If the rectangle has a cell, then a
cell of the canvas has the code of the brush if it lies in the rectangle or within the reach of the brush
from it, and else what it had. If it has none, the canvas stays as it is. The next statement comes, and
nothing else has changed. -/
theorem drawRectangle_exact {m : Machine} {n k : Nat} (hfits : m.easel.canvas.Fits n k)
    (hbrush : 0 ≤ m.easel.brush.size) {limit : Option Int}
    (hroom : Machine.reaches m.steps limit = none) {s : Stmt} (hs : m.statements[m.pc]? = some s)
    {x y distance width height : Expr}
    (haction : s.action = .drawRectangle x y distance width height) {dx dy d w h : Int}
    (hx : m.easel.eval x = .ok dx) (hy : m.easel.eval y = .ok dy)
    (hdistance : m.easel.eval distance = .ok d) (hwidth : m.easel.eval width = .ok w)
    (hheight : m.easel.eval height = .ok h) :
    let r := m.easel.brush.size / 2
    let left := m.easel.x + dx * d
    let top := m.easel.y + dy * d
    ∃ canvas, m.step limit =
        ({ m with
            easel := { m.easel with canvas := canvas }
            pc := m.pc + 1
            steps := m.steps + 1
            line := s.mark.line }, none) ∧
      (1 ≤ w → 1 ≤ h →
        m.easel.canvas.Painted
          (fun a b => (left - r ≤ a ∧ a ≤ left + w - 1 + r) ∧ top - r ≤ b ∧ b ≤ top + h - 1 + r)
          m.easel.brush.code canvas) ∧
      (w ≤ 0 ∨ h ≤ 0 → canvas = m.easel.canvas) := by
  intro r left top
  have hplan : m.easel.plan m.labels s.action = .ok (.block left top w.toNat h.toNat) := by
    rw [haction, Easel.plan, hx, hy, hdistance, hwidth, hheight]
    rfl
  have hcanvas := hfits.mono (Nat.le_max_left k m.easel.brush.code)
  have hcode : m.easel.brush.code ≤ max k m.easel.brush.code := Nat.le_max_right _ _
  obtain ⟨canvas, hblock, -⟩ := Easel.paintColumns_paints hcanvas hcode left top h.toNat w.toNat
  refine ⟨canvas, ?_, fun hw hh => ?_, fun hempty => ?_⟩
  · rw [Machine.step_of_plan hroom hs hplan, Machine.complete, Effect.apply, Machine.begin_easel, hblock]
    rfl
  · obtain ⟨canvas', hsolid, hpainted⟩ := Easel.paintColumns_block hcanvas hcode
      (show 0 ≤ r by omega) left top (show 0 < h.toNat by omega) (show 0 < w.toNat by omega)
    obtain rfl : canvas' = canvas := (Easel.mk.inj (hsolid.symm.trans hblock)).1
    rwa [Int.toNat_of_nonneg (by omega), Int.toNat_of_nonneg (by omega)] at hpainted
  · have hnone : Easel.paintColumns left top h.toNat w.toNat m.easel = m.easel := by
      rcases hempty with hw | hh
      · rw [Int.toNat_of_nonpos hw]
        rfl
      · rw [Int.toNat_of_nonpos hh]
        exact Easel.paintColumns_flat left top _
    exact congrArg Easel.canvas (hblock.symm.trans hnone)

/-- A machine that is about to draw a rectangle that reaches over the left and the lower edge of its
canvas, with a brush of three cells. -/
def spilling : Machine :=
  let value (n : Int) : Expr := .lit Position.origin.mark (.int n)
  { statements :=
      #[⟨Position.origin.mark, .drawRectangle (value (-1)) (value 1) (value 3) (value 2) (value 5)⟩]
    labels := .empty
    easel := { Easel.new 5 with brush := ⟨3, "Red", 2⟩, x := 2, y := 0 }
    pc := 0
    steps := 0
    line := none }

theorem drawRectangle_exact_spilling :
    spilling.easel.canvas.Fits 5 0 ∧ 0 ≤ spilling.easel.brush.size ∧
      Machine.reaches spilling.steps (some 1) = none ∧
      ∃ canvas, spilling.step (some 1) =
          ({ spilling with
              easel := { spilling.easel with canvas := canvas }
              pc := 1
              steps := 1
              line := some 1 }, none) ∧
        spilling.easel.canvas.Painted (fun a b => (-2 ≤ a ∧ a ≤ 1) ∧ 2 ≤ b ∧ b ≤ 8) 2 canvas := by
  have hfits : spilling.easel.canvas.Fits 5 0 := Canvas.fits_blank 5 0
  have hbrush : 0 ≤ spilling.easel.brush.size := by decide
  obtain ⟨canvas, hstep, hpainted, -⟩ := drawRectangle_exact hfits hbrush
    (show Machine.reaches spilling.steps (some 1) = none from rfl) rfl rfl rfl rfl rfl rfl rfl
  exact ⟨hfits, hbrush, rfl, canvas, hstep, hpainted (by decide) (by decide)⟩

end Brushwork
