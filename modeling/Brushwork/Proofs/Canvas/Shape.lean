import Mathlib.Tactic.Common
import Brushwork.Canvas.Flood

/-!
The shape of a canvas.

* `Canvas.Fits`: as many rows as columns, as many as the canvas says, and no code above a bound.
* `Canvas.Fits.exists_cell`: such a canvas has every cell that its size promises, and
  `Canvas.Fits.ext`: no other one has the same codes in them.
* `Canvas.Fits.cell_setCell`: setting a cell sets it and no other one.
* `Canvas.Fits.setCell`, `Canvas.Fits.paintBlock` and `Canvas.Fits.fill`: whatever is painted, and
  wherever, the shape stays, and the bound holds on if it holds of the new code.
-/

namespace Brushwork.Canvas

variable {n k code : Nat}

/-! ### Rows -/

/-- A row of `n` cells without a code above `k`. -/
def RowFits (n k : Nat) (row : Array Nat) : Prop := row.size = n ∧ ∀ code ∈ row, code ≤ k

lemma RowFits.set {row : Array Nat} (h : RowFits n k row) (hcode : code ≤ k) (x : Nat) :
    RowFits n k (row.setIfInBounds x code) := by
  refine ⟨Array.size_setIfInBounds.trans h.1, fun other hother => ?_⟩
  rcases Array.mem_or_eq_of_mem_setIfInBounds hother with hold | rfl
  · exact h.2 other hold
  · exact hcode

lemma RowFits.paintRow {row : Array Nat} (h : RowFits n k row) (hcode : code ≤ k) (x w : Nat) :
    RowFits n k (Canvas.paintRow code x w row) := by
  induction w generalizing x row with
  | zero => exact h
  | succ w ih => exact ih (h.set hcode x) (x + 1)

/-- Changing one row keeps what the change keeps of that row. -/
lemma forall_mem_modify {α : Type} {P : α → Prop} {rows : Array α} (h : ∀ row ∈ rows, P row)
    {f : α → α} (hf : ∀ row, P row → P (f row)) (y : Nat) : ∀ row ∈ rows.modify y f, P row := by
  rw [Array.forall_mem_iff_forall_getElem]
  intro i hi
  have hi' : i < rows.size := by simpa using hi
  have hrow : P rows[i] := h _ (Array.getElem_mem hi')
  rw [Array.getElem_modify]
  split
  · exact hf _ hrow
  · exact hrow

/-! ### Canvases -/

/-- The canvas has `n` rows of `n` cells, and no code is above `k`. -/
structure Fits (n k : Nat) (c : Canvas) : Prop where
  size_eq : c.size = n
  rows_size : c.rows.size = n
  rows_fit : ∀ row ∈ c.rows, RowFits n k row

variable {c c' : Canvas} {k' : Nat} {x y : Int}

lemma fits_blank (n k : Nat) : (blank n).Fits n k := by
  refine ⟨rfl, Array.size_replicate, fun row hrow => ?_⟩
  obtain ⟨-, rfl⟩ := Array.mem_replicate.1 hrow
  refine ⟨Array.size_replicate, fun code hcode => ?_⟩
  obtain ⟨-, rfl⟩ := Array.mem_replicate.1 hcode
  exact Nat.zero_le k

lemma Fits.mono (h : c.Fits n k) (hk : k ≤ k') : c.Fits n k' := by
  refine ⟨h.size_eq, h.rows_size, fun row hrow => ?_⟩
  obtain ⟨hsize, hcodes⟩ := h.rows_fit row hrow
  exact ⟨hsize, fun code hcode => Nat.le_trans (hcodes code hcode) hk⟩

/-- Within its size the canvas has all of its cells. -/
lemma Fits.exists_cell (h : c.Fits n k) {x y : Nat} (hx : x < n) (hy : y < n) :
    c.contains x y = true ∧ ∃ row code, c.rows[y]? = some row ∧ row[x]? = some code := by
  have hin : c.contains x y = true := by
    rw [contains, h.size_eq, decide_eq_true_iff]
    omega
  have hrow : y < c.rows.size := h.rows_size.symm ▸ hy
  have hcell : x < c.rows[y].size := (h.rows_fit _ (Array.getElem_mem hrow)).1.symm ▸ hx
  exact ⟨hin, _, _, Array.getElem?_eq_getElem hrow, Array.getElem?_eq_getElem hcell⟩

lemma cell_natCast (c : Canvas) (x y : Nat) :
    c.cell x y = (c.rows[y]?.bind fun row => row[x]?).getD 0 := by
  rw [cell, if_pos ⟨Int.natCast_nonneg x, Int.natCast_nonneg y⟩]
  rfl

/-- **A canvas is known by its cells.** -/
theorem Fits.ext (h : c.Fits n k) (h' : c'.Fits n k')
    (hcell : ∀ x y : Nat, x < n → y < n → c.cell x y = c'.cell x y) : c = c' := by
  obtain ⟨size, rows⟩ := c
  obtain ⟨size', rows'⟩ := c'
  obtain rfl : size = n := h.size_eq
  obtain rfl : size' = size := h'.size_eq
  have hrows : rows.size = size' := h.rows_size
  have hrows' : rows'.size = size' := h'.rows_size
  refine congrArg (Canvas.mk size') (Array.ext (hrows.trans hrows'.symm) fun y hy hy' => ?_)
  have hrow := (h.rows_fit _ (Array.getElem_mem hy)).1
  have hrow' := (h'.rows_fit _ (Array.getElem_mem hy')).1
  refine Array.ext (hrow.trans hrow'.symm) fun x hx hx' => ?_
  have hxy := hcell x y (by omega) (by omega)
  rw [cell_natCast, cell_natCast] at hxy
  simpa [hy, hy', hx, hx'] using hxy

lemma Fits.setCell (h : c.Fits n k) (hcode : code ≤ k) (x y : Int) :
    (c.setCell x y code).Fits n k := by
  rw [Canvas.setCell]
  split
  · exact ⟨h.size_eq, Array.size_modify.trans h.rows_size,
      forall_mem_modify h.rows_fit (fun _ hrow => hrow.set hcode _) _⟩
  · exact h

lemma paintRows_fit {rows : Array (Array Nat)} (h : ∀ row ∈ rows, RowFits n k row)
    (hcode : code ≤ k) (x w y height : Nat) :
    (paintRows code x w y height rows).size = rows.size ∧
      ∀ row ∈ paintRows code x w y height rows, RowFits n k row := by
  induction height generalizing y rows with
  | zero => exact ⟨rfl, h⟩
  | succ height ih =>
      have hfirst : ∀ row ∈ rows.modify y (paintRow code x w), RowFits n k row :=
        forall_mem_modify h (fun _ hrow => hrow.paintRow hcode x w) y
      obtain ⟨hsize, hrows⟩ := ih hfirst (y + 1)
      exact ⟨hsize.trans Array.size_modify, hrows⟩

lemma Fits.paintBlock (h : c.Fits n k) (hcode : code ≤ k) (x₀ y₀ x₁ y₁ : Int) :
    (c.paintBlock x₀ y₀ x₁ y₁ code).Fits n k := by
  obtain ⟨hsize, hrows⟩ := paintRows_fit h.rows_fit hcode _ _ _ _
  exact ⟨h.size_eq, hsize.trans h.rows_size, hrows⟩

/-! ### Single cells -/

lemma contains_iff : c.contains x y = true ↔ 0 ≤ x ∧ x < c.size ∧ 0 ≤ y ∧ y < c.size :=
  decide_eq_true_iff

lemma size_setCell (c : Canvas) (x y : Int) (code : Nat) : (c.setCell x y code).size = c.size := by
  rw [setCell]
  split <;> rfl

lemma contains_setCell (c : Canvas) (x y : Int) (code : Nat) :
    (c.setCell x y code).contains = c.contains := by
  funext a b
  rw [contains, contains, size_setCell]

/-- **Setting a cell** of the canvas sets it and no other one. -/
theorem Fits.cell_setCell (h : c.Fits n k) (hin : c.contains x y = true) (a b : Int) :
    (c.setCell x y code).cell a b = if (a, b) = (x, y) then code else c.cell a b := by
  obtain ⟨hx, hxn, hy, hyn⟩ := contains_iff.1 hin
  rw [h.size_eq] at hxn hyn
  rw [Canvas.setCell, if_pos ⟨hx, hy⟩, cell, cell]
  by_cases hab : 0 ≤ a ∧ 0 ≤ b
  · rw [if_pos hab, if_pos hab, Array.getElem?_modify]
    by_cases hrow : y.toNat = b.toNat
    · -- the row of the cell: it is on the canvas, and so is its column
      have hb : b.toNat < c.rows.size := by rw [h.rows_size]; omega
      have hfits := (h.rows_fit _ (Array.getElem_mem hb)).1
      obtain rfl : b = y := by omega
      rw [if_pos rfl, Array.getElem?_eq_getElem hb]
      simp only [Option.map_some, Option.bind_some, Prod.mk.injEq, and_true]
      by_cases hcol : a = x
      · have hlt : x.toNat < c.rows[b.toNat].size := by rw [hfits]; omega
        rw [hcol, if_pos rfl, Array.getElem?_setIfInBounds, if_pos rfl, if_pos hlt, Option.getD_some]
      · have hne : x.toNat ≠ a.toNat := by omega
        rw [if_neg hcol, Array.getElem?_setIfInBounds, if_neg hne]
    · have hne : (a, b) ≠ (x, y) := by
        rintro ⟨⟩
        exact hrow rfl
      rw [if_neg hrow, if_neg hne]
  · have hne : (a, b) ≠ (x, y) := by
      rintro ⟨⟩
      exact hab ⟨hx, hy⟩
    rw [if_neg hab, if_neg hab, if_neg hne]

/-! ### Flooding -/

lemma Fits.takeCells (h : c.Fits n k) (hcode : code ≤ k) (target : Nat)
    (cells queue : List (Int × Int)) : (takeCells target code cells (c, queue)).1.Fits n k := by
  induction cells generalizing c queue with
  | nil => exact h
  | cons cell cells ih =>
      obtain ⟨x, y⟩ := cell
      rw [Canvas.takeCells]
      split
      · exact ih (h.setCell hcode x y) _
      · exact ih h _

lemma Fits.flood (h : c.Fits n k) (hcode : code ≤ k) (target rounds : Nat)
    (queue : List (Int × Int)) : (flood target code rounds c queue).Fits n k := by
  induction rounds generalizing c queue with
  | zero => exact h
  | succ rounds ih =>
      cases queue with
      | nil => exact h
      | cons cell queue => exact ih (h.takeCells hcode target _ queue) _

lemma Fits.fill (h : c.Fits n k) (hcode : code ≤ k) (x y : Int) : (c.fill x y code).Fits n k := by
  rw [Canvas.fill]
  split
  · exact h
  · exact (h.setCell hcode x y).flood hcode _ _ _

end Brushwork.Canvas
