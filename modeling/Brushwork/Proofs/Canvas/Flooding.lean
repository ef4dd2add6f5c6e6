import Mathlib.Data.Finset.Prod
import Mathlib.Data.Finset.Range
import Mathlib.Logic.Relation
import Brushwork.Machine.Effect
import Brushwork.Proofs.Canvas.Shape

/-!
Flooding takes the region around a cell and nothing else.

* `Canvas.Joined`: two cells are joined by a path of cells that lie side by side on the canvas and
  all have the same code.
* `Canvas.floodRound`: one round of flooding. `Canvas.flood_eq` counts out the rounds of a flood.
* `Canvas.Takes`: what taking a list of cells does to the canvas, to the queue, and to the number of
  cells that are still to be taken. `Canvas.takeCells_takes`: a round takes the cells around its own.
* `Canvas.Spreads`: what holds between the rounds. Whatever was taken is joined to the start, and it
  waits in the queue unless there is nothing left to take beside it.
* `Canvas.Spreads.queue_empty`: the queue runs empty, since with every round fewer cells are to be
  taken or looked at.
* `Canvas.Flooded`: the region has been taken and all else is as it was. `fill_exact`: so it is once
  the brush has filled.
-/

namespace Brushwork

namespace Canvas

variable {n k target code : Nat} {c old : Canvas} {x y : Int} {p q start : Int × Int}
  {cells queue : List (Int × Int)}

/-! ### Regions -/

/-- The two cells share a side. -/
def Beside (p q : Int × Int) : Prop := (p.1 - q.1).natAbs + (p.2 - q.2).natAbs = 1

lemma mem_neighbours : q ∈ neighbours x y ↔ Beside (x, y) q := by
  obtain ⟨a, b⟩ := q
  simp only [neighbours, List.mem_cons, Prod.mk.injEq, List.not_mem_nil, or_false, Beside]
  omega

/-- A cell of the canvas with that code lies beside the first one. -/
def Leads (c : Canvas) (target : Nat) (p q : Int × Int) : Prop :=
  Beside p q ∧ c.contains q.1 q.2 = true ∧ c.cell q.1 q.2 = target

/-- The cells are joined by a path of cells of the canvas, side by side, that all have the code of the
first one. -/
def Joined (c : Canvas) (p : Int × Int) : Int × Int → Prop :=
  Relation.ReflTransGen (c.Leads (c.cell p.1 p.2)) p

/-! ### Cells by their code -/

/-- All cells of the canvas. -/
def field (c : Canvas) : Finset (Int × Int) :=
  (Finset.range c.size ×ˢ Finset.range c.size).image fun p => ((p.1 : Int), (p.2 : Int))

lemma mem_field : p ∈ c.field ↔ c.contains p.1 p.2 = true := by
  obtain ⟨x, y⟩ := p
  rw [contains_iff]
  constructor
  · intro h
    obtain ⟨⟨a, b⟩, hab, heq⟩ := Finset.mem_image.1 h
    obtain ⟨ha, hb⟩ := Finset.mem_product.1 hab
    obtain ⟨rfl, rfl⟩ := Prod.mk.inj heq
    have ha := Finset.mem_range.1 ha
    have hb := Finset.mem_range.1 hb
    omega
  · intro h
    refine Finset.mem_image.2 ⟨(x.toNat, y.toNat), Finset.mem_product.2 ⟨?_, ?_⟩, ?_⟩
    · exact Finset.mem_range.2 (by omega)
    · exact Finset.mem_range.2 (by omega)
    · exact Prod.ext (Int.toNat_of_nonneg h.1) (Int.toNat_of_nonneg h.2.2.1)

/-- The cells of the canvas that have the code. -/
def holders (c : Canvas) (code : Nat) : Finset (Int × Int) :=
  c.field.filter fun p => c.cell p.1 p.2 = code

lemma mem_holders : p ∈ c.holders code ↔ c.contains p.1 p.2 = true ∧ c.cell p.1 p.2 = code := by
  rw [holders, Finset.mem_filter, mem_field]

lemma card_holders_le (c : Canvas) (code : Nat) : (c.holders code).card ≤ c.size * c.size := by
  calc (c.holders code).card
      ≤ c.field.card := Finset.card_filter_le _ _
    _ ≤ (Finset.range c.size ×ˢ Finset.range c.size).card := Finset.card_image_le
    _ = c.size * c.size := by rw [Finset.card_product, Finset.card_range]

/-- A cell that is taken is one less to be taken. -/
lemma Fits.holders_setCell (h : c.Fits n k) (hne : target ≠ code) (hin : c.contains x y = true) :
    (c.setCell x y code).holders target = (c.holders target).erase (x, y) := by
  ext p
  rw [Finset.mem_erase, mem_holders, mem_holders, contains_setCell, h.cell_setCell hin]
  by_cases hp : p = (x, y)
  · simp [hp, hne.symm]
  · simp [hp]

/-! ### Rounds -/

/-- One round of flooding: the neighbours of the first cell in the queue are taken. -/
def floodRound (target code : Nat) : Canvas × List (Int × Int) → Canvas × List (Int × Int)
  | (c, []) => (c, [])
  | (c, (x, y) :: queue) => takeCells target code (neighbours x y) (c, queue)

lemma flood_eq (target code rounds : Nat) (c : Canvas) (queue : List (Int × Int)) :
    flood target code rounds c queue = ((floodRound target code)^[rounds] (c, queue)).1 := by
  induction rounds generalizing c queue with
  | zero => rfl
  | succ rounds ih =>
      rw [Function.iterate_succ_apply]
      cases queue with
      | nil => rw [flood, floodRound, Function.iterate_fixed rfl]
      | cons p queue => rw [flood, ih, floodRound]

/-- What has become of a canvas and its queue once some cells have been looked at. Those that held the
old code have got the new one and are in the queue, so that the cells which hold the old code and
those in the queue are together as many as before. -/
structure Takes (target code : Nat) (cells : List (Int × Int)) (c : Canvas)
    (queue : List (Int × Int)) (s : Canvas × List (Int × Int)) : Prop where
  size : s.1.size = c.size
  cell : ∀ a b, s.1.cell a b =
    if (a, b) ∈ cells ∧ (a, b) ∈ c.holders target then code else c.cell a b
  waiting : ∀ p, p ∈ s.2 ↔ p ∈ queue ∨ p ∈ cells ∧ p ∈ c.holders target
  card : (s.1.holders target).card + s.2.length = (c.holders target).card + queue.length

/-- A cell with the old code is looked at first. -/
lemma Takes.take {s : Canvas × List (Int × Int)} (h : c.Fits n k) (hne : target ≠ code)
    (hmem : (x, y) ∈ c.holders target)
    (hs : Takes target code cells (c.setCell x y code) (queue ++ [(x, y)]) s) :
    Takes target code ((x, y) :: cells) c queue s := by
  have hin : c.contains x y = true := (mem_holders.1 hmem).1
  have hholders := h.holders_setCell hne hin
  refine ⟨hs.size.trans (size_setCell c x y code), fun a b => ?_, fun p => ?_, ?_⟩
  · rw [hs.cell, hholders, h.cell_setCell hin]
    by_cases hxy : (a, b) = (x, y)
    · simp [hxy, hmem]
    · simp [hxy]
  · rw [hs.waiting, hholders]
    by_cases hxy : p = (x, y)
    · simp [hxy, hmem]
    · simp [hxy]
  · have hcard := Finset.card_erase_add_one hmem
    rw [hs.card, hholders, List.length_append, List.length_singleton]
    omega

/-- A cell without the old code is looked at first. -/
lemma Takes.leave {s : Canvas × List (Int × Int)} (hmem : (x, y) ∉ c.holders target)
    (hs : Takes target code cells c queue s) : Takes target code ((x, y) :: cells) c queue s := by
  refine ⟨hs.size, fun a b => ?_, fun p => ?_, hs.card⟩
  · rw [hs.cell]
    by_cases hxy : (a, b) = (x, y)
    · simp [hxy, hmem]
    · simp [hxy]
  · rw [hs.waiting]
    by_cases hxy : p = (x, y)
    · simp [hxy, hmem]
    · simp [hxy]

/-- **Taking cells**, one after the other. -/
theorem takeCells_takes (h : c.Fits n k) (hne : target ≠ code) (cells queue : List (Int × Int)) :
    Takes target code cells c queue (takeCells target code cells (c, queue)) := by
  induction cells generalizing c queue k with
  | nil => exact ⟨rfl, by simp [takeCells], by simp [takeCells], rfl⟩
  | cons cell cells ih =>
      obtain ⟨x, y⟩ := cell
      rw [takeCells]
      split
      · next hcell =>
        have hfits := (h.mono (Nat.le_max_left k code)).setCell (Nat.le_max_right k code) x y
        exact (ih hfits _).take h hne (by simpa [mem_holders] using hcell)
      · next hcell => exact (ih h queue).leave (by simpa [mem_holders] using hcell)

/-- A cell that still has the old code had it before, and was not looked at. -/
lemma Takes.of_mem_holders {s : Canvas × List (Int × Int)} (hs : Takes target code cells c queue s)
    (hne : target ≠ code) (hq : q ∈ s.1.holders target) : q ∈ c.holders target ∧ q ∉ cells := by
  obtain ⟨hin, hcell⟩ := mem_holders.1 hq
  rw [hs.cell] at hcell
  split at hcell
  · exact absurd hcell.symm hne
  · next hnot =>
    have hmem : q ∈ c.holders target := by
      refine mem_holders.2 ⟨?_, hcell⟩
      rw [contains_iff] at hin ⊢
      rwa [hs.size] at hin
    exact ⟨hmem, fun hcells => hnot ⟨hcells, hmem⟩⟩

/-! ### What holds between the rounds -/

/-- A canvas and a queue in the middle of a flood that began at `start` on the canvas `old`. Cells
that have changed are joined to the start. Of the cells that are joined to it and have the new code,
each is in the queue or has no cell with the old code beside it. -/
structure Spreads (old : Canvas) (start : Int × Int) (code : Nat)
    (s : Canvas × List (Int × Int)) : Prop where
  shape : ∃ k, s.1.Fits old.size k
  begun : s.1.cell start.1 start.2 = code
  cells : ∀ a b, s.1.cell a b = old.cell a b ∨ s.1.cell a b = code ∧ old.Joined start (a, b)
  waiting : ∀ p ∈ s.2, old.Joined start p
  closed : ∀ p, old.Joined start p → s.1.cell p.1 p.2 = code →
    p ∈ s.2 ∨ ∀ q, Beside p q → q ∉ s.1.holders (old.cell start.1 start.2)

/-- At first only the start is taken. -/
lemma spreads_start (h : old.Fits n k) (hin : old.contains x y = true)
    (hne : old.cell x y ≠ code) :
    Spreads old (x, y) code (old.setCell x y code, [(x, y)]) := by
  have hcell : ∀ a b, (old.setCell x y code).cell a b =
      if (a, b) = (x, y) then code else old.cell a b := h.cell_setCell hin
  refine ⟨⟨max k code, ?_⟩, ?_, fun a b => ?_, ?_, fun p hjoined hp => ?_⟩
  · rw [h.size_eq]
    exact (h.mono (Nat.le_max_left k code)).setCell (Nat.le_max_right k code) x y
  · rw [hcell, if_pos rfl]
  · rw [hcell]
    split
    · next hab => exact .inr ⟨rfl, hab ▸ .refl⟩
    · exact .inl rfl
  · exact List.forall_mem_singleton.2 .refl
  · -- a cell that is joined to the start had its code, so it has changed
    have hold : old.cell p.1 p.2 = old.cell x y := by
      rcases hjoined.cases_tail with heq | ⟨q, -, hleads⟩
      · rw [heq]
      · exact hleads.2.2
    rw [hcell] at hp
    split at hp
    · next heq => exact .inl (List.mem_singleton.2 heq)
    · exact absurd (hold.symm.trans hp) hne

/-- **A round** keeps what holds between the rounds. -/
theorem Spreads.round {s : Canvas × List (Int × Int)} (h : Spreads old start code s)
    (hne : old.cell start.1 start.2 ≠ code) :
    Spreads old start code (floodRound (old.cell start.1 start.2) code s) := by
  obtain ⟨c, queue⟩ := s
  cases queue with
  | nil => exact h
  | cons first queue =>
      obtain ⟨x, y⟩ := first
      obtain ⟨k, hfits⟩ := h.shape
      rw [floodRound]
      have htakes := takeCells_takes hfits hne (neighbours x y) queue
      have hshape : ∃ k, (takeCells (old.cell start.1 start.2) code (neighbours x y)
          (c, queue)).1.Fits old.size k :=
        ⟨_, (hfits.mono (Nat.le_max_left k code)).takeCells (Nat.le_max_right k code) _ _ _⟩
      generalize takeCells (old.cell start.1 start.2) code (neighbours x y) (c, queue) = s
        at htakes hshape ⊢
      -- what is taken in this round lies beside a cell that is joined to the start
      have htaken : ∀ p, p ∈ neighbours x y → p ∈ c.holders (old.cell start.1 start.2) →
          old.Joined start p := by
        intro p hbeside hp
        obtain ⟨hin, hcell⟩ := mem_holders.1 hp
        have hold : old.cell p.1 p.2 = old.cell start.1 start.2 := by
          rcases h.cells p.1 p.2 with heq | ⟨hcode, -⟩
          · exact heq.symm.trans hcell
          · exact absurd (hcell.symm.trans hcode) hne
        have hcontains : old.contains p.1 p.2 = true := by
          rw [contains_iff] at hin ⊢
          rwa [hfits.size_eq] at hin
        exact (h.waiting (x, y) List.mem_cons_self).tail
          ⟨mem_neighbours.1 hbeside, hcontains, hold⟩
      refine ⟨hshape, ?_, fun a b => ?_, fun p hp => ?_, fun p hjoined hp => ?_⟩
      · rw [htakes.cell, h.begun, ite_self]
      · rw [htakes.cell]
        split
        · next hab => exact .inr ⟨rfl, htaken _ hab.1 hab.2⟩
        · exact h.cells a b
      · rcases (htakes.waiting p).1 hp with hp | hp
        · exact h.waiting p (List.mem_cons_of_mem _ hp)
        · exact htaken p hp.1 hp.2
      · by_cases hxy : p = (x, y)
        · -- the cell whose neighbours were looked at: none of them has the old code any more
          refine .inr fun q hbeside hq => (htakes.of_mem_holders hne hq).2 (mem_neighbours.2 ?_)
          exact hxy ▸ hbeside
        rw [htakes.cell] at hp
        split at hp
        · next hmem => exact .inl ((htakes.waiting p).2 (.inr hmem))
        · rcases h.closed p hjoined hp with hwaits | hdone
          · have hqueue : p ∈ queue := (List.mem_cons.1 hwaits).resolve_left hxy
            exact .inl ((htakes.waiting p).2 (.inl hqueue))
          · exact .inr fun q hbeside hq => hdone q hbeside (htakes.of_mem_holders hne hq).1

/-- **Rounds in a row** keep it. -/
lemma Spreads.iterate {s : Canvas × List (Int × Int)} (h : Spreads old start code s)
    (hne : old.cell start.1 start.2 ≠ code) (rounds : Nat) :
    Spreads old start code ((floodRound (old.cell start.1 start.2) code)^[rounds] s) := by
  induction rounds with
  | zero => exact h
  | succ rounds ih =>
      rw [Function.iterate_succ_apply']
      exact ih.round hne

/-! ### The end of a flood -/

/-- How many cells are still to be taken or to be looked at. -/
def pending (target : Nat) (s : Canvas × List (Int × Int)) : Nat :=
  (s.1.holders target).card + s.2.length

/-- Each round looks at one cell, as long as there is one. -/
lemma pending_round (h : c.Fits n k) (hne : target ≠ code) (p : Int × Int)
    (queue : List (Int × Int)) :
    pending target (floodRound target code (c, p :: queue)) + 1 = pending target (c, p :: queue) := by
  have hcard := (takeCells_takes h hne (neighbours p.1 p.2) queue).card
  exact congrArg (· + 1) hcard

/-- **The queue runs empty** within as many rounds as there are cells to take or to look at. -/
theorem Spreads.queue_empty {s : Canvas × List (Int × Int)} (h : Spreads old start code s)
    (hne : old.cell start.1 start.2 ≠ code) {rounds : Nat}
    (hrounds : pending (old.cell start.1 start.2) s ≤ rounds) :
    ((floodRound (old.cell start.1 start.2) code)^[rounds] s).2 = [] := by
  induction rounds generalizing s with
  | zero =>
      have hlength : s.2.length = 0 := by
        rw [pending] at hrounds
        omega
      exact List.length_eq_zero_iff.1 hlength
  | succ rounds ih =>
      rw [Function.iterate_succ_apply]
      obtain ⟨c, queue⟩ := s
      cases queue with
      | nil => rw [floodRound, Function.iterate_fixed rfl]
      | cons p queue =>
          obtain ⟨k, hfits : c.Fits old.size k⟩ := h.shape
          have hless := pending_round hfits hne p queue
          exact ih (h.round hne) (by omega)

/-- The canvas `c'` is the canvas `c` with the region around `start` taken: on the canvas, the new code
is where it was before and in that region, and all else is as it was. -/
structure Flooded (c : Canvas) (start : Int × Int) (code : Nat) (c' : Canvas) : Prop where
  size : c'.size = c.size
  taken : ∀ x y, c.contains x y = true →
    (c'.cell x y = code ↔ c.cell x y = code ∨ c.Joined start (x, y))
  kept : ∀ x y, c.contains x y = true → c'.cell x y ≠ code → c'.cell x y = c.cell x y

/-- **When the queue is empty the region is taken**: every step of a path from the start leads from
one cell that was taken to another. -/
theorem Spreads.flooded (h : Spreads old start code (c, [])) : old.Flooded start code c := by
  obtain ⟨k, hfits⟩ := h.shape
  have hpath : ∀ p, old.Joined start p → c.cell p.1 p.2 = code := by
    intro p hjoined
    induction hjoined with
    | refl => exact h.begun
    | @tail p q hp hleads ih =>
        obtain ⟨hbeside, hin, hq⟩ := hleads
        have hdone := (h.closed p hp ih).resolve_left List.not_mem_nil
        rcases h.cells q.1 q.2 with heq | ⟨hcode, -⟩
        · refine absurd (mem_holders.2 ⟨?_, heq.trans hq⟩) (hdone q hbeside)
          rw [contains_iff] at hin ⊢
          rwa [hfits.size_eq]
        · exact hcode
  refine ⟨hfits.size_eq, fun x y _ => ⟨fun hcode => ?_, ?_⟩, fun x y _ hcode => ?_⟩
  · rcases h.cells x y with heq | ⟨-, hjoined⟩
    · exact .inl (heq.symm.trans hcode)
    · exact .inr hjoined
  · rintro (hcode | hjoined)
    · rcases h.cells x y with heq | ⟨hnew, -⟩
      · exact heq.trans hcode
      · exact hnew
    · exact hpath (x, y) hjoined
  · exact (h.cells x y).resolve_right fun hnew => hcode hnew.1

/-- A flood ends with an empty queue, and with the region around its start taken. -/
theorem Fits.fill_flooded (h : c.Fits n k) (hin : c.contains x y = true)
    (hne : c.cell x y ≠ code) :
    (floodRound (c.cell x y) code)^[c.size * c.size] (c.setCell x y code, [(x, y)]) =
        (c.fill x y code, []) ∧
      c.Flooded (x, y) code (c.fill x y code) := by
  have hstart := spreads_start h hin hne
  have hpending : pending (c.cell x y) (c.setCell x y code, [(x, y)]) ≤ c.size * c.size := by
    have hmem : (x, y) ∈ c.holders (c.cell x y) := mem_holders.2 ⟨hin, rfl⟩
    calc pending (c.cell x y) (c.setCell x y code, [(x, y)])
        = ((c.holders (c.cell x y)).erase (x, y)).card + 1 := by
          rw [pending, h.holders_setCell hne hin, List.length_singleton]
      _ = (c.holders (c.cell x y)).card := Finset.card_erase_add_one hmem
      _ ≤ c.size * c.size := card_holders_le c _
  have hfill : (floodRound (c.cell x y) code)^[c.size * c.size] (c.setCell x y code, [(x, y)]) =
      (c.fill x y code, []) := by
    refine Prod.ext ?_ (hstart.queue_empty hne hpending)
    rw [Canvas.fill, if_neg hne, flood_eq]
  refine ⟨hfill, Spreads.flooded ?_⟩
  rw [← hfill]
  exact hstart.iterate hne _

end Canvas

/-- **Filling is exact**. With the cursor on the canvas it never fails and changes nothing but the
canvas. Where the brush has the code of the cell under the cursor the canvas stays as it is. Otherwise
the queue runs empty, and the region around the cursor has been taken. -/
theorem fill_exact {e : Easel} {n k : Nat} (h : e.canvas.Fits n k)
    (hin : e.canvas.contains e.x e.y = true) (labels : Table Nat) :
    e.plan labels .fill = .ok .flood ∧
      ∃ c, Effect.flood.apply e = { e with canvas := c } ∧
        (e.canvas.cell e.x e.y = e.brush.code → c = e.canvas) ∧
        (e.canvas.cell e.x e.y ≠ e.brush.code →
          (∃ rounds, (Canvas.floodRound (e.canvas.cell e.x e.y) e.brush.code)^[rounds]
            (e.canvas.setCell e.x e.y e.brush.code, [(e.x, e.y)]) = (c, [])) ∧
          e.canvas.Flooded (e.x, e.y) e.brush.code c) := by
  have hplan : e.plan labels .fill = .ok .flood := by
    rw [Easel.plan, if_pos hin]
    rfl
  refine ⟨hplan, e.canvas.fill e.x e.y e.brush.code, rfl, fun hsame => ?_, fun hne => ?_⟩
  · rw [Canvas.fill, if_pos hsame]
  · obtain ⟨hrounds, hflooded⟩ := h.fill_flooded hin hne
    exact ⟨⟨_, hrounds⟩, hflooded⟩

/-- A canvas with a wall down its middle that turns to the left at the bottom, and the cursor to the
left of it. -/
def walled : Easel :=
  { Easel.new 3 with
    canvas := ⟨3, #[#[0, 1, 0], #[0, 1, 0], #[1, 0, 0]]⟩
    brush := ⟨1, "Red", 2⟩
    y := 1 }

theorem fill_exact_walled :
    walled.canvas.Fits 3 1 ∧ walled.canvas.contains walled.x walled.y = true ∧
      walled.plan .empty .fill = .ok .flood ∧
      ∃ c, Effect.flood.apply walled = { walled with canvas := c } ∧
        (walled.canvas.cell walled.x walled.y = walled.brush.code → c = walled.canvas) ∧
        (walled.canvas.cell walled.x walled.y ≠ walled.brush.code →
          (∃ rounds, (Canvas.floodRound (walled.canvas.cell walled.x walled.y)
              walled.brush.code)^[rounds]
            (walled.canvas.setCell walled.x walled.y walled.brush.code, [(walled.x, walled.y)]) =
              (c, [])) ∧
          walled.canvas.Flooded (walled.x, walled.y) walled.brush.code c) := by
  have hfits : walled.canvas.Fits 3 1 := ⟨rfl, rfl, by simp [walled, Canvas.RowFits]⟩
  have hin : walled.canvas.contains walled.x walled.y = true := by decide
  exact ⟨hfits, hin, fill_exact hfits hin .empty⟩

end Brushwork
