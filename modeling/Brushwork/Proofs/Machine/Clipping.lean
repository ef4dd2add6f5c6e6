import Brushwork.Proofs.Canvas.Crop
import Brushwork.Proofs.Machine.Faults
import Brushwork.Proofs.Machine.Image
import Brushwork.Proofs.Machine.Session

/-!
One program on canvases of two sizes.

* `Action.isBlind`: a statement that does not look at the canvas.
* `Easel.eval_crop`, `Easel.plan_crop` and `Effect.apply_crop`: such a statement has the same values
  and the same plan on the corner of a canvas, and paints there what it paints on the whole.
* `Machine.Clips`: the cursor is not put down outside the corner. Steps keep this, and commute with
  cropping, `Machine.Clips.step_crop`.
* `execute_crop`: a run on a smaller canvas is the run on a larger one, with the picture cropped.
-/

namespace Brushwork

/-! ### Blind statements -/

/-- The functions whose value depends on the canvas. -/
def canvasQueries : List Builtin := [.getCanvasSize, .isCanvasSize, .getColorCount, .isCanvasColor]

/-- The node is no call of a function that looks at the canvas. -/
def Expr.isBlind : Expr → Bool
  | call _ name _ => name ∉ canvasQueries.map Builtin.word
  | _ => true

/-- The action floods no region and calls no function that looks at the canvas. -/
def Action.isBlind : Action → Bool
  | fill => false
  | a => a.exprs.all fun e => e.parts.all Expr.isBlind

lemma Action.all_of_isBlind {a : Action} (h : a.isBlind = true) {e : Expr} (he : e ∈ a.exprs) :
    e.All (·.isBlind = true) := by
  have hall : (a.exprs.all fun e => e.parts.all Expr.isBlind) = true := by
    cases a with
    | fill => cases h
    | _ => exact h
  exact List.all_eq_true.1 (List.all_eq_true.1 hall e he)

namespace Easel

variable {n : Nat} {e : Easel}

/-- An easel with the corner of its canvas in place of the whole. -/
def crop (n : Nat) (e : Easel) : Easel := { e with canvas := e.canvas.crop n }

@[simp] lemma crop_x (n : Nat) (e : Easel) : (e.crop n).x = e.x := rfl

@[simp] lemma crop_y (n : Nat) (e : Easel) : (e.crop n).y = e.y := rfl

/-- If the action puts the cursor down at a place, this place lies on the canvas. -/
def lands (e : Easel) : Action → Bool
  | .spawn x y =>
    match e.eval x, e.eval y with
    | .ok a, .ok b => e.canvas.contains a b
    | _, _ => true
  | _ => true

/-! ### Values and plans -/

lemma query_crop {b : Builtin} (hb : b ∉ canvasQueries) (e : Easel) (color : String)
    (args : List (Except Fault Int)) : (e.crop n).query b color args = e.query b color args := by
  by_cases harity : args.length = b.arity
  · cases b with
    | getActualX | getActualY =>
        obtain rfl := List.length_eq_zero_iff.1 harity
        rfl
    | isBrushColor | isBrushSize =>
        obtain ⟨a, rfl⟩ := List.length_eq_one_iff.1 harity
        rfl
    | getCanvasSize | isCanvasSize | getColorCount | isCanvasColor =>
        exact absurd hb (by simp [canvasQueries])
  · rw [query_of_arity harity, query_of_arity harity]

/-- **Values** of expressions that do not look at the canvas are the same on its corner. -/
theorem eval_crop (easel : Easel) {e : Expr} (h : e.All (·.isBlind = true)) :
    (easel.crop n).eval e = easel.eval e := by
  induction e using Expr.ind with
  | lit m v => cases v <;> rfl
  | var m name => rfl
  | group m e ih =>
      rw [eval, eval, ih (Expr.all_group.1 h).2]
  | binary m l symbol r ihl ihr =>
      obtain ⟨-, hl, hr⟩ := Expr.all_binary.1 h
      rw [eval, eval, ihl hl, ihr hr]
  | call m name args ih =>
      obtain ⟨hname, hargs⟩ := Expr.all_call.1 h
      have heach : args.map (easel.crop n).eval = args.map easel.eval :=
        List.map_congr_left fun a ha => ih a ha (hargs a ha)
      rw [eval, eval, evalEach_eq_map, evalEach_eq_map, heach]
      cases hb : Builtin.ofWord? name with
      | none => rfl
      | some b =>
          have hfound := List.find?_some hb
          have hword : b.word = name := eq_of_beq hfound
          have hblind : b ∉ canvasQueries := fun hmem =>
            of_decide_eq_true hname (hword ▸ List.mem_map_of_mem hmem)
          exact query_crop hblind easel _ _
  | foreign m form => rfl

lemma contains_of_crop (h : n ≤ e.canvas.size) {x y : Int}
    (hxy : (e.crop n).canvas.contains x y = true) : e.canvas.contains x y = true := by
  simp only [Canvas.contains, decide_eq_true_eq] at hxy ⊢
  have hsize : (e.crop n).canvas.size = n := rfl
  omega

/-- **Plans** of statements that do not look at the canvas are the same on its corner. -/
theorem plan_crop {easel : Easel} (labels : Table Nat) {a : Action} (h : a.isBlind = true)
    (hsize : n ≤ easel.canvas.size) (hland : (easel.crop n).lands a = true) :
    (easel.crop n).plan labels a = easel.plan labels a := by
  have heval : ∀ e ∈ a.exprs, (easel.crop n).eval e = easel.eval e := fun e he =>
    eval_crop easel (Action.all_of_isBlind h he)
  cases a with
  | spawn x y =>
      have hx := heval x (by simp [Action.exprs])
      have hy := heval y (by simp [Action.exprs])
      rw [plan, plan, hx, hy]
      cases hxv : easel.eval x with
      | error fault => rfl
      | ok u =>
          cases hyv : easel.eval y with
          | error fault => rfl
          | ok v =>
              have hin : (easel.crop n).canvas.contains u v = true := by
                simpa only [lands, hx, hy, hxv, hyv] using hland
              simp only [bind, Except.bind, hin, contains_of_crop hsize hin]
  | fill => cases h
  | color | label | foreign => rfl
  | size | assign | goTo | drawLine | drawCircle | drawRectangle =>
      simp only [Action.exprs, List.forall_mem_cons] at heval
      simp only [plan, heval, crop_x, crop_y]

/-! ### Effects -/

/-- Whatever is painted on a canvas is painted on its corner too. -/
lemma carries_crop : Carries (fun e => n ≤ e.canvas.size) (crop n) where
  kept := ⟨fun _ _ _ h => h, fun _ _ _ h => h⟩
  paint e x y h := by
    have hpaint := Canvas.crop_paintBlock h (x - e.brush.size / 2) (y - e.brush.size / 2)
      (x + e.brush.size / 2) (y + e.brush.size / 2) e.brush.code
    rw [crop, crop, paint, paint]
    simp only [hpaint]
  move _ _ _ _ := rfl
  x_eq _ := rfl
  y_eq _ := rfl

end Easel

/-- **Effects** other than a flood come to the same on the corner of a canvas. -/
theorem Effect.apply_crop {n : Nat} {effect : Effect} (h : effect ≠ .flood) {easel : Easel}
    (hsize : n ≤ easel.canvas.size) :
    effect.apply (easel.crop n) = (effect.apply easel).crop n := by
  have hcarries : Easel.Carries (fun e => n ≤ e.canvas.size) (Easel.crop n) := Easel.carries_crop
  cases effect with
  | flood => exact absurd rfl h
  | line dx dy steps => exact (hcarries.drawLine hsize dx dy steps).symm
  | around cx cy places => exact (hcarries.paintAround hsize cx cy places).symm
  | block x y width height => exact (hcarries.paintColumns hsize x y height width).symm
  | nothing | jump | moveTo | pickColor | pickSize | assign => rfl

/-- A statement that does not look at the canvas floods no region. -/
lemma Easel.ne_flood_of_plan {easel : Easel} {labels : Table Nat} {a : Action} {effect : Effect}
    (ha : a.isBlind = true) (h : easel.plan labels a = .ok effect) : effect ≠ .flood := by
  cases plans_of_plan h with
  | fill => cases ha
  | _ => simp

/-! ### Runs -/

namespace Machine

variable {statements : Array Stmt} {n k : Nat} {limit : Option Int} {m m' : Machine}

/-- A machine with the corner of its canvas in place of the whole. -/
def crop (n : Nat) (m : Machine) : Machine := { m with easel := m.easel.crop n }

/-- Behind a completed statement there is none that puts the cursor down. -/
lemma InOrder.isSpawn_next (h : m.InOrder statements k)
    (hwf : Program.WellFormed statements.toList) (hstep : m.step limit = (m', none)) {s : Stmt}
    (hs : statements[m'.pc]? = some s) : s.action.isSpawn = false := by
  obtain ⟨first, rest, hlist, -, hrest⟩ := hwf.spawn_first
  have hlater : ∀ i, statements[i + 1]? = some s → s.action.isSpawn = false := by
    intro i hi
    rw [← Array.getElem?_toList, hlist, List.getElem?_cons_succ] at hi
    exact hrest s (List.mem_of_getElem? hi)
  obtain ⟨t, effect, -, hplan, rfl⟩ := step_completed hstep
  rw [complete_pc, begin_pc] at hs
  generalize t.action = a at hplan
  cases Easel.plans_of_plan hplan with
  | jump _ _ htarget =>
      obtain ⟨s', hs', hlabel⟩ := ((h.labels _ _).1 htarget).declares
      obtain rfl : s' = s := Option.some.inj (hs'.symm.trans hs)
      rw [hlabel]
      rfl
  | _ => exact hlater _ hs

/-- A machine in order with a canvas of `k` rows. If the cursor is put down next, then within the first
`n` of them. -/
structure Clips (statements : Array Stmt) (n k : Nat) (m : Machine) : Prop where
  inOrder : m.InOrder statements k
  lands : ∀ s, statements[m.pc]? = some s → (m.easel.crop n).lands s.action = true

lemma Clips.step (h : m.Clips statements n k) (hwf : Program.WellFormed statements.toList)
    (hstep : m.step limit = (m', none)) : m'.Clips statements n k := by
  refine ⟨h.inOrder.step hstep, fun s hs => ?_⟩
  have hspawn := h.inOrder.isSpawn_next hwf hstep hs
  cases ha : s.action with
  | spawn => simp [ha, Action.isSpawn] at hspawn
  | _ => rfl

/-- **A step** on the corner of a canvas is the step on the whole, with the canvas cropped. -/
theorem Clips.step_crop (h : m.Clips statements n k) (hsize : n ≤ k)
    (hblind : ∀ s ∈ statements.toList, s.action.isBlind = true) :
    (m.crop n).step limit = ((m.step limit).1.crop n, (m.step limit).2) := by
  have hcanvas : n ≤ m.easel.canvas.size := h.inOrder.easel.canvas.size_eq ▸ hsize
  have hget : (m.crop n).statements[(m.crop n).pc]? = m.statements[m.pc]? := rfl
  have hsteps : (m.crop n).steps = m.steps := rfl
  obtain ⟨hs, hstep⟩ | ⟨s, hs, hcases⟩ := step_cases limit m
  · rw [Machine.step, hget, hs, hstep]
  · have hs' : statements[m.pc]? = some s := h.inOrder.program ▸ hs
    have hb := hblind s (List.mem_of_getElem? (Array.getElem?_toList.trans hs'))
    have hplan : (m.crop n).easel.plan (m.crop n).labels s.action =
        m.easel.plan m.labels s.action := Easel.plan_crop _ hb hcanvas (h.lands s hs')
    obtain ⟨b, hn, hstep⟩ | ⟨fault, hn, hfault, hstep⟩ | ⟨effect, hn, heffect, hstep⟩ := hcases
    · rw [Machine.step, hget, hs, hstep]
      simp only [hsteps, hn]
    · rw [Machine.step, hget, hs, hstep]
      simp only [hsteps, hn, hplan, hfault]
      rfl
    · have happly := Effect.apply_crop (Easel.ne_flood_of_plan hb heffect) hcanvas
      rw [Machine.step, hget, hs, hstep]
      simp only [hsteps, hn, hplan, heffect]
      simp only [complete, begin, crop, happly]

lemma carries_crop (hsize : n ≤ k) (hwf : Program.WellFormed statements.toList)
    (hblind : ∀ s ∈ statements.toList, s.action.isBlind = true) :
    Carries limit (Clips statements n k) (crop n) id where
  kept _ _ hstep h := h.step hwf hstep
  step m h := by
    rw [h.step_crop hsize hblind]
    cases (m.step limit).2 <;> simp

lemma easel_new {size : Int} (h : Machine.new statements size = .ok m) :
    m.easel = .new size.toNat := by
  rw [Machine.new] at h
  split at h
  · cases h
  · split at h
    · cases h
    · obtain rfl := Except.ok.inj h
      rfl

/-- The corner of a fresh machine is one that was set up on the smaller canvas. -/
lemma new_crop (hn : 0 < n) (hsize : n ≤ k) (h : Machine.new statements k = .ok m) :
    Machine.new statements n = .ok (m.crop n) := by
  rw [Machine.new] at h ⊢
  split at h
  · cases h
  · next hspawn =>
    split at h
    · cases h
    · obtain rfl := Except.ok.inj h
      have hpos : ¬(n : Int) ≤ 0 := by omega
      simp only [if_neg hspawn, if_neg hpos, crop, Easel.crop, Easel.new, Int.toNat_natCast,
        Canvas.crop_blank hsize]

lemma clips_new (hn : 0 < n) (hsize : n ≤ k) (h : Machine.new statements k = .ok m)
    (hspawn : ∀ s ∈ statements.toList, (Easel.new n).lands s.action = true) :
    m.Clips statements n k := by
  refine ⟨inOrder_new h, fun s hs => ?_⟩
  have hcrop : m.easel.crop n = .new n := easel_new (new_crop hn hsize h)
  rw [hcrop]
  exact hspawn s (List.mem_of_getElem? (Array.getElem?_toList.trans hs))

end Machine

/-- **The size of the canvas only clips.** Let a program be accepted that floods no region and calls no
function that looks at the canvas, and let the cursor be put down within the first `n` rows and
columns. A run on `n` rows and one on more of them, with the same limit, end in the same way, at the
same statement after as many steps, with the same cursor, brush, colors and variables. The smaller
canvas is the corner of the larger one. -/
theorem execute_crop {source : String} {program : Program} (h : Accepts source program)
    (hblind : ∀ s ∈ program.statements.toList, s.action.isBlind = true) {n k : Nat} (hn : 0 < n)
    (hsize : n ≤ k)
    (hspawn : ∀ s ∈ program.statements.toList, (Easel.new n).lands s.action = true) :
    ∃ small large, Machine.new program.statements n = .ok small ∧
      Machine.new program.statements k = .ok large ∧
      ∀ limit patience, small.execute limit patience =
        ((large.execute limit patience).1.crop n, (large.execute limit patience).2) := by
  have hwf := h.1.wellFormed.1
  have hk : (1 : Int) ≤ k := by omega
  obtain ⟨m, hm⟩ := Machine.exists_new hwf hk
  obtain ⟨-, -, -, hrewind⟩ := Machine.new_fresh hm
  refine ⟨m.crop n, m, Machine.new_crop hn hsize hm, hm, fun limit patience => ?_⟩
  have hcarries : Machine.Carries limit (Machine.Clips program.statements n k) (Machine.crop n) id :=
    Machine.carries_crop hsize hwf hblind
  have hrun := hcarries.run (Machine.clips_new hn hsize hm hspawn)
    (Machine.patienceFor limit patience)
  rw [Machine.Ending.map_id, ← hrewind] at hrun
  exact hrun

/-- A text that draws with a wide brush, out of a canvas and back onto it, and then divides by the
place of the cursor. -/
def strayingText : String :=
  "Spawn(1, 1)\nColor(\"Red\")\nSize(3)\nout\nDrawLine(1, 1, 4)\nDrawLine(-1, 0, 5)\n" ++
    "GoTo [out] (GetActualX() > 0)\nn <- 1 / GetActualX()"

theorem execute_crop_strayingText :
    ∃ program, Accepts strayingText program ∧
      (∀ s ∈ program.statements.toList, s.action.isBlind = true) ∧
      (∀ s ∈ program.statements.toList, (Easel.new 3).lands s.action = true) ∧
      ∃ small large, Machine.new program.statements 3 = .ok small ∧
        Machine.new program.statements 8 = .ok large ∧
        ∀ limit patience, small.execute limit patience =
          ((large.execute limit patience).1.crop 3, (large.execute limit patience).2) := by
  obtain ⟨program, h, hcheck, hblind, hspawn⟩ :
      ∃ program, Reads strayingText program ∧ Check.errors program.statements = [] ∧
        (∀ s ∈ program.statements.toList, s.action.isBlind = true) ∧
        ∀ s ∈ program.statements.toList, (Easel.new 3).lands s.action = true := by
    decide +kernel
  exact ⟨program, ⟨h, hcheck⟩, hblind, hspawn,
    execute_crop ⟨h, hcheck⟩ hblind (by decide) (by decide) hspawn⟩

end Brushwork
