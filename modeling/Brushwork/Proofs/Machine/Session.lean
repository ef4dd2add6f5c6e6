import Brushwork.Proofs.Canvas.Shape
import Brushwork.Proofs.Color.Interning
import Brushwork.Proofs.Machine.Stepping

/-!
Machines that are used again and again.

* `Easel.InOrder`: a square canvas without unknown codes, and a brush of odd size whose code is that
  of its color. `Easel.InOrder.apply` keeps it through every effect that a statement can plan.
* `Program.find?_labelTable`: a machine knows each label by the place of its first declaration.
* `Machine.Session`: a machine is set up once, then run with any limits and painted with, in any
  order. `Machine.InOrder` holds between these calls and before every statement of every run.
* `session_inOrder`: all of this, and where a jump leads.
-/

namespace Brushwork

/-! ### Easels -/

namespace Easel

variable {n : Nat} {e : Easel}

/-- An easel with a canvas of `n` rows of `n` cells, each with the code of a color in use or none,
and with a brush of odd size whose code is that of its color. -/
structure InOrder (n : Nat) (e : Easel) : Prop where
  canvas : e.canvas.Fits n e.palette.size
  brush_odd : e.brush.size % 2 = 1
  brush_pos : 1 ≤ e.brush.size
  brush_code : e.palette.code? e.brush.color = some e.brush.code

lemma inOrder_new (n : Nat) : (new n).InOrder n :=
  ⟨Canvas.fits_blank n _, rfl, Int.le_refl 1, Palette.code?_intern .empty firstColor⟩

lemma InOrder.code_le (h : e.InOrder n) : e.brush.code ≤ e.palette.size :=
  Palette.code?_le h.brush_code

lemma InOrder.paint (h : e.InOrder n) (x y : Int) : (e.paint x y).InOrder n :=
  ⟨h.canvas.paintBlock h.code_le _ _ _ _, h.brush_odd, h.brush_pos, h.brush_code⟩

lemma InOrder.fill (h : e.InOrder n) : e.fill.InOrder n :=
  ⟨h.canvas.fill h.code_le _ _, h.brush_odd, h.brush_pos, h.brush_code⟩

lemma InOrder.move (h : e.InOrder n) (x y : Int) : { e with x := x, y := y }.InOrder n :=
  ⟨h.canvas, h.brush_odd, h.brush_pos, h.brush_code⟩

lemma InOrder.assign (h : e.InOrder n) (name : String) (v : Int) : (e.assign name v).InOrder n :=
  ⟨h.canvas, h.brush_odd, h.brush_pos, h.brush_code⟩

lemma InOrder.pickColor (h : e.InOrder n) (name : String) : (e.pickColor name).InOrder n :=
  ⟨h.canvas.mono (e.palette.size_le_intern name), h.brush_odd, h.brush_pos,
    e.palette.code?_intern name⟩

/-- A size above zero gives a brush of odd size above zero. -/
lemma InOrder.pickSize (h : e.InOrder n) {size : Int} (hsize : 0 < size) :
    (e.pickSize size).InOrder n := by
  have hodd : (if size % 2 = 0 then size - 1 else size) % 2 = 1 := by
    split <;> omega
  have hpos : 1 ≤ if size % 2 = 0 then size - 1 else size := by
    split <;> omega
  exact ⟨h.canvas, hodd, hpos, h.brush_code⟩

lemma kept_inOrder (n : Nat) : Kept (InOrder n) :=
  ⟨fun _ x y h => h.paint x y, fun _ x y h => h.move x y⟩

/-- **A statement that is carried out** leaves the easel in order. -/
theorem InOrder.apply (h : e.InOrder n) {labels : Table Nat} {a : Action} {effect : Effect}
    (hplan : e.plan labels a = .ok effect) : (effect.apply e).InOrder n := by
  cases plans_of_plan hplan with
  | spawn => exact h.move _ _
  | color => exact h.pickColor _
  | size _ hsize => exact h.pickSize hsize
  | drawLine => exact (kept_inOrder n).drawLine h _ _ _
  | drawCircle => exact (kept_inOrder n).paintAround h _ _ _
  | drawRectangle => exact (kept_inOrder n).paintColumns h _ _ _ _
  | fill => exact h.fill
  | assign => exact h.assign _ _
  | label | pass | jump => exact h

end Easel

/-! ### Labels -/

namespace Program

/-- A label of that name is declared at place `i`, and none before it. -/
structure FirstLabel (statements : Array Stmt) (name : String) (i : Nat) : Prop where
  declares : ∃ s, statements[i]? = some s ∧ s.action = .label name
  first : ∀ j s, j < i → statements[j]? = some s → s.action ≠ .label name

lemma label?_eq_some {a : Action} {name : String} : a.label? = some name ↔ a = .label name := by
  cases a <;> simp [Action.label?]

lemma find?_labelsFrom {index : Nat} {labels : Table Nat} {ss : List Stmt} {name : String} :
    (labelsFrom index labels ss).find? name =
      (labels.find? name).or
        ((ss.findIdx? fun s => s.action.label? == some name).map (· + index)) := by
  induction ss generalizing index labels with
  | nil => simp [labelsFrom]
  | cons s ss ih =>
      have hshift : (fun i => i + 1 + index) = fun i => i + (index + 1) := by
        funext i
        omega
      rw [labelsFrom, List.findIdx?_cons]
      cases hs : s.action.label? with
      | none => simp [ih, hshift, Function.comp_def]
      | some other =>
          by_cases hname : name = other
          · subst hname
            cases hfind : labels.find? name with
            | some i => simp [ih, Table.contains, hfind]
            | none => simp [ih, Table.contains, hfind, Table.find?_put]
          · -- another label neither hides this one nor moves it
            have hput : ∀ v, (labels.put other v).find? name = labels.find? name := by
              intro v
              rw [Table.find?_put, if_neg hname]
            have hother : (some other == some name) = false := by simp [Ne.symm hname]
            rw [ih]
            split <;> simp [hput, hother, hshift, Function.comp_def]

/-- **A machine knows a label** by the place of its first declaration. -/
theorem find?_labelTable {statements : Array Stmt} {name : String} {i : Nat} :
    (labelTable statements).find? name = some i ↔ FirstLabel statements name i := by
  have hfind : (labelTable statements).find? name =
      statements.toList.findIdx? fun s => s.action.label? == some name := by
    rw [labelTable, find?_labelsFrom]
    simp [Table.find?, Table.empty]
  rw [hfind, List.findIdx?_eq_some_iff_getElem]
  simp only [beq_iff_eq, label?_eq_some]
  constructor
  · rintro ⟨hi, hlabel, hbefore⟩
    refine ⟨⟨_, by rw [← Array.getElem?_toList, List.getElem?_eq_getElem hi], hlabel⟩, ?_⟩
    intro j s hj hs
    rw [← Array.getElem?_toList, List.getElem?_eq_some_iff] at hs
    obtain ⟨-, rfl⟩ := hs
    exact hbefore j hj
  · rintro ⟨⟨s, hs, hlabel⟩, hbefore⟩
    rw [← Array.getElem?_toList, List.getElem?_eq_some_iff] at hs
    obtain ⟨hi, rfl⟩ := hs
    refine ⟨hi, hlabel, fun j hj => hbefore j _ hj ?_⟩
    rw [← Array.getElem?_toList, List.getElem?_eq_getElem]

end Program

/-! ### Sessions -/

namespace Machine

variable {statements : Array Stmt} {n : Nat} {limit : Option Int} {m m' : Machine}

/-- The machine has been set up with the program on a canvas of `n` rows, and has then been run, with
any limits, and painted with, any number of times in any order. -/
inductive Session (statements : Array Stmt) (n : Nat) : Machine → Prop
  | fresh {m : Machine} (h : Machine.new statements n = .ok m) : Session statements n m
  | run {m : Machine} (h : Session statements n m) (limit : Option Int) (patience : Nat) :
      Session statements n (m.execute limit patience).1
  | paint {m : Machine} (h : Session statements n m) (x y : Int) :
      Session statements n { m with easel := m.easel.paint x y }

/-- The machine holds that program and knows its labels, its easel is in order, and it stands at a
statement or behind the last one. -/
structure InOrder (statements : Array Stmt) (n : Nat) (m : Machine) : Prop where
  program : m.statements = statements
  labels : ∀ name i, m.labels.find? name = some i ↔ Program.FirstLabel statements name i
  easel : m.easel.InOrder n
  pc_le : m.pc ≤ statements.size

lemma inOrder_new (h : Machine.new statements n = .ok m) : m.InOrder statements n := by
  rw [Machine.new] at h
  split at h
  · cases h
  · split at h
    · cases h
    · obtain rfl := Except.ok.inj h
      exact ⟨rfl, fun name i => Program.find?_labelTable, Easel.inOrder_new n, Nat.zero_le _⟩

lemma InOrder.rewind (h : m.InOrder statements n) : m.rewind.InOrder statements n :=
  ⟨h.program, h.labels, h.easel, Nat.zero_le _⟩

lemma InOrder.begin (h : m.InOrder statements n) (s : Stmt) : (m.begin s).InOrder statements n :=
  ⟨h.program, h.labels, h.easel, h.pc_le⟩

lemma InOrder.paint (h : m.InOrder statements n) (x y : Int) :
    { m with easel := m.easel.paint x y }.InOrder statements n :=
  ⟨h.program, h.labels, h.easel.paint x y, h.pc_le⟩

/-- Behind a statement that is carried out comes a statement, or the end of the program. -/
lemma InOrder.next_le (h : m.InOrder statements n) {s : Stmt} {effect : Effect}
    (hs : m.statements[m.pc]? = some s) (hplan : m.easel.plan m.labels s.action = .ok effect) :
    effect.next m.pc ≤ statements.size := by
  have hlt : m.pc < statements.size := by
    rw [h.program] at hs
    exact (Array.getElem?_eq_some_iff.1 hs).1
  generalize s.action = a at hplan
  cases Easel.plans_of_plan hplan with
  | jump _ _ ht =>
      obtain ⟨t, hget, -⟩ := ((h.labels _ _).1 ht).declares
      exact Nat.le_of_lt (Array.getElem?_eq_some_iff.1 hget).1
  | _ => exact hlt

/-- **A completed step** leaves the machine in order. -/
theorem InOrder.step (h : m.InOrder statements n) (hstep : m.step limit = (m', none)) :
    m'.InOrder statements n := by
  obtain ⟨s, effect, hs, hplan, rfl⟩ := step_completed hstep
  exact ⟨h.program, h.labels, h.easel.apply hplan, h.next_le hs hplan⟩

lemma InOrder.reaches (h : m.InOrder statements n) (hreach : Reaches limit m m') :
    m'.InOrder statements n :=
  hreach.keeps (fun _ _ hstep hm => hm.step hstep) h

/-- **A run** leaves the machine in order, however it ends. -/
theorem InOrder.execute (h : m.InOrder statements n) (limit : Option Int) (patience : Nat) :
    (m.execute limit patience).1.InOrder statements n := by
  obtain ⟨m₁, hreach, hrun | ⟨m₂, ending, hstep, hrun⟩⟩ :=
    run_reaches limit (patienceFor limit patience) m.rewind
  · rw [Machine.execute, hrun]
    exact h.rewind.reaches hreach
  · rw [Machine.execute, hrun]
    have hm₁ : m₁.InOrder statements n := h.rewind.reaches hreach
    rcases step_ended hstep with rfl | ⟨s, -, rfl⟩
    · exact hm₁
    · exact hm₁.begin s

lemma Session.inOrder (h : m.Session statements n) : m.InOrder statements n := by
  induction h with
  | fresh h => exact inOrder_new h
  | run _ limit patience ih => exact ih.execute limit patience
  | paint _ x y ih => exact ih.paint x y

/-- The program of a session begins by putting the cursor down. -/
lemma Session.startsWithSpawn (h : m.Session statements n) :
    Program.startsWithSpawn statements = true := by
  induction h with
  | fresh h =>
      rw [Machine.new] at h
      split at h
      · cases h
      · next hspawn => simpa using hspawn
  | run _ _ _ ih => exact ih
  | paint _ _ _ ih => exact ih

/-- The place of a label is never that of the first statement. -/
lemma Session.firstLabel_pos (h : m.Session statements n) {name : String} {i : Nat}
    (hi : Program.FirstLabel statements name i) : 0 < i := by
  obtain ⟨s, hs, hlabel⟩ := hi.declares
  rcases Nat.eq_zero_or_pos i with rfl | hpos
  · have hspawn := h.startsWithSpawn
    simp [Program.startsWithSpawn, hs, hlabel, Action.isSpawn] at hspawn
  · exact hpos

/-- A jump whose condition is not zero leads to the first label of its name. -/
lemma InOrder.jump (h : m.InOrder statements n) {s : Stmt} {name : String} {condition : Expr} {v : Int}
    (hs : statements[m.pc]? = some s) (ha : s.action = .goTo name condition)
    (hv : m.easel.eval condition = .ok v) (hne : v ≠ 0) (hstep : m.step limit = (m', none)) :
    Program.FirstLabel statements name m'.pc := by
  obtain ⟨t, effect, ht, hplan, rfl⟩ := step_completed hstep
  rw [h.program, hs] at ht
  obtain rfl := Option.some.inj ht
  rw [ha] at hplan
  cases Easel.plans_of_plan hplan with
  | pass hzero =>
      rw [hzero] at hv
      exact absurd (Except.ok.inj hv).symm hne
  | jump _ _ htarget => exact (h.labels name _).1 htarget

/-- Where there is room for one more statement, a jump whose condition is not zero is carried out if its
label is declared. -/
lemma InOrder.exists_jump (h : m.InOrder statements n) {s : Stmt} {name : String} {condition : Expr}
    {v : Int} {i : Nat} (hs : statements[m.pc]? = some s) (ha : s.action = .goTo name condition)
    (hv : m.easel.eval condition = .ok v) (hne : v ≠ 0)
    (hroom : ∀ bound, limit = some bound → m.steps < bound)
    (hi : Program.FirstLabel statements name i) : ∃ m', m.step limit = (m', none) ∧ m'.pc = i := by
  have hplan : m.easel.plan m.labels s.action = .ok (.jump i) := by
    rw [ha, Easel.plan, hv]
    show (if v = 0 then _ else _) = _
    rw [if_neg hne, (h.labels name i).2 hi]
    rfl
  have hbelow : Machine.reaches m.steps limit = none := by
    cases limit with
    | none => rfl
    | some bound => exact if_neg (Int.not_le.2 (hroom bound rfl))
  refine ⟨(m.begin s).complete (.jump i), ?_, rfl⟩
  rw [Machine.step, h.program, hs]
  simp only [hbelow, hplan]

end Machine

/-- **A machine stays in order** through every session, between the calls and before each statement of
each run: a square canvas of the size it was set up with, no code without a color, a brush of odd size
with the code of its color, each label at its first declaration, and a place in the program or behind
it. A jump that is taken goes on at the label it names, which is never the first statement, and it is
taken if its condition is not zero, its label is declared and there is room for one more statement. -/
theorem session_inOrder {statements : Array Stmt} {n : Nat} {m : Machine}
    (h : m.Session statements n) :
    m.InOrder statements n ∧
      ∀ limit m₁, Machine.Reaches limit m.rewind m₁ →
        m₁.InOrder statements n ∧
          ∀ s name condition v, statements[m₁.pc]? = some s →
            s.action = .goTo name condition → m₁.easel.eval condition = .ok v → v ≠ 0 →
              (∀ m₂, m₁.step limit = (m₂, none) →
                0 < m₂.pc ∧ Program.FirstLabel statements name m₂.pc) ∧
              ((∀ bound, limit = some bound → m₁.steps < bound) →
                ∀ i, Program.FirstLabel statements name i →
                  ∃ m₂, m₁.step limit = (m₂, none) ∧ m₂.pc = i) := by
  refine ⟨h.inOrder, fun limit m₁ hreach => ?_⟩
  have hm₁ : m₁.InOrder statements n := h.inOrder.rewind.reaches hreach
  refine ⟨hm₁, ?_⟩
  intro s name condition v hs ha hv hne
  refine ⟨fun m₂ hstep => ?_, fun hroom i hi => hm₁.exists_jump hs ha hv hne hroom hi⟩
  have hlabel := hm₁.jump hs ha hv hne hstep
  exact ⟨h.firstLabel_pos hlabel, hlabel⟩

/-- A program that paints, jumps back, and declares a label twice. -/
def spinning : Array Stmt :=
  let mark : Mark := ⟨none, none⟩
  let int (n : Int) : Expr := .lit mark (.int n)
  #[⟨mark, .spawn (int 0) (int 0)⟩, ⟨mark, .label "again"⟩, ⟨mark, .color "Red"⟩,
    ⟨mark, .size (int 2)⟩, ⟨mark, .fill⟩, ⟨mark, .goTo "again" (int 1)⟩, ⟨mark, .label "again"⟩]

theorem session_inOrder_spinning :
    ∃ m : Machine, m.Session spinning 3 ∧ m.InOrder spinning 3 ∧
      ∀ limit m₁, Machine.Reaches limit m.rewind m₁ →
        m₁.InOrder spinning 3 ∧
          ∀ s name condition v, spinning[m₁.pc]? = some s →
            s.action = .goTo name condition → m₁.easel.eval condition = .ok v → v ≠ 0 →
              (∀ m₂, m₁.step limit = (m₂, none) →
                0 < m₂.pc ∧ Program.FirstLabel spinning name m₂.pc) ∧
              ((∀ bound, limit = some bound → m₁.steps < bound) →
                ∀ i, Program.FirstLabel spinning name i →
                  ∃ m₂, m₁.step limit = (m₂, none) ∧ m₂.pc = i) := by
  obtain ⟨m, hm⟩ : ∃ m, Machine.new spinning 3 = .ok m := ⟨_, rfl⟩
  have h := ((Machine.Session.fresh hm).run (some 9) 0).paint 1 5
  exact ⟨_, h, session_inOrder h⟩

end Brushwork
