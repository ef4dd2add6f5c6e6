import Brushwork.Machine.Run
import Brushwork.Proofs.Syntax.Part

/-!
The steps of a run.

* `Machine.step_cases`: everything that a step can do.
* `Machine.Reaches`: one machine comes from another by completed steps. `Machine.run_reaches` takes a
  run apart into completed steps and the way it ended.
* `Easel.Kept`: what painting and moving keep, all drawing keeps.
* `Easel.bind_cases`: how a value that is asked for decides what comes next.
* `Easel.Plans`: what each action can plan, and from which values.
* `Program.contains_labelTable`: the labels that a machine knows are those that its program declares.
-/

namespace Brushwork

/-! ### Steps and runs -/

namespace Machine

variable {limit : Option Int} {m m' : Machine}

@[simp] lemma begin_statements (m : Machine) (s : Stmt) : (m.begin s).statements = m.statements := rfl

@[simp] lemma begin_labels (m : Machine) (s : Stmt) : (m.begin s).labels = m.labels := rfl

@[simp] lemma begin_easel (m : Machine) (s : Stmt) : (m.begin s).easel = m.easel := rfl

@[simp] lemma begin_pc (m : Machine) (s : Stmt) : (m.begin s).pc = m.pc := rfl

@[simp] lemma begin_steps (m : Machine) (s : Stmt) : (m.begin s).steps = m.steps := rfl

@[simp] lemma complete_statements (m : Machine) (e : Effect) :
    (m.complete e).statements = m.statements := rfl

@[simp] lemma complete_labels (m : Machine) (e : Effect) : (m.complete e).labels = m.labels := rfl

@[simp] lemma complete_easel (m : Machine) (e : Effect) :
    (m.complete e).easel = e.apply m.easel := rfl

@[simp] lemma complete_pc (m : Machine) (e : Effect) : (m.complete e).pc = e.next m.pc := rfl

@[simp] lemma complete_steps (m : Machine) (e : Effect) : (m.complete e).steps = m.steps + 1 := rfl

/-- A well-formed program can be set up on every canvas that has a cell. -/
lemma exists_new {statements : Array Stmt} (h : Program.WellFormed statements.toList) {size : Int}
    (hsize : 1 ≤ size) : ∃ m, Machine.new statements size = .ok m := by
  rw [Machine.new, h.startsWithSpawn, if_neg (by simp), if_neg (by omega)]
  exact ⟨_, rfl⟩

/-- A fresh machine stands at the first statement of its program and has no variables. -/
lemma new_fresh {statements : Array Stmt} {size : Int} (h : Machine.new statements size = .ok m) :
    m.statements = statements ∧ m.labels = Program.labelTable statements ∧
      m.easel.store = .empty ∧ m.rewind = m := by
  rw [Machine.new] at h
  split at h
  · cases h
  · split at h
    · cases h
    · obtain rfl := Except.ok.inj h
      exact ⟨rfl, rfl, rfl, rfl⟩

lemma new_easel {statements : Array Stmt} {size : Int} (h : Machine.new statements size = .ok m) :
    m.easel = .new size.toNat := by
  rw [Machine.new] at h
  split at h
  · cases h
  · split at h
    · cases h
    · obtain rfl := Except.ok.inj h
      rfl

/-- **Everything a step can do**: find the program at its end, find its limit reached, be stopped by
a fault, or complete a statement. -/
theorem step_cases (limit : Option Int) (m : Machine) :
    (m.statements[m.pc]? = none ∧ m.step limit = (m, some .finished)) ∨
    ∃ s, m.statements[m.pc]? = some s ∧
      ((∃ n, reaches m.steps limit = some n ∧
        m.step limit = (m, some (.stopped (.stepLimit n)))) ∨
      (∃ fault, reaches m.steps limit = none ∧ m.easel.plan m.labels s.action = .error fault ∧
        m.step limit = (m.begin s, some (.stopped fault))) ∨
      ∃ effect, reaches m.steps limit = none ∧ m.easel.plan m.labels s.action = .ok effect ∧
        m.step limit = ((m.begin s).complete effect, none)) := by
  rw [step]
  cases hs : m.statements[m.pc]? with
  | none => exact .inl ⟨rfl, rfl⟩
  | some s =>
      refine .inr ⟨s, rfl, ?_⟩
      dsimp only
      cases hl : reaches m.steps limit with
      | some n => exact .inl ⟨n, rfl, rfl⟩
      | none =>
          dsimp only
          cases hp : m.easel.plan m.labels s.action with
          | error fault => exact .inr (.inl ⟨fault, rfl, rfl, rfl⟩)
          | ok effect => exact .inr (.inr ⟨effect, rfl, rfl, rfl⟩)

/-- A completed step carries out the statement it stands at. -/
lemma step_completed (h : m.step limit = (m', none)) :
    ∃ s effect, m.statements[m.pc]? = some s ∧ m.easel.plan m.labels s.action = .ok effect ∧
      m' = (m.begin s).complete effect := by
  obtain ⟨-, hend⟩ | ⟨s, hs, ⟨n, -, hstep⟩ | ⟨fault, -, -, hstep⟩ | ⟨effect, -, hp, hstep⟩⟩ :=
    step_cases limit m
  · simp [hend] at h
  · simp [hstep] at h
  · simp [hstep] at h
  · rw [hstep] at h
    exact ⟨s, effect, hs, hp, (Prod.mk.inj h).1.symm⟩

/-- A step that ends the run has begun its statement at most. -/
lemma step_ended {ending : Ending} (h : m.step limit = (m', some ending)) :
    m' = m ∨ ∃ s, m.statements[m.pc]? = some s ∧ m' = m.begin s := by
  obtain ⟨-, he⟩ | ⟨s, hs, ⟨n, -, he⟩ | ⟨fault, -, -, he⟩ | ⟨effect, -, -, he⟩⟩ :=
    step_cases limit m
  · rw [he] at h
    exact .inl (Prod.mk.inj h).1.symm
  · rw [he] at h
    exact .inl (Prod.mk.inj h).1.symm
  · rw [he] at h
    exact .inr ⟨s, hs, (Prod.mk.inj h).1.symm⟩
  · simp [he] at h

/-- The second machine comes from the first by completed steps. -/
inductive Reaches (limit : Option Int) : Machine → Machine → Prop
  | refl (m : Machine) : Reaches limit m m
  | step {m m₁ m₂ : Machine} (h : m.step limit = (m₁, none)) (h' : Reaches limit m₁ m₂) :
      Reaches limit m m₂

/-- What completed steps keep, a run keeps as far as it goes. -/
lemma Reaches.keeps {P : Machine → Prop} (hP : ∀ m m', m.step limit = (m', none) → P m → P m')
    (h : Reaches limit m m') (hm : P m) : P m' := by
  induction h with
  | refl m => exact hm
  | step h _ ih => exact ih (hP _ _ h hm)

/-- **A run** is a row of completed steps, and then patience is at its end or a step ends it. -/
theorem run_reaches (limit : Option Int) (patience : Nat) (m : Machine) :
    ∃ m₁, Reaches limit m m₁ ∧
      (run limit patience m = (m₁, .unfinished) ∨
        ∃ m' ending, m₁.step limit = (m', some ending) ∧
          run limit patience m = (m', ending)) := by
  induction patience generalizing m with
  | zero => exact ⟨m, .refl m, .inl rfl⟩
  | succ patience ih =>
      rw [run]
      cases hstep : m.step limit with
      | mk m' ending =>
          cases ending with
          | some ending => exact ⟨m, .refl m, .inr ⟨m', ending, hstep, rfl⟩⟩
          | none =>
              obtain ⟨m₁, hr, h⟩ := ih m'
              exact ⟨m₁, .step hstep hr, h⟩

/-- **A run that a fault stops** has come to a statement, and to its limit or to something that cannot
be carried out. -/
theorem run_stops {patience : Nat} {fault : Fault}
    (h : run limit patience m = (m', .stopped fault)) :
    ∃ m₁ s, Reaches limit m m₁ ∧ m₁.statements[m₁.pc]? = some s ∧
      ((∃ n, reaches m₁.steps limit = some n ∧ fault = .stepLimit n ∧ m' = m₁) ∨
        (m₁.easel.plan m₁.labels s.action = .error fault ∧ m' = m₁.begin s)) := by
  obtain ⟨m₁, hr, hend | ⟨m₂, ending, hstep, hrun⟩⟩ := run_reaches limit patience m
  · simp [hend] at h
  · rw [hrun] at h
    obtain ⟨rfl, rfl⟩ := Prod.mk.inj h
    obtain ⟨-, he⟩ | ⟨s, hs, ⟨n, hn, he⟩ | ⟨f, -, hp, he⟩ | ⟨effect, -, -, he⟩⟩ :=
      step_cases limit m₁
    · simp [he] at hstep
    · rw [he] at hstep
      obtain ⟨rfl, hf⟩ := Prod.mk.inj hstep
      exact ⟨m₁, s, hr, hs, .inl ⟨n, hn, (Ending.stopped.inj (Option.some.inj hf)).symm, rfl⟩⟩
    · rw [he] at hstep
      obtain ⟨rfl, hf⟩ := Prod.mk.inj hstep
      obtain rfl := Ending.stopped.inj (Option.some.inj hf)
      exact ⟨m₁, s, hr, hs, .inr ⟨hp, rfl⟩⟩
    · simp [he] at hstep

lemma run_stopped {patience : Nat} {fault : Fault}
    (h : run limit patience m = (m', .stopped fault)) :
    ∃ m₁, Reaches limit m m₁ ∧ ((∃ n, fault = .stepLimit n ∧ m' = m₁) ∨
      ∃ s, m₁.statements[m₁.pc]? = some s ∧ m₁.easel.plan m₁.labels s.action = .error fault ∧
        m' = m₁.begin s) := by
  obtain ⟨m₁, s, hr, hs, ⟨n, -, hlimit⟩ | hplan⟩ := run_stops h
  · exact ⟨m₁, hr, .inl ⟨n, hlimit⟩⟩
  · exact ⟨m₁, hr, .inr ⟨s, hs, hplan⟩⟩

/-- The program of a machine stays what it is. -/
lemma Reaches.program (h : Reaches limit m m') :
    m'.statements = m.statements ∧ m'.labels = m.labels := by
  refine h.keeps (P := fun n => n.statements = m.statements ∧ n.labels = m.labels) ?_ ⟨rfl, rfl⟩
  rintro n n' hstep ⟨hs, hl⟩
  obtain ⟨s, effect, -, -, rfl⟩ := step_completed hstep
  simp [hs, hl]

end Machine

/-! ### Drawing -/

namespace Easel

/-- The property is kept by painting at a place and by moving the cursor. -/
structure Kept (P : Easel → Prop) : Prop where
  paint : ∀ e x y, P e → P (e.paint x y)
  move : ∀ e x y, P e → P { e with x := x, y := y }

variable {P : Easel → Prop} {e : Easel}

lemma Kept.walk (hP : Kept P) (h : P e) (dx dy : Int) (n : Nat) : P (walk dx dy n e) := by
  induction n generalizing e with
  | zero => exact h
  | succ n ih => exact ih (hP.paint _ _ _ (hP.move e _ _ h))

lemma Kept.drawLine (hP : Kept P) (h : P e) (dx dy : Int) (n : Nat) : P (e.drawLine dx dy n) :=
  hP.walk (hP.paint e e.x e.y h) dx dy n

lemma Kept.paintAround (hP : Kept P) (h : P e) (cx cy : Int) (places : List (Int × Int)) :
    P (paintAround cx cy places e) := by
  induction places generalizing e with
  | nil => exact h
  | cons place places ih => exact ih (hP.paint e _ _ h)

lemma Kept.paintColumn (hP : Kept P) (h : P e) (x y : Int) (n : Nat) : P (paintColumn x y n e) := by
  induction n generalizing y e with
  | zero => exact h
  | succ n ih => exact ih (hP.paint e x y h) (y + 1)

lemma Kept.paintColumns (hP : Kept P) (h : P e) (x y : Int) (height width : Nat) :
    P (paintColumns x y height width e) := by
  induction width generalizing x e with
  | zero => exact h
  | succ width ih => exact ih (hP.paintColumn h x y height) (x + 1)

end Easel

/-! ### Values asked for -/

/-- Asking for the value of `e` and going on with `f` ends at `e`, by its fault, or behind it. -/
lemma Easel.bind_cases {α : Type} {easel : Easel} {e : Expr} {f : Int → Except Fault α}
    {r : Except Fault α} (h : (easel.eval e >>= f) = r) :
    (∃ fault, easel.eval e = .error fault ∧ r = .error fault) ∨
      ∃ v, easel.eval e = .ok v ∧ f v = r := by
  cases he : easel.eval e with
  | error fault =>
      rw [he] at h
      exact .inl ⟨fault, rfl, h.symm⟩
  | ok v =>
      rw [he] at h
      exact .inr ⟨v, rfl, h⟩

lemma Easel.bind_value {α : Type} {easel : Easel} {e : Expr} {f : Int → Except Fault α} {r : α}
    (h : (easel.eval e >>= f) = .ok r) : ∃ v, easel.eval e = .ok v ∧ f v = .ok r := by
  rcases bind_cases h with ⟨fault, -, hfault⟩ | hvalue
  · cases hfault
  · exact hvalue

/-! ### Plans -/

namespace Easel

variable {easel : Easel} {labels : Table Nat}

/-- The effects that actions can plan, each with the values it is planned from. -/
inductive Plans (easel : Easel) (labels : Table Nat) : Action → Effect → Prop
  | spawn {x y : Expr} {a b : Int} (hx : easel.eval x = .ok a) (hy : easel.eval y = .ok b)
      (h : easel.canvas.contains a b = true) : Plans easel labels (.spawn x y) (.moveTo a b)
  | color {name : String} : Plans easel labels (.color name) (.pickColor name)
  | size {e : Expr} {size : Int} (he : easel.eval e = .ok size) (h : 0 < size) :
      Plans easel labels (.size e) (.pickSize size)
  | drawLine {x y distance : Expr} {dx dy d : Int} (hx : easel.eval x = .ok dx)
      (hy : easel.eval y = .ok dy) (hd : easel.eval distance = .ok d) :
      Plans easel labels (.drawLine x y distance) (.line dx dy d.toNat)
  | drawCircle {x y radius : Expr} {dx dy r : Int} {places : List (Int × Int)}
      (hx : easel.eval x = .ok dx) (hy : easel.eval y = .ok dy) (hr : easel.eval radius = .ok r)
      (h : circle? r = some places) :
      Plans easel labels (.drawCircle x y radius)
        (.around (easel.x + dx * r) (easel.y + dy * r) places)
  | drawRectangle {x y distance width height : Expr} {dx dy d w h : Int}
      (hx : easel.eval x = .ok dx) (hy : easel.eval y = .ok dy) (hd : easel.eval distance = .ok d)
      (hw : easel.eval width = .ok w) (hh : easel.eval height = .ok h) :
      Plans easel labels (.drawRectangle x y distance width height)
        (.block (easel.x + dx * d) (easel.y + dy * d) w.toNat h.toNat)
  | fill (h : easel.canvas.contains easel.x easel.y = true) : Plans easel labels .fill .flood
  | assign {name : String} {e : Expr} {v : Int} (he : easel.eval e = .ok v) :
      Plans easel labels (.assign name e) (.assign name v)
  | label {name : String} : Plans easel labels (.label name) .nothing
  | pass {name : String} {condition : Expr} (h : easel.eval condition = .ok 0) :
      Plans easel labels (.goTo name condition) .nothing
  | jump {name : String} {condition : Expr} {v : Int} {target : Nat}
      (h : easel.eval condition = .ok v) (hv : v ≠ 0) (ht : labels.find? name = some target) :
      Plans easel labels (.goTo name condition) (.jump target)

/-- **Everything an action can plan.** -/
theorem plans_of_plan {a : Action} {effect : Effect} (h : easel.plan labels a = .ok effect) :
    Plans easel labels a effect := by
  cases a with
  | spawn x y =>
      obtain ⟨u, hu, h⟩ := bind_value h
      obtain ⟨v, hv, h⟩ := bind_value h
      split at h
      · next hin =>
        obtain rfl := Except.ok.inj h
        exact .spawn hu hv hin
      · cases h
  | color name =>
      obtain rfl := Except.ok.inj h
      exact .color
  | size e =>
      obtain ⟨u, hu, h⟩ := bind_value h
      split at h
      · cases h
      · next hpos =>
        obtain rfl := Except.ok.inj h
        exact .size hu (by omega)
  | drawLine dx dy distance =>
      obtain ⟨u, hu, h⟩ := bind_value h
      obtain ⟨v, hv, h⟩ := bind_value h
      obtain ⟨d, hd, h⟩ := bind_value h
      obtain rfl := Except.ok.inj h
      exact .drawLine hu hv hd
  | drawCircle dx dy radius =>
      obtain ⟨u, hu, h⟩ := bind_value h
      obtain ⟨v, hv, h⟩ := bind_value h
      obtain ⟨r, hr, h⟩ := bind_value h
      split at h
      · next places hplaces =>
        obtain rfl := Except.ok.inj h
        exact .drawCircle hu hv hr hplaces
      · cases h
  | drawRectangle dx dy distance width height =>
      obtain ⟨u, hu, h⟩ := bind_value h
      obtain ⟨v, hv, h⟩ := bind_value h
      obtain ⟨d, hd, h⟩ := bind_value h
      obtain ⟨w, hw, h⟩ := bind_value h
      obtain ⟨k, hk, h⟩ := bind_value h
      obtain rfl := Except.ok.inj h
      exact .drawRectangle hu hv hd hw hk
  | fill =>
      rw [plan] at h
      split at h
      · next hin =>
        obtain rfl := Except.ok.inj h
        exact .fill hin
      · cases h
  | assign name e =>
      obtain ⟨u, hu, h⟩ := bind_value h
      obtain rfl := Except.ok.inj h
      exact .assign hu
  | label name =>
      obtain rfl := Except.ok.inj h
      exact .label
  | goTo name condition =>
      obtain ⟨u, hu, h⟩ := bind_value h
      split at h
      · next hzero =>
        obtain rfl := Except.ok.inj h
        rw [hzero] at hu
        exact .pass hu
      · next hne =>
        split at h
        · next target ht =>
          obtain rfl := Except.ok.inj h
          exact .jump hu hne ht
        · cases h
  | foreign form => cases h

end Easel

/-! ### Labels -/

namespace Program

lemma contains_labelsFrom {index : Nat} {labels : Table Nat} {ss : List Stmt} {name : String} :
    (labelsFrom index labels ss).contains name = true ↔
      labels.contains name = true ∨ name ∈ labelNames ss := by
  induction ss generalizing index labels with
  | nil => simp [labelsFrom, labelNames]
  | cons s ss ih =>
      rw [labelsFrom]
      cases hs : s.action.label? with
      | none => simp [ih, labelNames, hs]
      | some other =>
          have hnames : labelNames (s :: ss) = other :: labelNames ss := by simp [labelNames, hs]
          rw [ih, hnames, List.mem_cons, ← or_assoc]
          refine or_congr_left ?_
          by_cases hother : labels.contains other = true
          · rw [if_pos hother]
            refine ⟨.inl, ?_⟩
            rintro (h | rfl)
            · exact h
            · exact hother
          · rw [if_neg hother, Table.contains, Table.find?_put]
            by_cases hname : name = other <;> simp [hname, Table.contains]

/-- **The labels that a machine knows** are those that its program declares. -/
theorem contains_labelTable {ss : Array Stmt} {name : String} :
    (labelTable ss).contains name = true ↔ name ∈ labelNames ss.toList := by
  rw [labelTable, contains_labelsFrom]
  exact or_iff_right Bool.false_ne_true

end Program

end Brushwork
