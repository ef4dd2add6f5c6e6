import Brushwork.Proofs.Machine.Stepping

/-!
A statement has its whole effect or none.

Planning and applying are two parts by definition. Here a statement is carried out in one go, with
the easel changing under its hands and a fault leaving it as it is at that moment:

* `Easel.carryOut`: values are asked for and the easel is changed in the order in which the statement
  does it. A circle may find its radius too large at each of its strokes.
* `Easel.carryOut_eq`: this comes to planning first and applying then, so nothing is changed before
  the last point at which a statement can fail.
* `Machine.after`: the machine when a number of statements has been carried out in this way.
* `execute_atomic`: a run that is stopped leaves behind what its completed statements did.
-/

namespace Brushwork

/-- Where the effect sends the run, if not to the next statement. -/
def Effect.target? : Effect → Option Nat
  | jump target => some target
  | _ => none

lemma Effect.next_eq (effect : Effect) (pc : Nat) : effect.next pc = effect.target?.getD (pc + 1) := by
  cases effect <;> rfl

namespace Easel

/-! ### Statements carried out in one go -/

/-- Asks for the value of an expression. -/
def ask (e : Expr) : EStateM Fault Easel Int := fun easel =>
  match easel.eval e with
  | .ok v => .ok v easel
  | .error fault => .error fault easel

/-- The place of a circle at an angle, from its middle. -/
def circlePlace (r : Float) (angle : Nat) : Int × Int :=
  let a := Float.ofNat angle * degree
  (Binary64.truncate (r * Float.cos a), Binary64.truncate (r * Float.sin a))

/-- One stroke of a circle: the radius is taken as a floating-point number, if it is not too large
for one, and the place is painted. -/
def stroke (radius : Option Float) (cx cy : Int) (angle : Nat) : EStateM Fault Easel Unit :=
  match radius with
  | some r =>
    let place := circlePlace r angle
    modify fun easel => easel.paint (cx + place.1) (cy + place.2)
  | none => throw .radiusTooLarge

/-- One stroke of a circle after the other. -/
def strokes (radius : Option Float) (cx cy : Int) : List Nat → EStateM Fault Easel Unit
  | [] => return ()
  | angle :: angles => do
    stroke radius cx cy angle
    strokes radius cx cy angles

/-- Carries out an action. The outcome is where the action sends the run, if not to the next
statement. -/
def carryOut (labels : Table Nat) : Action → EStateM Fault Easel (Option Nat)
  | .spawn x y => do
    let x ← ask x
    let y ← ask y
    let easel ← get
    if easel.canvas.contains x y then
      set { easel with x := x, y := y }
      return none
    else throw (.spawnOutside x y)
  | .color name => do
    modify fun easel => easel.pickColor name
    return none
  | .size e => do
    let size ← ask e
    if size ≤ 0 then throw .sizeNotPositive
    else
      modify fun easel => easel.pickSize size
      return none
  | .drawLine dx dy distance => do
    let dx ← ask dx
    let dy ← ask dy
    let steps ← ask distance
    modify fun easel => easel.paint easel.x easel.y
    modify fun easel => walk dx dy steps.toNat easel
    return none
  | .drawCircle dx dy radius => do
    let dx ← ask dx
    let dy ← ask dy
    let radius ← ask radius
    let easel ← get
    let cx := easel.x + dx * radius
    let cy := easel.y + dy * radius
    strokes (Binary64.ofInt? radius) cx cy (List.range circlePlaces)
    return none
  | .drawRectangle dx dy distance width height => do
    let dx ← ask dx
    let dy ← ask dy
    let distance ← ask distance
    let width ← ask width
    let height ← ask height
    let easel ← get
    let x := easel.x + dx * distance
    let y := easel.y + dy * distance
    modify fun easel => paintColumns x y height.toNat width.toNat easel
    return none
  | .fill => do
    let easel ← get
    if easel.canvas.contains easel.x easel.y then
      set easel.fill
      return none
    else throw (.cursorOutside easel.x easel.y)
  | .assign name e => do
    let v ← ask e
    modify fun easel => easel.assign name v
    return none
  | .label _ => return none
  | .goTo label condition => do
    let v ← ask condition
    if v = 0 then return none
    else
      match labels.find? label with
      | some target => return some target
      | none => throw (.undefinedLabel label)
  | .foreign form => throw (.unknownStatement form)

/-! ### Planned or in one go -/

variable {easel : Easel}

/-- What becomes of an easel once a plan is made: all of its effect, or nothing but the fault. -/
def settle (easel : Easel) : Except Fault Effect → EStateM.Result Fault Easel (Option Nat)
  | .ok effect => .ok effect.target? (effect.apply easel)
  | .error fault => .error fault easel

/-- Asking for a value changes nothing, so what is planned behind it may be settled behind it. -/
lemma ask_settle {e : Expr} {f : Int → EStateM Fault Easel (Option Nat)}
    {g : Int → Except Fault Effect} (h : ∀ v, (f v).run easel = easel.settle (g v)) :
    (ask e >>= f).run easel = easel.settle (easel.eval e >>= g) := by
  cases he : easel.eval e with
  | ok v =>
      have hask : (ask e >>= f).run easel = (f v).run easel := by
        simp [ask, bind, EStateM.bind, EStateM.run, he]
      rw [hask]
      exact h v
  | error fault => simp [ask, bind, EStateM.bind, EStateM.run, he, Except.bind, settle]

lemma strokes_some (r : Float) (cx cy : Int) (angles : List Nat) :
    (strokes (some r) cx cy angles).run easel =
      .ok () (paintAround cx cy (angles.map (circlePlace r)) easel) := by
  induction angles generalizing easel with
  | nil => rfl
  | cons angle angles ih =>
      rw [strokes, EStateM.run_bind]
      exact ih

/-- A radius that is too large is found out before the first stroke is painted. -/
lemma strokes_none (cx cy : Int) {angles : List Nat} (h : angles ≠ []) :
    (strokes none cx cy angles).run easel = .error .radiusTooLarge easel := by
  obtain ⟨angle, angles, rfl⟩ := List.exists_cons_of_ne_nil h
  rfl

lemma circle?_eq (radius : Int) :
    circle? radius =
      (Binary64.ofInt? radius).map fun r => (List.range circlePlaces).map (circlePlace r) := rfl

lemma get_bind (f : Easel → EStateM Fault Easel (Option Nat)) :
    (get >>= f).run easel = (f easel).run easel := rfl

/-- **Carrying out an action** comes to making its plan and applying it: no value is asked for, and
no other fault can arise, once the easel has been touched. -/
theorem carryOut_eq (labels : Table Nat) (a : Action) (easel : Easel) :
    (carryOut labels a).run easel = easel.settle (easel.plan labels a) := by
  cases a with
  | spawn x y =>
      refine ask_settle fun u => ask_settle fun v => ?_
      rw [get_bind]
      by_cases hin : easel.canvas.contains u v = true
      · rw [if_pos hin, if_pos hin]
        rfl
      · rw [if_neg hin, if_neg hin]
        rfl
  | color name => rfl
  | size e =>
      refine ask_settle fun size => ?_
      by_cases hsize : size ≤ 0
      · rw [if_pos hsize, if_pos hsize]
        rfl
      · rw [if_neg hsize, if_neg hsize]
        rfl
  | drawLine dx dy distance => exact ask_settle fun _ => ask_settle fun _ => ask_settle fun _ => rfl
  | drawCircle dx dy radius =>
      refine ask_settle fun u => ask_settle fun v => ask_settle fun radius => ?_
      rw [get_bind, circle?_eq]
      generalize Binary64.ofInt? radius = r
      cases r with
      | none =>
          have hangles : List.range circlePlaces ≠ [] := by decide
          rw [EStateM.run_bind, strokes_none _ _ hangles]
          rfl
      | some r =>
          rw [EStateM.run_bind, strokes_some]
          rfl
  | drawRectangle dx dy distance width height =>
      exact ask_settle fun _ => ask_settle fun _ => ask_settle fun _ => ask_settle fun _ =>
        ask_settle fun _ => rfl
  | fill =>
      rw [carryOut, plan, get_bind]
      by_cases hin : easel.canvas.contains easel.x easel.y = true
      · rw [if_pos hin, if_pos hin]
        rfl
      · rw [if_neg hin, if_neg hin]
        rfl
  | assign name e => exact ask_settle fun _ => rfl
  | label name => rfl
  | goTo name condition =>
      refine ask_settle fun v => ?_
      by_cases hv : v = 0
      · rw [if_pos hv, if_pos hv]
        rfl
      · rw [if_neg hv, if_neg hv]
        cases labels.find? name <;> rfl
  | foreign form => rfl

end Easel

/-! ### Runs -/

namespace Machine

variable {limit : Option Int} {m m' : Machine}

/-- The machine when the statement at its place has been carried out; none if there is no statement
or it fails. -/
def advance? (m : Machine) : Option Machine :=
  match m.statements[m.pc]? with
  | none => none
  | some s =>
    match (Easel.carryOut m.labels s.action).run m.easel with
    | .ok target easel =>
      some { m with
        easel := easel
        pc := target.getD (m.pc + 1)
        steps := m.steps + 1
        line := s.mark.line }
    | .error _ _ => none

/-- The machine when a number of statements has been carried out, one after the other; none if one of
them is missing or fails. -/
def after : Nat → Machine → Option Machine
  | 0, m => some m
  | k + 1, m => m.advance?.bind (after k)

lemma advance?_of_step (h : m.step limit = (m', none)) : m.advance? = some m' := by
  obtain ⟨s, effect, hs, hplan, rfl⟩ := step_completed h
  rw [advance?, hs]
  simp only [Easel.carryOut_eq, hplan, Easel.settle, ← Effect.next_eq]
  rfl

/-- Completed steps count the statements that were carried out. -/
lemma Reaches.after (h : Reaches limit m m') :
    ∃ k, m'.steps = m.steps + k ∧ Machine.after k m = some m' := by
  induction h with
  | refl m => exact ⟨0, rfl, rfl⟩
  | @step m m₁ m₂ hstep _ ih =>
      obtain ⟨k, hk, hafter⟩ := ih
      have hsteps : m₁.steps = m.steps + 1 := by
        obtain ⟨s, effect, -, -, rfl⟩ := step_completed hstep
        simp
      refine ⟨k + 1, by omega, ?_⟩
      rw [Machine.after, advance?_of_step hstep]
      exact hafter

lemma le_of_reaches {steps : Nat} {n : Int} (h : reaches steps limit = some n) :
    limit = some n ∧ n ≤ steps := by
  cases limit with
  | none => cases h
  | some k =>
      rw [reaches] at h
      split at h
      · next hle =>
        obtain rfl := Option.some.inj h
        exact ⟨rfl, hle⟩
      · cases h

end Machine

/-- **A run that is stopped** leaves behind exactly what its completed statements did, whatever state
it began in: the machine stands at the statement that failed or was to come next, and its canvas,
colors, brush, cursor and variables are those behind the statements that it counts. The statement that
failed, carried out in one go, leaves them as they are. -/
theorem execute_atomic {m m' : Machine} {limit : Option Int} {patience : Nat} {fault : Fault}
    (h : m.execute limit patience = (m', .stopped fault)) :
    ∃ m₁ s, Machine.after m'.steps m.rewind = some m₁ ∧ m'.easel = m₁.easel ∧ m'.pc = m₁.pc ∧
      m.statements[m'.pc]? = some s ∧
        ((∃ n : Int, limit = some n ∧ n ≤ m'.steps ∧ fault = .stepLimit n) ∨
          (Easel.carryOut m.labels s.action).run m₁.easel = .error fault m'.easel) := by
  obtain ⟨m₁, s, hreach, hs, hend⟩ := Machine.run_stops h
  obtain ⟨k, hk, hafter⟩ := hreach.after
  have hcount : m₁.steps = k := by rw [hk, Machine.rewind, Nat.zero_add]
  rw [hreach.program.1] at hs
  refine ⟨m₁, s, ?_⟩
  rcases hend with ⟨n, hn, rfl, rfl⟩ | ⟨hplan, rfl⟩
  · obtain ⟨hlimit, hle⟩ := Machine.le_of_reaches hn
    rw [hcount]
    exact ⟨hafter, rfl, rfl, hs, .inl ⟨n, hlimit, by omega, rfl⟩⟩
  · rw [Machine.begin_steps, hcount]
    refine ⟨hafter, rfl, rfl, hs, .inr ?_⟩
    rw [Easel.carryOut_eq, ← show m₁.labels = m.labels from hreach.program.2, hplan]
    rfl

/-- A program that paints, and then draws a circle with a radius that has become too large. -/
def swelling : Array Stmt :=
  let mark : Mark := ⟨none, none⟩
  let int (n : Int) : Expr := .lit mark (.int n)
  let r : Expr := .var mark "r"
  #[⟨mark, .spawn (int 0) (int 0)⟩, ⟨mark, .color "Red"⟩, ⟨mark, .drawLine (int 1) (int 0) (int 1)⟩,
    ⟨mark, .assign "r" (int 2147483647)⟩] ++
  Array.replicate 6 ⟨mark, .assign "r" (.binary mark r "*" r)⟩ ++
  #[⟨mark, .drawCircle (int 1) (int 0) r⟩]

theorem execute_atomic_swelling :
    ∃ m m', Machine.new swelling 2 = .ok m ∧
      m.execute (some 20) 0 = (m', .stopped .radiusTooLarge) ∧
      ∃ m₁ s, Machine.after m'.steps m.rewind = some m₁ ∧ m'.easel = m₁.easel ∧ m'.pc = m₁.pc ∧
        m.statements[m'.pc]? = some s ∧
          ((∃ n : Int, some 20 = some n ∧ n ≤ m'.steps ∧ Fault.radiusTooLarge = .stepLimit n) ∨
            (Easel.carryOut m.labels s.action).run m₁.easel = .error .radiusTooLarge m'.easel) := by
  obtain ⟨m, hm, hend⟩ : ∃ m, Machine.new swelling 2 = .ok m ∧
      (m.execute (some 20) 0).2 = .stopped .radiusTooLarge := ⟨_, rfl, by decide +kernel⟩
  have hrun : m.execute (some 20) 0 = ((m.execute (some 20) 0).1, .stopped .radiusTooLarge) := by
    rw [← hend]
  exact ⟨m, _, hm, hrun, execute_atomic hrun⟩

end Brushwork
