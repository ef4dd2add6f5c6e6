import Brushwork.Proofs.Machine.Faults
import Brushwork.Proofs.Machine.Session
import Brushwork.Proofs.Machine.Truth

/-!
Variables are assigned before they are read.

The check follows the order of the text, a run follows its jumps. If jumps lead back only, a run has
carried out every statement that stands before the one it comes to, so that each variable the check
has seen an assignment to has a value:

* `Easel.eval_undefined` and `Easel.Asks.clean`: a variable without a value stops an expression only
  where the expression asks for it, and what it asks for has been checked.
* `Machine.Stocked`: the variables that are assigned before the place of a machine have values.
  `Machine.Stocked.step` keeps it through every step of a program that jumps back only.
* `assigned_before_read`: no run of such a program, if it is accepted, is stopped by a variable.
-/

namespace Brushwork

open Check

/-! ### What programs assign to -/

namespace Program

/-- No label stands behind a jump to it. -/
def JumpsBack (statements : Array Stmt) : Prop :=
  ∀ i j : Fin statements.size, ∀ name ∈ statements[i].action.target?,
    statements[j].action.label? = some name → j ≤ i

instance (statements : Array Stmt) : Decidable (JumpsBack statements) :=
  inferInstanceAs (Decidable (∀ i j : Fin statements.size, ∀ name ∈ statements[i].action.target?,
    statements[j].action.label? = some name → j ≤ i))

lemma JumpsBack.le {statements : Array Stmt} (h : JumpsBack statements) {i j : Nat} {s : Stmt}
    {name : String} {condition : Expr} (hs : statements[i]? = some s)
    (ha : s.action = .goTo name condition) (hlabel : FirstLabel statements name j) : j ≤ i := by
  obtain ⟨t, ht, hname⟩ := hlabel.declares
  obtain ⟨hi, rfl⟩ := Array.getElem?_eq_some_iff.1 hs
  obtain ⟨hj, rfl⟩ := Array.getElem?_eq_some_iff.1 ht
  exact h ⟨i, hi⟩ ⟨j, hj⟩ name (by simp [ha, Action.target?]) (by simp [hname, Action.label?])

/-- A statement of the row gives that variable a value. -/
def Assigns (ss : List Stmt) (name : String) : Prop := ∃ s ∈ ss, ∃ e, s.action = .assign name e

/-- A variable that has a type behind a row of statements had one before, or is assigned to. -/
lemma assigns_of_typesAfter {types : Table Ty} {ss : List Stmt} {name : String} {ty : Ty}
    (h : (typesAfter types ss).find? name = some ty) :
    (∃ ty', types.find? name = some ty') ∨ Assigns ss name := by
  induction ss generalizing types with
  | nil => exact .inl ⟨ty, h⟩
  | cons s ss ih =>
      rcases @ih (retype types s.action) h with ⟨ty', hty⟩ | ⟨t, ht, hassign⟩
      · cases ha : s.action with
        | assign other e =>
            rw [ha, retype, Table.find?_put] at hty
            by_cases hname : name = other
            · exact .inr ⟨s, List.mem_cons_self, e, by rw [ha, hname]⟩
            · rw [if_neg hname] at hty
              exact .inl ⟨ty', hty⟩
        | _ =>
            rw [ha] at hty
            exact .inl ⟨ty', hty⟩
      · exact .inr ⟨t, List.mem_cons_of_mem s ht, hassign⟩

end Program

/-! ### Reading variables -/

namespace Easel

variable {easel : Easel}

/-- **A variable without a value** stops an expression where the expression asks for it. -/
theorem eval_undefined {e : Expr} {name : String} (hfit : e.All Expr.CallFits)
    (h : easel.eval e = .error (.undefinedVariable name)) :
    easel.store.find? name = none ∧ ∃ m, easel.Asks e (.var m name) := by
  induction e using Expr.ind with
  | lit m v => cases v <;> simp [eval] at h
  | var m other =>
      rw [eval] at h
      split at h
      · cases h
      · next hnone =>
        obtain rfl := Fault.undefinedVariable.inj (Except.error.inj h)
        exact ⟨hnone, m, .self _⟩
  | group m e ih =>
      rw [eval] at h
      obtain ⟨hnone, m', hasks⟩ := ih (Expr.all_group.1 hfit).2 h
      exact ⟨hnone, m', .group hasks⟩
  | binary m l symbol r ihl ihr =>
      obtain ⟨-, hfitl, hfitr⟩ := Expr.all_binary.1 hfit
      rw [eval] at h
      rcases bind_error h with hl | ⟨a, ha, h⟩
      · obtain ⟨hnone, m', hasks⟩ := ihl hfitl hl
        exact ⟨hnone, m', .left hasks⟩
      rcases bind_error h with hr | ⟨b, -, h⟩
      · obtain ⟨hnone, m', hasks⟩ := ihr hfitr hr
        exact ⟨hnone, m', .right ha hasks⟩
      split at h
      · rcases apply_error h with hfault | hfault | hfault <;> cases hfault
      · cases h
  | call m word args ih =>
      obtain ⟨⟨b, hb, harity⟩, hfits⟩ := Expr.all_call.1 hfit
      rw [eval, hb, evalEach_eq_map] at h
      obtain ⟨a, hturn, hfault⟩ := query_error harity h
      have ha : a ∈ args := Builtin.mem_of_mem_numbers hturn.mem
      obtain ⟨hnone, m', hasks⟩ := ih a ha (hfits a ha) hfault
      exact ⟨hnone, m', .argument hb hturn hasks⟩
  | foreign m form => cases h

/-- What an expression without complaints asks for has no complaints either, unless it is a text. -/
lemma Asks.clean {types : Table Ty} {e a : Expr} (h : easel.Asks e a)
    (hclean : (typing types e).complaints = []) (ha : a.textLiteral? = none) :
    (typing types a).complaints = [] := by
  induction h with
  | self e => exact hclean
  | group _ ih =>
      rw [typing] at hclean
      exact ih hclean ha
  | left _ ih =>
      rw [typing] at hclean
      obtain ⟨-, -, -, hl, -⟩ := binaryTyping_eq_nil hclean
      exact ih hl ha
  | right _ _ ih =>
      rw [typing] at hclean
      obtain ⟨-, -, -, -, hr⟩ := binaryTyping_eq_nil hclean
      exact ih hr ha
  | argument hb hturn hasks ih =>
      refine ih (complaints_of_argument hclean (Builtin.mem_of_mem_numbers hturn.mem) ?_) ha
      -- inside a text nothing is asked for but the text itself
      rw [Option.eq_none_iff_forall_ne_some]
      intro text htext
      obtain ⟨m, rfl⟩ := eq_lit_of_textLiteral? htext
      cases hasks
      simp [Expr.textLiteral?] at ha

end Easel

/-! ### Runs -/

namespace Machine

variable {limit : Option Int} {m m' : Machine}

/-- Every variable that a statement before the place of the machine assigns to has a value. -/
def Stocked (m : Machine) : Prop :=
  ∀ name, Program.Assigns (m.statements.toList.take m.pc) name →
    ∃ v, m.easel.store.find? name = some v

/-- No effect takes a variable its value. -/
lemma find?_store_apply (effect : Effect) {easel : Easel} {name : String} {v : Int}
    (h : easel.store.find? name = some v) : ∃ w, (effect.apply easel).store.find? name = some w := by
  rcases Easel.store_apply effect easel with hsame | ⟨other, w, -, hput⟩
  · exact ⟨v, by rw [hsame, h]⟩
  · rw [hput, Table.find?_put]
    by_cases hname : name = other
    · exact ⟨w, if_pos hname⟩
    · exact ⟨v, by rw [if_neg hname, h]⟩

/-- A statement that assigns to a variable leaves it with a value. -/
lemma find?_store_of_assign {easel : Easel} {labels : Table Nat} {name : String} {e : Expr}
    {effect : Effect} (h : easel.plan labels (.assign name e) = .ok effect) :
    ∃ v, (effect.apply easel).store.find? name = some v := by
  cases Easel.plans_of_plan h with
  | @assign _ _ v _ => exact ⟨v, by simp [Effect.apply, Easel.assign, Table.find?_put]⟩

/-- Where jumps lead back only, a run goes on right behind a statement or not behind it at all. -/
lemma InOrder.next_back {statements : Array Stmt} {n : Nat} (hback : Program.JumpsBack statements)
    (horder : m.InOrder statements n) {s : Stmt} {effect : Effect}
    (hs : m.statements[m.pc]? = some s) (hplan : m.easel.plan m.labels s.action = .ok effect) :
    effect.next m.pc ≤ m.pc ∨ effect.next m.pc = m.pc + 1 := by
  rw [horder.program] at hs
  generalize ha : s.action = a at hplan
  cases Easel.plans_of_plan hplan with
  | jump _ _ htarget => exact .inl (hback.le hs ha ((horder.labels _ _).1 htarget))
  | _ => exact .inr rfl

/-- **A completed step** of a program that jumps back only leaves the variables stocked: it needs one
more statement behind it, which it has just carried out, or not even all those it had. -/
theorem Stocked.step {statements : Array Stmt} {n : Nat} (hback : Program.JumpsBack statements)
    (horder : m.InOrder statements n) (h : m.Stocked) (hstep : m.step limit = (m', none)) :
    m'.Stocked := by
  obtain ⟨s, effect, hs, hplan, rfl⟩ := step_completed hstep
  have hold : ∀ name, Program.Assigns (m.statements.toList.take m.pc) name →
      ∃ v, (effect.apply m.easel).store.find? name = some v := by
    intro name hassigns
    obtain ⟨v, hv⟩ := h name hassigns
    exact find?_store_apply effect hv
  rintro name ⟨t, ht, e, ha⟩
  rw [complete_statements, complete_pc, begin_statements, begin_pc] at ht
  rcases horder.next_back hback hs hplan with hle | hsucc
  · exact hold name ⟨t, List.take_subset_take_left _ hle ht, e, ha⟩
  · rw [hsucc, List.take_add_one, Array.getElem?_toList, hs] at ht
    rcases List.mem_append.1 ht with hbefore | hlast
    · exact hold name ⟨t, hbefore, e, ha⟩
    · obtain rfl : t = s := by simpa using hlast
      rw [ha] at hplan
      exact find?_store_of_assign hplan

lemma Stocked.reaches {statements : Array Stmt} {n : Nat} (hback : Program.JumpsBack statements)
    (horder : m.InOrder statements n) (h : m.Stocked) (hreach : Reaches limit m m') : m'.Stocked := by
  have hboth : m'.InOrder statements n ∧ m'.Stocked := by
    refine hreach.keeps (P := fun k => k.InOrder statements n ∧ k.Stocked) ?_ ⟨horder, h⟩
    rintro k k' hstep ⟨hk, hstocked⟩
    exact ⟨hk.step hstep, hstocked.step hback hk hstep⟩
  exact hboth.2

/-- A machine at the first statement needs no variable. -/
lemma stocked_rewind (m : Machine) : m.rewind.Stocked := by
  rintro name ⟨s, hs, -⟩
  simp [rewind] at hs

end Machine

/-! ### Accepted programs -/

/-- **The statements of an accepted program** find the variables they read, on an easel that holds
those assigned before them. -/
lemma Accepts.plan_assigned {source : String} {program : Program} (h : Accepts source program)
    {i : Nat} {s : Stmt} (hs : program.statements[i]? = some s) {easel : Easel}
    (hstock : ∀ name, Program.Assigns (program.statements.toList.take i) name →
      ∃ v, easel.store.find? name = some v)
    {labels : Table Nat} {name : String} :
    easel.plan labels s.action ≠ .error (.undefinedVariable name) := by
  intro hfault
  rcases Easel.plan_error hfault with ⟨e, hturn, he⟩ | hown
  · rw [← Array.getElem?_toList, List.getElem?_eq_some_iff] at hs
    obtain ⟨hi, rfl⟩ := hs
    have hsplit : program.statements.toList = program.statements.toList.take i ++
        program.statements.toList[i] :: program.statements.toList.drop (i + 1) := by
      rw [List.getElem_cons_drop, List.take_append_drop]
    have hclean := complaints_of_verdict (h.verdict hsplit) e hturn.mem
    have hfit := h.1.wellFormed.1.calls_fit _ (List.getElem_mem hi) e hturn.mem
    obtain ⟨hnone, m, hasks⟩ := Easel.eval_undefined hfit he
    have hvar := hasks.clean hclean rfl
    rw [typing] at hvar
    split at hvar
    · next ty hty =>
      rcases Program.assigns_of_typesAfter hty with ⟨ty', hempty⟩ | hassigns
      · cases hempty
      · obtain ⟨v, hv⟩ := hstock name hassigns
        rw [hnone] at hv
        cases hv
    · cases hvar
  · generalize s.action = a at hown
    cases hown

/-- **Assigned before read**: no run of an accepted program that jumps back only is stopped by a
variable without a value, however long it is, whatever its limit, and whatever was run before. -/
theorem assigned_before_read {source : String} {program : Program} (h : Accepts source program)
    (hback : Program.JumpsBack program.statements) {n : Nat} {m : Machine}
    (hm : m.Session program.statements n) {limit : Option Int} {patience : Nat} {m' : Machine}
    {fault : Fault} (hrun : m.execute limit patience = (m', .stopped fault)) (name : String) :
    fault ≠ .undefinedVariable name := by
  rintro rfl
  obtain ⟨m₁, hreach, ⟨k, hfault, -⟩ | ⟨s, hs, hplan, -⟩⟩ := Machine.run_stopped hrun
  · cases hfault
  · have horder := hm.inOrder.rewind
    have hstocked := m.stocked_rewind.reaches hback horder hreach
    have hprogram := (horder.reaches hreach).program
    rw [hprogram] at hs
    rw [Machine.Stocked, hprogram] at hstocked
    exact h.plan_assigned hs hstocked hplan

/-- A text with a loop in which variables are read inside calls and directions. -/
def stairText : String :=
  "Spawn(0, 0)\nn <- 0\nstep\nn <- n + IsBrushSize(n * 0 + 1)\n" ++
    "DrawLine(n % 2, 1, IsCanvasColor(\"Red\", n, 0) + 1)\nGoTo [step] (n < 5)"

theorem assigned_before_read_stairText :
    ∃ program m m', Accepts stairText program ∧ Program.JumpsBack program.statements ∧
      Machine.Session program.statements 6 m ∧
      m.execute (some 20) 0 = (m', .stopped (.stepLimit 20)) ∧
      ∀ name, Fault.stepLimit 20 ≠ .undefinedVariable name := by
  obtain ⟨program, hread, hcheck, hback, hend⟩ :
      ∃ program, Reads stairText program ∧ Check.errors program.statements = [] ∧
        Program.JumpsBack program.statements ∧
        (Machine.new program.statements 6).toOption.map (fun m => (m.execute (some 20) 0).2) =
          some (.stopped (.stepLimit 20)) := by
    decide +kernel
  obtain ⟨m, hnew⟩ := Machine.exists_new hread.wellFormed.1 (by decide : (1 : Int) ≤ 6)
  have hm := Machine.Session.fresh (n := 6) hnew
  rw [hnew] at hend
  have hrun : m.execute (some 20) 0 = ((m.execute (some 20) 0).1, .stopped (.stepLimit 20)) := by
    rw [← Option.some.inj hend]
  exact ⟨program, m, _, ⟨hread, hcheck⟩, hback, hm, hrun,
    assigned_before_read ⟨hread, hcheck⟩ hback hm hrun⟩

end Brushwork
