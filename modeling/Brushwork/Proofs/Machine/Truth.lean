import Brushwork.Proofs.Check.Acceptance
import Brushwork.Proofs.Machine.Stepping

/-!
Truth values stay zero or one.

The check goes through the statements in the order of the text, a run follows its jumps. If all
assignments to a variable are given one type, the two agree:

* `Check.inferred` and `Check.Steady`: the types that the check infers, assignment by assignment.
* `Easel.store_apply` and `Easel.plan_assign`: only an assignment changes the variables.
* `Easel.eval_boolean`: an expression of truth type has the value zero or one.
* `Machine.Wanders`: runs in which every jump may be taken or not, whatever its condition.
* `truths_are_bits`: in all states of such runs, and in those of the runs there really are, variables
  and conditions of truth type are zero or one.
-/

namespace Brushwork

open Check

/-! ### Types at assignments -/

namespace Check

/-- The types that the check infers at the assignments of a row of statements. -/
def inferred (a : Analysis) : List Stmt → List (String × Ty)
  | [] => []
  | s :: ss =>
    match s.action with
    | .assign name e => (name, (a.typing e).ty) :: inferred (a.statement s) ss
    | _ => inferred (a.statement s) ss

/-- The check infers the same type at every assignment to a variable. -/
def Steady (statements : Array Stmt) : Prop :=
  ∀ p ∈ inferred .empty statements.toList, ∀ q ∈ inferred .empty statements.toList,
    p.1 = q.1 → p.2 = q.2

instance (statements : Array Stmt) : Decidable (Steady statements) :=
  inferInstanceAs (Decidable (∀ p ∈ inferred .empty statements.toList,
    ∀ q ∈ inferred .empty statements.toList, p.1 = q.1 → p.2 = q.2))

variable {a : Analysis} {name : String} {ty : Ty}

lemma inferred_assign (m : Mark) (e : Expr) (ss : List Stmt) :
    inferred a (⟨m, .assign name e⟩ :: ss) =
      (name, (typing a.types e).ty) :: inferred (a.statement ⟨m, .assign name e⟩) ss := rfl

lemma inferred_append (ss ss' : List Stmt) :
    inferred a (ss ++ ss') = inferred a ss ++ inferred (ss.foldl Analysis.statement a) ss' := by
  induction ss generalizing a with
  | nil => rfl
  | cons s ss ih =>
      rw [List.cons_append, inferred, inferred, List.foldl_cons]
      split
      · rw [ih, List.cons_append]
      · exact ih

/-- A type in the table behind a row of statements was there before or has been inferred. -/
lemma mem_inferred_of_find? {ss : List Stmt} (h : (typesAfter a.types ss).find? name = some ty) :
    a.types.find? name = some ty ∨ (name, ty) ∈ inferred a ss := by
  induction ss generalizing a with
  | nil => exact .inl h
  | cons s ss ih =>
      have htypes : (a.statement s).types = retype a.types s.action := by rw [Analysis.statement_eq]
      have hrest := ih (a := a.statement s) (by rwa [htypes])
      rw [htypes] at hrest
      rw [inferred]
      cases hs : s.action with
      | assign other e =>
          rw [hs, retype, Table.find?_put] at hrest
          rcases hrest with h | h
          · by_cases hname : name = other
            · rw [if_pos hname] at h
              obtain rfl := Option.some.inj h
              exact .inr (by simp [hname, Analysis.typing])
            · exact .inl (by rwa [if_neg hname] at h)
          · exact .inr (List.mem_cons_of_mem _ h)
      | _ =>
          rw [hs] at hrest
          exact hrest

/-- A variable that is assigned to has a type in the end. -/
lemma find?_of_mem_inferred {ss : List Stmt}
    (h : (∃ ty, a.types.find? name = some ty) ∨ ∃ ty, (name, ty) ∈ inferred a ss) :
    ∃ ty, (typesAfter a.types ss).find? name = some ty := by
  induction ss generalizing a with
  | nil =>
      rcases h with h | ⟨ty, h⟩
      · exact h
      · cases h
  | cons s ss ih =>
      have htypes : (a.statement s).types = retype a.types s.action := by rw [Analysis.statement_eq]
      have hgoal : typesAfter a.types (s :: ss) = typesAfter (a.statement s).types ss := by
        rw [htypes]
        rfl
      rw [hgoal]
      refine ih ?_
      rw [htypes]
      rw [inferred] at h
      cases hs : s.action with
      | assign other e =>
          rw [hs] at h
          rw [retype, Table.find?_put]
          by_cases hname : name = other
          · exact .inl ⟨_, if_pos hname⟩
          · rw [if_neg hname]
            refine h.imp_right ?_
            rintro ⟨ty, hmem⟩
            refine ⟨ty, (List.mem_cons.1 hmem).resolve_left fun heq => hname ?_⟩
            exact congrArg Prod.fst heq
      | _ =>
          rw [hs] at h
          exact h

/-- Where assignments agree, every inferred type is that of the variable in the end. -/
lemma Steady.find?_of_mem {ss : Array Stmt} (h : Steady ss)
    (hmem : (name, ty) ∈ inferred .empty ss.toList) :
    (typesAfter .empty ss.toList).find? name = some ty := by
  obtain ⟨ty', hfind⟩ := find?_of_mem_inferred (a := .empty) (.inr ⟨ty, hmem⟩)
  have hmem' : (name, ty') ∈ inferred .empty ss.toList := by
    rcases mem_inferred_of_find? hfind with hnone | hmem'
    · cases hnone
    · exact hmem'
  have hty : ty' = ty := h _ hmem' _ hmem rfl
  rwa [← hty]

/-- So the types behind the first statements are already those in the end. -/
lemma Steady.find?_prefix {ss : Array Stmt} (h : Steady ss) {pre post : List Stmt}
    (hsplit : ss.toList = pre ++ post) (hfind : (typesAfter .empty pre).find? name = some ty) :
    (typesAfter .empty ss.toList).find? name = some ty := by
  refine h.find?_of_mem ?_
  rw [hsplit, inferred_append]
  rcases mem_inferred_of_find? (a := .empty) hfind with hnone | hmem
  · cases hnone
  · exact List.mem_append_left _ hmem

lemma Steady.find?_assign {ss : Array Stmt} (h : Steady ss) {pre post : List Stmt} {m : Mark}
    {e : Expr} (hsplit : ss.toList = pre ++ ⟨m, .assign name e⟩ :: post) :
    (typesAfter .empty ss.toList).find? name = some (typing (typesAfter .empty pre) e).ty := by
  refine h.find?_of_mem ?_
  rw [hsplit, inferred_append, inferred_assign, Analysis.foldl_statement]
  exact List.mem_append_right _ List.mem_cons_self

end Check

/-! ### What changes the variables -/

namespace Easel

variable {easel : Easel}

lemma kept_store (store : Table Int) : Kept fun e => e.store = store :=
  ⟨fun _ _ _ h => h, fun _ _ _ h => h⟩

/-- **Only an assignment changes the variables.** -/
theorem store_apply (effect : Effect) (easel : Easel) :
    (effect.apply easel).store = easel.store ∨
      ∃ name v, effect = .assign name v ∧
        (effect.apply easel).store = easel.store.put name v := by
  cases effect with
  | assign name v => exact .inr ⟨name, v, rfl, rfl⟩
  | line dx dy n => exact .inl ((kept_store _).drawLine rfl dx dy n)
  | around cx cy places => exact .inl ((kept_store _).paintAround rfl cx cy places)
  | block x y width height => exact .inl ((kept_store _).paintColumns rfl x y height width)
  | _ => exact .inl rfl

/-- A value is planned for a variable only by an assignment to it, from its expression. -/
lemma plan_assign {labels : Table Nat} {a : Action} {name : String} {v : Int}
    (h : easel.plan labels a = .ok (.assign name v)) :
    ∃ e, a = .assign name e ∧ easel.eval e = .ok v := by
  cases plans_of_plan h with
  | assign he => exact ⟨_, rfl, he⟩

/-! ### Expressions of truth type -/

lemma bit_eq_or (p : Prop) [Decidable p] : bit p = 0 ∨ bit p = 1 := by
  by_cases h : p
  · exact .inr (if_pos h)
  · exact .inl (if_neg h)

/-- An operator that gives a truth value gives zero or one. -/
lemma apply_boolean {op : Op} {left right : Expr} {l r : Ty} {a b v : Int}
    (hty : resultType? op left right l r = some .boolean) (h : op.apply a b = .ok v) :
    v = 0 ∨ v = 1 := by
  cases op with
  | add | sub | mul | div | mod | pow =>
      rw [resultType?] at hty
      split at hty <;> cases hty
  | _ =>
      obtain rfl := Except.ok.inj h
      exact bit_eq_or _

/-- The variables that a table gives the truth type are zero or one. -/
def HoldsBits (types : Table Ty) (easel : Easel) : Prop :=
  ∀ name v, types.find? name = some .boolean → easel.store.find? name = some v → v = 0 ∨ v = 1

/-- **An expression of truth type** that the check has nothing against is zero or one, if its
variables of that type are. -/
theorem eval_boolean {types : Table Ty} (hbits : HoldsBits types easel) {e : Expr}
    (hclean : (typing types e).complaints = []) (hty : (typing types e).ty = .boolean) {v : Int}
    (h : easel.eval e = .ok v) : v = 0 ∨ v = 1 := by
  induction e using Expr.ind with
  | lit m value =>
      cases value with
      | int n => cases hty
      | bool b =>
          obtain rfl := Except.ok.inj h
          exact bit_eq_or _
      | text s => cases hty
  | var m name =>
      rw [typing] at hty
      rw [eval] at h
      split at hty
      · next ty hfind =>
        split at h
        · next n hn =>
          obtain rfl := Except.ok.inj h
          obtain rfl : ty = .boolean := hty
          exact hbits name n hfind hn
        · cases h
      · cases hty
  | group m e ih =>
      rw [typing] at hclean hty
      rw [eval] at h
      exact ih hclean hty h
  | binary m l symbol r =>
      rw [typing] at hclean hty
      rw [eval] at h
      obtain ⟨op, hop, hres, -⟩ := binaryTyping_eq_nil hclean
      obtain ⟨a, -, h⟩ := bind_value h
      obtain ⟨b, -, h⟩ := bind_value h
      rw [hop] at h
      rw [hty] at hres
      exact apply_boolean hres h
  | call m name args => cases hty
  | foreign m form => cases hty

/-- Variables and conditions of truth type are zero or one. -/
structure Truthful (statements : Array Stmt) (easel : Easel) : Prop where
  stored : ∀ name v, (Analysis.empty.program statements).types.find? name = some .boolean →
    easel.store.find? name = some v → v = 0 ∨ v = 1
  decided : ∀ s ∈ statements, ∀ label condition, s.action = .goTo label condition →
    ∀ v, easel.eval condition = .ok v → v = 0 ∨ v = 1

end Easel

/-! ### Runs -/

namespace Machine

/-- The second machine comes from the first by completed statements, where a jump may be taken or
not, whatever the value of its condition. -/
inductive Wanders (m : Machine) : Machine → Prop
  | start : Wanders m m
  | carry {m' : Machine} {s : Stmt} {effect : Effect} (h : Wanders m m')
      (hs : m'.statements[m'.pc]? = some s)
      (hplan : m'.easel.plan m'.labels s.action = .ok effect) :
      Wanders m ((m'.begin s).complete effect)
  | pass {m' : Machine} {s : Stmt} {label : String} {condition : Expr} (h : Wanders m m')
      (hs : m'.statements[m'.pc]? = some s) (ha : s.action = .goTo label condition) :
      Wanders m ((m'.begin s).complete .nothing)
  | jump {m' : Machine} {s : Stmt} {label : String} {condition : Expr} {target : Nat}
      (h : Wanders m m') (hs : m'.statements[m'.pc]? = some s)
      (ha : s.action = .goTo label condition) (ht : m'.labels.find? label = some target) :
      Wanders m ((m'.begin s).complete (.jump target))

variable {m m' : Machine}

lemma Wanders.statements_eq (h : m.Wanders m') : m'.statements = m.statements := by
  induction h with
  | start => rfl
  | carry _ _ _ ih => simpa using ih
  | pass _ _ _ ih => simpa using ih
  | jump _ _ _ _ ih => simpa using ih

/-- Completed steps are such a run. -/
lemma Reaches.wanders {limit : Option Int} {m₀ : Machine} (h : Reaches limit m m')
    (h₀ : m₀.Wanders m) : m₀.Wanders m' := by
  refine h.keeps (P := m₀.Wanders) ?_ h₀
  intro n n' hstep hn
  obtain ⟨s, effect, hs, hplan, rfl⟩ := step_completed hstep
  exact hn.carry hs hplan

/-- The easel that a run leaves behind is that of a machine it came to by completed steps. -/
lemma run_easel (limit : Option Int) (patience : Nat) (m : Machine) :
    ∃ m₁, Reaches limit m m₁ ∧ (run limit patience m).1.easel = m₁.easel := by
  obtain ⟨m₁, hreach, hrun | ⟨m₂, ending, hstep, hrun⟩⟩ := run_reaches limit patience m
  · exact ⟨m₁, hreach, by rw [hrun]⟩
  · refine ⟨m₁, hreach, ?_⟩
    rw [hrun]
    rcases step_ended hstep with rfl | ⟨s, -, rfl⟩
    · rfl
    · exact begin_easel m₁ s

end Machine

/-! ### Accepted programs -/

section Accepts

variable {source : String} {program : Program} {easel : Easel}

/-- What the final types say holds under the types at a statement too. -/
lemma Check.Steady.holdsBits_prefix (hsteady : Steady program.statements) {pre post : List Stmt}
    (hsplit : program.statements.toList = pre ++ post)
    (hbits : easel.HoldsBits (typesAfter .empty program.statements.toList)) :
    easel.HoldsBits (typesAfter .empty pre) :=
  fun name v hfind hv => hbits name v (hsteady.find?_prefix hsplit hfind) hv

/-- **A completed statement** keeps truth values zero or one. -/
lemma Accepts.holdsBits_apply (h : Accepts source program) (hsteady : Steady program.statements)
    {s : Stmt} (hs : s ∈ program.statements.toList) {labels : Table Nat} {effect : Effect}
    (hplan : easel.plan labels s.action = .ok effect)
    (hbits : easel.HoldsBits (typesAfter .empty program.statements.toList)) :
    (effect.apply easel).HoldsBits (typesAfter .empty program.statements.toList) := by
  intro other w hbool hw
  rcases Easel.store_apply effect easel with hsame | ⟨name, v, rfl, hput⟩
  · rw [hsame] at hw
    exact hbits other w hbool hw
  rw [hput, Table.find?_put] at hw
  by_cases hname : other = name
  · -- the assigned variable: its type in the end is the type of the expression here
    rw [if_pos hname] at hw
    obtain rfl := Option.some.inj hw
    obtain ⟨e, ha, hv⟩ := Easel.plan_assign hplan
    obtain ⟨mark, action⟩ := s
    obtain rfl : action = .assign name e := ha
    obtain ⟨pre, post, hsplit⟩ := List.append_of_mem hs
    have hty := hsteady.find?_assign hsplit
    rw [← hname, hbool] at hty
    have hclean := complaints_of_verdict (h.verdict hsplit)
    exact Easel.eval_boolean (hsteady.holdsBits_prefix hsplit hbits)
      (hclean e (by simp [Action.exprs])) (Option.some.inj hty).symm hv
  · rw [if_neg hname] at hw
    exact hbits other w hbool hw

lemma Accepts.truthful (h : Accepts source program) (hsteady : Steady program.statements)
    (hbits : easel.HoldsBits (typesAfter .empty program.statements.toList)) :
    easel.Truthful program.statements := by
  refine ⟨fun name v hbool hv => ?_, fun s hs label condition ha v hv => ?_⟩
  · rw [h.1.analysis] at hbool
    exact hbits name v hbool hv
  · obtain ⟨pre, post, hsplit⟩ := List.append_of_mem (Array.mem_toList_iff.2 hs)
    have hverdict := h.verdict hsplit
    have hclean := complaints_of_verdict hverdict condition (by simp [ha, Action.exprs])
    rw [ha] at hverdict
    exact Easel.eval_boolean (hsteady.holdsBits_prefix hsplit hbits) hclean (verdict_goTo hverdict).2
      hv

lemma Accepts.holdsBits_wanders (h : Accepts source program) (hsteady : Steady program.statements)
    {m m' : Machine} (hm : m.statements = program.statements)
    (hbits : m.easel.HoldsBits (typesAfter .empty program.statements.toList))
    (hw : m.Wanders m') : m'.easel.HoldsBits (typesAfter .empty program.statements.toList) := by
  induction hw with
  | start => exact hbits
  | carry hw hs hplan ih =>
      rw [hw.statements_eq, hm] at hs
      rw [Machine.complete_easel, Machine.begin_easel]
      exact h.holdsBits_apply hsteady (Array.mem_toList_iff.2 (Array.mem_of_getElem? hs)) hplan ih
  | pass _ _ _ ih => exact ih
  | jump _ _ _ _ ih => exact ih

end Accepts

/-- **Truth values are zero or one**, in an accepted program whose assignments agree on the types of
variables: wherever a fresh machine may come, each jump taken or not as one likes, and so after every
run that there is. -/
theorem truths_are_bits {source : String} {program : Program} (h : Accepts source program)
    (hsteady : Steady program.statements) {size : Int} {m : Machine}
    (hnew : Machine.new program.statements size = .ok m) :
    (∀ m', m.Wanders m' → m'.easel.Truthful program.statements) ∧
      ∀ limit patience, (m.execute limit patience).1.easel.Truthful program.statements := by
  obtain ⟨hm, -, hstore, hrewind⟩ := Machine.new_fresh hnew
  have hbits : m.easel.HoldsBits (typesAfter .empty program.statements.toList) := by
    intro name v _ hv
    rw [hstore] at hv
    cases hv
  have hall : ∀ m', m.Wanders m' → m'.easel.Truthful program.statements :=
    fun m' hw => h.truthful hsteady (h.holdsBits_wanders hsteady hm hbits hw)
  refine ⟨hall, fun limit patience => ?_⟩
  obtain ⟨m₁, hreach, heasel⟩ := Machine.run_easel limit (Machine.patienceFor limit patience) m
  rw [Machine.execute, hrewind, heasel]
  exact hall m₁ (hreach.wanders .start)

/-- A text that counts to three in a loop which a truth value controls. -/
def countingText : String :=
  "Spawn(0, 0)\nn <- 0\nmore <- true\nloop\nn <- n + 1\nmore <- n < 3 && more == 1\nGoTo [loop] (more)"

theorem truths_are_bits_countingText :
    ∃ program m, Accepts countingText program ∧ Steady program.statements ∧
      Machine.new program.statements 5 = .ok m ∧
      (∀ m', m.Wanders m' → m'.easel.Truthful program.statements) ∧
        ∀ limit patience, (m.execute limit patience).1.easel.Truthful program.statements := by
  obtain ⟨program, hread, hcheck, hsteady⟩ :
      ∃ program, Reads countingText program ∧ Check.errors program.statements = [] ∧
        Steady program.statements := by
    decide +kernel
  obtain ⟨m, hnew⟩ := Machine.exists_new hread.wellFormed.1 (by decide : (1 : Int) ≤ 5)
  exact ⟨program, m, ⟨hread, hcheck⟩, hsteady, hnew, truths_are_bits ⟨hread, hcheck⟩ hsteady hnew⟩

end Brushwork
