import Mathlib.Tactic.Common
import Brushwork.Syntax.Stmt
import Brushwork.Token.Kind

/-!
The parts of expressions and statements, and well-formed programs.

* `Expr.ind`: a property holds of every expression once it is inherited from the operands, the
  inside of parentheses and the arguments.
* `Expr.parts`: an expression with everything inside it; `Expr.All` quantifies over it, and the
  lemmas `Expr.all_binary`, `Expr.all_call` and their like let it through the forms.
* `Program.WellFormed`: the cursor is put down first and only once, labels are unique and jumps find
  them, calls fit their functions, and literal directions are `-1`, `0` or `1`.
-/

namespace Brushwork

namespace Expr

/-! ### Induction -/

/-- The induction principle of expressions, with the arguments of a call as a list. -/
@[elab_as_elim]
theorem ind {P : Expr → Prop} (lit : ∀ m v, P (lit m v)) (var : ∀ m name, P (var m name))
    (binary : ∀ m l symbol r, P l → P r → P (binary m l symbol r))
    (group : ∀ m e, P e → P (group m e))
    (call : ∀ m name args, (∀ a ∈ args, P a) → P (call m name args))
    (foreign : ∀ m form, P (foreign m form)) (e : Expr) : P e :=
  @Expr.rec P (fun es => ∀ a ∈ es, P a)
    lit var binary group call foreign
    (List.forall_mem_nil P) (fun _ _ first others => List.forall_mem_cons.2 ⟨first, others⟩) e

/-! ### Parts -/

mutual

/-- An expression and all expressions inside it. -/
def parts : Expr → List Expr
  | lit m v => [lit m v]
  | var m name => [var m name]
  | binary m l symbol r => binary m l symbol r :: (parts l ++ parts r)
  | group m e => group m e :: parts e
  | call m name args => call m name args :: partsOfAll args
  | foreign m form => [foreign m form]

/-- The parts of each of a row of expressions. -/
def partsOfAll : List Expr → List Expr
  | [] => []
  | e :: es => parts e ++ partsOfAll es

end

lemma mem_partsOfAll {a : Expr} {es : List Expr} : a ∈ partsOfAll es ↔ ∃ e ∈ es, a ∈ e.parts := by
  induction es with
  | nil => simp [partsOfAll]
  | cons e es ih => simp [partsOfAll, ih]

lemma self_mem_parts (e : Expr) : e ∈ e.parts := by
  cases e <;> simp [parts]

/-- Every part of an expression has a property. -/
def All (P : Expr → Prop) (e : Expr) : Prop := ∀ a ∈ e.parts, P a

section All

variable {P : Expr → Prop} {m : Mark}

lemma All.self {e : Expr} (h : e.All P) : P e := h e e.self_mem_parts

@[simp] lemma all_lit {v : Literal} : (lit m v).All P ↔ P (lit m v) := by
  simp [All, parts]

@[simp] lemma all_var {name : String} : (var m name).All P ↔ P (var m name) := by
  simp [All, parts]

@[simp] lemma all_foreign {form : String} : (foreign m form).All P ↔ P (foreign m form) := by
  simp [All, parts]

@[simp] lemma all_binary {l r : Expr} {symbol : String} :
    (binary m l symbol r).All P ↔ P (binary m l symbol r) ∧ l.All P ∧ r.All P := by
  simp [All, parts, or_imp, forall_and]

@[simp] lemma all_group {e : Expr} : (group m e).All P ↔ P (group m e) ∧ e.All P := by
  simp [All, parts]

@[simp] lemma all_call {name : String} {args : List Expr} :
    (call m name args).All P ↔ P (call m name args) ∧ ∀ a ∈ args, a.All P := by
  simp only [All, parts, List.mem_cons, forall_eq_or_imp, mem_partsOfAll]
  refine and_congr_right fun _ => ⟨fun h a ha b hb => h b ⟨a, ha, hb⟩, ?_⟩
  rintro h b ⟨a, ha, hb⟩
  exact h a ha b hb

end All

/-! ### What a part may be -/

/-- A call names a function and gives it as many arguments as it takes. -/
def CallFits : Expr → Prop
  | call _ name args => ∃ b, Builtin.ofWord? name = some b ∧ args.length = b.arity
  | _ => True

/-- The node is an expression. -/
def IsForm : Expr → Prop
  | foreign _ _ => False
  | _ => True

end Expr

namespace Action

/-- The directions of a drawing action. -/
def directions : Action → List Expr
  | drawLine dirX dirY _ | drawCircle dirX dirY _ | drawRectangle dirX dirY _ _ _ => [dirX, dirY]
  | _ => []

/-- The label that the action jumps to. -/
def target? : Action → Option String
  | goTo name _ => some name
  | _ => none

/-- The node is a statement. -/
def IsForm : Action → Prop
  | foreign _ => False
  | _ => True

end Action

namespace Program

/-- The names of the labels that a row of statements declares, in order. -/
def labelNames (ss : List Stmt) : List String := ss.filterMap (·.action.label?)

/-- A row of statements that only its types could still be wrong with. -/
structure WellFormed (ss : List Stmt) : Prop where
  /-- The first statement puts the cursor down, and no other one does. -/
  spawn_first : ∃ s rest, ss = s :: rest ∧ s.action.isSpawn = true ∧
    ∀ r ∈ rest, r.action.isSpawn = false
  labels_distinct : (labelNames ss).Nodup
  targets_declared : ∀ s ∈ ss, ∀ name, s.action.target? = some name → name ∈ labelNames ss
  calls_fit : ∀ s ∈ ss, ∀ e ∈ s.action.exprs, e.All Expr.CallFits
  /-- Directions that are literals keep to one step. -/
  directions_near : ∀ s ∈ ss, ∀ e ∈ s.action.directions, ∀ n, e.intLiteral? = some n →
    n = -1 ∨ n = 0 ∨ n = 1

lemma WellFormed.startsWithSpawn {ss : Array Stmt} (h : WellFormed ss.toList) :
    startsWithSpawn ss = true := by
  obtain ⟨s, rest, hlist, hs, -⟩ := h.spawn_first
  have hfirst : ss[0]? = some s := by
    rw [← Array.getElem?_toList, hlist]
    rfl
  rw [Program.startsWithSpawn, hfirst]
  exact hs

end Program

end Brushwork
