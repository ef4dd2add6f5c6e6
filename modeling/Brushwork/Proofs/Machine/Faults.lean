import Brushwork.Proofs.Check.Acceptance
import Brushwork.Proofs.Machine.Stepping

/-!
The faults of accepted programs.

* `Easel.Asks`: asking for the value of an expression comes to asking for that of a part of it.
* `Easel.plan_error`, `Easel.query_error` and `Easel.eval_error`: where the fault of a statement, of a
  call and of an expression comes from.
* `Accepts.plan_error`: the statements of an accepted program have no structural faults, whatever
  easel they are carried out on.
* `execute_not_structural`: no run of an accepted program is stopped by a structural fault, and a text
  stops one only where a function takes it for a number.
-/

namespace Brushwork

open Check

/-- The fault is about how a program is put together, not about its values. -/
def Fault.isStructural : Fault → Bool
  | missingSpawn | undefinedLabel _ | unknownFunction _ | argumentCount _ _
  | unsupportedOperator _ | unsupportedExpression _ | unknownStatement _ => true
  | _ => false

/-- The arguments that a function takes for numbers: all but the color that some begin with. -/
def Builtin.numbers (b : Builtin) (args : List Expr) : List Expr :=
  match b with
  | isBrushColor | getColorCount | isCanvasColor => args.drop 1
  | _ => args

lemma Builtin.mem_of_mem_numbers {b : Builtin} {args : List Expr} {a : Expr}
    (h : a ∈ b.numbers args) : a ∈ args := by
  cases b <;> first | exact h | exact List.mem_of_mem_drop h

namespace Easel

/-! ### Asking for values in order -/

/-- The values of `es` are asked for in order, and it is the turn of `e`: those before it have
values. -/
def ComesTo (easel : Easel) (es : List Expr) (e : Expr) : Prop :=
  ∃ pre post, es = pre ++ e :: post ∧ ∀ p ∈ pre, ∃ v, easel.eval p = .ok v

/-- One of a row of expressions, each of whose values is asked for, has no value. -/
def StopsIn (easel : Easel) (es : List Expr) (fault : Fault) : Prop :=
  ∃ e, easel.ComesTo es e ∧ easel.eval e = .error fault

variable {easel : Easel} {fault : Fault}

lemma ComesTo.mem {e : Expr} {es : List Expr} (h : easel.ComesTo es e) : e ∈ es := by
  obtain ⟨pre, post, rfl, -⟩ := h
  simp

lemma ComesTo.next {e a : Expr} {es : List Expr} {v : Int} (he : easel.eval e = .ok v)
    (h : easel.ComesTo es a) : easel.ComesTo (e :: es) a := by
  obtain ⟨pre, post, rfl, hpre⟩ := h
  exact ⟨e :: pre, post, rfl, List.forall_mem_cons.2 ⟨⟨v, he⟩, hpre⟩⟩

/-- Asking for the value of `e` and going on with `f` fails at `e` or behind it. -/
lemma bind_error {α : Type} {e : Expr} {f : Int → Except Fault α}
    (h : (easel.eval e >>= f) = .error fault) :
    easel.eval e = .error fault ∨ ∃ v, easel.eval e = .ok v ∧ f v = .error fault := by
  rcases bind_cases h with ⟨fault', he, hfault⟩ | hvalue
  · rw [Except.error.inj hfault]
    exact .inl he
  · exact .inr hvalue

/-- Where `e` is the first of a row of values to be asked for, a fault comes from the row if that
behind `e` comes from the others. -/
lemma bind_stops {α : Type} {P : Prop} {e : Expr} {es : List Expr} {f : Int → Except Fault α}
    (h : (easel.eval e >>= f) = .error fault)
    (hf : ∀ v, f v = .error fault → easel.StopsIn es fault ∨ P) :
    easel.StopsIn (e :: es) fault ∨ P := by
  rcases bind_error h with he | ⟨v, he, hv⟩
  · exact .inl ⟨e, ⟨[], es, rfl, List.forall_mem_nil _⟩, he⟩
  · refine (hf v hv).imp_left ?_
    rintro ⟨a, ha, hfault⟩
    exact ⟨a, ha.next he, hfault⟩

/-! ### Statements -/

/-- The faults that statements find by themselves, all values being known. -/
inductive OwnFault (easel : Easel) (labels : Table Nat) : Action → Fault → Prop
  | spawn {x y : Expr} {a b : Int} : OwnFault easel labels (.spawn x y) (.spawnOutside a b)
  | size {e : Expr} : OwnFault easel labels (.size e) .sizeNotPositive
  | radius {dx dy r : Expr} : OwnFault easel labels (.drawCircle dx dy r) .radiusTooLarge
  | fill : OwnFault easel labels .fill (.cursorOutside easel.x easel.y)
  | goTo {name : String} {e : Expr} (h : labels.contains name = false) :
      OwnFault easel labels (.goTo name e) (.undefinedLabel name)
  | foreign {form : String} : OwnFault easel labels (.foreign form) (.unknownStatement form)

lemma pure_ne_error {α : Type} {a : α} {P : Prop} (h : (pure a : Except Fault α) = .error fault) :
    P := by
  cases h

/-- **The fault of a statement** comes from one of its expressions, the values of those before it
being known, or is its own. -/
theorem plan_error {labels : Table Nat} {a : Action} (h : easel.plan labels a = .error fault) :
    easel.StopsIn a.exprs fault ∨ OwnFault easel labels a fault := by
  cases a with
  | spawn x y =>
      refine bind_stops h fun u h => bind_stops h fun v h => .inr ?_
      split at h
      · exact pure_ne_error h
      · obtain rfl := Except.error.inj h
        exact .spawn
  | color name => exact pure_ne_error h
  | size e =>
      refine bind_stops h fun u h => .inr ?_
      split at h
      · obtain rfl := Except.error.inj h
        exact .size
      · exact pure_ne_error h
  | drawLine dx dy distance =>
      exact bind_stops h fun _ h => bind_stops h fun _ h => bind_stops h fun _ h => pure_ne_error h
  | drawCircle dx dy radius =>
      refine bind_stops h fun u h => bind_stops h fun v h => bind_stops h fun n h => .inr ?_
      split at h
      · exact pure_ne_error h
      · obtain rfl := Except.error.inj h
        exact .radius
  | drawRectangle dx dy distance width height =>
      exact bind_stops h fun _ h => bind_stops h fun _ h => bind_stops h fun _ h =>
        bind_stops h fun _ h => bind_stops h fun _ h => pure_ne_error h
  | fill =>
      rw [plan] at h
      split at h
      · exact pure_ne_error h
      · obtain rfl := Except.error.inj h
        exact .inr .fill
  | assign name e => exact bind_stops h fun _ h => pure_ne_error h
  | label name => exact pure_ne_error h
  | goTo name e =>
      refine bind_stops h fun u h => .inr ?_
      split at h
      · exact pure_ne_error h
      · split at h
        · exact pure_ne_error h
        · next hl =>
          obtain rfl := Except.error.inj h
          exact .goTo (by simp [Table.contains, hl])
  | foreign form =>
      obtain rfl := Except.error.inj h
      exact .inr .foreign

/-! ### Calls and expressions -/

/-- Asking for the value of the first expression comes to asking for that of the second. -/
inductive Asks (easel : Easel) : Expr → Expr → Prop
  | self (e : Expr) : Asks easel e e
  | group {m : Mark} {e a : Expr} (h : Asks easel e a) : Asks easel (.group m e) a
  | left {m : Mark} {l r a : Expr} {symbol : String} (h : Asks easel l a) :
      Asks easel (.binary m l symbol r) a
  | right {m : Mark} {l r a : Expr} {symbol : String} {v : Int} (hl : easel.eval l = .ok v)
      (h : Asks easel r a) : Asks easel (.binary m l symbol r) a
  | argument {m : Mark} {name : String} {args : List Expr} {b : Builtin} {arg a : Expr}
      (hb : Builtin.ofWord? name = some b) (harg : easel.ComesTo (b.numbers args) arg)
      (h : Asks easel arg a) : Asks easel (.call m name args) a

/-- For the value of `e` a function is called that is given the text itself for a number. -/
def TakesForNumber (easel : Easel) (e : Expr) (text : String) : Prop :=
  ∃ m name args b, easel.Asks e (.call m name args) ∧ Builtin.ofWord? name = some b ∧
    ∃ m', easel.ComesTo (b.numbers args) (.lit m' (.text text))

/-- What may stop an expression that the check has nothing against. -/
structure Excused (easel : Easel) (e : Expr) (fault : Fault) : Prop where
  not_structural : fault.isStructural = false
  text_is_argument : ∀ text, fault = .notANumber text → easel.TakesForNumber e text

lemma Excused.of_part {e part : Expr} (hpart : ∀ a, easel.Asks part a → easel.Asks e a)
    (h : easel.Excused part fault) : easel.Excused e fault := by
  refine ⟨h.not_structural, fun text htext => ?_⟩
  obtain ⟨m, name, args, b, hasks, hcall⟩ := h.text_is_argument text htext
  exact ⟨m, name, args, b, hpart _ hasks, hcall⟩

lemma evalEach_eq_map (es : List Expr) : easel.evalEach es = es.map easel.eval := by
  induction es with
  | nil => rfl
  | cons e es ih => rw [evalEach, ih, List.map_cons]

/-- A function that is given the wrong number of arguments is stopped by that alone. -/
lemma query_of_arity {e : Easel} {b : Builtin} {color : String} {args : List (Except Fault Int)}
    (h : args.length ≠ b.arity) :
    e.query b color args = .error (.argumentCount b.word b.arity) := by
  rw [query.eq_def]
  split
  case h_9 => rfl
  all_goals exact absurd rfl h

/-- **The fault of a call** with as many arguments as the function takes comes from one of those that
it takes for numbers. -/
theorem query_error {b : Builtin} {color : String} {args : List Expr}
    (harity : args.length = b.arity)
    (h : easel.query b color (args.map easel.eval) = .error fault) :
    easel.StopsIn (b.numbers args) fault := by
  refine Or.resolve_right (b := False) ?_ id
  cases b with
  | getActualX | getActualY | getCanvasSize =>
      obtain rfl := List.length_eq_zero_iff.1 harity
      cases h
  | isBrushColor =>
      obtain ⟨a, rfl⟩ := List.length_eq_one_iff.1 harity
      cases h
  | isBrushSize | isCanvasSize =>
      obtain ⟨a, rfl⟩ := List.length_eq_one_iff.1 harity
      exact bind_stops h fun _ h => pure_ne_error h
  | isCanvasColor =>
      match args, harity with
      | [c, down, right], _ => exact bind_stops h fun _ h => bind_stops h fun _ h => pure_ne_error h
  | getColorCount =>
      match args, harity with
      | [c, x₁, y₁, x₂, y₂], _ =>
          exact bind_stops h fun _ h => bind_stops h fun _ h => bind_stops h fun _ h =>
            bind_stops h fun _ h => pure_ne_error h

/-- The faults of operators. -/
lemma apply_error {op : Op} {a b : Int} (h : op.apply a b = .error fault) :
    fault = .divisionByZero ∨ fault = .moduloByZero ∨ fault = .notComputable a b := by
  rw [Op.apply.eq_def] at h
  cases op with
  | div =>
      dsimp only at h
      split at h
      · exact .inl (Except.error.inj h).symm
      · cases h
  | mod =>
      dsimp only at h
      split at h
      · exact .inr (.inl (Except.error.inj h).symm)
      · cases h
  | pow =>
      dsimp only at h
      split at h
      · cases h
      · exact .inr (.inr (Except.error.inj h).symm)
  | _ => cases h

lemma eq_lit_of_textLiteral? {e : Expr} {text : String} (h : e.textLiteral? = some text) :
    ∃ m, e = .lit m (.text text) := by
  rw [Expr.textLiteral?.eq_def] at h
  split at h
  · next m s =>
    obtain rfl := Option.some.inj h
    exact ⟨m, rfl⟩
  · cases h

/-- **The fault of an expression** that the check has nothing against and whose calls fit. -/
theorem eval_error {types : Table Ty} {e : Expr} (hclean : (typing types e).complaints = [])
    (hfit : e.All Expr.CallFits) (h : easel.eval e = .error fault) : easel.Excused e fault := by
  induction e using Expr.ind with
  | lit m v =>
      cases v with
      | int n => cases h
      | bool b => cases h
      | text s => simp [typing] at hclean
  | var m name =>
      rw [eval] at h
      split at h
      · cases h
      · obtain rfl := Except.error.inj h
        exact ⟨rfl, by simp⟩
  | group m e ih =>
      rw [typing] at hclean
      rw [eval] at h
      exact (ih hclean (Expr.all_group.1 hfit).2 h).of_part fun _ => .group
  | binary m l symbol r ihl ihr =>
      rw [typing] at hclean
      rw [eval] at h
      obtain ⟨op, hop, -, hl, hr⟩ := binaryTyping_eq_nil hclean
      obtain ⟨-, hfitl, hfitr⟩ := Expr.all_binary.1 hfit
      rcases bind_error h with hfault | ⟨a, ha, h⟩
      · exact (ihl hl hfitl hfault).of_part fun _ => .left
      rcases bind_error h with hfault | ⟨b, -, h⟩
      · exact (ihr hr hfitr hfault).of_part fun _ => .right ha
      rw [hop] at h
      obtain rfl | rfl | rfl := apply_error h
      all_goals exact ⟨rfl, by simp⟩
  | call m name args ih =>
      obtain ⟨⟨b, hb, harity⟩, hfits⟩ := Expr.all_call.1 hfit
      rw [eval, hb, evalEach_eq_map] at h
      obtain ⟨a, hturn, hfault⟩ := query_error harity h
      have ha : a ∈ args := Builtin.mem_of_mem_numbers hturn.mem
      cases htext : a.textLiteral? with
      | none =>
          have hclean' := complaints_of_argument hclean ha htext
          exact (ih a ha hclean' (hfits a ha) hfault).of_part fun _ => .argument hb hturn
      | some text =>
          -- the check takes such an argument for a color, whatever its place
          obtain ⟨m', rfl⟩ := eq_lit_of_textLiteral? htext
          obtain rfl := Except.error.inj hfault
          refine ⟨rfl, fun _ ht => ?_⟩
          obtain rfl := Fault.notANumber.inj ht
          exact ⟨m, name, args, b, .self _, hb, m', hturn⟩
  | foreign m form => simp [typing] at hclean

end Easel

/-! ### Accepted programs -/

section Accepts

variable {source : String} {program : Program}

/-- What the check has found about an accepted program holds at each of its statements. -/
lemma Accepts.statement (h : Accepts source program) {s : Stmt}
    (hs : s ∈ program.statements.toList) :
    s.action.IsForm ∧
      (∀ name condition, s.action = .goTo name condition →
        name ∈ Program.labelNames program.statements.toList) ∧
      ∃ types, ∀ e ∈ s.action.exprs, (typing types e).complaints = [] ∧ e.All Expr.CallFits := by
  obtain ⟨pre, post, hsplit⟩ := List.append_of_mem hs
  have hverdict := h.verdict hsplit
  refine ⟨isForm_of_verdict hverdict, fun name condition hgoTo => ?_, typesAfter .empty pre,
    fun e he => ?_⟩
  · rw [hgoTo] at hverdict
    exact (verdict_goTo hverdict).1
  · exact ⟨complaints_of_verdict hverdict e he, h.1.wellFormed.1.calls_fit s hs e he⟩

/-- **The statements of an accepted program**, on any easel: no structural fault, and a text is
refused only where a function takes it for a number. -/
theorem Accepts.plan_error (h : Accepts source program) {s : Stmt}
    (hs : s ∈ program.statements.toList) {easel : Easel} {fault : Fault}
    (hfault : easel.plan (Program.labelTable program.statements) s.action = .error fault) :
    fault.isStructural = false ∧ ∀ text, fault = .notANumber text →
      ∃ e, easel.ComesTo s.action.exprs e ∧ easel.TakesForNumber e text := by
  obtain ⟨hform, hjump, types, hexprs⟩ := h.statement hs
  rcases Easel.plan_error hfault with ⟨e, hturn, he⟩ | hown
  · obtain ⟨hclean, hfit⟩ := hexprs e hturn.mem
    have hexcused := Easel.eval_error hclean hfit he
    exact ⟨hexcused.not_structural, fun text ht => ⟨e, hturn, hexcused.text_is_argument text ht⟩⟩
  · generalize s.action = a at hform hjump hown
    cases hown with
    | spawn | size | radius | fill => exact ⟨rfl, by simp⟩
    | goTo hlabel =>
        have hknown := Program.contains_labelTable.2 (hjump _ _ rfl)
        simp [hlabel] at hknown
    | foreign => exact absurd hform id

end Accepts

/-- **Runs of accepted programs**: the machine can be set up on every canvas, and however long it runs
and whatever jumps it takes, no structural fault stops it. A text stops it only at a call that is
given this text, as a literal, for a number. -/
theorem execute_not_structural {source : String} {program : Program} (h : Accepts source program)
    {size : Int} (hsize : 1 ≤ size) :
    ∃ m, Machine.new program.statements size = .ok m ∧
      ∀ limit patience m' fault, m.execute limit patience = (m', .stopped fault) →
        fault.isStructural = false ∧ ∀ text, fault = .notANumber text →
          ∃ s e, m'.statements[m'.pc]? = some s ∧ m'.easel.ComesTo s.action.exprs e ∧
            m'.easel.TakesForNumber e text := by
  obtain ⟨m, hnew⟩ := Machine.exists_new h.1.wellFormed.1 hsize
  obtain ⟨hm, hlabels, -, hrewind⟩ := Machine.new_fresh hnew
  refine ⟨m, hnew, ?_⟩
  intro limit patience m' fault hrun
  rw [Machine.execute, hrewind] at hrun
  obtain ⟨m₁, hreach, ⟨n, rfl, -⟩ | ⟨s, hs, hplan, rfl⟩⟩ := Machine.run_stopped hrun
  · exact ⟨rfl, by simp⟩
  · rw [hreach.program.2, hlabels] at hplan
    have hmem : s ∈ program.statements.toList := by
      rw [hreach.program.1, hm] at hs
      exact Array.mem_toList_iff.2 (Array.mem_of_getElem? hs)
    obtain ⟨hmild, htext⟩ := h.plan_error hmem hplan
    refine ⟨hmild, fun text ht => ?_⟩
    obtain ⟨e, hturn, htake⟩ := htext text ht
    exact ⟨s, e, hs, hturn, htake⟩

/-- A text in which a function is given a text for a number. -/
def misplacedText : String :=
  "Spawn(0, 0)\nloop\nn <- 1 + IsBrushSize(\"wide\")\nGoTo [loop] (n < 2)"

theorem execute_not_structural_misplacedText :
    ∃ program, Accepts misplacedText program ∧ ∃ m, Machine.new program.statements 3 = .ok m ∧
      ∀ limit patience m' fault, m.execute limit patience = (m', .stopped fault) →
        fault.isStructural = false ∧ ∀ text, fault = .notANumber text →
          ∃ s e, m'.statements[m'.pc]? = some s ∧ m'.easel.ComesTo s.action.exprs e ∧
            m'.easel.TakesForNumber e text := by
  obtain ⟨program, h⟩ :
      ∃ program, Reads misplacedText program ∧ Check.errors program.statements = [] := by
    decide +kernel
  exact ⟨program, h, execute_not_structural h (by decide)⟩

end Brushwork
