import Brushwork.Proofs.Machine.Faults
import Brushwork.Proofs.Machine.Hosts

/-!
Calls inside calls.

* `Nests`: how many calls can be nested in one another, where it is known which calls a call leads to.
* `Measures.greatest`: a number that keeps to these calls is the greatest.
* `Check.Calls` and `Easel.Calls`: which calls it takes to check an expression and to find its value.
  `Check.measures` and `Easel.measures`: the depths that are counted keep to them.
* `Check.allows_depthOf` and `Machine.fits_eq_false`: so a host gives a program up exactly where there can be
  more calls inside one another than it has room for.
-/

namespace Brushwork

/-! ### The greatest depth -/

section Greatest

variable {α : Type} {own : α → Nat} {calls : α → Nat → α → Prop} {depth : α → Nat}

/-- At some moment, that many calls are nested in one another. The work on `a` is done in `own a` calls,
and `k` calls of it lead to the work on `b`. -/
inductive Nests (own : α → Nat) (calls : α → Nat → α → Prop) : α → Nat → Prop
  | own (a : α) : Nests own calls a (own a)
  | inner {a b : α} {k n : Nat} (h : calls a k b) (hb : Nests own calls b n) :
      Nests own calls a (k + n)

/-- A number for each piece of work that keeps to the calls, and is no greater than they make it. -/
structure Measures (own : α → Nat) (calls : α → Nat → α → Prop) (depth : α → Nat) : Prop where
  own_le (a : α) : own a ≤ depth a
  inner_le {a b : α} {k : Nat} (h : calls a k b) : k + depth b ≤ depth a
  attained (a : α) : depth a = own a ∨ ∃ k b, calls a k b ∧ 0 < k ∧ depth a = k + depth b

lemma Measures.le (h : Measures own calls depth) {a : α} {n : Nat} (hn : Nests own calls a n) :
    n ≤ depth a := by
  induction hn with
  | own a => exact h.own_le a
  | @inner a b k n hcall _ ih =>
      calc k + n ≤ k + depth b := Nat.add_le_add_left ih k
        _ ≤ depth a := h.inner_le hcall

lemma Measures.nests (h : Measures own calls depth) (a : α) : Nests own calls a (depth a) := by
  induction hd : depth a using Nat.strongRecOn generalizing a with
  | _ d ih =>
      subst hd
      rcases h.attained a with hown | ⟨k, b, hcall, hk, hdepth⟩
      · rw [hown]
        exact .own a
      · rw [hdepth]
        exact .inner hcall (ih (depth b) (by omega) b rfl)

/-- A bound allows the depth exactly if it allows every number of calls that can be nested. -/
theorem Measures.allows (h : Measures own calls depth) (a : α) (bound : Option Nat) :
    Host.allows bound (depth a) = true ↔ ∀ n, Nests own calls a n → Host.allows bound n = true := by
  constructor
  · intro hdepth n hn
    exact Host.allows_mono (h.le hn) hdepth
  · intro hall
    exact hall _ (h.nests a)

end Greatest

/-! ### Checking -/

namespace Check

/-- The calls that are made for an expression itself: an operator takes two. -/
def own : Expr → Nat
  | .binary .. => 2
  | _ => 1

/-- To check the first expression, the second one is checked behind that many calls. -/
inductive Calls : Expr → Nat → Expr → Prop
  | group {mark : Mark} {e : Expr} : Calls (.group mark e) 1 e
  | left {mark : Mark} {l r : Expr} {symbol : String} : Calls (.binary mark l symbol r) 2 l
  | right {mark : Mark} {l r : Expr} {symbol : String} : Calls (.binary mark l symbol r) 2 r
  | argument {mark : Mark} {name : String} {args : List Expr} {e : Expr} (he : e ∈ args)
      (htext : e.textLiteral? = none) : Calls (.call mark name args) 1 e

lemma le_argumentDepth {args : List Expr} {e : Expr} (he : e ∈ args)
    (htext : e.textLiteral? = none) : depth e ≤ argumentDepth args := by
  induction args with
  | nil => cases he
  | cons a args ih =>
      rw [argumentDepth]
      rcases List.mem_cons.1 he with rfl | he
      · rw [htext]
        exact Nat.le_max_left _ _
      · exact Nat.le_trans (ih he) (Nat.le_max_right _ _)

lemma argumentDepth_attained (args : List Expr) :
    argumentDepth args = 0 ∨
      ∃ e ∈ args, e.textLiteral? = none ∧ argumentDepth args = depth e := by
  induction args with
  | nil => exact .inl rfl
  | cons a args ih =>
      rw [argumentDepth]
      cases htext : a.textLiteral? with
      | some text =>
          rw [if_pos Option.isSome_some, Nat.zero_max]
          rcases ih with hzero | ⟨e, he, hrest⟩
          · exact .inl hzero
          · exact .inr ⟨e, List.mem_cons_of_mem a he, hrest⟩
      | none =>
          rw [if_neg (by simp)]
          right
          rcases Nat.le_total (depth a) (argumentDepth args) with h | h
          · rw [Nat.max_eq_right h]
            rcases ih with hzero | ⟨e, he, hrest⟩
            · exact ⟨a, List.mem_cons_self, htext, by omega⟩
            · exact ⟨e, List.mem_cons_of_mem a he, hrest⟩
          · rw [Nat.max_eq_left h]
            exact ⟨a, List.mem_cons_self, htext, rfl⟩

/-- **The depth of checking** is the greatest number of calls inside one another. -/
theorem measures : Measures own Calls depth where
  own_le e := by
    cases e <;> simp [own, depth]
  inner_le h := by
    cases h with
    | group => simp [depth]
    | left => simp only [depth]; omega
    | right => simp only [depth]; omega
    | argument he htext =>
        rw [depth]
        exact Nat.add_le_add_left (le_argumentDepth he htext) 1
  attained e := by
    cases e with
    | lit | var | foreign => exact .inl (by simp [own, depth])
    | group mark e => exact .inr ⟨1, e, .group, by omega, by rw [depth]⟩
    | call mark name args => 
        rcases argumentDepth_attained args with hzero | ⟨e, he, htext, hdepth⟩
        · exact .inl (by simp [depth, hzero, own])
        · exact .inr ⟨1, e, .argument he htext, by omega, by rw [depth, hdepth]⟩
    | binary mark l symbol r =>
        right
        rcases Nat.le_total (depth l) (depth r) with h | h
        · exact ⟨2, r, .right, by omega, by rw [depth, Nat.max_eq_right h]⟩
        · exact ⟨2, l, .left, by omega, by rw [depth, Nat.max_eq_left h]⟩

lemma allows_foldr {bound : Option Nat} (es : List Expr) :
    Host.allows bound (es.foldr (fun e deepest => max (depth e) deepest) 0) = true ↔
      ∀ e ∈ es, Host.allows bound (depth e) = true := by
  induction es with
  | nil => simp [Host.allows_zero]
  | cons e es ih => rw [List.foldr_cons, Host.allows_max, ih, List.forall_mem_cons]

/-- A host checks a program, if no expression of it leads to more calls than it has room for. -/
theorem allows_depthOf {bound : Option Nat} {statements : Array Stmt} :
    Host.allows bound (depthOf statements) = true ↔
      ∀ s ∈ statements.toList, ∀ e ∈ s.action.exprs, ∀ n, Nests own Calls e n →
        Host.allows bound n = true := by
  rw [depthOf, allows_foldr]
  simp only [List.forall_mem_flatMap, measures.allows]

end Check

/-! ### Values -/

namespace Easel

/-- The calls that are made for an expression itself: an operator and a function take two. -/
def own : Expr → Nat
  | .binary .. | .call .. => 2
  | _ => 1

/-- To find the value of the first expression, that of the second one is asked for behind that many
calls. -/
inductive Calls (easel : Easel) : Expr → Nat → Expr → Prop
  | group {mark : Mark} {e : Expr} : Calls easel (.group mark e) 1 e
  | left {mark : Mark} {l r : Expr} {symbol : String} : Calls easel (.binary mark l symbol r) 2 l
  | right {mark : Mark} {l r : Expr} {symbol : String} {v : Int} (hl : easel.eval l = .ok v) :
      Calls easel (.binary mark l symbol r) 2 r
  | argument {mark : Mark} {name : String} {b : Builtin} {args : List Expr} {e : Expr}
      (hname : Builtin.ofWord? name = some b) (hcount : args.length = b.arity)
      (he : easel.ComesTo (b.numbers args) e) : Calls easel (.call mark name args) b.calls e

variable {easel : Easel}

lemma isOk_iff {x : Except Fault Int} : x.isOk = true ↔ ∃ v, x = .ok v := by
  cases x with
  | error fault => simp [Except.isOk, Except.toBool]
  | ok v => simp [Except.isOk, Except.toBool]

lemma comesTo_head (e : Expr) (es : List Expr) : easel.ComesTo (e :: es) e :=
  ⟨[], es, rfl, List.forall_mem_nil _⟩

lemma depthOfRow_drop (n : Nat) (es : List Expr) :
    easel.depthOfRow n es = easel.depthOfRow 0 (es.drop n) := by
  induction n generalizing es with
  | zero => rw [List.drop_zero]
  | succ n ih =>
      cases es with
      | nil => rw [List.drop_nil, depthOfRow, depthOfRow]
      | cons e es => rw [depthOfRow, List.drop_succ_cons, ih]

lemma depthOfRow_numbers (b : Builtin) (args : List Expr) :
    easel.depthOfRow b.unvalued args = easel.depthOfRow 0 (b.numbers args) := by
  have hdrop : b.numbers args = args.drop b.unvalued := by cases b <;> rfl
  rw [hdrop, depthOfRow_drop]

lemma ComesTo.le_depthOfRow {es : List Expr} {e : Expr} (h : easel.ComesTo es e) :
    easel.depth e ≤ easel.depthOfRow 0 es := by
  obtain ⟨pre, post, rfl, hpre⟩ := h
  induction pre with
  | nil =>
      rw [List.nil_append, depthOfRow]
      exact Nat.le_max_left _ _
  | cons p pre ih =>
      obtain ⟨hp, hpre⟩ := List.forall_mem_cons.1 hpre
      rw [List.cons_append, depthOfRow, if_pos (isOk_iff.2 hp)]
      exact Nat.le_trans (ih hpre) (Nat.le_max_right _ _)

lemma depthOfRow_attained (es : List Expr) :
    es = [] ∧ easel.depthOfRow 0 es = 0 ∨
      ∃ e, easel.ComesTo es e ∧ easel.depthOfRow 0 es = easel.depth e := by
  induction es with
  | nil => exact .inl ⟨rfl, by rw [depthOfRow]⟩
  | cons a es ih =>
      right
      rw [depthOfRow]
      by_cases ha : (easel.eval a).isOk = true
      · obtain ⟨v, hv⟩ := isOk_iff.1 ha
        rw [if_pos ha]
        rcases Nat.le_total (easel.depth a) (easel.depthOfRow 0 es) with h | h
        · rw [Nat.max_eq_right h]
          rcases ih with ⟨-, hzero⟩ | ⟨e, he, hdepth⟩
          · exact ⟨a, comesTo_head a es, by omega⟩
          · exact ⟨e, he.next hv, hdepth⟩
        · rw [Nat.max_eq_left h]
          exact ⟨a, comesTo_head a es, rfl⟩
      · rw [if_neg ha, Nat.max_zero]
        exact ⟨a, comesTo_head a es, rfl⟩

/-- The depth of a function that is called as it should be, and of any other one. -/
lemma depth_call (mark : Mark) (name : String) (args : List Expr) :
    (∃ b, Builtin.ofWord? name = some b ∧ args.length = b.arity ∧
      easel.depth (.call mark name args) =
        b.calls + easel.depthOfRow 0 (b.numbers args)) ∨
    easel.depth (.call mark name args) = 2 := by
  rw [depth]
  cases hname : Builtin.ofWord? name with
  | none => exact .inr rfl
  | some b =>
      dsimp only
      by_cases hcount : args.length = b.arity
      · rw [if_pos hcount, depthOfRow_numbers]
        exact .inl ⟨b, rfl, hcount, rfl⟩
      · exact .inr (if_neg hcount)

lemma two_le_calls (b : Builtin) : 2 ≤ b.calls := by
  cases b <;> decide

/-- Only a function whose arguments are valued one by one takes more calls than two. -/
lemma calls_eq_two {b : Builtin} {args : List Expr} (hcount : args.length = b.arity)
    (hnil : b.numbers args = []) : b.calls = 2 := by
  cases b with
  | getColorCount =>
      have hfew : args.length ≤ 1 := List.drop_eq_nil_iff.1 hnil
      have hfive : args.length = 5 := hcount
      omega
  | _ => rfl

/-- **The depth of finding a value** is the greatest number of calls inside one another. -/
theorem measures (easel : Easel) : Measures own easel.Calls easel.depth where
  own_le e := by
    cases e with
    | lit | var | foreign | group | binary => simp [own, depth]
    | call mark name args =>
        rcases depth_call mark name args with ⟨b, -, -, hdepth⟩ | hdepth
        · rw [hdepth]
          exact Nat.le_add_right_of_le (two_le_calls b)
        · exact Nat.le_of_eq hdepth.symm
  inner_le h := by
    cases h with
    | group => exact Nat.le_of_eq (by rw [depth])
    | left =>
        rw [depth]
        omega
    | right hl =>
        rw [depth, if_pos (isOk_iff.2 ⟨_, hl⟩)]
        omega
    | argument hname hcount he =>
        rw [depth, hname]
        dsimp only
        rw [if_pos hcount, depthOfRow_numbers]
        exact Nat.add_le_add_left he.le_depthOfRow _
  attained e := by
    cases e with
    | lit | var | foreign => exact .inl (by simp [own, depth])
    | group mark e => exact .inr ⟨1, e, .group, by omega, by rw [depth]⟩
    | binary mark l symbol r =>
        right
        rw [depth]
        by_cases hl : (easel.eval l).isOk = true
        · obtain ⟨v, hv⟩ := isOk_iff.1 hl
          rw [if_pos hl]
          rcases Nat.le_total (easel.depth l) (easel.depth r) with h | h
          · exact ⟨2, r, .right hv, by omega, by rw [Nat.max_eq_right h]⟩
          · exact ⟨2, l, .left, by omega, by rw [Nat.max_eq_left h]⟩
        · rw [if_neg hl, Nat.max_zero]
          exact ⟨2, l, .left, by omega, rfl⟩
    | call mark name args =>
        rcases depth_call mark name args with ⟨b, hname, hcount, hdepth⟩ | hdepth
        · rcases depthOfRow_attained (b.numbers args) with ⟨hnil, hzero⟩ | ⟨e, he, hrow⟩
          · left
            rw [hdepth, hzero, calls_eq_two hcount hnil, own]
          · right
            have hpos : 0 < b.calls := Nat.lt_of_lt_of_le Nat.zero_lt_two (two_le_calls b)
            exact ⟨b.calls, e, .argument hname hcount he, hpos, by rw [hdepth, hrow]⟩
        · exact .inl hdepth

/-- A bound allows the depth of a row of expressions, if none whose value is asked for leads to more
calls. -/
lemma allows_depthOfRow {bound : Option Nat} {es : List Expr} :
    Host.allows bound (easel.depthOfRow 0 es) = true ↔
      ∀ e, easel.ComesTo es e → ∀ n, Nests own easel.Calls e n → Host.allows bound n = true := by
  constructor
  · intro hrow e he
    exact (easel.measures.allows e bound).1 (Host.allows_mono he.le_depthOfRow hrow)
  · intro hall
    rcases depthOfRow_attained es with ⟨-, hzero⟩ | ⟨e, he, hrow⟩
    · rw [hzero]
      exact Host.allows_zero bound
    · rw [hrow]
      exact (easel.measures.allows e bound).2 (hall e he)

end Easel

namespace Machine

variable {host : Host} {limit : Option Int} {m : Machine}

lemma fits_of_room {s : Stmt} (hs : m.statements[m.pc]? = some s)
    (hroom : reaches m.steps limit = none) :
    m.fits host limit = Host.allows host.valuing (m.easel.planDepth s.action) := by
  rw [fits, hs, hroom]

lemma exists_of_not_fits (h : m.fits host limit = false) :
    ∃ s, m.statements[m.pc]? = some s ∧ reaches m.steps limit = none := by
  rw [fits] at h
  split at h
  · next s hs hroom => exact ⟨s, hs, hroom⟩
  · cases h

/-- **A machine does not fit a host**, if it stands at a statement with room for one more, and finding a
value that this statement asks for takes more calls inside one another than the host allows. -/
theorem fits_eq_false :
    m.fits host limit = false ↔
      ∃ s e n, m.statements[m.pc]? = some s ∧ reaches m.steps limit = none ∧
        m.easel.ComesTo s.action.exprs e ∧ Nests Easel.own m.easel.Calls e n ∧
        Host.allows host.valuing n = false := by
  constructor
  · intro h
    obtain ⟨s, hs, hroom⟩ := exists_of_not_fits h
    rw [fits_of_room hs hroom, Bool.eq_false_iff, ne_eq, Easel.planDepth,
      Easel.allows_depthOfRow] at h
    simp only [not_forall, Bool.not_eq_true] at h
    obtain ⟨e, he, n, hn, hbound⟩ := h
    exact ⟨s, e, n, hs, hroom, he, hn, hbound⟩
  · rintro ⟨s, e, n, hs, hroom, he, hn, hbound⟩
    rw [fits_of_room hs hroom, Bool.eq_false_iff, ne_eq, Easel.planDepth, Easel.allows_depthOfRow]
    intro hall
    rw [hall e he n hn] at hbound
    cases hbound

end Machine

end Brushwork
