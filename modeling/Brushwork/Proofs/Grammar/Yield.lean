import Brushwork.Grammar.Expression
import Brushwork.Proofs.Syntax.Part

/-!
The tokens of expressions.

`Yields` is the grammar of expressions as a relation between a grade, a tree and the tokens that the
tree is written with. The readers of expressions keep to it:

* `Reading.Accounts`: what a reading says about the tokens it was given. Those before the rest are
  accounted for, and the closing mark is not among them.
* `accounts_bind`: readings in a row account for their tokens in a row.
* `expression_accounts`: an expression that is found is made of the tokens it was read from, and
  there is nothing to note exactly if its calls fit.
-/

namespace Brushwork.Grammar

/-! ### The grammar -/

/-- How tightly the parts of an expression hold together, loosest first. -/
inductive Grade where
  | level (l : Level)
  | unary
  | primary

/-- The grade of the operands of a level. -/
def operandGrade (l : Level) : Grade :=
  match l.tighter with
  | some m => .level m
  | none => .unary

/-- What holds of the unary grade, and of a level if it holds of its operands, holds of all levels. -/
lemma level_of_unary {P : Grade → Prop} (hstep : ∀ l, P (operandGrade l) → P (.level l))
    (h : P .unary) (l : Level) : P (.level l) := by
  have hfactor : P (.level .factor) := hstep .factor h
  have hterm : P (.level .term) := hstep .term hfactor
  have hcomparison : P (.level .comparison) := hstep .comparison hterm
  have hequality : P (.level .equality) := hstep .equality hcomparison
  have hand : P (.level .and) := hstep .and hequality
  cases l with
  | factor => exact hfactor
  | term => exact hterm
  | comparison => exact hcomparison
  | equality => exact hequality
  | and => exact hand
  | or => exact hstep .or hand

/-- A token of that kind can name a variable or a function. -/
def isName : Kind → Bool
  | .ident | .builtin _ => true
  | _ => false

/-- A token of that kind is a literal. -/
def isLiteral : Kind → Bool
  | .truth _ | .number | .string => true
  | _ => false

mutual

/-- The tree is of that grade and is written with these tokens. -/
inductive Yields : Grade → Expr → List Token → Prop
  | operand {l : Level} {e : Expr} {ts : List Token} (he : Yields (operandGrade l) e ts) :
      Yields (.level l) e ts
  | chain {l : Level} {left right : Expr} {ts us : List Token} {t : Token}
      (hl : Yields (.level l) left ts) (ht : level? t = some l)
      (hr : Yields (operandGrade l) right us) :
      Yields (.level l) (.binary t.position.mark left t.lexeme right) (ts ++ t :: us)
  | minus {e : Expr} {us : List Token} {t : Token} (ht : t.kind = .op .sub)
      (he : Yields .unary e us) : Yields .unary (.negated t.position.mark e) (t :: us)
  | primary {e : Expr} {ts : List Token} (he : Yields .primary e ts) : Yields .unary e ts
  | var {t : Token} (ht : isName t.kind = true) :
      Yields .primary (.var t.position.mark t.lexeme) [t]
  | lit {t : Token} (ht : isLiteral t.kind = true) :
      Yields .primary (.lit t.position.mark t.value) [t]
  | group {e : Expr} {us : List Token} {t u : Token} (ht : t.kind = .openParen)
      (he : Yields (.level .or) e us) (hu : u.kind = .closeParen) :
      Yields .primary (.group t.position.mark e) (t :: (us ++ [u]))
  | call {args : List Expr} {us : List Token} {t o u : Token} (ht : isName t.kind = true)
      (ho : o.kind = .openParen) (hargs : Lists args us) (hu : u.kind = .closeParen) :
      Yields .primary (.call t.position.mark t.lexeme args) (t :: o :: (us ++ [u]))

/-- The trees are written with these tokens, a comma between each two. -/
inductive Lists : List Expr → List Token → Prop
  | none : Lists [] []
  | one {e : Expr} {ts : List Token} (he : Yields (.level .or) e ts) : Lists [e] ts
  | more {e : Expr} {es : List Expr} {ts us : List Token} {t : Token}
      (he : Yields (.level .or) e ts) (ht : t.kind = .comma) (hes : Lists es us) (hne : es ≠ []) :
      Lists (e :: es) (ts ++ t :: us)

end

mutual

/-- A tree that is written with tokens is made of expressions only. -/
lemma Yields.all_isForm {g : Grade} {e : Expr} {ts : List Token} :
    Yields g e ts → e.All Expr.IsForm
  | .operand he => he.all_isForm
  | .chain hl _ hr => Expr.all_binary.2 ⟨trivial, hl.all_isForm, hr.all_isForm⟩
  | .minus _ he => Expr.all_binary.2 ⟨trivial, Expr.all_lit.2 trivial, he.all_isForm⟩
  | .primary he => he.all_isForm
  | .var _ => Expr.all_var.2 trivial
  | .lit _ => Expr.all_lit.2 trivial
  | .group _ he _ => Expr.all_group.2 ⟨trivial, he.all_isForm⟩
  | .call _ _ hargs _ => Expr.all_call.2 ⟨trivial, hargs.all_isForm⟩

lemma Lists.all_isForm {es : List Expr} {ts : List Token} :
    Lists es ts → ∀ e ∈ es, e.All Expr.IsForm
  | .none => List.forall_mem_nil _
  | .one he => List.forall_mem_singleton.2 he.all_isForm
  | .more he _ hes _ => List.forall_mem_cons.2 ⟨he.all_isForm, hes.all_isForm⟩

end

/-! ### Accounts -/

/-- The closing mark is not among the tokens. -/
def Unclosed (ts : List Token) : Prop := ∀ t ∈ ts, t.kind ≠ .eof

@[simp] lemma unclosed_nil : Unclosed [] := by simp [Unclosed]

@[simp] lemma unclosed_cons {t : Token} {ts : List Token} :
    Unclosed (t :: ts) ↔ t.kind ≠ .eof ∧ Unclosed ts := by simp [Unclosed]

@[simp] lemma unclosed_append {ts us : List Token} :
    Unclosed (ts ++ us) ↔ Unclosed ts ∧ Unclosed us := by
  simp [Unclosed, or_imp, forall_and]

variable {α β : Type} {n : Nat} {ts us : List Token} {t : Token}

/-- The reading accounts for the tokens `ts` that it was given: whatever is left of them is an end of
the row, the closing mark has not been passed, and what was found stands to the tokens before the
rest and to the problems as `P` says. -/
def Reading.Accounts (ts : List Token) (P : α → List Token → List Problem → Prop) (r : Reading α) :
    Prop :=
  match r.answer with
  | .found v rest => ∃ used, ts = used ++ rest ∧ Unclosed used ∧ P v used r.problems
  | .refused _ rest => ∃ used, ts = used ++ rest ∧ Unclosed used
  | .cut => Unclosed ts

lemma accounts_found {P : α → List Token → List Problem → Prop} {v : α} {h : ts.length ≤ n}
    (hP : P v [] []) : (Bounded.found v ts h).1.Accounts ts P :=
  ⟨[], rfl, unclosed_nil, hP⟩

lemma accounts_refused {P : α → List Token → List Problem → Prop} {p : Problem}
    {h : ts.length ≤ n} : (Bounded.refused p ts h).1.Accounts ts P :=
  ⟨[], rfl, unclosed_nil⟩

lemma accounts_cut {P : α → List Token → List Problem → Prop} (h : Unclosed ts) :
    (Bounded.cut : Bounded α n).1.Accounts ts P := h

lemma Reading.Accounts.mono {P Q : α → List Token → List Problem → Prop} {r : Reading α}
    (hr : r.Accounts ts P) (hPQ : ∀ v used ps, P v used ps → Q v used ps) : r.Accounts ts Q := by
  obtain ⟨ps, a⟩ := r
  cases a with
  | found v rest =>
      obtain ⟨used, hts, hu, hP⟩ := hr
      exact ⟨used, hts, hu, hPQ v used ps hP⟩
  | refused p rest => exact hr
  | cut => exact hr

/-- A token in front, read before, is accounted for with the rest. -/
lemma Reading.Accounts.cons {Q : α → List Token → List Problem → Prop} {r : Reading α}
    (hr : r.Accounts us fun v used ps => Q v (t :: used) ps) (ht : t.kind ≠ .eof) :
    r.Accounts (t :: us) Q := by
  obtain ⟨ps, a⟩ := r
  cases a with
  | found v rest =>
      obtain ⟨used, rfl, hu, hQ⟩ := hr
      exact ⟨t :: used, rfl, unclosed_cons.2 ⟨ht, hu⟩, hQ⟩
  | refused p rest =>
      obtain ⟨used, rfl, hu⟩ := hr
      exact ⟨t :: used, rfl, unclosed_cons.2 ⟨ht, hu⟩⟩
  | cut => exact unclosed_cons.2 ⟨ht, hr⟩

/-- Problems that are noted ahead come first. -/
lemma accounts_noting {Q : α → List Token → List Problem → Prop} {r : Bounded α n}
    {ps : List Problem} (hr : r.1.Accounts ts fun v used qs => Q v used (ps ++ qs)) :
    (r.noting ps).1.Accounts ts Q := by
  obtain ⟨⟨qs, a⟩, h⟩ := r
  cases a with
  | found v rest => exact hr
  | refused p rest => exact hr
  | cut => exact hr

/-- **Readings in a row**: the second goes on where the first stopped, so the two account for the
tokens of both. -/
theorem accounts_bind {P : α → List Token → List Problem → Prop}
    {Q : β → List Token → List Problem → Prop} {r : Bounded α n}
    {f : α → (ts : List Token) → ts.length ≤ n → Bounded β n} (hr : r.1.Accounts ts P)
    (hf : ∀ v used rest h ps, P v used ps →
      (f v rest h).1.Accounts rest fun w us qs => Q w (used ++ us) (ps ++ qs)) :
    (r.bind f).1.Accounts ts Q := by
  obtain ⟨⟨ps, a⟩, h⟩ := r
  cases a with
  | refused p rest => exact hr
  | cut => exact hr
  | found v rest =>
      obtain ⟨used, rfl, hu, hP⟩ := hr
      have hnext := accounts_noting (Q := fun w us qs => Q w (used ++ us) qs)
        (hf v used rest h ps hP)
      show ((f v rest h).noting ps).1.Accounts (used ++ rest) Q
      revert hnext
      generalize (f v rest h).noting ps = s
      obtain ⟨⟨qs, b⟩, hb⟩ := s
      intro hnext
      cases b with
      | found w rest' =>
          obtain ⟨us, rfl, hus, hQ⟩ := hnext
          exact ⟨used ++ us, (List.append_assoc ..).symm, unclosed_append.2 ⟨hu, hus⟩, hQ⟩
      | refused p rest' =>
          obtain ⟨us, rfl, hus⟩ := hnext
          exact ⟨used ++ us, (List.append_assoc ..).symm, unclosed_append.2 ⟨hu, hus⟩⟩
      | cut => exact unclosed_append.2 ⟨hu, hnext⟩

lemma accounts_expect {kind : Kind} {cause : Problem.Cause} (hk : kind ≠ .eof) :
    (Bounded.expect kind cause ts).1.Accounts ts
      fun t used ps => t.kind = kind ∧ used = [t] ∧ ps = [] := by
  cases ts with
  | nil => exact unclosed_nil
  | cons t us =>
      rw [Bounded.expect]
      split
      · next h => exact ⟨[t], rfl, by simp [h, hk], h, rfl, rfl⟩
      · exact accounts_refused

/-! ### The readers, one at a time -/

/-- The tree was read from these tokens: it is of the grade, and there was nothing to note exactly if
its calls fit. -/
structure IsRead (g : Grade) (e : Expr) (used : List Token) (ps : List Problem) : Prop where
  yields : Yields g e used
  calls : ps = [] ↔ e.All Expr.CallFits

/-- The tree was read from these tokens as a chain that goes on from `left`. -/
structure IsChained (l : Level) (left e : Expr) (used : List Token) (ps : List Problem) : Prop where
  yields : ∀ pre, Yields (.level l) left pre → Yields (.level l) e (pre ++ used)
  calls : ps = [] ∧ left.All Expr.CallFits ↔ e.All Expr.CallFits

/-- The trees were read from these tokens as the arguments of a call. -/
structure AreRead (es : List Expr) (used : List Token) (ps : List Problem) : Prop where
  lists : Lists es used
  nonempty : es ≠ []
  calls : ps = [] ↔ ∀ e ∈ es, e.All Expr.CallFits

lemma kind_of_level? {l : Level} (h : level? t = some l) : ∃ o, t.kind = .op o ∧ o.level = l := by
  rw [level?] at h
  split at h
  · next o ho => exact ⟨o, ho, Option.some.inj h⟩
  · simp at h

lemma ne_eof_of_level? {l : Level} (h : level? t = some l) : t.kind ≠ .eof := by
  obtain ⟨o, ho, -⟩ := kind_of_level? h
  simp [ho]

lemma ne_eof_of_isName (h : isName t.kind = true) : t.kind ≠ .eof := by
  intro he
  simp [he, isName] at h

lemma callProblems_eq_nil {name close : Token} {count : Nat} :
    callProblems name close count = [] ↔
      ∃ b, Builtin.ofWord? name.lexeme = some b ∧ count = b.arity := by
  rw [callProblems]
  cases h : Builtin.ofWord? name.lexeme with
  | none => simp
  | some b => by_cases hc : count = b.arity <;> simp [hc]

lemma closeCall_accounts {args : List Expr} {o : Token} {us : List Token} {ps : List Problem}
    (ht : isName t.kind = true) (ho : o.kind = .openParen) (hargs : Lists args us)
    (hps : ps = [] ↔ ∀ e ∈ args, e.All Expr.CallFits) :
    (closeCall t args ts).1.Accounts ts
      fun e used qs => IsRead .primary e (t :: o :: (us ++ used)) (ps ++ qs) := by
  rw [closeCall]
  refine accounts_bind (accounts_expect (by simp)) fun u used rest h qs hu => ?_
  obtain ⟨hu, rfl, rfl⟩ := hu
  refine accounts_noting (accounts_found ⟨.call ht ho hargs hu, ?_⟩)
  rw [List.nil_append, List.append_nil, List.append_eq_nil_iff, callProblems_eq_nil, hps,
    Expr.all_call, and_comm]
  rfl

lemma level_accounts {l : Level} (ho : (operand l ts).1.Accounts ts (IsRead (operandGrade l)))
    (hc : ∀ e rest, rest.length ≤ ts.length → (chain l e rest).1.Accounts rest (IsChained l e)) :
    (level l ts).1.Accounts ts (IsRead (.level l)) := by
  rw [level]
  refine accounts_bind ho fun e used rest h ps he => ?_
  refine (hc e rest h).mono fun w us qs hw => ⟨hw.yields used (.operand he.yields), ?_⟩
  rw [List.append_eq_nil_iff, he.calls, and_comm, hw.calls]

lemma chain_accounts {l : Level} {left : Expr} (ht : level? t = some l)
    (ho : (operand l us).1.Accounts us (IsRead (operandGrade l)))
    (hc : ∀ right rest, rest.length ≤ us.length →
      (chain l (.binary t.position.mark left t.lexeme right) rest).1.Accounts rest
        (IsChained l (.binary t.position.mark left t.lexeme right))) :
    (chain l left (t :: us)).1.Accounts (t :: us) (IsChained l left) := by
  rw [chain, if_pos ht]
  refine Reading.Accounts.cons ?_ (ne_eof_of_level? ht)
  refine accounts_bind ho fun right used rest h ps hr => ?_
  refine (hc right rest h).mono fun w vs qs hw => ⟨fun pre hpre => ?_, ?_⟩
  · have h := hw.yields (pre ++ t :: used) (.chain hpre ht hr.yields)
    simpa using h
  · have h : qs = [] ∧ left.All Expr.CallFits ∧ right.All Expr.CallFits ↔ w.All Expr.CallFits := by
      simpa [Expr.CallFits] using hw.calls
    rw [← h, List.append_eq_nil_iff, hr.calls]
    tauto

lemma chain_accounts_end {l : Level} {left : Expr} (ht : ¬level? t = some l) :
    (chain l left (t :: us)).1.Accounts (t :: us) (IsChained l left) := by
  rw [chain, if_neg ht]
  exact accounts_found ⟨fun pre hpre => by simpa using hpre, by simp⟩

lemma operand_of_tighter {l m : Level} (h : l.tighter = some m) (ts : List Token) :
    operandGrade l = .level m ∧ operand l ts = level m ts := by
  rw [operand, operandGrade, h]
  exact ⟨rfl, rfl⟩

lemma operand_of_tightest {l : Level} (h : l.tighter = none) (ts : List Token) :
    operandGrade l = .unary ∧ operand l ts = unary ts := by
  rw [operand, operandGrade, h]
  exact ⟨rfl, rfl⟩

lemma unary_accounts (ht : t.kind = .op .sub) (hu : (unary us).1.Accounts us (IsRead .unary)) :
    (unary (t :: us)).1.Accounts (t :: us) (IsRead .unary) := by
  rw [unary, if_pos ht]
  refine Reading.Accounts.cons ?_ (by simp [ht])
  refine accounts_bind hu fun e used rest h ps he => accounts_found ⟨?_, ?_⟩
  · rw [List.append_nil]
    exact .minus ht he.yields
  · simp [Expr.negated, Expr.CallFits, he.calls]

lemma unary_accounts_primary (ht : ¬t.kind = .op .sub)
    (hp : (primary (t :: us)).1.Accounts (t :: us) (IsRead .primary)) :
    (unary (t :: us)).1.Accounts (t :: us) (IsRead .unary) := by
  rw [unary, if_neg ht]
  exact hp.mono fun e used ps he => ⟨.primary he.yields, he.calls⟩

lemma primary_of_isName (ht : isName t.kind = true) :
    primary (t :: us) = ((named t us).weaken (Nat.le_succ _)).nested 1 := by
  rw [primary]
  split <;> simp_all [isName]

lemma primary_of_isLiteral (ht : isLiteral t.kind = true) :
    primary (t :: us) =
      (Bounded.found (.lit t.position.mark t.value) us (Nat.le_succ _)).nested 1 := by
  rw [primary]
  split <;> simp_all [isLiteral]

/-- A token that begins no expression is refused. -/
lemma primary_of_other (hident : t.kind ≠ .ident) (hbuiltin : ∀ b, t.kind ≠ .builtin b)
    (htruth : ∀ b, t.kind ≠ .truth b) (hnumber : t.kind ≠ .number) (hstring : t.kind ≠ .string)
    (hopen : t.kind ≠ .openParen) (us : List Token) :
    primary (t :: us) =
      (Bounded.refused (.near t (.unexpected t.lexeme)) (t :: us) (Nat.le_refl _)).nested 1 := by
  rw [primary]
  split <;> simp_all

lemma primary_accounts_named (ht : isName t.kind = true)
    (hn : (named t us).1.Accounts us fun e used ps => IsRead .primary e (t :: used) ps) :
    (primary (t :: us)).1.Accounts (t :: us) (IsRead .primary) := by
  rw [primary_of_isName ht]
  exact hn.cons (ne_eof_of_isName ht)

lemma primary_accounts_literal (ht : isLiteral t.kind = true) :
    (primary (t :: us)).1.Accounts (t :: us) (IsRead .primary) := by
  rw [primary_of_isLiteral ht]
  have hne : t.kind ≠ .eof := by
    intro he
    simp [he, isLiteral] at ht
  exact ⟨[t], rfl, by simp [hne], .lit ht, by simp [Expr.CallFits, Bounded.found]⟩

lemma primary_accounts_group (ht : t.kind = .openParen)
    (he : (level .or us).1.Accounts us (IsRead (.level .or))) :
    (primary (t :: us)).1.Accounts (t :: us) (IsRead .primary) := by
  rw [primary, ht]
  refine Reading.Accounts.cons ?_ (by simp [ht])
  refine accounts_bind he fun e used rest h ps he => ?_
  refine accounts_bind (accounts_expect (by simp)) fun u vs rest' h' qs hu => ?_
  obtain ⟨hu, rfl, rfl⟩ := hu
  refine accounts_found ⟨?_, ?_⟩
  · rw [List.append_nil]
    exact .group ht he.yields hu
  · simp [Expr.CallFits, he.calls]

lemma named_accounts {u : Token} (hu : u.kind = .openParen)
    (hc : (callOf t us).1.Accounts us fun e used ps => IsRead .primary e (t :: u :: used) ps) :
    (named t (u :: us)).1.Accounts (u :: us) fun e used ps => IsRead .primary e (t :: used) ps := by
  rw [named, if_pos hu]
  exact Reading.Accounts.cons hc (by simp [hu])

lemma named_accounts_var {u : Token} (ht : isName t.kind = true) (hu : ¬u.kind = .openParen) :
    (named t (u :: us)).1.Accounts (u :: us) fun e used ps => IsRead .primary e (t :: used) ps := by
  rw [named, if_neg hu]
  exact accounts_found ⟨.var ht, by simp [Expr.CallFits]⟩

lemma callOf_accounts {o u : Token} (ht : isName t.kind = true) (ho : o.kind = .openParen)
    (hu : ¬u.kind = .closeParen) (ha : (arguments (u :: us)).1.Accounts (u :: us) AreRead) :
    (callOf t (u :: us)).1.Accounts (u :: us)
      fun e used ps => IsRead .primary e (t :: o :: used) ps := by
  rw [callOf, if_neg hu]
  refine accounts_bind ha fun args used rest h ps hargs => ?_
  exact closeCall_accounts ht ho hargs.lists hargs.calls

lemma arguments_accounts (he : (level .or ts).1.Accounts ts (IsRead (.level .or)))
    (ha : ∀ (t : Token) (us : List Token), (t :: us).length ≤ ts.length →
      (arguments us).1.Accounts us AreRead) :
    (arguments ts).1.Accounts ts AreRead := by
  rw [arguments]
  refine accounts_bind he fun e used rest h ps he => ?_
  cases rest with
  | nil => exact accounts_cut unclosed_nil
  | cons t us =>
      dsimp only
      split
      · next hcomma =>
        refine Reading.Accounts.cons ?_ (by simp [hcomma])
        refine accounts_bind (ha t us h) fun es vs rest' h' qs hes => accounts_found ⟨?_, by simp, ?_⟩
        · rw [List.append_nil]
          exact .more he.yields hcomma hes.lists hes.nonempty
        · simp [he.calls, hes.calls]
      · refine accounts_found ⟨?_, by simp, ?_⟩
        · rw [List.append_nil]
          exact .one he.yields
        · simp [he.calls]

/-! ### All readers together -/

/-- **Expressions are made of their tokens**: what is read as an expression is one, written with the
tokens that were passed, and nothing was noted exactly if all its calls fit their functions. -/
theorem expression_accounts (ts : List Token) :
    (expression ts).Accounts ts (IsRead (.level .or)) := by
  refine (level.mutual_induct
    (fun l ts => (level l ts).1.Accounts ts (IsRead (.level l)))
    (fun l left ts => (chain l left ts).1.Accounts ts (IsChained l left))
    (fun l ts => (operand l ts).1.Accounts ts (IsRead (operandGrade l)))
    (fun ts => (unary ts).1.Accounts ts (IsRead .unary))
    (fun ts => (primary ts).1.Accounts ts (IsRead .primary))
    (fun t ts => isName t.kind = true →
      (named t ts).1.Accounts ts fun e used ps => IsRead .primary e (t :: used) ps)
    (fun t ts => isName t.kind = true → ∀ o : Token, o.kind = .openParen →
      (callOf t ts).1.Accounts ts fun e used ps => IsRead .primary e (t :: o :: used) ps)
    (fun ts => (arguments ts).1.Accounts ts AreRead)
    ?level ?chainNil ?chain ?chainEnd ?tighter ?tightest ?unaryNil ?minus ?unary ?primaryNil
    ?ident ?builtin ?truth ?number ?string ?group ?refused ?namedNil ?named ?var ?callNil
    ?callEmpty ?call ?arguments).1 .or ts
  case level => exact fun l ts ho hc => level_accounts ho hc
  case chainNil => exact fun l left => by rw [chain]; exact unclosed_nil
  case chain => exact fun l left t us ht ho hc => chain_accounts ht ho hc
  case chainEnd => exact fun l left t us ht => chain_accounts_end ht
  case tighter =>
    intro l ts m h hm
    rwa [(operand_of_tighter h ts).1, (operand_of_tighter h ts).2]
  case tightest =>
    intro l ts h hu
    rwa [(operand_of_tightest h ts).1, (operand_of_tightest h ts).2]
  case unaryNil => rw [unary]; exact unclosed_nil
  case minus => exact fun t us ht hu => unary_accounts ht hu
  case unary => exact fun t us ht hp => unary_accounts_primary ht hp
  case primaryNil => rw [primary]; exact unclosed_nil
  case ident =>
    intro t us ht hn
    have hname : isName t.kind = true := by rw [ht]; rfl
    exact primary_accounts_named hname (hn hname)
  case builtin =>
    intro t us b ht hn
    have hname : isName t.kind = true := by rw [ht]; rfl
    exact primary_accounts_named hname (hn hname)
  case truth => exact fun t us b ht => primary_accounts_literal (by rw [ht]; rfl)
  case number => exact fun t us ht => primary_accounts_literal (by rw [ht]; rfl)
  case string => exact fun t us ht => primary_accounts_literal (by rw [ht]; rfl)
  case group => exact fun t us ht he => primary_accounts_group ht he
  case refused =>
    intro t us hident hbuiltin htruth hnumber hstring hopen
    rw [primary_of_other hident hbuiltin htruth hnumber hstring hopen]
    exact ⟨[], rfl, unclosed_nil⟩
  case namedNil => exact fun t _ => by rw [named]; exact unclosed_nil
  case named => exact fun t u us hu hc ht => named_accounts hu (hc ht u hu)
  case var => exact fun t u us hu ht => named_accounts_var ht hu
  case callNil => exact fun t _ o _ => by rw [callOf]; exact unclosed_nil
  case callEmpty =>
    intro t u us hu ht o ho
    rw [callOf, if_pos hu]
    have hnone : ([] : List Problem) = [] ↔ ∀ e ∈ ([] : List Expr), e.All Expr.CallFits := by simp
    exact closeCall_accounts ht ho .none hnone
  case call => exact fun t u us hu ha ht o ho => callOf_accounts ht ho hu ha
  case arguments => exact fun ts he ha => arguments_accounts he (ha [])

end Brushwork.Grammar
