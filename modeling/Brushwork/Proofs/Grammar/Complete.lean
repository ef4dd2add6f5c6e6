import Brushwork.Proofs.Grammar.Yield

/-!
Expressions are found.

The readers of expressions find every tree of the grammar, if what follows its tokens does not belong
to it. Together with `expression_accounts` this says that they read the grammar `Yields` and nothing
else.

* `Loose`: what follows cannot be taken into an expression of that level.
* `Finds`: what it is for a reader of a grade to find a tree. A level goes on with what follows, so
  it finds the tree if it comes as far as the chain that begins with it.
* `finds_chain`, `finds_minus`, `finds_call` and their like: one rule of the grammar each.
* `expression_found`: an expression is found, and nothing is noted if its calls fit.
-/

namespace Brushwork.Grammar

variable {α β : Type} {n : Nat} {l m : Level} {e : Expr} {ts us rest : List Token} {t : Token}

/-! ### What may follow -/

/-- A token follows, and it does not open a parenthesis. -/
def Follows (ts : List Token) : Prop := ∃ t us, ts = t :: us ∧ t.kind ≠ .openParen

/-- A token follows that neither opens a parenthesis nor binds tighter than the level. -/
def Loose (l : Level) (ts : List Token) : Prop :=
  ∃ t us, ts = t :: us ∧ t.kind ≠ .openParen ∧ ∀ k, level? t = some k → k.rank ≤ l.rank

lemma Loose.follows (h : Loose l ts) : Follows ts := by
  obtain ⟨t, us, rfl, ht, -⟩ := h
  exact ⟨t, us, rfl, ht⟩

lemma Loose.tighter (h : Loose l ts) (hm : l.tighter = some m) : Loose m ts := by
  obtain ⟨t, us, rfl, ht, hk⟩ := h
  have hrank := Level.rank_tighter hm
  refine ⟨t, us, rfl, ht, fun k hlevel => ?_⟩
  have := hk k hlevel
  omega

/-- A token that is no operator ends expressions of every level. -/
lemma loose_of_level? (ht : t.kind ≠ .openParen) (hlevel : level? t = none) (us : List Token) :
    Loose l (t :: us) :=
  ⟨t, us, rfl, ht, fun k hk => by simp [hlevel] at hk⟩

/-- A chain ends where no operator of its level follows. -/
lemma chain_stops (ht : level? t ≠ some l) (us : List Token) :
    chain l e (t :: us) = .found e (t :: us) (Nat.le_refl _) := by
  rw [chain, if_neg ht]

lemma chain_end (ht : level? t ≠ some l) (us : List Token) :
    (chain l e (t :: us)).1 = ⟨[], .found e (t :: us)⟩ := by
  rw [chain_stops ht]
  rfl

/-! ### Finding -/

/-- The readers of a grade find the tree at the front of a row of tokens. -/
def Finds (g : Grade) (e : Expr) (ts : List Token) : Prop :=
  match g with
  | .level l => ∀ rest, Loose l rest → (level l (ts ++ rest)).1 = (chain l e rest).1
  | .unary => ∀ rest, Follows rest → (unary (ts ++ rest)).1 = ⟨[], .found e rest⟩
  | .primary => ∀ rest, Follows rest → (primary (ts ++ rest)).1 = ⟨[], .found e rest⟩

/-- After what was found without a note, the next reading decides. -/
lemma bind_found {r : Bounded α n} {f : α → (ts : List Token) → ts.length ≤ n → Bounded β n}
    {v : α} {out : Reading β} (hr : r.1 = ⟨[], .found v rest⟩) (hf : ∀ h, (f v rest h).1 = out) :
    (r.bind f).1 = out := by
  obtain ⟨r, h⟩ := r
  obtain rfl : r = ⟨[], .found v rest⟩ := hr
  exact hf h

/-- An operand ends where the operators of its level, and looser ones, begin. -/
lemma operand_found (he : Finds (operandGrade l) e ts) (hrest : Loose l rest) :
    (operand l (ts ++ rest)).1 = ⟨[], .found e rest⟩ := by
  cases hl : l.tighter with
  | none =>
      obtain ⟨hgrade, hoperand⟩ := operand_of_tightest hl (ts ++ rest)
      rw [hgrade] at he
      rw [hoperand]
      exact he rest hrest.follows
  | some m =>
      obtain ⟨hgrade, hoperand⟩ := operand_of_tighter hl (ts ++ rest)
      rw [hgrade] at he
      rw [hoperand, he rest (hrest.tighter hl)]
      obtain ⟨t, us, rfl, -, hk⟩ := hrest
      refine chain_end (fun ht => ?_) us
      have hrank := Level.rank_tighter hl
      have hle := hk m ht
      omega

lemma finds_operand (he : Finds (operandGrade l) e ts) : Finds (.level l) e ts := by
  intro rest hrest
  rw [level]
  exact bind_found (operand_found he hrest) fun _ => rfl

lemma finds_chain {left right : Expr} (hl : Finds (.level l) left ts) (ht : level? t = some l)
    (hr : Finds (operandGrade l) right us) :
    Finds (.level l) (.binary t.position.mark left t.lexeme right) (ts ++ t :: us) := by
  intro rest hrest
  have hopen : t.kind ≠ .openParen := by
    obtain ⟨o, ho, -⟩ := kind_of_level? ht
    simp [ho]
  have hloose : Loose l (t :: (us ++ rest)) := by
    refine ⟨t, us ++ rest, rfl, hopen, fun k hk => ?_⟩
    rw [ht] at hk
    exact Nat.le_of_eq (congrArg Level.rank (Option.some.inj hk).symm)
  rw [List.append_assoc, List.cons_append, hl _ hloose, chain, if_pos ht]
  exact bind_found (operand_found hr hrest) fun _ => rfl

lemma finds_minus (ht : t.kind = .op .sub) (he : Finds .unary e us) :
    Finds .unary (.negated t.position.mark e) (t :: us) := by
  intro rest hrest
  rw [List.cons_append, unary, if_pos ht]
  exact bind_found (he rest hrest) fun _ => rfl

lemma finds_primary (hfirst : ∃ t us, ts = t :: us ∧ t.kind ≠ .op .sub)
    (he : Finds .primary e ts) : Finds .unary e ts := by
  obtain ⟨t, us, rfl, ht⟩ := hfirst
  intro rest hrest
  rw [List.cons_append, unary, if_neg ht]
  exact he rest hrest

lemma finds_var (ht : isName t.kind = true) : Finds .primary (.var t.position.mark t.lexeme) [t] := by
  rintro rest ⟨u, us, rfl, hu⟩
  rw [List.singleton_append, primary_of_isName ht, named, if_neg hu]
  rfl

lemma finds_lit (ht : isLiteral t.kind = true) :
    Finds .primary (.lit t.position.mark t.value) [t] := by
  intro rest _
  rw [List.singleton_append, primary_of_isLiteral ht]
  rfl

/-! ### Parentheses -/

variable {u : Token}

lemma level?_closeParen (hu : u.kind = .closeParen) : level? u = none := by
  rw [level?, hu]

lemma expect_found {kind : Kind} {cause : Problem.Cause} (ht : t.kind = kind) (us : List Token) :
    (Bounded.expect kind cause (t :: us)).1 = ⟨[], .found t us⟩ := by
  rw [Bounded.expect, if_pos ht]
  rfl

/-- Inside parentheses an expression ends where they are closed. -/
lemma level_closed (he : Finds (.level .or) e ts) (hu : u.kind = .closeParen) :
    (level .or (ts ++ u :: us)).1 = ⟨[], .found e (u :: us)⟩ := by
  have hlevel := level?_closeParen hu
  rw [he _ (loose_of_level? (by simp [hu]) hlevel us)]
  exact chain_end (by simp [hlevel]) us

lemma finds_group (ht : t.kind = .openParen) (he : Finds (.level .or) e us)
    (hu : u.kind = .closeParen) : Finds .primary (.group t.position.mark e) (t :: (us ++ [u])) := by
  intro rest _
  have hinner : ((level .or (us ++ u :: rest)).nested 1).1 = ⟨[], .found e (u :: rest)⟩ :=
    level_closed he hu
  rw [List.cons_append, List.append_assoc, List.singleton_append, primary, ht]
  exact bind_found hinner fun _ => bind_found (expect_found hu rest) fun _ => rfl

/-! ### Calls -/

/-- The readers of arguments find these trees. -/
def FindsAll (es : List Expr) (ts : List Token) : Prop :=
  ∀ (u : Token) (us : List Token), u.kind = .closeParen →
    (arguments (ts ++ u :: us)).1 = ⟨[], .found es (u :: us)⟩

lemma findsAll_one (he : Finds (.level .or) e ts) : FindsAll [e] ts := by
  intro u us hu
  rw [arguments]
  refine bind_found (level_closed he hu) fun _ => ?_
  dsimp only
  rw [if_neg (by simp [hu])]
  rfl

lemma findsAll_more {es : List Expr} (he : Finds (.level .or) e ts) (ht : t.kind = .comma)
    (hes : FindsAll es us) : FindsAll (e :: es) (ts ++ t :: us) := by
  intro u vs hu
  have hlevel : level? t = none := by rw [level?, ht]
  have hfirst : (level .or (ts ++ t :: (us ++ u :: vs))).1 =
      ⟨[], .found e (t :: (us ++ u :: vs))⟩ := by
    rw [he _ (loose_of_level? (by simp [ht]) hlevel _)]
    exact chain_end (by simp [hlevel]) _
  rw [List.append_assoc, List.cons_append, arguments]
  refine bind_found hfirst fun _ => ?_
  dsimp only
  rw [if_pos ht]
  exact bind_found (hes u vs hu) fun _ => rfl

/-- A call whose arguments fit is closed without a note. -/
lemma closeCall_found {args : List Expr} (hu : u.kind = .closeParen)
    (hfit : (Expr.call t.position.mark t.lexeme args).CallFits) (us : List Token) :
    (closeCall t args (u :: us)).1 = ⟨[], .found (.call t.position.mark t.lexeme args) us⟩ := by
  rw [closeCall]
  refine bind_found (expect_found hu us) fun _ => ?_
  rw [callProblems_eq_nil.2 hfit]
  rfl

lemma finds_call_none {o : Token} (ht : isName t.kind = true) (ho : o.kind = .openParen)
    (hu : u.kind = .closeParen) (hfit : (Expr.call t.position.mark t.lexeme []).CallFits) :
    Finds .primary (.call t.position.mark t.lexeme []) [t, o, u] := by
  intro rest _
  rw [List.cons_append, primary_of_isName ht, List.cons_append, named, if_pos ho]
  show (callOf t (u :: rest)).1 = _
  rw [callOf, if_pos hu]
  exact closeCall_found hu hfit rest

lemma finds_call {o : Token} {args : List Expr} (ht : isName t.kind = true)
    (ho : o.kind = .openParen) (hfirst : ∃ v vs, us = v :: vs ∧ v.kind ≠ .closeParen)
    (hargs : FindsAll args us) (hu : u.kind = .closeParen)
    (hfit : (Expr.call t.position.mark t.lexeme args).CallFits) :
    Finds .primary (.call t.position.mark t.lexeme args) (t :: o :: (us ++ [u])) := by
  intro rest _
  have hread := hargs u rest hu
  obtain ⟨v, vs, rfl, hv⟩ := hfirst
  rw [List.cons_append, primary_of_isName ht, List.cons_append, named, if_pos ho, List.append_assoc]
  show (callOf t (v :: (vs ++ u :: rest))).1 = _
  rw [callOf, if_neg hv]
  exact bind_found hread fun _ => closeCall_found hu hfit rest

/-! ### All rules together -/

/-- A token of that kind can begin an expression. -/
def beginsExpr (kind : Kind) : Bool :=
  isName kind || isLiteral kind || kind == .openParen || kind == .op .sub

/-- The row begins as a tree of grade `g` can: with a sign only above the primary ones. -/
def Begins (g : Grade) (ts : List Token) : Prop :=
  ∃ t us, ts = t :: us ∧ beginsExpr t.kind = true ∧ (g = .primary → t.kind ≠ .op .sub)

lemma Begins.climb {g g' : Grade} (h : Begins g ts) (hg : g' ≠ .primary) : Begins g' ts := by
  obtain ⟨t, vs, rfl, ht, -⟩ := h
  exact ⟨t, vs, rfl, ht, fun h => absurd h hg⟩

lemma Begins.append {g : Grade} (h : Begins g ts) (us : List Token) : Begins g (ts ++ us) := by
  obtain ⟨t, vs, rfl, ht, hsign⟩ := h
  exact ⟨t, vs ++ us, rfl, ht, hsign⟩

lemma begins_minus (ht : t.kind = .op .sub) : Begins .unary (t :: us) :=
  ⟨t, us, rfl, by simp [beginsExpr, ht], by simp⟩

lemma begins_unsigned {g : Grade} (ht : beginsExpr t.kind = true) (hsign : t.kind ≠ .op .sub) :
    Begins g (t :: us) :=
  ⟨t, us, rfl, ht, fun _ => hsign⟩

lemma begins_name {g : Grade} (ht : isName t.kind = true) : Begins g (t :: us) :=
  begins_unsigned (by simp [beginsExpr, ht]) fun h => by simp [h, isName] at ht

lemma begins_literal {g : Grade} (ht : isLiteral t.kind = true) : Begins g (t :: us) :=
  begins_unsigned (by simp [beginsExpr, ht]) fun h => by simp [h, isLiteral] at ht

lemma begins_openParen {g : Grade} (ht : t.kind = .openParen) : Begins g (t :: us) :=
  begins_unsigned (by simp [beginsExpr, ht]) (by simp [ht])

mutual

lemma Yields.begins {g : Grade} {e : Expr} {ts : List Token} : Yields g e ts → Begins g ts
  | .operand he => he.begins.climb Grade.noConfusion
  | .chain hl _ _ => hl.begins.append _
  | .minus ht _ => begins_minus ht
  | .primary he => he.begins.climb Grade.noConfusion
  | .var ht => begins_name ht
  | .lit ht => begins_literal ht
  | .group ht _ _ => begins_openParen ht
  | .call ht _ _ _ => begins_name ht

lemma Lists.begins {es : List Expr} {ts : List Token} : Lists es ts → es ≠ [] →
    ∃ t us, ts = t :: us ∧ t.kind ≠ .closeParen
  | .none, h => absurd rfl h
  | .one he, _ => by
      obtain ⟨t, us, rfl, ht, -⟩ := he.begins
      exact ⟨t, us, rfl, fun h => by simp [h, beginsExpr, isName, isLiteral] at ht⟩
  | .more he _ _ _, _ => by
      obtain ⟨t, us, rfl, ht, -⟩ := he.begins
      exact ⟨t, _, rfl, fun h => by simp [h, beginsExpr, isName, isLiteral] at ht⟩

end

mutual

/-- **The readers find what the grammar yields.** -/
theorem Yields.finds {g : Grade} {e : Expr} {ts : List Token} :
    Yields g e ts → e.All Expr.CallFits → Finds g e ts
  | .operand he, hfit => finds_operand (he.finds hfit)
  | .chain hl ht hr, hfit =>
      finds_chain (hl.finds (Expr.all_binary.1 hfit).2.1) ht (hr.finds (Expr.all_binary.1 hfit).2.2)
  | .minus ht he, hfit => finds_minus ht (he.finds (Expr.all_binary.1 hfit).2.2)
  | .primary he, hfit => by
      obtain ⟨t, us, hts, -, ht⟩ := he.begins
      exact finds_primary ⟨t, us, hts, ht rfl⟩ (he.finds hfit)
  | .var ht, _ => finds_var ht
  | .lit ht, _ => finds_lit ht
  | .group ht he hu, hfit => finds_group ht (he.finds (Expr.all_group.1 hfit).2) hu
  | .call ht ho hargs hu, hfit => by
      obtain ⟨hcall, hfits⟩ := Expr.all_call.1 hfit
      rcases hargs.finds hfits with ⟨rfl, rfl⟩ | ⟨hne, hfinds⟩
      · exact finds_call_none ht ho hu hcall
      · exact finds_call ht ho (hargs.begins hne) hfinds hu hcall

theorem Lists.finds {es : List Expr} {ts : List Token} :
    Lists es ts → (∀ e ∈ es, e.All Expr.CallFits) →
      (es = [] ∧ ts = []) ∨ (es ≠ [] ∧ FindsAll es ts)
  | .none, _ => .inl ⟨rfl, rfl⟩
  | .one he, hfit => .inr ⟨by simp, findsAll_one (he.finds (List.forall_mem_singleton.1 hfit))⟩
  | .more he ht hes hne, hfit => by
      obtain ⟨hfirst, hothers⟩ := List.forall_mem_cons.1 hfit
      refine .inr ⟨by simp, findsAll_more (he.finds hfirst) ht ?_⟩
      exact ((hes.finds hothers).resolve_left fun h => hne h.1).2

end

/-- **An expression is found**, without a note if its calls fit, in front of a token that is neither
an operator nor an opening parenthesis. -/
theorem expression_found (he : Yields (.level .or) e ts) (hfit : e.All Expr.CallFits)
    (ht : t.kind ≠ .openParen) (hlevel : level? t = none) (us : List Token) :
    expression (ts ++ t :: us) = ⟨[], .found e (t :: us)⟩ := by
  have hread := he.finds hfit _ (loose_of_level? ht hlevel us)
  show (level .or (ts ++ t :: us)).1 = _
  rw [hread]
  exact chain_end (by simp [hlevel]) us

end Brushwork.Grammar
