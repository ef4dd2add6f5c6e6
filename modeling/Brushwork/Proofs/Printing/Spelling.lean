import Brushwork.Proofs.Grammar.Complete
import Brushwork.Proofs.Printing.Scanning

/-!
Printed expressions belong to the grammar.

* `Spells`: tokens that look like the printed expression are, by the grammar, the tokens of that
  expression, up to places.
* `spells_minus`, `spells_chain`, `spells_call` and their like: one form of expressions each.
* `Expr.Graded.spells`: every tree of a grade is spelled. A difference of zero and a unary
  expression is printed with a minus sign, so that it is spelled as a unary expression too.
-/

namespace Brushwork

open Grammar

/-- Tokens that look like the printed tree are the tokens of a tree which differs from it in places
only. -/
def Spells (g : Grade) (e : Expr) : Prop :=
  ∀ ts : List Token, ts.map Token.piece = e.pieces → ∃ e', Yields g e' ts ∧ e'.bare = e.bare

variable {g : Grade} {l : Level} {e : Expr} {t : Token} {m : Mark}

/-! ### Words -/

lemma kind_of_piece {p : Piece} (h : t.piece = p) : t.kind = p.kind := congrArg Piece.kind h

lemma lexeme_of_piece {p : Piece} (h : t.piece = p) : t.lexeme = p.text := congrArg Piece.text h

lemma literal_of_piece {p : Piece} (h : t.piece = p) : t.literal = p.literal :=
  congrArg Piece.literal h

/-- A word that is not reserved is an identifier. -/
lemma IsName.ofWord_eq {name : String} (h : IsName name) : Kind.ofWord name = .ident := by
  have hnone : Kind.reserved.lookup name = none := by
    refine List.lookup_eq_none_iff.2 fun p hp => ?_
    have hne : name ≠ p.1 := fun heq => h.2 (heq ▸ List.mem_map_of_mem hp)
    simpa using hne
  rw [Kind.ofWord, hnone]
  rfl

lemma ofWord_builtin (b : Builtin) : Kind.ofWord b.word = .builtin b := by
  cases b <;> decide

lemma ofWord_command (c : Command) : Kind.ofWord c.word = .command c := by
  cases c <;> decide

/-! ### One form at a time -/

lemma Spells.operand (h : Spells (operandGrade l) e) : Spells (.level l) e := by
  intro ts hts
  obtain ⟨e', he, hbare⟩ := h ts hts
  exact ⟨e', .operand he, hbare⟩

/-- A unary expression is spelled as an expression of every level. -/
lemma Spells.climb (h : Spells .unary e) (l : Level) : Spells (.level l) e :=
  level_of_unary (P := fun g => Spells g e) (fun _ => Spells.operand) h l

lemma Spells.unary (h : Spells .primary e) : Spells .unary e := by
  intro ts hts
  obtain ⟨e', he, hbare⟩ := h ts hts
  exact ⟨e', .primary he, hbare⟩

lemma Spells.both (h : Spells .primary e) :
    Spells .primary e ∧ (e.isUnary = true → Spells .unary e) :=
  ⟨h, fun _ => h.unary⟩

/-- An operator between its operands. -/
lemma spells_chain {left right : Expr} {o : Op} (hl : Spells (.level o.level) left)
    (hr : Spells (operandGrade o.level) right)
    (hplain : (Expr.binary m left o.symbol right).isUnary = false) :
    Spells (.level o.level) (.binary m left o.symbol right) := by
  intro ts hts
  rw [Expr.pieces, hplain, if_neg (by simp), Op.ofSymbol?_symbol, List.append_assoc] at hts
  obtain ⟨us, vs, rfl, hus, hvs⟩ := List.map_eq_append_iff.1 hts
  obtain ⟨t, ws, rfl, ht, hws⟩ := List.map_eq_cons_iff.1 hvs
  obtain ⟨left', hleft, hbare⟩ := hl us hus
  obtain ⟨right', hright, hbare'⟩ := hr ws hws
  have hlevel : level? t = some o.level := by
    rw [level?, kind_of_piece ht]
    rfl
  refine ⟨_, .chain hleft hlevel hright, ?_⟩
  rw [Expr.bare, Expr.bare, hbare, hbare', lexeme_of_piece ht]
  rfl

/-- A minus sign in front of its operand. -/
lemma spells_minus {left right : Expr} {symbol : String} (hr : Spells .unary right)
    (hunary : (Expr.binary m left symbol right).isUnary = true) :
    Spells .unary (.binary m left symbol right) := by
  intro ts hts
  rw [Expr.pieces, if_pos hunary] at hts
  simp only [Expr.isUnary, Bool.and_eq_true, beq_iff_eq] at hunary
  obtain ⟨⟨hzero, rfl⟩, -⟩ := hunary
  obtain ⟨m', rfl⟩ := Expr.eq_lit_of_isZero hzero
  obtain ⟨t, us, rfl, ht, hus⟩ := List.map_eq_cons_iff.1 hts
  obtain ⟨right', hright, hbare⟩ := hr us hus
  refine ⟨_, .minus (kind_of_piece ht) hright, ?_⟩
  rw [Expr.negated, Expr.bare, Expr.bare, hbare]
  rfl

lemma spells_var {name : String} (h : IsName name) : Spells .primary (.var m name) := by
  intro ts hts
  obtain ⟨t, us, rfl, ht, hus⟩ := List.map_eq_cons_iff.1 hts
  obtain rfl := List.map_eq_nil_iff.1 hus
  have hname : isName t.kind = true := by
    rw [kind_of_piece ht, Piece.word, h.ofWord_eq]
    rfl
  refine ⟨_, .var hname, ?_⟩
  rw [Expr.bare, Expr.bare, lexeme_of_piece ht]
  rfl

/-- A literal is one token, and its value is that of the token. -/
lemma spells_lit {v : Literal} {p : Piece} (hpieces : (Expr.lit m v).pieces = [p])
    (hkind : isLiteral p.kind = true) (hvalue : p.literal = some v) :
    Spells .primary (.lit m v) := by
  intro ts hts
  rw [hpieces] at hts
  obtain ⟨t, us, rfl, ht, hus⟩ := List.map_eq_cons_iff.1 hts
  obtain rfl := List.map_eq_nil_iff.1 hus
  rw [← kind_of_piece ht] at hkind
  refine ⟨_, .lit hkind, ?_⟩
  rw [Expr.bare, Expr.bare, Token.value, literal_of_piece ht, hvalue]
  rfl

lemma spells_group (h : Spells (.level .or) e) : Spells .primary (.group m e) := by
  intro ts hts
  rw [Expr.pieces] at hts
  obtain ⟨t, us, rfl, ht, hus⟩ := List.map_eq_cons_iff.1 hts
  obtain ⟨vs, ws, rfl, hvs, hws⟩ := List.map_eq_append_iff.1 hus
  obtain ⟨u, xs, rfl, hu, hxs⟩ := List.map_eq_cons_iff.1 hws
  obtain rfl := List.map_eq_nil_iff.1 hxs
  obtain ⟨e', he, hbare⟩ := h vs hvs
  refine ⟨_, .group (kind_of_piece ht) he (kind_of_piece hu), ?_⟩
  rw [Expr.bare, Expr.bare, hbare]

lemma lists_of_pieces {es : List Expr} (h : ∀ e ∈ es, Spells (.level .or) e) {ts : List Token}
    (hts : ts.map Token.piece = Expr.argPieces es) :
    ∃ es', Lists es' ts ∧ es'.map Expr.bare = es.map Expr.bare := by
  induction es generalizing ts with
  | nil =>
      obtain rfl := List.map_eq_nil_iff.1 hts
      exact ⟨[], .none, rfl⟩
  | cons e es ih =>
      obtain ⟨he, hes⟩ := List.forall_mem_cons.1 h
      cases es with
      | nil =>
          obtain ⟨e', hyields, hbare⟩ := he ts hts
          exact ⟨[e'], .one hyields, by simp [hbare]⟩
      | cons e₂ es =>
          rw [Expr.argPieces] at hts
          obtain ⟨us, vs, rfl, hus, hvs⟩ := List.map_eq_append_iff.1 hts
          obtain ⟨t, ws, rfl, ht, hws⟩ := List.map_eq_cons_iff.1 hvs
          obtain ⟨e', hyields, hbare⟩ := he us hus
          obtain ⟨es', hlists, hbares⟩ := ih hes hws
          have hne : es' ≠ [] := by
            rintro rfl
            simp at hbares
          refine ⟨e' :: es', .more hyields (kind_of_piece ht) hlists hne, ?_⟩
          rw [List.map_cons, List.map_cons, hbare, hbares]

lemma spells_call {name : String} {args : List Expr} {b : Builtin}
    (hb : Builtin.ofWord? name = some b) (h : ∀ a ∈ args, Spells (.level .or) a) :
    Spells .primary (.call m name args) := by
  intro ts hts
  obtain rfl := eq_word_of_ofWord? hb
  rw [Expr.pieces] at hts
  obtain ⟨t, us, rfl, ht, hus⟩ := List.map_eq_cons_iff.1 hts
  obtain ⟨o, vs, rfl, ho, hvs⟩ := List.map_eq_cons_iff.1 hus
  obtain ⟨ws, xs, rfl, hws, hxs⟩ := List.map_eq_append_iff.1 hvs
  obtain ⟨u, ys, rfl, hu, hys⟩ := List.map_eq_cons_iff.1 hxs
  obtain rfl := List.map_eq_nil_iff.1 hys
  obtain ⟨args', hlists, hbares⟩ := lists_of_pieces h hws
  have hname : isName t.kind = true := by
    rw [kind_of_piece ht, Piece.word, ofWord_builtin]
    rfl
  refine ⟨_, .call hname (kind_of_piece ho) hlists (kind_of_piece hu), ?_⟩
  rw [Expr.bare, Expr.bare, Expr.bareEach_eq_map, Expr.bareEach_eq_map, hbares, lexeme_of_piece ht]
  rfl

/-! ### All forms together -/

lemma Expr.Graded.isUnary (h : e.Graded .unary) : e.isUnary = true := by
  generalize hg : Grade.unary = g at h
  induction h with
  | minus _ ih => simpa [Expr.isUnary, Expr.isZero] using ih hg
  | primary he => cases he <;> rfl
  | _ => cases hg

/-- **Every tree of a grade is spelled**, and one that can stand behind a minus sign is spelled so that
it can. -/
theorem Expr.Graded.spells (h : e.Graded g) (hfit : e.All Expr.CallFits) :
    Spells g e ∧ (e.isUnary = true → Spells .unary e) := by
  induction h with
  | operand _ ih => exact ⟨(ih hfit).1.operand, (ih hfit).2⟩
  | @chain m left right o _ _ ihl ihr =>
      obtain ⟨-, hl, hr⟩ := Expr.all_binary.1 hfit
      have hminus : (Expr.binary m left o.symbol right).isUnary = true →
          Spells .unary (.binary m left o.symbol right) := by
        intro hunary
        have hright : right.isUnary = true := (Bool.and_eq_true_iff.1 hunary).2
        exact spells_minus ((ihr hr).2 hright) hunary
      refine ⟨?_, hminus⟩
      cases hunary : (Expr.binary m left o.symbol right).isUnary with
      | true => exact (hminus hunary).climb o.level
      | false => exact spells_chain (ihl hl).1 (ihr hr).1 hunary
  | @minus m m' e he ih =>
      obtain ⟨-, -, hfit⟩ := Expr.all_binary.1 hfit
      have hunary : (Expr.binary m (.lit m' (.int 0)) "-" e).isUnary = true := by
        simpa [Expr.isUnary, Expr.isZero] using he.isUnary
      have hspells := spells_minus (ih hfit).1 hunary
      exact ⟨hspells, fun _ => hspells⟩
  | primary _ ih => exact ⟨(ih hfit).1.unary, fun _ => (ih hfit).1.unary⟩
  | @number m n h₀ h₁ =>
      refine (spells_lit rfl rfl ?_).both
      rw [Piece.number, Int.toNat_of_nonneg h₀]
  | truth b =>
      refine (spells_lit rfl ?_ ?_).both
      · cases b <;> decide
      · cases b <;> decide
  | text s => exact (spells_lit rfl rfl rfl).both
  | var h => exact (spells_var h).both
  | group _ ih => exact (spells_group (ih (Expr.all_group.1 hfit).2).1).both
  | call _ ih =>
      obtain ⟨⟨b, hb, -⟩, hfits⟩ := Expr.all_call.1 hfit
      exact (spells_call hb fun a ha => (ih a ha (hfits a ha)).1).both

end Brushwork
