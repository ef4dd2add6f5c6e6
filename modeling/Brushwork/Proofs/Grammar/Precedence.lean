import Brushwork.Proofs.Grammar.Yield
import Brushwork.Proofs.Token.Places

/-!
Expressions account for every token, and hold together in the right order.

A unary minus and a difference with zero are trees of the same form. They are told apart by their
places: the zero of a minus sign stands where the sign stands, and any other one where it is written.

* `Regular`: rows of tokens of which no two stand at the same place, and in which operators are
  written with their symbols. `scan_regular`: the tokens of a text are such a row.
* `Expr.words`: the tokens of a tree, from left to right, as far as they matter to it.
* `Expr.Ordered`: the operands of an operator hold together as tightly as they have to.
* `Yields.words_eq` and `Yields.ordered`: so it is with trees that are made of a regular row.
* `Settles`: no operator of a level or a tighter one follows. `level_settles`: none does behind an
  expression of that level.
* `expression_in_order`: all of it, for the expressions of a text.
-/

namespace Brushwork

/-! ### Places in order -/

namespace Position

variable {p q r : Position}

/-- The place comes before the other one. -/
def Before (p q : Position) : Prop := p.line < q.line ∨ p.line = q.line ∧ p.col < q.col

lemma Before.trans (h : p.Before q) (h' : q.Before r) : p.Before r := by
  rw [Before] at h h' ⊢
  omega

lemma Before.ne (h : p.Before q) : p ≠ q := by
  rintro rfl
  rw [Before] at h
  omega

lemma before_right {n : Nat} (hn : 0 < n) (p : Position) : p.Before (p.right n) := by
  rw [Before, right]
  dsimp only
  omega

lemma before_nextLine (p : Position) : p.Before p.nextLine := by
  rw [Before, nextLine]
  dsimp only
  omega

lemma before_afterQuoted {cs : List Char} (hcs : cs ≠ []) (p : Position) :
    p.Before (p.afterQuoted cs) := by
  -- a step goes further on, and so do all that follow it, if there are any
  have hstep : ∀ {p q : Position} {ds : List Char}, p.Before q →
      (ds ≠ [] → q.Before (q.afterQuoted ds)) → p.Before (q.afterQuoted ds) := by
    intro p q ds hq hds
    cases ds with
    | nil => exact hq
    | cons d ds => exact hq.trans (hds (List.cons_ne_nil d ds))
  fun_induction afterQuoted p cs with
  | case1 p => exact absurd rfl hcs
  | case2 p c cs ih => exact hstep (before_right Nat.two_pos p) ih
  | case3 p cs ih => exact hstep p.before_nextLine ih
  | case4 p c cs _ _ ih => exact hstep (before_right Nat.one_pos p) ih

/-- Behind a segment one is further on. -/
lemma before_after {s : Segment} (hs : s.text ≠ []) (p : Position) : p.Before (p.after s) := by
  rw [after]
  split
  · exact p.before_nextLine
  · exact before_afterQuoted hs p
  · exact before_afterQuoted hs p
  · exact before_right (List.length_pos_iff.2 hs) p

end Position

/-! ### The tokens of a text -/

open Segment

section Regular

variable {ts us : List Token} {t : Token}

/-- No two of the tokens stand at the same place, and operators are written with their symbols. -/
structure Regular (ts : List Token) : Prop where
  places : ts.Pairwise fun t u => t.position ≠ u.position
  symbols : ∀ t ∈ ts, ∀ o, t.kind = .op o → t.lexeme = o.symbol

lemma Regular.sublist (h : Regular ts) (hus : us.Sublist ts) : Regular us :=
  ⟨h.places.sublist hus, fun t ht => h.symbols t (hus.subset ht)⟩

lemma Regular.left (h : Regular (ts ++ us)) : Regular ts := h.sublist (List.sublist_append_left ts us)

lemma Regular.right (h : Regular (ts ++ us)) : Regular us :=
  h.sublist (List.sublist_append_right ts us)

lemma Regular.tail (h : Regular (t :: ts)) : Regular ts := h.sublist (List.sublist_cons_self t ts)

/-- A token stands at another place than those before it. -/
lemma Regular.ne_mark (h : Regular (ts ++ t :: us)) {u : Token} (hu : u ∈ ts) :
    u.position.mark ≠ t.position.mark := by
  have hne : u.position ≠ t.position :=
    (List.pairwise_append.1 h.places).2.2 u hu t List.mem_cons_self
  intro heq
  apply hne
  obtain ⟨hline, hcol⟩ := Mark.mk.inj heq
  rw [Position.mk.injEq]
  exact ⟨Int.ofNat.inj (Option.some.inj hline), Int.ofNat.inj (Option.some.inj hcol)⟩

end Regular

/-- Tokens come in the order of their places. -/
lemma closed_ordered {segments : List Segment} (h : ∀ s ∈ segments, s.text ≠ []) (p : Position) :
    (∀ t ∈ (Scan.ofSegments p segments).closed, t.position = p ∨ p.Before t.position) ∧
      (Scan.ofSegments p segments).closed.Pairwise fun t u => t.position.Before u.position := by
  induction segments generalizing p with
  | nil => exact ⟨List.forall_mem_singleton.2 (.inl rfl), List.pairwise_singleton _ _⟩
  | cons s segments ih =>
      obtain ⟨hs, hsegments⟩ := List.forall_mem_cons.1 h
      obtain ⟨hplaces, hordered⟩ := ih hsegments (p.after s)
      have hbehind : ∀ t ∈ (Scan.ofSegments (p.after s) segments).closed, p.Before t.position := by
        intro t ht
        have hafter := Position.before_after hs p
        rcases hplaces t ht with heq | hbefore
        · rwa [heq]
        · exact hafter.trans hbefore
      have hfirst : ∀ t ∈ (s.token? p).toList, t.position = p := by
        intro t ht
        rw [Option.mem_toList, Segment.token?] at ht
        split at ht
        · rw [← Option.some.inj ht]
        · cases ht
      rw [closed_cons]
      constructor
      · intro t ht
        rcases List.mem_append.1 ht with ht | ht
        · exact .inl (hfirst t ht)
        · exact .inr (hbehind t ht)
      · refine List.pairwise_append.2 ⟨?_, hordered, fun t ht u hu => ?_⟩
        · cases s.token? p with
          | none => exact .nil
          | some t => exact List.pairwise_singleton _ t
        · rw [hfirst t ht]
          exact hbehind u hu

lemma ofWord_ne_op (w : String) (o : Op) : Kind.ofWord w ≠ .op o := by
  have hreserved : ∀ kind ∈ Kind.reserved.map Prod.snd, kind ≠ .op o := by
    simp [Kind.reserved, Command.all, Builtin.all]
  rcases ofWord_cases w with h | h
  · simp [h]
  · exact hreserved _ h

/-- An operator is written with its symbol. -/
lemma Segment.Fits.symbol {rest : List Char} {s : Segment} {piece : Piece} {o : Op}
    (h : Fits rest s) (hs : s.piece? = some piece) (ho : piece.kind = .op o) :
    piece.text = o.symbol := by
  cases h with
  | word =>
      obtain rfl := Option.some.inj hs
      exact absurd ho (ofWord_ne_op _ o)
  | number =>
      obtain rfl := Option.some.inj hs
      cases ho
  | string =>
      obtain rfl := Option.some.inj hs
      cases ho
  | pair h =>
      obtain rfl := Option.some.inj hs
      obtain rfl : _ = Kind.op o := ho
      rw [pairKind?.eq_def] at h
      split at h <;> cases h <;> rfl
  | single h =>
      obtain rfl := Option.some.inj hs
      obtain rfl : _ = Kind.op o := ho
      rw [singleKind?.eq_def] at h
      split at h <;> cases h <;> rfl
  | blank | lone | stray | tooLarge | unclosed => cases hs

/-- **The tokens of a text are regular.** -/
theorem scan_regular {source : String} {scan : Scan} (h : scan? source = some scan) :
    Regular scan.closed := by
  obtain ⟨-, hscan⟩ := scan?_eq_some h
  have htexts : ∀ s ∈ cut source.toList, s.text ≠ [] := by
    intro s hs
    obtain ⟨before, after, heq⟩ := List.append_of_mem hs
    obtain ⟨c, cs, -, hfirst⟩ := cut_split heq
    have hne := first_text_ne_nil c cs
    rwa [hfirst] at hne
  have hordered := (closed_ordered htexts .origin).2
  rw [← hscan] at hordered
  refine ⟨hordered.imp Position.Before.ne, fun t ht o ho => ?_⟩
  rcases List.mem_append.1 ht with ht | ht
  · obtain ⟨rest, s, hfits, hpiece⟩ := exists_fits_of_mem h ht
    exact hfits.symbol hpiece ho
  · obtain rfl := List.mem_singleton.1 ht
    cases ho

/-! ### Trees -/

/-- What a token is to a tree. -/
inductive Word where
  | literal (value : Literal)
  | name (s : String)
  | op (symbol : String)
  | openParen
  | closeParen
  | comma
  /-- A token that no tree is written with. -/
  | other (kind : Kind)
deriving DecidableEq

/-- What the token is to a tree. -/
def Token.word (t : Token) : Word :=
  match t.kind with
  | .truth _ | .number | .string => .literal t.value
  | .ident | .builtin _ => .name t.lexeme
  | .op _ => .op t.lexeme
  | .openParen => .openParen
  | .closeParen => .closeParen
  | .comma => .comma
  | kind => .other kind

namespace Grammar

/-- The place of a grade in the order of binding, loosest first. -/
def Grade.rank : Grade → Nat
  | level l => l.rank
  | unary => 6
  | primary => 7

lemma rank_operandGrade (l : Level) : (operandGrade l).rank = l.rank + 1 := by
  cases l <;> rfl

end Grammar

open Grammar

namespace Expr

/-- The tree is that of a minus sign: its zero stands in the place of the sign. -/
def isNegation : Expr → Bool
  | binary m (lit m' v) symbol _ => m' == m && v == .int 0 && symbol == "-"
  | _ => false

/-- How tightly the parts of a tree hold together. -/
def grade : Expr → Grade
  | binary m l symbol r =>
    if (binary m l symbol r).isNegation then .unary
    else
      match Op.ofSymbol? symbol with
      | some o => .level o.level
      | none => .primary
  | _ => .primary

/-- The operands of the tree hold together as they have to: that of a minus sign is itself such a tree
or a primary one, the left one of an operator is of its level or a tighter one, and the right one of a
tighter one. -/
def Ordered : Expr → Prop
  | binary m l symbol r =>
    if (binary m l symbol r).isNegation then Grade.unary.rank ≤ r.grade.rank
    else ∃ o, Op.ofSymbol? symbol = some o ∧ o.level.rank ≤ l.grade.rank ∧
      o.level.rank < r.grade.rank
  | _ => True

mutual

/-- The tokens of a tree, from left to right. -/
def words : Expr → List Word
  | lit _ v => [.literal v]
  | var _ name => [.name name]
  | binary m l symbol r =>
    if (binary m l symbol r).isNegation then .op symbol :: words r
    else words l ++ .op symbol :: words r
  | group _ e => .openParen :: (words e ++ [.closeParen])
  | call _ name args => .name name :: .openParen :: (argWords args ++ [.closeParen])
  | foreign _ _ => []

/-- The tokens of a row of trees, with a comma between each two. -/
def argWords : List Expr → List Word
  | [] => []
  | [e] => words e
  | e :: e' :: es => words e ++ .comma :: argWords (e' :: es)

end

lemma argWords_cons {e : Expr} {es : List Expr} (h : es ≠ []) :
    argWords (e :: es) = words e ++ .comma :: argWords es := by
  cases es with
  | nil => exact absurd rfl h
  | cons e' es => rw [argWords]

section Negation

variable {m : Mark} {l r : Expr} {symbol : String}

lemma isNegation_negated (m : Mark) (e : Expr) :
    (binary m (lit m (.int 0)) "-" e).isNegation = true := by
  simp [isNegation]

/-- A difference whose left operand stands elsewhere is not that of a minus sign. -/
lemma isNegation_of_ne (h : l.mark ≠ m) : (binary m l symbol r).isNegation = false := by
  cases l with
  | lit m' v =>
      have hne : (m' == m) = false := beq_false_of_ne h
      simp [isNegation, hne]
  | _ => rfl

end Negation

end Expr

namespace Grammar

variable {g : Grade} {l : Level} {e : Expr} {es : List Expr} {t : Token} {ts us : List Token}

/-! ### Trees and their tokens -/

lemma word_of_isName (h : isName t.kind = true) : t.word = .name t.lexeme := by
  rw [Token.word]
  split <;> simp_all [isName]

lemma word_of_isLiteral (h : isLiteral t.kind = true) : t.word = .literal t.value := by
  rw [Token.word]
  split <;> simp_all [isLiteral]

lemma word_of_op {o : Op} (h : t.kind = .op o) : t.word = .op t.lexeme := by
  rw [Token.word, h]

/-- Every tree stands where one of its tokens stands. -/
lemma Yields.exists_mark (h : Yields g e ts) : ∃ t ∈ ts, e.mark = t.position.mark := by
  have hprimary : ∀ e ts, Yields .primary e ts → ∃ t ∈ ts, e.mark = t.position.mark := by
    intro e ts h
    cases h <;> exact ⟨_, by simp, rfl⟩
  have hunary : ∀ e ts, Yields .unary e ts → ∃ t ∈ ts, e.mark = t.position.mark := by
    intro e ts h
    cases h with
    | minus => exact ⟨_, by simp, rfl⟩
    | primary he => exact hprimary _ _ he
  have hlevel : ∀ l e ts, Yields (.level l) e ts → ∃ t ∈ ts, e.mark = t.position.mark := by
    refine level_of_unary
      (P := fun g => ∀ e ts, Yields g e ts → ∃ t ∈ ts, e.mark = t.position.mark) ?_ hunary
    intro l hoperand e ts h
    cases h with
    | operand he => exact hoperand _ _ he
    | chain => exact ⟨_, by simp, rfl⟩
  cases g with
  | level l => exact hlevel l e ts h
  | unary => exact hunary e ts h
  | primary => exact hprimary e ts h

/-- So an operator behind its left operand is no minus sign. -/
lemma Yields.not_isNegation (he : Yields g e ts) (h : Regular (ts ++ t :: us)) {right : Expr} :
    (Expr.binary t.position.mark e t.lexeme right).isNegation = false := by
  obtain ⟨u, hu, hmark⟩ := he.exists_mark
  refine Expr.isNegation_of_ne ?_
  rw [hmark]
  exact h.ne_mark hu

lemma ofSymbol?_of_level? (h : Regular ts) (hmem : t ∈ ts) (ht : level? t = some l) :
    ∃ o, Op.ofSymbol? t.lexeme = some o ∧ o.level = l := by
  obtain ⟨o, ho, hl⟩ := kind_of_level? ht
  exact ⟨o, by rw [h.symbols t hmem o ho, Op.ofSymbol?_symbol], hl⟩

mutual

/-- **The tokens of a tree** are those that it was made of, one by one. -/
theorem Yields.words_eq {g : Grade} {e : Expr} {ts : List Token} :
    Yields g e ts → Regular ts → ts.map Token.word = e.words
  | .operand he, h => he.words_eq h
  | .chain hl ht hr, h => by
      obtain ⟨o, ho, -⟩ := kind_of_level? ht
      have hleft := hl.words_eq h.left
      have hright := hr.words_eq h.right.tail
      rw [Expr.words, hl.not_isNegation h, if_neg Bool.false_ne_true, ← hleft, ← hright,
        List.map_append, List.map_cons, word_of_op ho]
  | .minus (t := t) (e := e) ht he, h => by
      have hinner := he.words_eq h.tail
      have hlexeme : t.lexeme = "-" := h.symbols t List.mem_cons_self .sub ht
      rw [Expr.negated, Expr.words, if_pos (Expr.isNegation_negated _ e), ← hinner, List.map_cons,
        word_of_op ht, hlexeme]
  | .primary he, h => he.words_eq h
  | .var ht, _ => by
      rw [Expr.words, List.map_singleton, word_of_isName ht]
  | .lit ht, _ => by
      rw [Expr.words, List.map_singleton, word_of_isLiteral ht]
  | .group ht he hu, h => by
      have hinner := he.words_eq h.tail.left
      rw [Expr.words, ← hinner, List.map_cons, List.map_append, List.map_singleton, Token.word,
        Token.word, ht, hu]
  | .call ht ho hargs hu, h => by
      have hinner := hargs.words_eq h.tail.tail.left
      rw [Expr.words, ← hinner, List.map_cons, List.map_cons, List.map_append, List.map_singleton,
        word_of_isName ht, Token.word, Token.word, ho, hu]

theorem Lists.words_eq {es : List Expr} {ts : List Token} :
    Lists es ts → Regular ts → ts.map Token.word = Expr.argWords es
  | .none, _ => by rw [Expr.argWords, List.map_nil]
  | .one he, h => by
      rw [Expr.argWords]
      exact he.words_eq h
  | .more he ht hes hne, h => by
      have hfirst := he.words_eq h.left
      have hothers := hes.words_eq h.right.tail
      rw [Expr.argWords_cons hne, ← hfirst, ← hothers, List.map_append, List.map_cons, Token.word, ht]

end

/-! ### Trees and their order -/

mutual

/-- **The order of a tree**: it holds together as tightly as its grade says, and so do its parts. -/
theorem Yields.ordered {g : Grade} {e : Expr} {ts : List Token} :
    Yields g e ts → Regular ts → g.rank ≤ e.grade.rank ∧ e.All Expr.Ordered
  | .operand (l := l) he, h => by
      obtain ⟨hrank, hall⟩ := he.ordered h
      rw [rank_operandGrade] at hrank
      exact ⟨Nat.le_of_succ_le hrank, hall⟩
  | .chain (l := l) (t := t) hl ht hr, h => by
      obtain ⟨hleft, hallLeft⟩ := hl.ordered h.left
      obtain ⟨hright, hallRight⟩ := hr.ordered h.right.tail
      obtain ⟨o, ho, rfl⟩ := ofSymbol?_of_level? h (by simp) ht
      rw [rank_operandGrade] at hright
      refine ⟨?_, Expr.all_binary.2 ⟨?_, hallLeft, hallRight⟩⟩
      · rw [Expr.grade, hl.not_isNegation h, if_neg Bool.false_ne_true, ho]
      · rw [Expr.Ordered, hl.not_isNegation h, if_neg Bool.false_ne_true]
        exact ⟨o, ho, hleft, hright⟩
  | .minus (t := t) (e := e) ht he, h => by
      obtain ⟨hrank, hall⟩ := he.ordered h.tail
      have hneg := Expr.isNegation_negated t.position.mark e
      refine ⟨?_, Expr.all_binary.2 ⟨?_, Expr.all_lit.2 trivial, hall⟩⟩
      · rw [Expr.negated, Expr.grade, if_pos hneg]
      · rw [Expr.Ordered, if_pos hneg]
        exact hrank
  | .primary he, h => by
      obtain ⟨hrank, hall⟩ := he.ordered h
      exact ⟨Nat.le_of_succ_le hrank, hall⟩
  | .var _, _ => ⟨Nat.le_refl _, Expr.all_var.2 trivial⟩
  | .lit _, _ => ⟨Nat.le_refl _, Expr.all_lit.2 trivial⟩
  | .group _ he _, h => ⟨Nat.le_refl _, Expr.all_group.2 ⟨trivial, (he.ordered h.tail.left).2⟩⟩
  | .call _ _ hargs _, h =>
      ⟨Nat.le_refl _, Expr.all_call.2 ⟨trivial, hargs.ordered h.tail.tail.left⟩⟩

theorem Lists.ordered {es : List Expr} {ts : List Token} :
    Lists es ts → Regular ts → ∀ e ∈ es, e.All Expr.Ordered
  | .none, _ => List.forall_mem_nil _
  | .one he, h => List.forall_mem_singleton.2 (he.ordered h).2
  | .more he _ hes _, h =>
      List.forall_mem_cons.2 ⟨(he.ordered h.left).2, hes.ordered h.right.tail⟩

end

/-! ### What follows -/

/-- What follows begins with no operator of that rank or above it. -/
def Settles (k : Nat) : List Token → Prop
  | [] => True
  | t :: _ => ∀ o, t.kind = .op o → o.level.rank < k

/-- A reading that goes on with what was found has found both. -/
lemma exists_of_bind_found {α β : Type} {n : Nat} {r : Bounded α n}
    {f : α → (ts : List Token) → ts.length ≤ n → Bounded β n} {w : β} {rest : List Token}
    (h : (r.bind f).1.answer = .found w rest) :
    ∃ v mid hmid, r.1.answer = .found v mid ∧ (f v mid hmid).1.answer = .found w rest := by
  obtain ⟨⟨ps, a⟩, hr⟩ := r
  cases a with
  | found v mid => exact ⟨v, mid, hr, rfl, h⟩
  | refused p mid => cases h
  | cut => cases h

lemma rank_inj {l m : Level} (h : l.rank = m.rank) : l = m := by
  cases l <;> cases m <;> simp_all [Level.rank]

/-- A chain goes on as long as operators of its level follow. -/
lemma chain_settles {left : Expr} {rest : List Token}
    (ho : ∀ ts e rest, (operand l ts).1.answer = .found e rest → Settles (l.rank + 1) rest)
    (hts : Settles (l.rank + 1) ts) (h : (chain l left ts).1.answer = .found e rest) :
    Settles l.rank rest := by
  induction hn : ts.length using Nat.strong_induction_on generalizing ts left with
  | _ n ih =>
      cases ts with
      | nil =>
          rw [chain] at h
          cases h
      | cons t us =>
          rw [chain] at h
          split at h
          · obtain ⟨right, mid, hmid, hoperand, hchain⟩ := exists_of_bind_found h
            have hshorter : mid.length < n := by
              rw [List.length_cons] at hn
              omega
            exact ih _ hshorter (ho us right mid hoperand) hchain rfl
          · next hlevel =>
            obtain ⟨-, rfl⟩ := Answer.found.inj h
            intro o hkind
            have hle : o.level.rank < l.rank + 1 := hts o hkind
            have hne : o.level.rank ≠ l.rank := by
              intro heq
              apply hlevel
              rw [level?, hkind]
              exact congrArg some (rank_inj heq)
            omega

/-- What a reading of that grade leaves to follow. -/
def Grade.Settles : Grade → Prop
  | level l => ∀ ts e rest, (Grammar.level l ts).1.answer = .found e rest →
      Grammar.Settles l.rank rest
  | unary | primary => True

/-- Behind an operand, operators of its level may follow, but none that is tighter. -/
lemma operand_settles (hg : (operandGrade l).Settles) {rest : List Token}
    (h : (operand l ts).1.answer = .found e rest) : Settles (l.rank + 1) rest := by
  cases htighter : l.tighter with
  | some m =>
      obtain ⟨hgrade, hoperand⟩ := operand_of_tighter htighter ts
      rw [hgrade] at hg
      rw [hoperand] at h
      rw [← Level.rank_tighter htighter]
      exact hg ts e rest h
  | none =>
      obtain rfl : l = .factor := by
        cases l <;> simp_all [Level.tighter]
      cases rest with
      | nil => trivial
      | cons t us => exact fun o _ => Nat.lt_succ_of_le o.level.rank_le

/-- **Behind an expression of a level** no operator of that level or a tighter one follows. -/
theorem level_settles (l : Level) : (Grade.level l).Settles := by
  refine level_of_unary (fun l hg => ?_) trivial l
  intro ts e rest h
  rw [level] at h
  obtain ⟨left, mid, hmid, hoperand, hchain⟩ := exists_of_bind_found h
  exact chain_settles (fun _ _ _ => operand_settles hg) (operand_settles hg hoperand) hchain

end Grammar

/-- From wherever the tokens of a text are taken, the mark that closes them is there. -/
lemma Scan.exists_eof_drop (scan : Scan) {i : Nat} (h : scan.closed.drop i ≠ []) :
    ∃ t ∈ scan.closed.drop i, t.kind = .eof := by
  have hlength : i < scan.closed.length := by
    by_contra hi
    exact h (List.drop_of_length_le (Nat.le_of_not_lt hi))
  rw [Scan.closed, List.length_append, List.length_singleton] at hlength
  refine ⟨.eof scan.finish, ?_, rfl⟩
  rw [Scan.closed, List.drop_append_of_le_length (Nat.le_of_lt_succ hlength)]
  exact List.mem_append_right _ (List.mem_singleton_self _)

/-- **Expressions account for every token that they take**, wherever in a text they are read from. The
tokens that were passed are those of the tree, from left to right; its operators group by their levels
and to the left, and a minus sign binds tighter than all of them; and the token that comes next is no
operator. -/
theorem expression_in_order {source : String} {scan : Scan} (h : scan? source = some scan) {i : Nat}
    {e : Expr} {rest : List Token}
    (hread : (expression (scan.closed.drop i)).answer = .found e rest) :
    ∃ j t, i < j ∧ rest = scan.closed.drop j ∧ scan.closed[j]? = some t ∧ (∀ o, t.kind ≠ .op o) ∧
      ((scan.closed.take j).drop i).map Token.word = e.words ∧ e.All Expr.Ordered := by
  have haccounts := expression_accounts (scan.closed.drop i)
  rw [Reading.Accounts, hread] at haccounts
  obtain ⟨used, hused, hunclosed, hyields, -⟩ := haccounts
  have hregular : Regular used := by
    refine (scan_regular h).sublist (List.Sublist.trans ?_ (List.drop_sublist i scan.closed))
    rw [hused]
    exact List.sublist_append_left used rest
  obtain ⟨first, hfirst, -⟩ := hyields.exists_mark
  have hpos : 0 < used.length := List.length_pos_of_mem hfirst
  have hsettles : Settles Level.or.rank rest := level_settles .or _ _ _ hread
  have hrest : scan.closed.drop (i + used.length) = rest := by
    rw [← List.drop_drop, hused, List.drop_left]
  cases rest with
  | nil =>
      -- the closing mark would have been passed
      rw [List.append_nil] at hused
      obtain ⟨t, ht, heof⟩ := scan.exists_eof_drop (hused ▸ List.ne_nil_of_mem hfirst)
      exact absurd heof (hunclosed t (hused ▸ ht))
  | cons t us =>
      refine ⟨i + used.length, t, by omega, hrest.symm, ?_, ?_, ?_, (hyields.ordered hregular).2⟩
      · rw [← List.head?_drop, hrest, List.head?_cons]
      · exact fun o ho => Nat.not_lt_zero _ (hsettles o ho)
      · rw [List.drop_take, hused, Nat.add_sub_cancel_left, List.take_left]
        exact hyields.words_eq hregular

/-- What was read, if something was. -/
def Grammar.Answer.value? {α : Type} : Answer α → Option α
  | found v _ => some v
  | refused _ _ | cut => none

lemma Grammar.Answer.exists_of_value? {α : Type} {a : Answer α} {v : α} (h : a.value? = some v) :
    ∃ rest, a = .found v rest := by
  cases a with
  | found w rest =>
      obtain rfl := Option.some.inj h
      exact ⟨rest, rfl⟩
  | refused p rest => cases h
  | cut => cases h

/-- A zero that is written and one that stands for a minus sign, among operators of many levels. -/
def signedText : String := "n <- 0 - -f(a, (1 + 2) * 3) ** 2 < 4 && b"

/-- What is to be read of it behind the arrow. -/
def signedWords : List Word :=
  [.literal (.int 0), .op "-", .op "-", .name "f", .openParen, .name "a", .comma, .openParen,
    .literal (.int 1), .op "+", .literal (.int 2), .closeParen, .op "*", .literal (.int 3),
    .closeParen, .op "**", .literal (.int 2), .op "<", .literal (.int 4), .op "&&", .name "b"]

theorem expression_in_order_signedText :
    ∃ scan e rest, scan? signedText = some scan ∧
      (expression (scan.closed.drop 2)).answer = .found e rest ∧ e.words = signedWords ∧
      ∃ j t, 2 < j ∧ rest = scan.closed.drop j ∧ scan.closed[j]? = some t ∧
        (∀ o, t.kind ≠ .op o) ∧ ((scan.closed.take j).drop 2).map Token.word = e.words ∧
        e.All Expr.Ordered := by
  have hread : ((scan? signedText).any fun scan =>
      (expression (scan.closed.drop 2)).answer.value?.map Expr.words == some signedWords) = true := by
    decide +kernel
  obtain ⟨scan, hscan, hvalue⟩ := (Option.any_eq_true _ _).1 hread
  obtain ⟨e, he, hwords⟩ := Option.map_eq_some_iff.1 (eq_of_beq hvalue)
  obtain ⟨rest, hfound⟩ := Answer.exists_of_value? he
  exact ⟨scan, e, rest, hscan, hfound, hwords, expression_in_order hscan hfound⟩

end Brushwork
