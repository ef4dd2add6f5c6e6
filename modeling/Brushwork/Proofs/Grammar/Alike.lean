import Brushwork.Proofs.Grammar.Closing
import Brushwork.Proofs.Grammar.Complete

/-!
Rows that are alike up to a line end.

Two rows of tokens begin with the same tokens and go on from a line end each, at a newline or at the
closing mark. Whatever stands before that line end, well formed or not, is read in the same way in
both, and neither reading goes further than the line end:

* `LineBreak`: a row that begins at a line end. `LineBreak.beyond` is the row of the lines after it.
* `Same`: the same problem, up to the token that it may be about.
* `Before` and `Apart`: where the rows are left.
* `alike_bind`: readings in a row are alike if each of them is.
* `whole_alike`: an expression is found, or refused, at the same token of both rows.
-/

namespace Brushwork.Grammar

/-! ### Line ends -/

/-- A row of tokens that begins where a line ends: at a newline that something follows, or at the
closing mark. -/
structure LineBreak where
  mark : Token
  after : List Token
  ends : mark.kind = .newline ∧ after ≠ [] ∨ mark.kind = .eof

namespace LineBreak

/-- The whole row, from the line end on. -/
def row (e : LineBreak) : List Token := e.mark :: e.after

/-- The row from the next line on; the closing mark is not passed. -/
def beyond (e : LineBreak) : List Token := if e.mark.kind = .eof then e.row else e.after

variable {e : LineBreak}

lemma beyond_of_newline (h : e.mark.kind = .newline) : e.beyond = e.after :=
  if_neg (by simp [h])

lemma beyond_of_eof (h : e.mark.kind = .eof) : e.beyond = e.row := if_pos h

lemma kind_mark (e : LineBreak) : e.mark.kind = .newline ∨ e.mark.kind = .eof :=
  e.ends.imp_left And.left

lemma mark_ne {kind : Kind} [h : Reader.Plain kind] : e.mark.kind ≠ kind := by
  rcases e.kind_mark with hk | hk
  · rw [hk]
    exact h.ne_newline.symm
  · rw [hk]
    exact h.ne.symm

lemma level?_mark (e : LineBreak) : level? e.mark = none := by
  rcases e.kind_mark with hk | hk <;> simp [level?, hk]

lemma nil_ne {us : List Token} : [] ≠ us ++ e.row := by simp [row]

/-- A row that comes to the line end begins with it or with a token before it. -/
lemma cons_cases {P : List Token → Prop} {t : Token} {ts us : List Token}
    (h : t :: ts = us ++ e.row) (hnil : t :: ts = e.row → P [])
    (hcons : ∀ vs, ts = vs ++ e.row → P (t :: vs)) : P us := by
  cases us with
  | nil => exact hnil h
  | cons u vs =>
      obtain ⟨rfl, hts⟩ := List.cons.inj h
      exact hcons vs hts

end LineBreak

/-! ### What is left of two rows -/

/-- The same problem, or the same about the one token in place of the other. -/
inductive Same (t t' : Token) : Problem → Problem → Prop
  | refl (p : Problem) : Same t t' p p
  | near (cause : Problem.Cause) : Same t t' (.near t cause) (.near t' cause)
  | unexpected :
      Same t t' (.near t (.unexpected t.lexeme)) (.near t' (.unexpected t'.lexeme))

/-- Both rows are left at the same token, before the line end or at it. -/
def Before (e e' : LineBreak) (rest rest' : List Token) : Prop :=
  ∃ us, rest = us ++ e.row ∧ rest' = us ++ e'.row

/-- Both rows are left at the same token, or both at the line after the line end. -/
def Apart (e e' : LineBreak) (rest rest' : List Token) : Prop :=
  Before e e' rest rest' ∨ rest = e.beyond ∧ rest' = e'.beyond

variable {α β : Type} {e e' : LineBreak}

lemma before_append (us : List Token) : Before e e' (us ++ e.row) (us ++ e'.row) :=
  ⟨us, rfl, rfl⟩

lemma apart_append (us : List Token) : Apart e e' (us ++ e.row) (us ++ e'.row) :=
  .inl (before_append us)

lemma apart_beyond : Apart e e' e.beyond e'.beyond := .inr ⟨rfl, rfl⟩

/-- The answers are the same, with rests that `S` relates; a refusal comes before the line end. -/
inductive Answer.Alike (e e' : LineBreak) (S : List Token → List Token → Prop) :
    Answer α → Answer α → Prop
  | found (v : α) {rest rest' : List Token} (h : S rest rest') :
      Answer.Alike e e' S (.found v rest) (.found v rest')
  | refused {p p' : Problem} (hp : Same e.mark e'.mark p p') {rest rest' : List Token}
      (h : Before e e' rest rest') : Answer.Alike e e' S (.refused p rest) (.refused p' rest')

/-! ### Expressions -/

/-- The readings note the same and end in the same way, with calls that are nested as deep. -/
structure Bounded.Alike (e e' : LineBreak) {m n : Nat} (r : Bounded α m) (r' : Bounded α n) :
    Prop where
  problems : r.reading.problems = r'.reading.problems
  answer : r.reading.answer.Alike e e' (Before e e') r'.reading.answer
  depth : r.depth = r'.depth

/-- Behind the tokens `us`, the reader cannot tell the line ends apart. -/
def ReadsAlike (e e' : LineBreak) (f : (ts : List Token) → Bounded α ts.length) (us : List Token) :
    Prop :=
  Bounded.Alike e e' (f (us ++ e.row)) (f (us ++ e'.row))

section

variable {m n : Nat} {l : Level} {left : Expr} {t : Token} {us : List Token}

lemma alike_found (v : α) (us : List Token) {h : (us ++ e.row).length ≤ m}
    {h' : (us ++ e'.row).length ≤ n} :
    Bounded.Alike e e' (Bounded.found v (us ++ e.row) h) (Bounded.found v (us ++ e'.row) h') :=
  ⟨rfl, .found v (before_append us), rfl⟩

lemma alike_refused {p p' : Problem} (hp : Same e.mark e'.mark p p') (us : List Token)
    {h : (us ++ e.row).length ≤ m} {h' : (us ++ e'.row).length ≤ n} :
    Bounded.Alike e e' (Bounded.refused p (us ++ e.row) h : Bounded α m)
      (Bounded.refused p' (us ++ e'.row) h' : Bounded α n) :=
  ⟨rfl, .refused hp (before_append us), rfl⟩

section

variable {m' n' : Nat} {r : Bounded α m} {r' : Bounded α n}

lemma Bounded.Alike.noting (ps : List Problem) (h : Bounded.Alike e e' r r') :
    Bounded.Alike e e' (r.noting ps) (r'.noting ps) :=
  ⟨congrArg (ps ++ ·) h.problems, h.answer, h.depth⟩

lemma Bounded.Alike.weaken (h : Bounded.Alike e e' r r') {hm : m ≤ m'} {hn : n ≤ n'} :
    Bounded.Alike e e' (r.weaken hm) (r'.weaken hn) :=
  ⟨h.problems, h.answer, h.depth⟩

lemma Bounded.Alike.nested (k : Nat) (h : Bounded.Alike e e' r r') :
    Bounded.Alike e e' (r.nested k) (r'.nested k) :=
  ⟨h.problems, h.answer, congrArg (k + ·) h.depth⟩

lemma Bounded.Alike.beside (k : Nat) (h : Bounded.Alike e e' r r') :
    Bounded.Alike e e' (r.beside k) (r'.beside k) :=
  ⟨h.problems, h.answer, congrArg (max k) h.depth⟩

end

/-- **Readings in a row**: what the first one finds, and where it leaves the rows, is the same, so the
second one goes on alike. -/
theorem alike_bind {r : Bounded α m} {r' : Bounded α n}
    {f : α → (ts : List Token) → ts.length ≤ m → Bounded β m}
    {f' : α → (ts : List Token) → ts.length ≤ n → Bounded β n}
    (hr : Bounded.Alike e e' r r')
    (hf : ∀ v us h h', Bounded.Alike e e' (f v (us ++ e.row) h) (f' v (us ++ e'.row) h')) :
    Bounded.Alike e e' (r.bind f) (r'.bind f') := by
  obtain ⟨⟨ps, a⟩, h, depth⟩ := r
  obtain ⟨⟨qs, a'⟩, h', depth'⟩ := r'
  obtain ⟨hps, ha, hdepth⟩ := hr
  obtain rfl : ps = qs := hps
  obtain rfl : depth = depth' := hdepth
  cases ha with
  | found v hrest =>
      obtain ⟨us, rfl, rfl⟩ := hrest
      exact ((hf v us h h').noting ps).beside depth
  | refused hp hrest => exact ⟨rfl, .refused hp hrest, rfl⟩

lemma expect_alike {kind : Kind} [Reader.Plain kind] (cause : Problem.Cause) (us : List Token) :
    ReadsAlike e e' (Bounded.expect kind cause) us := by
  cases us with
  | nil =>
      show Bounded.Alike e e' (Bounded.expect kind cause (e.mark :: e.after))
        (Bounded.expect kind cause (e'.mark :: e'.after))
      rw [Bounded.expect, Bounded.expect, if_neg LineBreak.mark_ne, if_neg LineBreak.mark_ne]
      exact alike_refused (.near cause) []
  | cons t us =>
      show Bounded.Alike e e' (Bounded.expect kind cause (t :: (us ++ e.row)))
        (Bounded.expect kind cause (t :: (us ++ e'.row)))
      rw [Bounded.expect, Bounded.expect]
      split
      · exact alike_found t us
      · exact alike_refused (.refl _) (t :: us)

lemma closeCall_alike (name : Token) (args : List Expr) (us : List Token) :
    ReadsAlike e e' (closeCall name args) us := by
  rw [ReadsAlike, closeCall, closeCall]
  refine alike_bind (expect_alike _ us) fun close vs h h' => ?_
  exact (alike_found _ vs).noting _

lemma level_alike (ho : ReadsAlike e e' (operand l) us)
    (hc : ∀ x vs, (vs ++ e.row).length ≤ (us ++ e.row).length →
      ReadsAlike e e' (chain l x) vs) :
    ReadsAlike e e' (level l) us := by
  rw [ReadsAlike, level, level]
  exact (alike_bind ho fun x vs h _ => (hc x vs h).weaken).nested 2

lemma chain_alike (ht : level? t = some l) (ho : ReadsAlike e e' (operand l) us)
    (hc : ∀ right vs, (vs ++ e.row).length ≤ (us ++ e.row).length →
      ReadsAlike e e' (chain l (.binary t.position.mark left t.lexeme right)) vs) :
    ReadsAlike e e' (chain l left) (t :: us) := by
  rw [ReadsAlike, List.cons_append, List.cons_append, chain, chain, if_pos ht, if_pos ht]
  exact (alike_bind ho fun right vs h _ => (hc right vs h).weaken).weaken

lemma chain_alike_end (ht : ¬level? t = some l) (us : List Token) :
    ReadsAlike e e' (chain l left) (t :: us) := by
  rw [ReadsAlike, List.cons_append, List.cons_append, chain_stops ht, chain_stops ht]
  exact ⟨rfl, .found left (before_append (t :: us)), rfl⟩

lemma chain_alike_nil : ReadsAlike e e' (chain l left) [] := by
  have hlevel (e : LineBreak) : ¬level? e.mark = some l := by simp [e.level?_mark]
  show Bounded.Alike e e' (chain l left (e.mark :: e.after)) (chain l left (e'.mark :: e'.after))
  rw [chain_stops (hlevel e), chain_stops (hlevel e')]
  exact ⟨rfl, .found left (before_append []), rfl⟩

lemma operand_alike (htighter : ∀ m, l.tighter = some m → ReadsAlike e e' (level m) us)
    (htightest : l.tighter = none → ReadsAlike e e' unary us) : ReadsAlike e e' (operand l) us := by
  rw [ReadsAlike]
  cases h : l.tighter with
  | some m =>
      rw [(operand_of_tighter h _).2, (operand_of_tighter h _).2]
      exact htighter m h
  | none =>
      rw [(operand_of_tightest h _).2, (operand_of_tightest h _).2]
      exact htightest h

lemma unary_alike (ht : t.kind = .op .sub) (hu : ReadsAlike e e' unary us) :
    ReadsAlike e e' unary (t :: us) := by
  rw [ReadsAlike, List.cons_append, List.cons_append, unary, unary, if_pos ht, if_pos ht]
  exact (alike_bind hu fun x vs _ _ => alike_found _ vs).weaken.nested 1

lemma unary_alike_primary (ht : ¬t.kind = .op .sub) (hp : ReadsAlike e e' primary (t :: us)) :
    ReadsAlike e e' unary (t :: us) := by
  rw [ReadsAlike, List.cons_append, List.cons_append, unary, unary, if_neg ht, if_neg ht]
  exact hp.nested 1

lemma primary_mark (e : LineBreak) (us : List Token) :
    primary (e.mark :: us) =
      (Bounded.refused (.near e.mark (.unexpected e.mark.lexeme)) (e.mark :: us)
        (Nat.le_refl _)).nested 1 := by
  rw [primary]
  rcases e.kind_mark with hk | hk <;> simp [hk]

lemma primary_alike_nil : ReadsAlike e e' primary [] := by
  show Bounded.Alike e e' (primary (e.mark :: e.after)) (primary (e'.mark :: e'.after))
  rw [primary_mark, primary_mark]
  exact ⟨rfl, .refused .unexpected (before_append []), rfl⟩

lemma unary_alike_nil : ReadsAlike e e' unary [] := by
  have hsub (e : LineBreak) : ¬e.mark.kind = .op .sub := by
    rcases e.kind_mark with hk | hk <;> simp [hk]
  show Bounded.Alike e e' (unary (e.mark :: e.after)) (unary (e'.mark :: e'.after))
  rw [unary, unary, if_neg (hsub e), if_neg (hsub e')]
  exact primary_alike_nil.nested 1

lemma primary_alike_named (ht : isName t.kind = true) (hn : ReadsAlike e e' (named t) us) :
    ReadsAlike e e' primary (t :: us) := by
  rw [ReadsAlike, List.cons_append, List.cons_append, primary_of_isName ht, primary_of_isName ht]
  exact hn.weaken.nested 1

lemma primary_alike_literal (ht : isLiteral t.kind = true) (us : List Token) :
    ReadsAlike e e' primary (t :: us) := by
  rw [ReadsAlike, List.cons_append, List.cons_append, primary_of_isLiteral ht,
    primary_of_isLiteral ht]
  exact (alike_found _ us).nested 1

lemma primary_alike_group (ht : t.kind = .openParen) (hx : ReadsAlike e e' (level .or) us) :
    ReadsAlike e e' primary (t :: us) := by
  rw [ReadsAlike, List.cons_append, List.cons_append, primary, primary, ht]
  refine (Bounded.Alike.weaken (alike_bind (hx.nested 1) fun x vs _ _ => ?_)).nested 1
  exact alike_bind (expect_alike _ vs).weaken fun _ ws _ _ => alike_found _ ws

lemma named_alike {u : Token} (hu : u.kind = .openParen) (hc : ReadsAlike e e' (callOf t) us) :
    ReadsAlike e e' (named t) (u :: us) := by
  rw [ReadsAlike, List.cons_append, List.cons_append, named, named, if_pos hu, if_pos hu]
  exact hc.weaken

lemma named_alike_var {u : Token} (hu : ¬u.kind = .openParen) (us : List Token) :
    ReadsAlike e e' (named t) (u :: us) := by
  rw [ReadsAlike, List.cons_append, List.cons_append, named, named, if_neg hu, if_neg hu]
  exact alike_found _ (u :: us)

lemma named_alike_nil : ReadsAlike e e' (named t) [] := by
  show Bounded.Alike e e' (named t (e.mark :: e.after)) (named t (e'.mark :: e'.after))
  rw [named, named, if_neg LineBreak.mark_ne, if_neg LineBreak.mark_ne]
  exact alike_found _ []

lemma callOf_alike_empty {u : Token} (hu : u.kind = .closeParen) (us : List Token) :
    ReadsAlike e e' (callOf t) (u :: us) := by
  rw [ReadsAlike, List.cons_append, List.cons_append, callOf, callOf, if_pos hu, if_pos hu]
  exact (closeCall_alike t [] (u :: us)).nested 1

lemma callOf_alike {u : Token} (hu : ¬u.kind = .closeParen)
    (ha : ReadsAlike e e' arguments (u :: us)) : ReadsAlike e e' (callOf t) (u :: us) := by
  rw [ReadsAlike, List.cons_append, List.cons_append, callOf, callOf, if_neg hu, if_neg hu]
  exact (alike_bind ha fun args vs _ _ => (closeCall_alike t args vs).weaken).nested 1

lemma callOf_alike_nil (ha : ReadsAlike e e' arguments []) : ReadsAlike e e' (callOf t) [] := by
  show Bounded.Alike e e' (callOf t (e.mark :: e.after)) (callOf t (e'.mark :: e'.after))
  rw [callOf, callOf, if_neg LineBreak.mark_ne, if_neg LineBreak.mark_ne]
  exact (alike_bind ha fun args vs _ _ => (closeCall_alike t args vs).weaken).nested 1

lemma arguments_alike (hx : ReadsAlike e e' (level .or) us)
    (ha : ∀ t vs, (t :: (vs ++ e.row)).length ≤ (us ++ e.row).length →
      ReadsAlike e e' arguments vs) :
    ReadsAlike e e' arguments us := by
  rw [ReadsAlike, arguments, arguments]
  refine alike_bind (hx.nested 1) fun x vs h _ => ?_
  cases vs with
  | nil =>
      simp only [List.nil_append, LineBreak.row, if_neg (LineBreak.mark_ne : ¬_ = Kind.comma)]
      exact alike_found _ []
  | cons t vs =>
      simp only [List.cons_append]
      split
      · exact (alike_bind (ha t vs h) fun xs ws _ _ => alike_found _ ws).weaken
      · exact alike_found _ (t :: vs)

/-- **Expressions are read alike**: an expression is found, or refused, at the same token before the
line end of both rows, with the same problems noted. -/
theorem whole_alike (e e' : LineBreak) (us : List Token) : ReadsAlike e e' whole us := by
  refine Bounded.Alike.nested 1 ((level.mutual_induct
    (fun l ts => ∀ us, ts = us ++ e.row → ReadsAlike e e' (level l) us)
    (fun l left ts => ∀ us, ts = us ++ e.row → ReadsAlike e e' (chain l left) us)
    (fun l ts => ∀ us, ts = us ++ e.row → ReadsAlike e e' (operand l) us)
    (fun ts => ∀ us, ts = us ++ e.row → ReadsAlike e e' unary us)
    (fun ts => ∀ us, ts = us ++ e.row → ReadsAlike e e' primary us)
    (fun t ts => ∀ us, ts = us ++ e.row → ReadsAlike e e' (named t) us)
    (fun t ts => ∀ us, ts = us ++ e.row → ReadsAlike e e' (callOf t) us)
    (fun ts => ∀ us, ts = us ++ e.row → ReadsAlike e e' arguments us)
    ?level ?chainNil ?chain ?chainEnd ?tighter ?tightest ?unaryNil ?minus ?unary ?primaryNil
    ?ident ?builtin ?truth ?number ?string ?group ?refused ?namedNil ?named ?var ?callNil
    ?callEmpty ?call ?arguments).1 .or (us ++ e.row) us rfl)
  case level =>
    rintro l _ ho hc us rfl
    exact level_alike (ho us rfl) fun x vs h => hc x _ h vs rfl
  case chainNil => exact fun l left us h => absurd h LineBreak.nil_ne
  case chain =>
    intro l left t ts ht ho hc us h
    refine LineBreak.cons_cases h (fun hrow => ?_) ?_
    · simp [(List.cons.inj hrow).1, e.level?_mark] at ht
    · rintro vs rfl
      exact chain_alike ht (ho vs rfl) fun right ws h => hc right _ h ws rfl
  case chainEnd =>
    intro l left t ts ht us h
    exact LineBreak.cons_cases h (fun _ => chain_alike_nil) fun vs _ => chain_alike_end ht vs
  case tighter =>
    intro l ts m hl hm us h
    exact operand_alike (fun k hk => Option.some.inj (hl.symm.trans hk) ▸ hm us h) (by simp [hl])
  case tightest => exact fun l ts hl hu us h => operand_alike (by simp [hl]) fun _ => hu us h
  case unaryNil => exact fun us h => absurd h LineBreak.nil_ne
  case minus =>
    intro t ts ht hu us h
    exact LineBreak.cons_cases h (fun _ => unary_alike_nil) fun vs hvs =>
      unary_alike ht (hu vs hvs)
  case unary =>
    intro t ts ht hp us h
    refine LineBreak.cons_cases h (fun _ => unary_alike_nil) ?_
    rintro vs rfl
    exact unary_alike_primary ht (hp (t :: vs) rfl)
  case primaryNil => exact fun us h => absurd h LineBreak.nil_ne
  case ident =>
    intro t ts ht hn us h
    exact LineBreak.cons_cases h (fun _ => primary_alike_nil) fun vs hvs =>
      primary_alike_named (by rw [ht]; rfl) (hn vs hvs)
  case builtin =>
    intro t ts b ht hn us h
    exact LineBreak.cons_cases h (fun _ => primary_alike_nil) fun vs hvs =>
      primary_alike_named (by rw [ht]; rfl) (hn vs hvs)
  case truth =>
    intro t ts b ht us h
    exact LineBreak.cons_cases h (fun _ => primary_alike_nil) fun vs _ =>
      primary_alike_literal (by rw [ht]; rfl) vs
  case number =>
    intro t ts ht us h
    exact LineBreak.cons_cases h (fun _ => primary_alike_nil) fun vs _ =>
      primary_alike_literal (by rw [ht]; rfl) vs
  case string =>
    intro t ts ht us h
    exact LineBreak.cons_cases h (fun _ => primary_alike_nil) fun vs _ =>
      primary_alike_literal (by rw [ht]; rfl) vs
  case group =>
    intro t ts ht hx us h
    exact LineBreak.cons_cases h (fun _ => primary_alike_nil) fun vs hvs =>
      primary_alike_group ht (hx vs hvs)
  case refused =>
    intro t ts hident hbuiltin htruth hnumber hstring hopen us h
    refine LineBreak.cons_cases h (fun _ => primary_alike_nil) fun vs _ => ?_
    have hrefused := primary_of_other hident hbuiltin htruth hnumber hstring hopen
    rw [ReadsAlike, List.cons_append, List.cons_append, hrefused, hrefused]
    exact (alike_refused (.refl _) (t :: vs)).nested 1
  case namedNil => exact fun t us h => absurd h LineBreak.nil_ne
  case named =>
    intro t u ts hu hc us h
    exact LineBreak.cons_cases h (fun _ => named_alike_nil) fun vs hvs =>
      named_alike hu (hc vs hvs)
  case var =>
    intro t u ts hu us h
    exact LineBreak.cons_cases h (fun _ => named_alike_nil) fun vs _ => named_alike_var hu vs
  case callNil => exact fun t us h => absurd h LineBreak.nil_ne
  case callEmpty =>
    intro t u ts hu us h
    refine LineBreak.cons_cases h (fun hrow => ?_) fun vs _ => callOf_alike_empty hu vs
    exact absurd ((List.cons.inj hrow).1 ▸ hu) LineBreak.mark_ne
  case call =>
    intro t u ts hu ha us h
    refine LineBreak.cons_cases h (fun hrow => callOf_alike_nil (ha [] hrow)) ?_
    rintro vs rfl
    exact callOf_alike hu (ha (u :: vs) rfl)
  case arguments =>
    rintro _ hx ha us rfl
    exact arguments_alike (hx us rfl) fun t vs h => ha [] t _ h vs rfl

end

end Brushwork.Grammar
