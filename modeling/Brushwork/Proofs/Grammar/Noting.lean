import Brushwork.Proofs.Grammar.Closing

/-!
What readers write down.

Readers note problems that lie with the tokens before them, refer to such tokens, and remember that
the cursor is put down and how deep their calls were nested. Whatever is kept by these is kept by the
readers of all statements, if it is also kept where a label is declared:

* `Covers`: a property of problems that follows from one of the tokens they lie with.
* `Reading.From`: readings that note nothing but such problems. `expression_from`: expressions are
  read so.
* `Draft.Kept`: a property of drafts that is kept by what readers write into them.
* `Reader.Keeps`: readers that keep it. `Reader.Line.keeps`: the readers of statements do.
* `step_cases`: everything that a step can do.
* `readAll_keeps` and `ofTokens_keeps`: what every step keeps is kept by the reading of a whole row.
-/

namespace Brushwork

namespace Grammar

/-- Problems have the property if they lie with tokens that have theirs, those with labels apart. -/
def Covers (T : Token → Prop) (Q : Problem → Prop) : Prop :=
  ∀ t cause, T t → cause.isOfLabel = false → Q (.near t cause)

variable {T : Token → Prop} {Q : Problem → Prop} {P : Draft → Prop} {α β : Type} {n : Nat} {t : Token}
  {ts us : List Token}

/-! ### Readings -/

/-- What is left has the property of tokens throughout, and a refusal has that of problems. -/
def Answer.From (T : Token → Prop) (Q : Problem → Prop) : Answer α → Prop
  | found _ rest => ∀ t ∈ rest, T t
  | refused p rest => Q p ∧ ∀ t ∈ rest, T t
  | cut => True

/-- Everything that is noted has the property of problems. -/
structure Reading.From (T : Token → Prop) (Q : Problem → Prop) (r : Reading α) : Prop where
  problems : ∀ p ∈ r.problems, Q p
  answer : r.answer.From T Q

lemma from_found {v : α} {h : ts.length ≤ n} (hts : ∀ t ∈ ts, T t) :
    (Bounded.found v ts h).1.From T Q :=
  ⟨List.forall_mem_nil _, hts⟩

lemma from_refused {p : Problem} {h : ts.length ≤ n} (hp : Q p) (hts : ∀ t ∈ ts, T t) :
    (Bounded.refused p ts h : Bounded α n).1.From T Q :=
  ⟨List.forall_mem_nil _, hp, hts⟩

lemma from_cut : (Bounded.cut : Bounded α n).1.From T Q := ⟨List.forall_mem_nil _, trivial⟩

lemma from_noting {r : Bounded α n} {ps : List Problem} (hps : ∀ p ∈ ps, Q p)
    (hr : r.1.From T Q) : (r.noting ps).1.From T Q :=
  ⟨List.forall_mem_append.2 ⟨hps, hr.problems⟩, hr.answer⟩

lemma from_bind {r : Bounded α n} {f : α → (ts : List Token) → ts.length ≤ n → Bounded β n}
    (hr : r.1.From T Q)
    (hf : ∀ v rest h, r.1.answer = .found v rest → (∀ t ∈ rest, T t) → (f v rest h).1.From T Q) :
    (r.bind f).1.From T Q := by
  obtain ⟨⟨ps, a⟩, h⟩ := r
  cases a with
  | found v rest => exact from_noting hr.problems (hf v rest h rfl hr.answer)
  | refused p rest => exact ⟨hr.problems, hr.answer⟩
  | cut => exact ⟨hr.problems, trivial⟩

lemma from_expect (hQ : Covers T Q) {kind : Kind} {cause : Problem.Cause}
    (hcause : cause.isOfLabel = false) (hts : ∀ t ∈ ts, T t) :
    (Bounded.expect kind cause ts).1.From T Q := by
  cases ts with
  | nil => exact from_cut
  | cons t us =>
      obtain ⟨ht, hus⟩ := List.forall_mem_cons.1 hts
      rw [Bounded.expect]
      split
      · exact from_found hus
      · exact from_refused (hQ t cause ht hcause) hts

/-- The token that was expected is one of the row. -/
lemma expect_mem {kind : Kind} {cause : Problem.Cause} {v : Token} {rest : List Token}
    (h : (Bounded.expect kind cause ts).1.answer = .found v rest) : v ∈ ts := by
  cases ts with
  | nil => cases h
  | cons t us =>
      rw [Bounded.expect] at h
      split at h
      · obtain ⟨rfl, -⟩ := Answer.found.inj h
        exact List.mem_cons_self
      · cases h

/-! ### Expressions -/

lemma callProblems_from (hQ : Covers T Q) {close : Token} (ht : T t) (hclose : T close)
    (count : Nat) : ∀ p ∈ callProblems t close count, Q p := by
  rw [callProblems]
  split
  · exact List.forall_mem_singleton.2 (hQ t _ ht rfl)
  · split
    · exact List.forall_mem_nil _
    · exact List.forall_mem_singleton.2 (hQ close _ hclose rfl)

lemma closeCall_from (hQ : Covers T Q) {args : List Expr} (ht : T t) (hts : ∀ t ∈ ts, T t) :
    (closeCall t args ts).1.From T Q := by
  rw [closeCall]
  refine from_bind (from_expect hQ rfl hts) fun close rest h hfound hrest => ?_
  have hclose : T close := hts close (expect_mem hfound)
  exact from_noting (callProblems_from hQ ht hclose _) (from_found hrest)

lemma primary_from_named (ht : isName t.kind = true)
    (hn : T t → (∀ t ∈ us, T t) → (named t us).1.From T Q) (hts : ∀ u ∈ t :: us, T u) :
    (primary (t :: us)).1.From T Q := by
  obtain ⟨hT, hus⟩ := List.forall_mem_cons.1 hts
  rw [primary_of_isName ht]
  exact hn hT hus

lemma primary_from_literal (ht : isLiteral t.kind = true) (hts : ∀ u ∈ t :: us, T u) :
    (primary (t :: us)).1.From T Q := by
  rw [primary_of_isLiteral ht]
  exact ⟨List.forall_mem_nil _, (List.forall_mem_cons.1 hts).2⟩

/-- **Expressions**: whatever is noted while one is read lies with its tokens, and not with labels. -/
theorem expression_from (hQ : Covers T Q) (hts : ∀ t ∈ ts, T t) : (expression ts).From T Q := by
  refine (level.mutual_induct
    (fun l ts => (∀ t ∈ ts, T t) → (level l ts).1.From T Q)
    (fun l left ts => (∀ t ∈ ts, T t) → (chain l left ts).1.From T Q)
    (fun l ts => (∀ t ∈ ts, T t) → (operand l ts).1.From T Q)
    (fun ts => (∀ t ∈ ts, T t) → (unary ts).1.From T Q)
    (fun ts => (∀ t ∈ ts, T t) → (primary ts).1.From T Q)
    (fun t ts => T t → (∀ t ∈ ts, T t) → (named t ts).1.From T Q)
    (fun t ts => T t → (∀ t ∈ ts, T t) → (callOf t ts).1.From T Q)
    (fun ts => (∀ t ∈ ts, T t) → (arguments ts).1.From T Q)
    ?level ?chainNil ?chain ?chainEnd ?tighter ?tightest ?unaryNil ?minus ?unary ?primaryNil
    ?ident ?builtin ?truth ?number ?string ?group ?refused ?namedNil ?named ?var ?callNil
    ?callEmpty ?call ?arguments).1 .or ts hts
  case level =>
    intro l ts ho hc hts
    rw [level]
    exact from_bind (ho hts) fun e rest h _ hrest => hc e rest h hrest
  case chainNil =>
    intro l left _
    rw [chain]
    exact from_cut
  case chain =>
    intro l left t us ht ho hc hts
    rw [chain, if_pos ht]
    refine from_bind (ho (List.forall_mem_cons.1 hts).2) fun right rest h _ hrest => ?_
    exact hc right rest h hrest
  case chainEnd =>
    intro l left t us ht hts
    rw [chain, if_neg ht]
    exact from_found hts
  case tighter =>
    intro l ts m h hm hts
    rw [(operand_of_tighter h ts).2]
    exact hm hts
  case tightest =>
    intro l ts h hu hts
    rw [(operand_of_tightest h ts).2]
    exact hu hts
  case unaryNil =>
    intro _
    rw [unary]
    exact from_cut
  case minus =>
    intro t us ht hu hts
    rw [unary, if_pos ht]
    refine from_bind (hu (List.forall_mem_cons.1 hts).2) fun e rest h _ hrest => ?_
    exact from_found hrest
  case unary =>
    intro t us ht hp hts
    rw [unary, if_neg ht]
    exact hp hts
  case primaryNil =>
    intro _
    rw [primary]
    exact from_cut
  case ident => exact fun t us ht hn hts => primary_from_named (by rw [ht]; rfl) hn hts
  case builtin => exact fun t us b ht hn hts => primary_from_named (by rw [ht]; rfl) hn hts
  case truth => exact fun t us b ht hts => primary_from_literal (by rw [ht]; rfl) hts
  case number => exact fun t us ht hts => primary_from_literal (by rw [ht]; rfl) hts
  case string => exact fun t us ht hts => primary_from_literal (by rw [ht]; rfl) hts
  case group =>
    intro t us ht he hts
    have hinner : ((level .or us).nested 1).1.From T Q := he (List.forall_mem_cons.1 hts).2
    rw [primary, ht]
    refine from_bind hinner fun e rest h _ hrest => ?_
    exact from_bind (from_expect hQ rfl hrest) fun _ rest' h' _ hrest' => from_found hrest'
  case refused =>
    intro t us hident hbuiltin htruth hnumber hstring hopen hts
    rw [primary_of_other hident hbuiltin htruth hnumber hstring hopen]
    exact ⟨List.forall_mem_nil _, hQ t _ (List.forall_mem_cons.1 hts).1 rfl, hts⟩
  case namedNil =>
    intro t _ _
    rw [named]
    exact from_cut
  case named =>
    intro t u us hu hc ht hts
    rw [named, if_pos hu]
    exact hc ht (List.forall_mem_cons.1 hts).2
  case var =>
    intro t u us hu _ hts
    rw [named, if_neg hu]
    exact from_found hts
  case callNil =>
    intro t _ _
    rw [callOf]
    exact from_cut
  case callEmpty =>
    intro t u us hu ht hts
    rw [callOf, if_pos hu]
    exact closeCall_from hQ ht hts
  case call =>
    intro t u us hu ha ht hts
    rw [callOf, if_neg hu]
    exact from_bind (ha hts) fun args rest h _ hrest => closeCall_from hQ ht hrest
  case arguments =>
    intro ts he ha hts
    rw [arguments]
    refine from_bind (he hts) fun e rest h _ hrest => ?_
    cases rest with
    | nil => exact from_cut
    | cons t us =>
        dsimp only
        split
        · refine from_bind (ha [] t us h (List.forall_mem_cons.1 hrest).2) ?_
          exact fun es rest' h' _ hrest' => from_found hrest'
        · exact from_found hrest

/-! ### Drafts and readers -/

/-- The property of drafts is kept by what readers write into them: problems, the tokens of labels that
are jumped to, that the cursor is put down, and how deep calls were nested. -/
class Draft.Kept (T : Token → Prop) (Q : Problem → Prop) (P : Draft → Prop) : Prop where
  covers : Covers T Q
  note : ∀ {d p}, P d → Q p → P (d.note p)
  refer : ∀ {d t}, P d → T t → P { d with references := d.references ++ [t] }
  spawn : ∀ {d}, P d → P { d with hasSpawn := true }
  deepen : ∀ {d n}, P d → P { d with depth := n }

lemma Draft.Kept.notes (hP : Draft.Kept T Q P) {ps : List Problem} (hps : ∀ p ∈ ps, Q p) {d : Draft}
    (hd : P d) : P { d with problems := d.problems ++ ps } := by
  induction ps generalizing d with
  | nil => simpa using hd
  | cons p ps ih =>
      obtain ⟨hp, hps⟩ := List.forall_mem_cons.1 hps
      simpa [Draft.note] using ih hps (hP.note hd hp)

lemma Leaves.forall_mem {rest : List Token} (h : Leaves ts rest) (hts : ∀ t ∈ ts, T t) :
    ∀ t ∈ rest, T t := by
  obtain ⟨used, rfl, -⟩ := h
  exact (List.forall_mem_append.1 hts).2

namespace Reader

variable {r : Reader α} {f : α → Reader β}

/-- Given a draft and a row of tokens with the properties, the reader keeps that of the draft, and
refuses for reasons only that have their own. -/
structure Keeps (T : Token → Prop) (Q : Problem → Prop) (P : Draft → Prop) (r : Reader α) : Prop where
  draft : ∀ {d ts}, P d → (∀ t ∈ ts, T t) → P (r d ts).1
  answer : ∀ {d ts}, P d → (∀ t ∈ ts, T t) → (r d ts).2.From T Q

/-- One reader after the other, where the second is chosen by what the first one finds. -/
lemma keeps_bind {F : α → Prop} (hr : Keeps T Q P r)
    (hF : ∀ d ts v rest, (∀ t ∈ ts, T t) → (r d ts).2 = .found v rest → F v)
    (hf : ∀ v, F v → Keeps T Q P (f v)) : Keeps T Q P (r >>= f) := by
  have hboth : ∀ d ts, P d → (∀ t ∈ ts, T t) →
      P ((r >>= f) d ts).1 ∧ ((r >>= f) d ts).2.From T Q := by
    intro d ts hd hts
    have hdraft := hr.draft hd hts
    have hanswer := hr.answer hd hts
    obtain ⟨d', v, rest, he, hb⟩ | ⟨d', p, rest, he, hb⟩ | ⟨d', he, hb⟩ := bind_cases r f d ts
    · rw [he] at hdraft hanswer
      rw [hb]
      have hv := hf v (hF d ts v rest hts (by rw [he]))
      exact ⟨hv.draft hdraft hanswer, hv.answer hdraft hanswer⟩
    · rw [he] at hdraft hanswer
      rw [hb]
      exact ⟨hdraft, hanswer⟩
    · rw [he] at hdraft
      rw [hb]
      exact ⟨hdraft, trivial⟩
  exact ⟨fun hd hts => (hboth _ _ hd hts).1, fun hd hts => (hboth _ _ hd hts).2⟩

lemma Keeps.bind (hr : Keeps T Q P r) (hf : ∀ v, Keeps T Q P (f v)) : Keeps T Q P (r >>= f) :=
  keeps_bind (F := fun _ => True) hr (fun _ _ _ _ _ _ => trivial) fun v _ => hf v

lemma keeps_pure (v : α) : Keeps T Q P (pure v : Reader α) := ⟨fun hd _ => hd, fun _ hts => hts⟩

lemma keeps_update {g : Draft → Draft} (hg : ∀ d, P d → P (g d)) : Keeps T Q P (update g) :=
  ⟨fun hd _ => hg _ hd, fun _ hts => hts⟩

variable [hP : Draft.Kept T Q P]

lemma keeps_expect (kind : Kind) {cause : Problem.Cause} (hcause : cause.isOfLabel = false) :
    Keeps T Q P (expect kind cause) :=
  ⟨fun hd _ => hd, fun _ hts => (from_expect hP.covers hcause hts).answer⟩

lemma keeps_expectEither (k₁ k₂ : Kind) {cause : Problem.Cause} (hcause : cause.isOfLabel = false) :
    Keeps T Q P (expectEither k₁ k₂ cause) where
  draft {d ts} hd _ := by
    cases ts with
    | nil => exact hd
    | cons t us =>
        rw [expectEither]
        split <;> exact hd
  answer {d ts} _ hts := by
    cases ts with
    | nil => trivial
    | cons t us =>
        obtain ⟨ht, hus⟩ := List.forall_mem_cons.1 hts
        rw [expectEither]
        split
        · exact hus
        · exact ⟨hP.covers t cause ht hcause, hts⟩

lemma keeps_refuseIf (kind : Kind) {cause : Problem.Cause} (hcause : cause.isOfLabel = false) :
    Keeps T Q P (refuseIf kind cause) where
  draft {d ts} hd _ := by
    cases ts with
    | nil => exact hd
    | cons t us =>
        rw [refuseIf]
        split <;> exact hd
  answer {d ts} _ hts := by
    cases ts with
    | nil => trivial
    | cons t us =>
        rw [refuseIf]
        split
        · exact ⟨hP.covers t cause (List.forall_mem_cons.1 hts).1 hcause, hts⟩
        · exact hts

lemma keeps_expr : Keeps T Q P expr where
  draft hd hts := hP.deepen (hP.notes (expression_from hP.covers hts).problems hd)
  answer _ hts := (expression_from hP.covers hts).answer

/-- A direction that is too far off is refused at its first token. -/
lemma keeps_direction (axis : Axis) : Keeps T Q P (direction axis) where
  draft {d ts} hd hts := by
    cases ts with
    | nil => exact hd
    | cons start us =>
        have hexpr := (keeps_expr (Q := Q)).draft hd hts
        rw [direction]
        split
        · next d' e rest he =>
          rw [he] at hexpr
          repeat' split
          all_goals exact hexpr
        · next d' a _ he =>
          rw [he] at hexpr
          exact hexpr
  answer {d ts} hd hts := by
    cases ts with
    | nil => trivial
    | cons start us =>
        have hexpr := (keeps_expr (Q := Q)).answer hd hts
        have hstart := (List.forall_mem_cons.1 hts).1
        rw [direction]
        split
        · next d' e rest he =>
          rw [he] at hexpr
          split
          · split
            · exact hexpr
            · exact ⟨hP.covers start _ hstart rfl, hexpr⟩
          · exact hexpr
        · next d' a _ he =>
          rw [he] at hexpr
          exact hexpr

/-- What stands where a line should end is noted with its own token. -/
lemma keeps_lineEnd (after : String) : Keeps T Q P (lineEnd after) where
  draft {d ts} hd hts := by
    cases ts with
    | nil => exact hd
    | cons t us =>
        have ht := (List.forall_mem_cons.1 hts).1
        rw [lineEnd]
        split
        · exact hd
        · split
          · exact hd
          · dsimp only
            split <;> exact hP.note hd (hP.covers t _ ht rfl)
  answer {d ts} hd hts := by
    cases ts with
    | nil => trivial
    | cons t us =>
        have hskip := skipLine_heeds (t :: us)
        rw [lineEnd]
        split
        · exact (List.forall_mem_cons.1 hts).2
        · split
          · exact hts
          · dsimp only
            split
            · next rest hrest =>
              rw [hrest] at hskip
              exact hskip.forall_mem hts
            · trivial

lemma keeps_refuse {cause : Problem.Cause} (hcause : cause.isOfLabel = false) :
    Keeps T Q P (refuse cause : Reader α) where
  draft {d ts} hd _ := by cases ts <;> exact hd
  answer {d ts} _ hts := by
    cases ts with
    | nil => trivial
    | cons t us => exact ⟨hP.covers t cause (List.forall_mem_cons.1 hts).1 hcause, hts⟩

lemma keeps_beginSpawn : Keeps T Q P beginSpawn := by
  have hrefuse : Keeps T Q P (refuse .secondSpawn : Reader Unit) := keeps_refuse rfl
  constructor
  · intro d ts hd hts
    rw [beginSpawn]
    split
    · exact hrefuse.draft hd hts
    · exact hP.spawn hd
  · intro d ts hd hts
    rw [beginSpawn]
    split
    · exact hrefuse.answer hd hts
    · exact hts

/-- The label that is jumped to is a token of the row. -/
lemma keeps_target : Keeps T Q P target := by
  have hmem : ∀ d ts v rest, (∀ t ∈ ts, T t) →
      (expect .ident .goToLabel d ts).2 = .found v rest → T v :=
    fun _ _ _ _ hts hfound => hts _ (expect_mem hfound)
  rw [target]
  refine (keeps_expect _ rfl).bind fun _ => ?_
  refine keeps_bind (keeps_expect _ rfl) hmem fun name hname => ?_
  refine (keeps_expect _ rfl).bind fun _ => ?_
  exact (keeps_update fun d hd => hP.refer hd hname).bind fun _ => keeps_pure _

variable {D : Token → Prop}

lemma Inner.keeps (h : Inner D r) (hdeclare : ∀ t, D t → ∀ d, P d → P (d.declare t)) :
    Keeps T Q P r := by
  induction h with
  | pure v => exact keeps_pure v
  | bind _ _ ihr ihf => exact ihr.bind ihf
  | refuseIf hcause => exact keeps_refuseIf _ hcause
  | expect hcause => exact keeps_expect _ hcause
  | expectEither hcause => exact keeps_expectEither _ _ hcause
  | expr => exact keeps_expr
  | direction axis => exact keeps_direction axis
  | beginSpawn => exact keeps_beginSpawn
  | target => exact keeps_target
  | declare ht => exact keeps_update (hdeclare _ ht)

/-- **What readers keep is kept by statements**, if it is kept where they declare a label. -/
theorem Line.keeps (h : Line D r) (hdeclare : ∀ t, D t → ∀ d, P d → P (d.declare t)) :
    Keeps T Q P r := by
  induction h with
  | lineEnd after => exact keeps_lineEnd after
  | bind hr _ ihf => exact (hr.keeps hdeclare).bind ihf
  | map _ g ihr => exact ihr.bind fun v => keeps_pure (g v)

end Reader

/-! ### Steps -/

/-- **What a step does**: it passes an empty line, adds what a reader has found, notes what one has
refused, is cut short, or notes a token that begins nothing. -/
theorem step_cases (d : Draft) (t : Token) (us : List Token) :
    step d t us = (d, some us) ∨
    (∃ r, statementAt t us = some r ∧
      ((∃ d' a rest, r d us = (d', .found a rest) ∧
          step d t us = (d'.add ⟨t.position.mark, a⟩, some rest)) ∨
        (∃ d' p rest, r d us = (d', .refused p rest) ∧ step d t us = (d'.note p, resume rest)) ∨
        ∃ d', r d us = (d', .cut) ∧ step d t us = (d', none))) ∨
    step d t us = (d.note (.near t .notAStatement), resumeAfter t us) := by
  rw [step]
  split
  · exact .inl rfl
  · split
    · next r hr =>
      refine .inr (.inl ⟨r, hr, ?_⟩)
      cases hread : r d us with
      | mk d' answer =>
          cases answer with
          | found a rest => exact .inl ⟨d', a, rest, rfl, rfl⟩
          | refused p rest => exact .inr (.inl ⟨d', p, rest, rfl, rfl⟩)
          | cut => exact .inr (.inr ⟨d', rfl, rfl⟩)
    · exact .inr (.inr rfl)

/-- **What every step keeps, a whole reading keeps.** -/
theorem readAll_keeps
    (hstep : ∀ d t us, P d → T t → (∀ u ∈ us, T u) → P (step d t us).1) {d : Draft} (hd : P d)
    (hts : ∀ t ∈ ts, T t) : P (readAll d ts).1 := by
  fun_induction readAll d ts with
  | case1 d => exact hd
  | case2 d t us ht => exact hd
  | case3 d t us ht d' rest h ih =>
      obtain ⟨hT, hus⟩ := List.forall_mem_cons.1 hts
      have hkept := hstep d t us hd hT hus
      have hrest := step_heeds d t us
      rw [h] at hkept hrest
      exact ih hkept (hrest.forall_mem hus)
  | case4 d t us ht d' h =>
      obtain ⟨hT, hus⟩ := List.forall_mem_cons.1 hts
      have hkept := hstep d t us hd hT hus
      rw [h] at hkept
      exact hkept

/-- **What holds of an empty draft and is kept by every step and by the end of the reading** holds of
what a row of tokens gives. -/
theorem ofTokens_keeps (hempty : P .empty)
    (hstep : ∀ d t us, P d → T t → (∀ u ∈ us, T u) → P (step d t us).1)
    (hfinish : ∀ d : Draft, P d → P d.finish) (hts : ∀ t ∈ ts, T t) :
    P (Parse.ofTokens ts).draft := by
  have hread : P (readAll { Draft.empty with statements := #[] } ts).1 :=
    readAll_keeps hstep hempty hts
  rw [Parse.ofTokens, Parse.resume]
  split
  · next d' rest h =>
    rw [h] at hread
    exact hfinish d' hread
  · next d' h =>
    rw [h] at hread
    exact hread

end Grammar

end Brushwork
