import Brushwork.Proofs.Grammar.Alike
import Mathlib.Data.List.Forall2

/-!
Lines are read one by one.

Whatever stands on a line, reading comes to the first token of the next line as the beginning of a
statement, and what it has gathered by then does not depend on the lines that follow:

* `Likeness`: a relation between drafts that is kept by everything a reader writes into them.
* `SameEnd`: readers of two rows that end in the same way, with drafts that are alike.
* `Reader.Agrees`: a reader that cannot tell rows apart that are alike up to a line end.
  `Reader.Inner.agrees` and `Reader.Line.agrees`: within a line no reader of a statement can.
* `step_alike`: neither can a step. It leaves both rows before the line end or both behind it.
* `Advances`: reading statement by statement, from one statement boundary to another.
* `advances_beyond`: it comes to the line behind the line end.
* `Advances.alike`: the drafts at hand matter to what is read only by their note of a spawn.
* `lines_apart`: the lines before a newline are read as if nothing followed, and those after it as
  if nothing had come before but the spawn.
-/

namespace Brushwork.Grammar

variable {α β : Type} {e e' : LineBreak}

/-! ### Readers -/

/-- A relation between drafts that is kept by all that readers write into them, and that leaves them
the same choice. -/
structure Likeness (e e' : LineBreak) (R : Draft → Draft → Prop) : Prop where
  hasSpawn {d d' : Draft} : R d d' → d.hasSpawn = d'.hasSpawn
  spawn {d d' : Draft} : R d d' → R { d with hasSpawn := true } { d' with hasSpawn := true }
  note {d d' : Draft} {p p' : Problem} : R d d' → Same e.mark e'.mark p p' →
    R (d.note p) (d'.note p')
  declare {d d' : Draft} (t : Token) : R d d' → R (d.declare t) (d'.declare t)
  refer {d d' : Draft} (t : Token) : R d d' →
    R { d with references := d.references ++ [t] } { d' with references := d'.references ++ [t] }
  add {d d' : Draft} (s : Stmt) : R d d' → R (d.add s) (d'.add s)
  deepen {d d' : Draft} (n : Nat) : R d d' →
    R { d with depth := max d.depth n } { d' with depth := max d'.depth n }

lemma Likeness.notes {R : Draft → Draft → Prop} (hR : Likeness e e' R) (ps : List Problem)
    {d d' : Draft} (h : R d d') :
    R { d with problems := d.problems ++ ps } { d' with problems := d'.problems ++ ps } := by
  induction ps generalizing d d' with
  | nil => simpa using h
  | cons p ps ih => simpa [Draft.note] using ih (hR.note h (.refl p))

/-- Two readers have come to the same end: with drafts that are alike, and with the same answer. -/
structure SameEnd (e e' : LineBreak) (R : Draft → Draft → Prop)
    (S : List Token → List Token → Prop) (out out' : Draft × Answer α) : Prop where
  draft : R out.1 out'.1
  answer : out.2.Alike e e' S out'.2

/-- **One reader after the other**: whatever the first one finds, the second one goes on from the same
place. -/
theorem SameEnd.bind {R : Draft → Draft → Prop} {S T : List Token → List Token → Prop}
    {r : Reader α} {f : α → Reader β} {d d' : Draft} {ts ts' : List Token}
    (hr : SameEnd e e' R S (r d ts) (r d' ts'))
    (hf : ∀ v d₁ d₁' rest rest', R d₁ d₁' → S rest rest' →
      SameEnd e e' R T (f v d₁ rest) (f v d₁' rest')) :
    SameEnd e e' R T ((r >>= f) d ts) ((r >>= f) d' ts') := by
  simp only [Bind.bind]
  generalize r d ts = out at hr
  generalize r d' ts' = out' at hr
  obtain ⟨d₁, a⟩ := out
  obtain ⟨d₁', a'⟩ := out'
  obtain ⟨hd, ha⟩ := hr
  cases ha with
  | found v hrest => exact hf v d₁ d₁' _ _ hd hrest
  | refused hp hrest => exact ⟨hd, .refused hp hrest⟩

namespace Reader

/-- The reader cannot tell rows apart that are alike up to a line end: it ends in the same way in
both, and leaves them as `S` says. -/
def Agrees (S : LineBreak → LineBreak → List Token → List Token → Prop) (r : Reader α) : Prop :=
  ∀ ⦃e e' : LineBreak⦄ ⦃R : Draft → Draft → Prop⦄, Likeness e e' R → ∀ ⦃d d' : Draft⦄,
    R d d' → ∀ us, SameEnd e e' R (S e e') (r d (us ++ e.row)) (r d' (us ++ e'.row))

variable {S : LineBreak → LineBreak → List Token → List Token → Prop}

lemma agrees_pure (v : α) : Agrees Before (pure v : Reader α) :=
  fun _ _ _ _ _ _ h us => ⟨h, .found v (before_append us)⟩

lemma Agrees.bind {r : Reader α} {f : α → Reader β} (hr : Agrees Before r)
    (hf : ∀ v, Agrees S (f v)) : Agrees S (r >>= f) := by
  intro e e' R hR d d' h us
  refine (hr hR h us).bind ?_
  rintro v d₁ d₁' _ _ h₁ ⟨vs, rfl, rfl⟩
  exact hf v hR h₁ vs

/-- What is only given back may come behind the line end. -/
lemma Agrees.map {r : Reader α} (hr : Agrees S r) (g : α → β) :
    Agrees S (r >>= fun v => pure (g v)) :=
  fun _ _ _ hR _ _ h us => (hr hR h us).bind fun v _ _ _ _ h₁ hrest => ⟨h₁, .found (g v) hrest⟩

lemma agrees_declare (t : Token) : Agrees Before (update (·.declare t)) :=
  fun _ _ _ hR _ _ h us => ⟨hR.declare t h, .found () (before_append us)⟩

lemma agrees_refuse (cause : Problem.Cause) : Agrees Before (refuse cause : Reader α) := by
  intro e e' R hR d d' h us
  cases us with
  | nil => exact ⟨h, .refused (.near cause) (before_append [])⟩
  | cons t us => exact ⟨h, .refused (.refl _) (before_append (t :: us))⟩

lemma agrees_refuseIf (kind : Kind) (cause : Problem.Cause) [Plain kind] :
    Agrees Before (refuseIf kind cause) := by
  intro e e' R hR d d' h us
  cases us with
  | nil =>
      simp only [List.nil_append, LineBreak.row, refuseIf, if_neg LineBreak.mark_ne]
      exact ⟨h, .found () (before_append [])⟩
  | cons t us =>
      simp only [List.cons_append, refuseIf]
      split
      · exact ⟨h, .refused (.refl _) (before_append (t :: us))⟩
      · exact ⟨h, .found () (before_append (t :: us))⟩

lemma agrees_expect (kind : Kind) (cause : Problem.Cause) [Plain kind] :
    Agrees Before (expect kind cause) :=
  fun _ _ _ _ _ _ h us => ⟨h, (expect_alike cause us).answer⟩

lemma agrees_expectEither (k₁ k₂ : Kind) (cause : Problem.Cause) [Plain k₁] [Plain k₂] :
    Agrees Before (expectEither k₁ k₂ cause) := by
  intro e e' R hR d d' h us
  cases us with
  | nil =>
      have hne (e : LineBreak) : ¬(e.mark.kind = k₁ ∨ e.mark.kind = k₂) :=
        not_or.2 ⟨LineBreak.mark_ne, LineBreak.mark_ne⟩
      simp only [List.nil_append, LineBreak.row, expectEither, if_neg (hne _)]
      exact ⟨h, .refused (.near cause) (before_append [])⟩
  | cons t us =>
      simp only [List.cons_append, expectEither]
      split
      · exact ⟨h, .found t (before_append us)⟩
      · exact ⟨h, .refused (.refl _) (before_append (t :: us))⟩

lemma agrees_expr : Agrees Before expr := by
  intro e e' R hR d d' h us
  have hread := whole_alike e e' us
  simp only [expr, hread.problems, hread.depth]
  exact ⟨hR.deepen _ (hR.notes _ h), hread.answer⟩

/-- The direction that begins with the token `t` in one row, and with `t'` in the other. -/
lemma direction_alike (axis : Axis) {R : Draft → Draft → Prop} {d d' : Draft} {t t' : Token}
    {ts ts' : List Token}
    (ht : Same e.mark e'.mark (.near t (.direction axis)) (.near t' (.direction axis)))
    (h : SameEnd e e' R (Before e e') (expr d (t :: ts)) (expr d' (t' :: ts'))) :
    SameEnd e e' R (Before e e') (direction axis d (t :: ts)) (direction axis d' (t' :: ts')) := by
  simp only [direction]
  generalize expr d (t :: ts) = out at h
  generalize expr d' (t' :: ts') = out' at h
  obtain ⟨d₁, a⟩ := out
  obtain ⟨d₁', a'⟩ := out'
  obtain ⟨hd, ha⟩ := h
  cases ha with
  | refused hp hrest => exact ⟨hd, .refused hp hrest⟩
  | found x hrest =>
      dsimp only
      cases x.intLiteral? with
      | none => exact ⟨hd, .found x hrest⟩
      | some n =>
          dsimp only
          split
          · exact ⟨hd, .found x hrest⟩
          · exact ⟨hd, .refused ht hrest⟩

lemma agrees_direction (axis : Axis) : Agrees Before (direction axis) := by
  intro e e' R hR d d' h us
  have hread := agrees_expr hR h us
  cases us with
  | nil => exact direction_alike axis (.near _) hread
  | cons t us => exact direction_alike axis (.refl _) hread

lemma skipLine_mark (e : LineBreak) : skipLine e.row = some e.beyond := by
  rw [LineBreak.row, skipLine]
  rcases e.kind_mark with hk | hk
  · rw [if_neg (by simp [hk]), if_pos hk, LineBreak.beyond_of_newline hk]
  · rw [if_pos hk, LineBreak.beyond_of_eof hk, LineBreak.row]

lemma skipLine_alike (e e' : LineBreak) (us : List Token) : ∃ rest rest',
    skipLine (us ++ e.row) = some rest ∧ skipLine (us ++ e'.row) = some rest' ∧
      Apart e e' rest rest' := by
  induction us with
  | nil => exact ⟨_, _, skipLine_mark e, skipLine_mark e', apart_beyond⟩
  | cons t us ih =>
      simp only [List.cons_append, skipLine]
      split
      · exact ⟨_, _, rfl, rfl, apart_append (t :: us)⟩
      · split
        · exact ⟨_, _, rfl, rfl, apart_append us⟩
        · exact ih

lemma lineEnd_mark (after : String) (d : Draft) (e : LineBreak) :
    lineEnd after d e.row = (d, .found () e.beyond) := by
  rw [LineBreak.row, lineEnd]
  rcases e.kind_mark with hk | hk
  · rw [if_pos hk, LineBreak.beyond_of_newline hk]
  · rw [if_neg (by simp [hk]), if_pos hk, LineBreak.beyond_of_eof hk, LineBreak.row]

lemma agrees_lineEnd (after : String) : Agrees Apart (lineEnd after) := by
  intro e e' R hR d d' h us
  cases us with
  | nil =>
      simp only [List.nil_append, lineEnd_mark]
      exact ⟨h, .found () apart_beyond⟩
  | cons t us =>
      obtain ⟨rest, rest', hrest, hrest', hapart⟩ := skipLine_alike e e' (t :: us)
      rw [List.cons_append] at hrest hrest'
      simp only [List.cons_append, lineEnd, hrest, hrest']
      split
      · exact ⟨h, .found () (apart_append us)⟩
      · split
        · exact ⟨h, .found () (apart_append (t :: us))⟩
        · exact ⟨hR.note h (.refl _), .found () hapart⟩

lemma agrees_beginSpawn : Agrees Before beginSpawn := by
  intro e e' R hR d d' h us
  simp only [beginSpawn, hR.hasSpawn h]
  split
  · exact agrees_refuse .secondSpawn hR h us
  · exact ⟨hR.spawn h, .found () (before_append us)⟩

lemma agrees_target : Agrees Before target := by
  have hrefer (t : Token) :
      Agrees Before (update fun d => { d with references := d.references ++ [t] }) :=
    fun _ _ _ hR _ _ h us => ⟨hR.refer t h, .found () (before_append us)⟩
  refine (agrees_expect _ _).bind fun _ => (agrees_expect _ _).bind fun t => ?_
  exact (agrees_expect _ _).bind fun _ => (hrefer t).bind fun _ => agrees_pure t

variable {D : Token → Prop}

lemma Inner.agrees {r : Reader α} (h : Inner D r) : Agrees Before r := by
  induction h with
  | pure v => exact agrees_pure v
  | bind _ _ ihr ihf => exact ihr.bind ihf
  | refuseIf => exact agrees_refuseIf _ _
  | expect => exact agrees_expect _ _
  | expectEither => exact agrees_expectEither _ _ _
  | expr => exact agrees_expr
  | direction axis => exact agrees_direction axis
  | beginSpawn => exact agrees_beginSpawn
  | target => exact agrees_target
  | declare => exact agrees_declare _

/-- **A statement is read alike** in rows that are alike up to a line end. -/
theorem Line.agrees {r : Reader α} (h : Line D r) : Agrees Apart r := by
  induction h with
  | lineEnd after => exact agrees_lineEnd after
  | bind hr _ ihf => exact hr.agrees.bind ihf
  | map _ g ihr => exact ihr.map g

end Reader

/-! ### Steps -/

/-- What begins at a token is seen before the line end. -/
lemma statementAt_alike (e e' : LineBreak) (t : Token) (us : List Token) :
    statementAt t (us ++ e.row) = statementAt t (us ++ e'.row) := by
  cases us with
  | cons u us => rfl
  | nil =>
      have hlabel (e : LineBreak) (ht : t.kind = .ident) :
          statementAt t e.row = some (Reader.label t) := by
        rcases e.kind_mark with hk | hk <;> simp [statementAt, ht, LineBreak.row, hk]
      cases ht : t.kind with
      | ident => exact (hlabel e ht).trans (hlabel e' ht).symm
      | _ => simp only [statementAt, ht]

/-- A newline that was passed over ends the line. -/
lemma resumeAfter_newline (hk : e.mark.kind = .newline) :
    resumeAfter e.mark e.after = some e.beyond := by
  rcases e.ends with ⟨-, hafter⟩ | heof
  · obtain ⟨u, us, hus⟩ := List.exists_cons_of_ne_nil hafter
    rw [LineBreak.beyond_of_newline hk, hus, resumeAfter, if_pos (.inr (.inl hk))]
  · simp [hk] at heof

lemma resumeAfter_mark (t : Token) (ht : t.kind ≠ .newline) (e : LineBreak) :
    resumeAfter t e.row = some e.beyond := by
  rw [LineBreak.row, resumeAfter]
  rcases e.kind_mark with hk | hk
  · rw [if_neg (by simp [hk, ht, Kind.startsStatement]), resumeAfter_newline hk]
  · rw [if_pos (.inl hk), LineBreak.beyond_of_eof hk, LineBreak.row]

lemma resumeAfter_alike (e e' : LineBreak) (t : Token) (us : List Token) : ∃ rest rest',
    resumeAfter t (us ++ e.row) = some rest ∧ resumeAfter t (us ++ e'.row) = some rest' ∧
      Apart e e' rest rest' := by
  induction us generalizing t with
  | nil =>
      by_cases ht : t.kind = .newline
      · refine ⟨e.row, e'.row, ?_, ?_, apart_append []⟩
        · exact if_pos (.inr (.inl ht))
        · exact if_pos (.inr (.inl ht))
      · exact ⟨_, _, resumeAfter_mark t ht e, resumeAfter_mark t ht e', apart_beyond⟩
  | cons u us ih =>
      simp only [List.cons_append, resumeAfter]
      split
      · exact ⟨_, _, rfl, rfl, apart_append (u :: us)⟩
      · exact ih u

lemma resume_mark (e : LineBreak) : resume e.row = some e.beyond := by
  rw [LineBreak.row, resume]
  rcases e.kind_mark with hk | hk
  · rw [if_neg (by simp [hk]), resumeAfter_newline hk]
  · rw [if_pos hk, LineBreak.beyond_of_eof hk, LineBreak.row]

/-- Reading is taken up again no later than behind the line end. -/
lemma resume_alike (e e' : LineBreak) (us : List Token) : ∃ rest rest',
    resume (us ++ e.row) = some rest ∧ resume (us ++ e'.row) = some rest' ∧
      Apart e e' rest rest' := by
  cases us with
  | nil => exact ⟨_, _, resume_mark e, resume_mark e', apart_beyond⟩
  | cons t us =>
      simp only [List.cons_append, resume]
      split
      · exact ⟨_, _, rfl, rfl, apart_append (t :: us)⟩
      · exact resumeAfter_alike e e' t us

/-- **A step cannot tell the rows apart.** Drafts that are alike stay so, and both rows are left at
the same token before the line end, or both at the line after it. -/
theorem step_alike {R : Draft → Draft → Prop} (hR : Likeness e e' R) {d d' : Draft} (h : R d d')
    (t : Token) (us : List Token) :
    ∃ d₁ d₁' rest rest', step d t (us ++ e.row) = (d₁, some rest) ∧
      step d' t (us ++ e'.row) = (d₁', some rest') ∧ R d₁ d₁' ∧ Apart e e' rest rest' := by
  rw [step, step, statementAt_alike e e' t us]
  split
  · exact ⟨d, d', _, _, rfl, rfl, h, apart_append us⟩
  · cases hs : statementAt t (us ++ e'.row) with
    | none =>
        obtain ⟨rest, rest', hrest, hrest', hapart⟩ := resumeAfter_alike e e' t us
        simp only [hrest, hrest']
        exact ⟨_, _, rest, rest', rfl, rfl, hR.note h (.refl _), hapart⟩
    | some r =>
        obtain ⟨hd, ha⟩ := (statementAt_line hs).agrees hR h us
        dsimp only
        generalize r d (us ++ e.row) = out at hd ha
        generalize r d' (us ++ e'.row) = out' at hd ha
        obtain ⟨d₁, a⟩ := out
        obtain ⟨d₁', a'⟩ := out'
        cases ha with
        | found action hrest => exact ⟨_, _, _, _, rfl, rfl, hR.add _ hd, hrest⟩
        | refused hp hbefore =>
            obtain ⟨vs, rfl, rfl⟩ := hbefore
            obtain ⟨rest, rest', hrest, hrest', hapart⟩ := resume_alike e e' vs
            simp only [conclude, hrest, hrest']
            exact ⟨_, _, rest, rest', rfl, rfl, hR.note hd hp, hapart⟩

/-! ### From one statement boundary to another -/

/-- Statement by statement, reading comes from one draft and row to another. -/
inductive Advances : Draft → List Token → Draft → List Token → Prop
  | refl (d : Draft) (ts : List Token) : Advances d ts d ts
  | step {d d₁ d₂ : Draft} {t : Token} {us rest rest' : List Token} (ht : t.kind ≠ .eof)
      (hs : step d t us = (d₁, some rest)) (h : Advances d₁ rest d₂ rest') :
      Advances d (t :: us) d₂ rest'

/-- What is read from a boundary on is what is still to be read. -/
lemma Advances.readAll {d d' : Draft} {ts rest : List Token} (h : Advances d ts d' rest) :
    readAll d ts = readAll d' rest := by
  induction h with
  | refl d ts => rfl
  | step ht hs _ ih =>
      rw [Grammar.readAll, if_neg ht]
      split
      · next hstep =>
        obtain ⟨rfl, hrest⟩ := Prod.mk.inj (hs.symm.trans hstep)
        obtain rfl := Option.some.inj hrest
        exact ih
      · next hstep => cases hs.symm.trans hstep

/-- The end of a line by itself is read without any effect. -/
lemma advances_mark (d : Draft) (e : LineBreak) : Advances d e.row d e.beyond := by
  rcases e.kind_mark with hk | hk
  · have hstep : step d e.mark e.after = (d, some e.after) := if_pos hk
    rw [LineBreak.beyond_of_newline hk]
    exact .step (by simp [hk]) hstep (.refl d e.after)
  · rw [LineBreak.beyond_of_eof hk]
    exact .refl d e.row

/-- **Reading comes to the next line**, in both rows and with drafts that are still alike. -/
theorem advances_beyond {R : Draft → Draft → Prop} (hR : Likeness e e' R) {d d' : Draft}
    (h : R d d') {us : List Token} (hus : Unclosed us) :
    ∃ d₁ d₁', Advances d (us ++ e.row) d₁ e.beyond ∧ Advances d' (us ++ e'.row) d₁' e'.beyond ∧
      R d₁ d₁' := by
  -- By induction on the number of tokens before the line end: a step leaves fewer of them, or none.
  induction hn : us.length using Nat.strongRecOn generalizing us d d' with
  | ind n ih =>
      cases us with
      | nil => exact ⟨d, d', advances_mark d e, advances_mark d' e', h⟩
      | cons t us =>
          obtain ⟨ht, hus⟩ := unclosed_cons.1 hus
          obtain ⟨d₁, d₁', rest, rest', hs, hs', h₁, ⟨vs, rfl, rfl⟩ | ⟨rfl, rfl⟩⟩ :=
            step_alike hR h t us
          · have hleaves := step_heeds d t (us ++ e.row)
            rw [hs] at hleaves
            obtain ⟨used, heq, -⟩ := hleaves
            obtain rfl : us = used ++ vs :=
              List.append_cancel_right (heq.trans (List.append_assoc ..).symm)
            have hlt : vs.length < n := by
              rw [← hn, List.length_cons, List.length_append]
              omega
            obtain ⟨d₂, d₂', hadv, hadv', h₂⟩ := ih vs.length hlt h₁ (unclosed_append.1 hus).2 rfl
            exact ⟨d₂, d₂', .step ht hs hadv, .step ht hs' hadv', h₂⟩
          · exact ⟨d₁, d₁', .step ht hs (.refl _ _), .step ht hs' (.refl _ _), h₁⟩

/-- **The same boundaries**: drafts that are alike come from boundary to boundary of the same row
together. -/
theorem Advances.alike (he : e.mark.kind = .eof) {R : Draft → Draft → Prop}
    (hR : Likeness e e R) {d d' d₁ : Draft} {ts rest : List Token} (h : Advances d ts d₁ rest)
    (hts : ∃ us, ts = us ++ e.row) (hd : R d d') : ∃ d₁', Advances d' ts d₁' rest ∧ R d₁ d₁' := by
  induction h generalizing d' with
  | refl d ts => exact ⟨d', .refl d' ts, hd⟩
  | @step d d₁ d₂ t us rest rest' ht hs _ ih =>
      obtain ⟨vs, hvs⟩ := hts
      obtain ⟨ws, rfl⟩ : ∃ ws, us = ws ++ e.row := by
        cases vs with
        | nil => exact absurd ((List.cons.inj hvs).1 ▸ he) ht
        | cons v ws => exact ⟨ws, (List.cons.inj hvs).2⟩
      obtain ⟨c, c', s, s', hstep, hstep', hc, hapart⟩ := step_alike hR hd t ws
      obtain ⟨rfl, hrest⟩ := Prod.mk.inj (hs.symm.trans hstep)
      obtain rfl := Option.some.inj hrest
      -- With one line end in place of two, both rows are left at the same token.
      obtain ⟨rfl, hrow⟩ : s' = rest ∧ ∃ us, rest = us ++ e.row := by
        rcases hapart with ⟨vs, rfl, rfl⟩ | ⟨rfl, rfl⟩
        · exact ⟨rfl, vs, rfl⟩
        · exact ⟨rfl, [], LineBreak.beyond_of_eof he⟩
      obtain ⟨d₂', hadv, h₂⟩ := ih hrow hc
      exact ⟨d₂', .step ht hstep' hadv, h₂⟩

/-! ### Lines -/

/-- The drafts hold the same, and the same problems up to the token that they are about. -/
structure Draft.Matches (t t' : Token) (d d' : Draft) : Prop where
  statements : d.statements = d'.statements
  labels : d.labels = d'.labels
  references : d.references = d'.references
  hasSpawn : d.hasSpawn = d'.hasSpawn
  orderNoted : d.orderNoted = d'.orderNoted
  problems : List.Forall₂ (Same t t') d.problems d'.problems
  depth : d.depth = d'.depth

lemma Draft.Matches.refl (t t' : Token) (d : Draft) : d.Matches t t' d :=
  ⟨rfl, rfl, rfl, rfl, rfl, List.forall₂_same.2 fun p _ => .refl p, rfl⟩

lemma Draft.Matches.note {t t' : Token} {d d' : Draft} (h : d.Matches t t' d') {p p' : Problem}
    (hp : Same t t' p p') : (d.note p).Matches t t' (d'.note p') :=
  { h with problems := List.rel_append h.problems (.cons hp .nil) }

lemma likeness_matches (e e' : LineBreak) :
    Likeness e e' (Draft.Matches e.mark e'.mark) where
  hasSpawn h := h.hasSpawn
  spawn h := { h with hasSpawn := rfl }
  note h hp := h.note hp
  declare t h := by
    rw [Draft.declare, Draft.declare, h.labels]
    split
    · exact h.note (.refl _)
    · exact { h with labels := by rw [h.statements] }
  refer t h := { h with references := by rw [h.references] }
  add {d d'} s h := by
    have hordinary : (s.action.isSpawn || d.hasSpawn || d.orderNoted) =
        (s.action.isSpawn || d'.hasSpawn || d'.orderNoted) := by rw [h.hasSpawn, h.orderNoted]
    simp only [Draft.add, hordinary]
    split
    · exact { h with statements := by rw [h.statements] }
    · have hordered : Draft.Matches e.mark e'.mark { d with orderNoted := true }
          { d' with orderNoted := true } := { h with orderNoted := rfl }
      have hnoted := hordered.note (.refl (.spawnNotFirst s.mark.line))
      exact { hnoted with statements := by rw [hnoted.statements] }
  deepen n h := { h with depth := by rw [h.depth] }

/-- The drafts agree on the spawn, and the same statements were added to them. -/
structure Draft.Gains (d₀ d₀' d d' : Draft) : Prop where
  hasSpawn : d.hasSpawn = d'.hasSpawn
  statements : ∃ read, d.statements = d₀.statements ++ read ∧ d'.statements = d₀'.statements ++ read

lemma Draft.declare_eq (d : Draft) (t : Token) : (d.declare t).hasSpawn = d.hasSpawn ∧
    (d.declare t).statements = d.statements := by
  rw [declare]
  split <;> exact ⟨rfl, rfl⟩

lemma Draft.add_eq (d : Draft) (s : Stmt) : (d.add s).hasSpawn = d.hasSpawn ∧
    (d.add s).statements = d.statements.push s := by
  rw [add]
  split <;> exact ⟨rfl, rfl⟩

lemma likeness_gains (e : LineBreak) (d₀ d₀' : Draft) : Likeness e e (Draft.Gains d₀ d₀') where
  hasSpawn h := h.hasSpawn
  spawn h := { h with hasSpawn := rfl }
  note h _ := ⟨h.hasSpawn, h.statements⟩
  declare {d d'} t h := by
    obtain ⟨hspawn, hstatements⟩ := d.declare_eq t
    obtain ⟨hspawn', hstatements'⟩ := d'.declare_eq t
    exact ⟨by rw [hspawn, hspawn', h.hasSpawn], by rw [hstatements, hstatements']; exact h.statements⟩
  refer t h := ⟨h.hasSpawn, h.statements⟩
  add {d d'} s h := by
    obtain ⟨hspawn, hstatements⟩ := d.add_eq s
    obtain ⟨hspawn', hstatements'⟩ := d'.add_eq s
    obtain ⟨read, hread, hread'⟩ := h.statements
    refine ⟨by rw [hspawn, hspawn', h.hasSpawn], read.push s, ?_, ?_⟩
    · rw [hstatements, hread, Array.append_push]
    · rw [hstatements', hread', Array.append_push]
  deepen n h := ⟨h.hasSpawn, h.statements⟩

/-- **Lines are read one by one**, whatever is wrong with them. Reading comes to a boundary at the
first token behind a newline, and has gathered by then what it gathers from the lines before it alone:
the statements, labels, jumps and spawn notes, and the same problems, but for those that name the
newline. From there on the earlier lines matter to which tokens make up a statement only by the note
of a spawn. -/
theorem lines_apart (d : Draft) {before after : List Token} {newline eof : Token}
    (hbefore : Unclosed before) (hnewline : newline.kind = .newline) (heof : eof.kind = .eof)
    (hafter : ∃ ts t, after = ts ++ [t] ∧ t.kind = .eof) :
    ∃ d₁ d₂, Advances d (before ++ newline :: after) d₁ after ∧
      readAll d (before ++ newline :: after) = readAll d₁ after ∧
      readAll d (before ++ [eof]) = (d₂, some [eof]) ∧
      d₁.Matches newline eof d₂ ∧ d₁.problems.length = d₂.problems.length ∧
      ∀ d₃ d₄ rest, d₃.hasSpawn = d₁.hasSpawn → Advances d₁ after d₄ rest →
        ∃ d₅ read, Advances d₃ after d₅ rest ∧ d₄.statements = d₁.statements ++ read ∧
          d₅.statements = d₃.statements ++ read := by
  obtain ⟨ts, t, rfl, ht⟩ := hafter
  let e : LineBreak := ⟨newline, ts ++ [t], .inl ⟨hnewline, by simp⟩⟩
  let e' : LineBreak := ⟨eof, [], .inr heof⟩
  obtain ⟨d₁, d₂, hadv, hadv', hmatch⟩ :=
    advances_beyond (likeness_matches e e') (.refl _ _ d) hbefore
  rw [LineBreak.beyond_of_newline hnewline] at hadv
  rw [LineBreak.beyond_of_eof heof] at hadv'
  have hclosed : readAll d₂ [eof] = (d₂, some [eof]) := by rw [readAll, if_pos heof]
  refine ⟨d₁, d₂, hadv, hadv.readAll, hadv'.readAll.trans hclosed, hmatch, hmatch.problems.length_eq,
    fun d₃ d₄ rest hspawn hrest => ?_⟩
  have hgains : Draft.Gains d₁ d₃ d₁ d₃ := ⟨hspawn.symm, #[], by simp, by simp⟩
  let closing : LineBreak := ⟨t, [], .inr ht⟩
  obtain ⟨d₅, hadv₅, hgains⟩ :=
    hrest.alike ht (likeness_gains closing d₁ d₃) ⟨ts, rfl⟩ hgains
  obtain ⟨read, hread, hread'⟩ := hgains.statements
  exact ⟨d₅, read, hadv₅, hread, hread'⟩

/-- A line that breaks off inside its second command, `Spawn(0, Size(`. -/
def brokenLine : List Token :=
  let token (kind : Kind) (lexeme : String) : Token := ⟨kind, lexeme, none, .origin⟩
  [token (.command .spawn) "Spawn", token .openParen "(", token .number "0", token .comma ",",
    token (.command .size) "Size", token .openParen "("]

theorem lines_apart_brokenLine :
    Unclosed brokenLine ∧ ∃ newline after,
      newline.kind = .newline ∧ after = brokenLine ++ [Token.eof .origin] ∧
      ∃ d₁ d₂, Advances .empty (brokenLine ++ newline :: after) d₁ after ∧
        readAll .empty (brokenLine ++ newline :: after) = readAll d₁ after ∧
        readAll .empty (brokenLine ++ [Token.eof .origin]) = (d₂, some [Token.eof .origin]) ∧
        d₁.Matches newline (Token.eof .origin) d₂ ∧ d₁.problems.length = d₂.problems.length ∧
        ∀ d₃ d₄ rest, d₃.hasSpawn = d₁.hasSpawn → Advances d₁ after d₄ rest →
          ∃ d₅ read, Advances d₃ after d₅ rest ∧ d₄.statements = d₁.statements ++ read ∧
            d₅.statements = d₃.statements ++ read := by
  have hbefore : Unclosed brokenLine := by simp [brokenLine]
  refine ⟨hbefore, ⟨.newline, "\n", none, .origin⟩, _, rfl, rfl, ?_⟩
  exact lines_apart .empty hbefore rfl rfl ⟨brokenLine, Token.eof .origin, rfl, rfl⟩

end Brushwork.Grammar
