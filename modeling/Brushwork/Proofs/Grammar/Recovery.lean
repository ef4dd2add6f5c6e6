import Mathlib.Data.List.Infix
import Brushwork.Proofs.Grammar.Noting
import Brushwork.Proofs.Grammar.Stopping
import Brushwork.Proofs.Token.Places

/-!
Lines that do not fit.

A round of reading that is given up leaves a note, and reading is taken up again at a later token. How
often does that happen in one line?

* `Recovery` and `recoveries`: the rounds that are given up, with the tokens they began at and what
  was noted of them. `recoveries_sublist`: everything that was noted so is among the problems.
* `Reader.EndsLine`: a reader that ends where the next line begins, once it finds anything.
  `Reader.Line.endsLine`: so do the readers of statements.
* `round_in_line`: a round that is completed takes the rest of its line. One that is given up takes
  it too, unless a later token of the line can begin a statement.
* `recoveries_in_line`: so the rounds that are given up in a line begin at its first token or at one
  that can begin a statement.
* `recoveries_bounded`: the same for the lines of a text that was scanned. A name in a list of
  arguments is enough for a second note.
-/

namespace Brushwork.Grammar

/-! ### Rounds that are given up -/

/-- The reason for a refusal. -/
def Answer.refusal? {α : Type} : Answer α → Option Problem
  | refused p _ => some p
  | found _ _ | cut => none

/-- Why the round that begins with `t`, before `us`, is given up, if it is. -/
def refusal? (d : Draft) (t : Token) (us : List Token) : Option Problem :=
  if t.kind = .newline then none
  else
    match statementAt t us with
    | some reader => (reader d us).2.refusal?
    | none => some (.near t .notAStatement)

/-- A round that was given up: the tokens from its first one on, and what was noted of it. -/
structure Recovery where
  row : List Token
  problem : Problem

/-- The round began at a token of the line, which `rest` follows. -/
def Recovery.beganIn (line rest : List Token) (r : Recovery) : Bool :=
  line.tails.any fun us => us ≠ [] && r.row = us ++ rest

/-- The round began at a token that can begin a statement. -/
def Recovery.atStart (r : Recovery) : Bool := r.row.head?.any (·.kind.startsStatement)

/-- The round that begins with `t`, before `us`, if it is given up. -/
def givenUp (d : Draft) (t : Token) (us : List Token) : List Recovery :=
  (refusal? d t us).toList.map (⟨t :: us, ·⟩)

/-- The rounds that are given up while statements are read up to the closing mark. -/
def recoveries (d : Draft) (ts : List Token) : List Recovery :=
  match ts with
  | [] => []
  | t :: us =>
    if t.kind = .eof then []
    else
      match _h : step d t us with
      | (d', some rest) => givenUp d t us ++ recoveries d' rest
      | (_, none) => givenUp d t us
termination_by ts.length
decreasing_by exact Nat.lt_succ_of_le (step_length _h)

section Recoveries

variable {d d' : Draft} {t : Token} {us ts rest : List Token}

lemma row_of_mem_givenUp {r : Recovery} (h : r ∈ givenUp d t us) : r.row = t :: us := by
  obtain ⟨p, -, rfl⟩ := List.mem_map.1 h
  rfl

lemma problems_givenUp (d : Draft) (t : Token) (us : List Token) :
    (givenUp d t us).map Recovery.problem = (refusal? d t us).toList := by
  rw [givenUp, List.map_map]
  exact List.map_id _

lemma givenUp_of_none (h : refusal? d t us = none) : givenUp d t us = [] := by
  rw [givenUp, h]
  rfl

lemma givenUp_of_some {p : Problem} (h : refusal? d t us = some p) :
    givenUp d t us = [⟨t :: us, p⟩] := by
  rw [givenUp, h]
  rfl

lemma recoveries_step (ht : t.kind ≠ .eof) (hs : step d t us = (d', some rest)) :
    recoveries d (t :: us) = givenUp d t us ++ recoveries d' rest := by
  rw [recoveries, if_neg ht]
  split
  · next hstep =>
    obtain ⟨rfl, hrest⟩ := Prod.mk.inj (hs.symm.trans hstep)
    obtain rfl := Option.some.inj hrest
    rfl
  · next hstep => cases hs.symm.trans hstep

/-- No round begins before the first token. -/
lemma length_of_mem_recoveries {r : Recovery} (h : r ∈ recoveries d ts) :
    r.row.length ≤ ts.length := by
  fun_induction recoveries d ts with
  | case1 d => cases h
  | case2 d t us ht => cases h
  | case3 d t us ht d' rest hs ih =>
      rcases List.mem_append.1 h with h | h
      · rw [row_of_mem_givenUp h]
      · exact (ih h).trans (Nat.le_succ_of_le (step_length hs))
  | case4 d t us ht d' hs =>
      rw [row_of_mem_givenUp h]

/-- From one boundary to another, the rounds that are given up begin before the second one. -/
lemma Advances.recoveries (h : Advances d ts d' rest) : ∃ early,
    Grammar.recoveries d ts = early ++ Grammar.recoveries d' rest ∧
      ∀ r ∈ early, rest.length < r.row.length := by
  suffices hboth : rest.length ≤ ts.length ∧ ∃ early,
      Grammar.recoveries d ts = early ++ Grammar.recoveries d' rest ∧
        ∀ r ∈ early, rest.length < r.row.length from hboth.2
  induction h with
  | refl d ts => exact ⟨Nat.le_refl _, [], rfl, List.forall_mem_nil _⟩
  | @step d d₁ d₂ t us rest rest' ht hs _ ih =>
      obtain ⟨hle, early, heq, hearly⟩ := ih
      have hlt : rest'.length < (t :: us).length := Nat.lt_succ_of_le (hle.trans (step_length hs))
      refine ⟨hlt.le, givenUp d t us ++ early, ?_, ?_⟩
      · rw [recoveries_step ht hs, heq, List.append_assoc]
      · refine List.forall_mem_append.2 ⟨fun r hr => ?_, hearly⟩
        rw [row_of_mem_givenUp hr]
        exact hlt

end Recoveries

/-! ### What was noted of them -/

section Notes

variable {l : List Problem} {d : Draft} {t : Token} {us : List Token}

/-- What was noted before stays noted, whatever readers write down. -/
instance : Draft.Kept (fun _ => True) (fun _ => True) (fun d => l.Sublist d.problems) where
  covers _ _ _ _ := trivial
  note h _ := h.trans (List.sublist_append_left ..)
  refer h _ := h
  spawn h := h
  deepen h := h

lemma sublist_declare (h : l.Sublist d.problems) (t : Token) : l.Sublist (d.declare t).problems := by
  rw [Draft.declare]
  split
  · exact h.trans (List.sublist_append_left ..)
  · exact h

lemma sublist_add (h : l.Sublist d.problems) (s : Stmt) : l.Sublist (d.add s).problems := by
  rw [Draft.add]
  split
  · exact h
  · exact h.trans (List.sublist_append_left ..)

lemma statementAt_sublist {r : Reader Action} (hr : statementAt t us = some r)
    (h : l.Sublist d.problems) : l.Sublist (r d us).1.problems := by
  have hkeeps : r.Keeps (fun _ => True) (fun _ => True) (fun d => l.Sublist d.problems) :=
    (statementAt_line hr).keeps fun t _ d hd => sublist_declare hd t
  exact hkeeps.draft h fun _ _ => trivial

/-- A step notes why it was given up, behind all that was noted before. -/
lemma step_sublist (t : Token) (us : List Token) (h : l.Sublist d.problems) :
    (l ++ (refusal? d t us).toList).Sublist (step d t us).1.problems := by
  rw [step, refusal?]
  split
  · rwa [Option.toList_none, List.append_nil]
  · cases hr : statementAt t us with
    | none => exact h.append_right _
    | some r =>
        have hread := statementAt_sublist hr h
        dsimp only
        generalize r d us = out at hread ⊢
        obtain ⟨d', a⟩ := out
        cases a with
        | found action rest =>
            rw [Answer.refusal?, Option.toList_none, List.append_nil]
            exact sublist_add hread _
        | refused p rest => exact hread.append_right _
        | cut => rwa [Answer.refusal?, Option.toList_none, List.append_nil]

/-- **What was noted of the rounds that were given up** is among the problems, in order. -/
theorem recoveries_sublist (ts : List Token) (h : l.Sublist d.problems) :
    (l ++ (recoveries d ts).map Recovery.problem).Sublist (readAll d ts).1.problems := by
  fun_induction recoveries d ts generalizing l with
  | case1 d => simpa [readAll] using h
  | case2 d t us ht => simpa [readAll, ht] using h
  | case3 d t us ht d' rest hs ih =>
      have hstep := step_sublist t us h
      rw [hs] at hstep
      have hadv : Advances d (t :: us) d' rest := .step ht hs (.refl d' rest)
      rw [hadv.readAll, List.map_append, problems_givenUp, ← List.append_assoc]
      exact ih hstep
  | case4 d t us ht d' hs =>
      have hstep := step_sublist t us h
      rw [hs] at hstep
      rw [problems_givenUp, readAll, if_neg ht]
      split
      · next heq => cases hs.symm.trans heq
      · next heq =>
        obtain ⟨rfl, -⟩ := Prod.mk.inj (hs.symm.trans heq)
        exact hstep

/-- They are reported as errors. -/
lemma recoveries_errors (ts : List Token) :
    ((recoveries .empty ts).map (·.problem.message)).Sublist (Parse.ofTokens ts).errors := by
  have hread : ((recoveries .empty ts).map Recovery.problem).Sublist
      (readAll .empty ts).1.problems := recoveries_sublist ts (List.nil_sublist _)
  have hdraft : ((recoveries .empty ts).map Recovery.problem).Sublist
      (Parse.ofTokens ts).draft.problems := by
    rw [Parse.ofTokens_eq]
    split
    · next d rest heq =>
      rw [heq] at hread
      rw [Draft.finish, List.append_assoc]
      exact hread.trans (List.sublist_append_left ..)
    · next d heq =>
      rw [heq] at hread
      exact hread
  have herrors := hdraft.map Problem.message
  rwa [List.map_map] at herrors

end Notes

/-! ### Readers that end a line -/

/-- The tokens stand within a line. -/
def InLine (ts : List Token) : Prop := ∀ t ∈ ts, t.kind ≠ .newline ∧ t.kind ≠ .eof

lemma inLine_cons {t : Token} {us : List Token} :
    InLine (t :: us) ↔ (t.kind ≠ .newline ∧ t.kind ≠ .eof) ∧ InLine us := by simp [InLine]

lemma InLine.suffix {us vs : List Token} (h : InLine us) (hvs : vs <:+ us) : InLine vs :=
  fun t ht => h t (hvs.mem ht)

variable {e : LineBreak} {us : List Token}

/-- What is left in front of a line end is an end of what stood there. -/
lemma Leaves.suffix {vs : List Token} (h : Leaves (us ++ e.row) (vs ++ e.row)) : vs <:+ us := by
  obtain ⟨used, heq, -⟩ := h
  exact ⟨used, (List.append_cancel_right (heq.trans (List.append_assoc ..).symm)).symm⟩

namespace Reader

variable {α β : Type}

/-- In front of a line end a reader always comes to an answer, and leaves the row as `S` says. -/
lemma Agrees.answer {S : LineBreak → LineBreak → List Token → List Token → Prop} {r : Reader α}
    (h : Agrees S r) (d : Draft) (us : List Token) (e : LineBreak) :
    (r d (us ++ e.row)).2.Alike e e (S e e) (r d (us ++ e.row)).2 :=
  (h (likeness_eq rfl) rfl us).answer

/-- Whatever stands in a line, the reader is at the next line once it has found anything. -/
def EndsLine (r : Reader α) : Prop :=
  ∀ ⦃e : LineBreak⦄ ⦃us : List Token⦄ ⦃d d' : Draft⦄ ⦃v : α⦄ ⦃rest : List Token⦄,
    InLine us → r d (us ++ e.row) = (d', .found v rest) → rest = e.beyond

lemma skipLine_inLine (h : InLine us) : skipLine (us ++ e.row) = some e.beyond := by
  induction us with
  | nil => exact skipLine_mark e
  | cons t us ih =>
      obtain ⟨⟨hnewline, heof⟩, hus⟩ := inLine_cons.1 h
      rw [List.cons_append, skipLine, if_neg heof, if_neg hnewline]
      exact ih hus

lemma endsLine_lineEnd (after : String) : EndsLine (lineEnd after) := by
  intro e us d d' v rest hus hfound
  cases us with
  | nil =>
      rw [List.nil_append, lineEnd_mark] at hfound
      cases hfound
      rfl
  | cons t us =>
      obtain ⟨⟨hnewline, heof⟩, -⟩ := inLine_cons.1 hus
      have hskip := skipLine_inLine (e := e) hus
      rw [List.cons_append] at hfound hskip
      rw [lineEnd, if_neg hnewline, if_neg heof] at hfound
      simp only [hskip] at hfound
      cases hfound
      rfl

variable {D : Token → Prop}

/-- What comes first leaves the reading in the line. -/
lemma Inner.endsLine {r : Reader α} {f : α → Reader β} (hr : Inner D r)
    (hf : ∀ v, EndsLine (f v)) : EndsLine (r >>= f) := by
  intro e us d d' w rest hus hfound
  have hanswer := hr.agrees.answer d us e
  have hleaves := hr.heeds d (us ++ e.row)
  obtain ⟨d₁, v, rest₁, he, hb⟩ | ⟨d₁, p, rest₁, -, hb⟩ | ⟨d₁, -, hb⟩ :=
    bind_cases r f d (us ++ e.row)
  · rw [he] at hanswer hleaves
    cases hanswer with
    | found v hbefore =>
        obtain ⟨vs, rfl, -⟩ := hbefore
        exact hf v (hus.suffix hleaves.suffix) (hb ▸ hfound)
  · cases hb ▸ hfound
  · cases hb ▸ hfound

/-- What is only given back may come behind the line. -/
lemma EndsLine.map {r : Reader α} (hr : EndsLine r) (g : α → β) :
    EndsLine (r >>= fun v => pure (g v)) := by
  intro e us d d' w rest hus hfound
  obtain ⟨d₁, v, rest₁, he, hb⟩ | ⟨d₁, p, rest₁, -, hb⟩ | ⟨d₁, -, hb⟩ :=
    bind_cases r (fun v => pure (g v)) d (us ++ e.row)
  · cases hb ▸ hfound
    exact hr hus he
  · cases hb ▸ hfound
  · cases hb ▸ hfound

/-- **A statement that is found ends its line.** -/
theorem Line.endsLine {r : Reader α} (h : Line D r) : EndsLine r := by
  induction h with
  | lineEnd after => exact endsLine_lineEnd after
  | bind hr _ ihf => exact hr.endsLine ihf
  | map _ g ihr => exact ihr.map g

end Reader

/-! ### Rounds within a line -/

/-- Reading is taken up again behind the line `us`, which is followed by `e`, or at a token of it that
can begin a statement. -/
def TakenUp (e : LineBreak) (us : List Token) (r : Option (List Token)) : Prop :=
  r = some e.beyond ∨
    ∃ u vs, u :: vs <:+ us ∧ u.kind.startsStatement = true ∧ r = some (u :: vs ++ e.row)

lemma TakenUp.mono {vs : List Token} {r : Option (List Token)} (h : TakenUp e vs r)
    (hvs : vs <:+ us) : TakenUp e us r := by
  obtain h | ⟨u, ws, hws, hu, h⟩ := h
  · exact .inl h
  · exact .inr ⟨u, ws, hws.trans hvs, hu, h⟩

lemma resumeAfter_takenUp {t : Token} (ht : t.kind ≠ .newline) (hus : InLine us) :
    TakenUp e us (resumeAfter t (us ++ e.row)) := by
  induction us generalizing t with
  | nil => exact .inl (resumeAfter_mark t ht e)
  | cons u us ih =>
      obtain ⟨⟨hnewline, heof⟩, hus⟩ := inLine_cons.1 hus
      rw [List.cons_append, resumeAfter]
      split
      · next hor =>
        have hstarts : u.kind.startsStatement = true := (hor.resolve_left heof).resolve_left ht
        exact .inr ⟨u, us, List.suffix_refl _, hstarts, rfl⟩
      · exact (ih hnewline hus).mono (List.suffix_cons u us)

lemma resume_takenUp (hus : InLine us) : TakenUp e us (resume (us ++ e.row)) := by
  cases us with
  | nil => exact .inl (resume_mark e)
  | cons t us =>
      obtain ⟨⟨hnewline, heof⟩, hus⟩ := inLine_cons.1 hus
      rw [List.cons_append, resume, if_neg heof]
      exact (resumeAfter_takenUp hnewline hus).mono (List.suffix_cons t us)

/-- **A round within a line** is completed, and the rest of the line with it, or is given up. -/
theorem round_in_line (d : Draft) {t : Token} (ht : t.kind ≠ .newline) (hus : InLine us) :
    refusal? d t (us ++ e.row) = none ∧ (step d t (us ++ e.row)).2 = some e.beyond ∨
      (∃ p, refusal? d t (us ++ e.row) = some p) ∧ TakenUp e us (step d t (us ++ e.row)).2 := by
  rw [step, refusal?, if_neg ht, if_neg ht]
  cases hs : statementAt t (us ++ e.row) with
  | none => exact .inr ⟨⟨_, rfl⟩, resumeAfter_takenUp ht hus⟩
  | some r =>
      have hline := statementAt_line hs
      have hanswer := hline.agrees.answer d us e
      have hleaves := hline.heeds d (us ++ e.row)
      dsimp only
      cases hread : r d (us ++ e.row) with
      | mk d' a =>
          rw [hread] at hanswer hleaves
          cases hanswer with
          | found action h =>
              have hrest := hline.endsLine hus hread
              exact .inl ⟨rfl, congrArg some hrest⟩
          | refused hp hbefore =>
              obtain ⟨vs, rfl, -⟩ := hbefore
              have hvs : vs <:+ us := hleaves.suffix
              exact .inr ⟨⟨_, rfl⟩, (resume_takenUp (hus.suffix hvs)).mono hvs⟩

/-- At the end of a line nothing is given up. -/
lemma recoveries_mark (d : Draft) (e : LineBreak) : recoveries d e.row = recoveries d e.beyond := by
  rcases e.kind_mark with hk | hk
  · have hstep : step d e.mark e.after = (d, some e.after) := if_pos hk
    have hnone : refusal? d e.mark e.after = none := if_pos hk
    rw [LineBreak.beyond_of_newline hk, LineBreak.row, recoveries_step (by simp [hk]) hstep,
      givenUp_of_none hnone, List.nil_append]
  · rw [LineBreak.beyond_of_eof hk]

/-- **The rounds that are given up in a line** begin at its first token or at one that can begin a
statement, and there is at most one for each of these. -/
theorem recoveries_in_line (d : Draft) {line : List Token} (hline : InLine line) : ∃ d' here,
    recoveries d (line ++ e.row) = here ++ recoveries d' e.beyond ∧
    (∀ r ∈ here, ∃ us, us ≠ [] ∧ us <:+ line ∧ r.row = us ++ e.row ∧
      (us = line ∨ r.atStart = true)) ∧
    here.length ≤ 1 + line.tail.countP (·.kind.startsStatement) := by
  -- By induction on the tokens of the line: a round that is given up leaves fewer of them, or none.
  induction hn : line.length using Nat.strongRecOn generalizing line d with
  | ind n ih =>
      cases line with
      | nil => exact ⟨d, [], recoveries_mark d e, List.forall_mem_nil _, Nat.zero_le _⟩
      | cons t us =>
          obtain ⟨⟨hnewline, heof⟩, hus⟩ := inLine_cons.1 hline
          have hround := round_in_line (e := e) d hnewline hus
          cases hs : step d t (us ++ e.row) with
          | mk d' next =>
              rw [hs] at hround
              obtain ⟨hnone, rfl⟩ | ⟨⟨p, hp⟩, rfl | ⟨u, vs, hvs, hu, rfl⟩⟩ := hround
              · refine ⟨d', [], ?_, List.forall_mem_nil _, Nat.zero_le _⟩
                rw [List.cons_append, recoveries_step heof hs, givenUp_of_none hnone]
              · refine ⟨d', [⟨t :: us ++ e.row, p⟩], ?_, ?_, Nat.le_add_right ..⟩
                · rw [List.cons_append, recoveries_step heof hs, givenUp_of_some hp,
                    List.cons_append]
                · exact List.forall_mem_singleton.2
                    ⟨t :: us, by simp, List.suffix_refl _, rfl, .inl rfl⟩
              · have hlt : (u :: vs).length < n := by
                  rw [← hn]
                  exact Nat.lt_succ_of_le hvs.length_le
                obtain ⟨d'', here, heq, hhere, hcount⟩ := ih _ hlt d' (hus.suffix hvs) rfl
                refine ⟨d'', ⟨t :: us ++ e.row, p⟩ :: here, ?_, ?_, ?_⟩
                · rw [List.cons_append, recoveries_step heof hs, givenUp_of_some hp, heq]
                  rfl
                · refine List.forall_mem_cons.2
                    ⟨⟨t :: us, by simp, List.suffix_refl _, rfl, .inl rfl⟩, fun r hr => ?_⟩
                  obtain ⟨ws, hne, hws, hrow, hstart⟩ := hhere r hr
                  refine ⟨ws, hne, (hws.trans hvs).trans (List.suffix_cons t us), hrow, .inr ?_⟩
                  rcases hstart with rfl | hstart
                  · simpa [Recovery.atStart, hrow] using hu
                  · exact hstart
                · -- the token that reading was taken up at is one of those counted
                  have hle := hvs.sublist.countP_le (p := (·.kind.startsStatement))
                  rw [List.countP_cons_of_pos (by exact hu)] at hle
                  rw [List.tail_cons] at hcount ⊢
                  rw [List.length_cons]
                  omega

/-! ### The lines of a text -/

/-- Reading comes to a boundary at the beginning of every line. -/
lemma advances_line (d : Draft) {before rest : List Token} (hbefore : Unclosed before)
    (hlast : ∀ t ∈ before.getLast?, t.kind = .newline) (hrest : rest ≠ []) :
    ∃ d', Advances d (before ++ rest) d' rest := by
  obtain rfl | ⟨us, t, rfl⟩ := before.eq_nil_or_concat
  · exact ⟨d, .refl d rest⟩
  · rw [List.concat_eq_append] at hbefore hlast ⊢
    have ht : t.kind = .newline := hlast t (by simp)
    let e : LineBreak := ⟨t, rest, .inl ⟨ht, hrest⟩⟩
    obtain ⟨d', -, hadv, -⟩ := advances_beyond (likeness_eq (rfl : e.mark = e.mark)) (rfl : d = d)
      (unclosed_append.1 hbefore).1
    rw [LineBreak.beyond_of_newline ht] at hadv
    exact ⟨d', by rwa [List.append_assoc]⟩

/-- The tokens in front of the closing mark are no such marks. -/
lemma unclosed_tokens {source : String} {scan : Scan} (h : scan? source = some scan) :
    Unclosed scan.tokens := by
  intro t ht
  obtain ⟨rest, s, hfits, hpiece⟩ := exists_fits_of_mem h ht
  exact hfits.ne_eof hpiece

lemma beganIn_iff {line rest : List Token} {r : Recovery} :
    r.beganIn line rest = true ↔ ∃ us, us ≠ [] ∧ us <:+ line ∧ r.row = us ++ rest := by
  simp [Recovery.beganIn, List.mem_tails, and_left_comm]

/-- A round that began in the line began neither before it nor behind it. -/
lemma length_of_beganIn {line rest : List Token} {r : Recovery} (h : r.beganIn line rest = true) :
    rest.length < r.row.length ∧ r.row.length ≤ (line ++ rest).length := by
  obtain ⟨us, hne, hus, hrow⟩ := beganIn_iff.1 h
  have hpos := List.length_pos_of_ne_nil hne
  have hle := hus.length_le
  rw [hrow, List.length_append, List.length_append]
  omega

lemma LineBreak.length_beyond_le (e : LineBreak) : e.beyond.length ≤ e.row.length := by
  rw [LineBreak.beyond]
  split
  · exact Nat.le_refl _
  · exact Nat.le_succ _

/-- Of all rounds that are given up, those of the line come behind the earlier ones and before the
later ones. -/
lemma filter_beganIn {line : List Token} {early here late : List Recovery}
    (hearly : ∀ r ∈ early, (line ++ e.row).length < r.row.length)
    (hhere : ∀ r ∈ here, ∃ us, us ≠ [] ∧ us <:+ line ∧ r.row = us ++ e.row)
    (hlate : ∀ r ∈ late, r.row.length ≤ e.row.length) :
    (early ++ (here ++ late)).filter (·.beganIn line e.row) = here := by
  have hbefore : early.filter (·.beganIn line e.row) = [] :=
    List.filter_eq_nil_iff.2 fun r hr hin =>
      Nat.not_le_of_lt (hearly r hr) (length_of_beganIn hin).2
  have hwithin : here.filter (·.beganIn line e.row) = here :=
    List.filter_eq_self.2 fun r hr => beganIn_iff.2 (hhere r hr)
  have hbehind : late.filter (·.beganIn line e.row) = [] :=
    List.filter_eq_nil_iff.2 fun r hr hin =>
      Nat.not_lt_of_le (hlate r hr) (length_of_beganIn hin).1
  rw [List.filter_append, List.filter_append, hbefore, hwithin, hbehind, List.append_nil,
    List.nil_append]

/-- **A line of a row of tokens**, whatever stands before it and behind it. -/
theorem recoveries_line (d : Draft) {before line : List Token} (hopen : Unclosed before)
    (hbefore : ∀ t ∈ before.getLast?, t.kind = .newline) (hline : InLine line) (e : LineBreak) :
    let here := (recoveries d (before ++ line ++ e.row)).filter (·.beganIn line e.row)
    (∀ r ∈ here, r.row = line ++ e.row ∨ r.atStart = true) ∧
    here.length ≤ 1 + line.tail.countP (·.kind.startsStatement) := by
  intro here
  have hrest : line ++ e.row ≠ [] := LineBreak.nil_ne.symm
  obtain ⟨d₁, hadv⟩ := advances_line d hopen hbefore hrest
  obtain ⟨early, hall, hearly⟩ := hadv.recoveries
  obtain ⟨d₂, mid, hmid, hbegan, hcount⟩ := recoveries_in_line (e := e) d₁ hline
  rw [hmid, ← List.append_assoc] at hall
  have hhere : here = mid := by
    refine (congrArg (List.filter (·.beganIn line e.row)) hall).trans ?_
    refine filter_beganIn hearly (fun r hr => ?_) fun r hr => ?_
    · obtain ⟨us, hne, hus, hrow, -⟩ := hbegan r hr
      exact ⟨us, hne, hus, hrow⟩
    · exact (length_of_mem_recoveries hr).trans e.length_beyond_le
  rw [hhere]
  refine ⟨fun r hr => ?_, hcount⟩
  obtain ⟨us, -, -, hrow, rfl | hstart⟩ := hbegan r hr
  · exact .inl hrow
  · exact .inr hstart

/-- In the tokens of a text, nothing stands behind the closing mark and nothing but that mark is
last. -/
lemma closed_split {source : String} {scan : Scan} (h : scan? source = some scan)
    {before after : List Token} {mark : Token} (hrow : scan.closed = before ++ mark :: after) :
    Unclosed before ∧ (mark.kind = .newline → after ≠ []) := by
  refine ⟨?_, fun hk => ?_⟩
  · have hfront := congrArg List.dropLast hrow
    rw [Scan.closed, List.dropLast_concat, List.dropLast_append_of_ne_nil (by simp)] at hfront
    have htokens := unclosed_tokens h
    rw [hfront] at htokens
    exact (unclosed_append.1 htokens).1
  · rintro rfl
    have hlast : Token.eof scan.finish = mark := by simpa using (List.append_inj' hrow rfl).2
    rw [← hlast] at hk
    cases hk

/-- **How often a line is given up.** Each round that is given up is reported. In a line of a text that
was scanned, such rounds begin at the first token of the line or at one that can begin a statement,
and there is at most one for each of these. So a line is reported once at most, unless one of its
later tokens is a name or a command. -/
theorem recoveries_bounded {source : String} {scan : Scan} (h : scan? source = some scan)
    {before line after : List Token} {mark : Token}
    (hrow : scan.closed = before ++ line ++ mark :: after)
    (hbefore : ∀ t ∈ before.getLast?, t.kind = .newline) (hline : ∀ t ∈ line, t.kind ≠ .newline)
    (hmark : mark.kind = .newline ∨ mark.kind = .eof) :
    let all := recoveries .empty scan.closed
    let here := all.filter (·.beganIn line (mark :: after))
    (all.map (·.problem.message)).Sublist (Parse.ofTokens scan.closed).errors ∧
    (∀ r ∈ here, r.row = line ++ mark :: after ∨ r.atStart = true) ∧
    here.length ≤ 1 + line.tail.countP (·.kind.startsStatement) := by
  obtain ⟨hopen, hafter⟩ := closed_split h hrow
  obtain ⟨hopen, hlineOpen⟩ := unclosed_append.1 hopen
  let e : LineBreak := ⟨mark, after, hmark.imp_left fun hk => ⟨hk, hafter hk⟩⟩
  have hwithin : InLine line := fun t ht => ⟨hline t ht, hlineOpen t ht⟩
  refine ⟨recoveries_errors _, ?_⟩
  rw [hrow]
  exact recoveries_line .empty hopen hbefore hwithin e

/-- A surplus argument that is a name. -/
def surplusText : String := "Spawn(0, 0)\nDrawLine(1, 0, 1, n)"

/-- The second line is given up at the surplus comma, and once more at the name behind it. -/
theorem recoveries_bounded_surplusText :
    ∃ scan before line mark, scan? surplusText = some scan ∧
      scan.closed = before ++ line ++ [mark] ∧
      (∀ t ∈ before.getLast?, t.kind = .newline) ∧ (∀ t ∈ line, t.kind ≠ .newline) ∧
      mark.kind = .eof ∧
      let all := recoveries .empty scan.closed
      let here := all.filter (·.beganIn line [mark])
      here.map (·.problem.message) =
        ["[Line 2] Error at ',': DrawLine takes exactly 3 arguments.",
          "[Line 2] Error at 'n': Expected a statement, assignment or label."] ∧
      (all.map (·.problem.message)).Sublist (Parse.ofTokens scan.closed).errors ∧
      (∀ r ∈ here, r.row = line ++ [mark] ∨ r.atStart = true) ∧
      here.length ≤ 1 + line.tail.countP (·.kind.startsStatement) := by
  have hread : ((scan? surplusText).any fun scan =>
      let before := scan.closed.take 7
      let line := (scan.closed.drop 7).take 10
      let mark := Token.eof scan.finish
      decide (scan.closed = before ++ line ++ [mark] ∧
        (∀ t ∈ before.getLast?, t.kind = .newline) ∧ (∀ t ∈ line, t.kind ≠ .newline) ∧
        ((recoveries .empty scan.closed).filter (·.beganIn line [mark])).map (·.problem.message) =
          ["[Line 2] Error at ',': DrawLine takes exactly 3 arguments.",
            "[Line 2] Error at 'n': Expected a statement, assignment or label."])) = true := by
    decide +kernel
  obtain ⟨scan, hscan, hfacts⟩ := (Option.any_eq_true _ _).1 hread
  obtain ⟨hrow, hbefore, hline, hmessages⟩ := of_decide_eq_true hfacts
  exact ⟨scan, _, _, _, hscan, hrow, hbefore, hline, rfl, hmessages,
    recoveries_bounded hscan hrow hbefore hline (.inr rfl)⟩

end Brushwork.Grammar
