import Brushwork.Proofs.Grammar.Lines

/-!
Where reading stops.

* `Rounds`: reading goes from one statement boundary to another in a number of rounds, each of which
  reads a statement, an empty line, or something to pass over.
* `Rounds.length_le`: every round takes a token at least.
* `readAll_rounds`: so reading is over after no more rounds than there are tokens, at the closing
  mark or where the row is cut short.
* `readAll_closed`: it stops at the first closing mark, and what follows that mark is never looked
  at.
* `reading_stops`: the same for the reading of a whole program, whatever its tokens are.
-/

namespace Brushwork.Grammar

/-! ### Rounds -/

/-- Reading comes from one draft and row to another in that number of rounds. -/
inductive Rounds : Nat → Draft → List Token → Draft → List Token → Prop
  | refl (d : Draft) (ts : List Token) : Rounds 0 d ts d ts
  | round {n : Nat} {d d₁ d₂ : Draft} {t : Token} {us rest rest' : List Token} (ht : t.kind ≠ .eof)
      (hs : step d t us = (d₁, some rest)) (h : Rounds n d₁ rest d₂ rest') :
      Rounds (n + 1) d (t :: us) d₂ rest'

/-- There is no further round: the closing mark comes next, or the row ends before the next round
does. -/
def Over (d : Draft) : List Token → Prop
  | [] => True
  | t :: us => t.kind = .eof ∨ (step d t us).2 = none

/-- Every round takes a token at least, whatever it makes of it. -/
lemma Rounds.length_le {n : Nat} {d d' : Draft} {ts rest : List Token}
    (h : Rounds n d ts d' rest) : n + rest.length ≤ ts.length := by
  induction h with
  | refl d ts => omega
  | round ht hs _ ih =>
      have hlength := step_length hs
      rw [List.length_cons]
      omega

/-- **Reading is over** after some number of rounds, and what it gives is what they have
gathered. -/
theorem readAll_rounds (d : Draft) (ts : List Token) :
    ∃ n d' rest, Rounds n d ts d' rest ∧ Over d' rest ∧ readAll d ts = readAll d' rest := by
  fun_induction readAll d ts with
  | case1 d => exact ⟨0, d, [], .refl d [], trivial, by rw [readAll]⟩
  | case2 d t us ht =>
      refine ⟨0, d, t :: us, .refl d _, .inl ht, ?_⟩
      rw [readAll, if_pos ht]
  | case3 d t us ht d' rest hs ih =>
      obtain ⟨n, d₁, rest₁, hrounds, hover, hread⟩ := ih
      exact ⟨n + 1, d₁, rest₁, .round ht hs hrounds, hover, hread⟩
  | case4 d t us ht d' hs =>
      refine ⟨0, d, t :: us, .refl d _, .inr (by rw [hs]), ?_⟩
      rw [readAll, if_neg ht]
      split
      · next heq => cases hs.symm.trans heq
      · next heq => rw [← (Prod.mk.inj (hs.symm.trans heq)).1]

/-! ### The closing mark -/

lemma Same.eq {t : Token} {p p' : Problem} (h : Same t t p p') : p = p' := by
  cases h with
  | refl => rfl
  | near => rfl
  | unexpected => rfl

/-- Rows that are the same up to a line end and at it give the same draft, not only one that is
alike. -/
lemma likeness_eq {e e' : LineBreak} (h : e.mark = e'.mark) : Likeness e e' (· = ·) where
  hasSpawn hd := by rw [hd]
  spawn hd := by rw [hd]
  note hd hp := by
    rw [h] at hp
    rw [hd, hp.eq]
  declare t hd := by rw [hd]
  refer t hd := by rw [hd]
  add s hd := by rw [hd]
  deepen n hd := by rw [hd]

/-- **Reading stops at the first closing mark**: the mark is left, and the draft is the one that is
gathered if nothing follows it. -/
theorem readAll_closed (d : Draft) {before : List Token} {eof : Token} (hbefore : Unclosed before)
    (heof : eof.kind = .eof) (after : List Token) :
    readAll d (before ++ eof :: after) =
      ((readAll d (before ++ [eof])).1, some (eof :: after)) := by
  let e : LineBreak := ⟨eof, after, .inr heof⟩
  let e' : LineBreak := ⟨eof, [], .inr heof⟩
  have hsame : Likeness e e' (· = ·) := likeness_eq rfl
  obtain ⟨d₁, _, hadv, hadv', rfl⟩ := advances_beyond hsame (rfl : d = d) hbefore
  rw [LineBreak.beyond_of_eof heof] at hadv hadv'
  have hstop : ∀ us, readAll d₁ (eof :: us) = (d₁, some (eof :: us)) := by
    intro us
    rw [readAll, if_pos heof]
  have hread : readAll d (before ++ eof :: after) = (d₁, some (eof :: after)) :=
    hadv.readAll.trans (hstop after)
  have hread' : readAll d (before ++ [eof]) = (d₁, some [eof]) := hadv'.readAll.trans (hstop [])
  rw [hread, hread']

/-- A row with a closing mark has a first one. -/
lemma exists_first_eof {ts : List Token} (h : ¬Unclosed ts) :
    ∃ before eof after, ts = before ++ eof :: after ∧ Unclosed before ∧ eof.kind = .eof := by
  induction ts with
  | nil => exact absurd unclosed_nil h
  | cons t us ih =>
      by_cases ht : t.kind = .eof
      · exact ⟨[], t, us, rfl, unclosed_nil, ht⟩
      · have hus : ¬Unclosed us := fun hus => h (unclosed_cons.2 ⟨ht, hus⟩)
        obtain ⟨before, eof, after, rfl, hbefore, heof⟩ := ih hus
        exact ⟨t :: before, eof, after, rfl, unclosed_cons.2 ⟨ht, hbefore⟩, heof⟩

/-- Without a closing mark the row is cut short. -/
lemma readAll_unclosed (d : Draft) {ts : List Token} (h : Unclosed ts) :
    (readAll d ts).2 = none := by
  obtain ⟨hheeds, hmark⟩ := readAll_heeds d ts
  cases hrest : (readAll d ts).2 with
  | none => rfl
  | some rest =>
      obtain ⟨t, us, rfl, ht⟩ := hmark rest hrest
      rw [hrest] at hheeds
      obtain ⟨used, rfl, -⟩ := hheeds
      exact absurd ht (h t (by simp))

/-! ### Programs -/

namespace Parse

lemma ofTokens_eq (ts : List Token) :
    ofTokens ts =
      match readAll .empty ts with
      | (d, some rest) => ⟨d.finish, some rest⟩
      | (d, none) => ⟨d, none⟩ := rfl

lemma ofTokens_closed {before : List Token} {eof : Token} (hbefore : Unclosed before)
    (heof : eof.kind = .eof) (after : List Token) :
    ofTokens (before ++ eof :: after) =
      ⟨(readAll .empty (before ++ [eof])).1.finish, some (eof :: after)⟩ := by
  rw [ofTokens_eq, readAll_closed .empty hbefore heof after]

lemma ofTokens_unclosed {ts : List Token} (h : Unclosed ts) : (ofTokens ts).rest = none := by
  have hread := readAll_unclosed .empty h
  rw [ofTokens_eq]
  split
  · next heq =>
    rw [heq] at hread
    cases hread
  · rfl

end Parse

/-- **Reading stops**, whatever the tokens are and wherever a closing mark stands among them. It is
over after no more rounds than it takes tokens. The row is cut short, so that a token is missing, if
and only if none of its tokens is a closing mark. Otherwise reading stands at the first closing mark
in the end, and no token behind that mark has any part in the program or the errors. -/
theorem reading_stops (ts : List Token) :
    (∃ n d rest, Rounds n .empty ts d rest ∧ Over d rest ∧ n + rest.length ≤ ts.length ∧
      readAll .empty ts = readAll d rest) ∧
    ((Parse.ofTokens ts).rest = none ↔ ∀ t ∈ ts, t.kind ≠ .eof) ∧
    ∀ before eof after, ts = before ++ eof :: after → (∀ t ∈ before, t.kind ≠ .eof) →
      eof.kind = .eof →
      (Parse.ofTokens ts).rest = some (eof :: after) ∧
        ∀ after', (Parse.ofTokens (before ++ eof :: after')).program = (Parse.ofTokens ts).program ∧
          (Parse.ofTokens (before ++ eof :: after')).errors = (Parse.ofTokens ts).errors := by
  have hclosed : ∀ before eof after, ts = before ++ eof :: after → Unclosed before →
      eof.kind = .eof → (Parse.ofTokens ts).rest = some (eof :: after) := by
    rintro before eof after rfl hbefore heof
    rw [Parse.ofTokens_closed hbefore heof]
  refine ⟨?_, ⟨fun hrest => ?_, Parse.ofTokens_unclosed⟩,
    fun before eof after hts hbefore heof => ?_⟩
  · obtain ⟨n, d, rest, hrounds, hover, hread⟩ := readAll_rounds .empty ts
    exact ⟨n, d, rest, hrounds, hover, hrounds.length_le, hread⟩
  · by_contra hmark
    obtain ⟨before, eof, after, hts, hbefore, heof⟩ := exists_first_eof hmark
    rw [hclosed before eof after hts hbefore heof] at hrest
    cases hrest
  · refine ⟨hclosed before eof after hts hbefore heof, fun after' => ?_⟩
    rw [hts, Parse.ofTokens_closed hbefore heof, Parse.ofTokens_closed hbefore heof]
    exact ⟨rfl, rfl⟩

theorem reading_stops_brokenLine :
    (Parse.ofTokens brokenLine).rest = none ∧
      (Parse.ofTokens (brokenLine ++ Token.eof .origin :: brokenLine)).rest =
        some (Token.eof .origin :: brokenLine) ∧
      ∀ after', (Parse.ofTokens (brokenLine ++ Token.eof .origin :: after')).errors =
        (Parse.ofTokens (brokenLine ++ Token.eof .origin :: brokenLine)).errors := by
  have hopen : ∀ t ∈ brokenLine, t.kind ≠ .eof := by simp [brokenLine]
  obtain ⟨-, -, hstops⟩ := reading_stops (brokenLine ++ Token.eof .origin :: brokenLine)
  obtain ⟨hrest, hafter⟩ := hstops brokenLine (.eof .origin) brokenLine rfl hopen rfl
  exact ⟨(reading_stops brokenLine).2.1.2 hopen, hrest, fun after' => (hafter after').2⟩

end Brushwork.Grammar
