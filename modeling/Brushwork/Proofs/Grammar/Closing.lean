import Brushwork.Grammar.Parse
import Brushwork.Proofs.Grammar.Yield

/-!
The closing mark of a row of tokens.

No reader passes the closing mark, and a row is cut short only if it has none:

* `Leaves`: what is left of a row once tokens have been passed, none of them the closing mark.
* `Reader.Heeds`: a reader that leaves an end of its row behind and heeds the closing mark.
  `Reader.Line.heeds`: so do the readers of statements.
* `step_heeds` and `readAll_heeds`: so does a step, and so does the whole reading, which stops at the
  first closing mark.
-/

namespace Brushwork.Grammar

/-! ### What is left -/

/-- Tokens of `ts` have been passed, none of them the closing mark, and `rest` is left. -/
def Leaves (ts rest : List Token) : Prop := ∃ used, ts = used ++ rest ∧ Unclosed used

lemma Leaves.refl (ts : List Token) : Leaves ts ts := ⟨[], rfl, unclosed_nil⟩

lemma Leaves.trans {ts us rest : List Token} (h : Leaves ts us) (h' : Leaves us rest) :
    Leaves ts rest := by
  obtain ⟨v, rfl, hv⟩ := h
  obtain ⟨w, rfl, hw⟩ := h'
  exact ⟨v ++ w, (List.append_assoc ..).symm, unclosed_append.2 ⟨hv, hw⟩⟩

lemma Leaves.cons {t : Token} {us rest : List Token} (h : Leaves us rest) (ht : t.kind ≠ .eof) :
    Leaves (t :: us) rest := by
  obtain ⟨v, rfl, hv⟩ := h
  exact ⟨t :: v, rfl, unclosed_cons.2 ⟨ht, hv⟩⟩

/-- Nothing was passed if not even what is left holds a closing mark. -/
lemma Leaves.unclosed {ts rest : List Token} (h : Leaves ts rest) (hr : Unclosed rest) :
    Unclosed ts := by
  obtain ⟨v, rfl, hv⟩ := h
  exact unclosed_append.2 ⟨hv, hr⟩

/-- The answer leaves an end of the row and heeds its closing mark: without an end of its own the row
has no such mark. -/
def Answer.Heeds {α : Type} (ts : List Token) : Answer α → Prop
  | found _ rest | refused _ rest => Leaves ts rest
  | cut => Unclosed ts

lemma Answer.Heeds.of_leaves {α : Type} {ts us : List Token} {a : Answer α} (h : Leaves ts us)
    (ha : a.Heeds us) : a.Heeds ts := by
  cases a with
  | found v rest => exact h.trans ha
  | refused p rest => exact h.trans ha
  | cut => exact h.unclosed ha

lemma Reading.Accounts.heeds {α : Type} {ts : List Token}
    {P : α → List Token → List Problem → Prop} {r : Reading α} (h : r.Accounts ts P) :
    r.answer.Heeds ts := by
  obtain ⟨ps, a⟩ := r
  cases a with
  | found v rest =>
      obtain ⟨used, hts, hu, -⟩ := h
      exact ⟨used, hts, hu⟩
  | refused p rest => exact h
  | cut => exact h

/-- The same for what a step leaves to be read. -/
def RestHeeds (ts : List Token) : Option (List Token) → Prop
  | some rest => Leaves ts rest
  | none => Unclosed ts

lemma RestHeeds.of_leaves {ts us : List Token} {r : Option (List Token)} (h : Leaves ts us)
    (hr : RestHeeds us r) : RestHeeds ts r := by
  cases r with
  | some rest => exact h.trans hr
  | none => exact h.unclosed hr

/-! ### Readers -/

namespace Reader

variable {α β : Type}

/-- The reader leaves an end of its row behind and heeds the closing mark. -/
def Heeds (r : Reader α) : Prop := ∀ d ts, (r d ts).2.Heeds ts

/-- One reader after the other, in terms of what the first one leaves. -/
lemma bind_cases (r : Reader α) (f : α → Reader β) (d : Draft) (ts : List Token) :
    (∃ d' v rest, r d ts = (d', .found v rest) ∧ (r >>= f) d ts = f v d' rest) ∨
    (∃ d' p rest, r d ts = (d', .refused p rest) ∧ (r >>= f) d ts = (d', .refused p rest)) ∨
    (∃ d', r d ts = (d', .cut) ∧ (r >>= f) d ts = (d', .cut)) := by
  cases hread : r d ts with
  | mk d' a =>
      cases a with
      | found v rest => exact .inl ⟨d', v, rest, rfl, by simp only [bind, hread]⟩
      | refused p rest => exact .inr (.inl ⟨d', p, rest, rfl, by simp only [bind, hread]⟩)
      | cut => exact .inr (.inr ⟨d', rfl, by simp only [bind, hread]⟩)

lemma Heeds.bind {r : Reader α} {f : α → Reader β} (hr : Heeds r) (hf : ∀ v, Heeds (f v)) :
    Heeds (r >>= f) := by
  intro d ts
  have h := hr d ts
  obtain ⟨d', v, rest, he, hb⟩ | ⟨d', p, rest, he, hb⟩ | ⟨d', he, hb⟩ := bind_cases r f d ts
  · rw [he] at h
    rw [hb]
    exact (hf v d' rest).of_leaves h
  · rw [he] at h
    rw [hb]
    exact h
  · rw [he] at h
    rw [hb]
    exact h

lemma heeds_pure (v : α) : Heeds (pure v : Reader α) := fun _ ts => Leaves.refl ts

lemma heeds_update (f : Draft → Draft) : Heeds (update f) := fun _ ts => Leaves.refl ts

lemma heeds_refuse (cause : Problem.Cause) : Heeds (refuse cause : Reader α) := by
  intro d ts
  cases ts with
  | nil => exact unclosed_nil
  | cons t us => exact Leaves.refl _

lemma heeds_refuseIf (kind : Kind) (cause : Problem.Cause) : Heeds (refuseIf kind cause) := by
  intro d ts
  cases ts with
  | nil => exact unclosed_nil
  | cons t us =>
      rw [refuseIf]
      split <;> exact Leaves.refl _

lemma heeds_expect (kind : Kind) (cause : Problem.Cause) [h : Plain kind] :
    Heeds (expect kind cause) :=
  fun _ _ => (accounts_expect h.ne).heeds

lemma heeds_expectEither (k₁ k₂ : Kind) (cause : Problem.Cause) [h₁ : Plain k₁] [h₂ : Plain k₂] :
    Heeds (expectEither k₁ k₂ cause) := by
  intro d ts
  cases ts with
  | nil => exact unclosed_nil
  | cons t us =>
      rw [expectEither]
      split
      · next h =>
        have ht : t.kind ≠ .eof := by
          rcases h with h | h
          · rw [h]; exact h₁.ne
          · rw [h]; exact h₂.ne
        exact (Leaves.refl us).cons ht
      · exact Leaves.refl _

lemma heeds_expr : Heeds expr := fun _ ts => (expression_accounts ts).heeds

lemma heeds_direction (axis : Axis) : Heeds (direction axis) := by
  intro d ts
  cases ts with
  | nil => exact unclosed_nil
  | cons t us =>
      have h := heeds_expr d (t :: us)
      rw [direction]
      split
      · next d' e rest he =>
        rw [he] at h
        repeat' split
        all_goals exact h
      · next d' a _ he =>
        rw [he] at h
        exact h

lemma skipLine_heeds (ts : List Token) : RestHeeds ts (skipLine ts) := by
  induction ts with
  | nil => exact unclosed_nil
  | cons t us ih =>
      rw [skipLine]
      split
      · exact Leaves.refl _
      · next ht =>
        split
        · exact (Leaves.refl us).cons ht
        · exact ih.of_leaves ((Leaves.refl us).cons ht)

lemma heeds_lineEnd (after : String) : Heeds (lineEnd after) := by
  intro d ts
  cases ts with
  | nil => exact unclosed_nil
  | cons t us =>
      have h := skipLine_heeds (t :: us)
      rw [lineEnd]
      split
      · next ht => exact (Leaves.refl us).cons (by simp [ht])
      · split
        · exact Leaves.refl _
        · dsimp only
          split
          · next rest hs => rwa [hs] at h
          · next hs => rwa [hs] at h

lemma heeds_beginSpawn : Heeds beginSpawn := by
  intro d ts
  rw [beginSpawn]
  split
  · exact heeds_refuse .secondSpawn d ts
  · exact Leaves.refl ts

lemma heeds_target : Heeds target :=
  (heeds_expect _ _).bind fun _ => (heeds_expect _ _).bind fun _ =>
    (heeds_expect _ _).bind fun _ => (heeds_update _).bind fun _ => heeds_pure _

variable {D : Token → Prop}

lemma Inner.heeds {r : Reader α} (h : Inner D r) : Heeds r := by
  induction h with
  | pure v => exact heeds_pure v
  | bind _ _ ihr ihf => exact ihr.bind ihf
  | refuseIf => exact heeds_refuseIf _ _
  | expect => exact heeds_expect _ _
  | expectEither => exact heeds_expectEither _ _ _
  | expr => exact heeds_expr
  | direction axis => exact heeds_direction axis
  | beginSpawn => exact heeds_beginSpawn
  | target => exact heeds_target
  | declare => exact heeds_update _

/-- **No statement reads past the closing mark.** -/
theorem Line.heeds {r : Reader α} (h : Line D r) : Heeds r := by
  induction h with
  | lineEnd after => exact heeds_lineEnd after
  | bind hr _ ihf => exact hr.heeds.bind ihf
  | map _ g ihr => exact ihr.bind fun v => heeds_pure (g v)

end Reader

/-! ### Steps -/

lemma resumeAfter_heeds (t : Token) (ts : List Token) : RestHeeds ts (resumeAfter t ts) := by
  induction ts generalizing t with
  | nil => exact unclosed_nil
  | cons u us ih =>
      rw [resumeAfter]
      split
      · exact Leaves.refl _
      · next h =>
        have hu : u.kind ≠ .eof := fun he => h (.inl he)
        exact (ih u).of_leaves ((Leaves.refl us).cons hu)

lemma resume_heeds (ts : List Token) : RestHeeds ts (resume ts) := by
  cases ts with
  | nil => exact unclosed_nil
  | cons t us =>
      rw [resume]
      split
      · exact Leaves.refl _
      · next h => exact (resumeAfter_heeds t us).of_leaves ((Leaves.refl us).cons h)

lemma conclude_heeds (t : Token) {ts : List Token} {out : Draft × Answer Action}
    (h : out.2.Heeds ts) : RestHeeds ts (conclude t out).2 := by
  obtain ⟨d, a⟩ := out
  cases a with
  | found action rest => exact h
  | refused p rest => exact (resume_heeds rest).of_leaves h
  | cut => exact h

/-- A step leaves an end of the row behind its first token and heeds the closing mark. -/
lemma step_heeds (d : Draft) (t : Token) (us : List Token) : RestHeeds us (step d t us).2 := by
  rw [step]
  split
  · exact Leaves.refl us
  · split
    · next r hr => exact conclude_heeds t ((statementAt_line hr).heeds d us)
    · exact resumeAfter_heeds t us

/-- **Reading stops at the first closing mark**, and only a row without one is cut short. -/
theorem readAll_heeds (d : Draft) (ts : List Token) :
    RestHeeds ts (readAll d ts).2 ∧
      ∀ rest, (readAll d ts).2 = some rest → ∃ t us, rest = t :: us ∧ t.kind = .eof := by
  fun_induction readAll d ts with
  | case1 d => exact ⟨unclosed_nil, by simp⟩
  | case2 d t us ht =>
      refine ⟨Leaves.refl _, fun rest h => ?_⟩
      exact ⟨t, us, (Option.some.inj h).symm, ht⟩
  | case3 d t us ht d' rest h ih =>
      have hs := step_heeds d t us
      rw [h] at hs
      exact ⟨ih.1.of_leaves (hs.cons ht), ih.2⟩
  | case4 d t us ht d' h =>
      have hs := step_heeds d t us
      rw [h] at hs
      exact ⟨unclosed_cons.2 ⟨ht, hs⟩, by simp⟩

/-- A row with a closing mark is read up to it. -/
lemma readAll_of_closed (d : Draft) {ts : List Token} (h : ∃ t ∈ ts, t.kind = .eof) :
    ∃ d' rest, readAll d ts = (d', some rest) := by
  have hr := (readAll_heeds d ts).1
  cases hread : readAll d ts with
  | mk d' r =>
      cases r with
      | some rest => exact ⟨d', rest, rfl⟩
      | none =>
          obtain ⟨t, ht, he⟩ := h
          rw [hread] at hr
          exact absurd he (hr t ht)

end Brushwork.Grammar
