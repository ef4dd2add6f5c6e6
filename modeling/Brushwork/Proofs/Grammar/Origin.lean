import Brushwork.Proofs.Grammar.Noting

/-!
Where problems and statements come from.

Let all tokens of a row have a property. Then whatever a reading notes, it notes at a token with that
property, and every statement begins with one:

* `Problem.From` and `Draft.From`: problems and drafts that speak of tokens with the property only.
* `Draft.From.step` and `Draft.From.finish`: a step keeps the draft so, and so does the end of the
  reading.
* `ofTokens_from`: the problems and statements of a row come from its tokens.
-/

namespace Brushwork

/-- The problem lies with a token that has the property, or with none at all. -/
def Problem.From (T : Token → Prop) : Problem → Prop
  | near t _ => T t
  | spawnNotFirst line => ∃ t, T t ∧ line = t.position.mark.line
  | missingSpawn => True

namespace Grammar

variable {T : Token → Prop} {t : Token} {us : List Token}

/-! ### Drafts -/

/-- All that the draft has gathered lies with tokens that have the property. -/
structure Draft.From (T : Token → Prop) (d : Draft) : Prop where
  problems : ∀ p ∈ d.problems, p.From T
  references : ∀ t ∈ d.references, T t
  statements : ∀ s ∈ d.statements.toList, ∃ t, T t ∧ s.mark = t.position.mark

lemma Draft.from_empty : Draft.empty.From T := by
  refine ⟨List.forall_mem_nil _, List.forall_mem_nil _, ?_⟩
  simp [Draft.empty]

lemma Draft.From.note {d : Draft} (h : d.From T) {p : Problem} (hp : p.From T) :
    (d.note p).From T :=
  ⟨List.forall_mem_append.2 ⟨h.problems, List.forall_mem_singleton.2 hp⟩, h.references,
    h.statements⟩

lemma Draft.From.declare {d : Draft} (h : d.From T) (ht : T t) : (d.declare t).From T := by
  rw [Draft.declare]
  split
  · exact h.note ht
  · exact ⟨h.problems, h.references, h.statements⟩

lemma Draft.From.add {d : Draft} (h : d.From T) (ht : T t) (a : Action) :
    (d.add ⟨t.position.mark, a⟩).From T := by
  have hpush : ∀ {d : Draft}, d.From T → { d with
      statements := d.statements.push ⟨t.position.mark, a⟩ }.From T := by
    intro d h
    refine ⟨h.problems, h.references, ?_⟩
    rw [Array.toList_push]
    exact List.forall_mem_append.2 ⟨h.statements, List.forall_mem_singleton.2 ⟨t, ht, rfl⟩⟩
  rw [Draft.add]
  dsimp only
  split
  · exact hpush h
  · have hnoted : { d with orderNoted := true }.From T :=
      ⟨h.problems, h.references, h.statements⟩
    exact hpush (hnoted.note ⟨t, ht, rfl⟩)

/-- Readers write nothing into such a draft but what lies with the tokens before them. -/
instance : Draft.Kept T (Problem.From T) (Draft.From T) where
  covers _ _ ht _ := ht
  note h hp := h.note hp
  refer h ht := ⟨h.problems,
    List.forall_mem_append.2 ⟨h.references, List.forall_mem_singleton.2 ht⟩, h.statements⟩
  spawn h := ⟨h.problems, h.references, h.statements⟩
  deepen h := ⟨h.problems, h.references, h.statements⟩

/-! ### Steps -/

lemma statementAt_traces {r : Reader Action} (ht : T t) (h : statementAt t us = some r) :
    r.Keeps T (Problem.From T) (Draft.From T) := by
  refine (statementAt_line h).keeps ?_
  rintro _ rfl d hd
  exact hd.declare ht

/-- **A step** notes what lies with the tokens of the row, and adds a statement that begins with its
first token. -/
theorem Draft.From.step {d : Draft} (hd : d.From T) (ht : T t) (hus : ∀ t ∈ us, T t) :
    (step d t us).1.From T := by
  obtain h | ⟨r, hr, hread⟩ | h := step_cases d t us
  · rw [h]
    exact hd
  · have hkeeps := statementAt_traces ht hr
    have hdraft := hkeeps.draft hd hus
    have hanswer := hkeeps.answer hd hus
    obtain ⟨d', a, rest, hread, h⟩ | ⟨d', p, rest, hread, h⟩ | ⟨d', hread, h⟩ := hread <;>
      rw [hread] at hdraft hanswer <;> rw [h]
    · exact hdraft.add ht a
    · exact hdraft.note hanswer.1
    · exact hdraft
  · rw [h]
    exact hd.note ht

lemma Draft.From.finish {d : Draft} (hd : d.From T) : d.finish.From T := by
  refine ⟨?_, hd.references, hd.statements⟩
  rw [Draft.finish]
  refine List.forall_mem_append.2 ⟨List.forall_mem_append.2 ⟨hd.problems, ?_⟩, ?_⟩
  · split
    · exact List.forall_mem_nil _
    · exact List.forall_mem_singleton.2 trivial
  · intro p hp
    obtain ⟨t, ht, rfl⟩ := List.mem_map.1 hp
    exact hd.references t (List.mem_filter.1 ht).1

/-- **Where problems and statements come from**: each problem of a row of tokens lies with one of them,
or with the row as a whole, and each statement begins with one. -/
theorem ofTokens_from (ts : List Token) : (Parse.ofTokens ts).draft.From (· ∈ ts) :=
  ofTokens_keeps Draft.from_empty (fun _ _ _ hd ht hus => hd.step ht hus) (fun _ hd => hd.finish)
    fun _ ht => ht

end Grammar

end Brushwork
