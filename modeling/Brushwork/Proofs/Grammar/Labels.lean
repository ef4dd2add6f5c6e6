import Mathlib.Data.Finset.Card
import Brushwork.Proofs.Check.Acceptance
import Brushwork.Proofs.Grammar.Clean
import Brushwork.Proofs.Grammar.Noting
import Brushwork.Proofs.Machine.Session

/-!
The labels of a program that is read, whatever may be wrong with it.

A label is declared while it is read and added to the statements right after. So the draft knows its
labels by their first places at all times, and every further declaration has been noted:

* `Draft.Alongside`: drafts with the same statements and labels and as many notes of second
  declarations. All readers but that of a label leave such a draft, and find no label.
* `Draft.Keyed`: the labels of a draft are those that its statements declare, and second declarations
  have been counted.
* `Draft.Keyed.declare_add` and `Draft.Keyed.step`: it stays so when a label is read, and with every
  step.
* `labels_agree`: the labels of a program are those that a machine looks up for itself.
-/

namespace Brushwork

/-- A label is declared a second time. -/
def Problem.isDuplicateLabel : Problem → Bool
  | near _ (.duplicateLabel _) => true
  | _ => false

namespace Program

lemma labelsFrom_append (index : Nat) (labels : Table Nat) (ss ss' : List Stmt) :
    labelsFrom index labels (ss ++ ss') =
      labelsFrom (index + ss.length) (labelsFrom index labels ss) ss' := by
  induction ss generalizing index labels with
  | nil => rfl
  | cons s ss ih =>
      have hlength : index + (s :: ss).length = index + 1 + ss.length := by
        rw [List.length_cons]
        omega
      rw [List.cons_append, labelsFrom, labelsFrom, hlength]
      split <;> exact ih ..

section Push

variable {ss : Array Stmt} {s : Stmt}

/-- A further label is put into the table, unless it is there already. -/
lemma labelTable_push_label {name : String} (h : s.action.label? = some name) :
    labelTable (ss.push s) =
      if (labelTable ss).contains name then labelTable ss else (labelTable ss).put name ss.size := by
  rw [labelTable, Array.toList_push, labelsFrom_append, labelsFrom, h]
  rw [Nat.zero_add, Array.length_toList, labelsFrom]
  rfl

lemma labelTable_push_other (h : s.action.label? = none) :
    labelTable (ss.push s) = labelTable ss := by
  rw [labelTable, Array.toList_push, labelsFrom_append, labelsFrom, h, labelsFrom, labelTable]

end Push

end Program

namespace Grammar

variable {d d' : Draft} {t : Token} {us : List Token} {a : Action} {p : Problem}

/-! ### Readers that find no label -/

namespace Reader

variable {α β : Type} {F : β → Prop}

/-- Whatever the reader finds is so. -/
def Finds (F : β → Prop) (r : Reader β) : Prop := ∀ d ts d' v rest, r d ts = (d', .found v rest) → F v

lemma finds_bind {r : Reader α} {f : α → Reader β} (hf : ∀ v, (f v).Finds F) :
    (r >>= f).Finds F := by
  intro d ts d' w rest h
  obtain ⟨d₁, v, rest₁, -, hb⟩ | ⟨d₁, p, rest₁, -, hb⟩ | ⟨d₁, -, hb⟩ := bind_cases r f d ts
  · exact hf v d₁ rest₁ d' w rest (hb ▸ h)
  · cases hb ▸ h
  · cases hb ▸ h

lemma finds_pure {v : β} (hv : F v) : (pure v : Reader β).Finds F := by
  intro d ts d' w rest h
  cases h
  exact hv

lemma command_finds (c : Command) : (command c).Finds (·.label? = none) := by
  cases c <;> rw [command]
  -- whatever each of them reads, in the end it returns an action of its own
  all_goals
    simp only [spawn, color, size, drawLine, drawCircle, drawRectangle, fill, goTo]
    repeat refine finds_bind fun _ => ?_
    exact finds_pure rfl

lemma assign_finds (name : Token) : (assign name).Finds (·.label? = none) := by
  rw [assign]
  exact finds_bind fun _ => finds_bind fun _ => finds_bind fun _ => finds_pure rfl

end Reader

/-! ### Drafts side by side -/

/-- The other draft has the same statements and labels, and as many second declarations have been
noted in it. -/
structure Draft.Alongside (d d' : Draft) : Prop where
  statements : d'.statements = d.statements
  labels : d'.labels = d.labels
  duplicates : d'.problems.countP Problem.isDuplicateLabel =
    d.problems.countP Problem.isDuplicateLabel

lemma Draft.Alongside.refl (d : Draft) : d.Alongside d := ⟨rfl, rfl, rfl⟩

lemma Draft.Alongside.note (h : d.Alongside d') (hp : p.isDuplicateLabel = false) :
    d.Alongside (d'.note p) :=
  ⟨h.statements, h.labels, by simp [Draft.note, h.duplicates, hp]⟩

lemma isDuplicateLabel_near {cause : Problem.Cause} (h : cause.isOfLabel = false) :
    (Problem.near t cause).isDuplicateLabel = false := by
  cases cause with
  | duplicateLabel name => cases h
  | _ => rfl

instance (d : Draft) :
    Draft.Kept (fun _ => True) (fun p => p.isDuplicateLabel = false) d.Alongside where
  covers _ _ _ hcause := isDuplicateLabel_near hcause
  note h hp := h.note hp
  refer h _ := ⟨h.statements, h.labels, h.duplicates⟩
  spawn h := ⟨h.statements, h.labels, h.duplicates⟩
  deepen h := ⟨h.statements, h.labels, h.duplicates⟩

/-- Adding a statement adds nothing else that matters to labels. -/
lemma Draft.add_alongside (d : Draft) (s : Stmt) :
    { d with statements := d.statements.push s }.Alongside (d.add s) := by
  rw [Draft.add]
  split
  · exact .refl _
  · exact ⟨rfl, rfl, by simp [Draft.note, Problem.isDuplicateLabel]⟩

/-! ### Steps -/

/-- The labels of the draft are those that its statements declare, and each further declaration has
been noted. -/
structure Draft.Keyed (d : Draft) : Prop where
  labels : d.labels = Program.labelTable d.statements
  duplicates : d.problems.countP Problem.isDuplicateLabel +
    (Program.labelNames d.statements.toList).toFinset.card =
      (Program.labelNames d.statements.toList).length

lemma Draft.keyed_empty : Draft.empty.Keyed := ⟨rfl, rfl⟩

lemma Draft.Keyed.of_alongside (hd : d.Keyed) (h : d.Alongside d') : d'.Keyed := by
  refine ⟨?_, ?_⟩
  · rw [h.labels, h.statements, hd.labels]
  · rw [h.duplicates, h.statements, hd.duplicates]

/-- A statement that is no label may be added. -/
lemma Draft.Keyed.add (hd : d.Keyed) {m : Mark} (ha : a.label? = none) : (d.add ⟨m, a⟩).Keyed := by
  refine Draft.Keyed.of_alongside ⟨?_, ?_⟩ (d.add_alongside ⟨m, a⟩)
  · exact hd.labels.trans (Program.labelTable_push_other ha).symm
  · rw [Array.toList_push, Program.labelNames_concat, ha]
    simpa using hd.duplicates

/-- **A label** is declared and added: it is new and enters the table, or it is noted. -/
theorem Draft.Keyed.declare_add (hd : d.Keyed) (t : Token) (m : Mark) :
    ((d.declare t).add ⟨m, .label t.name⟩).Keyed := by
  have htable : Program.labelTable (d.statements.push ⟨m, .label t.name⟩) =
      if d.labels.contains t.name then d.labels else d.labels.put t.name d.statements.size := by
    rw [hd.labels]
    exact Program.labelTable_push_label rfl
  have hmem : d.labels.contains t.name = true ↔
      t.name ∈ (Program.labelNames d.statements.toList).toFinset := by
    rw [hd.labels, Program.contains_labelTable, List.mem_toFinset]
  have hnames : Program.labelNames (d.statements.push ⟨m, .label t.name⟩).toList =
      Program.labelNames d.statements.toList ++ [t.name] := by
    rw [Array.toList_push, Program.labelNames_concat]
    rfl
  have hfinset : (Program.labelNames d.statements.toList ++ [t.name]).toFinset =
      insert t.name (Program.labelNames d.statements.toList).toFinset := by
    rw [List.toFinset_append, Finset.union_comm]
    rfl
  have hcount := hd.duplicates
  refine Draft.Keyed.of_alongside ?_ ((d.declare t).add_alongside _)
  rw [Draft.declare]
  split
  · next hold =>
    refine ⟨?_, ?_⟩
    · rw [if_pos hold] at htable
      exact htable.symm
    · have hnote : (d.note (.near t (.duplicateLabel t.name))).problems.countP
          Problem.isDuplicateLabel = d.problems.countP Problem.isDuplicateLabel + 1 := by
        simp [Draft.note, Problem.isDuplicateLabel]
      dsimp only [Draft.note] at hnote ⊢
      rw [hnote, hnames, hfinset, Finset.insert_eq_of_mem (hmem.1 hold), List.length_append,
        List.length_singleton]
      omega
  · next hnew =>
    refine ⟨?_, ?_⟩
    · rw [if_neg hnew] at htable
      exact htable.symm
    · dsimp only
      rw [hnames, hfinset, Finset.card_insert_of_notMem (mt hmem.2 hnew), List.length_append,
        List.length_singleton]
      omega

/-- What begins with a token is a label, which is declared and found at once, or something else. -/
lemma statementAt_label {r : Reader Action} (h : statementAt t us = some r) :
    (∃ rest, ∀ d, r d us = (d.declare t, .found (.label t.name) rest)) ∨
      (∃ c, r = Reader.command c) ∨ r = Reader.assign t := by
  rw [statementAt] at h
  split at h
  · next c _ => exact .inr (.inl ⟨c, (Option.some.inj h).symm⟩)
  · next hident =>
    cases us with
    | nil => simp [hident] at h
    | cons u us =>
        rw [List.headD_cons] at h
        split at h
        · next hu =>
          obtain rfl := Option.some.inj h
          refine .inl ⟨us, fun d => ?_⟩
          simp [Reader.label, bind, Reader.update, Reader.lineEnd, hu, pure]
        · next hu =>
          obtain rfl := Option.some.inj h
          refine .inl ⟨u :: us, fun d => ?_⟩
          simp [Reader.label, bind, Reader.update, Reader.lineEnd, hu, pure]
        · exact .inr (.inr (Option.some.inj h).symm)
        · simp at h
  · simp at h

/-- Every other reader leaves the labels as they are and finds none. -/
lemma statementAt_other {r : Reader Action} (h : (∃ c, r = Reader.command c) ∨ r = Reader.assign t)
    (d : Draft) : r.Finds (·.label? = none) ∧
      r.Keeps (fun _ => True) (fun p => p.isDuplicateLabel = false) d.Alongside := by
  have hnone : ∀ t : Token, False → ∀ d', d.Alongside d' → d.Alongside (d'.declare t) := nofun
  obtain ⟨c, rfl⟩ | rfl := h
  · exact ⟨Reader.command_finds c, (Reader.command_line c).keeps hnone⟩
  · exact ⟨Reader.assign_finds t, (Reader.assign_line t).keeps hnone⟩

/-- **A step** keeps the labels of the draft in order. -/
theorem Draft.Keyed.step (hd : d.Keyed) (t : Token) (us : List Token) :
    (Grammar.step d t us).1.Keyed := by
  obtain h | ⟨r, hr, hread⟩ | h := step_cases d t us
  · rw [h]
    exact hd
  · obtain ⟨rest, hlabel⟩ | hother := statementAt_label hr
    · -- a label is always found
      rw [hlabel d] at hread
      obtain ⟨d', a, rest', heq, h⟩ | ⟨d', p, rest', heq, -⟩ | ⟨d', heq, -⟩ := hread
      · cases heq
        rw [h]
        exact hd.declare_add t _
      · cases heq
      · cases heq
    · obtain ⟨hfinds, hkeeps⟩ := statementAt_other hother d
      have hdraft := hkeeps.draft (.refl d) fun u (_ : u ∈ us) => trivial
      have hanswer := hkeeps.answer (.refl d) fun u (_ : u ∈ us) => trivial
      obtain ⟨d', a, rest, hread, h⟩ | ⟨d', p, rest, hread, h⟩ | ⟨d', hread, h⟩ := hread <;>
        rw [hread] at hdraft hanswer <;> rw [h]
      · exact (hd.of_alongside hdraft).add (hfinds d us d' a rest hread)
      · exact hd.of_alongside (hdraft.note hanswer.1)
      · exact hd.of_alongside hdraft
  · rw [h]
    exact hd.of_alongside ((Draft.Alongside.refl d).note rfl)

/-- The end of the reading notes no second declaration. -/
lemma Draft.Keyed.finish (hd : d.Keyed) : d.finish.Keyed := by
  have hspawn : (if d.hasSpawn then [] else [Problem.missingSpawn]).countP
      Problem.isDuplicateLabel = 0 := by
    split <;> rfl
  have hjumps : ∀ ts : List Token, (ts.map fun t => Problem.near t (.undefinedLabel t.name)).countP
      Problem.isDuplicateLabel = 0 := by
    intro ts
    simp [List.countP_eq_zero, Problem.isDuplicateLabel]
  refine hd.of_alongside ⟨rfl, rfl, ?_⟩
  rw [Draft.finish, List.countP_append, List.countP_append, hspawn, hjumps]
  rfl

/-- The labels of whatever was read are in order. -/
lemma ofTokens_keyed (ts : List Token) : (Parse.ofTokens ts).draft.Keyed :=
  ofTokens_keeps (T := fun _ => True) Draft.keyed_empty (fun _ t us hd _ _ => hd.step t us)
    (fun _ hd => hd.finish) fun _ _ => trivial

end Grammar

open Grammar

/-- **Labels agree**. However broken a text is, reading what was scanned of it gives a program. Its
labels are those that its statements declare, each at the place of its first declaration, and every
machine that is made to run these statements has the same ones. Each statement that declares a label
again has been noted. -/
theorem labels_agree {source : String} {scan : Scan} (_hscan : scan? source = some scan) :
    let reading := Parse.ofTokens scan.closed
    let program := reading.program
    let declared := Program.labelNames program.statements.toList
    (∃ rest, reading.rest = some rest) ∧
    (∀ name i, program.labels.find? name = some i ↔ Program.FirstLabel program.statements name i) ∧
    program.labels = Program.labelTable program.statements ∧
    (∀ size m, Machine.new program.statements size = .ok m → m.labels = program.labels) ∧
    reading.draft.problems.countP Problem.isDuplicateLabel + declared.toFinset.card =
      declared.length := by
  intro reading program declared
  have hkeyed : reading.draft.Keyed := ofTokens_keyed scan.closed
  have hlabels : program.labels = Program.labelTable program.statements := hkeyed.labels
  refine ⟨?_, fun name i => ?_, hlabels, fun size m hm => ?_, hkeyed.duplicates⟩
  · obtain ⟨d, rest, hread⟩ :=
      readAll_of_closed { Draft.empty with statements := #[] } scan.exists_eof
    refine ⟨rest, ?_⟩
    show (Parse.resume .empty scan.closed).rest = some rest
    rw [Parse.resume, hread]
  · rw [hlabels]
    exact Program.find?_labelTable
  · obtain ⟨-, hm, -⟩ := Machine.new_fresh hm
    rw [hm, hlabels]

/-- Two labels that are declared again and again, among lines that do not fit. -/
def relabelledText : String := "a\nSpawn(0, 0\nb ?\na\nGoTo [b] 1\nb\na"

theorem labels_agree_relabelledText :
    ∃ scan, scan? relabelledText = some scan ∧ scan.errors.length = 1 ∧
      let reading := Parse.ofTokens scan.closed
      let program := reading.program
      let declared := Program.labelNames program.statements.toList
      declared = ["a", "b", "a", "b", "a"] ∧ reading.errors.length = 6 ∧
      (∃ rest, reading.rest = some rest) ∧
      (∀ name i, program.labels.find? name = some i ↔
        Program.FirstLabel program.statements name i) ∧
      program.labels = Program.labelTable program.statements ∧
      (∀ size m, Machine.new program.statements size = .ok m → m.labels = program.labels) ∧
      reading.draft.problems.countP Problem.isDuplicateLabel + declared.toFinset.card =
        declared.length := by
  have hread : ((scan? relabelledText).any fun scan =>
      let reading := Parse.ofTokens scan.closed
      decide (scan.errors.length = 1 ∧ reading.errors.length = 6 ∧
        Program.labelNames reading.program.statements.toList = ["a", "b", "a", "b", "a"])) = true := by
    decide +kernel
  obtain ⟨scan, hscan, hfacts⟩ := (Option.any_eq_true _ _).1 hread
  obtain ⟨hfaults, herrors, hnames⟩ := of_decide_eq_true hfacts
  exact ⟨scan, hscan, hfaults, hnames, herrors, labels_agree hscan⟩

end Brushwork
