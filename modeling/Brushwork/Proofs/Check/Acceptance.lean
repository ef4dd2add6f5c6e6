import Brushwork.Proofs.Check.Verdict
import Brushwork.Token.Scan

/-!
Texts that are read, and texts that are accepted.

* `Reads`: a text is scanned and read without errors. `Reads.wellFormed` says what its program is
  then like, and `Reads.analysis` what is left for the check to look at.
* `Accepts`: the check has nothing against the program either. `Accepts.verdict` gives the types under
  which each statement has been found right.
* `reads_wellFormed`: the rules on the shape of a program are settled by reading alone.
-/

namespace Brushwork

open Check Grammar

/-- The text is scanned and read without errors, and this is its program. -/
def Reads (source : String) (program : Program) : Prop :=
  ∃ scan, scan? source = some scan ∧ scan.errors = [] ∧
    (Parse.ofTokens scan.closed).errors = [] ∧ (Parse.ofTokens scan.closed).program = program

/-- The text is scanned, read and checked without errors, and this is its program. -/
def Accepts (source : String) (program : Program) : Prop :=
  Reads source program ∧ Check.errors program.statements = []

/-- The program of a text that is scanned and read without errors. -/
def read? (source : String) : Option Program :=
  match scan? source with
  | some scan =>
    if scan.errors = [] ∧ (Parse.ofTokens scan.closed).errors = [] then
      some (Parse.ofTokens scan.closed).program
    else none
  | none => none

lemma reads_iff {source : String} {program : Program} :
    Reads source program ↔ read? source = some program := by
  rw [Reads, read?]
  cases scan? source with
  | none => simp
  | some scan => simp [and_assoc]

instance {P : Program → Prop} [DecidablePred P] (source : String) :
    Decidable (∃ program, Reads source program ∧ P program) :=
  decidable_of_iff ((read? source).any (fun program => P program) = true)
    (by simp [reads_iff, Option.any_eq_true])

lemma Scan.exists_eof (scan : Scan) : ∃ t ∈ scan.closed, t.kind = .eof :=
  ⟨.eof scan.finish, by simp [Scan.closed], rfl⟩

section Reads

variable {source : String} {program : Program}

lemma Reads.wellFormed (h : Reads source program) :
    Program.WellFormed program.statements.toList ∧
      ∀ s ∈ program.statements.toList, s.action.Sound := by
  obtain ⟨scan, -, -, hparse, rfl⟩ := h
  exact wellFormed_ofTokens scan.exists_eof hparse

/-- The check of a program that could be read judges its statements and nothing else. -/
lemma Reads.analysis (h : Reads source program) :
    Analysis.empty.program program.statements =
      ⟨verdicts (Program.labelNames program.statements.toList) .empty program.statements.toList,
        typesAfter .empty program.statements.toList,
        Program.labelNames program.statements.toList⟩ :=
  Analysis.program_of_wellFormed h.wellFormed.1

/-- In an accepted program nothing is said against a statement, under the types behind those before
it. -/
lemma Accepts.verdict (h : Accepts source program) {pre post : List Stmt} {s : Stmt}
    (hs : program.statements.toList = pre ++ s :: post) :
    verdict (typesAfter .empty pre) (Program.labelNames program.statements.toList) s.action = [] := by
  have herrors : (Analysis.empty.program program.statements).complaints = [] :=
    List.map_eq_nil_iff.1 h.2
  rw [h.1.analysis, hs] at herrors
  rw [hs]
  exact verdict_of_split herrors

end Reads

/-- **What could be read is well formed**: the cursor is put down first and only once, labels are
unique and every jump finds one, every call fits a function, and literal directions keep to one step.
So the check, which looks at all of this again, complains about types at most. -/
theorem reads_wellFormed {source : String} {program : Program} (h : Reads source program) :
    Program.WellFormed program.statements.toList ∧
      ∀ c ∈ (Analysis.empty.program program.statements).complaints, c.isStructural = false := by
  obtain ⟨hwf, hsound⟩ := h.wellFormed
  refine ⟨hwf, fun c hc => ?_⟩
  rw [h.analysis] at hc
  obtain ⟨pre, s, post, hsplit, hverdict⟩ := mem_verdicts hc
  have hs : s ∈ program.statements.toList := by simp [hsplit]
  exact verdict_structural (hsound s hs) (hwf.targets_declared s hs) hverdict

/-- A text with a label, a jump to it, a call and a negative direction. -/
def loopingText : String :=
  "Spawn(0, 0)\nloop\nDrawLine(-1, 1, GetColorCount(\"Red\", 0, 0, 3, 3))\nGoTo [loop] (x < 2)"

theorem reads_wellFormed_loopingText :
    ∃ program, Reads loopingText program ∧ Program.WellFormed program.statements.toList ∧
      ∀ c ∈ (Analysis.empty.program program.statements).complaints, c.isStructural = false := by
  obtain ⟨program, h, -⟩ : ∃ program, Reads loopingText program ∧ program.statements.size = 4 := by
    decide +kernel
  exact ⟨program, h, reads_wellFormed h⟩

end Brushwork
