import Mathlib.Data.List.Forall2
import Brushwork.Proofs.Check.Acceptance
import Brushwork.Proofs.Machine.Hosts
import Brushwork.Report

/-!
What the stages find.

* `Note`: something that a stage reports, before it is put into words.
* `Ends`: the stage at which a text ends, with everything that this stage finds.
* `Outcome.escape?`: why a text has no report.
* `ends_or`: a text ends so, or a row of digits is too long, or its run goes on and on.
* `Ends.report`: the report has a message for every note, in order, and there is none if one of the
  notes has no message. `ends_of_report` goes back from a report to the notes.
-/

namespace Brushwork

open Check Grammar

/-- What succeeds has succeeded in each of its steps. -/
lemma exists_of_bind_ok {α β : Type} {step : Except Escape α} {next : α → Except Escape β} {b : β}
    (h : (step >>= next) = .ok b) : ∃ a, step = .ok a ∧ next a = .ok b := by
  cases step with
  | error escape => cases h
  | ok a => exact ⟨a, rfl, h⟩

namespace Outcome

variable {o : Outcome} {escape : Escape}

end Outcome

/-- What a stage reports, before it is put into words. -/
inductive Note where
  | scanning (fault : ScanFault)
  | reading (problem : Problem)
  | checking (complaint : Complaint)
  | settingUp (fault : Fault)
  /-- A fault of a run, with the machine that it stopped. -/
  | running (fault : Fault) (machine : Machine)

namespace Note

/-- A note as it is reported, if it can be. -/
def message : Note → Except Escape String
  | scanning fault => .ok fault.message
  | reading problem => .ok problem.message
  | checking complaint => .ok complaint.message
  | settingUp fault => fault.message none
  | running fault machine => fault.message machine.line

/-- All notes as they are reported, if they can be. -/
def messages : List Note → Except Escape (List String)
  | [] => .ok []
  | note :: notes => do return (← note.message) :: (← messages notes)

lemma messages_map {α : Type} {g : α → Note} {text : α → String}
    (h : ∀ a, (g a).message = .ok (text a)) (as : List α) :
    messages (as.map g) = .ok (as.map text) := by
  induction as with
  | nil => rfl
  | cons a as ih =>
      rw [List.map_cons, messages, h, ih]
      rfl

/-- Notes and the errors that report them stand in the same order. -/
lemma forall₂_messages {notes : List Note} {errors : List String}
    (h : messages notes = .ok errors) :
    List.Forall₂ (fun note text => note.message = .ok text) notes errors := by
  induction notes generalizing errors with
  | nil =>
      obtain rfl := Except.ok.inj h
      exact .nil
  | cons note notes ih =>
      obtain ⟨text, hnote, hrest⟩ := exists_of_bind_ok h
      obtain ⟨texts, hnotes, htexts⟩ := exists_of_bind_ok hrest
      obtain rfl := Except.ok.inj htexts
      exact .cons hnote (ih hnotes)

lemma map_messages_one {α : Type} (note : Note) (f : List String → α) :
    (messages [note]).map f = note.message.map fun text => f [text] := by
  rw [messages]
  cases note.message <;> rfl

end Note

section Ends

variable {source : String} {size : Int} {limit : Option Int} {patience : Nat}

/-- A text ends at a stage, if it does not come through all of them, with what that stage finds and
the machine that was run. -/
inductive Ends (source : String) (size : Int) (limit : Option Int) (patience : Nat) :
    Option Stage → List Note → Option Machine → Prop
  | scanning {scan : Scan} (hscan : scan? source = some scan) (h : scan.faults ≠ []) :
      Ends source size limit patience (some .lex) (scan.faults.map .scanning) none
  | reading {scan : Scan} (hscan : scan? source = some scan) (hfaults : scan.faults = [])
      (h : (Parse.ofTokens scan.closed).draft.problems ≠ []) :
      Ends source size limit patience (some .parse)
        ((Parse.ofTokens scan.closed).draft.problems.map .reading) none
  | checking {program : Program} (hreads : Reads source program)
      (h : (Analysis.empty.program program.statements).complaints ≠ []) :
      Ends source size limit patience (some .semantic)
        ((Analysis.empty.program program.statements).complaints.map .checking) none
  | settingUp {program : Program} {fault : Fault} (haccepts : Accepts source program)
      (h : Machine.new program.statements size = .error fault) :
      Ends source size limit patience (some .runtime) [.settingUp fault] none
  | running {program : Program} {m m' : Machine} {fault : Fault}
      (haccepts : Accepts source program) (hnew : Machine.new program.statements size = .ok m)
      (h : m.execute limit patience = (m', .stopped fault)) :
      Ends source size limit patience (some .runtime) [.running fault m'] (some m')
  | finished {program : Program} {m m' : Machine} (haccepts : Accepts source program)
      (hnew : Machine.new program.statements size = .ok m)
      (h : m.execute limit patience = (m', .finished)) :
      Ends source size limit patience none [] (some m')

/-- An accepted text, which the host has room to read and to check. -/
structure AcceptsOn (host : Host) (source : String) (program : Program) : Prop where
  accepts : Accepts source program
  reading {scan : Scan} (hscan : scan? source = some scan) :
    Host.allows host.reading (Parse.ofTokens scan.closed).draft.depth = true
  checking : Host.allows host.checking (Check.depthOf program.statements) = true

/-- The program of an accepted text is run, on every host that has come so far. -/
lemma Accepts.report {program : Program} (h : Accepts source program) :
    ∃ tokens, ∀ host, AcceptsOn host source program →
      (runSourceOn host source size limit patience).report =
        runProgram host tokens program size limit patience := by
  obtain ⟨⟨scan, hscan, hfaults, hproblems, rfl⟩, hcomplaints⟩ := h
  refine ⟨scan.closed, fun host hon => ?_⟩
  rw [runSourceOn, hscan]
  simp [hfaults, hproblems, hcomplaints, hon.reading hscan, hon.checking]

lemma Accepts.unbounded {program : Program} (h : Accepts source program) :
    AcceptsOn .unbounded source program := ⟨h, fun _ => rfl, rfl⟩

/-- **The report on a text** that ends at a stage has a message for every note of that stage. -/
theorem Ends.report {failed : Option Stage} {notes : List Note} {machine : Option Machine}
    (h : Ends source size limit patience failed notes machine) :
    ∃ tokens program, (runSource source size limit patience).report =
      (Note.messages notes).map fun errors => ⟨failed, errors, tokens, program, machine⟩ := by
  cases h with
  | @scanning scan hscan h =>
      refine ⟨scan.closed, none, ?_⟩
      rw [Note.messages_map fun _ => rfl, runSource, runSourceOn, hscan]
      simp [Scan.errors, h, Except.map]
  | @reading scan hscan hfaults h =>
      refine ⟨scan.closed, some (Parse.ofTokens scan.closed).program, ?_⟩
      rw [Note.messages_map fun _ => rfl, runSource, runSourceOn, hscan]
      simp [Scan.errors, Parse.errors, hfaults, h, Except.map]
  | @checking program hreads h =>
      obtain ⟨scan, hscan, hfaults, hproblems, rfl⟩ := hreads
      refine ⟨scan.closed, some (Parse.ofTokens scan.closed).program, ?_⟩
      rw [Note.messages_map fun _ => rfl, runSource, runSourceOn, hscan]
      simp [hfaults, hproblems, Check.errors, Analysis.errors, h, Except.map]
  | @settingUp program fault haccepts h =>
      obtain ⟨tokens, hreport⟩ := haccepts.report
      refine ⟨tokens, some program, ?_⟩
      rw [runSource, hreport _ haccepts.unbounded, runProgram, Machine.newOn_unbounded, h, Note.map_messages_one]
      rfl
  | @running program m m' fault haccepts hnew h =>
      obtain ⟨tokens, hreport⟩ := haccepts.report
      refine ⟨tokens, some program, ?_⟩
      rw [runSource, hreport _ haccepts.unbounded, runProgram, Machine.newOn_unbounded, hnew, Note.map_messages_one]
      dsimp only [bind, Except.bind]
      rw [Machine.executeOn_unbounded, h]
      rfl
  | @finished program m m' haccepts hnew h =>
      obtain ⟨tokens, hreport⟩ := haccepts.report
      refine ⟨tokens, some program, ?_⟩
      rw [runSource, hreport _ haccepts.unbounded, runProgram, Machine.newOn_unbounded, hnew]
      dsimp only [bind, Except.bind]
      rw [Machine.executeOn_unbounded, h]
      rfl

/-- **Every text ends** at a stage or comes through all of them, unless a row of digits is too long to
be read or the run goes on beyond all patience. -/
theorem ends_or (source : String) (size : Int) (limit : Option Int) (patience : Nat) :
    scan? source = none ∨
    (∃ program m, Accepts source program ∧ Machine.new program.statements size = .ok m ∧
      (m.execute limit patience).2 = .unfinished) ∨
    ∃ failed notes machine, Ends source size limit patience failed notes machine := by
  cases hscan : scan? source with
  | none => exact .inl rfl
  | some scan =>
      right
      by_cases hfaults : scan.faults = []
      · by_cases hproblems : (Parse.ofTokens scan.closed).draft.problems = []
        · have hreads : Reads source (Parse.ofTokens scan.closed).program :=
            ⟨scan, hscan, by simp [Scan.errors, hfaults], by simp [Parse.errors, hproblems], rfl⟩
          generalize (Parse.ofTokens scan.closed).program = program at hreads
          by_cases hcheck : (Analysis.empty.program program.statements).complaints = []
          · have haccepts : Accepts source program :=
              ⟨hreads, by simp [Check.errors, Analysis.errors, hcheck]⟩
            cases hnew : Machine.new program.statements size with
            | error fault => exact .inr ⟨_, _, _, .settingUp haccepts hnew⟩
            | ok m =>
                cases hrun : m.execute limit patience with
                | mk m' ending =>
                    cases ending with
                    | finished => exact .inr ⟨_, _, _, .finished haccepts hnew hrun⟩
                    | stopped fault => exact .inr ⟨_, _, _, .running haccepts hnew hrun⟩
                    | unfinished => exact .inl ⟨program, m, haccepts, hnew, by rw [hrun]⟩
          · exact .inr ⟨_, _, _, .checking hreads hcheck⟩
        · exact .inr ⟨_, _, _, .reading hscan hfaults hproblems⟩
      · exact .inr ⟨_, _, _, .scanning hscan hfaults⟩

/-- A report tells at which stage the text ended, and puts what was found there into words. -/
theorem ends_of_report {report : Report}
    (h : (runSource source size limit patience).report = .ok report) :
    ∃ notes, Ends source size limit patience report.failed notes report.machine ∧
      Note.messages notes = .ok report.errors := by
  obtain hscan | ⟨program, m, haccepts, hnew, hrun⟩ | ⟨failed, notes, machine, hends⟩ :=
    ends_or source size limit patience
  · rw [runSource, runSourceOn, hscan] at h
    cases h
  · obtain ⟨tokens, hreport⟩ := haccepts.report
    have hpair : m.execute limit patience = ((m.execute limit patience).1, .unfinished) := by
      rw [← hrun]
    rw [runSource, hreport _ haccepts.unbounded, runProgram, Machine.newOn_unbounded, hnew] at h
    dsimp only [bind, Except.bind] at h
    rw [Machine.executeOn_unbounded, hpair] at h
    cases h
  · obtain ⟨tokens, program, hreport⟩ := hends.report
    rw [hreport] at h
    cases hmessages : Note.messages notes with
    | error escape =>
        rw [hmessages] at h
        cases h
    | ok errors =>
        rw [hmessages] at h
        obtain rfl := Except.ok.inj h
        exact ⟨notes, hends, hmessages⟩

end Ends

end Brushwork
