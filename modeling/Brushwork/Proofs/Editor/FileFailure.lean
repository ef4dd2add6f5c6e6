import Mathlib.Tactic.Common
import Brushwork.Editor.Window

/-!
Files that cannot be read or written.

The window takes over the path of a file before it reads or writes the file, and before it reads one it
forgets the messages of the last run. Where the file then fails, this is not taken back:

* `Window.Refused`: the file that a gesture asks for cannot be read or written.
* `Window.refused_of_failure`: this is the only way in which a gesture fails at a file.
* `Window.act_refused`: such a gesture leaves the window as it was, up to the path and those messages
  (`Window.misplace`).
* `Window.keeps_misplace_iff`: these are as they were only if the file was the window's own before, and
  if there was nothing to forget.
* `file_failure_exact`: all of this.
-/

namespace Brushwork.Editor

namespace Window

variable {w : Window} {patience : Nat} {g : Gesture} {p : File.Path} {e : File.Error}
  {errors : List String}

/-- The second window has the path, the messages of the last run, the text and the log of the first. -/
structure Keeps (w w' : Window) : Prop where
  path : w'.path = w.path
  lastErrors : w'.lastErrors = w.lastErrors
  text : w'.text = w.text
  log : w'.log = w.log

/-- The window with another path and other messages of the last run. -/
def misplace (w : Window) (p : File.Path) (errors : List String) : Window :=
  { w with path := some p, lastErrors := errors }

lemma keeps_misplace_iff :
    w.Keeps (w.misplace p errors) ↔ w.path = some p ∧ w.lastErrors = errors :=
  ⟨fun h => ⟨h.path.symm, h.lastErrors.symm⟩, fun h => ⟨h.1.symm, h.2.symm, rfl, rfl⟩⟩

/-! ### Gestures that fail -/

/-- The gesture asks for the file at that path, which cannot be read or written. The messages are those
that are remembered then: none if the file was to be read, and else the same as before. -/
inductive Refused (w : Window) (e : File.Error) : Gesture → File.Path → List String → Prop
  | openFile {answer : String} (h : answer ≠ "")
      (hread : w.folder.text (.ofString answer) = .error e) :
      Refused w e (.openFile answer) (.ofString answer) []
  | loadSample {answer : String} (h : answer ≠ "")
      (hread : w.folder.text (.ofString answer) = .error e) :
      Refused w e (.loadSample answer) (.ofString answer) []
  | saveFile {answer : String} (h : answer ≠ "")
      (hwrite : w.folder.writeText (.ofString answer) w.text = .error e) :
      Refused w e (.saveFile answer) (.ofString answer) w.lastErrors

/-- A file that cannot be read leaves its path behind, and no messages. -/
lemma loadFile_refused (h : w.folder.text p = .error e) :
    w.loadFile p = (w.misplace p [], some e) := by
  rw [loadFile]
  simp only [h]
  rfl

lemma loadFile_error (h : (w.loadFile p).2 = some e) : w.folder.text p = .error e := by
  rw [loadFile] at h
  split at h
  · cases h
  · next hread =>
    obtain rfl := Option.some.inj h
    exact hread

/-- **A gesture that is refused its file** fails, and takes over the path all the same. -/
theorem act_refused (h : w.Refused e g p errors) :
    (w.act patience g).failure = some (.file e) ∧ (w.act patience g).window = w.misplace p errors := by
  cases h with
  | openFile h hread =>
      rw [act, Window.openFile, if_neg h, loadFile_refused hread]
      exact ⟨rfl, rfl⟩
  | loadSample h hread =>
      rw [act, Window.loadSample, if_neg h, loadFile_refused hread]
      exact ⟨rfl, rfl⟩
  | saveFile h hwrite =>
      rw [act, Window.saveFile, if_neg h]
      dsimp only
      rw [hwrite]
      exact ⟨rfl, rfl⟩

lemma failure_reactWithDiagnostics (w : Window) (focus : Bool) :
    (w.reactWithDiagnostics focus).failure ≠ some (.file e) := by
  rw [reactWithDiagnostics]
  split
  · exact fun h => by cases h
  · exact fun h => by cases h

lemma failure_runText (w : Window) (patience : Nat) :
    (w.runText patience).failure ≠ some (.file e) := by
  rw [runText]
  split
  · exact fun h => by cases h
  · dsimp only
    split
    · exact fun h => by cases h
    · split
      · exact fun h => by cases h
      · exact failure_reactWithDiagnostics _ true

/-- **A gesture fails at a file** only if it is refused that file. -/
theorem refused_of_failure (h : (w.act patience g).failure = some (.file e)) :
    ∃ p errors, w.Refused e g p errors := by
  cases g with
  | openFile answer =>
      rw [act, Window.openFile] at h
      split at h
      · cases h
      · next hanswer =>
        obtain ⟨e', hload, he⟩ := Option.map_eq_some_iff.1 h
        obtain rfl := Failure.file.inj he
        exact ⟨_, _, .openFile hanswer (loadFile_error hload)⟩
  | loadSample answer =>
      rw [act, Window.loadSample] at h
      split at h
      · cases h
      · next hanswer =>
        split at h
        · cases h
        · next hload =>
          obtain rfl := Failure.file.inj (Option.some.inj h)
          exact ⟨_, _, .loadSample hanswer (loadFile_error (congrArg Prod.snd hload))⟩
  | saveFile answer =>
      rw [act, Window.saveFile] at h
      split at h
      · cases h
      · next hanswer =>
        dsimp only at h
        split at h
        · cases h
        · next hwrite =>
          obtain rfl := Failure.file.inj (Option.some.inj h)
          exact ⟨_, _, .saveFile hanswer hwrite⟩
  | run => exact absurd h (failure_runText w patience)
  | chooseTheme choice accepted =>
      rw [act, Window.chooseTheme] at h
      cases accepted <;> cases h
  | chooseBudget value accepted =>
      rw [act, Window.chooseBudget] at h
      split at h
      · cases h
      · cases accepted <;> cases h
  | idle =>
      rw [act, lint] at h
      split at h
      · exact absurd h (failure_reactWithDiagnostics _ false)
      · cases h
  | _ => cases h

end Window

open Window

/-- **A file that fails is taken for the window's own.** A gesture fails at a file if and only if it is
refused that file. The window then keeps its text and its log, but takes over the path of the refused
file, and forgets the messages of the last run if the file was to be read. So it is as it was only if it
had that path already and remembers the same messages. -/
theorem file_failure_exact (w : Window) (patience : Nat) (e : File.Error) :
    (∀ g, (w.act patience g).failure = some (.file e) ↔ ∃ p errors, w.Refused e g p errors) ∧
    (∀ g p errors, w.Refused e g p errors → (w.act patience g).window = w.misplace p errors) ∧
    (∀ p, w.loadFile p = (w.misplace p [], some e) ↔ w.folder.text p = .error e) ∧
    ∀ p errors, (w.misplace p errors).text = w.text ∧ (w.misplace p errors).log = w.log ∧
      (w.Keeps (w.misplace p errors) ↔ w.path = some p ∧ w.lastErrors = errors) := by
  refine ⟨fun g => ⟨refused_of_failure, ?_⟩, fun g p errors h => (act_refused h).2, fun p => ?_,
    fun p errors => ⟨rfl, rfl, keeps_misplace_iff⟩⟩
  · rintro ⟨p, errors, h⟩
    exact (act_refused h).1
  · exact ⟨fun h => loadFile_error (congrArg Prod.snd h), loadFile_refused⟩

/-- A folder with one file, which holds no valid text. -/
def noise : File.Folder := ⟨[(["noise.pw"], ⟨#[255]⟩)]⟩

/-- A window without a file where a run has stopped at a fault. -/
def faultyWindow : Except SettingError Window := do
  let w ← Window.new .nearest ⟨[]⟩ 200 noise
  let w := (w.act 0 (.type "Spawn(0, 0)\nSize(1 / 0)")).window
  return (w.act 0 .run).window

/-- A sample that is not there, a file without valid text and a folder that is not there all leave their
paths behind; only the first two make the window forget the fault. -/
theorem file_failure_exact_faultyWindow :
    ∃ w, faultyWindow = .ok w ∧ w.path = none ∧ w.lastErrors ≠ [] ∧
      (w.act 0 (.loadSample "nope.pw")).failure = some (.file .notFound) ∧
      (w.act 0 (.loadSample "nope.pw")).window = w.misplace (.ofString "nope.pw") [] ∧
      ¬ w.Keeps (w.act 0 (.loadSample "nope.pw")).window ∧
      (w.act 0 (.openFile "noise.pw")).failure = some (.file .notText) ∧
      (w.act 0 (.openFile "noise.pw")).window = w.misplace (.ofString "noise.pw") [] ∧
      ¬ w.Keeps (w.act 0 (.openFile "noise.pw")).window ∧
      (w.act 0 (.saveFile "no/nope.pw")).failure = some (.file .notFound) ∧
      (w.act 0 (.saveFile "no/nope.pw")).window = w.misplace (.ofString "no/nope.pw") w.lastErrors ∧
      ¬ w.Keeps (w.act 0 (.saveFile "no/nope.pw")).window := by
  have hfaulty : (faultyWindow.toOption.any fun w => w.path.isNone && !w.lastErrors.isEmpty &&
      decide (w.folder.files = noise.files)) = true := by
    decide +kernel
  cases hw : faultyWindow with
  | error e =>
      rw [hw] at hfaulty
      cases hfaulty
  | ok w =>
      rw [hw] at hfaulty
      obtain ⟨hpath, hfolder⟩ := (Bool.and_eq_true _ _).mp hfaulty
      obtain ⟨hpath, herrors⟩ := (Bool.and_eq_true _ _).mp hpath
      have hpath : w.path = none := Option.isNone_iff_eq_none.1 hpath
      have hfolder : w.folder = noise := congrArg File.Folder.mk (of_decide_eq_true hfolder)
      obtain ⟨hfails, hwindow, -, hkeeps⟩ := file_failure_exact w 0 .notFound
      obtain ⟨hnoise, hheard, -, -⟩ := file_failure_exact w 0 .notText
      have hsample : w.Refused .notFound (.loadSample "nope.pw") (.ofString "nope.pw") [] :=
        .loadSample (by decide) (by rw [hfolder]; rfl)
      have hopen : w.Refused .notText (.openFile "noise.pw") (.ofString "noise.pw") [] :=
        .openFile (by decide) (by rw [hfolder]; rfl)
      have hsave : w.Refused .notFound (.saveFile "no/nope.pw") (.ofString "no/nope.pw") w.lastErrors :=
        .saveFile (by decide) (by rw [hfolder]; rfl)
      have hlost (p errors) : ¬ w.Keeps (w.misplace p errors) := fun h => by
        rw [(hkeeps p errors).2.2, hpath] at h
        cases h.1
      refine ⟨w, rfl, hpath, ?_, (hfails _).2 ⟨_, _, hsample⟩, hwindow _ _ _ hsample, ?_,
        (hnoise _).2 ⟨_, _, hopen⟩, hheard _ _ _ hopen, ?_,
        (hfails _).2 ⟨_, _, hsave⟩, hwindow _ _ _ hsave, ?_⟩
      · intro hnone
        rw [hnone] at herrors
        cases herrors
      · rw [hwindow _ _ _ hsample]
        exact hlost _ _
      · rw [hheard _ _ _ hopen]
        exact hlost _ _
      · rw [hwindow _ _ _ hsave]
        exact hlost _ _

end Brushwork.Editor
