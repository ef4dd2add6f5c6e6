import Brushwork.Editor.Diagnostic
import Brushwork.Proofs.Grammar.Origin
import Brushwork.Proofs.Printing.Scanning
import Brushwork.Proofs.Report.Escapes
import Brushwork.Proofs.Token.Places

/-!
The lines that messages name.

* `Editor.lineOf_line` and `Editor.lineOf_bracket`: a line that stands at the front of a message, in
  either form, is read back; `Editor.lineOf_other`: a message that begins in another way names none.
* `Note.line`: the line that a stage attaches to what it reports, and `Note.Lineless`: what is
  reported without one.
* `Machine.Told`: before its first statement a machine has no line, and behind it always one of its
  program.
* `report_lines`: of every message in a report the attached line is read back, and it is one of the
  text.
-/

namespace Brushwork

/-! ### Reading a line back -/

namespace Editor

open Text

/-- The digits `0` to `9` are read by their values. -/
lemma digits?_ascii {cs : List Char} (hne : cs ≠ []) (h : ∀ c ∈ cs, Digit.isAscii c = true) :
    Numeral.digits? cs = some (cs.map fun c => c.toNat - 48) := by
  induction cs with
  | nil => exact absurd rfl hne
  | cons c cs ih =>
      obtain ⟨hc, hcs⟩ := List.forall_mem_cons.1 h
      have hvalue := Digit.value?_ascii hc
      cases cs with
      | nil => rw [Numeral.digits?, hvalue]; rfl
      | cons d ds =>
          have hd : d ≠ '_' := by
            rintro rfl
            cases hcs '_' List.mem_cons_self
          have hother : ∀ es : List Char, d :: ds = '_' :: es → False := by
            intro es heq
            exact hd (List.cons.inj heq).1
          rw [Numeral.digits?, hvalue, ih (by simp) hcs]
          · rfl
          · simp
          · exact hother

lemma isAscii_of_mem_toDigits {n : Nat} {c : Char} (h : c ∈ Nat.toDigits 10 n) :
    Digit.isAscii c = true :=
  isAscii_of_isDigit (Nat.isDigit_of_mem_toDigits (by decide) (by decide) h)

/-- The decimal notation of a number is read back, unless it is too long. -/
lemma nat?_toDigits (n : Nat) :
    Numeral.nat? (Nat.toDigits 10 n) = if n < 10 ^ Numeral.maxDigits then some n else none := by
  have hlength : (Nat.toDigits 10 n).length ≤ Numeral.maxDigits ↔ n < 10 ^ Numeral.maxDigits :=
    Nat.length_toDigits_le_iff (by decide) (by decide)
  have hvalue : Numeral.ofDigits ((Nat.toDigits 10 n).map fun c => c.toNat - 48) = n :=
    ofAscii_toDigits n
  rw [Numeral.nat?, digits?_ascii Nat.toDigits_ne_nil fun c hc => isAscii_of_mem_toDigits hc]
  by_cases hn : n < 10 ^ Numeral.maxDigits
  · rw [if_pos hn]
    simp [hlength, hn, hvalue]
  · rw [if_neg hn]
    simp [hlength, hn]

lemma digitsBetween?_of {front : String} {close : Char} {ds tail : List Char} (hne : ds ≠ [])
    (hds : ∀ d ∈ ds, Digit.isDecimal d = true) (hclose : Digit.isDecimal close = false) :
    digitsBetween? front close (front.toList ++ (ds ++ close :: tail)) = some ds := by
  have hdrop : (front.toList ++ (ds ++ close :: tail)).drop front.length = ds ++ close :: tail := by
    rw [← String.length_toList, List.drop_left]
  have htake : (ds ++ close :: tail).takeWhile Digit.isDecimal = ds := by
    rw [List.takeWhile_append_of_pos hds, List.takeWhile_cons_of_neg (by simp [hclose]),
      List.append_nil]
  have hrest : (ds ++ close :: tail).dropWhile Digit.isDecimal = close :: tail := by
    rw [List.dropWhile_append_of_pos hds, List.dropWhile_cons_of_neg (by simp [hclose])]
  have hprefix : front.toList.isPrefixOf (front.toList ++ (ds ++ close :: tail)) = true := by
    simp
  rw [digitsBetween?, if_pos hprefix, hdrop]
  dsimp only
  rw [htake, hrest]
  simp [hne]

/-- What does not begin like that names no line. -/
lemma digitsBetween?_eq_none {front : String} {close : Char} {cs : List Char}
    (h : cs.head? ≠ front.toList.head?) (hfront : front.toList ≠ []) :
    digitsBetween? front close cs = none := by
  have hprefix : ¬front.toList.isPrefixOf cs = true := by
    intro hcs
    obtain ⟨tail, rfl⟩ := List.isPrefixOf_iff_prefix.1 hcs
    rw [List.head?_append_of_ne_nil _ hfront] at h
    exact h rfl
  rw [digitsBetween?, if_neg hprefix]

/-- What is read back from a message on the line `line`, or on none: just that, unless the text has
so many lines that their number is too long to be read. -/
def readBack (line : Option Nat) : Except Escape (Option Nat) :=
  if line.getD 0 < 10 ^ Numeral.maxDigits then .ok line else .error .overlongNumber

lemma eq_of_readBack {line found : Option Nat} (h : readBack line = .ok found) : line = found := by
  rw [readBack] at h
  split at h
  · exact Except.ok.inj h
  · cases h

lemma lineOf_of_digits {message : String} {n : Nat}
    (h : lineDigits? message = some (Nat.toDigits 10 n)) : lineOf message = readBack (some n) := by
  rw [lineOf, h]
  dsimp only
  rw [nat?_toDigits, readBack, Option.getD_some]
  by_cases hn : n < 10 ^ Numeral.maxDigits
  · rw [if_pos hn, if_pos hn]
  · rw [if_neg hn, if_neg hn]

lemma digitsBetween?_toDigits (front : String) {close : Char}
    (hclose : Digit.isDecimal close = false) (n : Nat) (tail : List Char) :
    digitsBetween? front close (front.toList ++ (Nat.toDigits 10 n ++ close :: tail)) =
      some (Nat.toDigits 10 n) := by
  refine digitsBetween?_of Nat.toDigits_ne_nil (fun d hd => ?_) hclose
  rw [Digit.isDecimal, Digit.value?_ascii (isAscii_of_mem_toDigits hd)]
  rfl

/-- **The line in front of a message** is read back. -/
theorem lineOf_line {message : String} {n : Nat} {tail : List Char}
    (h : message.toList = "Line ".toList ++ (Nat.toDigits 10 n ++ ':' :: tail)) :
    lineOf message = readBack (some n) := by
  have hbracket : digitsBetween? "[Line " ']'
      ("Line ".toList ++ (Nat.toDigits 10 n ++ ':' :: tail)) = none :=
    digitsBetween?_eq_none (by simp) (by simp)
  refine lineOf_of_digits ?_
  rw [lineDigits?, h, hbracket, digitsBetween?_toDigits _ (by decide)]
  rfl

/-- **The line in front of a message** is read back in its brackets, too. -/
theorem lineOf_bracket {message : String} {n : Nat} {tail : List Char}
    (h : message.toList = "[Line ".toList ++ (Nat.toDigits 10 n ++ ']' :: tail)) :
    lineOf message = readBack (some n) := by
  refine lineOf_of_digits ?_
  rw [lineDigits?, h, digitsBetween?_toDigits _ (by decide)]
  rfl

/-- A message that begins neither with a line nor with a bracket names no line. -/
theorem lineOf_other {message : String} {c : Char} (h : message.toList.head? = some c)
    (hline : c ≠ 'L') (hbracket : c ≠ '[') : lineOf message = readBack none := by
  have hnone : lineDigits? message = none := by
    rw [lineDigits?, digitsBetween?_eq_none (by simp [h, hbracket]) (by simp),
      digitsBetween?_eq_none (by simp [h, hline]) (by simp)]
    rfl
  have hshort : (none : Option Nat).getD 0 < 10 ^ Numeral.maxDigits :=
    Nat.pow_pos (by decide)
  rw [lineOf, hnone, readBack, if_pos hshort]

end Editor

/-! ### Messages with a line -/

open Editor (lineOf readBack)

lemma ScanFault.lineOf_message (f : ScanFault) : lineOf f.message = readBack (some f.line) := by
  have htext : f.message.toList =
      "Line ".toList ++ (Nat.toDigits 10 f.line ++ ':' :: (" " ++ f.cause.message).toList) := by
    simp [message]
  exact Editor.lineOf_line htext

lemma Problem.lineOf_near (t : Token) (cause : Cause) :
    lineOf (near t cause).message = readBack (some t.position.line) := by
  have htext : (near t cause).message.toList =
      "[Line ".toList ++ (Nat.toDigits 10 t.position.line ++
        ']' :: (" Error at '" ++ onOneLine t.lexeme ++ "': " ++ cause.message).toList) := by
    simp [message]
  exact Editor.lineOf_bracket htext

lemma Problem.lineOf_spawnNotFirst (n : Nat) :
    lineOf (spawnNotFirst (some n)).message = readBack (some n) := by
  have hmessage : (spawnNotFirst (some n)).message =
      "[Line " ++ toString n ++ "] Error: 'Spawn' must be the first executable statement" := rfl
  have htext : (spawnNotFirst (some n)).message.toList =
      "[Line ".toList ++ (Nat.toDigits 10 n ++
        ']' :: " Error: 'Spawn' must be the first executable statement".toList) := by
    simp [hmessage]
  exact Editor.lineOf_bracket htext

lemma Problem.lineOf_missingSpawn : lineOf missingSpawn.message = readBack none :=
  Editor.lineOf_other (c := 'M') rfl (by decide) (by decide)

lemma Check.Complaint.lineOf_message (c : Complaint) : lineOf c.message = readBack none := by
  have htext : c.message.toList = "Semantic Error: ".toList ++ c.wording.toList :=
    String.toList_append
  have hhead : c.message.toList.head? = some 'S' := by
    rw [htext]
    rfl
  exact Editor.lineOf_other hhead (by decide) (by decide)

namespace Fault

variable {f : Fault} {text : String}

/-- Every wording begins with a letter of its own. -/
lemma wording_head (h : f.wording = .ok text) :
    ∃ c, text.toList.head? = some c ∧ c ≠ 'L' ∧ c ≠ '[' := by
  cases f with
  | canvasNotPositive | stepLimit =>
      obtain ⟨s, -, hs⟩ := exists_of_bind_ok h
      obtain rfl := Except.ok.inj hs
      exact ⟨_, by simp; rfl, by decide, by decide⟩
  | spawnOutside | cursorOutside | notComputable =>
      obtain ⟨s, -, hs⟩ := exists_of_bind_ok h
      obtain ⟨s', -, hs'⟩ := exists_of_bind_ok hs
      obtain rfl := Except.ok.inj hs'
      exact ⟨_, by simp; rfl, by decide, by decide⟩
  | radiusTooLarge => cases h
  | _ =>
      obtain rfl := Except.ok.inj h
      exact ⟨_, by simp; rfl, by decide, by decide⟩

/-- A fault that is reported without a line names none. -/
lemma lineOf_message_none (h : f.message none = .ok text) : lineOf text = readBack none := by
  obtain ⟨wording, hwording, htext⟩ := exists_of_bind_ok h
  obtain rfl := Except.ok.inj htext
  obtain ⟨c, hc, hline, hbracket⟩ := wording_head hwording
  exact Editor.lineOf_other hc hline hbracket

/-- A fault that is reported with a line names that line. -/
lemma lineOf_message_some {n : Nat} (h : f.message (some n) = .ok text) :
    lineOf text = readBack (some n) := by
  obtain ⟨wording, -, htext⟩ := exists_of_bind_ok h
  obtain ⟨digits, hdigits, htext⟩ := exists_of_bind_ok htext
  by_cases hlong : Text.Numeral.IsOverlong n
  · rw [number_of_overlong hlong] at hdigits
    cases hdigits
  · rw [number_of_short hlong] at hdigits
    obtain rfl := Except.ok.inj hdigits
    have hmessage : "Line " ++ toString n ++ ": " ++ wording = text := Except.ok.inj htext
    have hfront : text.toList =
        "Line ".toList ++ (Nat.toDigits 10 n ++ ':' :: (" " ++ wording).toList) := by
      simp [← hmessage]
    exact Editor.lineOf_line hfront

end Fault

/-! ### The line of a machine -/

namespace Machine

variable {limit : Option Int} {m m' : Machine}

/-- Before its first statement the machine has no line; behind it, it has that of a statement. -/
def Told (m : Machine) : Prop :=
  if m.steps = 0 then m.line = none else ∃ s ∈ m.statements.toList, m.line = s.mark.line

lemma told_new {statements : Array Stmt} {size : Int} (h : Machine.new statements size = .ok m) :
    m.Told := by
  rw [Machine.new] at h
  split at h
  · cases h
  · split at h
    · cases h
    · obtain rfl := Except.ok.inj h
      rfl

lemma Told.step (hstep : m.step limit = (m', none)) : m'.Told := by
  obtain ⟨s, effect, hs, -, rfl⟩ := step_completed hstep
  have hmem : s ∈ m.statements.toList := Array.mem_toList_iff.2 (Array.mem_of_getElem? hs)
  rw [Told, if_neg (by simp)]
  exact ⟨s, hmem, rfl⟩

/-- **The line of a run that a fault stops** is that of the statement it has come to. Where the limit
stopped it, it is that of the last statement, if there was one. -/
theorem line_of_stopped {patience : Nat} {fault : Fault} (hm : m.Told) (hrewind : m.rewind = m)
    (h : m.execute limit patience = (m', .stopped fault)) :
    m'.statements = m.statements ∧
      ((∃ n, fault = .stepLimit n ∧ m'.Told) ∨
      ((∀ n, fault ≠ .stepLimit n) ∧
        ∃ s, m'.statements[m'.pc]? = some s ∧ m'.line = s.mark.line)) := by
  rw [execute, hrewind] at h
  obtain ⟨m₁, hreach, ⟨n, rfl, rfl⟩ | ⟨s, hs, hplan, rfl⟩⟩ := run_stopped h
  · refine ⟨hreach.program.1, .inl ⟨n, rfl, ?_⟩⟩
    exact hreach.keeps (fun _ _ hstep _ => Told.step hstep) hm
  · refine ⟨hreach.program.1, .inr ⟨?_, s, hs, rfl⟩⟩
    rintro n rfl
    exact Easel.plan_ne_limit hplan

end Machine

/-! ### Reports -/

namespace Note

/-- The line that the stage attaches: that of the fault, of the token or of the statement. A limit is
reported with the line of the last statement that was carried out. -/
def line : Note → Option Int
  | scanning fault => some fault.line
  | reading (.near t _) => some t.position.line
  | reading (.spawnNotFirst line) => line
  | reading .missingSpawn | checking _ | settingUp _ => none
  | running (.stepLimit _) m => m.line
  | running _ m => m.statements[m.pc]?.bind fun s => s.mark.line

/-- What is reported without a line: what only the program as a whole lacks, what is wrong with its
meaning or its canvas, and a limit that leaves room for no statement at all. -/
def Lineless : Note → Prop
  | reading .missingSpawn | checking _ | settingUp _ => True
  | running (.stepLimit _) m => m.steps = 0
  | _ => False

/-- A statement that goes wrong is reported with its own line. -/
lemma line_running {fault : Fault} {m : Machine} {s : Stmt} (h : ∀ n, fault ≠ .stepLimit n)
    (hs : m.statements[m.pc]? = some s) :
    (running fault m).line = s.mark.line ∧ ¬(running fault m).Lineless := by
  have hline : (m.statements[m.pc]?.bind fun s => s.mark.line) = s.mark.line := by rw [hs]; rfl
  cases fault with
  | stepLimit n => exact absurd rfl (h n)
  | _ => exact ⟨hline, id⟩

/-- The message on a note names the line that the note has, which is one of the text, and none
exactly if the note has to be without one. -/
def Points (source : String) (note : Note) : Prop :=
  ∀ text, note.message = .ok text →
    ∃ line : Option Nat, note.line = line.map Int.ofNat ∧ lineOf text = readBack line ∧
      (line = none ↔ note.Lineless) ∧
      ∀ n ∈ line, 1 ≤ n ∧ n ≤ 1 + source.toList.count '\n'

end Note

section Reports

variable {source : String} {size : Int} {limit : Option Int} {patience : Nat}

lemma Note.points_some {note : Note} {n : Nat} (hline : note.line = some (n : Int))
    (hmessage : ∀ text, note.message = .ok text → lineOf text = readBack (some n))
    (hlineless : ¬note.Lineless) (hn : 1 ≤ n ∧ n ≤ 1 + source.toList.count '\n') :
    note.Points source := by
  intro text htext
  refine ⟨some n, hline, hmessage text htext, by simpa using hlineless, fun k hk => ?_⟩
  obtain rfl := Option.some.inj hk
  exact hn

lemma Note.points_none {note : Note} (hline : note.line = none)
    (hmessage : ∀ text, note.message = .ok text → lineOf text = readBack none)
    (hlineless : note.Lineless) : note.Points source :=
  fun text htext => ⟨none, hline, hmessage text htext, by simpa using hlineless, by simp⟩

/-- Every statement of a program stands on a line of its text. -/
lemma Reads.line {program : Program} (h : Reads source program) {s : Stmt}
    (hs : s ∈ program.statements.toList) :
    ∃ n : Nat, s.mark.line = some (n : Int) ∧ 1 ≤ n ∧ n ≤ 1 + source.toList.count '\n' := by
  obtain ⟨scan, hscan, -, -, rfl⟩ := h
  obtain ⟨t, ht, hmark⟩ := (Grammar.ofTokens_from scan.closed).statements s hs
  exact ⟨t.position.line, by rw [hmark]; rfl, (scan_lines hscan).1 t ht⟩

/-- The message on a fault that stopped a run names the line of the machine. -/
lemma Accepts.points {program : Program} (h : Accepts source program) {m m' : Machine}
    {fault : Fault} (hnew : Machine.new program.statements size = .ok m)
    (hrun : m.execute limit patience = (m', .stopped fault)) :
    (Note.running fault m').Points source := by
  obtain ⟨hstatements, -, -, hrewind⟩ := Machine.new_fresh hnew
  obtain ⟨hsame, ⟨n, rfl, htold⟩ | ⟨hlimit, s, hs, hline⟩⟩ :=
    Machine.line_of_stopped (Machine.told_new hnew) hrewind hrun
  · rw [Machine.Told] at htold
    split at htold
    · next hsteps =>
      refine Note.points_none htold (fun text htext => ?_) hsteps
      rw [Note.message, htold] at htext
      exact Fault.lineOf_message_none htext
    · next hsteps =>
      obtain ⟨s, hs, hline⟩ := htold
      rw [hsame, hstatements] at hs
      obtain ⟨k, hk, hbounds⟩ := h.1.line hs
      refine Note.points_some (hline.trans hk) (fun text htext => ?_) hsteps hbounds
      rw [Note.message, hline, hk] at htext
      exact Fault.lineOf_message_some htext
  · obtain ⟨k, hk, hbounds⟩ := h.1.line
      (Array.mem_toList_iff.2 (Array.mem_of_getElem? (hstatements ▸ hsame ▸ hs)))
    obtain ⟨hnote, hlineless⟩ := Note.line_running hlimit hs
    refine Note.points_some (hnote.trans hk) (fun text htext => ?_) hlineless hbounds
    rw [Note.message, hline, hk] at htext
    exact Fault.lineOf_message_some htext

/-- **What a stage finds** is reported with its line. -/
theorem Ends.points {failed : Option Stage} {notes : List Note} {machine : Option Machine}
    (h : Ends source size limit patience failed notes machine) :
    ∀ note ∈ notes, note.Points source := by
  cases h with
  | @scanning scan hscan _ =>
      intro note hnote
      obtain ⟨f, hf, rfl⟩ := List.mem_map.1 hnote
      refine Note.points_some rfl (fun text htext => ?_) id ((scan_lines hscan).2 f hf)
      rw [← Except.ok.inj htext]
      exact f.lineOf_message
  | @reading scan hscan _ _ =>
      intro note hnote
      obtain ⟨p, hp, rfl⟩ := List.mem_map.1 hnote
      have hfrom := (Grammar.ofTokens_from scan.closed).problems p hp
      cases p with
      | near t cause =>
          refine Note.points_some rfl (fun text htext => ?_) id ((scan_lines hscan).1 t hfrom)
          rw [← Except.ok.inj htext]
          exact Problem.lineOf_near t cause
      | spawnNotFirst line =>
          obtain ⟨t, ht, rfl⟩ := hfrom
          refine Note.points_some rfl (fun text htext => ?_) id ((scan_lines hscan).1 t ht)
          rw [← Except.ok.inj htext]
          exact Problem.lineOf_spawnNotFirst t.position.line
      | missingSpawn =>
          refine Note.points_none rfl (fun text htext => ?_) trivial
          rw [← Except.ok.inj htext]
          exact Problem.lineOf_missingSpawn
  | checking =>
      intro note hnote
      obtain ⟨c, -, rfl⟩ := List.mem_map.1 hnote
      refine Note.points_none rfl (fun text htext => ?_) trivial
      rw [← Except.ok.inj htext]
      exact c.lineOf_message
  | settingUp =>
      refine List.forall_mem_singleton.2 (Note.points_none rfl (fun text htext => ?_) trivial)
      exact Fault.lineOf_message_none htext
  | running haccepts hnew hrun =>
      exact List.forall_mem_singleton.2 (haccepts.points hnew hrun)
  | finished => exact List.forall_mem_nil _

end Reports

/-- **Diagnostics point into the text.** The errors of a report are the messages on what one stage
found, in order. From each of them the line is read back that the stage attached: the line of the
fault, of the token, or of the statement that was running. There is none exactly for what is wrong
with the meaning of a program, for a cursor that is never put down, for a machine that cannot be set
up, and for a limit that leaves room for no statement. Every line lies between the first one of the
text and the one behind its last line end. -/
theorem report_lines {source : String} {size : Int} {limit : Option Int} {patience : Nat}
    {report : Report} (h : (runSource source size limit patience).report = .ok report) :
    ∃ notes, Ends source size limit patience report.failed notes report.machine ∧
      List.Forall₂ (fun note text => note.message = .ok text ∧
        ∃ line : Option Nat, note.line = line.map Int.ofNat ∧ lineOf text = readBack line ∧
          (line = none ↔ note.Lineless) ∧
          ∀ n ∈ line, 1 ≤ n ∧ n ≤ 1 + source.toList.count '\n') notes report.errors := by
  obtain ⟨notes, hends, hmessages⟩ := ends_of_report h
  have hpairs := (List.forall₂_and_left _ _).2 ⟨hends.points, Note.forall₂_messages hmessages⟩
  refine ⟨notes, hends, hpairs.imp fun note text hnote => ?_⟩
  exact ⟨hnote.2, hnote.1 text hnote.2⟩

/-- A text that divides by zero on its third line. -/
def dividingText : String := "Spawn(0, 0)\nn <- 1\nm <- 1 / (n - n)"

/-- The division is reported, and from its message the third line is read back. -/
theorem report_lines_dividingText :
    ∃ (report : Report) (note : Note),
      (runSource dividingText 3 (some 9) 0).report = .ok report ∧
      report.errors = ["Line 3: Division by zero."] ∧
      note.message = .ok "Line 3: Division by zero." ∧ note.line = some 3 ∧
      lineOf "Line 3: Division by zero." = .ok (some 3) := by
  have hfound : ((runSource dividingText 3 (some 9) 0).report.map Report.errors).toOption =
      some ["Line 3: Division by zero."] := by
    decide +kernel
  cases hreport : (runSource dividingText 3 (some 9) 0).report with
  | error escape =>
      rw [hreport] at hfound
      cases hfound
  | ok report =>
      rw [hreport] at hfound
      have herrors : report.errors = ["Line 3: Division by zero."] := Option.some.inj hfound
      obtain ⟨notes, -, hpairs⟩ := report_lines hreport
      rw [herrors] at hpairs
      obtain ⟨note, -, ⟨hmessage, line, hline, hread, -⟩, -, rfl⟩ :=
        List.forall₂_cons_right_iff.1 hpairs
      have hthree : lineOf "Line 3: Division by zero." = .ok (some 3) := by decide +kernel
      obtain rfl := Editor.eq_of_readBack (hread.symm.trans hthree)
      exact ⟨report, note, rfl, herrors, hmessage, hline, hthree⟩

end Brushwork
