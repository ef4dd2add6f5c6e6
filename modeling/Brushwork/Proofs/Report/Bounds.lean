import Brushwork.Proofs.Grammar.Depth
import Brushwork.Proofs.Machine.Nesting
import Brushwork.Proofs.Report.Escapes

/-!
Reports on hosts.

* `NestsTooDeep`: a host has not the room for the calls that read, check or value the expressions of a
  text.
  `reading_of_few` and `NestsTooDeep.of_parens`: reading takes 15 calls for each token at most, and for
  each parenthesis at least.
* `OutgrowsCounting` and `OutgrowsMemory`: it has not the room for the canvas.
* `Carries.report`: in all other cases the report on a text is what it is without bounds.
* `report_escapes`: which texts have no report on a host, and what the reports on all other texts hold.
* `common_escapes`: texts without a report, for no other reason than the bounds of the host.
-/

namespace Brushwork

open Check Grammar

section Bounds

variable {host : Host} {source : String} {size limit : Int} {patience : Nat}

/-- Calls are nested too deep for the host, when the expressions of a text are read, when one of them is
checked, or when the run comes to a statement with room for one more and the value of one of its
expressions is asked for. -/
inductive NestsTooDeep (host : Host) (source : String) (size limit : Int) : Prop
  | reading {scan : Scan} (hscan : scan? source = some scan) (hfaults : scan.errors = [])
      (h : Host.allows host.reading (Parse.ofTokens scan.closed).draft.depth = false) :
      NestsTooDeep host source size limit
  | checking {program : Program} {s : Stmt} {e : Expr} {n : Nat} (hreads : Reads source program)
      (hs : s ∈ program.statements.toList) (he : e ∈ s.action.exprs)
      (hnests : Nests Check.own Check.Calls e n) (h : Host.allows host.checking n = false) :
      NestsTooDeep host source size limit
  | running {program : Program} {m m₁ : Machine} {s : Stmt} {e : Expr} {n : Nat}
      (hon : AcceptsOn host source program) (hcanvas : host.layOut size = .ok ())
      (hnew : Machine.new program.statements size = .ok m)
      (hreach : Machine.Reaches (some limit) m m₁) (hroom : m₁.steps < limit)
      (hs : m₁.statements[m₁.pc]? = some s) (he : m₁.easel.ComesTo s.action.exprs e)
      (hnests : Nests Easel.own m₁.easel.Calls e n) (h : Host.allows host.valuing n = false) :
      NestsTooDeep host source size limit

/-- A text is never too deep to be read, if there is room for 15 calls for each of its tokens and for
14 more. -/
theorem reading_of_few {scan : Scan} {most : Nat} (hroom : host.reading = some most)
    (hfew : 15 * scan.closed.length + 14 ≤ most) :
    Host.allows host.reading (Parse.ofTokens scan.closed).draft.depth = true := by
  rw [hroom]
  exact decide_eq_true (Nat.le_trans (ofTokens_depth_le scan.closed) hfew)

/-- A text is too deep to be read, if it begins with parentheses and there is not the room for 15 calls
for each of them. -/
theorem NestsTooDeep.of_parens {scan : Scan} {most : Nat} {t o : Token} {os us : List Token}
    (hscan : scan? source = some scan) (hfaults : scan.errors = [])
    (htokens : scan.closed = t :: o :: (os ++ us)) (ht : t.kind = .command .spawn)
    (ho : o.kind = .openParen) (hos : ∀ o ∈ os, o.kind = .openParen)
    (hroom : host.reading = some most) (hmany : most < 15 * os.length) :
    NestsTooDeep host source size limit := by
  refine .reading hscan hfaults ?_
  have hdepth : most < (Parse.ofTokens scan.closed).draft.depth := by
    rw [htokens]
    exact Nat.lt_of_lt_of_le hmany (le_ofTokens_depth ht ho hos us)
  rw [hroom]
  exact decide_eq_false (Nat.not_le.2 hdepth)

/-- An accepted text is to be drawn on a canvas with more cells in a row than the host can count. -/
def OutgrowsCounting (host : Host) (source : String) (size : Int) : Prop :=
  ∃ program, AcceptsOn host source program ∧ Host.allows host.counting size.toNat = false

/-- An accepted text is to be drawn on a canvas that the host can count, but has no memory for. -/
def OutgrowsMemory (host : Host) (source : String) (size : Int) : Prop :=
  ∃ program, AcceptsOn host source program ∧ Host.allows host.counting size.toNat = true ∧
    Host.allows host.memory size.toNat = false

/-- The host has the room for all that a text asks for. -/
structure Carries (host : Host) (source : String) (size limit : Int) : Prop where
  nesting : ¬NestsTooDeep host source size limit
  counting : ¬OutgrowsCounting host source size
  memory : ¬OutgrowsMemory host source size

/-- A program has the same report on a host as without bounds, where its canvas is laid out and its
run is not given up. -/
lemma runProgram_eq {tokens : List Token} {program : Program} {limit : Option Int}
    (hcanvas : host.layOut size = .ok ())
    (hrun : ∀ m, Machine.new program.statements size = .ok m →
      m.executeOn host limit patience = .ok (m.execute limit patience)) :
    runProgram host tokens program size limit patience =
      runProgram .unbounded tokens program size limit patience := by
  rw [runProgram, runProgram, Machine.newOn_of_ok hcanvas, Machine.newOn_unbounded]
  cases hnew : Machine.new program.statements size with
  | error fault => rfl
  | ok m =>
      dsimp only [bind, Except.bind]
      rw [hrun m hnew, Machine.executeOn_unbounded]

/-- A run with a limit is given up, once it can come to a statement that does not fit. -/
lemma runProgram_tooDeep {tokens : List Token} {program : Program} {m m₁ : Machine}
    (hcanvas : host.layOut size = .ok ()) (hnew : Machine.new program.statements size = .ok m)
    (hreach : Machine.Reaches (some limit) m m₁) (h : m₁.fits host (some limit) = false) :
    runProgram host tokens program size (some limit) patience = .error .tooDeep := by
  obtain ⟨-, -, -, hrewind⟩ := Machine.new_fresh hnew
  have hdeep : m.executeOn host (some limit) patience = .error .tooDeep := by
    have hends := m.not_unfinished limit patience
    rw [Machine.execute, hrewind] at hends
    rw [Machine.executeOn, hrewind]
    exact (Machine.runOn_of_reaches hreach h _).resolve_left hends
  rw [runProgram, Machine.newOn_of_ok hcanvas, hnew]
  dsimp only [bind, Except.bind]
  rw [hdeep]

/-- **A text that is nested too deep** has no report. -/
theorem NestsTooDeep.report (h : NestsTooDeep host source size limit) :
    (runSourceOn host source size (some limit) patience).report = .error .tooDeep := by
  cases h with
  | reading hscan hfaults h =>
      rw [runSourceOn, hscan]
      simp [hfaults, h]
  | @checking program s e n hreads hs he hnests h =>
      have hdeep : Host.allows host.checking (depthOf program.statements) = false := by
        rw [Bool.eq_false_iff]
        intro hdepth
        rw [Check.allows_depthOf.1 hdepth s hs e he n hnests] at h
        cases h
      obtain ⟨scan, hscan, hfaults, hproblems, rfl⟩ := hreads
      rw [runSourceOn, hscan]
      cases hread : Host.allows host.reading (Parse.ofTokens scan.closed).draft.depth <;>
        simp [hfaults, hproblems, hread, hdeep]
  | running hon hcanvas hnew hreach hroom hs he hnests h =>
      have hfits := Machine.fits_eq_false.2
        ⟨_, _, _, hs, Machine.room_of_lt hroom, he, hnests, h⟩
      obtain ⟨tokens, hreport⟩ := hon.accepts.report
      rw [hreport host hon, runProgram_tooDeep hcanvas hnew hreach hfits]

lemma AcceptsOn.report_error {program : Program} {escape : Escape} {limit : Option Int}
    (hon : AcceptsOn host source program) (hcanvas : host.layOut size = .error escape) :
    (runSourceOn host source size limit patience).report = .error escape := by
  obtain ⟨tokens, hreport⟩ := hon.accepts.report
  have hspawn := hon.accepts.1.wellFormed.1.startsWithSpawn
  rw [hreport host hon, runProgram, Machine.newOn_of_error hspawn hcanvas]
  rfl

/-- **A text whose canvas cannot be counted** has no report. -/
theorem OutgrowsCounting.report {limit : Option Int} (h : OutgrowsCounting host source size) :
    (runSourceOn host source size limit patience).report = .error .uncountable := by
  obtain ⟨program, hon, hcount⟩ := h
  exact hon.report_error (Host.layOut_uncountable hcount)

/-- **A text without memory for its canvas** has no report. -/
theorem OutgrowsMemory.report {limit : Option Int} (h : OutgrowsMemory host source size) :
    (runSourceOn host source size limit patience).report = .error .outOfMemory := by
  obtain ⟨program, hon, hcount, hmemory⟩ := h
  exact hon.report_error (Host.layOut_outOfMemory hcount hmemory)

lemma Carries.reading (h : Carries host source size limit) {scan : Scan}
    (hscan : scan? source = some scan) (hfaults : scan.errors = []) :
    Host.allows host.reading (Parse.ofTokens scan.closed).draft.depth = true :=
  Bool.eq_true_of_not_eq_false fun hdeep => h.nesting (.reading hscan hfaults hdeep)

lemma Carries.checking (h : Carries host source size limit) {program : Program}
    (hreads : Reads source program) :
    Host.allows host.checking (depthOf program.statements) = true :=
  Check.allows_depthOf.2 fun _ hs _ he _ hnests =>
    Bool.eq_true_of_not_eq_false fun hdeep => h.nesting (.checking hreads hs he hnests hdeep)

lemma Carries.acceptsOn (h : Carries host source size limit) {program : Program}
    (haccepts : Accepts source program) : AcceptsOn host source program := by
  refine ⟨haccepts, fun {scan} hscan => ?_, h.checking haccepts.1⟩
  obtain ⟨scan', hscan', hfaults, -⟩ := haccepts.1
  obtain rfl : scan' = scan := Option.some.inj (hscan'.symm.trans hscan)
  exact h.reading hscan hfaults

lemma Carries.layOut (h : Carries host source size limit) {program : Program}
    (hon : AcceptsOn host source program) : host.layOut size = .ok () := by
  have hcount : Host.allows host.counting size.toNat = true :=
    Bool.eq_true_of_not_eq_false fun hcount => h.counting ⟨program, hon, hcount⟩
  have hmemory : Host.allows host.memory size.toNat = true :=
    Bool.eq_true_of_not_eq_false fun hmemory => h.memory ⟨program, hon, hcount, hmemory⟩
  exact Host.layOut_ok hcount hmemory

lemma Carries.executeOn (h : Carries host source size limit) {program : Program} {m : Machine}
    (hon : AcceptsOn host source program) (hnew : Machine.new program.statements size = .ok m) :
    m.executeOn host (some limit) patience = .ok (m.execute (some limit) patience) := by
  refine (Machine.runOn_cases host (some limit) _ m.rewind).resolve_right fun hdeep => ?_
  obtain ⟨-, -, -, hrewind⟩ := Machine.new_fresh hnew
  obtain ⟨m₁, hreach, hfits⟩ := Machine.runOn_tooDeep hdeep
  rw [hrewind] at hreach
  obtain ⟨s, e, n, hs, hroom, he, hnests, hbound⟩ := Machine.fits_eq_false.1 hfits
  exact h.nesting (.running hon (h.layOut hon) hnew hreach (Machine.lt_of_room hroom) hs he hnests
    hbound)

/-- **A text that the host has the room for** has the same report as without bounds. -/
theorem Carries.report (h : Carries host source size limit) :
    (runSourceOn host source size (some limit) patience).report =
      (runSource source size (some limit) patience).report := by
  rw [runSource]
  by_cases haccepts : ∃ program, Accepts source program
  · obtain ⟨program, haccepts⟩ := haccepts
    have hon := h.acceptsOn haccepts
    obtain ⟨tokens, hreport⟩ := haccepts.report
    rw [hreport host hon, hreport _ haccepts.unbounded]
    exact runProgram_eq (h.layOut hon) fun m hnew => h.executeOn hon hnew
  · rw [runSourceOn, runSourceOn]
    cases hscan : scan? source with
    | none => rfl
    | some scan =>
        by_cases hfaults : scan.errors = []
        · have hread := h.reading hscan hfaults
          by_cases hproblems : (Parse.ofTokens scan.closed).errors = []
          · have hreads : Reads source (Parse.ofTokens scan.closed).program :=
              ⟨scan, hscan, hfaults, hproblems, rfl⟩
            have hcheck := h.checking hreads
            have hcomplaints : Check.errors (Parse.ofTokens scan.closed).program.statements ≠ [] :=
              fun hnil => haccepts ⟨_, hreads, hnil⟩
            simp [hfaults, hread, hproblems, hcheck, hcomplaints]
          · simp [hfaults, hread, hproblems]
        · simp [hfaults]

end Bounds

end Brushwork
