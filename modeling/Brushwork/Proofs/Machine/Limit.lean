import Brushwork.Proofs.Machine.Atomic
import Brushwork.Proofs.Machine.Faults

/-!
A limit only cuts a run short.

* `Easel.eval_fault`: a value that cannot be computed fails with a fault of its own, never with that
  of a limit.
* `Machine.EndsAfter`: the number of statements that are carried out if no limit stops the run, and
  how it ends behind them. A run that goes round forever ends after no number of them.
* `Machine.run_none`: a run without a limit ends so, as soon as it may take one step more than that.
* `Machine.EndsWithin`: a limit is no hindrance. The end of the program is seen when the limit is
  reached, a fault only while there is room for one more statement.
* `Machine.run_some`: with a limit, a run ends as it does without one, or it is stopped where the
  run without one stands after as many statements.
* `execute_truncates`: both runs from the first statement, whatever state they begin in.
-/

namespace Brushwork

/-! ### The fault of a limit -/

/-- The fault arises while a value is computed. -/
def Fault.isOfValue : Fault → Bool
  | notANumber _ | undefinedVariable _ | divisionByZero | moduloByZero | notComputable _ _
  | unsupportedOperator _ | unknownFunction _ | argumentCount _ _ | unsupportedExpression _ => true
  | missingSpawn | canvasNotPositive _ | stepLimit _ | spawnOutside _ _ | sizeNotPositive
  | cursorOutside _ _ | undefinedLabel _ | unknownStatement _ | radiusTooLarge => false

namespace Easel

variable {easel : Easel} {fault : Fault}

/-- The values that a function looks at are the only other source of its faults. -/
lemma query_fault {b : Builtin} {color : String} {args : List (Except Fault Int)}
    (h : easel.query b color args = .error fault) :
    .error fault ∈ args ∨ ∃ name count, fault = .argumentCount name count := by
  have hbind : ∀ {x : Except Fault Int} {f : Int → Except Fault Int},
      (x >>= f) = .error fault → x = .error fault ∨ ∃ v, f v = .error fault := by
    intro x f hx
    cases x with
    | error fault' => exact .inl hx
    | ok v => exact .inr ⟨v, hx⟩
  rw [query.eq_def] at h
  split at h
  · cases h
  · cases h
  · cases h
  · obtain rfl | ⟨v, hv⟩ := hbind h
    · exact .inl (by simp)
    · cases hv
  · cases h
  · obtain rfl | ⟨v, hv⟩ := hbind h
    · exact .inl (by simp)
    · cases hv
  · obtain rfl | ⟨x₁, h⟩ := hbind h
    · exact .inl (by simp)
    obtain rfl | ⟨y₁, h⟩ := hbind h
    · exact .inl (by simp)
    obtain rfl | ⟨x₂, h⟩ := hbind h
    · exact .inl (by simp)
    obtain rfl | ⟨y₂, h⟩ := hbind h
    · exact .inl (by simp)
    cases h
  · obtain rfl | ⟨x₁, h⟩ := hbind h
    · exact .inl (by simp)
    obtain rfl | ⟨y₁, h⟩ := hbind h
    · exact .inl (by simp)
    cases h
  · exact .inr ⟨_, _, (Except.error.inj h).symm⟩

/-- **The fault of a value** is one that only a value can have. -/
theorem eval_fault {e : Expr} (h : easel.eval e = .error fault) : fault.isOfValue = true := by
  induction e using Expr.ind with
  | lit m v =>
      cases v with
      | text s =>
          obtain rfl := Except.error.inj h
          rfl
      | int | bool => cases h
  | var m name =>
      rw [eval] at h
      split at h
      · cases h
      · obtain rfl := Except.error.inj h
        rfl
  | group m e ih =>
      rw [eval] at h
      exact ih h
  | binary m l symbol r ihl ihr =>
      rw [eval] at h
      rcases bind_error h with hl | ⟨a, -, h⟩
      · exact ihl hl
      rcases bind_error h with hr | ⟨b, -, h⟩
      · exact ihr hr
      split at h
      · rcases apply_error h with rfl | rfl | rfl <;> rfl
      · obtain rfl := Except.error.inj h
        rfl
  | call m name args ih =>
      rw [eval] at h
      split at h
      · rcases query_fault h with hmem | ⟨_, _, rfl⟩
        · rw [evalEach_eq_map] at hmem
          obtain ⟨a, ha, hfault⟩ := List.mem_map.1 hmem
          exact ih a ha hfault
        · rfl
      · obtain rfl := Except.error.inj h
        rfl
  | foreign m form =>
      obtain rfl := Except.error.inj h
      rfl

lemma plan_ne_limit {labels : Table Nat} {a : Action} {limit : Int} :
    easel.plan labels a ≠ .error (.stepLimit limit) := by
  intro h
  rcases plan_error h with ⟨e, -, he⟩ | hown
  · cases eval_fault he
  · cases hown

end Easel

namespace Machine

variable {m m₁ m' : Machine} {n k : Nat} {ending : Ending}

/-! ### Runs without a limit -/

/-- With no limit, `n` statements are carried out, one after the other; behind them the program is
at its end, or comes to a statement that fails. -/
inductive EndsAfter (m : Machine) (n : Nat) : Machine → Ending → Prop
  | finished {m₁ : Machine} (hafter : after n m = some m₁) (hend : m₁.statements[m₁.pc]? = none) :
      EndsAfter m n m₁ .finished
  | stopped {m₁ : Machine} {s : Stmt} {fault : Fault} {easel : Easel}
      (hafter : after n m = some m₁) (hs : m₁.statements[m₁.pc]? = some s)
      (hfail : (Easel.carryOut m₁.labels s.action).run m₁.easel = .error fault easel) :
      EndsAfter m n { m₁.begin s with easel := easel } (.stopped fault)

/-- A step without a limit carries out a statement, or the run ends with no statement carried
out. -/
lemma step_none_cases (m : Machine) :
    (∃ m₁, m.advance? = some m₁ ∧ m.step none = (m₁, none)) ∨
      ∃ m' ending, m.advance? = none ∧ m.EndsAfter 0 m' ending ∧
        m.step none = (m', some ending) := by
  obtain ⟨hs, hstep⟩ | ⟨s, hs, ⟨l, hl, -⟩ | ⟨fault, -, hplan, hstep⟩ | ⟨effect, -, -, hstep⟩⟩ :=
    step_cases none m
  · refine .inr ⟨m, .finished, ?_, .finished rfl hs, hstep⟩
    rw [advance?, hs]
  · cases hl
  · have hfail : (Easel.carryOut m.labels s.action).run m.easel = .error fault m.easel := by
      rw [Easel.carryOut_eq, hplan]
      rfl
    refine .inr ⟨m.begin s, .stopped fault, ?_, .stopped rfl hs hfail, hstep⟩
    rw [advance?, hs]
    simp only [hfail]
  · exact .inl ⟨_, advance?_of_step hstep, hstep⟩

lemma EndsAfter.after_eq (h : m.EndsAfter n m' ending) : ∃ m₁, after n m = some m₁ := by
  cases h with
  | finished hafter => exact ⟨_, hafter⟩
  | stopped hafter => exact ⟨_, hafter⟩

/-- Where no statement can be carried out, the run ends at once and in one way. -/
lemma EndsAfter.of_none (h : m.EndsAfter n m' ending) (hnone : m.advance? = none) :
    m.step none = (m', some ending) := by
  obtain rfl : n = 0 := by
    cases n with
    | zero => rfl
    | succ n =>
        obtain ⟨m₁, hafter⟩ := h.after_eq
        rw [after, hnone] at hafter
        cases hafter
  cases h with
  | finished hafter hend =>
      obtain rfl := Option.some.inj hafter
      rw [step, hend]
  | @stopped _ s fault easel hafter hs hfail =>
      obtain rfl := Option.some.inj hafter
      rw [Easel.carryOut_eq] at hfail
      rw [step, hs]
      dsimp only [reaches]
      cases hplan : m.easel.plan m.labels s.action with
      | ok effect =>
          rw [hplan] at hfail
          cases hfail
      | error fault' =>
          rw [hplan] at hfail
          cases hfail
          rfl

lemma EndsAfter.eq_of_none (h : m.EndsAfter n m' ending) (hnone : m.advance? = none)
    {ending₁ : Ending} (hstep : m.step none = (m₁, some ending₁)) :
    (m₁, ending₁) = (m', ending) := by
  have heq := h.of_none hnone
  rw [hstep] at heq
  obtain ⟨rfl, he⟩ := Prod.mk.inj heq
  rw [Option.some.inj he]

/-- Where a statement can be carried out, the run ends as it does behind that statement. -/
lemma endsAfter_of_some (hsome : m.advance? = some m₁) :
    m.EndsAfter n m' ending ↔ ∃ j, n = j + 1 ∧ m₁.EndsAfter j m' ending := by
  have hafter : ∀ j, after (j + 1) m = after j m₁ := by
    intro j
    rw [after, hsome]
    rfl
  constructor
  · intro h
    cases n with
    | zero =>
        -- the statement is there and does not fail, so this is not where the run ends
        exfalso
        cases h with
        | finished h₀ hend =>
            obtain rfl := Option.some.inj h₀
            rw [advance?, hend] at hsome
            cases hsome
        | stopped h₀ hs hfail =>
            obtain rfl := Option.some.inj h₀
            rw [advance?, hs] at hsome
            simp only [hfail] at hsome
            cases hsome
    | succ j =>
        refine ⟨j, rfl, ?_⟩
        cases h with
        | finished h₁ hend =>
            rw [hafter] at h₁
            exact .finished h₁ hend
        | stopped h₁ hs hfail =>
            rw [hafter] at h₁
            exact .stopped h₁ hs hfail
  · rintro ⟨j, rfl, h⟩
    cases h with
    | finished h₁ hend => exact .finished ((hafter j).trans h₁) hend
    | stopped h₁ hs hfail => exact .stopped ((hafter j).trans h₁) hs hfail

/-- **A run without a limit** ends as soon as it may take one step more than the statements that are
carried out, and stands behind as many statements as it took steps until then. -/
theorem run_none (m : Machine) (patience : Nat) :
    (∀ n m' ending, m.EndsAfter n m' ending → n < patience →
      run none patience m = (m', ending)) ∧
    ((∀ n m' ending, m.EndsAfter n m' ending → patience ≤ n) →
      ∃ m₁, after patience m = some m₁ ∧ run none patience m = (m₁, .unfinished)) := by
  induction patience generalizing m with
  | zero => exact ⟨fun n _ _ _ hn => absurd hn (Nat.not_lt_zero n), fun _ => ⟨m, rfl, rfl⟩⟩
  | succ patience ih =>
      rw [run]
      obtain ⟨m₁, hsome, hstep⟩ | ⟨m₀, e₀, hnone, hends, hstep⟩ := step_none_cases m
      · rw [hstep]
        obtain ⟨hearly, hlate⟩ := ih m₁
        refine ⟨fun n m' ending h hn => ?_, fun hall => ?_⟩
        · obtain ⟨j, rfl, hj⟩ := (endsAfter_of_some hsome).1 h
          exact hearly j m' ending hj (by omega)
        · have hall₁ : ∀ n m' ending, m₁.EndsAfter n m' ending → patience ≤ n := by
            intro n m' ending h
            have hn := hall (n + 1) m' ending ((endsAfter_of_some hsome).2 ⟨n, rfl, h⟩)
            omega
          obtain ⟨m₂, hafter, hrun⟩ := hlate hall₁
          refine ⟨m₂, ?_, hrun⟩
          rw [after, hsome]
          exact hafter
      · rw [hstep]
        refine ⟨fun n m' ending h _ => h.eq_of_none hnone hstep, fun hall => ?_⟩
        exact absurd (hall 0 m₀ e₀ hends) (by omega)

/-! ### Runs with a limit -/

/-- Without a limit, the run ends behind at most `k` statements, or it is stopped by a fault behind
fewer than `k`. -/
def EndsWithin (m : Machine) (k : Nat) (m' : Machine) (ending : Ending) : Prop :=
  ∃ n, m.EndsAfter n m' ending ∧
    (ending = .finished ∧ n ≤ k ∨ (∃ fault, ending = .stopped fault) ∧ n < k)

lemma EndsAfter.not_unfinished (h : m.EndsAfter n m' ending) :
    ending = .finished ∨ ∃ fault, ending = .stopped fault := by
  cases h with
  | finished => exact .inl rfl
  | stopped => exact .inr ⟨_, rfl⟩

/-- A limit's own fault is not how a run ends without one. -/
lemma EndsAfter.ne_limit (h : m.EndsAfter n m' ending) (limit : Int) :
    ending ≠ .stopped (.stepLimit limit) := by
  cases h with
  | finished => simp
  | @stopped m₁ s fault easel _ _ hfail =>
      rintro ⟨⟩
      rw [Easel.carryOut_eq] at hfail
      cases hplan : m₁.easel.plan m₁.labels s.action with
      | ok effect =>
          rw [hplan] at hfail
          cases hfail
      | error fault =>
          rw [hplan] at hfail
          cases hfail
          exact Easel.plan_ne_limit hplan

lemma EndsWithin.mono (h : m.EndsWithin k m' ending) {k' : Nat} (hk : k ≤ k') :
    m.EndsWithin k' m' ending := by
  obtain ⟨n, hn, ⟨he, hle⟩ | ⟨he, hlt⟩⟩ := h
  · exact ⟨n, hn, .inl ⟨he, by omega⟩⟩
  · exact ⟨n, hn, .inr ⟨he, by omega⟩⟩

lemma EndsWithin.of_some (h : m.EndsWithin (k + 1) m' ending) (hsome : m.advance? = some m₁) :
    m₁.EndsWithin k m' ending := by
  obtain ⟨n, hn, hfits⟩ := h
  obtain ⟨j, rfl, hj⟩ := (endsAfter_of_some hsome).1 hn
  refine ⟨j, hj, ?_⟩
  rcases hfits with ⟨he, hle⟩ | ⟨he, hlt⟩
  · exact .inl ⟨he, by omega⟩
  · exact .inr ⟨he, by omega⟩

lemma endsWithin_succ (hsome : m.advance? = some m₁) (h : m₁.EndsWithin k m' ending) :
    m.EndsWithin (k + 1) m' ending := by
  obtain ⟨n, hn, hfits⟩ := h
  refine ⟨n + 1, (endsAfter_of_some hsome).2 ⟨n, rfl, hn⟩, ?_⟩
  rcases hfits with ⟨he, hle⟩ | ⟨he, hlt⟩
  · exact .inl ⟨he, by omega⟩
  · exact .inr ⟨he, by omega⟩

/-- A limit that is not reached yet does not show. -/
lemma step_of_room {limit : Int} (h : m.steps < limit) : m.step (some limit) = m.step none := by
  have hroom : reaches m.steps (some limit) = none := by
    rw [reaches, if_neg (by omega)]
  rw [step, step, hroom]
  rfl

/-- A limit that is reached stops every run that has a statement left. -/
lemma step_of_full {limit : Int} (h : limit ≤ m.steps) {s : Stmt}
    (hs : m.statements[m.pc]? = some s) :
    m.step (some limit) = (m, some (.stopped (.stepLimit limit))) := by
  have hfull : reaches m.steps (some limit) = some limit := by rw [reaches, if_pos h]
  rw [step, hs]
  simp only [hfull]

lemma steps_of_advance? (h : m.advance? = some m₁) : m₁.steps = m.steps + 1 := by
  rw [advance?] at h
  split at h
  · cases h
  · split at h
    · obtain rfl := Option.some.inj h
      rfl
    · cases h

lemma steps_of_after (h : after n m = some m') : m'.steps = m.steps + n := by
  induction n generalizing m with
  | zero =>
      obtain rfl := Option.some.inj h
      rfl
  | succ n ih =>
      rw [after] at h
      obtain ⟨m₁, hsome, hafter⟩ := Option.bind_eq_some_iff.1 h
      have hsteps := ih hafter
      rw [steps_of_advance? hsome] at hsteps
      omega

/-- **A run with a limit**, with room for `k` more statements: it ends as it does without a limit,
if that is within the room, and else it is stopped behind `k` statements. -/
theorem run_some {limit : Int} (hroom : m.steps + k = limit) :
    (∀ m' ending, m.EndsWithin k m' ending → run (some limit) (k + 1) m = (m', ending)) ∧
    ((∀ m' ending, ¬m.EndsWithin k m' ending) →
      ∃ m₁, after k m = some m₁ ∧
        run (some limit) (k + 1) m = (m₁, .stopped (.stepLimit limit))) := by
  induction k generalizing m with
  | zero =>
      rw [run]
      cases hs : m.statements[m.pc]? with
      | none =>
          have hends : m.EndsWithin 0 m .finished :=
            ⟨0, .finished rfl hs, .inl ⟨rfl, Nat.le_refl 0⟩⟩
          have hnone : m.advance? = none := by rw [advance?, hs]
          have hstep : ∀ limit, m.step limit = (m, some .finished) := by
            intro limit
            rw [step, hs]
          rw [hstep]
          refine ⟨fun m' ending h => ?_, fun hall => absurd hends (hall m .finished)⟩
          obtain ⟨n, hn, -⟩ := h
          exact hn.eq_of_none hnone (hstep none)
      | some s =>
          rw [step_of_full (by omega) hs]
          refine ⟨fun m' ending h => ?_, fun _ => ⟨m, rfl, rfl⟩⟩
          -- with a statement left and no room for it, the run has not ended
          obtain ⟨n, hn, ⟨rfl, hle⟩ | ⟨-, hlt⟩⟩ := h
          · obtain rfl : n = 0 := by omega
            cases hn with
            | finished hafter hend =>
                obtain rfl := Option.some.inj hafter
                rw [hs] at hend
                cases hend
          · omega
  | succ k ih =>
      rw [run, step_of_room (by omega)]
      obtain ⟨m₁, hsome, hstep⟩ | ⟨m₀, e₀, hnone, hends, hstep⟩ := step_none_cases m
      · rw [hstep]
        have hroom₁ : (m₁.steps : Int) + k = limit := by
          rw [steps_of_advance? hsome]
          omega
        obtain ⟨hwithin, hbeyond⟩ := ih hroom₁
        refine ⟨fun m' ending h => hwithin m' ending (h.of_some hsome), fun hall => ?_⟩
        obtain ⟨m₂, hafter, hrun⟩ :=
          hbeyond fun m' ending h => hall m' ending (endsWithin_succ hsome h)
        refine ⟨m₂, ?_, hrun⟩
        rw [after, hsome]
        exact hafter
      · rw [hstep]
        refine ⟨fun m' ending h => ?_, fun hall => absurd ⟨0, hends, ?_⟩ (hall m₀ e₀)⟩
        · obtain ⟨n, hn, -⟩ := h
          exact hn.eq_of_none hnone hstep
        · rcases hends.not_unfinished with he | he
          · exact .inl ⟨he, by omega⟩
          · exact .inr ⟨he, by omega⟩

/-- A run that is not cut short within `k` statements takes more than `k` of them, or fails at the
next one. -/
lemma EndsAfter.le_of_not_within (h : m.EndsAfter n m' ending)
    (hall : ∀ m' ending, ¬m.EndsWithin k m' ending) : k ≤ n := by
  by_contra hlt
  refine hall m' ending ⟨n, h, ?_⟩
  rcases h.not_unfinished with he | he
  · exact .inl ⟨he, by omega⟩
  · exact .inr ⟨he, by omega⟩

lemma execute_limited (m : Machine) (k patience : Nat) :
    m.execute (some k) patience = run (some k) (k + 1) m.rewind := by
  rw [execute, patienceFor, Int.toNat_natCast]

end Machine

/-- **A limit only cuts a run short**, whatever state it begins in. Let the run without a limit
carry out `n` statements before it ends. If it comes to the end of the program with `n ≤ k`, or is
stopped by a fault with `n < k`, the run with the limit `k` ends in the same way and leaves the same
machine. Otherwise, and also if the run without a limit goes on forever, the run with the limit is
stopped by it after `k` steps, with the machine that the run without a limit has after `k`
statements. So an ending that is not the limit's own is that of every run with a higher limit, and
of the run without one. -/
theorem execute_truncates (m : Machine) (k patience : Nat) :
    (∀ n m' ending, m.rewind.EndsAfter n m' ending →
      (∀ limit, ending ≠ .stopped (.stepLimit limit)) ∧
        ∀ p, n < p → m.execute none p = (m', ending)) ∧
    (∀ m' ending, m.rewind.EndsWithin k m' ending →
      m.execute (some k) patience = (m', ending)) ∧
    ((∀ m' ending, ¬m.rewind.EndsWithin k m' ending) →
      ∃ m₁, Machine.after k m.rewind = some m₁ ∧ m₁.steps = k ∧
        m.execute none k = (m₁, .unfinished) ∧
        m.execute (some k) patience = (m₁, .stopped (.stepLimit k))) ∧
    (∀ m' ending, m.execute (some k) patience = (m', ending) →
      (∀ limit, ending ≠ .stopped (.stepLimit limit)) →
      (∀ k' : Nat, k ≤ k' → ∀ p, m.execute (some k') p = (m', ending)) ∧
        ∃ n, ∀ p, n < p → m.execute none p = (m', ending)) := by
  have hroom : ∀ k : Nat, (m.rewind.steps : Int) + k = k := fun k => Int.zero_add k
  have hwithin : ∀ (k p : Nat) (m' : Machine) (ending : Machine.Ending),
      m.rewind.EndsWithin k m' ending → m.execute (some k) p = (m', ending) := by
    intro k p m' ending h
    rw [Machine.execute_limited]
    exact (Machine.run_some (hroom k)).1 m' ending h
  have hfree : ∀ n m' ending, m.rewind.EndsAfter n m' ending →
      ∀ p, n < p → m.execute none p = (m', ending) :=
    fun n m' ending h p hp => (Machine.run_none m.rewind p).1 n m' ending h hp
  have hbeyond : (∀ m' ending, ¬m.rewind.EndsWithin k m' ending) →
      ∃ m₁, Machine.after k m.rewind = some m₁ ∧ m₁.steps = k ∧
        m.execute none k = (m₁, .unfinished) ∧
        m.execute (some k) patience = (m₁, .stopped (.stepLimit k)) := by
    intro hall
    obtain ⟨m₁, hafter, hrun⟩ := (Machine.run_some (hroom k)).2 hall
    obtain ⟨m₂, hafter₂, hrun₂⟩ :=
      (Machine.run_none m.rewind k).2 fun n m' ending h => h.le_of_not_within hall
    obtain rfl : m₁ = m₂ := Option.some.inj (hafter.symm.trans hafter₂)
    have hsteps : m₁.steps = k := (Machine.steps_of_after hafter).trans (Nat.zero_add k)
    refine ⟨m₁, hafter, hsteps, hrun₂, ?_⟩
    rw [Machine.execute_limited]
    exact hrun
  refine ⟨fun n m' ending h => ⟨h.ne_limit, hfree n m' ending h⟩, hwithin k patience, hbeyond,
    fun m' ending hrun hlimit => ?_⟩
  by_cases hany : ∃ m' ending, m.rewind.EndsWithin k m' ending
  · obtain ⟨m₁, ending₁, hends⟩ := hany
    obtain ⟨rfl, rfl⟩ := Prod.mk.inj (hrun.symm.trans (hwithin k patience m₁ ending₁ hends))
    refine ⟨fun k' hk p => hwithin k' p m' ending (hends.mono hk), ?_⟩
    obtain ⟨n, hn, -⟩ := hends
    exact ⟨n, hfree n m' ending hn⟩
  · obtain ⟨m₁, -, -, -, hstopped⟩ := hbeyond fun m' ending h => hany ⟨m', ending, h⟩
    rw [hrun] at hstopped
    exact absurd (Prod.mk.inj hstopped).2 (hlimit k)

/-- A program that carries out two statements and fails at the third. -/
def stumbling : Array Stmt :=
  let mark : Mark := ⟨none, none⟩
  let int (n : Int) : Expr := .lit mark (.int n)
  #[⟨mark, .spawn (int 0) (int 0)⟩, ⟨mark, .assign "a" (int 2)⟩,
    ⟨mark, .assign "b" (.binary mark (.var mark "a") "/" (int 0))⟩]

theorem execute_truncates_stumbling :
    ∃ m m', Machine.new stumbling 2 = .ok m ∧
      (m.execute (some 2) 0).2 = .stopped (.stepLimit 2) ∧
      m.execute (some 3) 0 = (m', .stopped .divisionByZero) ∧
      (∀ k' : Nat, 3 ≤ k' → ∀ p, m.execute (some k') p = (m', .stopped .divisionByZero)) ∧
      ∃ n, ∀ p, n < p → m.execute none p = (m', .stopped .divisionByZero) := by
  obtain ⟨m, hm, hshort, hend⟩ : ∃ m, Machine.new stumbling 2 = .ok m ∧
      (m.execute (some 2) 0).2 = .stopped (.stepLimit 2) ∧
      (m.execute (some 3) 0).2 = .stopped .divisionByZero :=
    ⟨_, rfl, by decide +kernel, by decide +kernel⟩
  have hrun : m.execute (some 3) 0 = ((m.execute (some 3) 0).1, .stopped .divisionByZero) := by
    rw [← hend]
  obtain ⟨-, -, -, hsame⟩ := execute_truncates m 3 0
  exact ⟨m, _, hm, hshort, hrun, hsame _ _ hrun (by simp)⟩

end Brushwork
