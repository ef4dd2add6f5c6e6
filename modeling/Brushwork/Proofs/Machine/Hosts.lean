import Brushwork.Proofs.Machine.Stepping

/-!
Machines on hosts.

* `Machine.newOn_unbounded` and `Machine.executeOn_unbounded`: where there are no bounds, nothing is
  given up.
* `Machine.runOn_cases`: on a host a run is what it is without bounds, unless it is given up.
* `Machine.runOn_tooDeep` and `Machine.runOn_of_reaches`: it is given up exactly where it comes to a
  statement whose values are nested too deep.
-/

namespace Brushwork

namespace Host

variable {host : Host} {size : Int}

@[simp] lemma unbounded_reading (n : Nat) : allows unbounded.reading n = true := rfl

@[simp] lemma unbounded_checking (n : Nat) : allows unbounded.checking n = true := rfl

/-- What is allowed is so together with everything below it. -/
lemma allows_mono {bound : Option Nat} {n k : Nat} (h : n ≤ k) (hk : allows bound k = true) :
    allows bound n = true := by
  cases bound with
  | none => rfl
  | some most =>
      have hmost : k ≤ most := of_decide_eq_true hk
      exact decide_eq_true (Nat.le_trans h hmost)

lemma allows_zero (bound : Option Nat) : allows bound 0 = true := by
  cases bound with
  | none => rfl
  | some most => exact decide_eq_true (Nat.zero_le most)

lemma allows_max {bound : Option Nat} {n k : Nat} :
    allows bound (max n k) = true ↔ allows bound n = true ∧ allows bound k = true := by
  constructor
  · intro h
    exact ⟨allows_mono (Nat.le_max_left n k) h, allows_mono (Nat.le_max_right n k) h⟩
  · rintro ⟨hn, hk⟩
    rcases Nat.le_total n k with h | h
    · rwa [Nat.max_eq_right h]
    · rwa [Nat.max_eq_left h]

lemma layOut_unbounded (size : Int) : unbounded.layOut size = .ok () := rfl

lemma layOut_uncountable (h : allows host.counting size.toNat = false) :
    host.layOut size = .error .uncountable := by
  rw [layOut, h]
  rfl

lemma layOut_outOfMemory (h : allows host.counting size.toNat = true)
    (h' : allows host.memory size.toNat = false) : host.layOut size = .error .outOfMemory := by
  rw [layOut, h, h']
  rfl

lemma layOut_ok (h : allows host.counting size.toNat = true)
    (h' : allows host.memory size.toNat = true) : host.layOut size = .ok () := by
  rw [layOut, h, h']
  rfl

end Host

namespace Machine

variable {host : Host} {limit : Option Int} {m m₁ : Machine} {statements : Array Stmt} {size : Int}

lemma newOn_of_ok (h : host.layOut size = .ok ()) :
    newOn host statements size = .ok (new statements size) := by
  rw [newOn, h]
  split <;> rfl

lemma newOn_of_error {escape : Escape} (hspawn : Program.startsWithSpawn statements = true)
    (h : host.layOut size = .error escape) : newOn host statements size = .error escape := by
  rw [newOn, if_pos hspawn, h]
  rfl

lemma newOn_unbounded (statements : Array Stmt) (size : Int) :
    newOn .unbounded statements size = .ok (new statements size) :=
  newOn_of_ok (Host.layOut_unbounded size)

lemma fits_unbounded (limit : Option Int) (m : Machine) : m.fits .unbounded limit = true := by
  rw [fits]
  split <;> rfl

/-- **A run on a host** is what it is without bounds, unless it is given up. -/
theorem runOn_cases (host : Host) (limit : Option Int) (patience : Nat) (m : Machine) :
    runOn host limit patience m = .ok (run limit patience m) ∨
      runOn host limit patience m = .error .tooDeep := by
  induction patience generalizing m with
  | zero => exact .inl rfl
  | succ patience ih =>
      rw [runOn, run]
      by_cases hfits : m.fits host limit = true
      · rw [if_pos hfits]
        obtain ⟨m', ending⟩ := m.step limit
        cases ending with
        | some ending => exact .inl rfl
        | none => exact ih m'
      · exact .inr (if_neg hfits)

/-- A run that is given up has come to a statement that does not fit. -/
lemma runOn_tooDeep {patience : Nat} (h : runOn host limit patience m = .error .tooDeep) :
    ∃ m₁, Reaches limit m m₁ ∧ m₁.fits host limit = false := by
  induction patience generalizing m with
  | zero => cases h
  | succ patience ih =>
      rw [runOn] at h
      by_cases hfits : m.fits host limit = true
      · rw [if_pos hfits] at h
        cases hstep : m.step limit with
        | mk m' ending =>
            rw [hstep] at h
            cases ending with
            | some ending => cases h
            | none =>
                obtain ⟨m₁, hreach, hm₁⟩ := ih h
                exact ⟨m₁, .step hstep hreach, hm₁⟩
      · exact ⟨m, .refl m, Bool.eq_false_iff.2 hfits⟩

/-- Where a statement does not fit, no run goes on: it has been given up, or it has not come there
yet. -/
lemma runOn_of_reaches (hreach : Reaches limit m m₁) (h : m₁.fits host limit = false)
    (patience : Nat) :
    (run limit patience m).2 = .unfinished ∨ runOn host limit patience m = .error .tooDeep := by
  induction hreach generalizing patience with
  | refl m =>
      cases patience with
      | zero => exact .inl rfl
      | succ patience =>
          rw [runOn, h]
          exact .inr rfl
  | @step m m' m₁ hstep _ ih =>
      cases patience with
      | zero => exact .inl rfl
      | succ patience =>
          rw [runOn, run, hstep]
          by_cases hfits : m.fits host limit = true
          · rw [if_pos hfits]
            exact ih h patience
          · exact .inr (if_neg hfits)

lemma executeOn_unbounded (m : Machine) (limit : Option Int) (patience : Nat) :
    m.executeOn .unbounded limit patience = .ok (m.execute limit patience) := by
  refine (runOn_cases .unbounded limit _ m.rewind).resolve_right fun h => ?_
  obtain ⟨m₁, -, hfits⟩ := runOn_tooDeep h
  rw [fits_unbounded] at hfits
  cases hfits

end Machine

end Brushwork
