import Mathlib.Data.Rat.Floor
import Mathlib.Tactic.FieldSimp
import Brushwork.Machine.Eval
import Brushwork.Proofs.Grammar.Clean
import Brushwork.Proofs.Printing.Print
import Brushwork.Token.Scan

/-!
The values of literals, quotients and remainders.

* `Easel.eval_op`: an operator is applied to the values of its operands.
* `Expr.Signed`: minus signs in front of a number. These are the expressions whose value is known
  beforehand, and `Expr.Signed.eval` says that it is their value.
* `literal_foretells`: so a literal direction has its value in every state, and it is one step at most.
* `Truncates`: quotients toward zero with their remainders. `Truncates.unique` and
  `Truncates.toward_zero` follow from the three conditions alone.
* `division_truncates`: division and remainder give such a pair, and stop at a zero divisor.
-/

namespace Brushwork

/-! ### Operators -/

lemma Op.apply_sub (a b : Int) : Op.sub.apply a b = .ok (a - b) := rfl

lemma Op.apply_div (a b : Int) :
    Op.div.apply a b = if b = 0 then .error .divisionByZero else .ok (truncDiv a b) := rfl

lemma Op.apply_mod (a b : Int) :
    Op.mod.apply a b = if b = 0 then .error .moduloByZero else .ok (a - b * truncDiv a b) := rfl

/-- **An operator** is applied to the values of its operands. -/
lemma Easel.eval_op {easel : Easel} {l r : Expr} {a b : Int} (hl : easel.eval l = .ok a)
    (hr : easel.eval r = .ok b) (op : Op) (m : Mark) :
    easel.eval (.binary m l op.symbol r) = op.apply a b := by
  rw [eval, hl, hr, Op.ofSymbol?_symbol]
  rfl

/-! ### Literals -/

namespace Expr

/-- The expression is the number `n` with `k` minus signs in front of it. -/
inductive Signed : Nat → Int → Expr → Prop
  | number (m : Mark) (n : Int) : Signed 0 n (.lit m (.int n))
  | minus (m m' : Mark) {k : Nat} {n : Int} {e : Expr} (h : Signed k n e) :
      Signed (k + 1) n (.binary m (.lit m' (.int 0)) "-" e)

variable {e : Expr} {k : Nat} {n v : Int}

lemma Signed.intLiteral?_eq (h : Signed k n e) : e.intLiteral? = some ((-1) ^ k * n) := by
  induction h with
  | number => rw [intLiteral?, pow_zero, one_mul]
  | minus m m' _ ih => rw [intLiteral?, ih, Option.map_some, pow_succ, mul_neg_one, neg_mul]

/-- No other expression has a value that is known beforehand. -/
lemma signed_of_intLiteral? (h : e.intLiteral? = some v) : ∃ k n, Signed k n e ∧ v = (-1) ^ k * n := by
  induction e using Expr.ind generalizing v with
  | lit m value =>
      cases value with
      | int n =>
          obtain rfl := Option.some.inj h
          exact ⟨0, n, .number m n, by simp⟩
      | bool | text => cases h
  | binary m l symbol r _ ihr =>
      rw [intLiteral?_binary] at h
      split at h
      · next hzero =>
        obtain ⟨hl, rfl⟩ := hzero
        obtain ⟨m', rfl⟩ := eq_lit_of_isZero hl
        obtain ⟨w, hw, rfl⟩ := Option.map_eq_some_iff.1 h
        obtain ⟨k, n, hsigned, rfl⟩ := ihr hw
        exact ⟨k + 1, n, .minus m m' hsigned, by rw [pow_succ, mul_neg_one, neg_mul]⟩
      · cases h
  | var | group | call | foreign => cases h

/-- **Minus signs in front of a number** are carried out in every state. -/
lemma Signed.eval (h : Signed k n e) (easel : Easel) : easel.eval e = .ok ((-1) ^ k * n) := by
  induction h with
  | number => rw [Easel.eval, pow_zero, one_mul]
  | minus m m' _ ih =>
      have hzero : easel.eval (.lit m' (.int 0)) = .ok 0 := by rw [Easel.eval]
      have hminus := Easel.eval_op hzero ih .sub m
      rw [Op.apply_sub] at hminus
      rw [pow_succ, mul_neg_one, neg_mul, ← zero_sub]
      exact hminus

end Expr

open Grammar

/-- **A literal foretells its value.** The value of an expression is known beforehand exactly if it is a
number behind minus signs, however many, and then it is the value in every state. So in a program that
was read without errors, from whatever tokens, a direction whose value is known beforehand is one step
at most when the program runs. -/
theorem literal_foretells (e : Expr) :
    (∀ v, e.intLiteral? = some v ↔ ∃ k n, Expr.Signed k n e ∧ v = (-1) ^ k * n) ∧
      (∀ v, e.intLiteral? = some v → ∀ easel : Easel, easel.eval e = .ok v) ∧
      ∀ ts : List Token, (∃ t ∈ ts, t.kind = .eof) → (Parse.ofTokens ts).errors = [] →
        ∀ s ∈ (Parse.ofTokens ts).program.statements.toList, e ∈ s.action.directions →
          e.intLiteral? ≠ none → ∀ easel : Easel,
            easel.eval e = .ok (-1) ∨ easel.eval e = .ok 0 ∨ easel.eval e = .ok 1 := by
  have heval : ∀ v, e.intLiteral? = some v → ∀ easel : Easel, easel.eval e = .ok v := by
    intro v hv easel
    obtain ⟨k, n, hsigned, rfl⟩ := Expr.signed_of_intLiteral? hv
    exact hsigned.eval easel
  refine ⟨fun v => ⟨Expr.signed_of_intLiteral?, ?_⟩, heval, ?_⟩
  · rintro ⟨k, n, hsigned, rfl⟩
    exact hsigned.intLiteral?_eq
  · intro ts hclosed herrors s hs he hliteral easel
    obtain ⟨v, hv⟩ := Option.ne_none_iff_exists'.1 hliteral
    have hnear := (wellFormed_ofTokens hclosed herrors).1.directions_near s hs e he v hv
    rw [heval v hv easel]
    simpa using hnear

/-- A text with minus signs in front of its directions, and a character that begins nothing. -/
def negatingText : String := "Spawn(0, 0)\nDrawRectangle(---1, @--0, 2, 1, 1)"

/-- The character is a fault of the text, but the tokens are read without errors. -/
theorem literal_foretells_negatingText :
    ∃ scan s e, scan? negatingText = some scan ∧ scan.errors ≠ [] ∧
      (∃ t ∈ scan.closed, t.kind = .eof) ∧ (Parse.ofTokens scan.closed).errors = [] ∧
      s ∈ (Parse.ofTokens scan.closed).program.statements.toList ∧ e ∈ s.action.directions ∧
      e.intLiteral? = some (-1) ∧ (∃ k n, Expr.Signed k n e ∧ (-1 : Int) = (-1) ^ k * n) ∧
      ∀ easel : Easel, easel.eval e = .ok (-1) ∧
        (easel.eval e = .ok (-1) ∨ easel.eval e = .ok 0 ∨ easel.eval e = .ok 1) := by
  have hread : (scan? negatingText).any (fun scan =>
      scan.errors ≠ [] ∧ (∃ t ∈ scan.closed, t.kind = .eof) ∧
        (Parse.ofTokens scan.closed).errors = [] ∧
        some (-1) ∈ ((Parse.ofTokens scan.closed).program.statements.toList.flatMap
          (·.action.directions)).map Expr.intLiteral?) = true := by decide +kernel
  obtain ⟨scan, hscan, hread⟩ := (Option.any_eq_true _ _).1 hread
  obtain ⟨hfaults, hclosed, herrors, hdirections⟩ := of_decide_eq_true hread
  obtain ⟨e, he, hvalue⟩ := List.mem_map.1 hdirections
  obtain ⟨s, hs, he⟩ := List.mem_flatMap.1 he
  obtain ⟨hsigned, heval, hnear⟩ := literal_foretells e
  refine ⟨scan, s, e, hscan, hfaults, hclosed, herrors, hs, he, hvalue, (hsigned _).1 hvalue, ?_⟩
  exact fun easel => ⟨heval _ hvalue easel,
    hnear scan.closed hclosed herrors s hs he (by simp [hvalue]) easel⟩

/-! ### Quotients -/

/-- The quotient `q` and the remainder `m` of `a` by `b`, toward zero. -/
structure Truncates (a b q m : Int) : Prop where
  sum : a = b * q + m
  small : |m| < |b|
  sign : m = 0 ∨ m.sign = a.sign

namespace Truncates

variable {a b q m q' m' : Int}

lemma divisor_ne_zero (h : Truncates a b q m) : b ≠ 0 :=
  abs_pos.1 (lt_of_le_of_lt (abs_nonneg m) h.small)

lemma nonneg (h : Truncates a b q m) (ha : 0 ≤ a) : 0 ≤ m := by
  rcases h.sign with rfl | hsign
  · exact le_rfl
  · rwa [← Int.sign_nonneg_iff, hsign, Int.sign_nonneg_iff]

lemma nonpos (h : Truncates a b q m) (ha : a ≤ 0) : m ≤ 0 := by
  rcases h.sign with rfl | hsign
  · exact le_rfl
  · rwa [← Int.sign_nonpos_iff, hsign, Int.sign_nonpos_iff]

/-- Remainders on the same side of zero are less than the divisor apart. -/
lemma abs_sub_lt (h : Truncates a b q m) (h' : Truncates a b q' m') : |m' - m| < |b| := by
  have hm := abs_lt.1 h.small
  have hm' := abs_lt.1 h'.small
  rw [abs_lt]
  rcases le_total 0 a with ha | ha
  · have hnonneg := h.nonneg ha
    have hnonneg' := h'.nonneg ha
    omega
  · have hnonpos := h.nonpos ha
    have hnonpos' := h'.nonpos ha
    omega

/-- **There is one such pair.** -/
theorem unique (h : Truncates a b q m) (h' : Truncates a b q' m') : q' = q ∧ m' = m := by
  have hmul : m' - m = b * (q - q') := by
    have hsum := h.sum.symm.trans h'.sum
    rw [mul_sub]
    omega
  have hm : m' - m = 0 :=
    Int.eq_zero_of_abs_lt_dvd ((abs_dvd b _).2 ⟨_, hmul⟩) (h.abs_sub_lt h')
  have hq : q - q' = 0 := (mul_eq_zero.1 (hmul.symm.trans hm)).resolve_left h.divisor_ne_zero
  omega

/-- The part that is cut off lies on the same side of zero as the quotient. -/
lemma part_nonneg (h : Truncates a b q m) (hquotient : 0 ≤ (a : ℚ) / b) : 0 ≤ (m : ℚ) / b := by
  rcases div_nonneg_iff.1 hquotient with ⟨ha, hb⟩ | ⟨ha, hb⟩
  · exact div_nonneg (by exact_mod_cast h.nonneg (by exact_mod_cast ha)) hb
  · exact div_nonneg_of_nonpos (by exact_mod_cast h.nonpos (by exact_mod_cast ha)) hb

lemma part_nonpos (h : Truncates a b q m) (hquotient : (a : ℚ) / b < 0) : (m : ℚ) / b ≤ 0 := by
  rcases div_neg_iff.1 hquotient with ⟨ha, hb⟩ | ⟨ha, hb⟩
  · have hm : (0 : ℚ) ≤ m := by exact_mod_cast h.nonneg (by exact_mod_cast ha.le)
    exact div_nonpos_of_nonneg_of_nonpos hm hb.le
  · have hm : (m : ℚ) ≤ 0 := by exact_mod_cast h.nonpos (by exact_mod_cast ha.le)
    exact div_nonpos_of_nonpos_of_nonneg hm hb.le

/-- **The quotient is rounded toward zero.** -/
theorem toward_zero (h : Truncates a b q m) :
    q = if 0 ≤ (a : ℚ) / b then ⌊(a : ℚ) / b⌋ else ⌈(a : ℚ) / b⌉ := by
  have hb : (b : ℚ) ≠ 0 := by exact_mod_cast h.divisor_ne_zero
  have hsum : (a : ℚ) / b = q + m / b := by
    rw [h.sum]
    push_cast
    field_simp
  have hpart : |(m : ℚ) / b| < 1 := by
    rw [abs_div, div_lt_one (abs_pos.2 hb)]
    exact_mod_cast h.small
  obtain ⟨hlower, hupper⟩ := abs_lt.1 hpart
  split
  · next hquotient =>
    have hnonneg := h.part_nonneg hquotient
    rw [eq_comm, Int.floor_eq_iff, hsum]
    constructor <;> linarith
  · next hquotient =>
    have hnonpos := h.part_nonpos (not_le.1 hquotient)
    rw [eq_comm, Int.ceil_eq_iff, hsum]
    constructor <;> linarith

/-- The size of the quotient is the quotient of the sizes, rounded down. -/
theorem abs_quotient (h : Truncates a b q m) : |q| = ⌊|(a : ℚ)| / |(b : ℚ)|⌋ := by
  rw [← abs_div, h.toward_zero]
  split
  · next hquotient => rw [abs_of_nonneg hquotient, abs_of_nonneg (Int.floor_nonneg.2 hquotient)]
  · next hquotient =>
    have hneg : (a : ℚ) / b ≤ 0 := (not_le.1 hquotient).le
    rw [abs_of_nonpos hneg, Int.floor_neg, abs_of_nonpos (Int.ceil_nonpos.2 hneg)]

end Truncates

/-- **The quotient of the absolute values**, with its sign, is the quotient toward zero. The four cases
are those of the two signs, where zero counts as positive. -/
theorem truncDiv_eq_tdiv (a b : Int) : truncDiv a b = a.tdiv b := by
  rw [truncDiv]
  rcases le_or_gt 0 a with ha | ha <;> rcases le_or_gt 0 b with hb | hb
  · rw [if_pos (iff_of_true ha hb), Int.natAbs_of_nonneg ha, Int.natAbs_of_nonneg hb,
      Int.tdiv_eq_ediv_of_nonneg ha]
  · rw [if_neg (by omega), Int.natAbs_of_nonneg ha, Int.ofNat_natAbs_of_nonpos hb.le,
      Int.tdiv_eq_ediv_of_nonneg ha, Int.ediv_neg, neg_neg]
  · rw [if_neg (by omega), Int.ofNat_natAbs_of_nonpos ha.le, Int.natAbs_of_nonneg hb,
      ← Int.tdiv_eq_ediv_of_nonneg (by omega), Int.neg_tdiv, neg_neg]
  · rw [if_pos (by omega), Int.ofNat_natAbs_of_nonpos ha.le, Int.ofNat_natAbs_of_nonpos hb.le,
      ← Int.tdiv_eq_ediv_of_nonneg (by omega), Int.neg_tdiv, Int.tdiv_neg, neg_neg]

/-- What that quotient leaves of the dividend is the remainder. -/
theorem sub_mul_truncDiv (a b : Int) : a - b * truncDiv a b = a.tmod b := by
  rw [truncDiv_eq_tdiv, Int.tmod_def]

lemma truncates_tdiv (a : Int) {b : Int} (hb : b ≠ 0) : Truncates a b (a.tdiv b) (a.tmod b) := by
  refine ⟨(Int.mul_tdiv_add_tmod a b).symm, ?_, ?_⟩
  · rw [Int.abs_eq_natAbs, Int.abs_eq_natAbs, Int.natAbs_tmod]
    exact_mod_cast Nat.mod_lt _ (Int.natAbs_pos.2 hb)
  · rw [← Int.sign_eq_zero_iff_zero, Int.sign_tmod]
    split
    · exact .inl rfl
    · exact .inr rfl

/-- **Division and remainder go toward zero**, for operands of any size and sign. They are the one pair
that does, and where the divisor is zero both stop. -/
theorem division_truncates {easel : Easel} {l r : Expr} {a b : Int} (hl : easel.eval l = .ok a)
    (hr : easel.eval r = .ok b) (mark : Mark) :
    (b ≠ 0 → ∃ q m, easel.eval (.binary mark l "/" r) = .ok q ∧
      easel.eval (.binary mark l "%" r) = .ok m ∧ q = truncDiv a b ∧ m = a - b * truncDiv a b ∧
      Truncates a b q m ∧ (∀ q' m', Truncates a b q' m' → q' = q ∧ m' = m) ∧
      |q| = ⌊|(a : ℚ)| / |(b : ℚ)|⌋ ∧
      q = if 0 ≤ (a : ℚ) / b then ⌊(a : ℚ) / b⌋ else ⌈(a : ℚ) / b⌉) ∧
    (b = 0 → easel.eval (.binary mark l "/" r) = .error .divisionByZero ∧
      easel.eval (.binary mark l "%" r) = .error .moduloByZero) := by
  have hdiv := Easel.eval_op hl hr .div mark
  have hmod := Easel.eval_op hl hr .mod mark
  rw [Op.apply_div] at hdiv
  rw [Op.apply_mod] at hmod
  constructor
  · intro hb
    rw [if_neg hb] at hdiv hmod
    have h : Truncates a b (truncDiv a b) (a - b * truncDiv a b) := by
      rw [sub_mul_truncDiv, truncDiv_eq_tdiv]
      exact truncates_tdiv a hb
    exact ⟨_, _, hdiv, hmod, rfl, rfl, h, fun q' m' h' => h.unique h', h.abs_quotient, h.toward_zero⟩
  · intro hb
    rw [if_pos hb] at hdiv hmod
    exact ⟨hdiv, hmod⟩

/-- A dividend below zero. -/
def minusSeven : Expr := .negated .none (.lit .none (.int 7))

theorem division_truncates_minusSeven :
    (Easel.new 1).eval minusSeven = .ok (-7) ∧ (Easel.new 1).eval (.lit .none (.int 2)) = .ok 2 ∧
      (∃ q m, (Easel.new 1).eval (.binary .none minusSeven "/" (.lit .none (.int 2))) = .ok q ∧
        (Easel.new 1).eval (.binary .none minusSeven "%" (.lit .none (.int 2))) = .ok m ∧
        Truncates (-7) 2 q m ∧ q = -3 ∧ m = -1) ∧
      (Easel.new 1).eval (.lit .none (.int 0)) = .ok 0 ∧
      (Easel.new 1).eval (.binary .none minusSeven "/" (.lit .none (.int 0))) =
        .error .divisionByZero ∧
      (Easel.new 1).eval (.binary .none minusSeven "%" (.lit .none (.int 0))) =
        .error .moduloByZero := by
  have hseven : (Easel.new 1).eval minusSeven = .ok (-7) := rfl
  have htwo : (Easel.new 1).eval (.lit .none (.int 2)) = .ok 2 := rfl
  have hzero : (Easel.new 1).eval (.lit .none (.int 0)) = .ok 0 := rfl
  obtain ⟨q, m, hdiv, hmod, -, -, hpair, hunique, -⟩ :=
    (division_truncates hseven htwo .none).1 (by decide)
  obtain ⟨hq, hm⟩ := hunique (-3) (-1) ⟨by decide, by decide, by decide⟩
  exact ⟨hseven, htwo, ⟨q, m, hdiv, hmod, hpair, hq.symm, hm.symm⟩, hzero,
    (division_truncates hseven hzero .none).2 rfl⟩

end Brushwork
