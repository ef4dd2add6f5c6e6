import Mathlib.Computability.Language
import Brushwork.Editor.Highlight
import Brushwork.Proofs.Token.Context

/-!
The strings that the editor colors are those of the program.

The editor looks for strings with a regular expression, line by line, and the scanner with a search for
the closing quote. They agree on every line:

* `Regex.language`: the words of a regular expression. `Regex.mem_quotation`: those of the expression
  for strings are a quote, an inside, and a quote.
* `closing?_eq_some_iff`: the editor finds the quote that closes such an inside.
* `Successive`: matches in a row, each the leftmost one behind those before it.
  `successive_iff`: the spans that the editor finds are such a row, and there is no other.
* `stringSpansFrom_of_open`: behind a quote that nothing closes no string begins, though the scanner
  takes all of the text there and the editor looks again at each later quote.
* `stringSpansFrom_segments`: the spans found in segments are those of their tokens.
* `styleAt?`: how a place looks when all has been laid on.
* `strings_highlighted`: the strings of a line are colored as strings, whatever else is found in them.
-/

namespace Brushwork.Editor

open Segment

/-! ### Regular expressions -/

/-- Regular expressions. -/
inductive Regex where
  /-- The character itself. -/
  | char (c : Char)
  /-- Any character but these. -/
  | noneOf (cs : List Char)
  /-- Any character but a line end. -/
  | dot
  | seq (r s : Regex)
  | star (r : Regex)

namespace Regex

open scoped Computability

/-- The characters that stand for something else, unless a backslash comes before them. -/
def special : List Char := "\\.*+?()[]|^$\x7b\x7d".toList

/-- How a character is written. -/
def letter (c : Char) : String :=
  if c ∈ special then "\\" ++ String.singleton c else String.singleton c

/-- How an expression is written. What is repeated stands in parentheses if it is more than a single
character. -/
def written : Regex → String
  | char c => letter c
  | noneOf cs => "[^" ++ String.join (cs.map letter) ++ "]"
  | dot => "."
  | seq r s => r.written ++ s.written
  | star (seq r s) => "(?:" ++ (r.written ++ s.written) ++ ")*"
  | star r => r.written ++ "*"

/-- The words that match an expression. -/
def language : Regex → Language Char
  | char c => {[c]}
  | noneOf cs => {w | ∃ c ∉ cs, w = [c]}
  | dot => {w | ∃ c ≠ '\n', w = [c]}
  | seq r s => r.language * s.language
  | star r => r.language∗

/-- Ordinary characters of a string. -/
def plain : Regex := star (noneOf ['"', '\\'])

/-- A backslash with the character behind it, and ordinary characters after these. -/
def escaped : Regex := seq (char '\\') (seq dot plain)

/-- A string with both its quotes. -/
def quotation : Regex := seq (char '"') (seq (seq plain (star escaped)) (char '"'))

lemma quotation_written : Pattern.string.regex = quotation.written := by decide

/-! ### The words of the expression for strings -/

variable {w u : List Char}

lemma mem_noneOf {cs : List Char} : w ∈ (noneOf cs).language ↔ ∃ c ∉ cs, w = [c] := Iff.rfl

lemma mem_seq {r s : Regex} :
    w ∈ (seq r s).language ↔ ∃ a ∈ r.language, ∃ b ∈ s.language, a ++ b = w :=
  Language.mem_mul

lemma nil_mem_star (r : Regex) : [] ∈ (star r).language := Language.nil_mem_kstar _

lemma append_mem_star {r : Regex} (hw : w ∈ r.language) (hu : u ∈ (star r).language) :
    w ++ u ∈ (star r).language := by
  obtain ⟨words, rfl, hwords⟩ := Language.mem_kstar.1 hu
  exact Language.mem_kstar.2 ⟨w :: words, rfl, List.forall_mem_cons.2 ⟨hw, hwords⟩⟩

/-- What holds of the empty word, and of a word with one more in front, holds of all repetitions. -/
lemma star_induction {r : Regex} {P : List Char → Prop} (nil : P [])
    (append : ∀ w u, w ∈ r.language → P u → P (w ++ u)) (hw : w ∈ (star r).language) : P w := by
  obtain ⟨words, rfl, hwords⟩ := Language.mem_kstar.1 hw
  induction words with
  | nil => exact nil
  | cons v words ih =>
      obtain ⟨hv, hwords⟩ := List.forall_mem_cons.1 hwords
      exact append v _ hv (ih hwords (Language.join_mem_kstar hwords))

lemma mem_plain : w ∈ plain.language ↔ ∀ c ∈ w, c ≠ '"' ∧ c ≠ '\\' := by
  constructor
  · refine star_induction (P := fun w => ∀ c ∈ w, c ≠ '"' ∧ c ≠ '\\') (List.forall_mem_nil _)
      fun v u hv hu => ?_
    obtain ⟨c, hc, rfl⟩ := mem_noneOf.1 hv
    simp only [List.mem_cons, List.not_mem_nil, or_false, not_or] at hc
    exact List.forall_mem_append.2 ⟨List.forall_mem_singleton.2 hc, hu⟩
  · intro h
    induction w with
    | nil => exact nil_mem_star _
    | cons c w ih =>
        obtain ⟨hc, hw⟩ := List.forall_mem_cons.1 h
        exact append_mem_star (mem_noneOf.2 ⟨c, by simp [hc], rfl⟩) (ih hw)

lemma mem_escaped :
    w ∈ escaped.language ↔ ∃ c ≠ '\n', ∃ u ∈ plain.language, w = '\\' :: c :: u := by
  constructor
  · intro h
    obtain ⟨_, rfl, _, hrest, rfl⟩ := mem_seq.1 h
    obtain ⟨_, ⟨c, hc, rfl⟩, u, hu, rfl⟩ := mem_seq.1 hrest
    exact ⟨c, hc, u, hu, rfl⟩
  · rintro ⟨c, hc, u, hu, rfl⟩
    exact mem_seq.2 ⟨['\\'], rfl, c :: u, mem_seq.2 ⟨[c], ⟨c, hc, rfl⟩, u, hu, rfl⟩, rfl⟩

/-- What stands between two quotes, where no line end stands behind a backslash. -/
structure Holds (cs : List Char) : Prop where
  inside : Inside cs
  shown : hiddenEnds cs = 0

lemma holds_escaped {c : Char} : Holds ('\\' :: c :: w) ↔ c ≠ '\n' ∧ Holds w := by
  constructor
  · rintro ⟨hinside, hshown⟩
    rw [hiddenEnds] at hshown
    have hc : c ≠ '\n' := by
      intro hc
      rw [if_pos hc] at hshown
      omega
    cases hinside with
    | escaped _ h => exact ⟨hc, h, by omega⟩
    | plain _ hslash => exact absurd rfl hslash
  · rintro ⟨hc, hinside, hshown⟩
    refine ⟨.escaped c hinside, ?_⟩
    rw [hiddenEnds, if_neg hc, hshown]

/-- A character that is no backslash hides nothing. -/
lemma hiddenEnds_plain {c : Char} (hslash : c ≠ '\\') (cs : List Char) :
    hiddenEnds (c :: cs) = hiddenEnds cs := by
  rw [hiddenEnds]
  exact fun _ _ hc _ => hslash hc

lemma holds_plain {c : Char} (hquote : c ≠ '"') (hslash : c ≠ '\\') :
    Holds (c :: w) ↔ Holds w := by
  have hends := hiddenEnds_plain hslash w
  constructor
  · rintro ⟨hinside, hshown⟩
    cases hinside with
    | escaped => exact absurd rfl hslash
    | plain _ _ h => exact ⟨h, hends ▸ hshown⟩
  · rintro ⟨hinside, hshown⟩
    exact ⟨.plain hquote hslash hinside, hends.trans hshown⟩

lemma holds_append (hw : w ∈ plain.language) (hu : Holds u) : Holds (w ++ u) := by
  rw [mem_plain] at hw
  induction w with
  | nil => exact hu
  | cons c w ih =>
      obtain ⟨⟨hquote, hslash⟩, hw⟩ := List.forall_mem_cons.1 hw
      exact (holds_plain hquote hslash).2 (ih hw)

lemma mem_inner : w ∈ (seq plain (star escaped)).language ↔ Holds w := by
  constructor
  · intro h
    obtain ⟨v, hv, u, hu, rfl⟩ := mem_seq.1 h
    refine holds_append hv (star_induction ⟨.nil, rfl⟩ (fun w u hw hu => ?_) hu)
    obtain ⟨c, hc, v, hv, rfl⟩ := mem_escaped.1 hw
    exact holds_escaped.2 ⟨hc, holds_append hv hu⟩
  · intro h
    induction h.inside with
    | nil => exact mem_seq.2 ⟨[], nil_mem_star _, [], nil_mem_star _, rfl⟩
    | @escaped c w _ ih =>
        obtain ⟨hc, hw⟩ := holds_escaped.1 h
        obtain ⟨v, hv, u, hu, rfl⟩ := mem_seq.1 (ih hw)
        have hfirst : '\\' :: c :: v ∈ escaped.language := mem_escaped.2 ⟨c, hc, v, hv, rfl⟩
        exact mem_seq.2 ⟨[], nil_mem_star _, _, append_mem_star hfirst hu, rfl⟩
    | @plain c w hquote hslash _ ih =>
        obtain ⟨v, hv, u, hu, rfl⟩ := mem_seq.1 (ih ((holds_plain hquote hslash).1 h))
        have hv' : c :: v ∈ plain.language :=
          mem_plain.2 (List.forall_mem_cons.2 ⟨⟨hquote, hslash⟩, mem_plain.1 hv⟩)
        exact mem_seq.2 ⟨c :: v, hv', u, hu, rfl⟩

/-- **The words of the expression for strings** are a quote, an inside, and a quote. -/
theorem mem_quotation :
    w ∈ quotation.language ↔ ∃ inside, Holds inside ∧ w = '"' :: inside ++ ['"'] := by
  constructor
  · intro h
    obtain ⟨_, rfl, _, hrest, rfl⟩ := mem_seq.1 h
    obtain ⟨inside, hinside, _, rfl, rfl⟩ := mem_seq.1 hrest
    exact ⟨inside, mem_inner.1 hinside, rfl⟩
  · rintro ⟨inside, hinside, rfl⟩
    exact mem_seq.2 ⟨['"'], rfl, inside ++ ['"'],
      mem_seq.2 ⟨inside, mem_inner.2 hinside, ['"'], rfl, rfl⟩, rfl⟩

end Regex

/-! ### The closing quote -/

open Regex

lemma closing?_plain {c : Char} (hquote : c ≠ '"') (hslash : c ≠ '\\') (cs : List Char) :
    closing? (c :: cs) = (closing? cs).map (· + 1) := by
  rw [closing?]
  · exact fun hc => hquote hc
  · exact fun hc _ => hslash hc
  · exact fun _ _ hc _ => hslash hc

lemma closing?_of_inside {inside : List Char} (h : Inside inside) (rest : List Char) :
    closing? (inside ++ '"' :: rest) =
      if hiddenEnds inside = 0 then some (inside.length + 1) else none := by
  induction h with
  | nil => rfl
  | @escaped c cs _ ih =>
      rw [List.cons_append, List.cons_append, closing?, ih, hiddenEnds]
      by_cases hc : c = '\n'
      · rw [if_pos hc, if_pos hc, if_neg (by omega)]
      · rw [if_neg hc, if_neg hc, Nat.zero_add]
        split <;> rfl
  | plain hquote hslash _ ih =>
      rw [List.cons_append, closing?_plain hquote hslash, ih, hiddenEnds_plain hslash]
      split <;> rfl

lemma closing?_of_open {cs : List Char} (h : Open cs) : closing? cs = none := by
  induction h with
  | nil => rfl
  | slash => rfl
  | escaped c _ ih => rw [closing?, ih, Option.map_none, ite_self]
  | plain hquote hslash _ ih => rw [closing?_plain hquote hslash, ih, Option.map_none]

/-- **The closing quote** that the editor finds stands behind an inside of a string. -/
theorem closing?_eq_some_iff {cs : List Char} {n : Nat} :
    closing? cs = some n ↔
      ∃ inside rest, Holds inside ∧ cs = inside ++ '"' :: rest ∧ n = inside.length + 1 := by
  constructor
  · intro h
    rcases closeQuote?_cases cs with ⟨inside, rest, hclose, hinside⟩ | ⟨-, hopen⟩
    · obtain rfl := closeQuote?_append hclose
      rw [closing?_of_inside hinside] at h
      split at h
      · next hshown => exact ⟨inside, rest, ⟨hinside, hshown⟩, rfl, (Option.some.inj h).symm⟩
      · cases h
    · simp [closing?_of_open hopen] at h
  · rintro ⟨inside, rest, ⟨hinside, hshown⟩, rfl, rfl⟩
    rw [closing?_of_inside hinside, if_pos hshown]

/-! ### Successive matches -/

section Successive

variable {L : Language Char} {cs : List Char} {i : Nat}

/-- The stretch of the text is a word of the language. -/
def MatchesAt (L : Language Char) (cs : List Char) (s : Span) : Prop :=
  ∃ w ∈ L, w.length = s.length ∧ w <+: cs.drop s.start

/-- These are matches in the text, one behind the other from the place `i` on: each is the leftmost
match behind those before it, and there is none behind the last. -/
def Successive (L : Language Char) (cs : List Char) : Nat → List Span → Prop
  | i, [] => ∀ t, MatchesAt L cs t → t.start < i
  | i, s :: ss =>
    i ≤ s.start ∧ MatchesAt L cs s ∧ (∀ t, MatchesAt L cs t → t.start < i ∨ s.start ≤ t.start) ∧
      Successive L cs (s.start + s.length) ss

/-- Where no match begins, the search goes on at the next place. -/
lemma Successive.skip {ss : List Span} (h : Successive L cs (i + 1) ss)
    (hnone : ∀ t, MatchesAt L cs t → t.start ≠ i) : Successive L cs i ss := by
  cases ss with
  | nil =>
      intro t ht
      have hlt := h t ht
      have hne := hnone t ht
      omega
  | cons s ss =>
      obtain ⟨hle, hs, hleft, hss⟩ := h
      refine ⟨by omega, hs, fun t ht => ?_, hss⟩
      have hlt := hleft t ht
      have hne := hnone t ht
      omega

/-- Where at most one match begins at each place, the search has one outcome. -/
theorem Successive.unique
    (hone : ∀ s t, MatchesAt L cs s → MatchesAt L cs t → s.start = t.start → s = t)
    {ss ts : List Span} (hss : Successive L cs i ss) (hts : Successive L cs i ts) : ss = ts := by
  induction ss generalizing ts i with
  | nil =>
      cases ts with
      | nil => rfl
      | cons t ts =>
          obtain ⟨hle, ht, -⟩ := hts
          have hlt := hss t ht
          omega
  | cons s ss ih =>
      obtain ⟨hsle, hs, hsleft, hss⟩ := hss
      cases ts with
      | nil =>
          have hlt := hts s hs
          omega
      | cons t ts =>
          obtain ⟨htle, ht, htleft, hts⟩ := hts
          have hstart : s.start = t.start := by
            have hst := hsleft t ht
            have hts := htleft s hs
            omega
          obtain rfl := hone s t hs ht hstart
          rw [ih hss hts]

end Successive

/-- **A match begins** where the editor finds a closing quote behind a quote, and it ends there. -/
lemma exists_prefix_iff {cs : List Char} {n : Nat} :
    (∃ w ∈ quotation.language, w.length = n ∧ w <+: cs) ↔
      ∃ rest k, cs = '"' :: rest ∧ closing? rest = some k ∧ n = k + 1 := by
  constructor
  · rintro ⟨w, hw, rfl, rest, rfl⟩
    obtain ⟨inside, hinside, rfl⟩ := mem_quotation.1 hw
    refine ⟨inside ++ '"' :: rest, inside.length + 1, by simp, ?_, by simp⟩
    exact closing?_eq_some_iff.2 ⟨inside, rest, hinside, rfl, rfl⟩
  · rintro ⟨rest, k, rfl, hclosing, rfl⟩
    obtain ⟨inside, rest, hinside, rfl, rfl⟩ := closing?_eq_some_iff.1 hclosing
    exact ⟨_, mem_quotation.2 ⟨inside, hinside, rfl⟩, by simp, rest, by simp⟩

/-- At most one match begins at each place. -/
lemma matchesAt_unique {cs : List Char} {s t : Span} (hs : MatchesAt quotation.language cs s)
    (ht : MatchesAt quotation.language cs t) (hstart : s.start = t.start) : s = t := by
  obtain ⟨rest, k, hcs, hk, hslength⟩ := exists_prefix_iff.1 hs
  obtain ⟨rest', k', hcs', hk', htlength⟩ := exists_prefix_iff.1 ht
  rw [hstart, hcs'] at hcs
  obtain ⟨-, rfl⟩ := List.cons.inj hcs
  obtain rfl := Option.some.inj (hk.symm.trans hk')
  obtain ⟨start, length⟩ := s
  obtain ⟨start', length'⟩ := t
  simp_all

lemma matchesAt_append {pre cs : List Char} {t : Span} (ht : t.start = pre.length) :
    MatchesAt quotation.language (pre ++ cs) t ↔
      ∃ rest k, cs = '"' :: rest ∧ closing? rest = some k ∧ t.length = k + 1 := by
  rw [MatchesAt, ht, List.drop_left, exists_prefix_iff]

/-- **The editor finds successive matches.** -/
theorem successive_stringSpansFrom (pre cs : List Char) {i : Nat} (hi : i = pre.length) :
    Successive quotation.language (pre ++ cs) i (stringSpansFrom i cs) := by
  fun_induction stringSpansFrom i cs generalizing pre with
  | case1 i =>
      intro t ht
      by_contra hge
      obtain ⟨rest, k, hcs, -⟩ := exists_prefix_iff.1 ht
      have hdrop : (pre ++ []).drop t.start = [] := by
        rw [List.append_nil, List.drop_eq_nil_iff]
        omega
      cases hdrop.symm.trans hcs
  | case2 i rest n hn ih =>
      obtain ⟨inside, rest, -, rfl, rfl⟩ := closing?_eq_some_iff.1 hn
      have hmatch : MatchesAt quotation.language (pre ++ '"' :: (inside ++ '"' :: rest))
          ⟨i, inside.length + 1 + 1⟩ := (matchesAt_append hi).2 ⟨_, _, rfl, hn, rfl⟩
      refine ⟨le_rfl, hmatch, fun t _ => lt_or_ge t.start i, ?_⟩
      -- the search goes on behind the closing quote
      have hdrop : (inside ++ '"' :: rest).drop (inside.length + 1) = rest := by
        rw [List.append_cons, List.drop_left' (by simp)]
      have hbehind := ih (pre ++ '"' :: (inside ++ ['"'])) (by simp; omega)
      rw [hdrop] at hbehind ⊢
      simpa [Nat.add_assoc] using hbehind
  | case3 i rest hnone ih =>
      have hnext := ih (pre ++ ['"']) (by simp [hi])
      rw [List.append_assoc] at hnext
      refine hnext.skip fun t ht hstart => ?_
      obtain ⟨rest', k, hcs, hk, -⟩ := (matchesAt_append (hstart.trans hi)).1 ht
      obtain ⟨-, rfl⟩ := List.cons.inj hcs
      simp [hnone] at hk
  | case4 i c rest hquote ih =>
      have hnext := ih (pre ++ [c]) (by simp [hi])
      rw [List.append_assoc] at hnext
      refine hnext.skip fun t ht hstart => ?_
      obtain ⟨rest', k, hcs, -⟩ := (matchesAt_append (hstart.trans hi)).1 ht
      exact hquote (List.cons.inj hcs).1

/-- **No other matches are successive**, in whichever way a match is chosen where several begin. -/
theorem successive_iff {cs : List Char} {spans : List Span} :
    Successive quotation.language cs 0 spans ↔ spans = stringSpansFrom 0 cs := by
  have hfound : Successive quotation.language cs 0 (stringSpansFrom 0 cs) :=
    successive_stringSpansFrom [] cs rfl
  constructor
  · intro h
    exact h.unique (fun _ _ => matchesAt_unique) hfound
  · rintro rfl
    exact hfound

/-! ### Strings and segments -/

section Segments

variable {cs rest : List Char}

lemma stringSpansFrom_other {c : Char} (hc : c ≠ '"') (i : Nat) :
    stringSpansFrom i (c :: cs) = stringSpansFrom (i + 1) cs := by
  rw [stringSpansFrom]
  exact hc

lemma stringSpansFrom_append {w : List Char} (hw : '"' ∉ w) (i : Nat) :
    stringSpansFrom i (w ++ rest) = stringSpansFrom (i + w.length) rest := by
  induction w generalizing i with
  | nil => rfl
  | cons c w ih =>
      obtain ⟨hc, hw⟩ := not_or.1 (mt List.mem_cons.2 hw)
      rw [List.cons_append, stringSpansFrom_other (Ne.symm hc), ih hw, List.length_cons,
        Nat.add_assoc, Nat.add_comm 1]

/-- A string is found, and the search goes on behind it. -/
lemma stringSpansFrom_string {inside : List Char} (h : Holds inside) (i : Nat) :
    stringSpansFrom i ('"' :: inside ++ ['"'] ++ rest) =
      ⟨i, inside.length + 2⟩ :: stringSpansFrom (i + (inside.length + 2)) rest := by
  have hclosing := closing?_eq_some_iff.2 ⟨inside, rest, h, rfl, rfl⟩
  have htext : '"' :: inside ++ ['"'] ++ rest = '"' :: (inside ++ '"' :: rest) := by simp
  rw [htext, stringSpansFrom, hclosing]
  simp [Nat.add_assoc]

lemma stringSpansFrom_unclosed (h : closing? cs = none) (i : Nat) :
    stringSpansFrom i ('"' :: cs) = stringSpansFrom (i + 1) cs := by
  rw [stringSpansFrom, h]

/-- **Behind a quote that nothing closes** there is no string. The search begins again at every quote
there, but each of them stands behind a backslash, and what follows it is open as well. -/
theorem stringSpansFrom_of_open (h : Open cs) (i : Nat) : stringSpansFrom i cs = [] := by
  induction h generalizing i with
  | nil => rw [stringSpansFrom]
  | slash => rw [stringSpansFrom_other (by decide), stringSpansFrom]
  | escaped c hcs ih =>
      rw [stringSpansFrom_other (by decide)]
      by_cases hc : c = '"'
      · rw [hc, stringSpansFrom_unclosed (closing?_of_open hcs), ih]
      · rw [stringSpansFrom_other hc, ih]
  | plain hquote _ _ ih => rw [stringSpansFrom_other hquote, ih]

/-- The segment has no quote and is no string. -/
structure Quoteless (s : Segment) : Prop where
  text : '"' ∉ s.text
  role : ∀ literal, s.role ≠ .token .string literal

lemma quote_notMem_of_class {p : Char → Bool} (hp : p '"' = false) (h : ∀ c ∈ cs, p c = true) :
    '"' ∉ cs := by
  intro hmem
  exact absurd (h '"' hmem) (by simp [hp])

lemma quote_notMem_of_pairKind? {c d : Char} {kind : Kind} (h : pairKind? c d = some kind) :
    '"' ∉ [c, d] := by
  rw [pairKind?.eq_def] at h
  split at h
  case h_9 => cases h
  all_goals decide

lemma quote_notMem_of_isMark {c : Char} (h : IsMark c) : '"' ∉ [c] := by
  simpa using Ne.symm h.ne_quote

/-- A segment with a quote in it is a string, closed or open. -/
lemma fits_quotes {s : Segment} (h : Fits rest s) :
    (∃ inside literal, Inside inside ∧ s = ⟨'"' :: inside ++ ['"'], .token .string literal⟩) ∨
      (∃ cs, rest = [] ∧ Open cs ∧ s = ⟨'"' :: cs, .unclosed⟩) ∨ Quoteless s := by
  cases h with
  | string hinside => exact .inl ⟨_, _, hinside, rfl⟩
  | unclosed hrest hopen => exact .inr (.inl ⟨_, hrest, hopen, rfl⟩)
  | @word c cs hc hcs _ w _ =>
      have hclass : ∀ d ∈ c :: cs, isWordChar d = true :=
        List.forall_mem_cons.2 ⟨by simp [isWordChar, hc], hcs⟩
      refine .inr (.inr ⟨quote_notMem_of_class (by decide) hclass, fun literal heq => ?_⟩)
      exact (ofWord_ne w).2.1 (Role.token.inj heq).1
  | number hds =>
      exact .inr (.inr ⟨quote_notMem_of_class (by decide) hds.digits, by simp⟩)
  | pair hpair =>
      refine .inr (.inr ⟨quote_notMem_of_pairKind? hpair, fun literal heq => ?_⟩)
      exact (pairKind?_ne hpair).2.1 (Role.token.inj heq).1
  | single hsingle =>
      refine .inr (.inr ⟨quote_notMem_of_isMark (isMark_of_singleKind? hsingle), ?_⟩)
      exact fun literal heq => (singleKind?_ne hsingle).1 (Role.token.inj heq).1
  | blank hblank => exact .inr (.inr ⟨quote_notMem_of_isMark (isMark_of_blank hblank).1, by simp⟩)
  | lone hlone => exact .inr (.inr ⟨quote_notMem_of_isMark (isMark_of_lone hlone).1, by simp⟩)
  | stray hmark => exact .inr (.inr ⟨quote_notMem_of_isMark hmark, by simp⟩)
  | tooLarge hds =>
      exact .inr (.inr ⟨quote_notMem_of_class (by decide) hds.digits, by simp⟩)

end Segments

/-! ### Strings and tokens -/

/-- The stretch of its line that a token takes up. -/
def tokenSpan (t : Token) : Span := ⟨t.position.col - 1, t.lexeme.length⟩

/-- The stretches of the tokens that are strings. -/
def stringTokenSpans (scan : Scan) : List Span :=
  (scan.closed.filter fun t => t.kind = .string).map tokenSpan

lemma stringTokenSpans_cons (p : Position) (s : Segment) (segments : List Segment) :
    stringTokenSpans (Scan.ofSegments p (s :: segments)) =
      ((s.token? p).toList.filter fun t => t.kind = .string).map tokenSpan ++
        stringTokenSpans (Scan.ofSegments (p.after s) segments) := by
  rw [stringTokenSpans, closed_cons, List.filter_append, List.map_append]
  rfl

lemma Quoteless.filter_token? {s : Segment} (h : Quoteless s) (p : Position) :
    ((s.token? p).toList.filter fun t => t.kind = .string) = [] := by
  rw [Segment.token?]
  split
  · next kind literal hrole =>
    have hkind : kind ≠ .string := by
      rintro rfl
      exact h.role literal hrole
    simp [hkind]
  · rfl

lemma hiddenEnds_of_line {cs : List Char} (h : '\n' ∉ cs) : hiddenEnds cs = 0 := by
  have hcount := count_lined cs
  rw [List.count_eq_zero.2 h] at hcount
  omega

/-- On one line, the column of a place counts the characters before it. -/
lemma col_behind {pre : List Char} (h : '\n' ∉ pre) :
    (Position.behind pre).col = 1 + pre.length :=
  congrArg Position.col (behind_append h [])

/-- **The strings of a line of segments** are found where their tokens stand. -/
theorem stringSpansFrom_segments {segments : List Segment} (h : Laid segments) (pre : List Char)
    (hline : '\n' ∉ pre ++ segments.flatMap text) :
    stringSpansFrom pre.length (segments.flatMap text) =
      stringTokenSpans (Scan.ofSegments (.behind pre) segments) := by
  induction segments generalizing pre with
  | nil => rw [List.flatMap_nil, stringSpansFrom]; rfl
  | cons s segments ih =>
      obtain ⟨hs, hsegments⟩ := laid_cons.1 h
      rw [List.flatMap_cons, ← List.append_assoc] at hline
      obtain ⟨hpre, htext⟩ : '\n' ∉ pre ∧ '\n' ∉ s.text := by
        simpa using fun hmem => hline (List.mem_append_left _ hmem)
      have hafter : (Position.behind pre).after s = .behind (pre ++ s.text) := by
        rw [hs.after_behind, lined_eq_self (hiddenEnds_of_line htext)]
      rw [List.flatMap_cons, stringTokenSpans_cons, hafter, ← ih hsegments _ hline,
        List.length_append]
      rcases fits_quotes hs with ⟨inside, literal, hinside, rfl⟩ | ⟨cs, hrest, hopen, rfl⟩ | hquoteless
      · have hshown : hiddenEnds inside = 0 := hiddenEnds_of_line fun hmem => htext (by simp [hmem])
        have hspan : tokenSpan ⟨.string, String.ofList ('"' :: inside ++ ['"']), literal,
            .behind pre⟩ = ⟨pre.length, inside.length + 2⟩ := by
          rw [tokenSpan, col_behind hpre, Nat.add_sub_cancel_left, String.length_ofList,
            List.length_append, List.length_cons]
          rfl
        rw [stringSpansFrom_string ⟨hinside, hshown⟩, ← hspan, List.length_append, List.length_cons]
        rfl
      · rw [hrest, List.append_nil, stringSpansFrom_unclosed (closing?_of_open hopen),
          stringSpansFrom_of_open hopen, stringSpansFrom]
        rfl
      · rw [stringSpansFrom_append hquoteless.text, hquoteless.filter_token?, List.map_nil,
          List.nil_append]

/-! ### Looks -/

/-- The place lies in the stretch. -/
def Span.Covers (s : Span) (i : Nat) : Prop := s.start ≤ i ∧ i < s.start + s.length

instance (s : Span) (i : Nat) : Decidable (s.Covers i) := inferInstanceAs (Decidable (_ ∧ _))

/-- The look of a place once all stretches have been laid on, one after the other. -/
def styleAt? (laid : List (Span × Style)) (i : Nat) : Option Style :=
  laid.foldl (fun style e => if e.1.Covers i then some e.2 else style) none

/-- What a rule lays on a line. -/
def Rule.lays (line : String) (r : Rule) : List (Span × Style) :=
  (r.pattern.spans line.toList).map fun span => (span, r.style)

/-- The look of strings. -/
def stringStyle (colors : SyntaxColors) : Style := ⟨colors.string, false⟩

/-- The rules for words and numbers. -/
def otherRules (colors : SyntaxColors) : List Rule :=
  (rules colors).filter fun r => r.pattern ≠ .string

/-- The rule for strings comes last, and it is the only one. -/
lemma rules_eq (colors : SyntaxColors) :
    rules colors = otherRules colors ++ [⟨.string, stringStyle colors⟩] := by
  rw [otherRules, rules, List.filter_append,
    List.filter_eq_self.2 (List.forall_mem_map.2 fun _ _ => by simp), List.append_assoc]
  rfl

lemma highlightLine_eq (colors : SyntaxColors) (line : String) :
    highlightLine colors line = (otherRules colors).flatMap (Rule.lays line) ++
      (stringSpansFrom 0 line.toList).map fun span => (span, stringStyle colors) := by
  have hlays : highlightLine colors line = (rules colors).flatMap (Rule.lays line) := rfl
  rw [hlays, rules_eq, List.flatMap_append, List.flatMap_singleton]
  rfl

/-- What is laid on last is seen. -/
lemma styleAt?_append (laid : List (Span × Style)) (spans : List Span) (style : Style) (i : Nat) :
    styleAt? (laid ++ spans.map fun span => (span, style)) i =
      if ∃ s ∈ spans, s.Covers i then some style else styleAt? laid i := by
  rw [styleAt?, List.foldl_append, List.foldl_map]
  change spans.foldl _ (styleAt? laid i) = _
  generalize styleAt? laid i = before
  induction spans generalizing before with
  | nil => simp
  | cons s spans ih =>
      rw [List.foldl_cons, ih]
      by_cases hs : s.Covers i <;> simp [hs]

/-- How the editor colors a line whose strings take up these stretches. -/
structure ColorsStrings (colors : SyntaxColors) (line : String) (strings : List Span) : Prop where
  /-- They are the successive matches of the regular expression, and no other stretches are. -/
  matched : ∀ spans, Successive quotation.language line.toList 0 spans ↔ spans = strings
  /-- They are laid on in the color of strings, behind all that the rules for words and numbers lay on. -/
  laid : highlightLine colors line = (otherRules colors).flatMap (Rule.lays line) ++
    strings.map fun span => (span, stringStyle colors)
  /-- In the end they look like strings, and the rest of the line as without them. -/
  seen : ∀ i, styleAt? (highlightLine colors line) i =
    if ∃ s ∈ strings, s.Covers i then some (stringStyle colors)
    else styleAt? ((otherRules colors).flatMap (Rule.lays line)) i

/-- **The strings of a line are colored as strings**: what the editor's regular expression matches, from
left to right, are the tokens that are strings, and no word or number is seen inside them. -/
theorem strings_highlighted {line : String} (hline : '\n' ∉ line.toList)
    (hshort : ShortNumbers line.toList) (colors : SyntaxColors) :
    Pattern.string.regex = quotation.written ∧
      ∃ scan, scan? line = some scan ∧ ColorsStrings colors line (stringTokenSpans scan) := by
  have hlaid : Laid (cut line.toList) := laid_cut hshort.role_ne
  have hspans : stringSpansFrom 0 line.toList =
      stringTokenSpans (Scan.ofSegments .origin (cut line.toList)) := by
    have hsegments := stringSpansFrom_segments hlaid [] (by rwa [flatMap_text_cut])
    rwa [flatMap_text_cut] at hsegments
  refine ⟨quotation_written, _, scan?_of_shortNumbers hshort, fun spans => ?_, ?_, fun i => ?_⟩
  · rw [successive_iff, hspans]
  · rw [highlightLine_eq, hspans]
  · rw [highlightLine_eq, hspans, styleAt?_append]

/-- A line with escaped quotes, a word and a number inside a string, with a backslash in front of a
string, and with a string that is open at the end, where another quote is escaped. -/
def quotedLine : String := "Color(\"Fill \\\"7\\\"\") \\\"\\\\\" \"Size 8 \\\" 9"

/-- The number inside the first string is found as a number, and does not look like one in the end. -/
theorem strings_highlighted_quotedLine :
    '\n' ∉ quotedLine.toList ∧ ShortNumbers quotedLine.toList ∧
      Pattern.string.regex = quotation.written ∧
      ∃ scan, scan? quotedLine = some scan ∧ stringTokenSpans scan = [⟨6, 12⟩, ⟨21, 4⟩] ∧
        ColorsStrings .light quotedLine (stringTokenSpans scan) ∧
        styleAt? ((otherRules .light).flatMap (Rule.lays quotedLine)) 14 =
          some ⟨SyntaxColors.light.number, false⟩ ∧
        styleAt? (highlightLine .light quotedLine) 14 = some (stringStyle .light) := by
  have hline : '\n' ∉ quotedLine.toList := by decide
  have hshort : ShortNumbers quotedLine.toList := shortNumbers_of_length (by decide)
  obtain ⟨hregex, scan, hscan, hcolors⟩ := strings_highlighted hline hshort .light
  have hspans : (scan? quotedLine).map stringTokenSpans = some [⟨6, 12⟩, ⟨21, 4⟩] := by
    decide +kernel
  rw [hscan] at hspans
  have hstrings := Option.some.inj hspans
  refine ⟨hline, hshort, hregex, scan, hscan, hstrings, hcolors, by decide +kernel, ?_⟩
  rw [hcolors.seen, hstrings, if_pos (by decide)]

end Brushwork.Editor
