import Mathlib.Data.List.TakeWhile
import Brushwork.Proofs.Printing.Scanning

/-!
A text is laid out in segments.

The forms of segments are given here without reference to how a text is cut:

* `Segment.Inside` and `Segment.Open`: what stands behind an opening quote, up to the quote that
  closes it or up to the end of the text.
* `Segment.Fits`: what a segment is, and what may follow it. There are tokens, single characters
  that are passed over, and three kinds of faults.
* `Segment.Laid`: segments in a row, each of which fits in front of those that follow.

Cutting gives such a row and there is no other:

* `Segment.fits_first` and `Segment.Fits.first_eq`: what is cut off at the front fits, and what fits
  is cut off at the front.
* `Segment.laid_cut` and `Segment.Laid.cut_eq`: the same for all segments of a text.
* `Segment.Fits.longest`: no segment could have been longer.
* `scan_tiles`: tokens and faults are read off that row.
-/

namespace Brushwork

namespace Segment

variable {c d : Char} {cs rest : List Char} {s : Segment} {kind : Kind}

/-! ### Runs of characters -/

/-- A run of characters of the class ends before `rest`. -/
def RunEnds (p : Char → Bool) (rest : List Char) : Prop := ∀ c ∈ rest.head?, p c = false

lemma runEnds_dropWhile (p : Char → Bool) (cs : List Char) : RunEnds p (cs.dropWhile p) := by
  intro c hc
  have hhead := List.head?_dropWhile_not p cs
  rw [Option.mem_def.1 hc] at hhead
  exact hhead

lemma RunEnds.takeWhile_eq {p : Char → Bool} (hrest : RunEnds p rest)
    (hcs : ∀ c ∈ cs, p c = true) :
    (cs ++ rest).takeWhile p = cs ∧ (cs ++ rest).dropWhile p = rest := by
  have hstop : rest.takeWhile p = [] ∧ rest.dropWhile p = rest := by
    cases rest with
    | nil => exact ⟨rfl, rfl⟩
    | cons c r =>
        have hc : p c = false := hrest c rfl
        simp [hc]
  rw [List.takeWhile_append_of_pos hcs, List.dropWhile_append_of_pos hcs, hstop.1, hstop.2]
  exact ⟨List.append_nil cs, rfl⟩

/-! ### Strings -/

/-- What stands between the quotes of a string: a quote stands there only behind a backslash, and
every backslash takes the next character with it. -/
inductive Inside : List Char → Prop
  | nil : Inside []
  | escaped (c : Char) {cs : List Char} (h : Inside cs) : Inside ('\\' :: c :: cs)
  | plain {c : Char} {cs : List Char} (hquote : c ≠ '"') (hslash : c ≠ '\\') (h : Inside cs) :
      Inside (c :: cs)

/-- What stands behind an opening quote that nothing closes; the text may end at a backslash. -/
inductive Open : List Char → Prop
  | nil : Open []
  | slash : Open ['\\']
  | escaped (c : Char) {cs : List Char} (h : Open cs) : Open ('\\' :: c :: cs)
  | plain {c : Char} {cs : List Char} (hquote : c ≠ '"') (hslash : c ≠ '\\') (h : Open cs) :
      Open (c :: cs)

/-- An ordinary character inside a string is passed on the way to the closing quote. -/
lemma closeQuote?_plain (hquote : c ≠ '"') (hslash : c ≠ '\\') (cs : List Char) :
    closeQuote? (c :: cs) = (closeQuote? cs).map fun s => (c :: s.1, s.2) := by
  rw [closeQuote?]
  · exact fun hc _ => hslash hc
  · exact fun hc => hquote hc
  · exact fun _ _ hc _ => hslash hc

lemma Inside.closeQuote?_eq {inside : List Char} (h : Inside inside) (rest : List Char) :
    closeQuote? (inside ++ '"' :: rest) = some (inside, rest) := by
  induction h with
  | nil => rfl
  | escaped c _ ih =>
      rw [List.cons_append, List.cons_append, closeQuote?, ih]
      rfl
  | plain hquote hslash _ ih =>
      rw [List.cons_append, closeQuote?_plain hquote hslash, ih]
      rfl

lemma Open.closeQuote?_eq (h : Open cs) : closeQuote? cs = none := by
  induction h with
  | nil => rfl
  | slash => rfl
  | escaped c _ ih => rw [closeQuote?, ih, Option.map_none]
  | plain hquote hslash _ ih => rw [closeQuote?_plain hquote hslash, ih, Option.map_none]

/-- **Behind a quote** a string is closed, and then its inside is well formed, or stays open. -/
theorem closeQuote?_cases (cs : List Char) :
    (∃ inside rest, closeQuote? cs = some (inside, rest) ∧ Inside inside) ∨
      (closeQuote? cs = none ∧ Open cs) := by
  fun_induction closeQuote? cs with
  | case1 => exact .inr ⟨rfl, .nil⟩
  | case2 => exact .inr ⟨rfl, .slash⟩
  | case3 cs => exact .inl ⟨[], cs, rfl, .nil⟩
  | case4 c cs ih =>
      rcases ih with ⟨inside, rest, heq, h⟩ | ⟨heq, h⟩
      · exact .inl ⟨_, rest, by rw [heq]; rfl, .escaped c h⟩
      · exact .inr ⟨by rw [heq]; rfl, .escaped c h⟩
  | case5 c cs hlast hquote hslash ih =>
      have hplain : c ≠ '\\' := by
        intro hc
        cases cs with
        | nil => exact hlast hc rfl
        | cons d cs => exact hslash d cs hc rfl
      rcases ih with ⟨inside, rest, heq, h⟩ | ⟨heq, h⟩
      · exact .inl ⟨_, rest, by rw [heq]; rfl, .plain hquote hplain h⟩
      · exact .inr ⟨by rw [heq]; rfl, .plain hquote hplain h⟩

/-! ### The forms of segments -/

/-- The character is neither a quote nor the beginning of a number or a word. -/
structure IsMark (c : Char) : Prop where
  ne_quote : c ≠ '"'
  not_digit : Text.Digit.isAscii c = false
  not_letter : isLetter c = false

/-- A row of digits that can be read as a number, and that ends before `rest`. -/
structure IsNumeral (ds rest : List Char) : Prop where
  ne_nil : ds ≠ []
  digits : ∀ d ∈ ds, Text.Digit.isAscii d = true
  length_le : ds.length ≤ Text.Numeral.maxDigits
  ends : RunEnds Text.Digit.isAscii rest

/-- **What a segment is**, where the text `rest` follows it. -/
inductive Fits (rest : List Char) : Segment → Prop
  /- Tokens: words, numbers, strings, and operators and punctuation of two characters or of one. -/
  | word {c : Char} {cs : List Char} (hc : isLetter c = true) (hcs : ∀ d ∈ cs, isWordChar d = true)
      (hrest : RunEnds isWordChar rest) {w : String} (hw : w = String.ofList (c :: cs)) :
      Fits rest ⟨c :: cs, .token (.ofWord w) (wordLiteral w (.ofWord w))⟩
  | number {ds : List Char} (hds : IsNumeral ds rest) (hle : Text.Numeral.ofAscii ds ≤ maxNumber) :
      Fits rest ⟨ds, .token .number (some (.int (Text.Numeral.ofAscii ds)))⟩
  | string {inside : List Char} (h : Inside inside) :
      Fits rest ⟨'"' :: inside ++ ['"'],
        .token .string (some (.text (String.ofList (unescape inside))))⟩
  | pair {c d : Char} {kind : Kind} (h : pairKind? c d = some kind) :
      Fits rest ⟨[c, d], .token kind none⟩
  | single {c : Char} {kind : Kind} (h : singleKind? c = some kind)
      (hrest : ∀ d ∈ rest.head?, pairKind? c d = none) : Fits rest ⟨[c], .token kind none⟩
  /- Characters that are passed over. -/
  | blank {c : Char} (h : c = ' ' ∨ c = '\t' ∨ c = '\r') : Fits rest ⟨[c], .skipped⟩
  | lone {c : Char} (h : c = '&' ∨ c = '|') (hrest : rest.head? ≠ some c) :
      Fits rest ⟨[c], .skipped⟩
  /- Faults: a character that begins nothing, a number above the largest one, an open string. -/
  | stray {c : Char} (hmark : IsMark c) (hsingle : singleKind? c = none)
      (hpassed : isPassedOver c = false) : Fits rest ⟨[c], .stray⟩
  | tooLarge {ds : List Char} (hds : IsNumeral ds rest)
      (hlt : maxNumber < Text.Numeral.ofAscii ds) : Fits rest ⟨ds, .tooLarge⟩
  | unclosed {cs : List Char} (hrest : rest = []) (h : Open cs) : Fits rest ⟨'"' :: cs, .unclosed⟩

/-- Segments in a row, each of which fits in front of the text of those that follow. -/
def Laid (segments : List Segment) : Prop :=
  ∀ before s after, segments = before ++ s :: after → Fits (after.flatMap text) s

/-! ### What is cut off fits -/

lemma isMark_of_singleKind? (h : singleKind? c = some kind) : IsMark c := by
  rw [singleKind?.eq_def] at h
  split at h
  case h_16 => cases h
  all_goals exact ⟨by decide, by decide, by decide⟩

lemma isMark_of_pairKind? (h : pairKind? c d = some kind) : IsMark c := by
  rw [pairKind?.eq_def] at h
  split at h
  case h_9 => cases h
  all_goals exact ⟨by decide, by decide, by decide⟩

lemma isMark_of_blank (h : c = ' ' ∨ c = '\t' ∨ c = '\r') : IsMark c ∧ singleKind? c = none := by
  rcases h with rfl | rfl | rfl <;> exact ⟨⟨by decide, by decide, by decide⟩, rfl⟩

lemma isMark_of_lone (h : c = '&' ∨ c = '|') : IsMark c ∧ singleKind? c = none := by
  rcases h with rfl | rfl <;> exact ⟨⟨by decide, by decide, by decide⟩, rfl⟩

lemma first_of_isMark (h : IsMark c) (cs : List Char) : first c cs = mark c cs := by
  rw [first, if_neg h.ne_quote, h.not_digit, if_neg (by simp), h.not_letter, if_neg (by simp)]

lemma fits_quoted (cs : List Char) : Fits (quoted cs).2 (quoted cs).1 := by
  rcases closeQuote?_cases cs with ⟨inside, rest, heq, h⟩ | ⟨heq, h⟩
  · rw [quoted, heq]
    exact .string h
  · rw [quoted, heq]
    exact .unclosed rfl h

lemma fits_number (hc : Text.Digit.isAscii c = true) (h : (number c cs).1.role ≠ .overlong) :
    Fits (number c cs).2 (number c cs).1 := by
  let ds := c :: cs.takeWhile Text.Digit.isAscii
  have hdigits : ∀ d ∈ ds, Text.Digit.isAscii d = true :=
    List.forall_mem_cons.2 ⟨hc, fun d hd => List.mem_takeWhile_imp hd⟩
  have hends := runEnds_dropWhile Text.Digit.isAscii cs
  have hlength : ds.length ≤ Text.Numeral.maxDigits := by
    by_contra hlt
    exact h (if_pos (Nat.lt_of_not_le hlt))
  have hds : IsNumeral ds (cs.dropWhile Text.Digit.isAscii) :=
    ⟨List.cons_ne_nil _ _, hdigits, hlength, hends⟩
  show Fits (cs.dropWhile Text.Digit.isAscii) ⟨ds, digitsRole ds⟩
  rw [digitsRole, if_neg (by omega)]
  split
  · next hlt => exact .tooLarge hds hlt
  · next hle => exact .number hds (by omega)

lemma fits_word (hc : isLetter c = true) (cs : List Char) : Fits (word c cs).2 (word c cs).1 :=
  .word hc (fun _ hd => List.mem_takeWhile_imp hd) (runEnds_dropWhile isWordChar cs) rfl

/-- A character that is passed over by itself is a blank, or one half of an operator that is not
doubled. -/
lemma fits_passedOver (h : isPassedOver c = true) (hrest : ∀ d ∈ rest.head?, pairKind? c d = none) :
    Fits rest ⟨[c], .skipped⟩ := by
  simp only [isPassedOver, Bool.or_eq_true, beq_iff_eq] at h
  obtain (((h | h) | h) | rfl) | rfl := h
  · exact .blank (.inl h)
  · exact .blank (.inr (.inl h))
  · exact .blank (.inr (.inr h))
  · exact .lone (.inl rfl) fun hd => by simpa [pairKind?] using hrest '&' hd
  · exact .lone (.inr rfl) fun hd => by simpa [pairKind?] using hrest '|' hd

lemma fits_single (hmark : IsMark c) (hrest : ∀ d ∈ rest.head?, pairKind? c d = none) :
    Fits (single c rest).2 (single c rest).1 := by
  rw [single]
  cases hsingle : singleKind? c with
  | some kind => exact .single hsingle hrest
  | none =>
      cases hpassed : isPassedOver c with
      | true => exact fits_passedOver hpassed hrest
      | false => exact .stray hmark hsingle hpassed

lemma fits_mark (hmark : IsMark c) (cs : List Char) : Fits (mark c cs).2 (mark c cs).1 := by
  cases cs with
  | nil => exact fits_single hmark (by simp)
  | cons d cs =>
      rw [mark]
      cases hpair : pairKind? c d with
      | some kind => exact .pair hpair
      | none =>
          refine fits_single hmark ?_
          rintro d' ⟨⟩
          exact hpair

/-- **What is cut off at the front of a text fits**, unless it is a row of digits too long to be
read. -/
theorem fits_first (h : (first c cs).1.role ≠ .overlong) : Fits (first c cs).2 (first c cs).1 := by
  by_cases hquote : c = '"'
  · rw [first, if_pos hquote]
    exact fits_quoted cs
  by_cases hdigit : Text.Digit.isAscii c = true
  · have hfirst : first c cs = number c cs := by rw [first, if_neg hquote, if_pos hdigit]
    rw [hfirst] at h ⊢
    exact fits_number hdigit h
  by_cases hletter : isLetter c = true
  · rw [first, if_neg hquote, if_neg hdigit, if_pos hletter]
    exact fits_word hletter cs
  · have hmark : IsMark c := ⟨hquote, by simpa using hdigit, by simpa using hletter⟩
    rw [first_of_isMark hmark]
    exact fits_mark hmark cs

/-! ### What fits is cut off -/

lemma first_of_word (hc : isLetter c = true) (hcs : ∀ d ∈ cs, isWordChar d = true)
    (hrest : RunEnds isWordChar rest) :
    first c (cs ++ rest) =
      (⟨c :: cs, .token (.ofWord (String.ofList (c :: cs)))
        (wordLiteral (String.ofList (c :: cs)) (.ofWord (String.ofList (c :: cs))))⟩, rest) := by
  obtain ⟨hquote, hdigit⟩ := isLetter_not_other hc
  obtain ⟨htake, hdrop⟩ := hrest.takeWhile_eq hcs
  rw [first, if_neg hquote, hdigit, if_neg (by simp), if_pos hc, word, htake, hdrop]

lemma IsNumeral.first_eq {ds : List Char} (h : IsNumeral ds rest) :
    ∃ c cs, ds = c :: cs ∧ first c (cs ++ rest) = (⟨ds, digitsRole ds⟩, rest) := by
  obtain ⟨c, cs, rfl⟩ := List.exists_cons_of_ne_nil h.ne_nil
  obtain ⟨hc, hcs⟩ := List.forall_mem_cons.1 h.digits
  obtain ⟨htake, hdrop⟩ := h.ends.takeWhile_eq hcs
  have hquote : c ≠ '"' := by
    rintro rfl
    revert hc
    decide
  refine ⟨c, cs, rfl, ?_⟩
  rw [first, if_neg hquote, if_pos hc, number, htake, hdrop]

/-- A character that makes no token with the one behind it is cut off by itself. -/
lemma first_of_single (hmark : IsMark c) (hrest : ∀ d ∈ rest.head?, pairKind? c d = none) :
    first c rest = single c rest := by
  rw [first_of_isMark hmark]
  cases rest with
  | nil => rw [mark]
  | cons d r => rw [mark, hrest d rfl]

/-- A token of two characters begins with one that is a token by itself or is passed over. -/
lemma single_of_pairKind? (h : pairKind? c d = some kind) :
    singleKind? c ≠ none ∨ isPassedOver c = true := by
  rw [pairKind?.eq_def] at h
  split at h
  case h_9 => cases h
  all_goals decide

lemma first_of_blank (h : c = ' ' ∨ c = '\t' ∨ c = '\r') :
    first c rest = (⟨[c], .skipped⟩, rest) := by
  rcases h with rfl | rfl | rfl <;> cases rest <;> rfl

lemma first_of_lone (h : c = '&' ∨ c = '|') (hrest : rest.head? ≠ some c) :
    first c rest = (⟨[c], .skipped⟩, rest) := by
  have hpair : ∀ d ∈ rest.head?, pairKind? c d = none := by
    intro d hd
    have hne : d ≠ c := fun hdc => hrest (by rw [← hdc]; exact hd)
    rcases h with rfl | rfl <;> simp [pairKind?, hne]
  rw [first_of_single (isMark_of_lone h).1 hpair]
  rcases h with rfl | rfl <;> rfl

lemma first_of_stray (hmark : IsMark c) (hsingle : singleKind? c = none)
    (hpassed : isPassedOver c = false) : first c rest = (⟨[c], .stray⟩, rest) := by
  have hpair : ∀ d ∈ rest.head?, pairKind? c d = none := by
    intro d _
    by_contra hne
    obtain ⟨kind, hkind⟩ := Option.ne_none_iff_exists'.1 hne
    rcases single_of_pairKind? hkind with h | h
    · exact h hsingle
    · simp [hpassed] at h
  rw [first_of_single hmark hpair, single, hsingle, hpassed]
  rfl

/-- **What fits in front of a text is cut off** from the two together. -/
theorem Fits.first_eq (h : Fits rest s) :
    ∃ c cs, s.text = c :: cs ∧ first c (cs ++ rest) = (s, rest) := by
  cases h with
  | @word c cs hc hcs hrest w hw =>
      subst hw
      exact ⟨c, cs, rfl, first_of_word hc hcs hrest⟩
  | @number ds hds hle =>
      obtain ⟨c, cs, htext, hfirst⟩ := hds.first_eq
      refine ⟨c, cs, htext, ?_⟩
      rw [hfirst, digitsRole, if_neg (Nat.not_lt.2 hds.length_le), if_neg (Nat.not_lt.2 hle)]
  | @string inside h =>
      have hclose : closeQuote? (inside ++ ['"'] ++ rest) = some (inside, rest) := by
        rw [List.append_assoc]
        exact h.closeQuote?_eq rest
      refine ⟨'"', inside ++ ['"'], rfl, ?_⟩
      rw [first, if_pos rfl, quoted, hclose]
  | @pair c d kind h =>
      refine ⟨c, [d], rfl, ?_⟩
      rw [first_of_isMark (isMark_of_pairKind? h), List.cons_append, mark, h]
      rfl
  | @single c kind h hrest =>
      refine ⟨c, [], rfl, ?_⟩
      rw [List.nil_append, first_of_single (isMark_of_singleKind? h) hrest, Segment.single, h]
  | @blank c h => exact ⟨c, [], rfl, first_of_blank h⟩
  | @lone c h hrest => exact ⟨c, [], rfl, first_of_lone h hrest⟩
  | @stray c hmark hsingle hpassed => exact ⟨c, [], rfl, first_of_stray hmark hsingle hpassed⟩
  | @tooLarge ds hds hlt =>
      obtain ⟨c, cs, htext, hfirst⟩ := hds.first_eq
      refine ⟨c, cs, htext, ?_⟩
      rw [hfirst, digitsRole, if_neg (Nat.not_lt.2 hds.length_le), if_pos hlt]
  | @unclosed cs hrest h =>
      refine ⟨'"', cs, rfl, ?_⟩
      rw [hrest, List.append_nil, first, if_pos rfl, quoted, h.closeQuote?_eq]

/-! ### Whole texts -/

/-- **A segment of a text** was cut off at the front of what was left of the text. -/
theorem cut_split {before after : List Segment} (h : cut cs = before ++ s :: after) :
    ∃ c r, cs = before.flatMap text ++ c :: r ∧ first c r = (s, after.flatMap text) := by
  induction before generalizing cs with
  | nil =>
      cases cs with
      | nil =>
          rw [cut] at h
          cases h
      | cons c r =>
          rw [cut] at h
          obtain ⟨rfl, rfl⟩ := List.cons.inj h
          refine ⟨c, r, rfl, ?_⟩
          rw [flatMap_text_cut]
  | cons b before ih =>
      cases cs with
      | nil =>
          rw [cut] at h
          cases h
      | cons c r =>
          rw [cut] at h
          obtain ⟨rfl, hrest⟩ := List.cons.inj h
          obtain ⟨c', r', heq, hfirst⟩ := ih hrest
          refine ⟨c', r', ?_, hfirst⟩
          rw [List.flatMap_cons, List.append_assoc, ← heq]
          exact (first_append c r).symm

lemma laid_cons {segments : List Segment} :
    Laid (s :: segments) ↔ Fits (segments.flatMap text) s ∧ Laid segments := by
  constructor
  · intro h
    refine ⟨h [] s segments rfl, fun before t after heq => ?_⟩
    exact h (s :: before) t after (by rw [heq]; rfl)
  · rintro ⟨hs, hsegments⟩ before t after heq
    cases before with
    | nil =>
        obtain ⟨rfl, rfl⟩ := List.cons.inj heq
        exact hs
    | cons b before =>
        obtain ⟨rfl, rfl⟩ := List.cons.inj heq
        exact hsegments before t after rfl

/-- **The segments of a text are laid out in a row.** -/
theorem laid_cut (h : ∀ s ∈ cut cs, s.role ≠ .overlong) : Laid (cut cs) := by
  intro before s after heq
  obtain ⟨c, r, -, hfirst⟩ := cut_split heq
  have hrole : (first c r).1.role ≠ .overlong := by
    rw [hfirst]
    exact h s (by rw [heq]; simp)
  have hfits := fits_first hrole
  rwa [hfirst] at hfits

/-- **No other segments are laid out in a row to the same text.** -/
theorem Laid.cut_eq {segments : List Segment} (h : Laid segments) :
    cut (segments.flatMap text) = segments := by
  induction segments with
  | nil => rw [List.flatMap_nil, cut]
  | cons s segments ih =>
      obtain ⟨hs, hsegments⟩ := laid_cons.1 h
      obtain ⟨c, cs, htext, hfirst⟩ := hs.first_eq
      rw [List.flatMap_cons, htext, List.cons_append, cut, hfirst, ih hsegments]

/-! ### Rows of digits that are too long -/

/-- No row of digits in the text is too long to be read. -/
def ShortNumbers (cs : List Char) : Prop :=
  ∀ ds, ds <:+: cs → (∀ d ∈ ds, Text.Digit.isAscii d = true) → ds.length ≤ Text.Numeral.maxDigits

lemma single_role (c : Char) (cs : List Char) : (single c cs).1.role ≠ .overlong := by
  rw [single]
  split
  · simp
  · dsimp only
    split <;> simp

lemma mark_role (c : Char) (cs : List Char) : (mark c cs).1.role ≠ .overlong := by
  cases cs with
  | nil => exact single_role c []
  | cons d cs =>
      rw [mark]
      split
      · simp
      · exact single_role c (d :: cs)

lemma digitsRole_overlong {ds : List Char} (h : digitsRole ds = .overlong) :
    Text.Numeral.maxDigits < ds.length := by
  by_contra hle
  rw [digitsRole, if_neg hle] at h
  split at h <;> cases h

/-- What is cut off as too long a row of digits is one. -/
lemma overlong_first (h : (first c cs).1.role = .overlong) :
    (∀ d ∈ (first c cs).1.text, Text.Digit.isAscii d = true) ∧
      Text.Numeral.maxDigits < (first c cs).1.text.length := by
  rw [first] at h ⊢
  split_ifs at h ⊢ with hquote hdigit hletter
  · rw [quoted] at h
    split at h <;> cases h
  · exact ⟨List.forall_mem_cons.2 ⟨hdigit, fun d hd => List.mem_takeWhile_imp hd⟩,
      digitsRole_overlong h⟩
  · cases h
  · exact absurd h (mark_role c cs)

lemma ShortNumbers.role_ne (h : ShortNumbers cs) : ∀ s ∈ cut cs, s.role ≠ .overlong := by
  intro s hs hrole
  obtain ⟨before, after, heq⟩ := List.append_of_mem hs
  obtain ⟨c, r, hcs, hfirst⟩ := cut_split heq
  have hlong : (first c r).1.role = .overlong := by rw [hfirst]; exact hrole
  obtain ⟨hdigits, hlength⟩ := overlong_first hlong
  rw [hfirst] at hdigits hlength
  -- the segment stands in the text, so the text has a row of digits of its length
  have hinfix : s.text <:+: cs := by
    refine ⟨before.flatMap text, after.flatMap text, ?_⟩
    have hjoin := flatMap_text_cut cs
    rw [heq, List.flatMap_append, List.flatMap_cons] at hjoin
    rw [List.append_assoc]
    exact hjoin
  exact absurd (h s.text hinfix hdigits) (Nat.not_le.2 hlength)

lemma hasOverlongNumber_eq_false {segments : List Segment} :
    hasOverlongNumber segments = false ↔ ∀ s ∈ segments, s.role ≠ .overlong := by
  rw [hasOverlongNumber, List.any_eq_false]
  simp

/-! ### Longest matches -/

/-- Nothing that follows the segment could have been taken along. -/
structure Longest (s : Segment) (rest : List Char) : Prop where
  word : ∀ c ∈ s.text.head?, isLetter c = true → RunEnds isWordChar rest
  digits : ∀ c ∈ s.text.head?, Text.Digit.isAscii c = true → RunEnds Text.Digit.isAscii rest
  less : s.text = ['<'] → ∀ d ∈ rest.head?, d ≠ '-' ∧ d ≠ '='
  compare : s.text = ['>'] ∨ s.text = ['='] ∨ s.text = ['!'] → ∀ d ∈ rest.head?, d ≠ '='
  star : s.text = ['*'] → ∀ d ∈ rest.head?, d ≠ '*'

/-- It is enough to look at the first character, and at the one behind the segment if that character
stands alone. -/
lemma longest_of_head (htext : s.text = c :: cs)
    (hword : isLetter c = true → RunEnds isWordChar rest)
    (hdigits : Text.Digit.isAscii c = true → RunEnds Text.Digit.isAscii rest)
    (hpair : cs = [] → ∀ kind, singleKind? c = some kind →
      ∀ d ∈ rest.head?, pairKind? c d = none) : Longest s rest := by
  have halone : ∀ x kind, singleKind? x = some kind → s.text = [x] →
      ∀ d ∈ rest.head?, pairKind? x d = none := by
    intro x kind hx heq
    obtain ⟨rfl, hcs⟩ := List.cons.inj (htext.symm.trans heq)
    exact hpair hcs kind hx
  refine ⟨?_, ?_, fun heq d hd => ⟨?_, ?_⟩, ?_, ?_⟩
  · rw [htext]
    rintro _ ⟨⟩
    exact hword
  · rw [htext]
    rintro _ ⟨⟩
    exact hdigits
  · rintro rfl
    cases halone '<' _ rfl heq _ hd
  · rintro rfl
    cases halone '<' _ rfl heq _ hd
  · rintro (heq | heq | heq) d hd rfl
    · cases halone '>' _ rfl heq _ hd
    · cases halone '=' _ rfl heq _ hd
    · cases halone '!' _ rfl heq _ hd
  · rintro heq d hd rfl
    cases halone '*' _ rfl heq _ hd

/-- What begins with a quote is neither a word nor a number, and a quote is no token by itself. -/
lemma longest_of_quote (htext : s.text = '"' :: cs) : Longest s rest := by
  have hletter : isLetter '"' = false := by decide
  have hdigit : Text.Digit.isAscii '"' = false := by decide
  refine longest_of_head htext (fun h => ?_) (fun h => ?_) fun _ kind hsingle => ?_
  · simp [hletter] at h
  · simp [hdigit] at h
  · cases hsingle

lemma IsMark.longest (h : IsMark c) (htext : s.text = c :: cs)
    (hpair : cs = [] → ∀ kind, singleKind? c = some kind →
      ∀ d ∈ rest.head?, pairKind? c d = none) : Longest s rest :=
  longest_of_head htext (fun hc => by simp [h.not_letter] at hc)
    (fun hc => by simp [h.not_digit] at hc) hpair

/-- A character that is no token by itself has nothing to take along. -/
lemma IsMark.longest_alone (h : IsMark c) (hsingle : singleKind? c = none) {role : Role} :
    Longest ⟨[c], role⟩ rest :=
  h.longest rfl fun _ kind hkind => by simp [hsingle] at hkind

lemma IsNumeral.longest {ds : List Char} (h : IsNumeral ds rest) (htext : s.text = ds) :
    Longest s rest := by
  obtain ⟨c, cs, rfl⟩ := List.exists_cons_of_ne_nil h.ne_nil
  have hc : Text.Digit.isAscii c = true := h.digits c (by simp)
  refine longest_of_head htext (fun hletter => ?_) (fun _ => h.ends) fun _ kind hsingle => ?_
  · simp [(isLetter_not_other hletter).2] at hc
  · simp [(isMark_of_singleKind? hsingle).not_digit] at hc

/-- **Segments are longest matches.** -/
theorem Fits.longest (h : Fits rest s) : Longest s rest := by
  cases h with
  | @word c cs hc _ hrest _ _ =>
      refine longest_of_head rfl (fun _ => hrest) (fun hdigit => ?_) fun _ kind hsingle => ?_
      · simp [(isLetter_not_other hc).2] at hdigit
      · simp [(isMark_of_singleKind? hsingle).not_letter] at hc
  | number hds => exact hds.longest rfl
  | string => exact longest_of_quote rfl
  | pair hpair => exact (isMark_of_pairKind? hpair).longest rfl fun hnil => by simp at hnil
  | single hsingle hrest => exact (isMark_of_singleKind? hsingle).longest rfl fun _ _ _ => hrest
  | blank hblank =>
      obtain ⟨hmark, hsingle⟩ := isMark_of_blank hblank
      exact hmark.longest_alone hsingle
  | lone hlone =>
      obtain ⟨hmark, hsingle⟩ := isMark_of_lone hlone
      exact hmark.longest_alone hsingle
  | stray hmark hsingle => exact hmark.longest_alone hsingle
  | tooLarge hds => exact hds.longest rfl
  | unclosed => exact longest_of_quote rfl

/-! ### The kinds of tokens -/

/-- A word is reserved or an identifier. -/
lemma ofWord_cases (w : String) :
    Kind.ofWord w = .ident ∨ Kind.ofWord w ∈ Kind.reserved.map Prod.snd := by
  rw [Kind.ofWord]
  cases h : Kind.reserved.lookup w with
  | none => exact .inl rfl
  | some kind =>
      obtain ⟨before, after, hsplit, -⟩ := List.lookup_eq_some_iff.1 h
      refine .inr (List.mem_map.2 ⟨(w, kind), ?_, rfl⟩)
      rw [hsplit]
      simp

/-- The kinds that no word has. -/
lemma ofWord_ne (w : String) :
    Kind.ofWord w ≠ .newline ∧ Kind.ofWord w ≠ .string ∧ Kind.ofWord w ≠ .eof := by
  have hreserved : ∀ kind ∈ Kind.reserved.map Prod.snd,
      kind ≠ .newline ∧ kind ≠ .string ∧ kind ≠ .eof := by decide
  rcases ofWord_cases w with h | h
  · simp [h]
  · exact hreserved _ h

lemma pairKind?_ne (h : pairKind? c d = some kind) :
    kind ≠ .newline ∧ kind ≠ .string ∧ kind ≠ .eof := by
  rw [pairKind?.eq_def] at h
  split at h
  case h_9 => cases h
  all_goals
    obtain rfl := Option.some.inj h
    decide

lemma singleKind?_ne (h : singleKind? c = some kind) : kind ≠ .string ∧ kind ≠ .eof := by
  rw [singleKind?.eq_def] at h
  split at h
  case h_16 => cases h
  all_goals
    obtain rfl := Option.some.inj h
    decide

/-- No segment is the mark that closes the tokens. -/
lemma Fits.ne_eof {p : Piece} (h : Fits rest s) (hp : s.piece? = some p) : p.kind ≠ .eof := by
  cases h with
  | word =>
      obtain rfl := Option.some.inj hp
      exact (ofWord_ne _).2.2
  | number =>
      obtain rfl := Option.some.inj hp
      simp
  | string =>
      obtain rfl := Option.some.inj hp
      simp
  | pair h =>
      obtain rfl := Option.some.inj hp
      exact (pairKind?_ne h).2.2
  | single h =>
      obtain rfl := Option.some.inj hp
      exact (singleKind?_ne h).2
  | blank | lone | stray | tooLarge | unclosed => cases hp

end Segment

/-! ### Tokens and faults -/

open Segment

lemma ofSegments_causes (p : Position) (segments : List Segment) :
    (Scan.ofSegments p segments).faults.map ScanFault.cause =
      segments.filterMap Segment.cause? := by
  induction segments generalizing p with
  | nil => rfl
  | cons s segments ih =>
      rw [Scan.ofSegments, List.map_append, ih, List.filterMap_cons]
      cases s.cause? <;> rfl

/-- The scan of a text is what its segments make up. They are laid out in a row to the text, and
each is as long as it can be. Those that are tokens are the tokens, in order, with one closing mark
behind them; each that is at fault is reported, in order. -/
structure Scan.Tiles (scan : Scan) (cs : List Char) (segments : List Segment) : Prop where
  joined : segments.flatMap text = cs
  laid : Laid segments
  longest : ∀ before s after, segments = before ++ s :: after → Longest s (after.flatMap text)
  tokens : scan.closed.map Token.piece = segments.filterMap Segment.piece? ++ [⟨.eof, "", none⟩]
  one_eof : ∀ p ∈ segments.filterMap Segment.piece?, p.kind ≠ .eof
  faults : scan.faults.map ScanFault.cause = segments.filterMap Segment.cause?

/-- **A scan tiles its text**: every text without too long a row of digits is scanned, cutting it
into segments, and the tokens and faults are those segments. No other segments would do. -/
theorem scan_tiles {source : String} (h : ShortNumbers source.toList) :
    ∃ scan, scan? source = some scan ∧ scan.Tiles source.toList (cut source.toList) ∧
      ∀ segments, scan.Tiles source.toList segments → segments = cut source.toList := by
  have hshort := h.role_ne
  have hlaid : Laid (cut source.toList) := laid_cut hshort
  refine ⟨Scan.ofSegments .origin (cut source.toList), ?_, ?_, fun segments htiles => ?_⟩
  · rw [scan?]
    simp [hasOverlongNumber_eq_false.2 hshort]
  · refine ⟨flatMap_text_cut _, hlaid, fun before s after heq => (hlaid before s after heq).longest,
      ?_, fun p hp => ?_, ofSegments_causes _ _⟩
    · rw [Scan.closed, List.map_append, ofSegments_pieces]
      rfl
    · obtain ⟨s, hs, hpiece⟩ := List.mem_filterMap.1 hp
      obtain ⟨before, after, heq⟩ := List.append_of_mem hs
      exact (hlaid before s after heq).ne_eof hpiece
  · rw [← htiles.joined]
    exact htiles.laid.cut_eq.symm

/-- A text with an escaped quote, operators without blanks, a number that is too large, a character
that begins nothing, and a string that is still open at its end. -/
def tightText : String := "a1<-\"b\\\"c\"**=&|&&99999999999@!==\"open\\"

theorem scan_tiles_tightText :
    ShortNumbers tightText.toList ∧
      ∃ scan, scan? tightText = some scan ∧ scan.Tiles tightText.toList (cut tightText.toList) ∧
        ∀ segments, scan.Tiles tightText.toList segments → segments = cut tightText.toList := by
  have hshort : ShortNumbers tightText.toList := by
    intro ds hinfix _
    have hlength : tightText.toList.length ≤ Text.Numeral.maxDigits := by decide
    exact hinfix.length_le.trans hlength
  exact ⟨hshort, scan_tiles hshort⟩

end Brushwork
