import Brushwork.Proofs.Token.Places

/-!
What stands around a segment.

* `Segment.Fits.of_head`: of the text behind a segment only the first character matters, and a blank
  or a line end there never does. An open string is the exception, since it takes all that follows.
* `Segment.Fits.stands`: so a token is cut off in the same way wherever a break follows it.
  `rescan_stable`: the tokens of a text, with blanks between them, are scanned as they were.
* `Segment.cut_newline`: nor do the segments of a text depend on the lines that follow it.
* `ofSegments_append` and `ofSegments_lower`: segments are scanned one row after the other, and those
  further down are scanned as at the top, with other lines.
* `scan_splits`: a text is scanned up to a line end and behind it, each part as if it were the whole.
-/

namespace Brushwork

open Segment

namespace Segment

variable {rest rest' : List Char} {s : Segment}

/-! ### What may follow a segment -/

/-- The text begins as `rest` does, or with a break, or it is at its end. -/
def GoesOn (rest rest' : List Char) : Prop :=
  ∀ c ∈ rest'.head?, c ∈ rest.head? ∨ c = ' ' ∨ c = '\n'

lemma goesOn_of_breaks (h : Breaks rest') : GoesOn rest rest' := fun c hc => .inr (h c hc)

/-- A line end and more text behind the text change nothing but where it was at its end. -/
lemma goesOn_newline (rest more : List Char) : GoesOn rest (rest ++ '\n' :: more) := by
  cases rest with
  | nil => exact goesOn_of_breaks (breaks_newline more)
  | cons c r => exact fun d hd => .inl hd

lemma RunEnds.goesOn {p : Char → Bool} (h : RunEnds p rest) (hp : p ' ' = false ∧ p '\n' = false)
    (hgoes : GoesOn rest rest') : RunEnds p rest' := by
  intro c hc
  rcases hgoes c hc with hsame | rfl | rfl
  · exact h c hsame
  · exact hp.1
  · exact hp.2

lemma IsNumeral.goesOn {ds : List Char} (h : IsNumeral ds rest) (hgoes : GoesOn rest rest') :
    IsNumeral ds rest' :=
  ⟨h.ne_nil, h.digits, h.length_le, h.ends.goesOn (by decide) hgoes⟩

/-- No token of two characters ends with a break. -/
lemma pairKind?_break (c : Char) : pairKind? c ' ' = none ∧ pairKind? c '\n' = none := by
  constructor <;>
  · rw [pairKind?.eq_def]
    split <;> simp_all

/-- **Only the first character behind a segment matters**, unless the segment is an open string. -/
theorem Fits.of_head (h : Fits rest s) (hclosed : s.role ≠ .unclosed)
    (hgoes : GoesOn rest rest') : Fits rest' s := by
  cases h with
  | word hc hcs hrest hw => exact .word hc hcs (hrest.goesOn (by decide) hgoes) hw
  | number hds hle => exact .number (hds.goesOn hgoes) hle
  | string hinside => exact .string hinside
  | pair hpair => exact .pair hpair
  | @single c kind hsingle hrest =>
      refine .single hsingle fun d hd => ?_
      rcases hgoes d hd with hsame | rfl | rfl
      · exact hrest d hsame
      · exact (pairKind?_break c).1
      · exact (pairKind?_break c).2
  | blank hblank => exact .blank hblank
  | @lone c hlone hrest =>
      refine .lone hlone fun hd => ?_
      rcases hgoes c hd with hsame | rfl | rfl
      · exact hrest hsame
      · simp at hlone
      · simp at hlone
  | stray hmark hsingle hpassed => exact .stray hmark hsingle hpassed
  | tooLarge hds hlt => exact .tooLarge (hds.goesOn hgoes) hlt
  | unclosed => exact absurd rfl hclosed

/-! ### Tokens in front of a break -/

/-- **A token stands** in front of every break, whatever followed it where it was found. -/
theorem Fits.stands {p : Piece} (h : Fits rest s) (hp : s.piece? = some p) : p.Stands := by
  obtain ⟨text, role⟩ := s
  cases role with
  | token kind literal =>
      obtain rfl := Option.some.inj hp
      have hfirst : ∀ rest', Breaks rest' → ∃ c cs, text = c :: cs ∧
          first c (cs ++ rest') = (⟨text, .token kind literal⟩, rest') := fun rest' hrest' =>
        (h.of_head (by simp) (goesOn_of_breaks hrest')).first_eq
      obtain ⟨c, cs, rfl, -⟩ := hfirst [] breaks_nil
      refine ⟨c, cs, String.toList_ofList, fun rest' hrest' => ?_⟩
      obtain ⟨c', cs', htext, heq⟩ := hfirst rest' hrest'
      obtain ⟨rfl, rfl⟩ := List.cons.inj htext
      exact heq
  | skipped | stray | tooLarge | overlong | unclosed => cases hp

/-! ### Segments in front of a line end -/

/-- The segment of a line end. -/
def newline : Segment := ⟨['\n'], .token .newline none⟩

lemma laid_newline {above below : List Segment} (h : Laid above)
    (hclosed : ∀ s ∈ above, s.role ≠ .unclosed) (hbelow : Laid below) :
    Laid (above ++ newline :: below) := by
  induction above with
  | nil =>
      refine laid_cons.2 ⟨.single rfl fun d _ => ?_, hbelow⟩
      rw [pairKind?] <;> simp
  | cons s above ih =>
      obtain ⟨hs, habove⟩ := laid_cons.1 h
      obtain ⟨hsclosed, hclosed⟩ := List.forall_mem_cons.1 hclosed
      refine laid_cons.2 ⟨hs.of_head hsclosed ?_, ih habove hclosed⟩
      have htext : (above ++ newline :: below).flatMap text =
          above.flatMap text ++ '\n' :: below.flatMap text := List.flatMap_append
      exact htext ▸ goesOn_newline _ _

/-- **A text is cut at a line end**, unless the line end stands in a string that is still open. -/
theorem cut_newline {above below : List Char} (h : Laid (cut above))
    (hclosed : ∀ s ∈ cut above, s.role ≠ .unclosed) (hbelow : Laid (cut below)) :
    cut (above ++ '\n' :: below) = cut above ++ newline :: cut below := by
  have htext : (cut above ++ newline :: cut below).flatMap text = above ++ '\n' :: below := by
    rw [List.flatMap_append, List.flatMap_cons, flatMap_text_cut, flatMap_text_cut]
    rfl
  rw [← htext]
  exact (laid_newline h hclosed hbelow).cut_eq

end Segment

/-- A text that is short itself has no long row of digits. -/
lemma shortNumbers_of_length {cs : List Char} (h : cs.length ≤ Text.Numeral.maxDigits) :
    ShortNumbers cs :=
  fun _ hinfix _ => hinfix.length_le.trans h

lemma scan?_of_shortNumbers {source : String} (h : ShortNumbers source.toList) :
    scan? source = some (Scan.ofSegments .origin (cut source.toList)) := by
  rw [scan?]
  simp [hasOverlongNumber_eq_false.2 h.role_ne]

/-! ### Scanning again -/

/-- The closing mark has no text, so a blank follows each of the pieces. -/
lemma cuts_closed {ps : List Piece} (h : ∀ p ∈ ps, p.Stands) :
    Cuts ([' '].intercalate (ps.map (·.text.toList) ++ [[]])) ps [] := by
  induction ps with
  | nil => exact Cuts.refl []
  | cons p ps ih =>
      obtain ⟨hp, hps⟩ := List.forall_mem_cons.1 h
      rw [List.map_cons, List.cons_append, List.intercalate_cons_of_ne_nil (by simp),
        List.append_assoc]
      exact (hp.cuts (breaks_blank _)).trans ((cuts_blank _).trans (ih hps))

/-- **Scanning again changes nothing.** The tokens of a text, the closing mark among them, are written
out with a blank between each two. Whatever was wrong with the text, nothing is wrong with this one, and
its tokens are the same but for their places. -/
theorem rescan_stable {source : String} (h : ShortNumbers source.toList) :
    ∃ scan again, scan? source = some scan ∧
      scan? (" ".intercalate (scan.closed.map Token.lexeme)) = some again ∧
      again.errors = [] ∧ again.closed.map Token.piece = scan.closed.map Token.piece := by
  obtain ⟨scan, hsource⟩ : ∃ scan, scan? source = some scan := ⟨_, scan?_of_shortNumbers h⟩
  have hstands : ∀ p ∈ scan.tokens.map Token.piece, p.Stands := by
    refine List.forall_mem_map.2 fun t ht => ?_
    obtain ⟨rest, s, hfits, hpiece⟩ := exists_fits_of_mem hsource ht
    exact hfits.stands hpiece
  have htext : (" ".intercalate (scan.closed.map Token.lexeme)).toList =
      [' '].intercalate ((scan.tokens.map Token.piece).map (·.text.toList) ++ [[]]) := by
    rw [String.toList_intercalate, Scan.closed, List.map_map, List.map_map, List.map_append]
    rfl
  have hcuts := cuts_closed hstands
  rw [← htext] at hcuts
  obtain ⟨again, hagain, herrors, htokens⟩ := scan?_of_cuts hcuts
  refine ⟨scan, again, hsource, hagain, herrors, ?_⟩
  rw [Scan.closed, Scan.closed, List.map_append, List.map_append, htokens]
  rfl

/-- A text with faults: a number that is too large, characters that begin nothing, and a string that is
open at the end. Its tokens are a name, an escaped line end in quotes, a number with zeros in front,
a line end, and two operators that would be one if they stood together. -/
def clutteredText : String := "n@<-\"a\\\n\"007\n99999999999$* *\"open"

theorem rescan_stable_clutteredText :
    ShortNumbers clutteredText.toList ∧
      ∃ scan again, scan? clutteredText = some scan ∧ scan.tokens.length = 7 ∧
        scan.faults.length = 4 ∧
        scan? (" ".intercalate (scan.closed.map Token.lexeme)) = some again ∧
        again.errors = [] ∧ again.closed.map Token.piece = scan.closed.map Token.piece := by
  have hshort : ShortNumbers clutteredText.toList := shortNumbers_of_length (by decide)
  obtain ⟨scan, again, hscan, hagain, hsame⟩ := rescan_stable hshort
  have hlength : (scan? clutteredText).map (fun s => (s.tokens.length, s.faults.length)) =
      some (7, 4) := by decide +kernel
  rw [hscan] at hlength
  obtain ⟨htokens, hfaults⟩ := Prod.mk.inj (Option.some.inj hlength)
  exact ⟨hshort, scan, again, hscan, htokens, hfaults, hagain, hsame⟩

/-! ### Further down -/

/-- The token `n` lines further down. -/
def Token.lower (n : Nat) (t : Token) : Token := { t with position := t.position.lower n }

/-- The fault `n` lines further down. -/
def ScanFault.lower (n : Nat) (f : ScanFault) : ScanFault := { f with line := f.line + n }

/-- The scan of the same text `n` lines further down. -/
def Scan.lower (n : Nat) (s : Scan) : Scan :=
  ⟨s.tokens.map (Token.lower n), s.faults.map (ScanFault.lower n), s.finish.lower n⟩

/-- **Segments further down** are scanned as at the top, but for the lines. -/
theorem ofSegments_lower (n : Nat) (p : Position) (segments : List Segment) :
    Scan.ofSegments (p.lower n) segments = (Scan.ofSegments p segments).lower n := by
  induction segments generalizing p with
  | nil => rfl
  | cons s segments ih =>
      have htoken : s.token? (p.lower n) = (s.token? p).map (Token.lower n) := by
        rw [Segment.token?, Segment.token?]
        split <;> rfl
      have hfault : s.cause?.map (ScanFault.mk ((p.after s).lower n).line) =
          (s.cause?.map (ScanFault.mk (p.after s).line)).map (ScanFault.lower n) := by
        rw [Option.map_map]
        rfl
      rw [Scan.ofSegments, Scan.ofSegments, after_lower, ih, htoken, hfault]
      simp only [Scan.lower, List.map_append, Option.toList_map]

/-- **Segments in two rows** are scanned one row after the other. -/
theorem ofSegments_append (p : Position) (above below : List Segment) :
    Scan.ofSegments p (above ++ below) =
      let a := Scan.ofSegments p above
      let b := Scan.ofSegments a.finish below
      ⟨a.tokens ++ b.tokens, a.faults ++ b.faults, b.finish⟩ := by
  induction above generalizing p with
  | nil => rfl
  | cons s above ih =>
      rw [List.cons_append, Scan.ofSegments, ih]
      simp only [Scan.ofSegments, List.append_assoc]

/-! ### Above and below a line end -/

/-- Where nothing is reported as unterminated, no segment is an open string. -/
lemma role_ne_unclosed {p : Position} {segments : List Segment}
    (h : ∀ f ∈ (Scan.ofSegments p segments).faults, f.cause ≠ .unterminated) :
    ∀ s ∈ segments, s.role ≠ .unclosed := by
  intro s hs hrole
  have hcause : s.cause? = some .unterminated := by rw [Segment.cause?, hrole]
  have hmem : ScanFault.Cause.unterminated ∈
      (Scan.ofSegments p segments).faults.map ScanFault.cause := by
    rw [ofSegments_causes]
    exact List.mem_filterMap.2 ⟨s, hs, hcause⟩
  obtain ⟨f, hf, hunterminated⟩ := List.mem_map.1 hmem
  exact h f hf hunterminated

/-- The line below a place is the first line of a text, that many lines further down. -/
lemma after_newline (p : Position) : p.after newline = Position.origin.lower p.line := by
  rw [Position.lower, Nat.add_comm]
  rfl

lemma ofSegments_newline (p : Position) (above below : List Segment) :
    Scan.ofSegments p (above ++ newline :: below) =
      let a := Scan.ofSegments p above
      let b := (Scan.ofSegments .origin below).lower a.finish.line
      ⟨a.tokens ++ ⟨.newline, "\n", none, a.finish⟩ :: b.tokens, a.faults ++ b.faults, b.finish⟩ := by
  have hbelow : ∀ q : Position, Scan.ofSegments q (newline :: below) =
      let b := (Scan.ofSegments .origin below).lower q.line
      ⟨⟨.newline, "\n", none, q⟩ :: b.tokens, b.faults, b.finish⟩ := by
    intro q
    rw [Scan.ofSegments, after_newline, ofSegments_lower]
    rfl
  rw [ofSegments_append]
  dsimp only
  rw [hbelow]

/-- **Scanning splits at a line end**, if no string is open there. The text above it gives its own tokens
and faults. The line end is a token where the text above has its closing mark. The text below gives
its own tokens and faults too, as many lines further down as the text above has. -/
theorem scan_splits {above below : String} (habove : ShortNumbers above.toList)
    (hbelow : ShortNumbers below.toList) :
    ∃ a b, scan? above = some a ∧ scan? below = some b ∧
      ((∀ f ∈ a.faults, f.cause ≠ .unterminated) →
        ∃ joined, scan? (above ++ "\n" ++ below) = some joined ∧
          joined.closed =
            a.tokens ++ ⟨.newline, "\n", none, a.finish⟩ :: (b.lower a.finish.line).closed ∧
          joined.errors = a.errors ++ (b.lower a.finish.line).errors) := by
  refine ⟨_, _, scan?_of_shortNumbers habove, scan?_of_shortNumbers hbelow, fun hclosed => ?_⟩
  have hcut : cut (above ++ "\n" ++ below).toList =
      cut above.toList ++ newline :: cut below.toList := by
    have htext : (above ++ "\n" ++ below).toList = above.toList ++ '\n' :: below.toList := by
      rw [String.toList_append, String.toList_append, List.append_assoc]
      rfl
    rw [htext]
    exact cut_newline (laid_cut habove.role_ne) (role_ne_unclosed hclosed) (laid_cut hbelow.role_ne)
  have hshort : hasOverlongNumber (cut above.toList ++ newline :: cut below.toList) = false := by
    rw [hasOverlongNumber_eq_false, List.forall_mem_append, List.forall_mem_cons]
    exact ⟨habove.role_ne, by simp [newline], hbelow.role_ne⟩
  refine ⟨Scan.ofSegments .origin (cut above.toList ++ newline :: cut below.toList), ?_, ?_, ?_⟩
  · rw [scan?, hcut]
    simp [hshort]
  · rw [ofSegments_newline, Scan.closed, List.append_assoc]
    rfl
  · rw [ofSegments_newline, Scan.errors, List.map_append]
    rfl

/-- A text that ends in the first half of an operator, with a string over two lines and a character that
begins nothing. -/
def looseText : String := "x <- \"a\nb\"@ <"

/-- A text that begins with the second half of the operator and ends in an open string. -/
def openText : String := "- 007\n\"c"

theorem scan_splits_looseText :
    ShortNumbers looseText.toList ∧ ShortNumbers openText.toList ∧
      ∃ a b, scan? looseText = some a ∧ scan? openText = some b ∧
        (∀ f ∈ a.faults, f.cause ≠ .unterminated) ∧ a.finish = ⟨2, 6⟩ ∧
        ∃ joined, scan? (looseText ++ "\n" ++ openText) = some joined ∧
          joined.closed =
            a.tokens ++ ⟨.newline, "\n", none, a.finish⟩ :: (b.lower a.finish.line).closed ∧
          joined.errors = a.errors ++ (b.lower a.finish.line).errors := by
  have hloose : ShortNumbers looseText.toList := shortNumbers_of_length (by decide)
  have hopen : ShortNumbers openText.toList := shortNumbers_of_length (by decide)
  obtain ⟨a, b, ha, hb, hsplits⟩ := scan_splits hloose hopen
  have hfaults : (scan? looseText).map (fun a => (a.faults, a.finish)) =
      some ([⟨2, .unexpected '@'⟩], ⟨2, 6⟩) := by decide +kernel
  rw [ha] at hfaults
  obtain ⟨hfaults, hfinish⟩ := Prod.mk.inj (Option.some.inj hfaults)
  have hclosed : ∀ f ∈ a.faults, f.cause ≠ .unterminated := by simp [hfaults]
  exact ⟨hloose, hopen, a, b, ha, hb, hclosed, hfinish, hsplits hclosed⟩

end Brushwork
