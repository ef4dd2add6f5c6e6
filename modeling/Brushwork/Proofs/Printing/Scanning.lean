import Mathlib.Data.Nat.Digits.Defs
import Brushwork.Proofs.Printing.Print
import Brushwork.Token.Scan

/-!
Scanning printed texts.

* `Piece.Stands`: in front of a break the text of a piece is cut off as one token, the piece itself.
  `stands_word`, `stands_number`, `stands_quoted` and `stands_op` are the four ways to write one.
* `Cuts`: a text begins with tokens that are these pieces, and `rest` follows.
* `scan?_print`: scanning the text of a program finds no fault, and its tokens are the pieces of the
  statements, with a line end between each two.
-/

namespace Brushwork

open Grammar Segment

/-! ### Pieces in front of a break -/

/-- The text is at its end, or a blank or a line end comes next. -/
def Breaks (cs : List Char) : Prop := ∀ c ∈ cs.head?, c = ' ' ∨ c = '\n'

lemma breaks_nil : Breaks [] := by simp [Breaks]

lemma breaks_blank (cs : List Char) : Breaks (' ' :: cs) := by simp [Breaks]

lemma breaks_newline (cs : List Char) : Breaks ('\n' :: cs) := by simp [Breaks]

/-- In front of a break the text of the piece is cut off as one token, the piece itself. -/
def Piece.Stands (p : Piece) : Prop :=
  ∃ c cs, p.text.toList = c :: cs ∧ ∀ rest, Breaks rest →
    first c (cs ++ rest) = (⟨c :: cs, .token p.kind p.literal⟩, rest)

variable {rest : List Char}

/-- A row of characters of one class ends at a break outside of the class. -/
lemma takeWhile_break {q : Char → Bool} (hq : q ' ' = false ∧ q '\n' = false) {cs : List Char}
    (hcs : ∀ c ∈ cs, q c = true) (hrest : Breaks rest) :
    (cs ++ rest).takeWhile q = cs ∧ (cs ++ rest).dropWhile q = rest := by
  have hstop : rest.takeWhile q = [] ∧ rest.dropWhile q = rest := by
    cases rest with
    | nil => exact ⟨rfl, rfl⟩
    | cons c r =>
        have hc : q c = false := by
          rcases hrest c rfl with rfl | rfl
          · exact hq.1
          · exact hq.2
        simp [hc]
  rw [List.takeWhile_append_of_pos hcs, List.dropWhile_append_of_pos hcs, hstop.1, hstop.2]
  simp

lemma isLetter_not_other {c : Char} (h : isLetter c = true) :
    c ≠ '"' ∧ Text.Digit.isAscii c = false := by
  have hrange : (97 ≤ c.toNat ∧ c.toNat ≤ 122) ∨ (65 ≤ c.toNat ∧ c.toNat ≤ 90) := by
    simp only [isLetter, Bool.or_eq_true, Bool.and_eq_true, decide_eq_true_eq] at h
    exact h
  constructor
  · rintro rfl
    revert hrange
    decide
  · by_contra hascii
    have hdigit : 48 ≤ c.toNat ∧ c.toNat ≤ 57 := by
      simp only [Text.Digit.isAscii, Bool.not_eq_false, Bool.and_eq_true, decide_eq_true_eq]
        at hascii
      exact hascii
    omega

lemma stands_word {w : String} (hw : isWord w = true) : (Piece.word w).Stands := by
  rw [isWord] at hw
  split at hw
  · cases hw
  · next c cs htext =>
    obtain ⟨hc, hcs⟩ := Bool.and_eq_true_iff.1 hw
    refine ⟨c, cs, htext, fun rest hrest => ?_⟩
    obtain ⟨hquote, hdigit⟩ := isLetter_not_other hc
    obtain ⟨htake, hdrop⟩ := takeWhile_break (by decide) (List.all_eq_true.1 hcs) hrest
    have hword : String.ofList (c :: cs) = w := by rw [← htext, String.ofList_toList]
    rw [first, if_neg hquote, hdigit, if_neg (by simp), if_pos hc, word, htake, hdrop]
    simp only [hword]
    rfl

/-! ### Numbers -/

lemma isAscii_of_isDigit {c : Char} (h : c.isDigit = true) : Text.Digit.isAscii c = true := by
  simp only [Char.isDigit, Bool.and_eq_true, decide_eq_true_eq] at h
  simp only [Text.Digit.isAscii, Bool.and_eq_true, decide_eq_true_eq]
  exact h

lemma ofAscii_toDigits (n : Nat) : Text.Numeral.ofAscii (Nat.toDigits 10 n) = n := by
  have h := Nat.ofDigitChars_toDigits (n := n) (by decide : 1 < 10) (by decide)
  rw [Text.Numeral.ofAscii, Text.Numeral.ofDigits, List.foldl_map]
  exact h

lemma stands_number {n : Nat} (hn : n ≤ maxNumber) : (Piece.number n).Stands := by
  have htext : (Piece.number n).text.toList = Nat.toDigits 10 n := by
    rw [Piece.number, Nat.toString_eq_repr, Nat.repr, String.toList_ofList]
  have hlength : (Nat.toDigits 10 n).length ≤ 10 :=
    (Nat.length_toDigits_le_iff (by decide) (by decide)).2 (Nat.lt_of_le_of_lt hn (by decide))
  have hdigits : ∀ c ∈ Nat.toDigits 10 n, Text.Digit.isAscii c = true := fun c hc =>
    isAscii_of_isDigit (Nat.isDigit_of_mem_toDigits (by decide) (by decide) hc)
  have hrole : digitsRole (Nat.toDigits 10 n) = .token .number (some (.int n)) := by
    rw [digitsRole, if_neg (by rw [Text.Numeral.maxDigits]; omega), ofAscii_toDigits,
      if_neg (by omega)]
  obtain ⟨c, cs, hcs⟩ := List.exists_cons_of_ne_nil (Nat.toDigits_ne_nil (b := 10) (n := n))
  rw [hcs] at hdigits hrole
  obtain ⟨hc, hdigits⟩ := List.forall_mem_cons.1 hdigits
  refine ⟨c, cs, htext.trans hcs, fun rest hrest => ?_⟩
  have hquote : c ≠ '"' := by
    rintro rfl
    revert hc
    decide
  obtain ⟨htake, hdrop⟩ := takeWhile_break (by decide) hdigits hrest
  rw [first, if_neg hquote, if_pos hc, number, htake, hdrop, hrole]
  rfl

/-! ### Texts in quotes -/

lemma closeQuote?_escape (cs rest : List Char) :
    closeQuote? (escape cs ++ '"' :: rest) = some (escape cs, rest) := by
  induction cs with
  | nil => rfl
  | cons c cs ih =>
      by_cases h : c = '"' ∨ c = '\\'
      · rw [escape, if_pos h, List.cons_append, List.cons_append, closeQuote?, ih]
        rfl
      · rw [escape, if_neg h, List.cons_append, closeQuote?, ih]
        · rfl
        · exact fun hc _ => h (.inr hc)
        · exact fun hc => h (.inl hc)
        · exact fun _ _ hc _ => h (.inr hc)

lemma unescape_escape (cs : List Char) : unescape (escape cs) = cs := by
  induction cs with
  | nil => rfl
  | cons c cs ih =>
      by_cases h : c = '"' ∨ c = '\\'
      · rw [escape, if_pos h, unescape, ih]
      · rw [escape, if_neg h, unescape, ih]
        exact fun _ _ hc _ => h (.inr hc)

lemma stands_quoted (s : String) : (Piece.quoted s).Stands := by
  refine ⟨'"', escape s.toList ++ ['"'], ?_, fun rest _ => ?_⟩
  · rw [Piece.quoted, quote, String.toList_ofList]
  · have hclose : closeQuote? (escape s.toList ++ ['"'] ++ rest) = some (escape s.toList, rest) := by
      rw [List.append_assoc]
      exact closeQuote?_escape s.toList rest
    rw [first, if_pos rfl, quoted, hclose]
    simp only [unescape_escape, String.ofList_toList]
    rfl

/-! ### Operators and punctuation -/

/-- The first character of a text that is no word, number or string is looked at with the one behind
it; a break is never taken along. -/
lemma first_single {c : Char} {kind : Kind} (hc : singleKind? c = some kind)
    (hother : c ≠ '"' ∧ Text.Digit.isAscii c = false ∧ isLetter c = false) (hrest : Breaks rest)
    (hpair : pairKind? c ' ' = none ∧ pairKind? c '\n' = none) :
    first c rest = (⟨[c], .token kind none⟩, rest) := by
  obtain ⟨hquote, hdigit, hletter⟩ := hother
  rw [first, if_neg hquote, hdigit, if_neg (by simp), hletter, if_neg (by simp)]
  cases rest with
  | nil => rw [mark, single, hc]
  | cons d cs =>
      have hd : pairKind? c d = none := by
        rcases hrest d rfl with rfl | rfl
        · exact hpair.1
        · exact hpair.2
      rw [mark, hd]
      dsimp only
      rw [single, hc]

lemma stands_single {c : Char} {kind : Kind} (hc : singleKind? c = some kind)
    (hother : c ≠ '"' ∧ Text.Digit.isAscii c = false ∧ isLetter c = false)
    (hpair : pairKind? c ' ' = none ∧ pairKind? c '\n' = none) {text : String}
    (htext : text.toList = [c]) : (Piece.mk kind text none).Stands :=
  ⟨c, [], htext, fun _ hrest => first_single hc hother hrest hpair⟩

lemma stands_pair {c d : Char} {kind : Kind} (hcd : pairKind? c d = some kind)
    (hother : c ≠ '"' ∧ Text.Digit.isAscii c = false ∧ isLetter c = false) {text : String}
    (htext : text.toList = [c, d]) : (Piece.mk kind text none).Stands := by
  refine ⟨c, [d], htext, fun rest _ => ?_⟩
  obtain ⟨hquote, hdigit, hletter⟩ := hother
  rw [first, if_neg hquote, hdigit, if_neg (by simp), hletter, if_neg (by simp), List.cons_append,
    mark, hcd]
  rfl

lemma stands_op (o : Op) : (Piece.op o).Stands := by
  cases o with
  | or | and | equal | notEqual | greaterEqual | lessEqual | pow =>
      exact stands_pair rfl (by decide) rfl
  | greater | less | add | sub | mul | div | mod =>
      exact stands_single rfl (by decide) (by decide) rfl

/-! ### Texts of pieces -/

/-- The piece that a segment is, if it is a token. -/
def Segment.piece? (s : Segment) : Option Piece :=
  match s.role with
  | .token kind literal => some ⟨kind, String.ofList s.text, literal⟩
  | _ => none

/-- The segment is a token or is passed over. -/
def Segment.isPlain (s : Segment) : Bool :=
  match s.role with
  | .token _ _ | .skipped => true
  | _ => false

/-- The text begins with segments that are the pieces or are passed over, and `rest` follows. -/
def Cuts (cs : List Char) (ps : List Piece) (rest : List Char) : Prop :=
  ∃ segments, cut cs = segments ++ cut rest ∧ (∀ s ∈ segments, s.isPlain = true) ∧
    segments.filterMap Segment.piece? = ps

section Cuts

variable {cs : List Char} {ps qs : List Piece}

lemma Cuts.refl (cs : List Char) : Cuts cs [] cs := ⟨[], rfl, by simp, rfl⟩

lemma Cuts.trans {mid : List Char} (h : Cuts cs ps mid) (h' : Cuts mid qs rest) :
    Cuts cs (ps ++ qs) rest := by
  obtain ⟨segments, hcut, hplain, rfl⟩ := h
  obtain ⟨segments', hcut', hplain', rfl⟩ := h'
  refine ⟨segments ++ segments', by rw [hcut, hcut', List.append_assoc], ?_, List.filterMap_append⟩
  exact List.forall_mem_append.2 ⟨hplain, hplain'⟩

/-- One segment at a time. -/
lemma cuts_of_first {c : Char} {s : Segment} (h : first c cs = (s, rest)) (hs : s.isPlain = true) :
    Cuts (c :: cs) s.piece?.toList rest := by
  refine ⟨[s], ?_, by simpa using hs, ?_⟩
  · rw [cut, h]
    rfl
  · cases hp : s.piece? <;> simp [hp]

lemma cuts_blank (cs : List Char) : Cuts (' ' :: cs) [] cs := by
  have h : first ' ' cs = (⟨[' '], .skipped⟩, cs) := by
    cases cs <;> rfl
  exact cuts_of_first h rfl

lemma cuts_newline (cs : List Char) : Cuts ('\n' :: cs) [.newline] cs := by
  have h : first '\n' cs = (⟨['\n'], .token .newline none⟩, cs) := by
    cases cs <;> rfl
  exact cuts_of_first h rfl

lemma Piece.Stands.cuts {p : Piece} (h : p.Stands) (hrest : Breaks rest) :
    Cuts (p.text.toList ++ rest) [p] rest := by
  obtain ⟨c, cs, htext, hfirst⟩ := h
  have hpiece : Segment.piece? ⟨c :: cs, .token p.kind p.literal⟩ = some p := by
    rw [Segment.piece?, ← htext, String.ofList_toList]
  have hcuts := cuts_of_first (hfirst rest hrest) rfl
  rw [hpiece] at hcuts
  rw [htext]
  exact hcuts

/-- **A line**: pieces with a blank between each two are cut off one after the other. -/
theorem cuts_line (hps : ∀ p ∈ ps, p.Stands) (hrest : Breaks rest) :
    Cuts ([' '].intercalate (ps.map (·.text.toList)) ++ rest) ps rest := by
  induction ps with
  | nil => exact Cuts.refl rest
  | cons p ps ih =>
      obtain ⟨hp, hps⟩ := List.forall_mem_cons.1 hps
      cases ps with
      | nil =>
          rw [List.map_singleton, List.intercalate_singleton]
          exact hp.cuts hrest
      | cons q qs =>
          rw [List.map_cons, List.map_cons, List.intercalate_cons_cons, List.append_assoc,
            List.append_assoc]
          exact (hp.cuts (breaks_blank _)).trans ((cuts_blank _).trans (ih hps))

/-- **Lines**: the line ends between them are pieces of their own. -/
theorem cuts_lines {lines : List (List Piece)} (h : ∀ ps ∈ lines, ∀ p ∈ ps, p.Stands) :
    Cuts (['\n'].intercalate (lines.map fun ps => [' '].intercalate (ps.map (·.text.toList))))
      ([.newline].intercalate lines) [] := by
  induction lines with
  | nil => exact Cuts.refl []
  | cons ps lines ih =>
      obtain ⟨hps, hlines⟩ := List.forall_mem_cons.1 h
      cases lines with
      | nil =>
          have hline := cuts_line hps breaks_nil
          rw [List.append_nil] at hline
          rw [List.map_singleton, List.intercalate_singleton, List.intercalate_singleton]
          exact hline
      | cons qs lines =>
          rw [List.map_cons, List.map_cons, List.intercalate_cons_cons, List.intercalate_cons_cons,
            List.append_assoc, List.append_assoc]
          exact (cuts_line hps (breaks_newline _)).trans ((cuts_newline _).trans (ih hlines))

end Cuts

/-! ### Tokens -/

lemma ofSegments_pieces (p : Position) (segments : List Segment) :
    (Scan.ofSegments p segments).tokens.map Token.piece = segments.filterMap Segment.piece? := by
  induction segments generalizing p with
  | nil => rfl
  | cons s segments ih =>
      rw [Scan.ofSegments, List.map_append, ih, List.filterMap_cons, Segment.token?, Segment.piece?]
      cases s.role <;> rfl

lemma ofSegments_faults (p : Position) {segments : List Segment}
    (h : ∀ s ∈ segments, s.isPlain = true) : (Scan.ofSegments p segments).faults = [] := by
  induction segments generalizing p with
  | nil => rfl
  | cons s segments ih =>
      obtain ⟨hs, hsegments⟩ := List.forall_mem_cons.1 h
      have hcause : s.cause? = none := by
        rw [Segment.isPlain] at hs
        rw [Segment.cause?]
        split at hs <;> simp_all
      rw [Scan.ofSegments, ih _ hsegments, hcause]
      rfl

/-- A text that is cut up into pieces is scanned without faults, and they are its tokens. -/
theorem scan?_of_cuts {source : String} {ps : List Piece} (h : Cuts source.toList ps []) :
    ∃ scan, scan? source = some scan ∧ scan.errors = [] ∧ scan.tokens.map Token.piece = ps := by
  obtain ⟨segments, hcut, hplain, rfl⟩ := h
  have hall : cut source.toList = segments := by rw [hcut, cut, List.append_nil]
  have hover : hasOverlongNumber segments = false := by
    rw [hasOverlongNumber, List.any_eq_false]
    intro s hs hrole
    have hs := hplain s hs
    rw [Segment.isPlain, eq_of_beq hrole] at hs
    cases hs
  refine ⟨Scan.ofSegments .origin segments, ?_, ?_, ofSegments_pieces _ _⟩
  · rw [scan?, hall]
    simp [hover]
  · rw [Scan.errors, ofSegments_faults _ hplain]
    rfl

/-! ### Printed programs -/

lemma isWord_reserved {w : String} (h : w ∈ Kind.reserved.map Prod.fst) : isWord w = true := by
  have hall : ∀ w ∈ Kind.reserved.map Prod.fst, isWord w = true := by decide
  exact hall w h

lemma stands_command (c : Command) : (Piece.word c.word).Stands := by
  refine stands_word (isWord_reserved ?_)
  cases c <;> decide

lemma stands_openParen : Piece.openParen.Stands := stands_single rfl (by decide) (by decide) rfl

lemma stands_closeParen : Piece.closeParen.Stands := stands_single rfl (by decide) (by decide) rfl

lemma stands_comma : Piece.comma.Stands := stands_single rfl (by decide) (by decide) rfl

/-- The name of a function is a reserved word. -/
lemma eq_word_of_ofWord? {name : String} {b : Builtin} (h : Builtin.ofWord? name = some b) :
    name = b.word := by
  have hb := List.find?_some h
  exact (eq_of_beq hb).symm

lemma argPieces_stand {es : List Expr} (h : ∀ e ∈ es, ∀ p ∈ e.pieces, p.Stands) :
    ∀ p ∈ Expr.argPieces es, p.Stands := by
  induction es with
  | nil => exact List.forall_mem_nil _
  | cons e es ih =>
      obtain ⟨he, hes⟩ := List.forall_mem_cons.1 h
      cases es with
      | nil => exact he
      | cons e' es =>
          refine List.forall_mem_append.2 ⟨he, List.forall_mem_cons.2 ⟨stands_comma, ih hes⟩⟩

/-- Every token of an expression that can be printed is scanned as it was meant. -/
lemma pieces_stand {g : Grade} {e : Expr} (hg : e.Graded g) (hfit : e.All Expr.CallFits) :
    ∀ p ∈ e.pieces, p.Stands := by
  induction hg with
  | operand _ ih => exact ih hfit
  | primary _ ih => exact ih hfit
  | chain o _ _ ihl ihr =>
      obtain ⟨-, hl, hr⟩ := Expr.all_binary.1 hfit
      rw [Expr.pieces, Op.ofSymbol?_symbol]
      split
      · exact List.forall_mem_cons.2 ⟨stands_op _, ihr hr⟩
      · refine List.forall_mem_append.2 ⟨List.forall_mem_append.2 ⟨ihl hl, ?_⟩, ihr hr⟩
        exact List.forall_mem_singleton.2 (stands_op o)
  | @minus m m' e _ ih =>
      obtain ⟨-, -, he⟩ := Expr.all_binary.1 hfit
      have hsub : Op.ofSymbol? "-" = some .sub := by decide
      rw [Expr.pieces, hsub]
      split
      · exact List.forall_mem_cons.2 ⟨stands_op _, ih he⟩
      · refine List.forall_mem_append.2 ⟨List.forall_mem_append.2 ⟨?_, ?_⟩, ih he⟩
        · exact List.forall_mem_singleton.2 (stands_number (Nat.zero_le _))
        · exact List.forall_mem_singleton.2 (stands_op _)
  | number h₀ h₁ => exact List.forall_mem_singleton.2 (stands_number (by omega))
  | truth b =>
      refine List.forall_mem_singleton.2 (stands_word ?_)
      cases b <;> decide
  | text s => exact List.forall_mem_singleton.2 (stands_quoted s)
  | var h => exact List.forall_mem_singleton.2 (stands_word h.1)
  | group _ ih =>
      rw [Expr.pieces]
      refine List.forall_mem_cons.2 ⟨stands_openParen, List.forall_mem_append.2 ⟨?_, ?_⟩⟩
      · exact ih (Expr.all_group.1 hfit).2
      · exact List.forall_mem_singleton.2 stands_closeParen
  | @call m name args _ ih =>
      obtain ⟨⟨b, hb, -⟩, hargs⟩ := Expr.all_call.1 hfit
      obtain rfl := eq_word_of_ofWord? hb
      rw [Expr.pieces]
      refine List.forall_mem_cons.2 ⟨stands_word (isWord_reserved ?_), ?_⟩
      · cases b <;> decide
      refine List.forall_mem_cons.2 ⟨stands_openParen, List.forall_mem_append.2 ⟨?_, ?_⟩⟩
      · exact argPieces_stand fun a ha => ih a ha (hargs a ha)
      · exact List.forall_mem_singleton.2 stands_closeParen

lemma commandPieces_stand (c : Command) {args : List Expr}
    (h : ∀ e ∈ args, ∀ p ∈ e.pieces, p.Stands) : ∀ p ∈ Action.commandPieces c args, p.Stands := by
  rw [Action.commandPieces]
  refine List.forall_mem_cons.2 ⟨stands_command c, List.forall_mem_cons.2 ⟨stands_openParen, ?_⟩⟩
  exact List.forall_mem_append.2
    ⟨argPieces_stand h, List.forall_mem_singleton.2 stands_closeParen⟩

lemma actionPieces_stand {a : Action} (hw : a.Writable)
    (hfit : ∀ e ∈ a.exprs, e.All Expr.CallFits) : ∀ p ∈ a.pieces, p.Stands := by
  have hexprs : ∀ e ∈ a.exprs, ∀ p ∈ e.pieces, p.Stands := fun e he =>
    pieces_stand (hw.exprs e he) (hfit e he)
  have hnames : ∀ name ∈ a.names, (Piece.word name).Stands := fun name hname =>
    stands_word (hw.names name hname).1
  cases a with
  | spawn | size | drawLine | drawCircle | drawRectangle | fill =>
      exact commandPieces_stand _ hexprs
  | color name =>
      simp only [Action.pieces, List.forall_mem_cons]
      exact ⟨stands_command _, stands_openParen, stands_quoted name, stands_closeParen,
        List.forall_mem_nil _⟩
  | assign name value =>
      have harrow : Piece.arrow.Stands := stands_pair rfl (by decide) rfl
      refine List.forall_mem_cons.2 ⟨hnames name (by simp [Action.names]), ?_⟩
      exact List.forall_mem_cons.2 ⟨harrow, hexprs value (by simp [Action.exprs])⟩
  | label name => exact List.forall_mem_singleton.2 (hnames name (by simp [Action.names]))
  | goTo target condition =>
      have hopen : Piece.openBracket.Stands := stands_single rfl (by decide) (by decide) rfl
      have hclose : Piece.closeBracket.Stands := stands_single rfl (by decide) (by decide) rfl
      simp only [Action.pieces, List.forall_mem_append, List.forall_mem_cons]
      exact ⟨⟨stands_command _, hopen, hnames target (by simp [Action.names]), hclose,
        stands_openParen, List.forall_mem_nil _⟩, hexprs condition (by simp [Action.exprs]),
        stands_closeParen, List.forall_mem_nil _⟩
  | foreign form => exact absurd hw.isForm id

/-- **Scanning what was printed** finds no fault, and the tokens are those of the statements, with a
line end between each two. -/
theorem scan?_print {ss : List Stmt} (hw : ∀ s ∈ ss, s.action.Writable)
    (hfit : ∀ s ∈ ss, ∀ e ∈ s.action.exprs, e.All Expr.CallFits) :
    ∃ scan, scan? (print ss) = some scan ∧ scan.errors = [] ∧
      scan.tokens.map Token.piece = [.newline].intercalate (ss.map (·.action.pieces)) := by
  have hlines : ∀ ps ∈ ss.map (·.action.pieces), ∀ p ∈ ps, p.Stands :=
    List.forall_mem_map.2 fun s hs => actionPieces_stand (hw s hs) (hfit s hs)
  have htext : (print ss).toList = ['\n'].intercalate
      ((ss.map (·.action.pieces)).map fun ps => [' '].intercalate (ps.map (·.text.toList))) := by
    rw [print, String.toList_intercalate, List.map_map, List.map_map]
    congr 2
    funext s
    exact String.toList_intercalate.trans (congrArg _ List.map_map)
  refine scan?_of_cuts ?_
  rw [htext]
  exact cuts_lines hlines

end Brushwork
