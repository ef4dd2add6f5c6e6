import Mathlib.Algebra.Order.BigOperators.Group.List
import Mathlib.Algebra.Order.Group.Nat
import Mathlib.Data.List.DropRight
import Brushwork.Proofs.Token.Tiling

/-!
The places of tokens.

* `Position.behind`: the place behind a text, counted in the text as a whole. There is one line for
  every line end, and one column for every character since the last of them.
* `hiddenEnds` and `lined`: a line end behind a backslash is not counted as one inside a string.
  `lined` is the text with a blank in place of each of these.
* `Segment.Fits.after_behind`: what one segment adds to a place. `foldl_after_behind`: what a row of
  segments adds.
* `after_lower`: further down, a segment adds the same.
* `scan_lines`: tokens and faults stand on lines of the text.
* `token_places`: a token stands at the place behind the lined text in front of it. It stands at the
  place behind the text itself exactly if no string in front of it hides a line end.
-/

namespace Brushwork

/-! ### The place behind a text -/

/-- The place behind the text. -/
def Position.behind (cs : List Char) : Position :=
  ⟨1 + cs.count '\n', 1 + (cs.rtakeWhile (· != '\n')).length⟩

section Behind

variable {c : Char} {cs : List Char}

lemma behind_newline (pre : List Char) :
    Position.behind (pre ++ ['\n']) = (Position.behind pre).nextLine := by
  have hcount : (pre ++ ['\n']).count '\n' = pre.count '\n' + 1 := by simp
  have hcol : (pre ++ ['\n']).rtakeWhile (· != '\n') = [] :=
    List.rtakeWhile_concat_neg _ _ _ (by simp)
  rw [Position.behind, hcount, hcol]
  rfl

lemma behind_other (hc : c ≠ '\n') (pre : List Char) :
    Position.behind (pre ++ [c]) = (Position.behind pre).right 1 := by
  have hcount : (pre ++ [c]).count '\n' = pre.count '\n' := by simp [hc]
  have hcol : (pre ++ [c]).rtakeWhile (· != '\n') = pre.rtakeWhile (· != '\n') ++ [c] :=
    List.rtakeWhile_concat_pos _ _ _ (by simp [hc])
  rw [Position.behind, hcount, hcol, List.length_append]
  rfl

/-- A text on one line moves the place to the right. -/
lemma behind_append (h : '\n' ∉ cs) (pre : List Char) :
    Position.behind (pre ++ cs) = (Position.behind pre).right cs.length := by
  induction cs generalizing pre with
  | nil => rw [List.append_nil]; rfl
  | cons c cs ih =>
      obtain ⟨hc, hcs⟩ := not_or.1 (mt List.mem_cons.2 h)
      rw [List.append_cons, ih hcs, behind_other (Ne.symm hc), Position.right, Position.right,
        Position.right, List.length_cons]
      simp only [Position.mk.injEq, true_and]
      omega

end Behind

/-! ### Hidden line ends -/

/-- How many line ends of a string stand behind a backslash. -/
def hiddenEnds : List Char → Nat
  | [] => 0
  | '\\' :: c :: cs => (if c = '\n' then 1 else 0) + hiddenEnds cs
  | _ :: cs => hiddenEnds cs

/-- The string with a blank in place of every line end that stands behind a backslash. -/
def lined : List Char → List Char
  | [] => []
  | '\\' :: c :: cs => '\\' :: (if c = '\n' then ' ' else c) :: lined cs
  | c :: cs => c :: lined cs

section Lined

variable {c : Char} {cs : List Char}

lemma count_lined (cs : List Char) : (lined cs).count '\n' + hiddenEnds cs = cs.count '\n' := by
  fun_induction lined cs with
  | case1 => rfl
  | case2 c cs ih =>
      have hslash : ∀ us : List Char, ('\\' :: us).count '\n' = us.count '\n' := fun us => by simp
      rw [hiddenEnds, hslash, hslash]
      split
      · next hc =>
        -- the line end is missing from the lined text, and is counted as hidden instead
        have hblank : (' ' :: lined cs).count '\n' = (lined cs).count '\n' := by simp
        rw [hc, hblank, List.count_cons_self]
        omega
      · next hc =>
        rw [List.count_cons_of_ne hc, List.count_cons_of_ne hc]
        omega
  | case3 c cs hne ih =>
      rw [hiddenEnds]
      · simp only [List.count_cons]
        omega
      · exact hne

lemma lined_eq_self (h : hiddenEnds cs = 0) : lined cs = cs := by
  fun_induction lined cs with
  | case1 => rfl
  | case2 c cs ih =>
      rw [hiddenEnds] at h
      split at h
      · omega
      · next hc => rw [if_neg hc, ih (by omega)]
  | case3 c cs hne ih =>
      rw [hiddenEnds] at h
      · rw [ih h]
      · exact hne

/-- Without a backslash nothing is hidden. -/
lemma hiddenEnds_eq_zero (h : '\\' ∉ cs) : hiddenEnds cs = 0 := by
  fun_induction hiddenEnds cs with
  | case1 => rfl
  | case2 c cs ih => simp at h
  | case3 c cs hne ih => exact ih fun hmem => h (List.mem_cons_of_mem c hmem)

lemma lined_singleton (c : Char) : lined [c] = [c] := by
  rw [lined, lined]
  simp

/-- **A string** moves the place to the one behind its lined text. -/
theorem afterQuoted_behind (pre cs : List Char) :
    (Position.behind pre).afterQuoted cs = Position.behind (pre ++ lined cs) := by
  fun_induction lined cs generalizing pre with
  | case1 => rw [List.append_nil, Position.afterQuoted]
  | case2 c cs ih =>
      have hline : '\n' ∉ ['\\', if c = '\n' then ' ' else c] := by
        split
        · decide
        · next hc => simp [Ne.symm hc]
      have hpair := behind_append hline pre
      rw [List.append_cons, List.append_cons, ← ih, List.append_assoc]
      exact congrArg (Position.afterQuoted · cs) hpair.symm
  | case3 c cs hne ih =>
      rw [List.append_cons, ← ih]
      by_cases hc : c = '\n'
      · subst hc
        rw [Position.afterQuoted, behind_newline]
      · rw [behind_other hc, Position.afterQuoted]
        · exact hne
        · exact hc

end Lined

/-! ### The place behind a segment -/

namespace Segment

variable {c d : Char} {cs rest : List Char} {s : Segment} {kind : Kind}

/-- The text stands on one line and has no backslash. -/
def Level (cs : List Char) : Prop := '\n' ∉ cs ∧ '\\' ∉ cs

lemma Level.right_behind (h : Level cs) (pre : List Char) :
    (Position.behind pre).right cs.length = Position.behind (pre ++ lined cs) := by
  rw [lined_eq_self (hiddenEnds_eq_zero h.2), behind_append h.1]

lemma level_of_class {p : Char → Bool} (hp : p '\n' = false ∧ p '\\' = false)
    (h : ∀ c ∈ cs, p c = true) : Level cs := by
  constructor
  · intro hmem
    exact absurd (h _ hmem) (by simp [hp.1])
  · intro hmem
    exact absurd (h _ hmem) (by simp [hp.2])

lemma level_of_pairKind? (h : pairKind? c d = some kind) : Level [c, d] := by
  rw [pairKind?.eq_def] at h
  split at h
  case h_9 => cases h
  all_goals exact ⟨by decide, by decide⟩

/-- The line end is the one token of its kind. -/
lemma singleKind?_newline (h : singleKind? c = some kind) : kind = .newline ↔ c = '\n' := by
  rw [singleKind?.eq_def] at h
  split at h
  case h_16 => cases h
  all_goals
    obtain rfl := Option.some.inj h
    decide

lemma after_of_kind {p : Position} {literal : Option Literal}
    (hrole : s.role = .token kind literal) (hnewline : kind ≠ .newline)
    (hstring : kind ≠ .string) : p.after s = p.right s.text.length := by
  rw [Position.after, hrole]
  split
  · next heq => cases heq; exact absurd rfl hnewline
  · next heq => cases heq; exact absurd rfl hstring
  · next heq => cases heq
  · rfl

/-- A character that is no token by itself is not a line end. -/
lemma right_behind_alone (hsingle : singleKind? c = none) (pre : List Char) :
    (Position.behind pre).right 1 = Position.behind (pre ++ lined [c]) := by
  have hc : c ≠ '\n' := by
    rintro rfl
    cases hsingle
  rw [lined_singleton, behind_other hc]

/-- **A segment** moves the place to the one behind its lined text. -/
theorem Fits.after_behind (h : Fits rest s) (pre : List Char) :
    (Position.behind pre).after s = Position.behind (pre ++ lined s.text) := by
  cases h with
  | @word c cs hc hcs _ w _ =>
      have hlevel : Level (c :: cs) := by
        refine level_of_class (p := isWordChar) (by decide) (List.forall_mem_cons.2 ⟨?_, hcs⟩)
        simp [isWordChar, hc]
      obtain ⟨hnewline, hstring, -⟩ := ofWord_ne w
      rw [after_of_kind rfl hnewline hstring]
      exact hlevel.right_behind pre
  | @number ds hds _ => exact (level_of_class (by decide) hds.digits).right_behind pre
  | string => exact afterQuoted_behind pre _
  | pair hpair =>
      obtain ⟨hnewline, hstring, -⟩ := pairKind?_ne hpair
      rw [after_of_kind rfl hnewline hstring]
      exact (level_of_pairKind? hpair).right_behind pre
  | @single c kind hsingle _ =>
      rw [lined_singleton]
      by_cases hc : c = '\n'
      · subst hc
        obtain rfl := Option.some.inj hsingle
        exact (behind_newline pre).symm
      · have hnewline : kind ≠ .newline := fun heq => hc ((singleKind?_newline hsingle).1 heq)
        rw [after_of_kind rfl hnewline (singleKind?_ne hsingle).1]
        exact (behind_other hc pre).symm
  | blank hblank => exact right_behind_alone (isMark_of_blank hblank).2 pre
  | lone hlone => exact right_behind_alone (isMark_of_lone hlone).2 pre
  | stray _ hsingle => exact right_behind_alone hsingle pre
  | tooLarge hds => exact (level_of_class (by decide) hds.digits).right_behind pre
  | unclosed => exact afterQuoted_behind pre _

/-- **Segments in a row** move the place to the one behind their lined texts. -/
theorem foldl_after_behind {segments : List Segment} (h : ∀ s ∈ segments, ∃ rest, Fits rest s)
    (pre : List Char) :
    segments.foldl Position.after (Position.behind pre) =
      Position.behind (pre ++ segments.flatMap fun s => lined s.text) := by
  induction segments generalizing pre with
  | nil => simp
  | cons s segments ih =>
      obtain ⟨⟨rest, hs⟩, hsegments⟩ := List.forall_mem_cons.1 h
      rw [List.foldl_cons, hs.after_behind, ih hsegments, List.flatMap_cons, List.append_assoc]

/-- Each hidden line end is one that the lined texts lack. -/
lemma count_flatMap_lined (segments : List Segment) :
    (segments.flatMap fun s => lined s.text).count '\n' +
        (segments.map fun s => hiddenEnds s.text).sum = (segments.flatMap text).count '\n' := by
  induction segments with
  | nil => rfl
  | cons s segments ih =>
      have hs := count_lined s.text
      simp only [List.flatMap_cons, List.count_append, List.map_cons, List.sum_cons]
      omega

end Segment

/-! ### Places further down -/

/-- The place `n` lines further down. -/
def Position.lower (n : Nat) (p : Position) : Position := ⟨p.line + n, p.col⟩

section Lower

variable (n : Nat) (p : Position)

@[simp] lemma right_lower (k : Nat) : (p.lower n).right k = (p.right k).lower n := rfl

@[simp] lemma nextLine_lower : (p.lower n).nextLine = p.nextLine.lower n := by
  rw [Position.nextLine, Position.nextLine, Position.lower, Position.lower, Nat.add_right_comm]

@[simp] lemma afterQuoted_lower (cs : List Char) :
    (p.lower n).afterQuoted cs = (p.afterQuoted cs).lower n := by
  fun_induction Position.afterQuoted p cs with
  | case1 => rw [Position.afterQuoted]
  | case2 p c cs ih => rw [Position.afterQuoted, right_lower, ih]
  | case3 p cs ih => rw [Position.afterQuoted, nextLine_lower, ih]
  | case4 p c cs hslash hnewline ih =>
      rw [Position.afterQuoted, right_lower, ih]
      · exact hslash
      · exact hnewline

lemma after_lower (s : Segment) : (p.lower n).after s = (p.after s).lower n := by
  rw [Position.after, Position.after]
  split <;> simp

end Lower

/-! ### The place of a token -/

open Segment

/-- The token is the first of the segments, or closes the tokens where there are none left. -/
def Token.Starts (t : Token) : List Segment → Prop
  | [] => t.piece = ⟨.eof, "", none⟩
  | s :: _ => s.piece? = some t.piece

/-- The token is number `i` of those that the segments make, and it comes behind `before`. -/
structure Token.Follows (t : Token) (i : Nat) (segments before : List Segment) : Prop where
  starts : ∃ after, segments = before ++ after ∧ t.Starts after
  number : (before.filterMap Segment.piece?).length = i

/-- With one more segment in front, a token comes behind that one as well. -/
lemma Token.Follows.cons {t : Token} {i : Nat} {segments before : List Segment}
    (h : t.Follows i segments before) (s : Segment) :
    t.Follows (i + s.piece?.toList.length) (s :: segments) (s :: before) := by
  obtain ⟨⟨after, rfl, hstarts⟩, hnumber⟩ := h
  refine ⟨⟨after, rfl, hstarts⟩, ?_⟩
  rw [List.filterMap_cons, ← hnumber]
  cases s.piece? <;> rfl

lemma closed_cons (p : Position) (s : Segment) (segments : List Segment) :
    (Scan.ofSegments p (s :: segments)).closed =
      (s.token? p).toList ++ (Scan.ofSegments (p.after s) segments).closed := by
  rw [Scan.closed, Scan.closed, Scan.ofSegments, List.append_assoc]

/-- Every token comes behind some of the segments, and stands where these end. -/
lemma closed_follows {p : Position} {segments : List Segment} {i : Nat} {t : Token}
    (h : (Scan.ofSegments p segments).closed[i]? = some t) :
    ∃ before, t.Follows i segments before ∧ t.position = before.foldl Position.after p := by
  induction segments generalizing p i with
  | nil =>
      cases i with
      | zero =>
          obtain rfl := Option.some.inj h
          exact ⟨[], ⟨⟨[], rfl, rfl⟩, rfl⟩, rfl⟩
      | succ i => simp [Scan.ofSegments, Scan.closed] at h
  | cons s segments ih =>
      rw [closed_cons] at h
      cases hrole : s.role with
      | token kind literal =>
          have htoken : s.token? p = some ⟨kind, String.ofList s.text, literal, p⟩ := by
            rw [Segment.token?, hrole]
          have hpiece : s.piece? = some ⟨kind, String.ofList s.text, literal⟩ := by
            rw [Segment.piece?, hrole]
          rw [htoken] at h
          cases i with
          | zero =>
              obtain rfl := Option.some.inj h
              exact ⟨[], ⟨⟨s :: segments, rfl, hpiece⟩, rfl⟩, rfl⟩
          | succ i =>
              obtain ⟨before, hfollows, hposition⟩ := ih h
              have hcons := hfollows.cons s
              rw [hpiece] at hcons
              exact ⟨s :: before, hcons, hposition⟩
      | skipped | stray | tooLarge | overlong | unclosed =>
          have htoken : s.token? p = none := by rw [Segment.token?, hrole]
          have hpiece : s.piece? = none := by rw [Segment.piece?, hrole]
          rw [htoken] at h
          obtain ⟨before, hfollows, hposition⟩ := ih h
          have hcons := hfollows.cons s
          rw [hpiece] at hcons
          exact ⟨s :: before, hcons, hposition⟩

/-- A text that is scanned is cut into segments, and the scan is made of them. -/
lemma scan?_eq_some {source : String} {scan : Scan} (h : scan? source = some scan) :
    Laid (cut source.toList) ∧ scan = Scan.ofSegments .origin (cut source.toList) := by
  rw [scan?] at h
  cases hlong : hasOverlongNumber (cut source.toList) with
  | true => simp [hlong] at h
  | false =>
      simp only [hlong, Bool.false_eq_true, if_false] at h
      exact ⟨laid_cut (hasOverlongNumber_eq_false.1 hlong), (Option.some.inj h).symm⟩

/-- Every token of a text is a segment of it. -/
lemma exists_fits_of_mem {source : String} {scan : Scan} (h : scan? source = some scan) {t : Token}
    (ht : t ∈ scan.tokens) : ∃ rest s, Fits rest s ∧ s.piece? = some t.piece := by
  obtain ⟨hlaid, hscan⟩ := scan?_eq_some h
  have hpiece : t.piece ∈ (cut source.toList).filterMap Segment.piece? := by
    rw [← ofSegments_pieces .origin, ← hscan]
    exact List.mem_map_of_mem ht
  obtain ⟨s, hs, hpiece⟩ := List.mem_filterMap.1 hpiece
  obtain ⟨before, after, heq⟩ := List.append_of_mem hs
  exact ⟨_, s, hlaid before s after heq, hpiece⟩

/-- The tokens and the faults of segments stand on the lines from the first one to the one behind all
line ends. -/
lemma ofSegments_lines {segments : List Segment} (h : ∀ s ∈ segments, ∃ rest, Fits rest s)
    (pre : List Char) :
    (∀ t ∈ (Scan.ofSegments (.behind pre) segments).closed,
      (Position.behind pre).line ≤ t.position.line ∧
        t.position.line ≤ (Position.behind pre).line + (segments.flatMap text).count '\n') ∧
    ∀ f ∈ (Scan.ofSegments (.behind pre) segments).faults,
      (Position.behind pre).line ≤ f.line ∧
        f.line ≤ (Position.behind pre).line + (segments.flatMap text).count '\n' := by
  induction segments generalizing pre with
  | nil => simp [Scan.ofSegments, Scan.closed, Token.eof]
  | cons s segments ih =>
      obtain ⟨⟨rest, hs⟩, hsegments⟩ := List.forall_mem_cons.1 h
      obtain ⟨htokens, hfaults⟩ := ih hsegments (pre ++ lined s.text)
      have hnext : (Position.behind (pre ++ lined s.text)).line =
          (Position.behind pre).line + (lined s.text).count '\n' := by
        simp only [Position.behind, List.count_append]
        omega
      have hcount := count_lined s.text
      rw [List.flatMap_cons, List.count_append]
      constructor
      · intro t ht
        rw [closed_cons, hs.after_behind, List.mem_append, Option.mem_toList] at ht
        rcases ht with ht | ht
        · have hplace : t.position = .behind pre := by
            rw [Segment.token?] at ht
            split at ht
            · rw [← Option.some.inj ht]
            · cases ht
          rw [hplace]
          omega
        · have hbounds := htokens t ht
          omega
      · intro f hf
        rw [Scan.ofSegments, hs.after_behind] at hf
        rcases List.mem_append.1 hf with hf | hf
        · obtain ⟨cause, -, rfl⟩ := Option.map_eq_some_iff.1 (Option.mem_toList.1 hf)
          dsimp only
          omega
        · have hbounds := hfaults f hf
          omega

/-- **Tokens and faults lie in the text**, on one of its lines. -/
theorem scan_lines {source : String} {scan : Scan} (h : scan? source = some scan) :
    (∀ t ∈ scan.closed, 1 ≤ t.position.line ∧
      t.position.line ≤ 1 + source.toList.count '\n') ∧
    ∀ f ∈ scan.faults, 1 ≤ f.line ∧ f.line ≤ 1 + source.toList.count '\n' := by
  obtain ⟨hlaid, rfl⟩ := scan?_eq_some h
  have hfits : ∀ s ∈ cut source.toList, ∃ rest, Fits rest s := by
    intro s hs
    obtain ⟨before, after, heq⟩ := List.append_of_mem hs
    exact ⟨_, hlaid before s after heq⟩
  have hlines := ofSegments_lines hfits []
  rw [flatMap_text_cut] at hlines
  exact hlines

/-- **The place of a token**, or of the mark that closes the tokens: it is counted along the lined
texts of the segments in front of it. So its line falls short of the true one by the line ends that
strings in front of it hide, and it stands at its true place exactly if there are none. -/
theorem token_places {source : String} {scan : Scan} (h : scan? source = some scan) {i : Nat}
    {t : Token} (ht : scan.closed[i]? = some t) :
    ∃ before, t.Follows i (cut source.toList) before ∧
      t.position = .behind (before.flatMap fun s => lined s.text) ∧
      t.position.line + (before.map fun s => hiddenEnds s.text).sum =
        (Position.behind (before.flatMap text)).line ∧
      (t.position = .behind (before.flatMap text) ↔ ∀ s ∈ before, hiddenEnds s.text = 0) := by
  obtain ⟨hlaid, rfl⟩ := scan?_eq_some h
  obtain ⟨before, hfollows, hposition⟩ := closed_follows ht
  obtain ⟨after, hsplit, -⟩ := hfollows.starts
  have hfits : ∀ s ∈ before, ∃ rest, Fits rest s := by
    intro s hs
    obtain ⟨before', after', rfl⟩ := List.append_of_mem hs
    exact ⟨_, hlaid before' s (after' ++ after) (by rw [hsplit]; simp)⟩
  have hplace : t.position = .behind (before.flatMap fun s => lined s.text) :=
    hposition.trans (foldl_after_behind hfits [])
  have hline : t.position.line + (before.map fun s => hiddenEnds s.text).sum =
      (Position.behind (before.flatMap text)).line := by
    have hcount := count_flatMap_lined before
    rw [hplace, Position.behind, Position.behind]
    simp only
    omega
  refine ⟨before, hfollows, hplace, hline, fun htrue => ?_, fun hnone => ?_⟩
  · rw [htrue] at hline
    have hsum : (before.map fun s => hiddenEnds s.text).sum = 0 := by omega
    intro s hs
    exact List.sum_eq_zero_iff.1 hsum _ (List.mem_map_of_mem hs)
  · rw [hplace]
    congr 1
    exact List.flatMap_congr fun s hs => lined_eq_self (hnone s hs)

/-- A string that hides a line end, and a word behind it on the next line. -/
def hiddenText : String := "\"\\\n\" a"

/-- The word is said to be on the first line, where it is the third character of the second. -/
theorem token_places_hiddenText :
    ∃ scan t, scan? hiddenText = some scan ∧ scan.closed[1]? = some t ∧
      t.position = ⟨1, 6⟩ ∧ Position.behind "\"\\\n\" ".toList = ⟨2, 3⟩ ∧
      ∃ before, t.Follows 1 (cut hiddenText.toList) before ∧
        t.position = .behind (before.flatMap fun s => lined s.text) ∧
        t.position.line + (before.map fun s => hiddenEnds s.text).sum =
          (Position.behind (before.flatMap text)).line ∧
        (t.position = .behind (before.flatMap text) ↔ ∀ s ∈ before, hiddenEnds s.text = 0) := by
  let segments : List Segment :=
    [⟨['"', '\\', '\n', '"'], .token .string (some (.text "\n"))⟩, ⟨[' '], .skipped⟩,
      ⟨['a'], .token (.ofWord "a") (wordLiteral "a" (.ofWord "a"))⟩]
  have hlaid : Laid segments := by
    refine laid_cons.2 ⟨.string (.escaped '\n' .nil), laid_cons.2 ⟨.blank (.inl rfl), ?_⟩⟩
    refine laid_cons.2 ⟨.word (by decide) (by simp) (by simp [RunEnds]) rfl, ?_⟩
    intro before s after heq
    simp at heq
  have hcut : cut hiddenText.toList = segments := hlaid.cut_eq
  have hscan : scan? hiddenText = some (Scan.ofSegments .origin segments) := by
    rw [scan?, hcut]
    rfl
  have htoken : (Scan.ofSegments .origin segments).closed[1]? =
      some ⟨.ident, "a", some (.text "a"), ⟨1, 6⟩⟩ := by decide +kernel
  exact ⟨_, _, hscan, htoken, rfl, by decide, token_places hscan htoken⟩

end Brushwork
