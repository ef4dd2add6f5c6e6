import Brushwork.Color.Register
import Brushwork.Proofs.Color.Interning

/-!
The two parts of a register belong together.

* `Register.Inverse`: the table of the codes and the row of the names are inverse to each other. Calls
  keep them so (`Register.Inverse.code`), although the two are brought up to date one after the other.
* `Register.palette`: the palette that a register keeps. `Register.answer_refines` and
  `Register.answerAll_refines`: calls are answered as if they were made on the palette.
* `register_bijective`: the answers to all calls, whatever was called before.
-/

namespace Brushwork

namespace Register

variable {r : Register} {name : String}

/-! ### The table and the row -/

/-- **The table and the row are inverse to each other**: a name has a code in the table exactly if it
stands at that place of the row, counted from one. -/
def Inverse (r : Register) : Prop :=
  ∀ name code, r.codes.find? name = some code ↔ ∃ i, code = i + 1 ∧ r.names[i]? = some name

lemma inverse_empty : empty.Inverse := by
  intro name code
  simp [empty, Table.empty, Table.find?]

lemma code_of_find? {code : Nat} (h : r.codes.find? name = some code) : r.code name = (r, code) := by
  rw [Register.code, h]

lemma code_of_none (h : r.codes.find? name = none) :
    r.code name =
      (⟨r.codes.put name (r.names.size + 1), r.names.push name⟩, r.names.size + 1) := by
  simp only [Register.code, h, Array.size_push]

/-- A name that is not in the table can be put at the end of the row, if the table gets the place. -/
lemma Inverse.push (h : r.Inverse) (hnone : r.codes.find? name = none) :
    Inverse ⟨r.codes.put name (r.names.size + 1), r.names.push name⟩ := by
  intro other code
  simp only [Table.find?_put, Array.getElem?_push]
  by_cases hother : other = name
  · subst hother
    rw [if_pos rfl, Option.some.injEq]
    constructor
    · rintro rfl
      exact ⟨r.names.size, rfl, if_pos rfl⟩
    · rintro ⟨i, rfl, hi⟩
      by_cases hsize : i = r.names.size
      · rw [hsize]
      · -- further to the front the name cannot stand: the table would have it
        rw [if_neg hsize] at hi
        have hfound := (h other (i + 1)).2 ⟨i, rfl, hi⟩
        rw [hnone] at hfound
        cases hfound
  · rw [if_neg hother, h other code]
    refine exists_congr fun i => and_congr_right fun _ => ?_
    by_cases hsize : i = r.names.size
    · subst hsize
      simp [Ne.symm hother]
    · rw [if_neg hsize]

/-- **A call for a code** keeps the two parts inverse to each other. -/
theorem Inverse.code (h : r.Inverse) (name : String) : (r.code name).1.Inverse := by
  cases hfind : r.codes.find? name with
  | some code => rwa [code_of_find? hfind]
  | none =>
      rw [code_of_none hfind]
      exact h.push hfind

/-! ### The palette -/

/-- The palette that a register keeps. -/
def palette (r : Register) : Palette := ⟨r.names⟩

/-- **The table has the codes of the palette.** -/
theorem Inverse.code?_eq (h : r.Inverse) (name : String) : r.code? name = r.palette.code? name := by
  rw [Palette.code?_eq, palette]
  split
  · next hmem =>
    refine (h name _).2 ⟨_, rfl, ?_⟩
    rw [← Array.getElem?_toList, List.getElem?_idxOf hmem]
  · next hmem =>
    refine Option.eq_none_iff_forall_ne_some.2 fun code hcode => ?_
    obtain ⟨i, -, hi⟩ := (h name code).1 hcode
    rw [← Array.getElem?_toList] at hi
    exact hmem (List.mem_of_getElem? hi)

lemma Inverse.code_eq (h : r.Inverse) (name : String) :
    (r.code name).1.palette = r.palette.intern name ∧ (r.code name).2 = r.palette.code name := by
  have hcode := h.code?_eq name
  rw [Palette.intern, Palette.code, ← hcode, code?]
  cases hfind : r.codes.find? name with
  | some code => simp [code_of_find? hfind]
  | none => simp [code_of_none hfind, palette]

lemma name?_eq (r : Register) (code : Int) : r.name? code = r.palette.name? code := by
  rw [name?, Palette.name?, palette, Palette.blank]
  by_cases hpos : 0 < code
  · rw [if_pos hpos]
    split
    · next hout =>
      have hsize : r.names.size ≤ (code - 1).toNat := by omega
      exact (Array.getElem?_eq_none hsize).symm
    · rfl
  · rw [if_neg hpos, if_pos (by omega)]

/-- **A call is answered as on the palette**, and keeps the two parts inverse to each other. -/
theorem answer_refines (h : r.Inverse) (call : Palette.Call) :
    (r.answer call).1.Inverse ∧ (r.answer call).1.palette = (r.palette.answer call).1 ∧
      (r.answer call).2 = (r.palette.answer call).2 := by
  cases call with
  | code name =>
      obtain ⟨hpalette, hcode⟩ := h.code_eq name
      exact ⟨h.code name, hpalette, congrArg Palette.Answer.code hcode⟩
  | find name => exact ⟨h, rfl, congrArg Palette.Answer.found (h.code?_eq name)⟩
  | name code => exact ⟨h, rfl, congrArg Palette.Answer.name (r.name?_eq code)⟩
  | contains name =>
      have hcontains : r.contains name = r.palette.contains name :=
        congrArg Option.isSome (h.code?_eq name)
      exact ⟨h, rfl, congrArg Palette.Answer.truth hcontains⟩
  | size => exact ⟨h, rfl, rfl⟩

/-- **A row of calls is answered as on the palette.** -/
theorem answerAll_refines (h : r.Inverse) (calls : List Palette.Call) :
    (r.answerAll calls).1.Inverse ∧
      (r.answerAll calls).1.palette = (Palette.answerAll Palette.answer r.palette calls).1 ∧
      (r.answerAll calls).2 = (Palette.answerAll Palette.answer r.palette calls).2 := by
  induction calls generalizing r with
  | nil => exact ⟨h, rfl, rfl⟩
  | cons call calls ih =>
      obtain ⟨hcall, hpalette, hanswer⟩ := answer_refines h call
      obtain ⟨hcalls, hpalettes, hanswers⟩ := ih hcall
      rw [hpalette] at hpalettes hanswers
      refine ⟨hcalls, hpalettes, ?_⟩
      show (r.answer call).2 :: ((r.answer call).1.answerAll calls).2 = _
      rw [hanswer, hanswers]
      rfl

end Register

open Palette

/-- **Names and codes are a stable bijection.** Let any calls have been made on an empty register, one
after the other. Its table and its row are inverse to each other. The names in use are those that were
asked for with their codes, each once, in the order in which they first came. A name is answered by one
more than its place in this order, and so it will be after any further calls. A name that is not in use
has no code, a code that belongs to no name has no name, and otherwise each leads to the other. Different
names have different codes, none has the code of a blank cell, and only a call for the code of a name
changes the register. -/
theorem register_bijective (calls : List Call) :
    let r := (Register.empty.answerAll calls).1
    let names := (calls.flatMap Call.taken).eraseDups
    r.Inverse ∧
    r.names.toList = names ∧
    (∀ name, (r.answer (.code name)).2 =
        .code ((calls.flatMap Call.taken ++ [name]).eraseDups.idxOf name + 1)) ∧
    (∀ name code more, (r.answer (.code name)).2 = .code code →
      let later := ((r.answer (.code name)).1.answerAll more).1
      (later.answer (.code name)).2 = .code code ∧
        (later.answer (.find name)).2 = .found (some code)) ∧
    (∀ name, (r.answer (.find name)).2 =
        .found (if name ∈ names then some (names.idxOf name + 1) else none)) ∧
    (∀ code name, (r.answer (.name code)).2 = .name (some name) ↔
        ∃ c : Nat, code = c ∧ (r.answer (.find name)).2 = .found (some c)) ∧
    (∀ name, (r.answer (.contains name)).2 = .truth (decide (name ∈ names))) ∧
    (r.answer .size).2 = .size names.length ∧
    (∀ name other code, (r.answer (.find name)).2 = .found (some code) →
      (r.answer (.find other)).2 = .found (some code) → name = other) ∧
    (∀ name, (r.answer (.find name)).2 ≠ .found (some Palette.blank)) ∧
    ∀ call, (∀ name, call ≠ .code name) → (r.answer call).1 = r := by
  intro r names
  obtain ⟨hinverse, hpalette, -⟩ := Register.answerAll_refines Register.inverse_empty calls
  have hanswer : ∀ call, (r.answer call).2 = (r.palette.answer call).2 :=
    fun call => (Register.answer_refines hinverse call).2.2
  have hp : r.palette.Lists (calls.flatMap Call.taken) := by
    have hall := lists_empty.internAll (calls.flatMap Call.taken)
    rw [← answerAll_fst] at hall
    exact hpalette ▸ hall
  have hnames : r.palette.names.toList = names := hp.names_eq
  have hfound : ∀ {name : String} {code : Nat},
      (r.answer (.find name)).2 = .found (some code) ↔ r.palette.code? name = some code := by
    intro name code
    rw [hanswer, answer, Answer.found.injEq]
  refine ⟨hinverse, hnames, fun name => ?_, fun name code more hcode => ?_, fun name => ?_,
    fun code name => ?_, fun name => ?_, ?_, fun name other code hname hother => ?_,
    fun name hblank => ?_, fun call hcall => ?_⟩
  · have hself := r.palette.code?_intern name
    rw [code?_eq_some_iff, (hp.intern name).names_eq] at hself
    rw [hanswer, answer, hself.2]
  · intro later
    rw [hanswer] at hcode
    obtain rfl : r.palette.code name = code := Answer.code.inj hcode
    have hcalled := (Register.answer_refines hinverse (.code name)).1
    have hintern : (r.answer (.code name)).1.palette = r.palette.intern name :=
      (hinverse.code_eq name).1
    obtain ⟨hlast, hgrown, -⟩ := Register.answerAll_refines hcalled more
    have hgrows := grows_internAll (r.palette.intern name) (more.flatMap Call.taken)
    rw [← answerAll_fst, ← hintern, ← hgrown, hintern] at hgrows
    have hlater := hgrows.code? (r.palette.code?_intern name)
    have hagain : ∀ call, (later.answer call).2 = (later.palette.answer call).2 :=
      fun call => (Register.answer_refines hlast call).2.2
    rw [hagain, hagain]
    exact ⟨congrArg Answer.code (code_of_code? hlater), congrArg Answer.found hlater⟩
  · rw [hanswer, answer, code?_eq, hnames]
  · simp only [hfound]
    rw [hanswer, answer, Answer.name.injEq, hp.name?_eq_some_iff]
  · rw [hanswer, answer, contains_eq, hnames]
  · rw [hanswer, answer, size, ← hnames, Array.length_toList]
  · exact code?_inj (hfound.1 hname) (hfound.1 hother)
  · exact Nat.lt_irrefl 0 (code?_pos (hfound.1 hblank))
  · cases call with
    | code name => exact absurd rfl (hcall name)
    | _ => rfl

/-- Calls that look for a name before and after it is taken into use, and for codes that there are not. -/
def mixedCalls : List Palette.Call :=
  [.find "Red", .code "Blue", .name 2, .code "Red", .contains "Green", .code "Blue", .name (-1), .size]

theorem register_bijective_mixedCalls :
    let r := (Register.empty.answerAll mixedCalls).1
    r.names.toList = ["Blue", "Red"] ∧
    (r.answer (.code "Red")).2 = .code 2 ∧
    (∀ more, ((((r.answer (.code "Red")).1.answerAll more).1).answer (.code "Red")).2 = .code 2) ∧
    (r.answer (.name 2)).2 = .name (some "Red") ∧
    (∀ other, (r.answer (.find other)).2 = .found (some 2) → "Red" = other) ∧
    (r.answer (.find "Green")).1 = r := by
  intro r
  obtain ⟨-, hnames, hplace, hstable, hlook, hname, -, -, hinj, -, hsame⟩ :=
    register_bijective mixedCalls
  have hcode : (r.answer (.code "Red")).2 = .code 2 := (hplace "Red").trans (by decide)
  have hfind : (r.answer (.find "Red")).2 = .found (some 2) := (hlook "Red").trans (by decide)
  exact ⟨hnames.trans (by decide), hcode, fun more => (hstable "Red" 2 more hcode).1,
    (hname 2 "Red").2 ⟨2, rfl, hfind⟩, fun other => hinj "Red" other 2 hfind,
    hsame (.find "Green") fun name hcall => by cases hcall⟩

end Brushwork
