import Mathlib.Data.List.Nodup
import Mathlib.Tactic.Common
import Brushwork.Color.Call

/-!
Names and codes belong together.

* `Palette.code?_eq_some_iff`: the code of a name in use is one more than its place.
* `Palette.Grows`: the names of one palette stand at the front of another one. `Palette.Grows.code?`: they
  have the same codes there.
* `Palette.Lists`: the names in use are those of a row, each where it first occurs, and no name is there
  twice. `Palette.Lists.intern` takes one more name into use.
* `Palette.Lists.name?_eq_some_iff`: names and codes can be exchanged for each other.
* `Palette.answerAll_fst`: what a row of calls does to a palette.
-/

namespace Brushwork

namespace Palette

variable {p q r : Palette} {name other : String} {code : Nat} {ns : List String}

/-! ### Codes and places -/

/-- **The code of a name** is one more than its place among the names in use. -/
theorem code?_eq_some_iff :
    p.code? name = some code ↔ name ∈ p.names.toList ∧ p.names.toList.idxOf name + 1 = code := by
  have hfind : p.names.findIdx? (· == name) = p.names.toList.findIdx? (· == name) :=
    List.findIdx?_toArray _ p.names.toList
  rw [code?, hfind, Option.map_eq_some_iff]
  simp only [List.findIdx?_eq_some_iff_findIdx_eq]
  constructor
  · rintro ⟨i, ⟨hi, rfl⟩, rfl⟩
    exact ⟨List.idxOf_lt_length_iff.1 hi, rfl⟩
  · rintro ⟨hmem, rfl⟩
    exact ⟨_, ⟨List.idxOf_lt_length_iff.2 hmem, rfl⟩, rfl⟩

lemma code?_eq (p : Palette) (name : String) :
    p.code? name =
      if name ∈ p.names.toList then some (p.names.toList.idxOf name + 1) else none := by
  split
  · next hmem => exact code?_eq_some_iff.2 ⟨hmem, rfl⟩
  · next hmem =>
    refine Option.eq_none_iff_forall_ne_some.2 fun code hcode => ?_
    exact hmem (code?_eq_some_iff.1 hcode).1

lemma code_of_code? (h : p.code? name = some code) : p.code name = code := by
  rw [Palette.code, h, Option.getD_some]

lemma code?_pos (h : p.code? name = some code) : 0 < code := by
  obtain ⟨-, rfl⟩ := code?_eq_some_iff.1 h
  exact Nat.succ_pos _

/-- Different names have different codes. -/
lemma code?_inj (h : p.code? name = some code) (h' : p.code? other = some code) : name = other := by
  obtain ⟨hmem, hplace⟩ := code?_eq_some_iff.1 h
  obtain ⟨-, hplace'⟩ := code?_eq_some_iff.1 h'
  exact (List.idxOf_inj hmem).1 (Nat.succ.inj (hplace.trans hplace'.symm))

lemma contains_eq (p : Palette) (name : String) :
    p.contains name = decide (name ∈ p.names.toList) := by
  rw [contains, code?_eq]
  split
  · next hmem => simp [hmem]
  · next hmem => simp [hmem]

lemma code?_le (h : p.code? name = some code) : code ≤ p.size := by
  obtain ⟨hmem, rfl⟩ := code?_eq_some_iff.1 h
  exact List.idxOf_lt_length_iff.2 hmem

lemma toList_intern (p : Palette) (name : String) :
    (p.intern name).names.toList =
      if name ∈ p.names.toList then p.names.toList else p.names.toList ++ [name] := by
  rw [intern, code?_eq]
  by_cases hmem : name ∈ p.names.toList
  · simp only [if_pos hmem]
  · simp only [if_neg hmem, Array.toList_push]

lemma code?_intern (p : Palette) (name : String) :
    (p.intern name).code? name = some (p.code name) := by
  rw [code, code?_eq p, code?_eq, toList_intern]
  by_cases hmem : name ∈ p.names.toList
  · simp [hmem]
  · simp [hmem, List.idxOf_append]

/-! ### Growing -/

/-- The names of the first palette are the first names of the second one. -/
def Grows (p q : Palette) : Prop := p.names.toList <+: q.names.toList

lemma Grows.refl (p : Palette) : p.Grows p := List.prefix_refl _

lemma Grows.trans (h : p.Grows q) (h' : q.Grows r) : p.Grows r := List.IsPrefix.trans h h'

lemma Grows.size_le (h : p.Grows q) : p.size ≤ q.size := List.IsPrefix.length_le h

/-- **A name keeps its code** when a palette grows. -/
theorem Grows.code? (h : p.Grows q) (hcode : p.code? name = some code) :
    q.code? name = some code := by
  obtain ⟨more, hmore⟩ := h
  obtain ⟨hmem, rfl⟩ := code?_eq_some_iff.1 hcode
  refine code?_eq_some_iff.2 ⟨?_, ?_⟩
  · rw [← hmore]
    exact List.mem_append_left more hmem
  · rw [← hmore, List.idxOf_append, if_pos hmem]

lemma grows_intern (p : Palette) (name : String) : p.Grows (p.intern name) := by
  rw [Grows, toList_intern]
  split
  · exact List.prefix_refl _
  · exact List.prefix_append _ _

lemma size_le_intern (p : Palette) (name : String) : p.size ≤ (p.intern name).size :=
  (p.grows_intern name).size_le

lemma grows_internAll (p : Palette) (names : List String) : p.Grows (names.foldl intern p) := by
  induction names generalizing p with
  | nil => exact .refl p
  | cons name names ih => exact (p.grows_intern name).trans (ih _)

/-! ### The names in use -/

/-- The names in use are those of the row, each at the place of its first occurrence, and all of them
are different. -/
structure Lists (ns : List String) (p : Palette) : Prop where
  names_eq : p.names.toList = ns.eraseDups
  nodup : p.names.toList.Nodup

lemma lists_empty : empty.Lists [] := ⟨rfl, List.nodup_nil⟩

lemma Lists.mem_iff (h : p.Lists ns) : name ∈ p.names.toList ↔ name ∈ ns := by
  rw [h.names_eq, List.mem_eraseDups]

/-- **One more name** is taken into use. -/
theorem Lists.intern (h : p.Lists ns) (name : String) : (p.intern name).Lists (ns ++ [name]) := by
  by_cases hmem : name ∈ p.names.toList
  · have hsame : (p.intern name).names.toList = p.names.toList := by rw [toList_intern, if_pos hmem]
    have hnone : [name].removeAll ns = [] := by simp [List.removeAll, h.mem_iff.1 hmem]
    refine ⟨?_, by rw [hsame]; exact h.nodup⟩
    rw [hsame, List.eraseDups_append, hnone, h.names_eq, List.eraseDups_nil, List.append_nil]
  · have hmore : (p.intern name).names.toList = p.names.toList ++ [name] := by
      rw [toList_intern, if_neg hmem]
    have hnew : [name].removeAll ns = [name] := by
      simp [List.removeAll, mt h.mem_iff.2 hmem]
    refine ⟨?_, ?_⟩
    · rw [hmore, List.eraseDups_append, hnew, h.names_eq]
      rfl
    · rw [hmore, ← List.concat_eq_append]
      exact h.nodup.concat hmem

lemma Lists.internAll (h : p.Lists ns) (names : List String) :
    (names.foldl Palette.intern p).Lists (ns ++ names) := by
  induction names generalizing p ns with
  | nil => rwa [List.append_nil]
  | cons name names ih =>
      rw [List.append_cons]
      exact ih (h.intern name)

/-- **Names and codes belong together**, one to one. -/
theorem Lists.name?_eq_some_iff (h : p.Lists ns) {code : Int} :
    p.name? code = some name ↔ ∃ c : Nat, code = c ∧ p.code? name = some c := by
  constructor
  · intro hname
    rw [name?] at hname
    split at hname
    · next hpos =>
      rw [← Array.getElem?_toList, List.getElem?_eq_some_iff] at hname
      obtain ⟨hi, rfl⟩ := hname
      refine ⟨(code - 1).toNat + 1, by omega, code?_eq_some_iff.2 ⟨List.getElem_mem hi, ?_⟩⟩
      rw [h.nodup.idxOf_getElem]
    · cases hname
  · rintro ⟨c, rfl, hcode⟩
    obtain ⟨hmem, rfl⟩ := code?_eq_some_iff.1 hcode
    have hplace : ((p.names.toList.idxOf name + 1 : Nat) - 1 : Int).toNat =
        p.names.toList.idxOf name := by omega
    rw [name?, if_pos (by omega), hplace, ← Array.getElem?_toList, List.getElem?_idxOf hmem]

/-! ### Calls -/

/-- The names that a call takes into use. -/
def Call.taken : Call → List String
  | .code name => [name]
  | _ => []

lemma answer_fst (p : Palette) (call : Call) : (p.answer call).1 = call.taken.foldl intern p := by
  cases call <;> rfl

/-- **A row of calls** takes the names into use that were asked for with their codes, and does no more. -/
theorem answerAll_fst (p : Palette) (calls : List Call) :
    (answerAll answer p calls).1 = (calls.flatMap Call.taken).foldl intern p := by
  induction calls generalizing p with
  | nil => rfl
  | cons call calls ih =>
      rw [List.flatMap_cons, List.foldl_append, ← answer_fst]
      exact ih _

end Palette

end Brushwork
