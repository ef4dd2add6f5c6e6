import Mathlib.Tactic.Common
import Brushwork.Canvas.Basic

/-!
The corner of a canvas.

* `Canvas.crop`: the part of a canvas at its top left, with as many rows as columns.
* `Canvas.getElem?_paintRow` and `Canvas.getElem?_paintRows`: what is painted in a row and in the
  rows of a canvas, place by place.
* `Canvas.crop_paintBlock`: painting a canvas and cropping it comes to painting the cropped canvas,
  wherever the block lies.
-/

namespace Brushwork.Canvas

variable {n : Nat} {c : Canvas}

/-- The `n` cells at the left of each of the `n` rows at the top. -/
def crop (n : Nat) (c : Canvas) : Canvas := ⟨n, (c.rows.take n).map fun row => row.take n⟩

lemma getElem?_take {α : Type} (xs : Array α) (n i : Nat) :
    (xs.take n)[i]? = if i < n then xs[i]? else none := by
  have htake : (xs.take n)[i]? = if i < min n xs.size then xs[i]? else none := by
    simp [Array.take, Array.getElem?_extract]
  rw [htake]
  by_cases hsize : i < xs.size
  · simp only [Nat.lt_min, hsize, and_true]
  · simp [hsize]

lemma getElem?_rows_crop (n : Nat) (c : Canvas) (j : Nat) :
    (c.crop n).rows[j]? = if j < n then c.rows[j]?.map fun row => row.take n else none := by
  rw [crop, Array.getElem?_map, getElem?_take]
  split <;> rfl

/-! ### Painting, place by place -/

/-- Where one place is dealt with and then those behind it, all of them are dealt with. -/
lemma ite_succ {α : Type} (k i length : Nat) (f : α → α) (v : Option α) :
    (if k + 1 ≤ i ∧ i < k + 1 + length then (if k = i then v.map f else v).map f
      else if k = i then v.map f else v) =
      if k ≤ i ∧ i < k + (length + 1) then v.map f else v := by
  by_cases hi : k = i
  · have hbehind : ¬(k + 1 ≤ i ∧ i < k + 1 + length) := by omega
    have hall : k ≤ i ∧ i < k + (length + 1) := by omega
    rw [if_neg hbehind, if_pos hi, if_pos hall]
  · have hsame : (k + 1 ≤ i ∧ i < k + 1 + length) ↔ (k ≤ i ∧ i < k + (length + 1)) := by omega
    simp only [if_neg hi, hsame]

lemma getElem?_paintRow (code x w : Nat) (row : Array Nat) (i : Nat) :
    (paintRow code x w row)[i]? =
      if x ≤ i ∧ i < x + w then row[i]?.map fun _ => code else row[i]? := by
  induction w generalizing x row with
  | zero =>
      have hout : ¬(x ≤ i ∧ i < x + 0) := by omega
      rw [paintRow, if_neg hout]
  | succ w ih =>
      have hset : (row.setIfInBounds x code)[i]? =
          if x = i then row[i]?.map fun _ => code else row[i]? := by
        rw [Array.getElem?_setIfInBounds]
        split
        · next hi =>
          subst hi
          by_cases hx : x < row.size <;> simp [hx]
        · rfl
      rw [paintRow, ih, hset, ite_succ]

lemma getElem?_paintRows (code x w y height : Nat) (rows : Array (Array Nat)) (j : Nat) :
    (paintRows code x w y height rows)[j]? =
      if y ≤ j ∧ j < y + height then rows[j]?.map (paintRow code x w) else rows[j]? := by
  induction height generalizing y rows with
  | zero =>
      have hout : ¬(y ≤ j ∧ j < y + 0) := by omega
      rw [paintRows, if_neg hout]
  | succ height ih => rw [paintRows, ih, Array.getElem?_modify, ite_succ]

/-! ### Cropping -/

/-- A place on the canvas is painted if it lies between the ends of the block, whether these are on
the canvas or not. -/
lemma between_iff {size i : Nat} (h : i < size) (a b : Int) :
    ((max a 0).toNat ≤ i ∧ i < (max a 0).toNat + (min b (size - 1) - max a 0 + 1).toNat) ↔
      a ≤ i ∧ i ≤ b := by
  omega

lemma take_paintRow (h : n ≤ c.size) (a b : Int) (code : Nat) (row : Array Nat) :
    (paintRow code (max a 0).toNat (min b (c.size - 1) - max a 0 + 1).toNat row).take n =
      paintRow code (max a 0).toNat (min b (n - 1) - max a 0 + 1).toNat (row.take n) := by
  refine Array.ext_getElem? fun i => ?_
  by_cases hi : i < n
  · simp only [getElem?_take, getElem?_paintRow, if_pos hi, between_iff hi,
      between_iff (Nat.lt_of_lt_of_le hi h)]
  · simp only [getElem?_take, getElem?_paintRow, if_neg hi, Option.map_none, ite_self]

/-- **What is painted on the corner is what is painted**: a block is cut off at the edge of the
canvas, wherever that edge runs. -/
theorem crop_paintBlock (h : n ≤ c.size) (x₀ y₀ x₁ y₁ : Int) (code : Nat) :
    (c.paintBlock x₀ y₀ x₁ y₁ code).crop n = (c.crop n).paintBlock x₀ y₀ x₁ y₁ code := by
  rw [Canvas.mk.injEq]
  refine ⟨rfl, Array.ext_getElem? fun j => ?_⟩
  have hcrop : (c.crop n).size = n := rfl
  rw [getElem?_rows_crop]
  by_cases hj : j < n
  · simp only [paintBlock, getElem?_paintRows, getElem?_rows_crop, hcrop, if_pos hj,
      between_iff hj, between_iff (Nat.lt_of_lt_of_le hj h)]
    split
    · simp only [Option.map_map, Function.comp_def, take_paintRow h]
    · rfl
  · simp only [paintBlock, getElem?_paintRows, getElem?_rows_crop, if_neg hj, Option.map_none,
      ite_self]

lemma crop_blank {k : Nat} (h : n ≤ k) : (blank k).crop n = blank n := by
  have htake {α : Type} (v : α) : (Array.replicate k v).take n = Array.replicate n v := by
    simp [Array.take, Array.extract_replicate, h]
  simp only [crop, blank, htake, Array.map_replicate]

end Brushwork.Canvas
