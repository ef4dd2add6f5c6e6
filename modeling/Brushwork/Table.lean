/-!
Tables from names to values, in the order in which the names were first put in.

* `Table.find?_put`: after a `put` the name has the new value and all others are as before.
-/

namespace Brushwork

/-- A table from names to values. -/
structure Table (α : Type) where
  entries : List (String × α)
deriving DecidableEq

namespace Table

variable {α : Type}

/-- The table without entries. -/
def empty : Table α := ⟨[]⟩

/-- The value of a name, if it has one. -/
def find? (t : Table α) (name : String) : Option α := t.entries.lookup name

/-- The name has a value. -/
def contains (t : Table α) (name : String) : Bool := (t.find? name).isSome

/-- Gives `name` the value `v` in a list of entries: in its place if it is there, else at the end. -/
def putEntry (name : String) (v : α) : List (String × α) → List (String × α)
  | [] => [(name, v)]
  | e :: es => if name = e.1 then (name, v) :: es else e :: putEntry name v es

/-- Gives a name a value; a second value takes the place of the first. -/
def put (t : Table α) (name : String) (v : α) : Table α := ⟨putEntry name v t.entries⟩

/-- The names, in order. -/
def names (t : Table α) : List String := t.entries.map Prod.fst

theorem lookup_putEntry (name other : String) (v : α) (es : List (String × α)) :
    (putEntry name v es).lookup other = if other = name then some v else es.lookup other := by
  induction es with
  | nil =>
    by_cases h : other = name
    · simp [putEntry, h]
    · have hb : (other == name) = false := by simp [h]
      simp [putEntry, List.lookup_cons, h, hb]
  | cons e es ih =>
    obtain ⟨k, w⟩ := e
    rw [putEntry]
    by_cases hk : name = k
    · subst hk
      by_cases h : other = name
      · simp [h]
      · have hb : (other == name) = false := by simp [h]
        simp [List.lookup_cons, h, hb]
    · by_cases h : other = k
      · subst h
        have hne : other ≠ name := fun he => hk he.symm
        simp [hk, hne]
      · have hb : (other == k) = false := by simp [h]
        simp [hk, List.lookup_cons, hb, ih]

theorem find?_put (t : Table α) (name other : String) (v : α) :
    (t.put name v).find? other = if other = name then some v else t.find? other :=
  lookup_putEntry name other v t.entries

end Table

end Brushwork
