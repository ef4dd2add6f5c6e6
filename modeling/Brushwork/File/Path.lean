/-!
Paths of files.

A path is a root and the names on the way; empty names and single dots say nothing and are left out.
-/

namespace Brushwork.File

/-- A path: its root, empty for a relative path, and its parts. -/
structure Path where
  root : String
  parts : List String
deriving DecidableEq

namespace Path

/-- Cuts a text at every slash. -/
def cutAtSlashes (part : List Char) : List Char → List String
  | [] => [String.ofList part.reverse]
  | '/' :: cs => String.ofList part.reverse :: cutAtSlashes [] cs
  | c :: cs => cutAtSlashes (c :: part) cs

/-- The root of a written path. Two slashes at the front are a root of their own, three are one. -/
def rootOf (s : String) : String :=
  match s.toList with
  | '/' :: '/' :: '/' :: _ => "/"
  | '/' :: '/' :: _ => "//"
  | '/' :: _ => "/"
  | _ => ""

/-- The path that is written so. -/
def ofString (s : String) : Path :=
  ⟨rootOf s, (cutAtSlashes [] s.toList).filter fun part => part ≠ "" ∧ part ≠ "."⟩

/-- How a path is written; a path without root and parts is a dot. -/
def toString (p : Path) : String :=
  if p.root = "" ∧ p.parts = [] then "." else p.root ++ "/".intercalate p.parts

/-- The last part of a path, empty if there is none. -/
def name (p : Path) : String := p.parts.getLastD ""

/-- The path without its last part. -/
def parent (p : Path) : Path := ⟨p.root, p.parts.dropLast⟩

end Path

end Brushwork.File
