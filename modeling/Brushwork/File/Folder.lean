import Brushwork.File.Path

/-!
A folder of files, as a program sees it that was started there.

A folder is known by its files: a path that leads to a file makes folders of its beginnings. Nothing
is known of what lies outside.
-/

namespace Brushwork.File

/-- Why a file cannot be read or written. -/
inductive Error where
  | notFound
  | isFolder
  | notFolder
  /-- The file holds no valid text. -/
  | notText
deriving DecidableEq

/-- The files of a folder, by their parts. -/
structure Folder where
  files : List (List String × ByteArray)

/-- A place that a path leads to. -/
inductive Place where
  /-- A folder inside. -/
  | folder (parts : List String)
  /-- A folder outside. -/
  | outside
  /-- A file. -/
  | file (content : ByteArray)

namespace Folder

/-- The content of the file with exactly these parts. -/
def content? (f : Folder) (parts : List String) : Option ByteArray := f.files.lookup parts

/-- The parts lead to a folder. -/
def hasFolder (f : Folder) (parts : List String) : Bool :=
  f.files.any fun e => parts.isPrefixOf e.1 && parts.length < e.1.length

/-- What the parts lead to, inside. -/
def inside (f : Folder) (parts : List String) : Except Error Place :=
  match f.content? parts with
  | some bytes => .ok (.file bytes)
  | none => if f.hasFolder parts then .ok (.folder parts) else .error .notFound

/-- One step from a place. -/
def enter (f : Folder) (place : Place) (part : String) : Except Error Place :=
  match place with
  | .file _ => .error .notFolder
  | .outside => if part = ".." then .ok .outside else .error .notFound
  | .folder parts =>
    if part = ".." then .ok (if parts.isEmpty then .outside else .folder parts.dropLast)
    else f.inside (parts ++ [part])

/-- Where a path begins. -/
def start (p : Path) : Place := if p.root = "" then .folder [] else .outside

/-- Where a path leads. -/
def locate (f : Folder) (p : Path) : Except Error Place := p.parts.foldlM f.enter (start p)

/-- The bytes of a file. -/
def bytes (f : Folder) (p : Path) : Except Error ByteArray := do
  match ← f.locate p with
  | .file content => .ok content
  | .folder _ | .outside => .error .isFolder

/-- The path leads to a file. -/
def hasFile (f : Folder) (p : Path) : Bool :=
  match f.bytes p with
  | .ok _ => true
  | .error _ => false

/-- Gives a row of files one more, or a new content to one of them. -/
def putFile (parts : List String) (content : ByteArray) :
    List (List String × ByteArray) → List (List String × ByteArray)
  | [] => [(parts, content)]
  | e :: es => if e.1 = parts then (parts, content) :: es else e :: putFile parts content es

/-- Writes a file. Its folder has to be there. -/
def write (f : Folder) (p : Path) (content : ByteArray) : Except Error Folder :=
  match p.parts.getLast? with
  | none => .error .isFolder
  | some name => do
    match ← f.locate p.parent with
    | .file _ => .error .notFolder
    | .outside => if name = ".." then .error .isFolder else .error .notFound
    | .folder parts =>
      let target := parts ++ [name]
      if name = ".." ∨ f.hasFolder target then .error .isFolder
      else .ok ⟨putFile target content f.files⟩

end Folder

end Brushwork.File
