/-!
# Opening a source path

Opening a path for reading finds a file's bytes, nothing, or something that cannot be read
(a directory, or a file used as a directory). `Entry` records which.

`FileTree` is a working directory given as data: the paths of its files and directories.
Every parent of a listed path is a directory. A path is read the way the file system walks
it, component by component from the working directory (or from the root, for a path that
starts with `/`):

* empty and `.` components are dropped first, as path normalisation does, so `a.lua/` and
  `./a.lua` name `a.lua`; exactly two leading slashes stay as they are (`Path.root`);
* `..` goes to the parent, and above the working directory nothing is known, so a name
  there is missing and the place itself is a directory;
* a missing component makes the whole path missing, and a component below a file is
  refused as `Not a directory`;
* a path of more than 4095 bytes of UTF-8 (after normalisation), or a name of more than 255
  bytes where the walk looks it up, is refused as `File name too long`.

## Main definitions

* `Entry`: what opening a path finds.
* `Path.components`, `Path.normalize`: a path's components, and the path they make.
* `Path.isTooLong`, `Path.isNameTooLong`: the file system's length limits.
* `FileTree`, `FileTree.entryOf`: a working directory, and what a path names in it.
-/

namespace LuaReflow

/-- What opening a path for reading finds. -/
inductive Entry where
  /-- Nothing exists at the path. -/
  | missing
  /-- Something exists but cannot be read; the reason is shown as given. -/
  | unreadable (reason : String)
  /-- A file, with its bytes. -/
  | file (bytes : List UInt8)
  deriving DecidableEq, Repr

/-- A node of a file tree. -/
inductive Node where
  /-- A file, with its bytes. -/
  | file (bytes : List UInt8)
  /-- A directory. -/
  | directory
  deriving DecidableEq, Repr

/-- The parts of a character list between slashes, empty ones included. -/
def splitSlashes (cs : List Char) : List (List Char) :=
  cs.foldr (fun c parts => if c = '/' then [] :: parts else
    match parts with
    | [] => [[c]]
    | part :: rest => (c :: part) :: rest) [[]]

/-- The components of a path: the parts between slashes, without empty and `.` parts. -/
def Path.components (path : String) : List String :=
  ((splitSlashes path.toList).filter fun c => c != [] && c != ['.']).map String.ofList

/-- Whether a path starts at the root. -/
def Path.isAbsolute (path : String) : Bool := path.toList.head? = some '/'

/-- The root a path starts from: none for a relative path, `//` for exactly two leading
slashes (which the path system keeps as a root of its own), and `/` for one or for three and
more. -/
def Path.root (path : String) : String :=
  match path.toList with
  | '/' :: '/' :: '/' :: _ => "/"
  | '/' :: '/' :: _ => "//"
  | '/' :: _ => "/"
  | _ => ""

/-- The path as normalisation leaves it: its root, then its components joined by slashes, and
`.` for the working directory itself. -/
def Path.normalize (path : String) : String :=
  let body := "/".intercalate (Path.components path)
  let root := Path.root path
  if root.isEmpty then (if body.isEmpty then "." else body) else root ++ body

/-- The number of bytes a text takes in UTF-8. -/
def Path.byteLength (s : String) : Nat := s.toList.foldl (fun n c => n + c.utf8Size) 0

/-- The most bytes a path may take as a whole. -/
def Path.maxBytes : Nat := 4095

/-- The most bytes one name in a path may take. -/
def Path.maxNameBytes : Nat := 255

/-- Whether a path, as normalisation leaves it, is longer than the file system takes. -/
def Path.isTooLong (path : String) : Bool := Path.byteLength (Path.normalize path) > Path.maxBytes

/-- Whether a name is longer than the file system takes. -/
def Path.isNameTooLong (name : String) : Bool := Path.byteLength name > Path.maxNameBytes

/-- What opening a path or a name that is too long finds. -/
def Entry.nameTooLong : Entry := .unreadable "File name too long"

/-- A working directory: its files and directories, by components relative to it. -/
structure FileTree where
  /-- The listed paths with their nodes; parents of listed paths are directories. -/
  entries : List (List String × Node)
  deriving DecidableEq, Repr

namespace FileTree

/-- The tree of a list of paths and nodes. -/
def ofList (entries : List (String × Node)) : FileTree :=
  ⟨entries.map fun e => (Path.components e.1, e.2)⟩

/-- The node at a place given by components, if anything is there: the working directory
itself, a listed path, or a parent of one. -/
def nodeAt (t : FileTree) (parts : List String) : Option Node :=
  if parts.isEmpty then some .directory
  else
    match t.entries.find? (·.1 == parts) with
    | some e => some e.2
    | none =>
      if t.entries.any (fun e => parts.isPrefixOf e.1) then some .directory else none

/-- Where a walk is: inside the working directory at a place, or above it. -/
inductive Place where
  | inside (parts : List String)
  | above
  deriving DecidableEq, Repr

/-- What a walk finds, from a place, along the components still to follow. -/
def walk (t : FileTree) : Place → List String → Entry
  | .above, [] => .unreadable "is a directory"
  | .above, c :: cs =>
    if c == ".." then walk t .above cs
    else if Path.isNameTooLong c then .nameTooLong
    else .missing
  | .inside p, [] =>
    match t.nodeAt p with
    | some (.file bytes) => .file bytes
    | some .directory => .unreadable "is a directory"
    | none => .missing
  | .inside p, c :: cs =>
    match t.nodeAt p with
    | some .directory =>
      if c == ".." then walk t (if p.isEmpty then .above else .inside p.dropLast) cs
      else if Path.isNameTooLong c then .nameTooLong
      else if (t.nodeAt (p ++ [c])).isSome then walk t (.inside (p ++ [c])) cs
      else .missing
    | some (.file _) => .unreadable "Not a directory"
    | none => .missing

/-- What opening `path` in the working directory finds. -/
def entryOf (t : FileTree) (path : String) : Entry :=
  if Path.isTooLong path then .nameTooLong
  else walk t (if Path.isAbsolute path then .above else .inside []) (Path.components path)

example : (ofList [("sub/a.lua", .file [0x78])]).entryOf "./sub//a.lua/" = .file [0x78] := by
  decide

example : Path.normalize "//a//b/" = "//a/b" ∧ Path.normalize "///a" = "/a" := by decide

example : (ofList [("a.lua", .file [])]).entryOf "a.lua/x" = .unreadable "Not a directory" := by
  decide

end FileTree

end LuaReflow
