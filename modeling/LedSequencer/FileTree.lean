import LedSequencer.Fault

/-! # File trees

  A file tree is what lies below the directory a program works in: files with their
  bytes, and directories, each under the list of names that leads to it. Paths are
  followed one name at a time, as the system does, and may lead out of the tree,
  where there are directories with nothing known in them.
-/

namespace LedSequencer

/-! ### Paths -/

/-- A path, cut at its slashes. -/
structure Path where
  /-- What stands between the slashes; empty parts and `.` stay where they are. -/
  parts : List String
deriving DecidableEq, Inhabited

namespace Path

/-- Cuts the text of a path. -/
def ofString (text : String) : Path :=
  ⟨(text.toList.splitOnP (· = '/')).map String.ofList⟩

/-- The text of a path. -/
def text (p : Path) : String := "/".intercalate p.parts

/-- The path of a name below a path: one slash separates them, which may be there already, and an
    empty path is left out. -/
def join (p : Path) (name : String) : Path :=
  if p.parts.getLast? = some "" then ⟨p.parts.dropLast ++ [name]⟩ else ⟨p.parts ++ [name]⟩

/-- Whether the path starts at the root of the system. -/
def isAbsolute (p : Path) : Bool :=
  match p.parts with
  | "" :: _ :: _ => true
  | _ => false

/-- The greatest length of a name in bytes. -/
def nameLimit : Nat := 255

/-- The length in bytes that the text of a path stays below. -/
def lengthLimit : Nat := 4096

/-- Why the text of a path cannot be followed at all, if so. -/
def fault? (p : Path) : Option Fault :=
  if p.text.toList.contains '\x00' then some .zeroInName
  else if lengthLimit ≤ p.text.utf8ByteSize then some .nameTooLong
  else if p.parts = [""] then some .notFound
  else none

end Path

/-- The path of a name below a directory given as text: one slash separates them. -/
def joinText (directory name : String) : String :=
  match directory.toList.getLast? with
  | none => name
  | some '/' => directory ++ name
  | some _ => directory ++ "/" ++ name

/-! ### Trees -/

/-- What a name stands for. -/
inductive FileNode where
  /-- A file with its bytes. -/
  | file (bytes : List UInt8)
  /-- A directory. -/
  | directory
deriving DecidableEq, Inhabited

/-- The files and directories below a directory, without itself. -/
structure FileTree where
  /-- The names that lead to each node, and the node. -/
  nodes : List (List String × FileNode)
deriving DecidableEq, Inhabited

/-- Where a path has led so far. -/
inductive Place where
  /-- A directory of the tree. -/
  | inside (directory : List String)
  /-- A directory out of the tree. -/
  | outside
deriving DecidableEq

/-- The directory above. -/
def Place.parent : Place → Place
  | .inside [] => .outside
  | .inside names => .inside names.dropLast
  | .outside => .outside

/-- What a path leads to. -/
inductive Target where
  /-- A directory. -/
  | directory
  /-- A file of the tree. -/
  | file (names : List String) (bytes : List UInt8)
  /-- Nothing yet, below a directory of the tree. -/
  | vacant (names : List String)
deriving DecidableEq

namespace FileTree

/-- The empty tree. -/
def empty : FileTree := ⟨[]⟩

/-- The node under a list of names. -/
def node? (t : FileTree) (names : List String) : Option FileNode :=
  if names = [] then some .directory else t.nodes.lookup names

/-- Puts a node under a list of names. -/
def put (t : FileTree) (names : List String) (node : FileNode) : FileTree :=
  if (t.nodes.lookup names).isSome then
    ⟨t.nodes.map fun entry => if entry.1 = names then (names, node) else entry⟩
  else ⟨t.nodes ++ [(names, node)]⟩

/-- Follows the parts of a path from a directory on. -/
def follow (t : FileTree) : Place → List String → Except Fault Target
  | _, [] => .ok .directory
  | here, part :: rest =>
    if part = "" || part = "." then follow t here rest
    else if part = ".." then follow t here.parent rest
    else if Path.nameLimit < part.utf8ByteSize then .error .nameTooLong
    else
      match here with
      | .outside => .error .notFound
      | .inside directory =>
        match t.node? (directory ++ [part]), rest with
        | none, [] => .ok (.vacant (directory ++ [part]))
        | none, _ :: _ => .error .notFound
        | some .directory, _ => follow t (.inside (directory ++ [part])) rest
        | some (.file bytes), [] => .ok (.file (directory ++ [part]) bytes)
        | some (.file _), _ :: _ => .error .notDirectory

/-- What a path leads to. -/
def target (t : FileTree) (p : Path) : Except Fault Target :=
  match p.fault? with
  | some fault => .error fault
  | none => t.follow (if p.isAbsolute then .outside else .inside []) p.parts

/-- Whether a path leads to a file or a directory. -/
def isPresent (t : FileTree) (p : Path) : Bool :=
  match t.target p with
  | .ok .directory => true
  | .ok (.file _ _) => true
  | _ => false

/-- The bytes of a file. -/
def read (t : FileTree) (p : Path) : Except Fault (List UInt8) :=
  match t.target p with
  | .ok (.file _ bytes) => .ok bytes
  | .ok .directory => .error .isDirectory
  | .ok (.vacant _) => .error .notFound
  | .error fault => .error fault

/-- Makes a text the whole content of a file, which is made when its directory is there. -/
def write (t : FileTree) (p : Path) (text : String) : Except Fault FileTree :=
  match t.target p with
  | .ok (.file names _) => .ok (t.put names (.file text.toUTF8.toList))
  | .ok (.vacant names) => .ok (t.put names (.file text.toUTF8.toList))
  | .ok .directory => .error .isDirectory
  | .error fault => .error fault

/-- Puts a node at a path of plain names, and the directories above it that are missing. -/
def addBelow (t : FileTree) (node : FileNode) : List String → List String → FileTree
  | above, [] => if above = [] then t else t.put above node
  | above, name :: rest =>
    let t := if above = [] || (t.node? above).isSome then t else t.put above .directory
    addBelow t node (above ++ [name]) rest

/-- Puts a node at a path, and the directories above it that are missing. -/
def add (t : FileTree) (p : Path) (node : FileNode) : FileTree :=
  t.addBelow node [] (p.parts.filter fun part => part ≠ "" && part ≠ ".")

end FileTree

/-! ### Small laws -/

/-- A joined path passes the same names and then the new one. -/
theorem Path.filter_parts_join (p : Path) {name : String} (h : name ≠ "") :
    (p.join name).parts.filter (· ≠ "") = p.parts.filter (· ≠ "") ++ [name] := by
  unfold Path.join
  split
  · next hLast =>
    obtain ⟨above, hAbove⟩ := List.getLast?_eq_some_iff.1 hLast
    simp [hAbove, h]
  · simp [h]

end LedSequencer
