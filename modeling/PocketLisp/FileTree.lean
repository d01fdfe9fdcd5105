/-
PocketLisp/FileTree.lean

The files that programs may read: a tree of directories below a working
directory, with the bytes of every file.

Paths are resolved component by component, as an operating system does: a
component has to exist and to be a directory before the next one is looked
for, also when the next one is `..`.  Above the working directory there are
directories without files.
-/

namespace PocketLisp

/-- Why a file could not be read. -/
inductive FileError where
  | notFound
  | notDirectory
  | isDirectory
  | nameTooLong
  /-- the path holds a character that no path can hold -/
  | nulInPath
  /-- the bytes are no UTF-8 text -/
  | notText
  deriving DecidableEq, Repr

/-- The text of a file error. -/
def FileError.message : FileError → String
  | .notFound => "No such file or directory (os error 2)"
  | .notDirectory => "Not a directory (os error 20)"
  | .isDirectory => "Is a directory (os error 21)"
  | .nameTooLong => "File name too long (os error 36)"
  | .nulInPath => "file name contained an unexpected NUL byte"
  | .notText => "stream did not contain valid UTF-8"

/-- A tree of files. -/
structure FileTree where
  /-- the components of each path below the working directory, and the bytes of its file -/
  files : List (List String × List UInt8)
  /-- further files, wherever they are, each under one path that leads to it -/
  named : List (String × List UInt8)
  deriving DecidableEq, Repr

namespace FileTree

/-- A tree without files. -/
def empty : FileTree := ⟨[], []⟩

/-- What a path leads to. -/
inductive Node where
  | file (bytes : List UInt8)
  | directory

/-- What stands at a place of the tree, which is given by the components below the root. -/
def node? (tree : FileTree) (place : List String) : Option Node :=
  match tree.files.find? fun f => f.1 == place with
  | some f => some (.file f.2)
  | none =>
    if place = [] ∨ tree.files.any fun f => place.isPrefixOf f.1 then some .directory else none

/-- The components of a path, which are parted by slashes. -/
def components : List Char → List (List Char)
  | [] => [[]]
  | c :: cs =>
    match components cs with
    | [] => [[c]]
    | name :: names => if c = '/' then [] :: name :: names else (c :: name) :: names

/-- Follows the components of a path above the working directory. -/
def followOutside (rest : List String) : Except FileError Node :=
  if rest.all fun name => ["", ".", ".."].contains name then .ok .directory else .error .notFound

/-- Follows the components of a path from a directory on; `place` is the way from the root to the
directory, last component first. -/
def follow (tree : FileTree) (place : List String) : List String → Except FileError Node
  | [] => .ok .directory
  | name :: rest =>
    if name = "" ∨ name = "." then follow tree place rest
    else if name = ".." then
      match place with
      | [] => followOutside rest
      | _ :: above => follow tree above rest
    else if 255 < name.utf8ByteSize then .error .nameTooLong
    else match tree.node? (name :: place).reverse with
      | none => .error .notFound
      | some .directory => follow tree (name :: place) rest
      | some (.file bytes) => if rest = [] then .ok (.file bytes) else .error .notDirectory

/-- What a path leads to. -/
def find (tree : FileTree) (path : String) : Except FileError Node :=
  if let some bytes := tree.named.lookup path then .ok (.file bytes)
  else if path.toList.contains '\x00' then .error .nulInPath
  else if path = "" then .error .notFound
  else if 4096 ≤ path.utf8ByteSize then .error .nameTooLong
  else
    let names := (components path.toList).map String.ofList
    if path.toList.head? = some '/' then followOutside names else follow tree [] names

/-- Whether there is a file or a directory at a path. -/
def exists? (tree : FileTree) (path : String) : Bool :=
  match tree.find path with
  | .ok _ => true
  | .error _ => false

/-- The text of the file at a path. -/
def read (tree : FileTree) (path : String) : Except FileError String :=
  match tree.find path with
  | .error e => .error e
  | .ok .directory => .error .isDirectory
  | .ok (.file bytes) =>
    match String.fromUTF8? ⟨bytes.toArray⟩ with
    | some content => .ok content
    | none => .error .notText

end FileTree

end PocketLisp
