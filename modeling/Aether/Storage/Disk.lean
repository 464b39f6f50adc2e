import Aether.Algorithm.Command
import Aether.Algorithm.FileTree

/-!
# The file system under the file manager

The calls of `std::fs` and `std::path` that `aether-storage` makes, over a tree with symbolic links.
The disk keeps a log of what is read, made, overwritten and moved, with the physical locations.
Failures of the device, permissions and other processes are left out.
-/

namespace Aether.Storage

open FileTree

abbrev Tree := FileTree String (List UInt8)

def errnoText : Errno → String
  | .notFound => "No such file or directory (os error 2)"
  | .notADirectory => "Not a directory (os error 20)"
  | .alreadyExists => "File exists (os error 17)"
  | .isADirectory => "Is a directory (os error 21)"
  | .directoryNotEmpty => "Directory not empty (os error 39)"
  | .filesystemLoop => "Too many levels of symbolic links (os error 40)"
  | .invalidInput => "Invalid argument (os error 22)"
  | .resourceBusy => "Device or resource busy (os error 16)"
  | .storageFull => "No space left on device (os error 28)"

def maxSymlinks : Nat := 40

def piecePart (piece : String) : Option (Part String) :=
  if piece = "" ∨ piece = "." then none
  else if piece = ".." then some .up
  else some (.name piece)

structure PathBuf where
  names : List String
  pieces : List String
  deriving DecidableEq

namespace PathBuf

def components (p : PathBuf) : List (Part String) :=
  p.names.map .name ++ p.pieces.filterMap piecePart

def endsInSlash (p : PathBuf) : Bool := p.pieces.getLast? == some ""

def endsInDot (p : PathBuf) : Bool :=
  (p.pieces.reverse.dropWhile fun piece => piece == "").head? == some "."

def parts (p : PathBuf) : List (Part String) :=
  p.components ++ if p.endsInSlash || p.endsInDot then [.here] else []

def parent (p : PathBuf) : Option (List (Part String)) :=
  if p.components = [] then none else some p.components.dropLast

def canonical (names : List String) : PathBuf := ⟨names, []⟩

end PathBuf

def displayNames (names : List String) : String := "/" ++ String.intercalate "/" names

def PathBuf.display (p : PathBuf) : String :=
  if p.pieces = [] then displayNames p.names
  else if p.names = [] then "/" ++ String.intercalate "/" p.pieces
  else displayNames p.names ++ "/" ++ String.intercalate "/" p.pieces

def resolve (t : Tree) (parts : List (Part String)) : Walk String := t.walk maxSymlinks [] parts

def pathExists (t : Tree) (parts : List (Part String)) : Bool :=
  match resolve t parts with
  | .found _ _ => true
  | _ => false

def canonicalize (t : Tree) (parts : List (Part String)) : Except Errno (List String) :=
  match resolve t parts with
  | .found p _ => .ok p
  | .missing _ _ => .error .notFound
  | .error e => .error e

def isDir (t : Tree) (parts : List (Part String)) : Bool :=
  match resolve t parts with
  | .found p _ => t.isDirAt p
  | _ => false

inductive Access where
  | read (path : List String)
  | created (path : List String)
  | overwritten (path : List String)
  | moved (source dest : List String)
  deriving DecidableEq

def Access.paths : Access → List (List String)
  | .read path => [path]
  | .created path => [path]
  | .overwritten path => [path]
  | .moved source dest => [source, dest]

structure Disk where
  tree : Tree
  log : List Access

namespace Disk

def mkdir (parts : List (Part String)) (d : Disk) : Except Errno Unit × Disk :=
  match d.tree.mkdir maxSymlinks parts with
  | .ok (path, tree) => (.ok (), ⟨tree, d.log ++ [.created path]⟩)
  | .error e => (.error e, d)

def createDirAllRev : List (Part String) → Disk → Except Errno Unit × Disk
  | [], d => (.ok (), d)
  | part :: rest, d =>
    match d.mkdir (rest.reverse ++ [part]) with
    | (.ok (), d) => (.ok (), d)
    | (.error e, d) =>
      if e = .notFound then
        match createDirAllRev rest d with
        | (.error e, d) => (.error e, d)
        | (.ok (), d) =>
          match d.mkdir (rest.reverse ++ [part]) with
          | (.ok (), d) => (.ok (), d)
          | (.error e, d) =>
            if isDir d.tree (rest.reverse ++ [part]) then (.ok (), d) else (.error e, d)
      else if isDir d.tree (rest.reverse ++ [part]) then (.ok (), d)
      else (.error e, d)

def createDirAll (parts : List (Part String)) (d : Disk) : Except Errno Unit × Disk :=
  createDirAllRev parts.reverse d

def write (parts : List (Part String)) (bytes : List UInt8) (d : Disk) :
    Except Errno Unit × Disk :=
  match d.tree.writeFile maxSymlinks parts bytes with
  | .ok (path, isNew, tree) =>
    (.ok (), ⟨tree, d.log ++ [if isNew then .created path else .overwritten path]⟩)
  | .error e => (.error e, d)

def rename (source dest : PathBuf) (d : Disk) : Except Errno Unit × Disk :=
  let destParts := dest.components ++ if dest.endsInDot then [.here] else []
  match d.tree.rename maxSymlinks source.parts destParts dest.endsInSlash with
  | .ok (from', to', tree) => (.ok (), ⟨tree, d.log ++ [.moved from' to']⟩)
  | .error e => (.error e, d)

def read (parts : List (Part String)) (limit : Nat) (d : Disk) : Except Errno (List UInt8) × Disk :=
  match resolve d.tree parts with
  | .found p _ =>
    match d.tree.node p with
    | some (.file bytes) => (.ok (bytes.take limit), { d with log := d.log ++ [.read p] })
    | _ => (.error .isADirectory, d)
  | .missing _ _ => (.error .notFound, d)
  | .error e => (.error e, d)

end Disk

end Aether.Storage
