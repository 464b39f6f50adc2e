import Aether.Core.Path
import Aether.Security.Audit
import Mathlib.Data.List.AList

/-!
# Memory stores (`aether-agent-runtime/src/memory_store.rs`)

A map, and the files of a directory, which may be missing.  A call of the file system fails for what
is not there, for a name with a NUL byte and for the name `.`.
-/

namespace Aether.Agent

open Aether.Core
open Security (asBytes)

abbrev Bytes := List UInt8

def maxNameLen : ℕ := 64

def maxPayloadBytes : ℕ := 256 * 1024

inductive NameFault where
  | empty
  | tooLong (len cap : ℕ)
  | pathSeparator (name : String)
  | parentReference (name : String)
  | startsWithNul
  deriving DecidableEq

inductive MemoryStoreError where
  | io (s : String)
  | invalidName (fault : NameFault)
  | tooLarge (size cap : ℕ)
  deriving DecidableEq

def validateName (name : String) : Except MemoryStoreError Unit :=
  if name = "" then .error (.invalidName .empty)
  else if name.utf8ByteSize > maxNameLen then
    .error (.invalidName (.tooLong name.utf8ByteSize maxNameLen))
  else if '/' ∈ name.toList || '\\' ∈ name.toList then
    .error (.invalidName (.pathSeparator name))
  else if ['.', '.'] <:+: name.toList then .error (.invalidName (.parentReference name))
  else if name.toList.head? = some '\x00' then .error (.invalidName .startsWithNul)
  else .ok ()

def checkPayload (bytes : Bytes) : Except MemoryStoreError Unit :=
  if bytes.length > maxPayloadBytes then .error (.tooLarge bytes.length maxPayloadBytes) else .ok ()

inductive StoreCall where
  | save (name : String) (bytes : Bytes)
  | load (name : String)
  | delete (name : String)
  deriving DecidableEq

inductive StoreResult where
  | saved
  | loaded (bytes : Option Bytes)
  | deleted (removed : Bool)
  | failed (e : MemoryStoreError)
  deriving DecidableEq

abbrev FileMap := AList fun _ : String => Bytes

structure InMemoryStore where
  inner : FileMap

namespace InMemoryStore

def new : InMemoryStore := ⟨∅⟩

def load (s : InMemoryStore) (name : String) : Except MemoryStoreError (Option Bytes) := do
  validateName name
  pure (s.inner.lookup name)

def save (s : InMemoryStore) (name : String) (bytes : Bytes) :
    Except MemoryStoreError InMemoryStore := do
  validateName name
  checkPayload bytes
  pure ⟨s.inner.insert name bytes⟩

def delete (s : InMemoryStore) (name : String) :
    Except MemoryStoreError (Bool × InMemoryStore) := do
  validateName name
  pure ((s.inner.lookup name).isSome, ⟨s.inner.erase name⟩)

def call (s : InMemoryStore) : StoreCall → StoreResult × InMemoryStore
  | .save name bytes =>
    match s.save name bytes with
    | .ok s' => (.saved, s')
    | .error e => (.failed e, s)
  | .load name =>
    match s.load name with
    | .ok bytes => (.loaded bytes, s)
    | .error e => (.failed e, s)
  | .delete name =>
    match s.delete name with
    | .ok (removed, s') => (.deleted removed, s')
    | .error e => (.failed e, s)

end InMemoryStore

inductive IoError where
  | notFound
  | isADirectory
  | resourceBusy
  | nul
  deriving DecidableEq

def IoError.display : IoError → String
  | .notFound => "No such file or directory (os error 2)"
  | .isADirectory => "Is a directory (os error 21)"
  | .resourceBusy => "Device or resource busy (os error 16)"
  | .nul => Path.nulError

structure Directory where
  made : Bool
  files : FileMap
  empty_of_not_made : made = false → files = ∅

namespace Directory

def empty (made : Bool) : Directory := ⟨made, ∅, fun _ => rfl⟩

def nameError (d : Directory) (name : String) (self : IoError) : Option IoError :=
  if '\x00' ∈ name.toList then some .nul
  else if !d.made then some .notFound
  else if name = "." then some self
  else none

def withFiles (d : Directory) (files : FileMap) (h : d.made = true) : Directory :=
  ⟨d.made, files, fun hmade => absurd (h.symm.trans hmade) (by decide)⟩

def make (d : Directory) : Directory := ⟨true, d.files, fun h => absurd h (by decide)⟩

def read (d : Directory) (name : String) : Except IoError Bytes :=
  match d.nameError name .isADirectory with
  | some e => .error e
  | none =>
    match d.files.lookup name with
    | none => .error .notFound
    | some bytes => .ok bytes

def write (d : Directory) (name : String) (bytes : Bytes) : Except IoError Directory :=
  match d.nameError name .isADirectory with
  | some e => .error e
  | none => if h : d.made then .ok (d.withFiles (d.files.insert name bytes) h) else .error .notFound

def rename (d : Directory) (src dst : String) : Except IoError Directory :=
  match d.nameError src .resourceBusy, d.nameError dst .resourceBusy with
  | some e, _ => .error e
  | none, some e => .error e
  | none, none =>
    match d.files.lookup src with
    | none => .error .notFound
    | some bytes =>
      if h : d.made then .ok (d.withFiles ((d.files.erase src).insert dst bytes) h)
      else .error .notFound

def remove (d : Directory) (name : String) : Except IoError Directory :=
  match d.nameError name .isADirectory with
  | some e => .error e
  | none =>
    match d.files.lookup name with
    | none => .error .notFound
    | some _ =>
      if h : d.made then .ok (d.withFiles (d.files.erase name) h) else .error .notFound

end Directory

structure FileMemoryStore where
  root : OsStr

namespace FileMemoryStore

variable (fs : FileMemoryStore)

def displayPath (name : String) : String := Path.display (Path.join fs.root (asBytes name))

def resolve (name : String) : Except MemoryStoreError String := do
  validateName name
  pure name

def load (d : Directory) (name : String) : Except MemoryStoreError (Option Bytes) := do
  let target ← resolve name
  match d.read target with
  | .ok bytes => pure (some bytes)
  | .error .notFound => pure none
  | .error e => throw (.io s!"read {fs.displayPath target}: {e.display}")

def tmpName (name : String) : String := s!"{name}.tmp"

def save (d : Directory) (name : String) (bytes : Bytes) :
    Except MemoryStoreError Unit × Directory :=
  match do { let target ← resolve name; checkPayload bytes; pure target } with
  | .error e => (.error e, d)
  | .ok target =>
    let d := if d.made then d else d.make
    let tmp := tmpName name
    match d.write tmp bytes with
    | .error e => (.error (.io s!"write {fs.displayPath tmp}: {e.display}"), d)
    | .ok d =>
      match d.rename tmp target with
      | .ok d => (.ok (), d)
      | .error e =>
        let message := s!"rename {fs.displayPath tmp} -> {fs.displayPath target}: {e.display}"
        -- The file of before is removed; an error of that is ignored.
        match d.remove tmp with
        | .ok d => (.error (.io message), d)
        | .error _ => (.error (.io message), d)

def delete (d : Directory) (name : String) : Except MemoryStoreError (Bool × Directory) := do
  let target ← resolve name
  match d.remove target with
  | .ok d => pure (true, d)
  | .error .notFound => pure (false, d)
  | .error e => throw (.io s!"remove {fs.displayPath target}: {e.display}")

def call (d : Directory) : StoreCall → StoreResult × Directory
  | .save name bytes =>
    match fs.save d name bytes with
    | (.ok (), d') => (.saved, d')
    | (.error e, d') => (.failed e, d')
  | .load name =>
    match fs.load d name with
    | .ok bytes => (.loaded bytes, d)
    | .error e => (.failed e, d)
  | .delete name =>
    match fs.delete d name with
    | .ok (removed, d') => (.deleted removed, d')
    | .error e => (.failed e, d)

end FileMemoryStore

end Aether.Agent
