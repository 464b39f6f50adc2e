import Aether.Core.Manifest
import Aether.Core.Str
import Aether.Security.Audit
import Aether.Storage.Disk

/-!
# The file manager (`aether-storage/src/lib.rs`)

`validate_and_resolve`, `read`, `create`, `write` and `rename`.  The set of extensions is left out,
as `read` looks at it and does nothing.
-/

namespace Aether.Storage

open Aether.Core Command
open Security (asBytes)

structure FileManager where
  root : List String
  maxReadBytes : Nat
  deriving DecidableEq

abbrev DiskM (α : Type) := Command Disk AetherError α

def sysCall {α : Type} (op : Disk → Except Errno α × Disk) (onError : Errno → AetherError) :
    DiskM α := fun d =>
  match op d with
  | (.ok a, d) => (.ok a, d)
  | (.error e, d) => (.error (onError e), d)

def ioError (e : Errno) : AetherError := .new .io (errnoText e)

def lift {α : Type} : Except AetherError α → DiskM α
  | .ok a => return a
  | .error e => fail e

def startsWith (path : List (Part String)) (root : List String) : Bool :=
  root.map Part.name <+: path

def protectedLocations : List String :=
  ["/etc", "/proc", "/sys", "/bin", "/sbin", "/usr", "/dev", "/run"]

def isProtected (canon : List String) : Bool :=
  protectedLocations.any fun prot =>
    displayNames canon == prot || decide ((prot ++ "/").toList <+: (displayNames canon).toList)

namespace FileManager

variable (m : FileManager)

def checkText (userPath : String) : Except AetherError (List String) :=
  if (trim userPath).isEmpty then .error (.invalidInput "empty path")
  else if '\x00' ∈ userPath.toList then .error (.invalidInput "path contains null byte")
  else if userPath.toList.head? = some '/' then
    .error (.new .pathTraversal s!"absolute paths not allowed: {userPath}")
  else
    let pieces := (userPath.toList.splitOn '/').map String.ofList
    if .up ∈ pieces.filterMap piecePart then .error (.pathTraversal userPath) else .ok pieces

def checkExisting (userPath : String) (canon : List String) : Except AetherError PathBuf :=
  if ¬ m.root <+: canon then .error (.symlinkEscape userPath (displayNames canon))
  else if isProtected canon then
    .error (.new .permissionDenied s!"access to protected location denied: {userPath}")
  else .ok (.canonical canon)

def checkAncestors (t : Tree) (userPath : String) : List (Part String) → Except AetherError Unit
  | [] => .ok ()
  | _ :: rest =>
    if pathExists t rest.reverse then
      match canonicalize t rest.reverse with
      | .ok canon =>
        if ¬ m.root <+: canon then .error (.symlinkEscape userPath (displayNames canon)) else .ok ()
      | .error _ => .ok ()
    else checkAncestors t userPath rest

def checkPrefix (userPath : String) (joined : PathBuf) : Except AetherError Unit :=
  if (displayNames m.root).toList <+: joined.display.toList then .ok ()
  else .error (.pathTraversal userPath)

def canonicalOr (t : Tree) (path : List (Part String)) : List (Part String) :=
  match canonicalize t path with
  | .ok canon => canon.map .name
  | .error _ => path

def displayParts (path : List (Part String)) : String :=
  displayNames (path.map fun
    | .name n => n
    | .up => ".."
    | .here => ".")

def checkParent (t : Tree) (userPath : String) (joined : PathBuf) : Except AetherError Unit :=
  match joined.parent with
  | none => .ok ()
  | some parent =>
    if pathExists t parent then
      let canonParent := canonicalOr t parent
      if !startsWith canonParent m.root then
        .error (.symlinkEscape userPath (displayParts canonParent))
      else .ok ()
    else do
      m.checkPrefix userPath joined
      m.checkAncestors t userPath parent.reverse

def validateAndResolve (t : Tree) (userPath : String) : Except AetherError PathBuf := do
  let pieces ← checkText userPath
  let joined : PathBuf := ⟨m.root, pieces⟩
  if pathExists t joined.parts then
    match canonicalize t joined.parts with
    | .error _ => throw (.new .io s!"cannot resolve path: {userPath}")
    | .ok canon => m.checkExisting userPath canon
  else
    m.checkParent t userPath joined
    m.checkPrefix userPath joined
    return joined

def validated (userPath : String) : DiskM PathBuf := do
  let result ← peek fun d : Disk => m.validateAndResolve d.tree userPath
  lift result

def relative (abs : PathBuf) : String :=
  let skipped (piece : String) : Bool := piece == "" || piece == "."
  let trimmed (pieces : List String) : List String :=
    ((pieces.dropWhile skipped).reverse.dropWhile skipped).reverse
  let text :=
    if m.root <+: abs.names then
      String.intercalate "/" (trimmed (abs.names.drop m.root.length ++ abs.pieces))
    else abs.display
  String.ofList (text.toList.map fun c => if c = '\\' then '/' else c)

def decodeText (relativePath : String) (bytes : List UInt8) : Except AetherError String :=
  if m.maxReadBytes < bytes.length then
    .error (.new .resourceExhausted s!"file too large: {relativePath}")
  else if 0 ∈ bytes then
    .error (.new .invalidInput s!"unsupported binary file: {relativePath}")
  else
    match String.fromUTF8? ⟨bytes.toArray⟩ with
    | some text => .ok text
    | none => .error (.new .invalidInput s!"unsupported file encoding: {relativePath}")

def checkReadable (t : Tree) (relativePath : String) (abs : PathBuf) : Except AetherError Unit :=
  match resolve t abs.parts with
  | .found p _ =>
    match t.node p with
    | some (.file bytes) =>
      if m.maxReadBytes < bytes.length then
        .error (.new .resourceExhausted
          s!"file too large ({bytes.length} bytes, limit {m.maxReadBytes}): {relativePath}")
      else .ok ()
    | _ => .error (.invalidInput s!"is a directory: {relativePath}")
  | _ => .error (.notFound relativePath)

def read (relativePath : String) : DiskM String := do
  let abs ← m.validated relativePath
  let checked ← peek fun d : Disk => m.checkReadable d.tree relativePath abs
  lift checked
  let bytes ← sysCall (Disk.read abs.parts (m.maxReadBytes + 1)) ioError
  lift (m.decodeText relativePath bytes)

def createError (e : Errno) : AetherError :=
  if containsText (errnoText e) "No space" then .new .resourceExhausted "disk full" else ioError e

def checkCreated (t : Tree) (relativePath : String) (parent : List (Part String)) :
    Except AetherError Unit :=
  if !startsWith (canonicalOr t parent) m.root then
    .error (.symlinkEscape relativePath (displayParts (canonicalOr t parent)))
  else .ok ()

def createParent (relativePath : String) (abs : PathBuf) : DiskM Unit :=
  match abs.parent with
  | none => return ()
  | some parent => do
    sysCall (Disk.createDirAll parent) ioError
    let checked ← peek fun d : Disk => m.checkCreated d.tree relativePath parent
    lift checked

def create (relativePath content : String) : DiskM (String × Nat) := do
  let abs ← m.validated relativePath
  let found ← peek fun d : Disk => pathExists d.tree abs.parts
  if found then fail (.new .invalidInput s!"file already exists: {relativePath}")
  else
    m.createParent relativePath abs
    sysCall (Disk.write abs.parts (asBytes content)) createError
    return (m.relative abs, content.utf8ByteSize)

def makeParent (abs : PathBuf) : DiskM Unit :=
  match abs.parent with
  | none => return ()
  | some parent => sysCall (Disk.createDirAll parent) ioError

def write (relativePath content : String) : DiskM (String × Nat) := do
  let abs ← m.validated relativePath
  makeParent abs
  sysCall (Disk.write abs.parts (asBytes content)) ioError
  return (m.relative abs, content.utf8ByteSize)

def rename (source dest : String) : DiskM String := do
  let absFrom ← m.validated source
  let found ← peek fun d : Disk => pathExists d.tree absFrom.parts
  if !found then fail (.notFound source)
  else
    let absTo ← m.validated dest
    let taken ← peek fun d : Disk => pathExists d.tree absTo.parts
    if taken then fail (.new .invalidInput s!"destination already exists: {dest}")
    else
      makeParent absTo
      sysCall (Disk.rename absFrom absTo) ioError
      return m.relative absTo

end FileManager

end Aether.Storage
