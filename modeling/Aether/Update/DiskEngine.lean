import Aether.Algorithm.Command
import Aether.Core.Path
import Aether.Update.Planning

/-!
# The apply engine on a disk (`aether-update-agent/src/disk_engine.rs`)

`DiskApplyEngine` moves the files of an update between the directories of its base directory.  The
file system answers its calls as it likes; a path with a NUL byte does not reach it.
`sha256_inline` is the parameter `sha256Inline`.
-/

namespace Aether.Update

open Aether.Core Calls
open Security (asBytes)

inductive DiskApplyError where
  | payloadNotFound (path : OsStr)
  | stagedFileNotFound (path : OsStr)
  | hashMismatch (expected observed : String)
  | activeFileNotFound (path : OsStr)
  | ioError (operation message : String)
  deriving DecidableEq

namespace DiskApplyError

def display : DiskApplyError → String
  | .payloadNotFound p => s!"payload not found: {Path.display p}"
  | .stagedFileNotFound p => s!"staged file not found: {Path.display p}"
  | .hashMismatch expected observed => s!"sha-256 mismatch: expected {expected}, observed {observed}"
  | .activeFileNotFound p => s!"active file not found: {Path.display p}"
  | .ioError operation message => s!"{operation} failed: {message}"

def intoApplyError (err : DiskApplyError) (step : ApplyStep) : ApplyError :=
  .refused step err.display

end DiskApplyError

inductive DiskEngineAudit where
  | downloaded (planId source dest : String) (bytes : UInt64)
  | verified (planId sha256 : String)
  | staged (planId source dest : String)
  | snapshotted (planId source dest : String)
  | applied (planId source dest : String)
  | rebootRequested (planId : String)
  deriving DecidableEq

inductive FsCall where
  | exists (path : OsStr)
  | read (path : OsStr)
  | write (path : OsStr) (bytes : List UInt8)
  | rename (src dst : OsStr)
  | copy (src dst : OsStr)
  | createDirAll (path : OsStr)
  deriving DecidableEq

abbrev FsCall.Answer : FsCall → Type
  | .exists _ => Bool
  | .read _ => Except String (List UInt8)
  | .write _ _ | .rename _ _ | .copy _ _ | .createDirAll _ => Except String Unit

abbrev DiskFs := World FsCall FsCall.Answer

abbrev DiskCommand := Command (List FsCall) DiskApplyError

namespace Disk

def orFail {α : Type} (operation : String) : Except String α → DiskCommand α
  | .ok a => pure a
  | .error message => Command.fail (.ioError operation message)

def pathExists (fs : DiskFs) (path : OsStr) : DiskCommand Bool :=
  if 0 ∈ path then pure false else call fs (.exists path)

def ioCall {α : Type} (fs : DiskFs) (operation : String) (path : OsStr) (c : FsCall)
    (result : c.Answer → Except String α) : DiskCommand α :=
  if 0 ∈ path then Command.fail (.ioError operation Path.nulError)
  else do orFail operation (result (← call fs c))

def createDirAll (fs : DiskFs) (path : OsStr) : DiskCommand Unit :=
  if path = [] then pure ()
  else ioCall fs s!"create_dir {Path.display path}" path (.createDirAll path) id

def createParent (fs : DiskFs) (path : OsStr) : DiskCommand Unit :=
  match Path.parent path with
  | none => pure ()
  | some dir => createDirAll fs dir

def readFile (fs : DiskFs) (path : OsStr) : DiskCommand (List UInt8) :=
  ioCall fs s!"read {Path.display path}" path (.read path) id

def write (fs : DiskFs) (path : OsStr) (bytes : List UInt8) : DiskCommand Unit :=
  ioCall fs s!"write {Path.display path}" path (.write path bytes) id

def rename (fs : DiskFs) (src dst : OsStr) : DiskCommand Unit :=
  ioCall fs s!"rename {Path.display src} -> {Path.display dst}" (src ++ dst) (.rename src dst) id

def copy (fs : DiskFs) (src dst : OsStr) : DiskCommand Unit :=
  ioCall fs s!"copy {Path.display src} -> {Path.display dst}" (src ++ dst) (.copy src dst) id

def writeFile (fs : DiskFs) (path : OsStr) (bytes : List UInt8) : DiskCommand Unit := do
  let tmp := Path.withExtension path (asBytes "tmp")
  write fs tmp bytes
  rename fs tmp path

def copyFile (fs : DiskFs) (src dst : OsStr) : DiskCommand Unit := do
  createParent fs dst
  copy fs src dst

def renameFile (fs : DiskFs) (src dst : OsStr) : DiskCommand Unit := do
  createParent fs dst
  rename fs src dst

end Disk

structure DiskApplyEngine where
  base : OsStr
  audit : List DiskEngineAudit
  nulFree : 0 ∉ base

namespace DiskApplyEngine

variable (e : DiskApplyEngine)

def pathIn (dir file : String) : OsStr := Path.join (Path.join e.base (asBytes dir)) (asBytes file)

def stagingPath (planId : String) : OsStr := e.pathIn "staging" s!"{planId}.bin"

def stagedPath (planId : String) : OsStr := e.pathIn "staging" s!"{planId}.staged"

def hashPath (planId : String) : OsStr := e.pathIn "staging" s!"{planId}.sha256"

def payloadPath (planId : String) : OsStr := e.pathIn "payloads" s!"{planId}.bin"

def activePath (plan : UpdatePlan) : OsStr := e.pathIn "active" plan.target

def snapshotPath (plan : UpdatePlan) : OsStr := e.pathIn "snapshot" plan.target

def ifExists (fs : DiskFs) (path : OsStr) (err : DiskApplyError)
    (k : DiskCommand DiskEngineAudit) : DiskCommand DiskEngineAudit := do
  if ← Disk.pathExists fs path then k else Command.fail err

def download (fs : DiskFs) (plan : UpdatePlan) : DiskCommand DiskEngineAudit :=
  let source := e.payloadPath plan.planId
  let dest := e.stagingPath plan.planId
  ifExists fs source (.payloadNotFound source) do
    let bytes ← Disk.readFile fs source
    Disk.writeFile fs dest bytes
    pure (.downloaded plan.planId (Path.display source) (Path.display dest)
      (UInt64.ofNat bytes.length))

def verify (sha256Inline : List UInt8 → String) (fs : DiskFs) (plan : UpdatePlan) :
    DiskCommand DiskEngineAudit :=
  let staged := e.stagingPath plan.planId
  let expectedPath := e.hashPath plan.planId
  let noHash := .ioError "verify" "no expected hash registered (write .sha256 sidecar first)"
  ifExists fs staged (.stagedFileNotFound staged) do
    let bytes ← Disk.readFile fs staged
    let observed := sha256Inline bytes
    ifExists fs expectedPath noHash do
      let s ← Disk.readFile fs expectedPath
      let expected ← Disk.orFail "read sha256 sidecar" (Utf8.fromUtf8 s)
      if observed ≠ expected then Command.fail (.hashMismatch expected observed)
      else pure (.verified plan.planId observed)

def stage (fs : DiskFs) (plan : UpdatePlan) : DiskCommand DiskEngineAudit :=
  let source := e.stagingPath plan.planId
  let dest := e.stagedPath plan.planId
  ifExists fs source (.stagedFileNotFound source) do
    Disk.renameFile fs source dest
    pure (.staged plan.planId (Path.display source) (Path.display dest))

def snapshot (fs : DiskFs) (plan : UpdatePlan) : DiskCommand DiskEngineAudit := do
  let active := e.activePath plan
  let snap := e.snapshotPath plan
  let row := .snapshotted plan.planId (Path.display active) (Path.display snap)
  if ← Disk.pathExists fs active then do
    Disk.copyFile fs active snap
    pure row
  else pure row

def apply (fs : DiskFs) (plan : UpdatePlan) : DiskCommand DiskEngineAudit :=
  let source := e.stagedPath plan.planId
  let dest := e.activePath plan
  ifExists fs source (.stagedFileNotFound source) do
    Disk.renameFile fs source dest
    pure (.applied plan.planId (Path.display source) (Path.display dest))

def runStep (sha256Inline : List UInt8 → String) (fs : DiskFs) (step : ApplyStep)
    (plan : UpdatePlan) : DiskCommand DiskEngineAudit :=
  match step with
  | .download => e.download fs plan
  | .verify => e.verify sha256Inline fs plan
  | .stage => e.stage fs plan
  | .snapshot => e.snapshot fs plan
  | .apply => e.apply fs plan
  | .reboot => pure (.rebootRequested plan.planId)

def run (sha256Inline : List UInt8 → String) (fs : DiskFs) (step : ApplyStep) (plan : UpdatePlan) :
    Command (List FsCall) ApplyError DiskApplyEngine :=
  ((e.runStep sha256Inline fs step plan).mapError (·.intoApplyError step)) >>= fun row =>
    pure { e with audit := e.audit ++ [row] }

end DiskApplyEngine

end Aether.Update
