import Aether.Algorithm.Command
import Aether.Core.Manifest
import Aether.Core.Path
import Aether.Security.Audit

/-!
# The sandbox launcher (`aether-sandbox/src/main.rs`, `linux.rs`)

The kernel answers calls as it likes; a path or an argument with a NUL byte does not reach it.  What
the launcher prints is left out.
-/

namespace Aether.Sandbox

open Aether.Core Calls
open Security (asBytes)

structure PlanReader where
  readToString : String → Except String String
  fromStr : String → Except String SandboxPlan

def resolvePlan (x : PlanReader) (planPath profile : Option String) : Except String SandboxPlan :=
  match planPath, profile with
  | some _, some _ => .error "--plan and --profile are mutually exclusive"
  | none, none => .error "one of --plan or --profile is required"
  | some path, none => do
    let text ← (x.readToString path).mapError fun e => s!"cannot read plan file {path}: {e}"
    (x.fromStr text).mapError fun e => s!"plan file {path} is not a valid SandboxPlan: {e}"
  | none, some name =>
    if name = "internal" then .ok (planSandbox .internal)
    else if name = "system-service" then .ok (planSandbox .systemService)
    else if name = "restricted-service" then .ok (planSandbox .restrictedService)
    else .error
      s!"unknown profile '{name}'; expected internal | system-service | restricted-service"

def isForbidden : LinuxCapability → Bool
  | .sysAdmin | .sysModule | .sysRawio | .sysBoot | .linuxImmutable | .macAdmin | .macOverride
  | .bpf | .checkpointRestore => true
  | _ => false

def sliceRoot : String := "aether.slice/"

def validate (plan : SandboxPlan) : Except String Unit :=
  match plan.capabilities.find? isForbidden with
  | some cap => .error s!"plan requests forbidden capability {cap.name}"
  | none =>
    let r := plan.resources
    if !(sliceRoot.toList.isPrefixOf r.cgroupSlice.toList) then
      .error s!"cgroup slice '{r.cgroupSlice}' is not under aether.slice/"
    else if r.cpuWeight < 1 || r.cpuWeight > 10000 then
      .error s!"cpu_weight {r.cpuWeight} is outside the cgroup v2 range 1..=10000"
    else if r.ioWeight < 1 || r.ioWeight > 10000 then
      .error s!"io_weight {r.ioWeight} is outside the cgroup v2 range 1..=10000"
    else .ok ()

inductive SysCall where
  | setNoNewPrivs
  | unshare (flags : Int32)
  | createDirAll (path : OsStr)
  | write (path bytes : OsStr)
  -- `capset`: the same two words for the effective, permitted and inheritable sets
  | capset (low high : UInt32)
  | execvp (argv : List OsStr)
  deriving DecidableEq

abbrev Kernel := World SysCall fun _ => Except String Unit

abbrev Launch := Command (List SysCall)

def sysCall (k : Kernel) (c : SysCall) : Launch String Unit := do
  match ← call k c with
  | .ok () => pure ()
  | .error e => Command.fail e

def capNumber (c : LinuxCapability) : UInt32 := UInt32.ofNat c.ctorIdx

def namespaceFlag : LinuxNamespace → Int64
  | .mount => 0x00020000
  | .pid => 0x20000000
  | .network => 0x40000000
  | .ipc => 0x08000000
  | .uts => 0x04000000
  | .user => 0x10000000
  | .cgroup => 0x02000000

def pathCall (k : Kernel) (path : OsStr) (c : SysCall) : Launch String Unit :=
  if 0 ∈ path then Command.fail Path.nulError else sysCall k c

def cgroupPath (slice : String) : OsStr := asBytes s!"/sys/fs/cgroup/{slice}"

def writeCgroupSlice (k : Kernel) (pid : UInt32) (slice : String) : Launch String Unit := do
  let path := cgroupPath slice
  pathCall k path (.createDirAll path)
  let procs := Path.join path (asBytes "cgroup.procs")
  pathCall k procs (.write procs (asBytes (toString pid)))

def setCapabilities (k : Kernel) (keep : List LinuxCapability) : Launch String Unit :=
  let word (high : Bool) : UInt32 :=
    (keep.filter fun c => decide (32 ≤ capNumber c) == high).foldl
      (fun w c => w ||| (1 <<< (capNumber c % 32))) 0
  sysCall k (.capset (word false) (word true))

def setNoNewPrivs (k : Kernel) (plan : SandboxPlan) : Launch String Unit :=
  if plan.noNewPrivs then sysCall k .setNoNewPrivs else pure ()

def unshareNamespaces (k : Kernel) (plan : SandboxPlan) : Launch String Unit :=
  if plan.namespaces = [] then pure ()
  else
    let flags := plan.namespaces.foldl (fun flags ns => flags ||| namespaceFlag ns) 0
    sysCall k (.unshare flags.toInt32)

def execChild (k : Kernel) (cmd : List String) : Launch UInt8 Unit :=
  let argv := cmd.map asBytes
  if argv.any (0 ∈ ·) then Command.fail 127
  else (sysCall k (.execvp argv)).mapError fun _ => 127

def applyAndExec (k : Kernel) (pid : UInt32) (plan : SandboxPlan) (cmd : List String) :
    Launch UInt8 Unit :=
  if cmd = [] then Command.fail 2
  else do
    (setNoNewPrivs k plan).mapError fun _ => 1
    (unshareNamespaces k plan).mapError fun _ => 1
    (writeCgroupSlice k pid plan.resources.cgroupSlice).mapError fun _ => 1
    (setCapabilities k plan.capabilities).mapError fun _ => 1
    execChild k cmd

structure Options where
  planPath : Option String := none
  profile : Option String := none
  dryRun : Bool := false
  deriving DecidableEq

inductive Parsed where
  | help
  | unknownFlag (flag : String)
  | options (o : Options) (cmd : List String)
  deriving DecidableEq

def parseArgs (o : Options) : List String → Parsed
  | [] => .options o []
  | arg :: rest =>
    if arg = "--plan" then
      match rest with
      | [] => .options { o with planPath := none } []
      | path :: rest => parseArgs { o with planPath := some path } rest
    else if arg = "--profile" then
      match rest with
      | [] => .options { o with profile := none } []
      | name :: rest => parseArgs { o with profile := some name } rest
    else if arg = "--dry-run" then parseArgs { o with dryRun := true } rest
    else if arg = "--help" || arg = "-h" then .help
    else if arg = "--" then .options o rest
    else if "--".toList.isPrefixOf arg.toList then .unknownFlag arg
    else .options o (arg :: rest)

def main (x : PlanReader) (k : Kernel) (pid : UInt32) (args : List String) :
    Launch UInt8 (Option UInt8) :=
  match parseArgs {} args with
  | .help => pure (some 0)
  | .unknownFlag _ => Command.fail 2
  | .options o cmd =>
    if cmd = [] then Command.fail 2
    else
      match resolvePlan x o.planPath o.profile with
      | .error _ => Command.fail 2
      | .ok plan =>
        match validate plan with
        | .error _ => Command.fail 2
        | .ok () =>
          if o.dryRun then pure (some 0)
          else do
            applyAndExec k pid plan cmd
            pure none

end Aether.Sandbox
