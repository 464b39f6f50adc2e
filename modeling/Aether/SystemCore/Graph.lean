import Aether.Core.Manifest
import Mathlib.Data.List.Sort

/-!
# Dependency graph resolution (`aether-system-core/src/graph.rs`)

A `BTreeMap` is a `Std.TreeMap`; the stable `sort_by_key` is an insertion sort.  The `while let`
loop runs on fuel: `none` stands for a call that does not return or an indexing that has panicked.
-/

namespace Aether.SystemCore

open Aether.Core

inductive GraphError where
  | missingDependency (service dependency : String)
  | circularDependency (cycle : List String)
  | duplicateServiceId (service : String)
  deriving DecidableEq

def GraphError.display : GraphError → String
  | .missingDependency service dependency =>
    "service '" ++ service ++ "' depends on missing service '" ++ dependency ++ "'"
  | .circularDependency cycle => "circular dependency detected: " ++ " -> ".intercalate cycle
  | .duplicateServiceId service => "duplicate service id '" ++ service ++ "'"

abbrev ManifestMap := Std.TreeMap String ServiceManifest

structure DependencyGraph where
  manifests : ManifestMap
  startOrder : List String

def insertManifests (map : ManifestMap) : List ServiceManifest → Except GraphError ManifestMap
  | [] => .ok map
  | manifest :: manifests =>
    if map.contains manifest.serviceId then .error (.duplicateServiceId manifest.serviceId)
    else insertManifests (map.insert manifest.serviceId manifest) manifests

def ManifestMap.vals (map : ManifestMap) : List ServiceManifest := map.toList.map Prod.snd

def firstMissing (map : ManifestMap) : Option GraphError :=
  map.vals.findSome? fun manifest =>
    (manifest.dependencies.find? fun dependency => !map.contains dependency).map
      (GraphError.missingDependency manifest.serviceId)

def initialIndegree (map : ManifestMap) : Std.TreeMap String Nat :=
  Std.TreeMap.ofList (map.toList.map fun (id, manifest) =>
    (id, (manifest.dependencies.filter fun d => map.contains d).length))

def pushDependent (m : Std.TreeMap String (List String)) (dep id : String) :
    Std.TreeMap String (List String) :=
  m.insert dep (m.getD dep [] ++ [id])

def dependentsOf (map : ManifestMap) : Std.TreeMap String (List String) :=
  map.vals.foldl (fun m manifest =>
    manifest.dependencies.foldl (fun m dep => pushDependent m dep manifest.serviceId) m) ∅

def sortByKey (manifests : List ServiceManifest) : List ServiceManifest :=
  manifests.insertionSort fun a b =>
    a.startupPriority < b.startupPriority ∨
      (a.startupPriority = b.startupPriority ∧ a.serviceId ≤ b.serviceId)

def initialQueue (map : ManifestMap) (indegree : Std.TreeMap String Nat) : Option (List String) :=
  ((indegree.toList.filter fun e => e.2 = 0).mapM fun e => map[e.1]?).map
    fun ready => (sortByKey ready).map ServiceManifest.serviceId

def releaseChildren (map : ManifestMap) (id : String) :
    List String → Std.TreeMap String Nat → List ServiceManifest →
      Option (Except GraphError (Std.TreeMap String Nat × List ServiceManifest))
  | [], indegree, unlocked => some (.ok (indegree, unlocked))
  | child :: children, indegree, unlocked =>
    match indegree[child]? with
    | none => some (.error (.missingDependency id child))
    | some degree =>
      let entry := degree - 1
      let indegree := indegree.insert child entry
      if entry = 0 then
        match map[child]? with
        | none => none
        | some manifest => releaseChildren map id children indegree (unlocked ++ [manifest])
      else releaseChildren map id children indegree unlocked

def kahnLoop (map : ManifestMap) (dependents : Std.TreeMap String (List String)) :
    Nat → Std.TreeMap String Nat → List String → List String →
      Option (Except GraphError (List String))
  | 0, _, _, _ => none
  | _ + 1, _, [], startOrder => some (.ok startOrder)
  | fuel + 1, indegree, id :: queue, startOrder =>
    let startOrder := startOrder ++ [id]
    match dependents[id]? with
    | none => kahnLoop map dependents fuel indegree queue startOrder
    | some children =>
      match releaseChildren map id children indegree [] with
      | none => none
      | some (.error e) => some (.error e)
      | some (.ok (indegree, unlocked)) =>
        kahnLoop map dependents fuel indegree
          (queue ++ (sortByKey unlocked).map ServiceManifest.serviceId) startOrder

def remaining (map : ManifestMap) (startOrder : List String) : List String :=
  (map.keys.filter fun id => id ∉ startOrder).insertionSort (· ≤ ·)

def DependencyGraph.new (fuel : Nat) (manifests : List ServiceManifest) :
    Option (Except GraphError DependencyGraph) :=
  match insertManifests ∅ manifests with
  | .error e => some (.error e)
  | .ok map =>
    match firstMissing map with
    | some e => some (.error e)
    | none => do
      let indegree := initialIndegree map
      let queue ← initialQueue map indegree
      match ← kahnLoop map (dependentsOf map) fuel indegree queue [] with
      | .error e => some (.error e)
      | .ok startOrder =>
        if startOrder.length ≠ map.size then
          some (.error (.circularDependency (remaining map startOrder)))
        else some (.ok ⟨map, startOrder⟩)

namespace DependencyGraph

def stopOrder (g : DependencyGraph) : List String := g.startOrder.reverse

def manifest (g : DependencyGraph) (serviceId : String) : Option ServiceManifest :=
  g.manifests[serviceId]?

end DependencyGraph

end Aether.SystemCore
