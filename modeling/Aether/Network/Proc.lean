import Aether.Algorithm.Checked
import Aether.Algorithm.Returns
import Aether.Core.Str

/-!
# The network manager and its proc backend (`aether-network`: `lib.rs`, `manager.rs`, `proc.rs`)

A loader returns its data or an error, or it panics: a slice that is not between characters, or an
overflowing sum (`Fallible`).
-/

namespace Aether.Network

open Aether.Core Checked

inductive InterfaceKind where
  | loopback
  | ethernet
  | wifi
  | bridge
  | tunnel
  | virtual
  | unknown
  deriving DecidableEq

inductive InterfaceState where
  | up
  | down
  | unknown
  deriving DecidableEq

inductive AddressFamily where
  | v4
  | v6
  deriving DecidableEq

structure Interface where
  name : Str
  kind : InterfaceKind
  state : InterfaceState
  macAddress : Str
  mtu : UInt32
  index : UInt32
  deriving DecidableEq

structure Address where
  interface : Str
  family : AddressFamily
  address : Str
  prefixLen : UInt8
  scope : String
  deriving DecidableEq

structure Route where
  family : AddressFamily
  destination : Str
  prefixLen : UInt8
  gateway : Str
  interface : Str
  metric : UInt32
  deriving DecidableEq

structure DnsConfig where
  nameservers : List Str
  searchDomains : List Str
  source : String
  deriving DecidableEq

def DnsConfig.empty : DnsConfig := ⟨[], [], "empty"⟩

structure InterfaceStats where
  interface : Str
  rxBytes : UInt64
  txBytes : UInt64
  rxPackets : UInt64
  txPackets : UInt64
  rxErrors : UInt64
  txErrors : UInt64
  rxDropped : UInt64
  txDropped : UInt64
  deriving DecidableEq

inductive Event where
  | linkUp (interface : Str)
  | linkDown (interface : Str)
  | addressAdded (address : Address)
  | addressRemoved (address : Address)
  | dnsChanged
  deriving DecidableEq

inductive NetworkError where
  | backend (message : String)
  | notFound (name : String)
  | parse (message : String)
  | io (message : String)
  deriving DecidableEq

abbrev Load := Fallible NetworkError

def hexByte (hex : Str) (i : ℕ) : Fallible Unit ℕ := do
  let piece ← liftM (hex.slice i (i + 2))
  match Str.fromStrRadix 16 256 piece with
  | some byte => return byte
  | none => throw ()

def hexToIpv4 (hex : Str) : Fallible Unit Str :=
  if hex.len ≠ 8 then throw ()
  else do
    let bytes ← [0, 2, 4, 6].mapM (hexByte hex)
    return (".".intercalate (bytes.map toString)).toList

def hex32ToIpv6 (hex : Str) : Option (Option Str) :=
  if hex.len ≠ 32 then some none
  else do
    let groups ← (List.range 8).mapM fun i => hex.slice (i * 4) (i * 4 + 4)
    return some (List.intercalate [':'] groups)

def countOnes (n : UInt8) : ℕ := (List.range 8).countP fun i => n.toNat.testBit i

def maskToPrefix (mask : Str) : UInt8 :=
  let count := (mask.splitOn '.').foldl (fun count part =>
    match Str.parseU8 part with
    | some n => min (count + countOnes n) 4294967295
    | none => count) 0
  UInt8.ofNat (min count 255)

def kindFor (name : Str) : InterfaceKind :=
  if name = "lo".toList then .loopback
  else if name.startsWith "eth" || name.startsWith "en" then .ethernet
  else if name.startsWith "wl" then .wifi
  else if name.startsWith "br" then .bridge
  else if name.startsWith "tun" || name.startsWith "wg" then .tunnel
  else if name.startsWith "veth" || name.startsWith "docker" then .virtual
  else .unknown

def parseDevLine (line : Str) : Option (Str × InterfaceStats) := do
  let (name, rest) ← Str.splitOnce line.trim ':'
  let fields := rest.splitWhitespace
  if fields.length < 16 then none
  else
    let parse (i : ℕ) : UInt64 := (Str.parseU64 (fields.getD i [])).getD 0
    some (name.trim, {
      interface := name.trim
      rxBytes := parse 0
      rxPackets := parse 1
      rxErrors := parse 2
      rxDropped := parse 3
      txBytes := parse 8
      txPackets := parse 9
      txErrors := parse 10
      txDropped := parse 11 })

def parseProcNetDev (content : Str) : List (Str × InterfaceStats) :=
  content.lines.filterMap parseDevLine

def routeAddress (what : String) (i : ℕ) (hex : Str) : Load Str :=
  (hexToIpv4 hex).adapt fun _ => .parse s!"bad {what} in route line {i}"

def parseRouteLine (line : Str × ℕ) : Load (Option Route) :=
  let (line, i) := line
  let cols := line.splitWhitespace
  if i = 0 ∨ cols.length < 11 then return none
  else do
    let destination ← routeAddress "destination" i (cols.getD 1 [])
    let gateway ← routeAddress "gateway" i (cols.getD 2 [])
    let mask ← routeAddress "mask" i (cols.getD 7 [])
    return some {
      family := .v4
      destination
      prefixLen := maskToPrefix mask
      gateway
      interface := cols.getD 0 []
      metric := (Str.parseU32 (cols.getD 6 [])).getD 0 }

def parseProcNetRoute (content : Str) : Load (List Route) := do
  let routes ← content.lines.zipIdx.mapM parseRouteLine
  return routes.reduceOption

def scopeName : ℕ → String
  | 0x0 => "global"
  | 0x10 => "host"
  | 0x20 => "link"
  | 0x40 => "site"
  | 0x80 => "global"
  | _ => "unknown"

def parseInet6Line (line : Str) : Option (Option Address) :=
  let cols := line.splitWhitespace
  if cols.length < 6 then some none
  else do
    let address ← hex32ToIpv6 (cols.getD 0 [])
    return address.map fun address => {
      interface := cols.getD 5 []
      family := .v6
      address
      prefixLen := UInt8.ofNat ((Str.fromStrRadix 16 256 (cols.getD 2 [])).getD 64)
      scope := scopeName ((Str.fromStrRadix 16 4294967296 (cols.getD 3 [])).getD 0) }

def parseProcNetIfInet6 (content : Str) : Option (List Address) := do
  let addresses ← content.lines.mapM parseInet6Line
  return addresses.reduceOption

def parseResolvLine (dns : DnsConfig) (line : Str) : DnsConfig :=
  let line := line.trim
  if line = [] ∨ line.startsWith "#" then dns
  else
    match Str.stripPrefix line "nameserver" with
    | some rest =>
      let ns := rest.trim
      if ns = [] then dns else { dns with nameservers := dns.nameservers ++ [ns] }
    | none =>
      match Str.stripPrefix line "search" with
      | some rest => { dns with searchDomains := dns.searchDomains ++ rest.splitWhitespace }
      | none =>
        match Str.stripPrefix line "domain" with
        | some rest =>
          { dns with searchDomains := dns.searchDomains ++ rest.splitWhitespace.take 1 }
        | none => dns

def parseResolvConf (content : Str) : DnsConfig :=
  content.lines.foldl parseResolvLine ⟨[], [], "resolv.conf"⟩

structure NetworkBackend where
  name : String
  loadInterfaces : Load (List Interface)
  loadAddresses : Load (List Address)
  loadRoutes : Load (List Route)
  loadDns : Load DnsConfig
  loadStats : Load (List InterfaceStats)
  loadEvents : Load (List Event)

abbrev ProcFiles := String → Except String String

namespace ProcFiles

def read (files : ProcFiles) (rel : String) : Load Str :=
  match files rel with
  | .ok content => return content.toList
  | .error e => throw (.io e)

def interfaceOf (entry : (Str × InterfaceStats) × ℕ) : Option Interface := do
  let ((name, stats), i) := entry
  let packets ← addU64 stats.rxPackets stats.txPackets
  let index ← addU32 (UInt32.ofNat i) 1
  return {
    name
    kind := kindFor name
    state := if packets > 0 || name = "lo".toList then .up else .unknown
    macAddress := []
    mtu := 1500
    index }

def loadInterfaces (files : ProcFiles) : Load (List Interface) := do
  let content ← files.read "net/dev"
  liftM ((parseProcNetDev content).zipIdx.mapM interfaceOf)

def inet6Addresses (files : ProcFiles) : Option (List Address) :=
  match files "net/if_inet6" with
  | .ok content => parseProcNetIfInet6 content.toList
  | .error _ => some []

def inetAddresses (files : ProcFiles) : List Address :=
  match files "net/dev" with
  | .ok content =>
    (parseProcNetDev content.toList).filterMap fun (name, _) =>
      if name = "lo".toList then some ⟨name, .v4, "127.0.0.1".toList, 8, "host"⟩ else none
  | .error _ => []

def loadAddresses (files : ProcFiles) : Load (List Address) := do
  let inet6 ← liftM files.inet6Addresses
  return inet6 ++ files.inetAddresses

def loadRoutes (files : ProcFiles) : Load (List Route) := do
  let content ← files.read "net/route"
  parseProcNetRoute content

def loadDns (files : ProcFiles) : Load DnsConfig := do
  let content ← files.read "etc/resolv.conf"
  return parseResolvConf content

def loadStats (files : ProcFiles) : Load (List InterfaceStats) := do
  let content ← files.read "net/dev"
  return (parseProcNetDev content).map Prod.snd

def backend (files : ProcFiles) : NetworkBackend where
  name := "proc"
  loadInterfaces := files.loadInterfaces
  loadAddresses := files.loadAddresses
  loadRoutes := files.loadRoutes
  loadDns := files.loadDns
  loadStats := files.loadStats
  loadEvents := return []

end ProcFiles

structure Snapshot where
  backend : String
  interfaces : List Interface
  addresses : List Address
  routes : List Route
  dns : DnsConfig
  stats : List InterfaceStats
  events : List Event
  deriving DecidableEq

def maxEvents : ℕ := 64

def Snapshot.pushEvent (snap : Snapshot) (ev : Event) : Snapshot :=
  let kept := if snap.events.length ≥ maxEvents then snap.events.drop 1 else snap.events
  { snap with events := kept ++ [ev] }

def unwrapOr (default : α) (load : Load α) : Option α :=
  load.run.map fun result =>
    match result with
    | .ok a => a
    | .error _ => default

def NetworkBackend.refresh (backend : NetworkBackend) (snap : Snapshot) : Option Snapshot := do
  let interfaces ← unwrapOr [] backend.loadInterfaces
  let addresses ← unwrapOr [] backend.loadAddresses
  let routes ← unwrapOr [] backend.loadRoutes
  let dns ← unwrapOr .empty backend.loadDns
  let stats ← unwrapOr [] backend.loadStats
  let newEvents ← unwrapOr [] backend.loadEvents
  return newEvents.foldl Snapshot.pushEvent { snap with interfaces, addresses, routes, dns, stats }

end Aether.Network
