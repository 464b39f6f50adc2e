import Aether.Network.Proc

/-!
# When a refresh returns

It panics if a token of eight bytes in `net/route` or of thirty-two in `net/if_inet6` has a
character across a cut, if the packets of an interface add up to more than a `u64`, or if there are
`2 ^ 32` interfaces.
-/

namespace Aether.Network

open Aether.Core Checked Fallible Option

def IsHexByte (hex : Str) (i : ℕ) : Prop :=
  ∃ piece byte, hex.slice i (i + 2) = some piece ∧ Str.fromStrRadix 16 256 piece = some byte

def Ipv4Fits (hex : Str) : Prop :=
  hex.len = 8 → ∀ k < 4, (∀ j < k, IsHexByte hex (2 * j)) → hex.IsBoundary (2 * k + 2)

def Ipv6Fits (hex : Str) : Prop := hex.len = 32 → ∀ k < 8, hex.IsBoundary (4 * k)

variable {hex : Str} {i : ℕ}

lemma isSome_slice_iff {n : ℕ} :
    (hex.slice i (i + n)).isSome = true ↔ hex.IsBoundary i ∧ hex.IsBoundary (i + n) := by
  have h := not_congr (Str.slice_eq_none_iff (s := hex) (i := i) (j := i + n))
  rw [isSome_iff_ne_none, Ne, h, not_not]
  exact and_iff_right (Nat.le_add_right i n)

lemma returns_hexByte_iff :
    Returns (hexByte hex i) ↔ hex.IsBoundary i ∧ hex.IsBoundary (i + 2) := by
  rw [hexByte, returns_bind_iff, returns_lift_iff, isSome_slice_iff]
  refine and_iff_left fun piece _ => ?_
  split
  · exact returns_pure _
  · exact returns_throw _

lemma gives_hexByte_iff : (∃ byte, Gives (hexByte hex i) byte) ↔ IsHexByte hex i := by
  simp only [hexByte, gives_bind_iff, gives_lift_iff]
  constructor
  · rintro ⟨byte, piece, hpc, hbyte⟩
    split at hbyte
    · next byte' hpar => exact ⟨piece, byte', hpc, hpar⟩
    · exact absurd hbyte (not_gives_throw _ _)
  · rintro ⟨piece, byte, hpc, hpar⟩
    refine ⟨byte, piece, hpc, ?_⟩
    rw [hpar]
    exact gives_pure_iff.mpr rfl

lemma IsHexByte.isBoundary (h : IsHexByte hex i) : hex.IsBoundary (i + 2) := by
  obtain ⟨piece, byte, hpc, -⟩ := h
  exact (isSome_slice_iff.mp (by rw [hpc]; rfl)).2

lemma returns_hexToIpv4_iff : Returns (hexToIpv4 hex) ↔ Ipv4Fits hex := by
  rw [hexToIpv4, Ipv4Fits]
  split_ifs with hlen
  · exact iff_of_true (returns_throw _) fun h => absurd h hlen
  · have hoff : [0, 2, 4, 6] = (List.range 4).map (2 * ·) := rfl
    rw [returns_bind_iff, hoff, List.mapM_map, returns_mapM_iff]
    simp only [returns_pure, implies_true, and_true, reached_range_iff, Function.comp_apply,
      returns_hexByte_iff, gives_hexByte_iff]
    constructor
    · intro h _ k hk hbef
      exact (h k ⟨hk, hbef⟩).2
    · rintro h k ⟨hk, hbef⟩
      refine ⟨?_, h (not_not.mp hlen) k hk hbef⟩
      -- a pair begins where the one before it ends
      cases k with
      | zero => exact ByteText.isBoundary_zero hex
      | succ k => exact (hbef k (Nat.lt_succ_self k)).isBoundary

lemma isSome_hex32ToIpv6_iff : (hex32ToIpv6 hex).isSome = true ↔ Ipv6Fits hex := by
  rw [hex32ToIpv6, Ipv6Fits]
  split_ifs with hlen
  · exact iff_of_true rfl fun h => absurd h hlen
  · have hlen := not_not.mp hlen
    have hend : hex.IsBoundary (4 * 8) := ⟨hex, List.prefix_rfl, hlen⟩
    have hsome : ((List.range 8).mapM fun i => hex.slice (i * 4) (i * 4 + 4)).isSome = true ↔
        ∀ k < 8, hex.IsBoundary (4 * k) := by
      simp only [isSome_mapM_iff, List.mem_range, isSome_slice_iff]
      constructor
      · intro h k hk
        rw [Nat.mul_comm]
        exact (h k hk).1
      · intro h k hk
        rw [Nat.mul_comm]
        refine ⟨h k hk, ?_⟩
        rcases Nat.lt_or_eq_of_le hk with hlt | heq
        · exact h (k + 1) hlt
        · rw [← Nat.mul_succ, heq]
          exact hend
    rw [imp_iff_right hlen, ← hsome]
    cases (List.range 8).mapM fun i => hex.slice (i * 4) (i * 4 + 4) <;> rfl

def IsIpv4 (hex : Str) : Prop := ∃ address, Gives (hexToIpv4 hex) address

def RouteLineFits (line : Str × ℕ) : Prop :=
  line.2 ≠ 0 → 11 ≤ line.1.splitWhitespace.length →
    Ipv4Fits (line.1.splitWhitespace.getD 1 []) ∧
      (IsIpv4 (line.1.splitWhitespace.getD 1 []) →
        Ipv4Fits (line.1.splitWhitespace.getD 2 []) ∧
          (IsIpv4 (line.1.splitWhitespace.getD 2 []) →
            Ipv4Fits (line.1.splitWhitespace.getD 7 [])))

def RoutesFit (content : Str) : Prop :=
  ∀ line, Reached parseRouteLine content.lines.zipIdx line → RouteLineFits line

lemma returns_routeAddress_iff {what : String} :
    Returns (routeAddress what i hex) ↔ Ipv4Fits hex :=
  returns_adapt_iff.trans returns_hexToIpv4_iff

lemma gives_routeAddress_iff {what : String} {address : Str} :
    Gives (routeAddress what i hex) address ↔ Gives (hexToIpv4 hex) address :=
  gives_adapt_iff

lemma returns_parseRouteLine_iff (line : Str × ℕ) :
    Returns (parseRouteLine line) ↔ RouteLineFits line := by
  obtain ⟨line, i⟩ := line
  unfold parseRouteLine RouteLineFits
  dsimp only
  split_ifs with hskip
  · refine iff_of_true (returns_pure _) fun hi hcols => ?_
    rcases hskip with h | h
    · exact absurd h hi
    · exact absurd hcols (Nat.not_le_of_gt h)
  · obtain ⟨hi, hcols⟩ := not_or.mp hskip
    have hcols := Nat.le_of_not_lt hcols
    rw [imp_iff_right hi, imp_iff_right hcols]
    simp only [returns_bind_iff, returns_routeAddress_iff, gives_routeAddress_iff, returns_pure,
      implies_true, and_true, IsIpv4, forall_exists_index]

lemma returns_parseProcNetRoute_iff (content : Str) :
    Returns (parseProcNetRoute content) ↔ RoutesFit content := by
  rw [parseProcNetRoute, returns_bind_iff, returns_mapM_iff]
  simp only [returns_pure, implies_true, and_true, returns_parseRouteLine_iff]
  rfl

lemma isSome_parseInet6Line_iff (line : Str) :
    (parseInet6Line line).isSome = true ↔
      (6 ≤ line.splitWhitespace.length → Ipv6Fits (line.splitWhitespace.getD 0 [])) := by
  rw [← isSome_hex32ToIpv6_iff]
  unfold parseInet6Line
  dsimp only
  split_ifs with hcols
  · exact iff_of_true rfl fun h => absurd hcols (Nat.not_lt_of_le h)
  · rw [imp_iff_right (Nat.le_of_not_lt hcols)]
    cases hex32ToIpv6 (line.splitWhitespace.getD 0 []) <;> rfl

def AddressesFit (content : Str) : Prop :=
  ∀ line ∈ content.lines, 6 ≤ line.splitWhitespace.length →
    Ipv6Fits (line.splitWhitespace.getD 0 [])

lemma isSome_parseProcNetIfInet6_iff (content : Str) :
    (parseProcNetIfInet6 content).isSome = true ↔ AddressesFit content := by
  have hmap :
      (parseProcNetIfInet6 content).isSome = (content.lines.mapM parseInet6Line).isSome := by
    unfold parseProcNetIfInet6
    cases content.lines.mapM parseInet6Line <;> rfl
  rw [hmap, isSome_mapM_iff]
  simp only [isSome_parseInet6Line_iff]
  rfl

lemma isSome_interfaceOf_iff {name : Str} {stats : InterfaceStats} :
    (ProcFiles.interfaceOf ((name, stats), i)).isSome = true ↔
      stats.rxPackets.toNat + stats.txPackets.toNat < 18446744073709551616 ∧
        i % 4294967296 + 1 < 4294967296 := by
  have hix : (UInt32.ofNat i).toNat = i % 4294967296 := UInt32.toNat_ofNat'
  unfold ProcFiles.interfaceOf addU64 addU32
  dsimp only
  rw [hix, UInt32.toNat_one]
  by_cases hpac : stats.rxPackets.toNat + stats.txPackets.toNat < UInt64.size
  · rw [if_pos hpac]
    by_cases hlast : i % 4294967296 + 1 < UInt32.size
    · exact iff_of_true (by rw [if_pos hlast]; rfl) ⟨hpac, hlast⟩
    · exact iff_of_false (by rw [if_neg hlast]; exact Bool.false_ne_true) fun h => hlast h.2
  · exact iff_of_false (by rw [if_neg hpac]; exact Bool.false_ne_true) fun h => hpac h.1

def InterfacesFit (content : Str) : Prop :=
  (∀ entry ∈ parseProcNetDev content,
    entry.2.rxPackets.toNat + entry.2.txPackets.toNat < 18446744073709551616) ∧
    (parseProcNetDev content).length < 4294967296

lemma isSome_interfaces_iff (content : Str) :
    ((parseProcNetDev content).zipIdx.mapM ProcFiles.interfaceOf).isSome = true ↔
      InterfacesFit content := by
  rw [isSome_mapM_iff, InterfacesFit]
  constructor
  · intro h
    constructor
    · rintro ⟨name, stats⟩ hent
      obtain ⟨i, hi⟩ := List.mem_iff_getElem?.mp hent
      exact (isSome_interfaceOf_iff.mp (h _ (List.mem_zipIdx_iff_getElem?.mpr hi))).1
    · -- the interface with the last number has no index
      by_contra hlen
      have hlast : 4294967295 < (parseProcNetDev content).length := by omega
      have hget := List.getElem?_eq_getElem hlast
      have hsome := h (_, 4294967295) (List.mem_zipIdx_iff_getElem?.mpr hget)
      have hix := (isSome_interfaceOf_iff.mp hsome).2
      omega
  · rintro ⟨hpac, hlen⟩ ⟨⟨name, stats⟩, i⟩ hent
    have hget := List.mem_zipIdx_iff_getElem?.mp hent
    obtain ⟨hi, -⟩ := List.getElem?_eq_some_iff.mp hget
    exact isSome_interfaceOf_iff.mpr ⟨hpac _ (List.mem_of_getElem? hget), by omega⟩

section Loaders

variable {files : ProcFiles} {α : Type}

lemma returns_read_bind_iff {rel : String} {f : Str → Load α} :
    Returns (files.read rel >>= f) ↔
      ∀ content, files rel = .ok content → Returns (f content.toList) := by
  rw [returns_bind_iff, ProcFiles.read]
  cases hread : files rel with
  | error e => simp
  | ok content => simp

lemma returns_loadInterfaces_iff :
    Returns files.loadInterfaces ↔
      ∀ content, files "net/dev" = .ok content → InterfacesFit content.toList := by
  rw [ProcFiles.loadInterfaces, returns_read_bind_iff]
  simp only [returns_lift_iff, isSome_interfaces_iff]

lemma returns_loadAddresses_iff :
    Returns files.loadAddresses ↔
      ∀ content, files "net/if_inet6" = .ok content → AddressesFit content.toList := by
  rw [ProcFiles.loadAddresses, returns_bind_iff, returns_lift_iff]
  simp only [returns_pure, implies_true, and_true]
  unfold ProcFiles.inet6Addresses
  cases files "net/if_inet6" with
  | error e => simp
  | ok content => simp [isSome_parseProcNetIfInet6_iff]

lemma returns_loadRoutes_iff :
    Returns files.loadRoutes ↔
      ∀ content, files "net/route" = .ok content → RoutesFit content.toList := by
  rw [ProcFiles.loadRoutes, returns_read_bind_iff]
  simp only [returns_parseProcNetRoute_iff]

lemma returns_loadDns : Returns files.loadDns :=
  returns_read_bind_iff.mpr fun _ _ => returns_pure _

lemma returns_loadStats : Returns files.loadStats :=
  returns_read_bind_iff.mpr fun _ _ => returns_pure _

end Loaders

lemma isSome_unwrapOr_iff {α : Type} (default : α) {load : Load α} :
    (unwrapOr default load).isSome = true ↔ Returns load := by
  rw [unwrapOr, isSome_map, Returns]

lemma NetworkBackend.isSome_refresh_iff (backend : NetworkBackend) (snap : Snapshot) :
    (backend.refresh snap).isSome = true ↔
      Returns backend.loadInterfaces ∧ Returns backend.loadAddresses ∧
        Returns backend.loadRoutes ∧ Returns backend.loadDns ∧ Returns backend.loadStats ∧
        Returns backend.loadEvents := by
  rw [← isSome_unwrapOr_iff [], ← isSome_unwrapOr_iff [], ← isSome_unwrapOr_iff [],
    ← isSome_unwrapOr_iff DnsConfig.empty, ← isSome_unwrapOr_iff [], ← isSome_unwrapOr_iff []]
  constructor
  · intro h
    obtain ⟨snap', h⟩ := isSome_iff_exists.mp h
    obtain ⟨interfaces, hint, h⟩ := bind_eq_some_iff.mp h
    obtain ⟨addresses, hadd, h⟩ := bind_eq_some_iff.mp h
    obtain ⟨routes, hrou, h⟩ := bind_eq_some_iff.mp h
    obtain ⟨dns, hdns, h⟩ := bind_eq_some_iff.mp h
    obtain ⟨stats, hsta, h⟩ := bind_eq_some_iff.mp h
    obtain ⟨events, heve, -⟩ := bind_eq_some_iff.mp h
    rw [hint, hadd, hrou, hdns, hsta, heve]
    exact ⟨rfl, rfl, rfl, rfl, rfl, rfl⟩
  · simp only [isSome_iff_exists]
    rintro ⟨⟨interfaces, hint⟩, ⟨addresses, hadd⟩, ⟨routes, hrou⟩, ⟨dns, hdns⟩,
      ⟨stats, hsta⟩, ⟨events, heve⟩⟩
    rw [refresh, hint, hadd, hrou, hdns, hsta, heve]
    exact ⟨_, rfl⟩

/-- No file of the three makes its parser panic. -/
structure ProcFits (files : ProcFiles) : Prop where
  interfaces : ∀ content, files "net/dev" = .ok content → InterfacesFit content.toList
  addresses : ∀ content, files "net/if_inet6" = .ok content → AddressesFit content.toList
  routes : ∀ content, files "net/route" = .ok content → RoutesFit content.toList

/-- A refresh from the proc backend returns iff its files meet `ProcFits`. -/
theorem refresh_isSome_iff (files : ProcFiles) (snap : Snapshot) :
    (files.backend.refresh snap).isSome = true ↔ ProcFits files := by
  rw [NetworkBackend.isSome_refresh_iff]
  constructor
  · rintro ⟨hint, hadd, hrou, -⟩
    exact ⟨returns_loadInterfaces_iff.mp hint, returns_loadAddresses_iff.mp hadd,
      returns_loadRoutes_iff.mp hrou⟩
  · rintro ⟨hint, hadd, hrou⟩
    exact ⟨returns_loadInterfaces_iff.mpr hint, returns_loadAddresses_iff.mpr hadd,
      returns_loadRoutes_iff.mpr hrou, returns_loadDns, returns_loadStats, returns_pure _⟩

def oneFile (rel content : String) : ProcFiles := fun path =>
  if path = rel then .ok content else .error "No such file or directory (os error 2)"

def emptySnapshot : Snapshot := ⟨"proc", [], [], [], .empty, [], []⟩

example :
    ((oneFile "net/route"
        "Iface\neth0 00000000 0a000202 3 0 0 100 FFFFFF00 0 0 0\n").backend.refresh
      emptySnapshot).map Snapshot.routes =
      some [⟨.v4, "0.0.0.0".toList, 24, "10.0.2.2".toList, "eth0".toList, 100⟩] := by
  decide +kernel

/-- A character across two bytes of an address, and packets that overflow. -/
theorem refresh_panics :
    (oneFile "net/route" "Iface\neth0 0é00000 00000000 3 0 0 0 00000000 0 0 0\n").backend.refresh
        emptySnapshot = none ∧
      (oneFile "net/dev"
          "eth0: 0 18446744073709551615 0 0 0 0 0 0 0 1 0 0 0 0 0 0\n").backend.refresh
        emptySnapshot = none := by
  decide +kernel

end Aether.Network
