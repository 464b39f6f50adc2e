import Aether.Algorithm.Command
import Aether.Core.Path
import Aether.Security.Equiv.SignedUpdate
import Mathlib.Data.List.Sort

/-!
# Loading manifests (`aether-system-core/src/loader.rs`)

The directory does not change while it is loaded.  The JSON decoders are parameters.
-/

namespace Aether.SystemCore

open Aether.Core Security

structure ManifestFs where
  readDir : OsStr → Except String (List (Except String OsStr))
  read : OsStr → Except String (List UInt8)

structure LoaderBackend extends ManifestBackend where
  decodeManifest : String → Except String ManifestDocument
  decodeEnvelope : String → Except String SignedManifest

def ManifestFs.readToString (fs : ManifestFs) (path : OsStr) : Except String String := do
  let bytes ← fs.read path
  match String.fromUTF8? ⟨bytes.toArray⟩ with
  | some text => .ok text
  | none => .error "stream did not contain valid UTF-8"

def sigPathFor (manifestPath : OsStr) : OsStr := manifestPath ++ asBytes ".sig"

variable (x : LoaderBackend) (fs : ManifestFs)

def checkSignature (trust : TrustStore) (path : OsStr) (raw : String) :
    Except AetherError Unit := do
  let sigPath := sigPathFor path
  let sigText ← (fs.readToString sigPath).mapError fun e =>
    .new .invalidInput s!"missing signature file for manifest {Path.display path}: expected {Path.display sigPath} ({e})"
  let envelope ← (x.decodeEnvelope sigText).mapError fun e =>
    .new .invalidInput s!"invalid signature envelope {Path.display sigPath}: {e}"
  if envelope.manifestBytes ≠ asBytes raw then
    throw (.new .invalidInput
      s!"signature envelope bytes do not match manifest bytes for {Path.display path}")
  (verifySignedManifest x.toManifestBackend envelope trust).mapError fun e =>
    .new .invalidInput s!"manifest {Path.display path} failed signature verification: {e.display}"

def loadManifest (trust : Option TrustStore) (path : OsStr) :
    Except AetherError ManifestDocument := do
  let raw ← (fs.readToString path).mapError fun e =>
    .new .io s!"cannot read manifest {Path.display path}: {e}"
  match trust with
  | none => pure ()
  | some store => checkSignature x fs store path raw
  let manifest ← (x.decodeManifest raw).mapError fun e =>
    .new .invalidInput s!"invalid manifest {Path.display path}: {e}"
  manifest.validate
  pure manifest

def isJson (path : OsStr) : Bool := Path.extension path = some (asBytes "json")

def loadEntries (trust : Option TrustStore) (dir : OsStr) :
    List (Except String OsStr) → Except AetherError (List ManifestDocument)
  | [] => pure []
  | entry :: entries => do
    let name ← entry.mapError fun e => .new .io e
    let path := Path.join dir name
    if !isJson path then loadEntries trust dir entries
    -- Files of signatures end in `.json.sig`.
    else if ".json.sig".toList <:+ (Path.display path).toList then loadEntries trust dir entries
    else do
      let manifest ← loadManifest x fs trust path
      let manifests ← loadEntries trust dir entries
      pure (manifest :: manifests)

def loadManifestsWithTrust (dir : OsStr) (trust : Option TrustStore) :
    Except AetherError (List ManifestDocument) := do
  let entries ← (fs.readDir dir).mapError fun e =>
    .new .notFound s!"cannot read manifest directory {Path.display dir}: {e}"
  let manifests ← loadEntries x fs trust dir entries
  pure (manifests.insertionSort fun a b => a.serviceId ≤ b.serviceId)

/-!
## What a trusted load returns
-/

open Aether.Except (bind_eq_ok_iff mapError_eq_ok_iff ite_throw_eq_ok_iff pure_eq_ok_iff)

variable {x : LoaderBackend} {fs : ManifestFs} {store : TrustStore} {path : OsStr}

lemma readToString_eq_ok_iff {text : String} :
    fs.readToString path = .ok text ↔ fs.read path = .ok (asBytes text) := by
  unfold ManifestFs.readToString
  rw [bind_eq_ok_iff]
  constructor
  · rintro ⟨bytes, hread, htext⟩
    split at htext
    · next text' hutf8 =>
      cases htext
      rw [hread, fromUTF8_eq_some_iff.mp hutf8]
    · cases htext
  · intro hread
    exact ⟨asBytes text, hread, by rw [fromUTF8_eq_some_iff.mpr rfl]⟩

lemma not_jsonSig_of_isJson (h : isJson path = true) :
    ¬ ".json.sig".toList <:+ (Path.display path).toList := by
  -- The last byte of the path is ASCII, and it is not `g`.
  obtain ⟨b, hasc, hg, hlast⟩ : ∃ b, b < 0x80 ∧ Char.ofNat b.toNat ≠ 'g' ∧ [b] <:+ path := by
    have hext : Path.extension path = some (asBytes "json") := by simpa [isJson] using h
    rcases Path.getLast?_of_extension hext with hsla | hdot | hsuf
    · obtain ⟨start, rfl⟩ := List.getLast?_eq_some_iff.mp hsla
      exact ⟨Path.slash, by decide, by decide, List.suffix_append ..⟩
    · obtain ⟨start, rfl⟩ := List.getLast?_eq_some_iff.mp hdot
      exact ⟨Path.dot, by decide, by decide, List.suffix_append ..⟩
    · exact ⟨110, by decide, by decide, List.IsSuffix.trans (by decide) hsuf⟩
  obtain ⟨start, rfl⟩ := hlast
  have htext : Utf8.asciiChars [b] <:+ (Path.display (start ++ [b])).toList := by
    rw [Path.display, String.toList_ofList]
    exact Utf8.lossyChars_append_ascii start (by simpa using hasc) (Nat.zero_le _)
  intro hsig
  have hend : ['g'] <:+ (Path.display (start ++ [b])).toList :=
    List.IsSuffix.trans (by decide) hsig
  have heq := List.IsSuffix.eq_of_length (List.suffix_of_suffix_length_le hend htext le_rfl) rfl
  exact hg (List.cons.inj heq).1.symm

structure TrustedSignature (x : ManifestBackend) (store : TrustStore) (signed : SignedManifest)
    (key : VerifyingKey) (signature : Vector UInt8 64) : Prop where
  keyBytes : signed.signerPublicKey = key.bytes.toList
  isKey : x.isKey key.bytes = true
  trusted : x.fingerprint key ∈ store.fingerprints
  signatureBytes : signed.signature.signature = signature.toList
  verifies : x.verify key signed.manifestBytes signature = true

lemma keyOfBytes_spec {x : ManifestBackend} {bytes : List UInt8} {key : VerifyingKey}
    (h : x.keyOfBytes bytes = .ok key) : bytes = key.bytes.toList ∧ x.isKey key.bytes = true := by
  unfold ManifestBackend.keyOfBytes at h
  split_ifs at h with hlen
  dsimp only at h
  split_ifs at h with hkey
  cases h
  exact ⟨by simp, hkey⟩

lemma signatureOfBytes_spec {bytes : List UInt8} {signature : Vector UInt8 64}
    (h : signatureOfBytes bytes = .ok signature) : bytes = signature.toList := by
  unfold signatureOfBytes at h
  split_ifs at h
  cases h
  simp

lemma verifySignedManifest_spec {x : ManifestBackend} {signed : SignedManifest}
    (h : verifySignedManifest x signed store = .ok ()) :
    ∃ key signature, TrustedSignature x store signed key signature := by
  simp only [verifySignedManifest, ite_throw_eq_ok_iff, bind_eq_ok_iff, mapError_eq_ok_iff] at h
  obtain ⟨-, key, hkey, htru, signature, hsig, hver⟩ := h
  obtain ⟨hbs, hisKey⟩ := keyOfBytes_spec hkey
  refine ⟨key, signature, hbs, hisKey, ?_, signatureOfBytes_spec hsig, ?_⟩
  · simpa [TrustStore.isTrusted] using htru
  · by_contra hne
    rw [if_pos (by simpa [canonicalManifestBytes] using hne)] at hver
    cases hver

structure TrustedFrom (x : LoaderBackend) (fs : ManifestFs) (store : TrustStore) (path : OsStr)
    (raw sigText : String) (envelope : SignedManifest) (key : VerifyingKey)
    (signature : Vector UInt8 64) (manifest : ManifestDocument) : Prop where
  file : fs.read path = .ok (asBytes raw)
  decoded : x.decodeManifest raw = .ok manifest
  envelopeFile : fs.read (sigPathFor path) = .ok (asBytes sigText)
  envelopeDecoded : x.decodeEnvelope sigText = .ok envelope
  sameBytes : envelope.manifestBytes = asBytes raw
  trusted : TrustedSignature x.toManifestBackend store envelope key signature

/-- The manifest is decoded from the bytes of the file, and an envelope carries the same bytes and a
signature under a trusted key. -/
def IsTrusted (x : LoaderBackend) (fs : ManifestFs) (store : TrustStore) (path : OsStr)
    (manifest : ManifestDocument) : Prop :=
  ∃ raw sigText envelope key signature,
    TrustedFrom x fs store path raw sigText envelope key signature manifest

lemma checkSignature_spec {raw : String} (h : checkSignature x fs store path raw = .ok ()) :
    ∃ sigText envelope key signature,
      fs.read (sigPathFor path) = .ok (asBytes sigText) ∧
        x.decodeEnvelope sigText = .ok envelope ∧ envelope.manifestBytes = asBytes raw ∧
        TrustedSignature x.toManifestBackend store envelope key signature := by
  simp only [checkSignature, ite_throw_eq_ok_iff, bind_eq_ok_iff, mapError_eq_ok_iff,
    readToString_eq_ok_iff] at h
  obtain ⟨sigText, hread, envelope, hdec, hbs, hver⟩ := h
  obtain ⟨key, signature, htru⟩ := verifySignedManifest_spec hver
  exact ⟨sigText, envelope, key, signature, hread, hdec, not_not.mp hbs, htru⟩

lemma loadManifest_spec {manifest : ManifestDocument}
    (h : loadManifest x fs (some store) path = .ok manifest) :
    IsTrusted x fs store path manifest := by
  simp only [loadManifest, bind_eq_ok_iff, mapError_eq_ok_iff, readToString_eq_ok_iff,
    pure_eq_ok_iff] at h
  obtain ⟨raw, hread, ⟨⟩, hchk, manifest', hdec, ⟨⟩, -, rfl⟩ := h
  obtain ⟨sigText, envelope, key, signature, hsig, henv, hbs, htru⟩ :=
    checkSignature_spec hchk
  exact ⟨raw, sigText, envelope, key, signature, hread, hdec, hsig, henv, hbs, htru⟩

def jsonPaths (dir : OsStr) (names : List OsStr) : List OsStr :=
  (names.map (Path.join dir)).filter isJson

lemma loadEntries_spec {dir : OsStr} {entries : List (Except String OsStr)}
    {manifests : List ManifestDocument}
    (h : loadEntries x fs (some store) dir entries = .ok manifests) :
    ∃ names, entries = names.map .ok ∧
      List.Forall₂ (IsTrusted x fs store) (jsonPaths dir names) manifests := by
  induction entries generalizing manifests with
  | nil =>
    obtain rfl := pure_eq_ok_iff.mp h
    exact ⟨[], rfl, .nil⟩
  | cons entry entries ih =>
    rw [loadEntries, bind_eq_ok_iff] at h
    obtain ⟨name, hent, h⟩ := h
    obtain rfl := mapError_eq_ok_iff.mp hent
    dsimp only at h
    by_cases hjson : isJson (Path.join dir name) = true
    · rw [if_neg (by simp [hjson]), if_neg (not_jsonSig_of_isJson hjson)] at h
      simp only [bind_eq_ok_iff, pure_eq_ok_iff] at h
      obtain ⟨manifest, hload, rest, hrest, rfl⟩ := h
      obtain ⟨names, rfl, hall⟩ := ih hrest
      refine ⟨name :: names, rfl, ?_⟩
      rw [jsonPaths, List.map_cons, List.filter_cons_of_pos hjson]
      exact .cons (loadManifest_spec hload) hall
    · rw [if_pos (by simpa using hjson)] at h
      obtain ⟨names, rfl, hall⟩ := ih h
      refine ⟨name :: names, rfl, ?_⟩
      rwa [jsonPaths, List.map_cons, List.filter_cons_of_neg hjson]

lemma pairwise_sorted (manifests : List ManifestDocument) :
    (manifests.insertionSort fun a b => a.serviceId ≤ b.serviceId).Pairwise
      fun a b => a.serviceId ≤ b.serviceId := by
  have htot : Std.Total fun a b : ManifestDocument => a.serviceId ≤ b.serviceId :=
    ⟨fun _ _ => String.le_total _ _⟩
  have htr : IsTrans ManifestDocument fun a b => a.serviceId ≤ b.serviceId :=
    ⟨fun _ _ _ => String.le_trans⟩
  exact List.pairwise_insertionSort _ manifests

/-- **Trusted loading.**  If manifests are loaded with a trust store, they are sorted by service id,
and up to their order they are a trusted one for each `.json` entry of the directory. -/
theorem loadManifestsWithTrust_spec (x : LoaderBackend) (fs : ManifestFs) (dir : OsStr)
    (store : TrustStore) (manifests : List ManifestDocument)
    (h : loadManifestsWithTrust x fs dir (some store) = .ok manifests) :
    manifests.Pairwise (fun a b => a.serviceId ≤ b.serviceId) ∧
      ∃ names loaded, fs.readDir dir = .ok (names.map .ok) ∧ manifests.Perm loaded ∧
        List.Forall₂ (IsTrusted x fs store) (jsonPaths dir names) loaded := by
  simp only [loadManifestsWithTrust, bind_eq_ok_iff, mapError_eq_ok_iff, pure_eq_ok_iff] at h
  obtain ⟨entries, hdir, loaded, hloa, rfl⟩ := h
  obtain ⟨names, rfl, hall⟩ := loadEntries_spec hloa
  exact ⟨pairwise_sorted loaded, names, loaded, hdir, List.perm_insertionSort _ loaded, hall⟩

def unitDocument (id : String) : ManifestDocument where
  serviceId := id
  serviceType := .internal
  command := none
  dependencies := []
  startupPriority := 10
  restartPolicy := .never
  restartLimit := 0
  sandboxProfile := .internal
  schemaVersion := "1"
  name := id

def unitText (id : String) : String := "\x7b\"service_id\":\"" ++ id ++ "\"\x7d"

/-- A byte of its signature comes before the manifest in an envelope. -/
def unitFiles : List (OsStr × String) :=
  [(asBytes "/etc/aether/deviced.json", unitText "deviced"),
    (asBytes "/etc/aether/deviced.json.sig", "Q" ++ unitText "deviced"),
    (asBytes "/etc/aether/agentd.json", unitText "agentd"),
    (asBytes "/etc/aether/agentd.json.sig", "r" ++ unitText "agentd")]

def unitFs : ManifestFs where
  readDir _ := .ok (["deviced.json", "deviced.json.sig", "notes.txt", "agentd.json.sig",
    "agentd.json"].map fun name => .ok (asBytes name))
  read path :=
    match unitFiles.lookup path with
    | some text => .ok (asBytes text)
    | none => .error "No such file or directory"

def unitBackend : LoaderBackend :=
  { checksumBackend.toManifestBackend with
    decodeManifest := fun text =>
      .ok (unitDocument (String.ofList ((text.toList.drop 15).takeWhile (· ≠ '\x22'))))
    decodeEnvelope := fun text =>
      match asBytes text with
      | [] => .error "EOF while parsing a value"
      | b :: manifest => .ok ⟨manifest, checksumSigner.publicKeyBytes.toList,
          ⟨List.replicate 64 b, checksumSigner.fingerprint⟩⟩ }

def unitDocuments : List ManifestDocument := [unitDocument "agentd", unitDocument "deviced"]

def unitStore : TrustStore := ⟨{checksumSigner.fingerprint}⟩

theorem loadManifestsWithTrust_spec_sorted :
    loadManifestsWithTrust unitBackend unitFs (asBytes "/etc/aether") (some unitStore) =
        .ok unitDocuments ∧
      unitDocuments.Pairwise (fun a b => a.serviceId ≤ b.serviceId) ∧
      ∃ names loaded, unitFs.readDir (asBytes "/etc/aether") = .ok (names.map .ok) ∧
        unitDocuments.Perm loaded ∧
        List.Forall₂ (IsTrusted unitBackend unitFs unitStore)
          (jsonPaths (asBytes "/etc/aether") names) loaded :=
  have h : loadManifestsWithTrust unitBackend unitFs (asBytes "/etc/aether") (some unitStore) =
      .ok unitDocuments := by decide +kernel
  ⟨h, loadManifestsWithTrust_spec _ _ _ _ _ h⟩

end Aether.SystemCore
