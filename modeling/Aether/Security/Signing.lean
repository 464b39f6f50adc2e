import Aether.Core.Manifest
import Aether.Security.Audit
import Mathlib.Data.Finset.Basic

/-!
# Application package signing

The verifying half of `app_signing.rs`: hex and base64, the checks of `verify` and
`verify_with_key`.  SHA-256, Ed25519 and `serde_json` are third-party and enter as parameters.
-/

namespace Aether.Security

open Aether.Core

def hexDigits : List Char := "0123456789abcdef".toList

def hexLower (bytes : List UInt8) : String :=
  String.ofList (bytes.flatMap fun (b : UInt8) =>
    [hexDigits.getD (b >>> 4).toNat '0', hexDigits.getD (b &&& 0x0f).toNat '0'])

def base64Alpha : List UInt8 :=
  asBytes "ABCDEFGHIJKLMNOPQRSTUVWXYZabcdefghijklmnopqrstuvwxyz0123456789+/"

def base64Char (i : UInt8) : Char := Char.ofNat (base64Alpha.getD i.toNat 0).toNat

def base64Chars : List UInt8 → List Char
  | b0 :: b1 :: b2 :: rest =>
    base64Char (b0 >>> 2) :: base64Char (((b0 &&& 0x03) <<< 4) ||| (b1 >>> 4)) ::
      base64Char (((b1 &&& 0x0f) <<< 2) ||| (b2 >>> 6)) :: base64Char (b2 &&& 0x3f) ::
      base64Chars rest
  | [b0, b1] =>
    [base64Char (b0 >>> 2), base64Char (((b0 &&& 0x03) <<< 4) ||| (b1 >>> 4)),
      base64Char ((b1 &&& 0x0f) <<< 2), '=']
  | [b0] => [base64Char (b0 >>> 2), base64Char ((b0 &&& 0x03) <<< 4), '=', '=']
  | [] => []

def base64Encode (bytes : List UInt8) : String := String.ofList (base64Chars bytes)

def base64Table (c : UInt8) : UInt8 :=
  match base64Alpha.idxOf? c with
  | some i => UInt8.ofNat i
  | none => 255

def base64Groups : List UInt8 → Except String (List UInt8)
  | x0 :: x1 :: x2 :: x3 :: rest => do
    let a := base64Table x0
    let b := base64Table x1
    let c := if x2 = 61 then 0 else base64Table x2
    let d := if x3 = 61 then 0 else base64Table x3
    if a = 255 || b = 255 || c = 255 || d = 255 then throw "invalid base64 character"
    let out := [(a <<< 2) ||| (b >>> 4)] ++
      (if x2 ≠ 61 then [(b <<< 4) ||| (c >>> 2)] else []) ++
      (if x3 ≠ 61 then [(c <<< 6) ||| d] else [])
    return out ++ (← base64Groups rest)
  | _ => return []

def base64Decode (s : String) : Except String (List UInt8) :=
  let bytes := asBytes s
  if bytes.length % 4 ≠ 0 then .error "base64 length not a multiple of 4"
  else base64Groups bytes

def appSignatureToBytes (signature : String) : Except String (List UInt8) :=
  if signature.utf8ByteSize ≠ 88 then
    .error s!"signature must be 88 base64 characters (got {signature.utf8ByteSize})"
  else base64Decode signature

structure VerifyingKey where
  bytes : Vector UInt8 32
  deriving DecidableEq

structure SigningBackend where
  sha256 : List UInt8 → Digest
  verify : VerifyingKey → List UInt8 → Vector UInt8 64 → Except String Unit
  toVec : AppManifest → Except String (List UInt8)

def SigningBackend.fingerprint (x : SigningBackend) (key : VerifyingKey) : String :=
  hexLower (x.sha256 key.bytes.toList).toList

def signatureOfBytes (bytes : List UInt8) : Except String (Vector UInt8 64) :=
  if h : bytes.length = 64 then .ok ⟨bytes.toArray, by simpa using h⟩
  else .error "signature is not 64 bytes"

structure AppPackageVerifier where
  trustedFingerprints : List String

namespace AppPackageVerifier

variable (x : SigningBackend)

def verifyWithKey (v : AppPackageVerifier) (package : AppPackage) (publicKey : VerifyingKey) :
    Except String String := do
  package.manifest.validate
  if !v.trustedFingerprints.any fun fp => fp == package.manifest.publisherKeyId then
    throw s!"publisher '{package.manifest.publisherKeyId}' is not in the trusted-publisher registry"
  if package.manifest.payloadLen.toNat ≠ package.payload.length then
    throw "payload length mismatch"
  if hexLower (x.sha256 package.payload).toList ≠ package.manifest.binarySha256 then
    throw "payload SHA-256 mismatch"
  let sigBytes ← appSignatureToBytes package.signature
  let sig ← signatureOfBytes sigBytes
  let message ← package.canonicalManifestBytes x.toVec
  (x.verify publicKey message sig).mapError fun e => s!"signature verification failed: {e}"
  return package.manifest.publisherKeyId

end AppPackageVerifier

/-!
## Signed service manifests (`aether-security/src/manifest_signing.rs`)

The envelope that comes with a manifest and its verification against a store of trusted keys.
SHA-256 and Ed25519 are third-party and enter as parameters.
-/

structure ManifestBackend where
  sha256 : List UInt8 → Digest
  isKey : Vector UInt8 32 → Bool
  verify : VerifyingKey → List UInt8 → Vector UInt8 64 → Bool

def fingerprintLen : ℕ := 16

def ManifestBackend.fingerprint (x : ManifestBackend) (key : VerifyingKey) : String :=
  hexLower ((x.sha256 key.bytes.toList).toList.take fingerprintLen)

structure SignatureEnvelope where
  signature : List UInt8
  signerFingerprint : String
  deriving DecidableEq

structure SignedManifest where
  manifestBytes : List UInt8
  signerPublicKey : List UInt8
  signature : SignatureEnvelope
  deriving DecidableEq

inductive ManifestVerifyError where
  | malformedManifest
  | badSignatureShape
  | badPublicKey
  | unknownSigner
  | signatureInvalid
  deriving DecidableEq

def ManifestVerifyError.display : ManifestVerifyError → String
  | .malformedManifest => "manifest bytes are malformed"
  | .badSignatureShape => "signature or public key has the wrong length"
  | .badPublicKey => "public key is not a valid Ed25519 verifying key"
  | .unknownSigner => "signer is not in the trust store"
  | .signatureInvalid => "Ed25519 signature verification failed"

structure TrustStore where
  fingerprints : Finset String

def TrustStore.isTrusted (t : TrustStore) (fingerprint : String) : Bool :=
  fingerprint ∈ t.fingerprints

def canonicalManifestBytes (manifestBytes : List UInt8) : List UInt8 := manifestBytes

lemma size_toArray_of_length {bytes : List UInt8} (h : bytes.length = 32) :
    bytes.toArray.size = 32 := by
  rw [List.size_toArray, h]

def ManifestBackend.keyOfBytes (x : ManifestBackend) (bytes : List UInt8) :
    Except ManifestVerifyError VerifyingKey :=
  if h : bytes.length = 32 then
    let key : Vector UInt8 32 := ⟨bytes.toArray, size_toArray_of_length h⟩
    if x.isKey key then .ok ⟨key⟩ else .error .badPublicKey
  else .error .badPublicKey

def verifySignedManifest (x : ManifestBackend) (signed : SignedManifest) (trust : TrustStore) :
    Except ManifestVerifyError Unit := do
  if signed.signature.signature.length ≠ 64 ∨ signed.signerPublicKey.length ≠ 32 then
    throw .badSignatureShape
  let publicKey ← x.keyOfBytes signed.signerPublicKey
  if !trust.isTrusted (x.fingerprint publicKey) then throw .unknownSigner
  let canonical := canonicalManifestBytes signed.manifestBytes
  let signature ← (signatureOfBytes signed.signature.signature).mapError fun _ => .badSignatureShape
  if !x.verify publicKey canonical signature then throw .signatureInvalid

/-!
## Signed updates (`aether-security/src/signed_update.rs`)

The update envelope, its two verifiers and the signer.  SHA-256, Ed25519 and the JSON encoding of a
header are third-party and enter as parameters; lengths (`usize`) are naturals.
-/

def updateMagic : String := "AETHER-UPDATE-V1"

def signatureLen : ℕ := 64

inductive UpdateKind where
  | osImage
  | serviceBundle
  | agentModel
  deriving DecidableEq

structure UpdateHeader where
  magic : String
  kind : UpdateKind
  target : String
  version : String
  timestampMs : UInt64
  payloadLen : ℕ
  signerKeyId : String
  deriving DecidableEq

structure UpdateBackend extends ManifestBackend where
  publicKey : Vector UInt8 32 → Vector UInt8 32
  sign : Vector UInt8 32 → List UInt8 → Vector UInt8 64
  toVec : UpdateHeader → Option (List UInt8)

def UpdateHeader.canonicalBytes (x : UpdateBackend) (header : UpdateHeader) : List UInt8 :=
  (x.toVec header).getD []

structure SignedUpdate where
  header : UpdateHeader
  payload : List UInt8
  signature : List UInt8
  deriving DecidableEq

def SignedUpdate.signedBytes (x : UpdateBackend) (update : SignedUpdate) : List UInt8 :=
  update.header.canonicalBytes x ++ update.payload

inductive UpdateVerifyError where
  | badMagic
  | payloadLengthMismatch
  | badSignatureLength
  | badPublicKey
  | unknownSigner
  | badTarget
  | signatureInvalid
  deriving DecidableEq

structure UpdateTrustList where
  fingerprints : Finset String

namespace UpdateTrustList

def new : UpdateTrustList := ⟨∅⟩

def trust (t : UpdateTrustList) (fingerprint : String) : UpdateTrustList × Bool :=
  (⟨insert fingerprint t.fingerprints⟩, fingerprint ∉ t.fingerprints)

def isTrusted (t : UpdateTrustList) (fingerprint : String) : Bool :=
  fingerprint ∈ t.fingerprints

end UpdateTrustList

variable (x : UpdateBackend)

def UpdateBackend.fromBytes (bytes : Vector UInt8 32) : Except UpdateVerifyError VerifyingKey :=
  if x.isKey bytes then .ok ⟨bytes⟩ else .error .badPublicKey

def verifySignedUpdateWithKey (update : SignedUpdate) (publicKeyBytes : Vector UInt8 32) :
    Except UpdateVerifyError Unit := do
  if update.header.magic ≠ updateMagic then throw .badMagic
  if update.header.target.isEmpty then throw .badTarget
  if update.header.payloadLen ≠ update.payload.length then throw .payloadLengthMismatch
  if update.signature.length ≠ signatureLen then throw .badSignatureLength
  let verifyingKey ← x.fromBytes publicKeyBytes
  let signed := update.signedBytes x
  let signature ← (signatureOfBytes update.signature).mapError fun _ => .badSignatureLength
  if !x.verify verifyingKey signed signature then throw .signatureInvalid

def verifySignedUpdateTrusted (update : SignedUpdate) (publicKeyBytes : Vector UInt8 32)
    (trust : UpdateTrustList) : Except UpdateVerifyError Unit := do
  if update.header.magic ≠ updateMagic then throw .badMagic
  if update.header.target.isEmpty then throw .badTarget
  if update.header.payloadLen ≠ update.payload.length then throw .payloadLengthMismatch
  if update.signature.length ≠ signatureLen then throw .badSignatureLength
  let verifyingKey ← x.fromBytes publicKeyBytes
  let fingerprint := x.fingerprint verifyingKey
  if fingerprint ≠ update.header.signerKeyId then throw .unknownSigner
  if !trust.isTrusted fingerprint then throw .unknownSigner
  let signed := update.signedBytes x
  let signature ← (signatureOfBytes update.signature).mapError fun _ => .badSignatureLength
  if !x.verify verifyingKey signed signature then throw .signatureInvalid

structure UpdateSigner where
  signingKey : Vector UInt8 32
  verifyingKey : VerifyingKey
  paired : verifyingKey = ⟨x.publicKey signingKey⟩

namespace UpdateSigner

variable {x}

def fromSeed (seed : Vector UInt8 32) : UpdateSigner x := ⟨seed, ⟨x.publicKey seed⟩, rfl⟩

def publicKeyBytes (signer : UpdateSigner x) : Vector UInt8 32 := signer.verifyingKey.bytes

def fingerprint (signer : UpdateSigner x) : String := x.fingerprint signer.verifyingKey

def sign (signer : UpdateSigner x) (kind : UpdateKind) (target version : String)
    (timestampMs : UInt64) (payload : List UInt8) : SignedUpdate :=
  let header : UpdateHeader :=
    { magic := updateMagic, kind, target, version, timestampMs, payloadLen := payload.length,
      signerKeyId := signer.fingerprint }
  let signedBytes := header.canonicalBytes x ++ payload
  let signature := x.sign signer.signingKey signedBytes
  { header, payload, signature := signature.toList }

end UpdateSigner

end Aether.Security
