import Aether.Algorithm.Command
import Aether.Algorithm.HashChain
import Aether.Security.Signing

/-!
# What the update verifiers accept

Both verifiers make the same checks of the envelope and the same signature check (`Accepts`); the
trusted one puts the checks of the signer in between.
-/

namespace Aether.Security

open Aether.Except (bind_eq_ok_iff mapError_eq_ok_iff ite_throw_eq_ok_iff
  ite_throw_unit_eq_ok_iff)

variable {x : UpdateBackend}

structure Accepts (x : UpdateBackend) (update : SignedUpdate) (key : Vector UInt8 32) : Prop where
  magic : update.header.magic = updateMagic
  target : update.header.target ≠ ""
  payload : update.header.payloadLen = update.payload.length
  isKey : x.isKey key = true
  signature : ∃ signature : Vector UInt8 64, update.signature = signature.toList ∧
    x.verify ⟨key⟩ (update.signedBytes x) signature = true

lemma fromBytes_eq_ok_iff {bytes : Vector UInt8 32} {key : VerifyingKey} :
    x.fromBytes bytes = .ok key ↔ x.isKey bytes = true ∧ key = ⟨bytes⟩ := by
  unfold UpdateBackend.fromBytes
  split
  · rename_i h
    simp [h, eq_comm]
  · rename_i h
    simp [h]

lemma signatureOfBytes_eq_ok_iff {bytes : List UInt8} {signature : Vector UInt8 64} :
    signatureOfBytes bytes = .ok signature ↔ bytes = signature.toList := by
  unfold signatureOfBytes
  split
  · rw [Except.ok.injEq]
    constructor
    · rintro rfl
      simp
    · rintro rfl
      exact Vector.toList_inj.mp (by simp)
  · rename_i h
    refine iff_of_false (by simp) ?_
    rintro rfl
    exact h (by simp)

variable {key : Vector UInt8 32} {update : SignedUpdate}

lemma verifySignedUpdateWithKey_eq_ok_iff :
    verifySignedUpdateWithKey x update key = .ok () ↔ Accepts x update key := by
  simp only [verifySignedUpdateWithKey, ite_throw_eq_ok_iff, bind_eq_ok_iff, mapError_eq_ok_iff,
    fromBytes_eq_ok_iff, signatureOfBytes_eq_ok_iff, ite_throw_unit_eq_ok_iff]
  constructor
  · rintro ⟨hmag, htgt, hpay, -, _, ⟨hkey, rfl⟩, signature, hsig, hver⟩
    exact ⟨not_not.mp hmag, by simpa using htgt, not_not.mp hpay, hkey, signature,
      hsig, by simpa using hver⟩
  · intro h
    obtain ⟨signature, hsig, hver⟩ := h.signature
    refine ⟨not_not.mpr h.magic, by simpa using h.target, not_not.mpr h.payload, ?_, _,
      ⟨h.isKey, rfl⟩, signature, hsig, by simpa using hver⟩
    rw [hsig]
    simp [signatureLen]

lemma verifySignedUpdateTrusted_eq_ok_iff {trust : UpdateTrustList} :
    verifySignedUpdateTrusted x update key trust = .ok () ↔
      verifySignedUpdateWithKey x update key = .ok () ∧
        update.header.signerKeyId = x.fingerprint ⟨key⟩ ∧
        trust.isTrusted (x.fingerprint ⟨key⟩) = true := by
  simp only [verifySignedUpdateTrusted, verifySignedUpdateWithKey, ite_throw_eq_ok_iff,
    bind_eq_ok_iff, mapError_eq_ok_iff, fromBytes_eq_ok_iff]
  constructor
  · rintro ⟨hmag, htgt, hpay, hlen, _, ⟨hkey, rfl⟩, hsig, htru, hver⟩
    exact ⟨⟨hmag, htgt, hpay, hlen, _, ⟨hkey, rfl⟩, hver⟩, (not_not.mp hsig).symm,
      by simpa using htru⟩
  · rintro ⟨⟨hmag, htgt, hpay, hlen, _, ⟨hkey, rfl⟩, hver⟩, hsig, htru⟩
    exact ⟨hmag, htgt, hpay, hlen, _, ⟨hkey, rfl⟩, not_not.mpr hsig.symm, by simpa using htru, hver⟩

/-- What is signed with a seed verifies under its public key. -/
structure UpdateBackend.AcceptsOwn (x : UpdateBackend) : Prop where
  isKey (seed : Vector UInt8 32) : x.isKey (x.publicKey seed) = true
  verify (seed : Vector UInt8 32) (message : List UInt8) :
    x.verify ⟨x.publicKey seed⟩ message (x.sign seed message) = true

lemma sign_accepts (hx : x.AcceptsOwn) (signer : UpdateSigner x) (kind : UpdateKind)
    {target : String} (htgt : target ≠ "") (version : String) (timestampMs : UInt64)
    (payload : List UInt8) :
    Accepts x (signer.sign kind target version timestampMs payload) signer.publicKeyBytes := by
  have hkey : signer.publicKeyBytes = x.publicKey signer.signingKey := by
    rw [UpdateSigner.publicKeyBytes, signer.paired]
  rw [hkey]
  exact ⟨rfl, htgt, rfl, hx.isKey _, _, rfl, hx.verify _ _⟩

/-- The trusted verification is the one with the key, for a key that the header names and the list
contains; and a signer's own updates pass it exactly for the lists that contain the signer. -/
theorem verifySignedUpdateTrusted_spec (x : UpdateBackend) :
    (∀ (update : SignedUpdate) (key : Vector UInt8 32) (trust : UpdateTrustList),
      verifySignedUpdateTrusted x update key trust = .ok () ↔
        verifySignedUpdateWithKey x update key = .ok () ∧
          update.header.signerKeyId = x.fingerprint ⟨key⟩ ∧
          trust.isTrusted (x.fingerprint ⟨key⟩) = true) ∧
      (x.AcceptsOwn → ∀ (signer : UpdateSigner x) (kind : UpdateKind) (target version : String)
        (timestampMs : UInt64) (payload : List UInt8) (trust : UpdateTrustList), target ≠ "" →
        (verifySignedUpdateTrusted x (signer.sign kind target version timestampMs payload)
            signer.publicKeyBytes trust = .ok () ↔
          signer.fingerprint ∈ trust.fingerprints)) := by
  constructor
  · exact fun _ _ _ => verifySignedUpdateTrusted_eq_ok_iff
  · intro hx signer kind target version timestampMs payload trust htgt
    have hacc := sign_accepts hx signer kind htgt version timestampMs payload
    have htru : trust.isTrusted (x.fingerprint ⟨signer.publicKeyBytes⟩) = true ↔
        signer.fingerprint ∈ trust.fingerprints := decide_eq_true_iff
    rw [verifySignedUpdateTrusted_eq_ok_iff, verifySignedUpdateWithKey_eq_ok_iff, htru]
    constructor
    · rintro ⟨-, -, hmem⟩
      exact hmem
    · intro hmem
      exact ⟨hacc, rfl, hmem⟩

def escaped (bytes : List UInt8) : List UInt8 :=
  bytes.flatMap fun b => if b = 34 ∨ b = 92 then [92, b] else [b]

def jsonString (s : String) (rest : List UInt8) : List UInt8 :=
  34 :: (escaped (asBytes s) ++ 34 :: rest)

/-- What `serde_json` writes between the braces of the header of an image, for one-digit numbers and
texts without control characters. -/
def headerFields (h : UpdateHeader) : List UInt8 :=
  jsonString "magic" <| 58 :: jsonString h.magic (44 :: jsonString "kind" (58 ::
    jsonString "os-image" (44 :: jsonString "target" (58 :: jsonString h.target (44 ::
    jsonString "version" (58 :: jsonString h.version (44 :: jsonString "timestamp_ms" (58 ::
    (48 + h.timestampMs.toUInt8) :: 44 :: jsonString "payload_len" (58 ::
    (48 + UInt8.ofNat h.payloadLen) :: 44 :: jsonString "signer_key_id" (58 ::
    jsonString h.signerKeyId []))))))))))

def checksum (message : List UInt8) : UInt8 := message.foldl (31 * · + ·) 0

/-- Keys begin with 1 and sign with a checksum. -/
def checksumBackend : UpdateBackend where
  sha256 message := Vector.replicate 32 (checksum message)
  isKey key := key[0] = 1
  verify key message signature :=
    signature = Vector.replicate 64 (checksum (key.bytes.toList ++ message))
  publicKey seed := seed.set 0 1
  sign seed message := Vector.replicate 64 (checksum ((seed.set 0 1).toList ++ message))
  toVec header := some (123 :: (headerFields header ++ [125]))

def checksumSigner : UpdateSigner checksumBackend := .fromSeed (Vector.replicate 32 7)

theorem verifySignedUpdateTrusted_spec_checksum :
    verifySignedUpdateTrusted checksumBackend
        (checksumSigner.sign .osImage "aether-system-core" "0.2.0" 0 [1, 2, 3])
        checksumSigner.publicKeyBytes
        (UpdateTrustList.new.trust checksumSigner.fingerprint).1 = .ok () ∧
      ¬ verifySignedUpdateTrusted checksumBackend
        (checksumSigner.sign .osImage "aether-system-core" "0.2.0" 0 [1, 2, 3])
        checksumSigner.publicKeyBytes UpdateTrustList.new = .ok () := by
  have hx : checksumBackend.AcceptsOwn := by
    refine ⟨fun seed => ?_, fun seed message => decide_eq_true rfl⟩
    simp [checksumBackend]
  have hspec := fun trust => (verifySignedUpdateTrusted_spec checksumBackend).2 hx checksumSigner
    .osImage "aether-system-core" "0.2.0" 0 [1, 2, 3] trust (by decide)
  constructor
  · exact (hspec _).mpr (Finset.mem_insert_self _ _)
  · intro hok
    exact absurd ((hspec _).mp hok) (Finset.notMem_empty _)

/-- The header is written as a JSON object from which it can be read back. -/
def UpdateHeader.Encoded (x : UpdateBackend) (fromSlice : List UInt8 → Option UpdateHeader)
    (header : UpdateHeader) : Prop :=
  ∃ text, x.toVec header = some text ∧ ObjectText.IsObject text ∧ fromSlice text = some header

/-- **The signed bytes determine the update**, also where the length in the header is wrong. -/
theorem SignedUpdate.signedBytes_inj {fromSlice : List UInt8 → Option UpdateHeader}
    {u u' : SignedUpdate} (hu : u.header.Encoded x fromSlice) (hu' : u'.header.Encoded x fromSlice)
    (h : u.signedBytes x = u'.signedBytes x) : u.header = u'.header ∧ u.payload = u'.payload := by
  obtain ⟨text, htext, hobj, hdec⟩ := hu
  obtain ⟨text', htext', hobj', hdec'⟩ := hu'
  unfold SignedUpdate.signedBytes UpdateHeader.canonicalBytes at h
  rw [htext, htext'] at h
  obtain ⟨heq, hpay⟩ := hobj.append_inj hobj' h
  rw [heq, hdec'] at hdec
  exact ⟨(Option.some.inj hdec).symm, hpay⟩

lemma chars_escaped (bytes : List UInt8) : ObjectText.Chars (escaped bytes) := by
  induction bytes with
  | nil => exact .nil
  | cons b bytes ih =>
    by_cases hb : b = 34 ∨ b = 92
    · simpa [escaped, hb] using ih.escape
    · obtain ⟨hquo, hsla⟩ := not_or.mp hb
      simpa [escaped, hb] using ih.char hquo hsla

/-- Two headers with a quote and a brace in their texts. -/
def quoted : UpdateHeader := ⟨updateMagic, .osImage, "os\"", "1", 7, 1, "key"⟩

def braced : UpdateHeader := ⟨updateMagic, .osImage, "os\x7d", "1", 7, 1, "key"⟩

theorem signedBytes_inj_braced :
    (⟨quoted, [125], []⟩ : SignedUpdate).signedBytes checksumBackend ≠
        (⟨braced, [125], []⟩ : SignedUpdate).signedBytes checksumBackend ∧
      ∀ payload, (⟨braced, payload, []⟩ : SignedUpdate).signedBytes checksumBackend =
        (⟨braced, [125], []⟩ : SignedUpdate).signedBytes checksumBackend → payload = [125] := by
  let text (h : UpdateHeader) := 123 :: (headerFields h ++ [125])
  let fromSlice t := if t = text quoted then some quoted else
    if t = text braced then some braced else none
  have hbody : ObjectText.Body (headerFields quoted) ∧ ObjectText.Body (headerFields braced) := by
    constructor <;>
    · repeat first | refine .string (chars_escaped _) ?_ | refine .other (by decide) ?_
      exact .nil
  have hquo : quoted.Encoded checksumBackend fromSlice :=
    ⟨_, rfl, ⟨_, hbody.1, rfl⟩, if_pos rfl⟩
  have hbra : braced.Encoded checksumBackend fromSlice :=
    ⟨_, rfl, ⟨_, hbody.2, rfl⟩, (if_neg (by decide +kernel)).trans (if_pos rfl)⟩
  constructor
  · intro heq
    exact absurd (SignedUpdate.signedBytes_inj hquo hbra heq).1 (by decide)
  · intro payload heq
    exact (SignedUpdate.signedBytes_inj hbra hbra heq).2

end Aether.Security
