import Aether.Security.Equiv.AppSecurity
import Aether.Security.Equiv.AppSigning

/-!
# The trust checks of the app store

`verify_signature` of `store.rs`, and the trusted-publisher registry.
-/

namespace Aether.Store

open Aether.Core Security

structure PublisherTrust where
  fingerprint : String
  displayName : Option String
  notes : Option String
  deriving DecidableEq

structure TrustedPublisherRegistry where
  publishers : List PublisherTrust
  deriving DecidableEq

def TrustedPublisherRegistry.contains (r : TrustedPublisherRegistry) (fingerprint : String) :
    Bool :=
  r.publishers.any fun p => p.fingerprint == fingerprint

def verifySignature (x : SigningBackend) (package : AppPackage) (publicKey : VerifyingKey) :
    Except String Unit :=
  let verifier : AppPackageVerifier := ⟨[package.manifest.publisherKeyId]⟩
  (verifier.verifyWithKey x package publicKey).map fun _ => ()

/-!
## Whose key a verified package was signed with
-/

variable (x : SigningBackend)

lemma verifySignature_eq_ok_iff (package : AppPackage) (key : VerifyingKey) :
    verifySignature x package key = .ok () ↔
      AppPackageVerifier.Accepts x ⟨[package.manifest.publisherKeyId]⟩ package key := by
  simp only [verifySignature, Except.map_eq_ok_iff, and_true,
    AppPackageVerifier.verifyWithKey_eq_ok_iff, exists_eq_right]

/-- **When a verified package was signed by the publisher it claims**: in both entry points, iff the
supplied key has the claimed fingerprint (and, for the store, the registry lists it) or one of the
checks that are made fails. -/
theorem verified_key_iff (v : AppPackageVerifier) (registry : TrustedPublisherRegistry)
    (package : AppPackage) (key : VerifyingKey) :
    ((∀ fp, v.verifyWithKey x package key = .ok fp →
        fp = x.fingerprint key ∧ fp ∈ v.trustedFingerprints) ↔
      package.manifest.publisherKeyId = x.fingerprint key ∨ ¬ v.Accepts x package key) ∧
    ((verifySignature x package key = .ok () →
        package.manifest.publisherKeyId = x.fingerprint key ∧
          registry.contains package.manifest.publisherKeyId) ↔
      (package.manifest.publisherKeyId = x.fingerprint key ∧
          registry.contains package.manifest.publisherKeyId) ∨
        ¬ AppPackageVerifier.Accepts x ⟨[package.manifest.publisherKeyId]⟩ package key) := by
  constructor
  · constructor
    · intro h
      by_cases hacc : v.Accepts x package key
      · have hok := (v.verifyWithKey_eq_ok_iff x package key _).mpr ⟨hacc, rfl⟩
        exact Or.inl (h _ hok).1
      · exact Or.inr hacc
    · intro h fp hok
      obtain ⟨hacc, rfl⟩ := (v.verifyWithKey_eq_ok_iff x package key fp).mp hok
      rcases h with hkey | hrej
      · exact ⟨hkey, hacc.trusted⟩
      · exact absurd hacc hrej
  · rw [verifySignature_eq_ok_iff]
    constructor
    · intro h
      by_cases hacc : AppPackageVerifier.Accepts x ⟨[package.manifest.publisherKeyId]⟩ package key
      · exact Or.inl (h hacc)
      · exact Or.inr hacc
    · rintro (h | hrej) hacc
      · exact h
      · exact absurd hacc hrej

/-- SHA-256 on the payload `abc` and on the 32 zero bytes of the key that signs. -/
def zeroKeyBackend : SigningBackend where
  sha256 bytes :=
    if bytes = [97, 98, 99] then
      #v[186, 120, 22, 191, 143, 1, 207, 234, 65, 65, 64, 222, 93, 174, 34, 35, 176, 3, 97, 163,
        150, 23, 122, 156, 180, 16, 255, 97, 242, 0, 21, 173]
    else
      #v[102, 104, 122, 173, 248, 98, 189, 119, 108, 143, 193, 139, 142, 159, 142, 32, 8, 151,
        20, 133, 110, 226, 51, 179, 144, 42, 89, 29, 13, 95, 41, 37]
  verify key _ _ :=
    if key.bytes = Vector.replicate 32 0 then .ok () else .error "signature error"
  toVec m := .ok (asBytes m.appId)

def onesKeyId : String := "72cd6e8422c407fb6d098690f1130b7ded7ec2f7f5e1d30bd9d521f015363793"

def forgedPackage : AppPackage where
  manifest := { notesManifest with
    binarySha256 := "ba7816bf8f01cfea414140de5dae2223b00361a396177a9cb410ff61f20015ad"
    payloadLen := 3
    publisherKeyId := onesKeyId }
  signature := String.ofList (List.replicate 86 'A' ++ ['=', '='])
  payload := [97, 98, 99]

/-- A package that claims the key `[1, 1, …]` verifies under the key `[0, 0, …]`. -/
theorem verified_key_not_claimed :
    ¬ ∀ (x : SigningBackend) (v : AppPackageVerifier) (package : AppPackage) (key : VerifyingKey)
      (fp : String), v.verifyWithKey x package key = .ok fp →
        fp = x.fingerprint key ∧ fp ∈ v.trustedFingerprints := by
  intro h
  have hok : AppPackageVerifier.verifyWithKey zeroKeyBackend ⟨[onesKeyId]⟩ forgedPackage
      ⟨Vector.replicate 32 0⟩ = .ok onesKeyId := by decide +kernel
  exact absurd (h _ _ _ _ _ hok).1 (by decide +kernel)

end Aether.Store
