import Aether.Algorithm.Checked
import Aether.Algorithm.Command
import Aether.Security.Signing
import Mathlib.Tactic.IntervalCases

/-!
# What package verification checks

`verifyWithKey_eq_ok_iff` lists the checks of `verify_with_key` and the value it returns: the key id
that the package claims, which is compared with the trust list but not with the supplied key.
-/

namespace Aether.Security

open Aether.Core

def SigningBackend.Signed (x : SigningBackend) (package : AppPackage) (key : VerifyingKey) : Prop :=
  ∃ bytes sig message, appSignatureToBytes package.signature = .ok bytes ∧
    signatureOfBytes bytes = .ok sig ∧ x.toVec package.manifest = .ok message ∧
    x.verify key message sig = .ok ()

namespace AppPackageVerifier

variable (x : SigningBackend)

/-- The checks of `verify_with_key`. -/
structure Accepts (v : AppPackageVerifier) (package : AppPackage) (key : VerifyingKey) :
    Prop where
  valid : package.manifest.validate = .ok ()
  trusted : package.manifest.publisherKeyId ∈ v.trustedFingerprints
  payloadLen : package.manifest.payloadLen.toNat = package.payload.length
  payloadHash : hexLower (x.sha256 package.payload).toList = package.manifest.binarySha256
  signed : x.Signed package key

/-- **Verification with a supplied key**: it returns iff the checks pass, and then the claimed key
id. -/
theorem verifyWithKey_eq_ok_iff (v : AppPackageVerifier) (package : AppPackage)
    (key : VerifyingKey) (fp : String) :
    v.verifyWithKey x package key = .ok fp ↔
      v.Accepts x package key ∧ fp = package.manifest.publisherKeyId := by
  simp only [verifyWithKey, AppPackage.canonicalManifestBytes, Except.bind_eq_ok_iff,
    Except.mapError_eq_ok_iff, Except.ite_throw_eq_ok_iff, Except.pure_eq_ok_iff, Bool.not_eq_true',
    Bool.not_eq_false, List.any_eq_true, beq_iff_eq, exists_eq_right, ne_eq, not_not]
  constructor
  · rintro ⟨⟨⟩, hval, htru, hlen, hhash, bytes, hbs, sig, hsig, message, hmes, ⟨⟩,
      hver, rfl⟩
    exact ⟨⟨hval, htru, hlen, hhash, bytes, sig, message, hbs, hsig, hmes, hver⟩,
      rfl⟩
  · rintro ⟨⟨hval, htru, hlen, hhash, bytes, sig, message, hbs, hsig, hmes, hver⟩,
      rfl⟩
    exact ⟨(), hval, htru, hlen, hhash, bytes, hbs, sig, hsig, message, hmes, (),
      hver, rfl⟩

end AppPackageVerifier

/-!
## Base64 of signatures

Three bytes are four sextets, which are characters of the alphabet.  The value of a character is
read back (`base64Table_alpha`), and from the sextets of a group the decoder computes its bytes
(`byte_first`, `byte_second`, `byte_third`); so it returns what was encoded
(`base64Decode_base64Encode`).
-/

/-- Six bits, the value of a character. -/
abbrev Sextet := BitVec 6

namespace Sextet

def byte (i : Sextet) : UInt8 := ⟨i.setWidth 8⟩

def alpha (i : Sextet) : UInt8 := base64Alpha.getD i.byte.toNat 0

def char (i : Sextet) : Char := base64Char i.byte

@[simp] lemma base64Table_alpha : ∀ i : Sextet, base64Table i.alpha = i.byte := by decide +kernel

@[simp] lemma alpha_ne_pad : ∀ i : Sextet, i.alpha ≠ 61 := by decide +kernel

@[simp] lemma byte_ne_255 : ∀ i : Sextet, i.byte ≠ 255 := by decide +kernel

@[simp]
lemma utf8EncodeChar_char : ∀ i : Sextet, String.utf8EncodeChar i.char = [i.alpha] := by
  decide +kernel

end Sextet

def sextet0 (b0 : UInt8) : Sextet := (b0.toBitVec >>> 2).setWidth 6

def sextet1 (b0 b1 : UInt8) : Sextet := ((b0.toBitVec <<< 4) ||| (b1.toBitVec >>> 4)).setWidth 6

def sextet2 (b1 b2 : UInt8) : Sextet := ((b1.toBitVec <<< 2) ||| (b2.toBitVec >>> 6)).setWidth 6

def sextet3 (b2 : UInt8) : Sextet := b2.toBitVec.setWidth 6

variable (b0 b1 b2 : UInt8) (bytes : List UInt8)

lemma byte_sextet0 : (sextet0 b0).byte = b0 >>> 2 := by
  apply UInt8.eq_of_toBitVec_eq
  ext i hi
  interval_cases i <;> simp [Sextet.byte, sextet0]

lemma byte_sextet1 : (sextet1 b0 b1).byte = ((b0 &&& 0x03) <<< 4) ||| (b1 >>> 4) := by
  apply UInt8.eq_of_toBitVec_eq
  ext i hi
  interval_cases i <;> simp [Sextet.byte, sextet1]

lemma byte_sextet2 : (sextet2 b1 b2).byte = ((b1 &&& 0x0f) <<< 2) ||| (b2 >>> 6) := by
  apply UInt8.eq_of_toBitVec_eq
  ext i hi
  interval_cases i <;> simp [Sextet.byte, sextet2]

lemma byte_sextet3 : (sextet3 b2).byte = b2 &&& 0x3f := by
  apply UInt8.eq_of_toBitVec_eq
  ext i hi
  interval_cases i <;> simp [Sextet.byte, sextet3]

lemma byte_first : ((sextet0 b0).byte <<< 2) ||| ((sextet1 b0 b1).byte >>> 4) = b0 := by
  apply UInt8.eq_of_toBitVec_eq
  ext i hi
  interval_cases i <;> simp [Sextet.byte, sextet0, sextet1]

lemma byte_second : ((sextet1 b0 b1).byte <<< 4) ||| ((sextet2 b1 b2).byte >>> 2) = b1 := by
  apply UInt8.eq_of_toBitVec_eq
  ext i hi
  interval_cases i <;> simp [Sextet.byte, sextet1, sextet2]

lemma byte_third : ((sextet2 b1 b2).byte <<< 6) ||| (sextet3 b2).byte = b2 := by
  apply UInt8.eq_of_toBitVec_eq
  ext i hi
  interval_cases i <;> simp [Sextet.byte, sextet2, sextet3]

lemma base64Chars_group (rest : List UInt8) :
    base64Chars (b0 :: b1 :: b2 :: rest) =
      (sextet0 b0).char :: (sextet1 b0 b1).char :: (sextet2 b1 b2).char :: (sextet3 b2).char ::
        base64Chars rest := by
  simp only [Sextet.char, byte_sextet0, byte_sextet1, byte_sextet2, byte_sextet3]
  rfl

lemma base64Chars_two : base64Chars [b0, b1] =
    [(sextet0 b0).char, (sextet1 b0 b1).char, (sextet2 b1 0).char, '='] := by
  simp [Sextet.char, byte_sextet0, byte_sextet1, byte_sextet2, base64Chars]

lemma base64Chars_one :
    base64Chars [b0] = [(sextet0 b0).char, (sextet1 b0 0).char, '=', '='] := by
  simp [Sextet.char, byte_sextet0, byte_sextet1, base64Chars]

def base64Bytes : List UInt8 → List UInt8
  | b0 :: b1 :: b2 :: rest =>
    (sextet0 b0).alpha :: (sextet1 b0 b1).alpha :: (sextet2 b1 b2).alpha :: (sextet3 b2).alpha ::
      base64Bytes rest
  | [b0, b1] => [(sextet0 b0).alpha, (sextet1 b0 b1).alpha, (sextet2 b1 0).alpha, 61]
  | [b0] => [(sextet0 b0).alpha, (sextet1 b0 0).alpha, 61, 61]
  | [] => []

lemma asBytes_base64Encode : asBytes (base64Encode bytes) = base64Bytes bytes := by
  have hpad : String.utf8EncodeChar '=' = [61] := by decide
  rw [asBytes_eq, base64Encode, String.toList_ofList]
  fun_induction base64Bytes bytes with
  | case1 b0 b1 b2 rest ih => simp [base64Chars_group, ih]
  | case2 b0 b1 => simp [base64Chars_two, hpad]
  | case3 b0 => simp [base64Chars_one, hpad]
  | case4 => rfl

lemma length_base64Bytes_mod : (base64Bytes bytes).length % 4 = 0 := by
  fun_induction base64Bytes bytes with
  | case1 b0 b1 b2 rest ih =>
    simp only [List.length_cons]
    omega
  | case2 => simp
  | case3 => simp
  | case4 => rfl

lemma base64Groups_base64Bytes : base64Groups (base64Bytes bytes) = .ok bytes := by
  fun_induction base64Bytes bytes with
  | case1 b0 b1 b2 rest ih =>
    rw [base64Groups, ih]
    simp [byte_first, byte_second, byte_third]
  | case2 b0 b1 =>
    rw [base64Groups]
    simp [byte_first, byte_second]
    rfl
  | case3 b0 =>
    rw [base64Groups]
    simp [byte_first]
    rfl
  | case4 => rfl

/-- **The decoder for signatures returns what was encoded.** -/
theorem base64Decode_base64Encode : base64Decode (base64Encode bytes) = .ok bytes := by
  rw [base64Decode, asBytes_base64Encode]
  simp only [length_base64Bytes_mod, ne_eq, not_true_eq_false, if_false]
  exact base64Groups_base64Bytes bytes

end Aether.Security
