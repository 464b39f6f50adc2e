import Aether.Algorithm.AssocList
import Aether.Security.Audit

/-!
# Sealed credentials (`aether-security/src/credentials.rs`)

The cipher, the random nonce of a seal and the time are parameters.  The key provider is one that
always returns the same key.
-/

namespace Aether.Security

structure Aead where
  encrypt : Vector UInt8 32 → Vector UInt8 12 → List UInt8 → Option (List UInt8)
  decrypt : Vector UInt8 32 → Vector UInt8 12 → List UInt8 → Option (List UInt8)

structure SealedBlob where
  bytes : List UInt8
  label : Option String
  sealedAtMs : UInt64
  deriving DecidableEq

structure Credential where
  name : String
  blob : SealedBlob
  plaintextLen : ℕ
  deriving DecidableEq

inductive CredentialError where
  | notFound
  | authenticationFailed
  | alreadyExists (name : String)
  | malformed
  deriving DecidableEq

structure SealedStore where
  sealingKey : Vector UInt8 32
  entries : AList fun _ : String => Credential

namespace SealedStore

variable (x : Aead)

def new (sealingKey : Vector UInt8 32) : SealedStore := ⟨sealingKey, ∅⟩

def contains (s : SealedStore) (name : String) : Bool := name ∈ s.entries

def get (s : SealedStore) (name : String) : Option Credential := s.entries.lookup name

def «seal» (s : SealedStore) (name plaintext : String) (label : Option String) (force : Bool)
    (nonce : Vector UInt8 12) (nowMs : UInt64) : Except CredentialError Credential × SealedStore :=
  if !force && s.contains name then (.error (.alreadyExists name), s)
  else
    match x.encrypt s.sealingKey nonce (asBytes plaintext) with
    | none => (.error .authenticationFailed, s)
    | some ciphertext =>
      let blob : SealedBlob := ⟨nonce.toList ++ ciphertext, label, nowMs⟩
      let credential : Credential := ⟨name, blob, (asBytes plaintext).length⟩
      (.ok credential, { s with entries := s.entries.insert name credential })

def nonceOfBytes (bytes : List UInt8) : Option (Vector UInt8 12) :=
  if h : bytes.length = 12 then some ⟨bytes.toArray, h⟩ else none

def openBytes (sealingKey : Vector UInt8 32) (bytes : List UInt8) :
    Except CredentialError String :=
  if bytes.length < 12 + 16 then .error .malformed
  else
    match nonceOfBytes (bytes.take 12) with
    | none => .error .malformed
    | some nonce =>
      match x.decrypt sealingKey nonce (bytes.drop 12) with
      | none => .error .authenticationFailed
      | some plaintext =>
        match String.fromUTF8? ⟨plaintext.toArray⟩ with
        | none => .error .malformed
        | some text => .ok text

def «unseal» (s : SealedStore) (name : String) : Except CredentialError String :=
  match s.entries.lookup name with
  | none => .error .notFound
  | some credential => openBytes x s.sealingKey credential.blob.bytes

def remove (s : SealedStore) (name : String) : Except CredentialError Credential × SealedStore :=
  match s.entries.lookup name with
  | none => (.error .notFound, s)
  | some credential => (.ok credential, { s with entries := s.entries.erase name })

def clear (s : SealedStore) : SealedStore := { s with entries := ∅ }

end SealedStore

inductive CredentialCall where
  | «seal» (name plaintext : String) (label : Option String) (force : Bool)
      (nonce : Vector UInt8 12) (nowMs : UInt64)
  | «unseal» (name : String)
  | remove (name : String)
  | clear

inductive CredentialResult where
  | sealed (result : Except CredentialError Credential)
  | unsealed (result : Except CredentialError String)
  | removed (result : Except CredentialError Credential)
  | cleared

def SealedStore.call (x : Aead) (s : SealedStore) : CredentialCall → CredentialResult × SealedStore
  | .seal name plaintext label force nonce nowMs =>
    let r := s.seal x name plaintext label force nonce nowMs
    (.sealed r.1, r.2)
  | .unseal name => (.unsealed (s.unseal x name), s)
  | .remove name =>
    let r := s.remove name
    (.removed r.1, r.2)
  | .clear => (.cleared, s.clear)

/-!
## The sealed store as a map from names to plaintexts

Every call changes the map that the store stands for (`Stands`) as its effect on the name says, so
`unseal` returns the last text that was sealed.
-/

open AList

open Keyed (trace trace_concat)
open LastWrite (current current_concat current_eq_some_iff)

/-- Every message can be encrypted, and is what the ciphertext decrypts to. -/
def Aead.Correct (x : Aead) : Prop :=
  ∀ key nonce message, ∃ ciphertext, x.encrypt key nonce message = some ciphertext ∧
    ciphertext.length = message.length + 16 ∧ x.decrypt key nonce ciphertext = some message

def CredentialCall.name : CredentialCall → Option String
  | .seal name _ _ _ _ _ => some name
  | .unseal name => some name
  | .remove name => some name
  | .clear => none

variable {x : Aead}

namespace SealedStore

lemma nonceOfBytes_toList (nonce : Vector UInt8 12) :
    nonceOfBytes nonce.toList = some nonce := by
  rw [nonceOfBytes, dif_pos (Vector.length_toList)]
  exact congrArg some (Vector.toList_inj.mp rfl)

lemma openBytes_sealed (key : Vector UInt8 32) (nonce : Vector UInt8 12) (text : String)
    {ciphertext : List UInt8} (hleng : ciphertext.length = (asBytes text).length + 16)
    (hdec : x.decrypt key nonce ciphertext = some (asBytes text)) :
    openBytes x key (nonce.toList ++ ciphertext) = .ok text := by
  have hnon : nonce.toList.length = 12 := Vector.length_toList
  have hlen : ¬ (nonce.toList ++ ciphertext).length < 12 + 16 := by
    rw [List.length_append, hnon]
    omega
  have htext : String.fromUTF8? ⟨(asBytes text).toArray⟩ = some text :=
    fromUTF8_eq_some_iff.mpr rfl
  rw [openBytes, if_neg hlen, List.take_left' hnon, List.drop_left' hnon, nonceOfBytes_toList]
  simp only [hdec, htext]

def Opens (x : Aead) (key : Vector UInt8 32) : Option Credential → Option String → Prop
  | none, text => text = none
  | some credential, text => ∃ t, text = some t ∧ openBytes x key credential.blob.bytes = .ok t

def Stands (x : Aead) (s : SealedStore) (texts : String → Option String) : Prop :=
  ∀ name, Opens x s.sealingKey (s.entries.lookup name) (texts name)

variable {s : SealedStore} {texts : String → Option String}

lemma stands_of_empty (h : s.entries = ∅) : Stands x s fun _ => none := by
  intro name
  rw [h, lookup_empty]
  rfl

lemma Stands.unseal_eq (h : Stands x s texts) (name : String) :
    s.unseal x name = match texts name with
      | none => .error .notFound
      | some text => .ok text := by
  have hname := h name
  unfold SealedStore.unseal
  cases hlook : s.entries.lookup name with
  | none =>
    rw [hlook] at hname
    rw [hname]
  | some credential =>
    rw [hlook] at hname
    obtain ⟨text, htext, hopen⟩ := hname
    rw [htext]
    exact hopen

lemma Stands.contains_iff (h : Stands x s texts) (name : String) :
    s.contains name = true ↔ ∃ text, texts name = some text := by
  have hname := h name
  rw [contains, decide_eq_true_iff, ← lookup_isSome]
  cases hlook : s.entries.lookup name with
  | none =>
    rw [hlook, Opens] at hname
    simp [hname]
  | some credential =>
    rw [hlook] at hname
    obtain ⟨text, htext, -⟩ := hname
    simp [htext]

variable {name other : String} {c : CredentialCall}

lemma Stands.insert (h : Stands x s texts) {text : String} {credential : Credential}
    (hopen : openBytes x s.sealingKey credential.blob.bytes = .ok text) :
    Stands x { s with entries := s.entries.insert name credential }
      (Function.update texts name (some text)) := by
  intro name'
  rw [Function.update_apply, AssocList.lookup_insert]
  split_ifs
  · exact ⟨text, rfl, hopen⟩
  · exact h name'

lemma Stands.erase (h : Stands x s texts) (name : String) :
    Stands x { s with entries := s.entries.erase name } (Function.update texts name none) := by
  intro name'
  rw [Function.update_apply, AssocList.lookup_erase]
  split_ifs
  · rfl
  · exact h name'

lemma seal_cases (hx : x.Correct) (s : SealedStore) (name text : String) (label : Option String)
    (force : Bool) (nonce : Vector UInt8 12) (nowMs : UInt64) :
    (force = false ∧ s.contains name = true ∧
        s.seal x name text label force nonce nowMs = (.error (.alreadyExists name), s)) ∨
      (¬ (force = false ∧ s.contains name = true) ∧ ∃ credential,
        openBytes x s.sealingKey credential.blob.bytes = .ok text ∧
        s.seal x name text label force nonce nowMs =
          (.ok credential, { s with entries := s.entries.insert name credential })) := by
  unfold SealedStore.seal
  by_cases href : force = false ∧ s.contains name = true
  · refine Or.inl ⟨href.1, href.2, ?_⟩
    rw [if_pos (by simp [href])]
  · refine Or.inr ⟨href, ?_⟩
    obtain ⟨ciphertext, henc, hlen, hdec⟩ := hx s.sealingKey nonce (asBytes text)
    rw [if_neg (by simpa using href)]
    simp only [henc]
    exact ⟨_, openBytes_sealed s.sealingKey nonce text hlen hdec, rfl⟩

def effectOn (name : String) : CredentialCall × CredentialResult → Option (Option String)
  | (.seal name' text _ _ _ _, .sealed (.ok _)) => if name' = name then some (some text) else none
  | (.remove name', .removed (.ok _)) => if name' = name then some none else none
  | (.clear, _) => some none
  | _ => none

def applyCall (texts : String → Option String) (event : CredentialCall × CredentialResult) :
    String → Option String :=
  fun name => (effectOn name event).getD (texts name)

lemma applyCall_eq_update {event : CredentialCall × CredentialResult} {text : Option String}
    (h : ∀ name', effectOn name' event = if name = name' then some text else none) :
    applyCall texts event = Function.update texts name text := by
  funext name'
  rw [applyCall, h]
  by_cases hname : name = name'
  · subst hname
    simp
  · simp [hname, Function.update_of_ne (Ne.symm hname)]

lemma Stands.call (hx : x.Correct) (h : Stands x s texts) (c : CredentialCall) :
    Stands x (s.call x c).2 (applyCall texts (c, (s.call x c).1)) := by
  cases c with
  | «seal» name text label force nonce nowMs =>
    simp only [SealedStore.call]
    rcases seal_cases hx s name text label force nonce nowMs with
      ⟨-, -, heq⟩ | ⟨-, credential, hopen, heq⟩
    · rw [heq]
      exact h
    · rw [heq, applyCall_eq_update fun _ => rfl]
      exact h.insert hopen
  | «unseal» name => exact h
  | remove name =>
    simp only [SealedStore.call, SealedStore.remove]
    cases s.entries.lookup name with
    | none => exact h
    | some credential =>
      rw [applyCall_eq_update fun _ => rfl]
      exact h.erase name
  | clear => exact stands_of_empty rfl

def afterCalls (x : Aead) (key : Vector UInt8 32) (calls : List CredentialCall) : SealedStore :=
  calls.foldl (Keyed.next (SealedStore.call x)) (new key)

def history (x : Aead) (key : Vector UInt8 32) (calls : List CredentialCall) :
    List (CredentialCall × CredentialResult) :=
  trace (SealedStore.call x) (new key) calls

/-- The last call that changed the name sealed the text. -/
def LastSealed (history : List (CredentialCall × CredentialResult)) (name text : String) : Prop :=
  LastWrite.Last (effectOn name) history text

lemma stands_calls (hx : x.Correct) (key : Vector UInt8 32) (calls : List CredentialCall) :
    Stands x (afterCalls x key calls)
      fun name => current (effectOn name) none (history x key calls) := by
  induction calls using List.reverseRecOn with
  | nil => exact stands_of_empty rfl
  | append_singleton calls c ih =>
    have hstep := ih.call hx c
    simp only [afterCalls, history, List.foldl_append, trace_concat, current_concat]
    exact hstep

@[simp] lemma sealingKey_call (s : SealedStore) (c : CredentialCall) :
    (s.call x c).2.sealingKey = s.sealingKey := by
  cases c with
  | «seal» name text label force nonce nowMs =>
    simp only [SealedStore.call, SealedStore.seal]
    split
    · rfl
    · split <;> rfl
  | «unseal» name => rfl
  | remove name =>
    simp only [SealedStore.call, SealedStore.remove]
    split <;> rfl
  | clear => rfl

lemma get_call_of_ne (s : SealedStore) (hname : c.name = some name) (hne : other ≠ name) :
    (s.call x c).2.get other = s.get other := by
  cases c with
  | «seal» name' text label force nonce nowMs =>
    cases hname
    simp only [SealedStore.call, SealedStore.seal]
    split
    · rfl
    · split
      · rfl
      · exact lookup_insert_ne hne
  | «unseal» name' => rfl
  | remove name' =>
    cases hname
    simp only [SealedStore.call, SealedStore.remove]
    split
    · rfl
    · exact lookup_erase_ne hne
  | clear => cases hname

lemma unseal_call_of_ne (s : SealedStore) (hname : c.name = some name) (hne : other ≠ name) :
    (s.call x c).2.unseal x other = s.unseal x other := by
  have hget : (s.call x c).2.entries.lookup other = s.entries.lookup other :=
    get_call_of_ne s hname hne
  rw [SealedStore.unseal, SealedStore.unseal, hget, sealingKey_call]

lemma seal_error_iff (hx : x.Correct) (s : SealedStore) (name text : String)
    (label : Option String) (nonce : Vector UInt8 12) (nowMs : UInt64) :
    ((∃ e, (s.seal x name text label false nonce nowMs).1 = .error e) ↔ s.contains name = true) ∧
      (s.contains name = true → (s.seal x name text label false nonce nowMs).2 = s) := by
  rcases seal_cases hx s name text label false nonce nowMs with
    ⟨-, hcon, heq⟩ | ⟨hnot, credential, -, heq⟩
  · rw [heq]
    exact ⟨iff_of_true ⟨_, rfl⟩ hcon, fun _ => rfl⟩
  · have hcon : ¬ s.contains name = true := fun h => hnot ⟨rfl, h⟩
    rw [heq]
    refine ⟨iff_of_false ?_ hcon, fun h => absurd h hcon⟩
    rintro ⟨e, he⟩
    cases he

def checksumTag (key : Vector UInt8 32) (nonce : Vector UInt8 12) (message : List UInt8) :
    List UInt8 :=
  List.replicate 16 ((key.toList ++ nonce.toList ++ message).foldl (31 * · + ·) 0)

/-- It hides nothing; the tag is a checksum of the key, the nonce and the message. -/
def checksumAead : Aead where
  encrypt key nonce message := some (message ++ checksumTag key nonce message)
  decrypt key nonce ciphertext :=
    let message := ciphertext.take (ciphertext.length - 16)
    if ciphertext = message ++ checksumTag key nonce message then some message else none

end SealedStore

end Aether.Security
