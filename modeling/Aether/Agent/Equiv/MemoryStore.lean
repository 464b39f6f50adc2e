import Aether.Agent.MemoryStore
import Aether.Algorithm.AssocList

/-!
# The file store against the map

A name `n` is saved through the file `n.tmp`, which may be another entry.
-/

namespace Aether.Agent

open Run AList

/-- A call of the file system failed. -/
def StoreResult.IsIoError : StoreResult → Prop
  | .failed (.io _) => True
  | _ => False

/-- The name is valid and the payload not too long. -/
def StoreCall.Accepted : StoreCall → Prop
  | .save name bytes => validateName name = .ok () ∧ bytes.length ≤ maxPayloadBytes
  | .load name => validateName name = .ok ()
  | .delete name => validateName name = .ok ()

instance : DecidablePred StoreResult.IsIoError
  | .failed (.io _) => .isTrue trivial
  | .failed (.invalidName _) | .failed (.tooLarge _ _) | .saved | .loaded _ | .deleted _ =>
    .isFalse id

instance : DecidablePred StoreCall.Accepted
  | .save _ _ | .load _ | .delete _ => by unfold StoreCall.Accepted; infer_instance

lemma checkPayload_of_le {bytes : Bytes} (h : bytes.length ≤ maxPayloadBytes) :
    checkPayload bytes = .ok () := if_neg (Nat.not_lt.mpr h)

namespace InMemoryStore

variable {name : String}

lemma call_save {bytes : Bytes} (h : (StoreCall.save name bytes).Accepted) (s : InMemoryStore) :
    s.call (.save name bytes) = (.saved, ⟨s.inner.insert name bytes⟩) := by
  simp [call, save, h.1, checkPayload_of_le h.2, bind, Except.bind, pure, Except.pure]

lemma call_load (h : validateName name = .ok ()) (s : InMemoryStore) :
    s.call (.load name) = (.loaded (s.inner.lookup name), s) := by
  simp [call, load, h, bind, Except.bind, pure, Except.pure]

lemma call_delete (h : validateName name = .ok ()) (s : InMemoryStore) :
    s.call (.delete name) = (.deleted (s.inner.lookup name).isSome, ⟨s.inner.erase name⟩) := by
  simp [call, delete, h, bind, Except.bind, pure, Except.pure]

end InMemoryStore

namespace Directory

variable {d : Directory} {name : String} {self : IoError}

lemma nameError_eq_none_iff :
    d.nameError name self = none ↔ '\x00' ∉ name.toList ∧ d.made = true ∧ name ≠ "." := by
  unfold nameError
  split_ifs with hnul hmade hdot
  · simp [hnul]
  · simp at hmade
    simp [hmade]
  · simp [hdot]
  · simp at hmade
    simp [hnul, hmade, hdot]

lemma lookup_of_nameError_notFound (h : d.nameError name self = some .notFound)
    (hself : self ≠ .notFound) : d.files.lookup name = none := by
  have hmade : d.made = false := by
    by_contra hne
    have htrue : d.made = true := by simpa using hne
    unfold nameError at h
    simp only [htrue, Bool.not_true, Bool.false_eq_true, if_false] at h
    split_ifs at h
    · cases h
    · exact hself (Option.some.inj h)
  rw [d.empty_of_not_made hmade]
  exact lookup_empty name

lemma write_eq_ok (h : d.nameError name .isADirectory = none) (bytes : Bytes) :
    ∃ d', d.write name bytes = .ok d' ∧ d'.made = true ∧ d'.files = d.files.insert name bytes := by
  have hmade := (nameError_eq_none_iff.mp h).2.1
  simp only [write, h, hmade, dif_pos]
  exact ⟨_, rfl, hmade, rfl⟩

lemma rename_eq_ok {src dst : String} {bytes : Bytes}
    (hsrc : d.nameError src .resourceBusy = none) (hdst : d.nameError dst .resourceBusy = none)
    (hfile : d.files.lookup src = some bytes) :
    ∃ d', d.rename src dst = .ok d' ∧ d'.files = (d.files.erase src).insert dst bytes := by
  have hmade := (nameError_eq_none_iff.mp hsrc).2.1
  simp only [rename, hsrc, hdst, hfile, hmade, dif_pos]
  exact ⟨_, rfl, rfl⟩

end Directory

namespace FileMemoryStore

variable (fs : FileMemoryStore) (d : Directory)

variable {name : String}

lemma resolve_eq_ok (h : validateName name = .ok ()) : resolve name = .ok name := by
  simp [resolve, h, bind, Except.bind, pure, Except.pure]

lemma call_load_cases (h : validateName name = .ok ()) :
    (fs.call d (.load name)).1.IsIoError ∨
      fs.call d (.load name) = (.loaded (d.files.lookup name), d) := by
  simp only [call, load, resolve_eq_ok h, bind, Except.bind]
  unfold Directory.read
  cases herr : d.nameError name .isADirectory with
  | none =>
    cases hfile : d.files.lookup name with
    | none => exact .inr rfl
    | some bytes => exact .inr rfl
  | some e =>
    cases e with
    | notFound =>
      rw [Directory.lookup_of_nameError_notFound herr (by decide)]
      exact .inr rfl
    | isADirectory => exact .inl trivial
    | resourceBusy => exact .inl trivial
    | nul => exact .inl trivial

lemma call_delete_cases (h : validateName name = .ok ()) :
    (fs.call d (.delete name)).1.IsIoError ∨
      (fs.call d (.delete name)).1 = .deleted (d.files.lookup name).isSome ∧
        ∀ m, (fs.call d (.delete name)).2.files.lookup m = (d.files.erase name).lookup m := by
  simp only [call, delete, resolve_eq_ok h, bind, Except.bind]
  unfold Directory.remove
  cases herr : d.nameError name .isADirectory with
  | none =>
    cases hfile : d.files.lookup name with
    | none => exact .inr ⟨rfl, fun m => (AssocList.lookup_erase_of_eq_none hfile m).symm⟩
    | some bytes =>
      have hmade := (Directory.nameError_eq_none_iff.mp herr).2.1
      simp only [hmade, dif_pos]
      exact .inr ⟨rfl, fun m => rfl⟩
  | some e =>
    cases e with
    | notFound =>
      have hfile := Directory.lookup_of_nameError_notFound herr (by decide)
      rw [hfile]
      exact .inr ⟨rfl, fun m => (AssocList.lookup_erase_of_eq_none hfile m).symm⟩
    | isADirectory => exact .inl trivial
    | resourceBusy => exact .inl trivial
    | nul => exact .inl trivial

lemma tmpName_ne (name : String) : tmpName name ≠ "." := by
  intro h
  have hlist := congrArg String.toList h
  have hlen := congrArg List.length hlist
  simp [tmpName, toString] at hlen

lemma nul_mem_tmpName_iff : '\x00' ∈ (tmpName name).toList ↔ '\x00' ∈ name.toList := by
  simp [tmpName, toString]

lemma call_save_cases {bytes : Bytes} (h : (StoreCall.save name bytes).Accepted) :
    (fs.call d (.save name bytes)).1.IsIoError ∨
      (fs.call d (.save name bytes)).1 = .saved ∧
        ∀ m, (fs.call d (.save name bytes)).2.files.lookup m =
          if m = name then some bytes
          else if m = tmpName name then none else d.files.lookup m := by
  obtain ⟨hname, hsize⟩ := h
  have hchk : (do let target ← resolve name; checkPayload bytes; pure target) = .ok name := by
    simp [resolve_eq_ok hname, checkPayload_of_le hsize, bind, Except.bind, pure, Except.pure]
  have hfil : (if d.made then d else d.make).files = d.files := by
    split_ifs <;> rfl
  have hmade : (if d.made then d else d.make).made = true := by
    split_ifs with hd
    · exact hd
    · rfl
  simp only [call, save, hchk]
  generalize (if d.made then d else d.make) = d₁ at hfil hmade
  by_cases hnul : '\x00' ∈ name.toList
  · -- The file system refuses the name.
    have hwr : d₁.write (tmpName name) bytes = .error .nul := by
      simp [Directory.write, Directory.nameError, nul_mem_tmpName_iff.mpr hnul]
    rw [hwr]
    exact .inl trivial
  have htmp {self : IoError} {d' : Directory} (hd' : d'.made = true) :
      d'.nameError (tmpName name) self = none :=
    Directory.nameError_eq_none_iff.mpr
      ⟨fun hmem => hnul (nul_mem_tmpName_iff.mp hmem), hd', tmpName_ne name⟩
  obtain ⟨d₂, hwr, hmade₂, hfil₂⟩ := Directory.write_eq_ok (htmp hmade) bytes
  rw [hwr]
  dsimp only
  cases hdst : d₂.nameError name .resourceBusy with
  | some e =>
    have hren : d₂.rename (tmpName name) name = .error e := by
      simp [Directory.rename, htmp hmade₂, hdst]
    rw [hren]
    left
    cases d₂.remove (tmpName name) with
    | ok d₃ => trivial
    | error e' => trivial
  | none =>
    have hfile : d₂.files.lookup (tmpName name) = some bytes := by
      rw [hfil₂]
      exact lookup_insert _
    obtain ⟨d₃, hren, hfil₃⟩ := Directory.rename_eq_ok (htmp hmade₂) hdst hfile
    rw [hren]
    refine .inr ⟨rfl, fun m => ?_⟩
    show d₃.files.lookup m = _
    simp only [hfil₃, hfil₂, hfil, AssocList.lookup_insert, AssocList.lookup_erase]
    split_ifs <;> rfl

/-- A save leaves the other entries as they are. -/
def KeepsOthers (d : Directory) : StoreCall → Prop
  | .save name bytes =>
    ∀ m, m ≠ name → (fs.call d (.save name bytes)).2.files.lookup m = d.files.lookup m
  | _ => True

/-- The file through which a name is saved is no entry. -/
def TmpUnused (d : Directory) : StoreCall → Prop
  | .save name _ => tmpName name ∉ d.files
  | _ => True

lemma tmpName_ne_self (name : String) : tmpName name ≠ name := by
  intro h
  have hlen := congrArg (fun s => s.toList.length) h
  simp [tmpName, toString] at hlen

lemma keepsOthers_iff {c : StoreCall} (hacc : c.Accepted)
    (hio : ¬ (fs.call d c).1.IsIoError) : fs.KeepsOthers d c ↔ TmpUnused d c := by
  cases c with
  | load name => exact Iff.rfl
  | delete name => exact Iff.rfl
  | save name bytes =>
    obtain ⟨-, hlook⟩ := (call_save_cases fs d hacc).resolve_left hio
    rw [KeepsOthers, TmpUnused, ← lookup_eq_none]
    constructor
    · intro h
      have htmp := h _ (tmpName_ne_self name)
      rwa [hlook, if_neg (tmpName_ne_self name), if_pos rfl, eq_comm] at htmp
    · intro h m hm
      rw [hlook, if_neg hm]
      split_ifs with hm'
      · rw [hm', h]
      · rfl

def SameContent (d : Directory) (s : InMemoryStore) : Prop :=
  ∀ m, d.files.lookup m = s.inner.lookup m

lemma call_sameContent {c : StoreCall} (hacc : c.Accepted)
    (hio : ¬ (fs.call d c).1.IsIoError) (htmp : TmpUnused d c) {s : InMemoryStore}
    (hsame : SameContent d s) :
    (fs.call d c).1 = (s.call c).1 ∧ SameContent (fs.call d c).2 (s.call c).2 := by
  cases c with
  | load name =>
    rw [(call_load_cases fs d hacc).resolve_left hio, InMemoryStore.call_load hacc, hsame]
    exact ⟨rfl, hsame⟩
  | delete name =>
    obtain ⟨hres, hlook⟩ := (call_delete_cases fs d hacc).resolve_left hio
    rw [InMemoryStore.call_delete hacc, hres, hsame]
    refine ⟨rfl, fun m => (hlook m).trans ?_⟩
    rw [AssocList.lookup_erase, AssocList.lookup_erase, hsame]
  | save name bytes =>
    obtain ⟨hres, hlook⟩ := (call_save_cases fs d hacc).resolve_left hio
    rw [InMemoryStore.call_save hacc, hres]
    refine ⟨rfl, fun m => (hlook m).trans ?_⟩
    rw [AssocList.lookup_insert, ← hsame]
    split_ifs with hm hm'
    · rfl
    · rw [hm']
      exact (lookup_eq_none.mpr htmp).symm
    · rfl

/-- **The file store against the map.**  Of a run over accepted names and payloads in which no call
of the file system fails, from a directory that is empty or missing. -/
theorem outputs_eq_and_frame_iff (made : Bool) (calls : List StoreCall)
    (haccepted : ∀ c ∈ calls, c.Accepted)
    (hio : ∀ r ∈ outputs fs.call (.empty made) calls, ¬ r.IsIoError) :
    outputs fs.call (.empty made) calls = outputs InMemoryStore.call .new calls ∧
        Steps (after fs.call) fs.KeepsOthers (.empty made) calls ↔
      Steps (after fs.call) TmpUnused (.empty made) calls := by
  have hsts := steps_of_forall_outputs hio
  have hmem {pre post : List StoreCall} {c : StoreCall} (heq : calls = pre ++ c :: post) :
      c.Accepted := haccepted c (by simp [heq])
  have hiff : Steps (after fs.call) fs.KeepsOthers (.empty made) calls ↔
      Steps (after fs.call) TmpUnused (.empty made) calls :=
    forall₄_congr fun pre c post heq => keepsOthers_iff fs _ (hmem heq) (hsts pre c post heq)
  rw [hiff, and_iff_right_iff_imp]
  intro htmp
  have hall : Steps (after fs.call)
      (fun d c => c.Accepted ∧ ¬ (fs.call d c).1.IsIoError ∧ TmpUnused d c) (.empty made) calls :=
    fun pre c post heq => ⟨hmem heq, hsts pre c post heq, htmp pre c post heq⟩
  refine outputs_eq (R := SameContent) ?_ hall fun m => rfl
  intro d s c hc hsame
  exact call_sameContent fs d hc.1 hc.2.1 hc.2.2 hsame

def notesCalls : List StoreCall :=
  [.save "notes" [1], .save "notes" [2], .load "notes", .delete "notes"]

theorem outputs_eq_and_frame_iff_notes :
    (∀ c ∈ notesCalls, c.Accepted) ∧
      (∀ r ∈ outputs (FileMemoryStore.call ⟨[]⟩) (.empty false) notesCalls, ¬ r.IsIoError) ∧
      (outputs (FileMemoryStore.call ⟨[]⟩) (.empty false) notesCalls =
            outputs InMemoryStore.call .new notesCalls ∧
          Steps (after (FileMemoryStore.call ⟨[]⟩)) (FileMemoryStore.KeepsOthers ⟨[]⟩)
            (.empty false) notesCalls ↔
        Steps (after (FileMemoryStore.call ⟨[]⟩)) TmpUnused (.empty false) notesCalls) :=
  ⟨by decide +kernel, by decide +kernel,
    outputs_eq_and_frame_iff ⟨[]⟩ false notesCalls (by decide +kernel) (by decide +kernel)⟩

def clashingCalls : List StoreCall := [.save "a.tmp" [1], .save "a" [2], .load "a.tmp"]

theorem outputs_ne_of_clash :
    (∀ c ∈ clashingCalls, c.Accepted) ∧
      outputs (FileMemoryStore.call ⟨[]⟩) (.empty false) clashingCalls =
        [.saved, .saved, .loaded none] ∧
      outputs InMemoryStore.call .new clashingCalls = [.saved, .saved, .loaded (some [1])] := by
  decide +kernel

end FileMemoryStore

end Aether.Agent
