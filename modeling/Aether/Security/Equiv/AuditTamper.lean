import Aether.Security.Equiv.Audit

/-!
# What the last content hash commits to

`canonical_bytes` terminates strings by a zero byte without escaping.
-/

namespace Aether.Security

open Framing List

lemma toNat_toUInt8_shiftRight (n k : UInt64) (hk : k.toNat < 64) :
    (n >>> k).toUInt8.toNat = n.toNat / 2 ^ k.toNat % 256 := by
  rw [UInt64.toNat_toUInt8, UInt64.toNat_shiftRight, Nat.mod_eq_of_lt hk,
    Nat.shiftRight_eq_div_pow]

lemma div_two_pow_eq_of_byte {a b i : ℕ} (h : a / 2 ^ (i + 8) = b / 2 ^ (i + 8))
    (hbyte : a / 2 ^ i % 256 = b / 2 ^ i % 256) : a / 2 ^ i = b / 2 ^ i := by
  rw [pow_add, ← Nat.div_div_eq_div_mul, ← Nat.div_div_eq_div_mul] at h
  set x := a / 2 ^ i
  set y := b / 2 ^ i
  omega

lemma length_toBeBytes (n : UInt64) : (toBeBytes n).length = 8 := rfl

lemma toBeBytes_injective : Function.Injective toBeBytes := by
  intro n m h
  simp only [toBeBytes, cons.injEq, and_true] at h
  obtain ⟨h7, h6, h5, h4, h3, h2, h1, h0⟩ := h
  have hbyte : ∀ (k : UInt64) (i : ℕ), k.toNat = i → i < 64 →
      (n >>> k).toUInt8 = (m >>> k).toUInt8 →
      n.toNat / 2 ^ i % 256 = m.toNat / 2 ^ i % 256 := by
    rintro k _ rfl hk heq
    rw [← toNat_toUInt8_shiftRight n k hk, heq, toNat_toUInt8_shiftRight m k hk]
  have b7 : n.toNat / 2 ^ 56 = m.toNat / 2 ^ 56 := by
    have b := hbyte 56 56 rfl (by decide) h7
    have hn : n.toNat / 2 ^ 56 < 256 := Nat.div_lt_of_lt_mul n.toNat_lt
    have hm : m.toNat / 2 ^ 56 < 256 := Nat.div_lt_of_lt_mul m.toNat_lt
    rwa [Nat.mod_eq_of_lt hn, Nat.mod_eq_of_lt hm] at b
  -- from the most significant byte down
  have b6 := div_two_pow_eq_of_byte (i := 48) b7 (hbyte 48 48 rfl (by decide) h6)
  have b5 := div_two_pow_eq_of_byte (i := 40) b6 (hbyte 40 40 rfl (by decide) h5)
  have b4 := div_two_pow_eq_of_byte (i := 32) b5 (hbyte 32 32 rfl (by decide) h4)
  have b3 := div_two_pow_eq_of_byte (i := 24) b4 (hbyte 24 24 rfl (by decide) h3)
  have b2 := div_two_pow_eq_of_byte (i := 16) b3 (hbyte 16 16 rfl (by decide) h2)
  have b1 := div_two_pow_eq_of_byte (i := 8) b2 (hbyte 8 8 rfl (by decide) h1)
  have b0 : n.toNat % 256 = m.toNat % 256 := by
    have := congrArg UInt8.toNat h0
    rwa [UInt64.toNat_toUInt8, UInt64.toNat_toUInt8] at this
  refine UInt64.toNat_inj.mp ?_
  rw [← Nat.div_add_mod n.toNat 256, ← Nat.div_add_mod m.toNat 256, b0]
  exact congrArg (256 * · + _) b1

/-- No string of the entry contains a NUL. -/
def AuditEntry.NulFree (e : AuditEntry) : Prop :=
  '\x00' ∉ e.event.toList ∧ '\x00' ∉ e.component.toList ∧ '\x00' ∉ e.detail.toList

/-- All fields but the content hash agree. -/
structure AuditEntry.SameFields (a b : AuditEntry) : Prop where
  index : a.index = b.index
  timestampMs : a.timestampMs = b.timestampMs
  event : a.event = b.event
  component : a.component = b.component
  detail : a.detail = b.detail
  prevHash : a.prevHash = b.prevHash

def AuditEntry.texts (e : AuditEntry) : List String := [e.event, e.component, e.detail]

lemma AuditEntry.canonicalBytes_eq (e : AuditEntry) :
    e.canonicalBytes = toBeBytes e.index ++ (toBeBytes e.timestampMs ++
      (frame 0 (e.texts.map asBytes) ++ e.prevHash.toList)) := by
  simp [canonicalBytes, texts]

lemma frame_map_asBytes (l : List String) :
    frame 0 (l.map asBytes) =
      (frame '\x00' (l.map String.toList)).flatMap String.utf8EncodeChar := by
  induction l with
  | nil => rfl
  | cons s l ih =>
    have h0 : String.utf8EncodeChar '\x00' = [0] := by decide
    rw [map_cons, map_cons, frame_cons, frame_cons, ih, flatMap_append,
      flatMap_cons, h0, asBytes_eq]
    rfl

variable {a b : AuditEntry}

/-- **The encoding determines a NUL-free entry.** -/
theorem AuditEntry.canonicalBytes_inj (ha : a.NulFree) (h : a.canonicalBytes = b.canonicalBytes) :
    a.SameFields b := by
  rw [canonicalBytes_eq, canonicalBytes_eq] at h
  obtain ⟨hix, h⟩ := append_inj h (by rw [length_toBeBytes, length_toBeBytes])
  obtain ⟨htime, h⟩ := append_inj h (by rw [length_toBeBytes, length_toBeBytes])
  obtain ⟨htex, hprev⟩ := append_inj' h (by simp)
  have hnul : ∀ x ∈ a.texts.map asBytes, (0 : UInt8) ∉ x := by
    obtain ⟨h1, h2, h3⟩ := ha
    simp only [texts, map_cons, map_nil, mem_cons, not_mem_nil, or_false]
    rintro x (rfl | rfl | rfl)
    · exact zero_not_mem_asBytes h1
    · exact zero_not_mem_asBytes h2
    · exact zero_not_mem_asBytes h3
  have heq := frame_inj hnul (by simp [texts]) htex
  simp only [texts, map_cons, map_nil, cons.injEq, and_true] at heq
  exact ⟨toBeBytes_injective hix, toBeBytes_injective htime, asBytes_injective heq.1,
    asBytes_injective heq.2.1, asBytes_injective heq.2.2, Vector.toList_inj.mp hprev⟩

/-- **An entry with a NUL in it has a double**: other strings, the same bytes and hashes. -/
theorem AuditEntry.exists_canonicalBytes_eq (ha : ¬ a.NulFree) :
    ∃ b : AuditEntry, b.canonicalBytes = a.canonicalBytes ∧ b.index = a.index ∧
      b.prevHash = a.prevHash ∧ b.contentHash = a.contentHash ∧ ¬ a.SameFields b := by
  obtain ⟨x, hx, hnul⟩ : ∃ x ∈ a.texts.map String.toList, '\x00' ∈ x := by
    by_contra hno
    refine ha ⟨fun h => hno ⟨_, ?_, h⟩, fun h => hno ⟨_, ?_, h⟩, fun h => hno ⟨_, ?_, h⟩⟩ <;>
      simp [texts]
  obtain ⟨ys, hlen, hfra, hne⟩ := exists_frame_eq_of_mem hx hnul (by simp [texts])
  obtain ⟨u, v, w, rfl⟩ : ∃ u v w, ys = [u, v, w] := by
    rw [length_map] at hlen
    exact length_eq_three.mp hlen
  refine ⟨{ a with event := .ofList u, component := .ofList v, detail := .ofList w }, ?_, rfl, rfl,
    rfl, fun hsame => hne ?_⟩
  · rw [canonicalBytes_eq, canonicalBytes_eq, frame_map_asBytes, frame_map_asBytes, ← hfra]
    simp [texts]
  · have h1 := hsame.event
    have h2 := hsame.component
    have h3 := hsame.detail
    simp only at h1 h2 h3
    simp [texts, h1, h2, h3]

variable (sha256 : List UInt8 → Digest)

def messages (es : List AuditEntry) : Set (List UInt8) := {m | ∃ e ∈ es, e.canonicalBytes = m}

/-- **Commitment**: a NUL-free chain and any chain of the same length with the same end agree in
every hashed field. -/
theorem sameFields_of_lastHash {as bs : List AuditEntry} (hnul : ∀ e ∈ as, e.NulFree)
    (hinj : Set.InjOn sha256 (messages as ∪ messages bs))
    (ha : verifyFrom sha256 0 genesisPrevHash as = .ok ())
    (hb : verifyFrom sha256 0 genesisPrevHash bs = .ok ()) (hlen : as.length = bs.length)
    (hlast : lastHash genesisPrevHash as = lastHash genesisPrevHash bs) :
    List.Forall₂ AuditEntry.SameFields as bs := by
  -- from the end: equal hashes give equal entries, hence equal hashes of the entries before
  induction as using reverseRecOn generalizing bs with
  | nil =>
    obtain rfl := length_eq_zero_iff.mp hlen.symm
    exact List.Forall₂.nil
  | append_singleton as a ih =>
    rcases eq_nil_or_concat bs with rfl | ⟨bs, b, rfl⟩
    · simp at hlen
    rw [concat_eq_append] at *
    rw [verifyFrom_concat] at ha hb
    obtain ⟨ha, -, hpa, hha⟩ := ha
    obtain ⟨hb, -, hpb, hhb⟩ := hb
    have hsame : a.SameFields b := by
      refine AuditEntry.canonicalBytes_inj (hnul a (by simp)) ?_
      refine hinj (Or.inl ⟨a, by simp, rfl⟩) (Or.inr ⟨b, by simp, rfl⟩) ?_
      have hend : a.contentHash = b.contentHash := by simpa [lastHash] using hlast
      exact hha.trans (hend.trans hhb.symm)
    have hinj' : Set.InjOn sha256 (messages as ∪ messages bs) := by
      refine hinj.mono (Set.union_subset_union ?_ ?_) <;>
      · rintro m ⟨e, he, rfl⟩
        exact ⟨e, mem_append_left _ he, rfl⟩
    have hrest := ih (fun e he => hnul e (mem_append_left _ he)) hinj' ha hb
      (by simpa using hlen) (by rw [← hpa, ← hpb, hsame.prevHash])
    exact rel_append hrest (List.Forall₂.cons hsame List.Forall₂.nil)

lemma verifyFrom_replace (hbs : b.canonicalBytes = a.canonicalBytes)
    (hidx : b.index = a.index) (hprev : b.prevHash = a.prevHash)
    (hcont : b.contentHash = a.contentHash) (pre post : List AuditEntry) (i : UInt64)
    (prev : Digest) :
    verifyFrom sha256 i prev (pre ++ b :: post) = .ok () ↔
      verifyFrom sha256 i prev (pre ++ a :: post) = .ok () := by
  induction pre generalizing i prev with
  | nil =>
    rw [nil_append, nil_append, verifyFrom_cons_eq_ok_iff, verifyFrom_cons_eq_ok_iff,
      hidx, hprev, hcont, AuditEntry.recomputeHash, hbs, AuditEntry.recomputeHash]
  | cons e pre ih =>
    rw [cons_append, cons_append, verifyFrom_cons_eq_ok_iff, verifyFrom_cons_eq_ok_iff,
      ih]

lemma messages_replace (hbs : b.canonicalBytes = a.canonicalBytes)
    (pre post : List AuditEntry) : messages (pre ++ b :: post) = messages (pre ++ a :: post) := by
  ext m
  simp only [messages, Set.mem_ofPred_eq, mem_append, mem_cons, or_and_right, exists_or,
    exists_eq_left, hbs]

lemma sameFields_of_forall₂_replace (pre post : List AuditEntry)
    (h : List.Forall₂ AuditEntry.SameFields (pre ++ a :: post) (pre ++ b :: post)) :
    a.SameFields b := by
  induction pre with
  | nil => exact (forall₂_cons.mp h).1
  | cons e pre ih => exact ih (forall₂_cons.mp h).2

lemma AuditChain.verifyChain_eq (c : AuditChain) :
    c.verifyChain sha256 = verifyFrom sha256 0 genesisPrevHash c.entries := rfl

/-- **When the last content hash is tamper evident**: it and the length determine a verifying log
iff no string of the log contains a NUL. -/
theorem AuditChain.tamper_evident_iff {c : AuditChain} (hc : c.verifyChain sha256 = .ok ())
    (hsha : Set.InjOn sha256 (messages c.entries)) :
    (∀ c' : AuditChain, c'.verifyChain sha256 = .ok () →
        Set.InjOn sha256 (messages c.entries ∪ messages c'.entries) →
        c.entries.length = c'.entries.length →
        c.entries.getLast?.map AuditEntry.contentHash =
          c'.entries.getLast?.map AuditEntry.contentHash →
        List.Forall₂ AuditEntry.SameFields c.entries c'.entries) ↔
      ∀ e ∈ c.entries, e.NulFree := by
  constructor
  · intro hcom e he
    by_contra hnul
    obtain ⟨b, hbs, hidx, hprev, hcont, hdiff⟩ := AuditEntry.exists_canonicalBytes_eq hnul
    obtain ⟨pre, post, hspl⟩ := append_of_mem he
    -- the log with the double in the entry's place
    set c' : AuditChain := { c with entries := pre ++ b :: post } with hc'
    have hent : c'.entries = pre ++ b :: post := rfl
    have hv : c'.verifyChain sha256 = .ok () := by
      rw [verifyChain_eq, hent, verifyFrom_replace sha256 hbs hidx hprev hcont,
        ← hspl, ← verifyChain_eq, hc]
    have hmsg : messages c'.entries = messages c.entries := by
      rw [hent, hspl, messages_replace hbs]
    have hlen : c.entries.length = c'.entries.length := by
      rw [hent, hspl, length_append, length_append]
      rfl
    have hlast : c.entries.getLast?.map AuditEntry.contentHash =
        c'.entries.getLast?.map AuditEntry.contentHash := by
      rw [hent, hspl]
      cases post <;> simp [hcont]
    have hall := hcom c' hv (by rwa [hmsg, Set.union_self]) hlen hlast
    rw [hent, hspl] at hall
    exact hdiff (sameFields_of_forall₂_replace pre post hall)
  · intro hnul c' hc' hinj hlen hlast
    exact sameFields_of_lastHash sha256 hnul hinj hc hc' hlen (by rw [lastHash, lastHash, hlast])

def loginHash : Digest :=
  #v[189, 45, 7, 178, 118, 69, 121, 13, 70, 78, 227, 58, 119, 136, 171, 48, 219, 203, 75, 134, 158,
    163, 52, 200, 3, 247, 171, 50, 85, 240, 183, 100]

def logoutHash : Digest :=
  #v[227, 74, 24, 42, 25, 114, 39, 243, 38, 115, 58, 95, 66, 113, 95, 91, 205, 239, 100, 175, 93,
    79, 230, 186, 114, 130, 122, 188, 204, 83, 233, 87]

def loginLog : AuditChain :=
  ⟨[⟨0, 7, "login", "session", "ok", genesisPrevHash, loginHash⟩,
    ⟨1, 9, "logout", "session", "ok", loginHash, logoutHash⟩], RetentionPolicy.default⟩

/-- SHA-256 on the messages of `loginLog`, which differ in their indices. -/
def loginSha256 (message : List UInt8) : Digest :=
  if message[7]? = some 0 then loginHash else logoutHash

/-- It verifies and is determined by its length and its last content hash. -/
theorem AuditChain.tamper_evident_logout :
    loginLog.verifyChain loginSha256 = .ok () ∧
      ∀ c' : AuditChain, c'.verifyChain loginSha256 = .ok () →
        Set.InjOn loginSha256 (messages loginLog.entries ∪ messages c'.entries) →
        loginLog.entries.length = c'.entries.length →
        loginLog.entries.getLast?.map AuditEntry.contentHash =
          c'.entries.getLast?.map AuditEntry.contentHash →
        List.Forall₂ AuditEntry.SameFields loginLog.entries c'.entries := by
  have hver : loginLog.verifyChain loginSha256 = .ok () := by decide
  have hinj : ∀ e ∈ loginLog.entries, ∀ e' ∈ loginLog.entries,
      loginSha256 e.canonicalBytes = loginSha256 e'.canonicalBytes → e = e' := by decide
  refine ⟨hver, (AuditChain.tamper_evident_iff loginSha256 hver ?_).mpr ?_⟩
  · rintro x ⟨e, he, rfl⟩ y ⟨e', he', rfl⟩ heq
    rw [hinj e he e' he' heq]
  · unfold AuditEntry.NulFree
    decide

/-- With any hash function, the event `a\0b` of `c` and the event `a` of `b\0c` make logs with the
same end. -/
theorem AuditChain.nul_moves_between_fields :
    ¬ ∃ sha256 : List UInt8 → Digest, ∀ c c' : AuditChain,
      Set.InjOn sha256 (messages c.entries ∪ messages c'.entries) →
      c.verifyChain sha256 = .ok () → c'.verifyChain sha256 = .ok () →
      c.entries.length = c'.entries.length →
      c.entries.getLast?.map AuditEntry.contentHash =
        c'.entries.getLast?.map AuditEntry.contentHash →
      List.Forall₂ AuditEntry.SameFields c.entries c'.entries := by
  rintro ⟨sha256, h⟩
  let entry := fun event component => newEntry sha256 [] 1 event component "d"
  have hbs : (entry "a" "b\x00c").canonicalBytes = (entry "a\x00b" "c").canonicalBytes := rfl
  have hv : ∀ event component, verifyFrom sha256 0 genesisPrevHash [entry event component] =
      .ok () := fun _ _ => (verifyFrom_cons_eq_ok_iff ..).mpr ⟨rfl, rfl, rfl, rfl⟩
  have hinj : Set.InjOn sha256 (messages [entry "a\x00b" "c"] ∪ messages [entry "a" "b\x00c"]) := by
    simp [messages, hbs]
  have hall := h ⟨[entry "a\x00b" "c"], .default⟩ ⟨[entry "a" "b\x00c"], .default⟩ hinj (hv _ _)
    (hv _ _) rfl (congrArg (fun m => some (sha256 m)) hbs.symm)
  exact absurd (forall₂_cons.mp hall).1.event (by decide : "a\x00b" ≠ "a")

end Aether.Security
