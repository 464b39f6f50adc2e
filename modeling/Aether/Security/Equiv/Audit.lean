import Aether.Algorithm.HashChain
import Aether.Algorithm.Recent
import Aether.Security.Audit

/-!
# When an audit log verifies

`prune_older_than` renumbers, re-links and re-hashes what it keeps, so it never breaks the chain;
`record` at capacity and `restore_from` drop the oldest entries without renumbering the rest.
-/

namespace Aether.Security

open Option

variable (sha256 : List UInt8 → Digest)

variable (i : UInt64) (prev : Digest) (es : List AuditEntry)

@[simp] lemma verifyFrom_nil : verifyFrom sha256 i prev [] = .ok () := rfl

lemma verifyFrom_cons_eq_ok_iff (e : AuditEntry) (es : List AuditEntry) :
    verifyFrom sha256 i prev (e :: es) = .ok () ↔
      e.index = i ∧ e.prevHash = prev ∧ e.recomputeHash sha256 = e.contentHash ∧
        verifyFrom sha256 (i + 1) e.contentHash es = .ok () := by
  rw [verifyFrom]
  split_ifs with hidx hprev hhash
  · simp [hidx]
  · simp [hprev]
  · simp [hhash]
  · simp only [ne_eq, not_not] at hidx hprev hhash
    simp [hidx, hprev, hhash]

def lastHash (prev : Digest) (es : List AuditEntry) : Digest :=
  (es.getLast?.map AuditEntry.contentHash).getD prev

def AuditEntry.format : HashChain.Format AuditEntry Digest where
  index := AuditEntry.index
  prev := AuditEntry.prevHash
  hash := AuditEntry.contentHash
  recompute := AuditEntry.recomputeHash sha256
  stamp i prev e :=
    let e := { e with index := i, prevHash := prev }
    { e with contentHash := e.recomputeHash sha256 }
  index_stamp _ _ _ := rfl
  prev_stamp _ _ _ := rfl
  recompute_stamp _ _ _ := rfl

lemma verifyFrom_eq_ok_iff :
    verifyFrom sha256 i prev es = .ok () ↔
      HashChain.Verified (AuditEntry.format sha256) i prev es := by
  induction es generalizing i prev with
  | nil => exact iff_of_true rfl trivial
  | cons e es ih =>
    rw [verifyFrom_cons_eq_ok_iff, ih]
    rfl

lemma restamp_eq :
    restamp sha256 i prev es = HashChain.restamp (AuditEntry.format sha256) i prev es := by
  induction es generalizing i prev with
  | nil => rfl
  | cons e es ih => exact congrArg (List.cons _) (ih _ _)

lemma verifyFrom_concat (e : AuditEntry) :
    verifyFrom sha256 i prev (es ++ [e]) = .ok () ↔
      verifyFrom sha256 i prev es = .ok () ∧ e.index = i + UInt64.ofNat es.length ∧
        e.prevHash = lastHash prev es ∧ e.recomputeHash sha256 = e.contentHash := by
  rw [verifyFrom_eq_ok_iff, verifyFrom_eq_ok_iff, HashChain.verified_concat]
  rfl

lemma verifyFrom_restamp : verifyFrom sha256 i prev (restamp sha256 i prev es) = .ok () := by
  rw [verifyFrom_eq_ok_iff, restamp_eq]
  exact HashChain.verified_restamp

def AuditChain.Intact (c : AuditChain) : Prop := c.verifyChain sha256 = .ok ()

def AuditChain.RecordFits (c : AuditChain) : Prop :=
  c.retention.maxEntries.toNat = 2 ^ 64 - 1 ∨
    c.entries.length < c.retention.maxEntries.toNat ∨ c.entries.length = 1

def AuditChain.RestoreFits (c : AuditChain) (entries : List AuditEntry) : Prop :=
  verifyFrom sha256 0 genesisPrevHash entries ≠ .ok () ∨ c.retention.maxEntries = 0 ∨
    entries.length ≤ c.retention.maxEntries.toNat

/-- A `record` finds room or a single entry, and an accepted `restore_from` fits the capacity. -/
def AuditOp.Fits (c : AuditChain) : AuditOp → Prop
  | .record _ _ _ _ => c.RecordFits
  | .pruneOlderThan _ => True
  | .restoreFrom entries _ => c.RestoreFits sha256 entries

lemma AuditChain.evict_eq (c : AuditChain) :
    c.evict = if c.retention.maxEntries.toNat = 2 ^ 64 - 1 ∨
        c.entries.length < c.retention.maxEntries.toNat then some c.entries
      else removeFirst c.entries := by
  unfold evict checkedAdd
  have hbou := c.retention.maxEntries.toNat_lt
  by_cases hmax : c.retention.maxEntries.toNat = 2 ^ 64 - 1
  · rw [if_pos (Or.inl hmax), if_neg (by rw [hmax]; decide)]
  · have hlt : c.retention.maxEntries.toNat + 1 < 2 ^ 64 := by omega
    have hcap : c.retention.maxEntries + 1 ≠ 0 := by
      intro h0
      have hnat := congrArg UInt64.toNat h0
      rw [UInt64.toNat_add, UInt64.toNat_one, Nat.mod_eq_of_lt hlt] at hnat
      simp at hnat
    rw [if_pos (by simpa using hlt)]
    simp only [ne_eq, hcap, not_false_eq_true, true_and, ge_iff_le, hmax, false_or]
    by_cases hlen : c.retention.maxEntries.toNat ≤ c.entries.length
    · rw [if_pos hlen, if_neg (by omega)]
    · rw [if_neg hlen, if_pos (by omega)]

lemma append_singleton_eq_cons_iff {α : Type*} {l : List α} {a b : α} :
    l ++ [b] = a :: l ↔ ∀ x ∈ a :: l, x = b := by
  induction l generalizing a with
  | nil => simp [eq_comm]
  | cons c l ih =>
    rw [List.cons_append, List.cons.injEq, ih]
    constructor
    · rintro ⟨rfl, hall⟩ x hx
      rcases List.mem_cons.mp hx with rfl | hx
      · exact hall x (List.mem_cons_self ..)
      · exact hall x hx
    · intro hall
      have hca : c = a := (hall c (by simp)).trans (hall a (by simp)).symm
      exact ⟨hca, fun x hx => hall x (List.mem_cons_of_mem a hx)⟩

/-- The log is full of the record that is to be made. -/
structure AuditChain.Saturated (c : AuditChain) (ts : UInt64) (ev co de : String) : Prop where
  full : c.retention.maxEntries.toNat ≠ 2 ^ 64 - 1 ∧
    c.retention.maxEntries.toNat ≤ c.entries.length
  entries : ∀ e ∈ c.entries, e = newEntry sha256 c.entries.tail ts ev co de

variable {c : AuditChain} {entries : List AuditEntry}

lemma AuditChain.record_eq_self_iff {c' : AuditChain} {ts i : UInt64} {ev co de : String}
    (h : c.record sha256 ts ev co de = some (c', i)) : c' = c ↔ c.Saturated sha256 ts ev co de := by
  unfold record at h
  obtain ⟨kept, hkept, heq⟩ := map_eq_some_iff.mp h
  cases heq
  have hself : ({ c with entries := kept ++ [newEntry sha256 kept ts ev co de] } = c) ↔
      kept ++ [newEntry sha256 kept ts ev co de] = c.entries :=
    ⟨fun hc => congrArg AuditChain.entries hc, fun he => by rw [he]⟩
  rw [hself]
  rw [evict_eq] at hkept
  split_ifs at hkept with hroom
  · -- nothing is dropped, so the log grows
    cases hkept
    refine ⟨fun hlen => absurd (congrArg List.length hlen) (by simp), fun hsat => ?_⟩
    have hfull := hsat.full
    omega
  · cases hes : c.entries with
    | nil =>
      rw [hes] at hkept
      cases hkept
    | cons e es =>
      rw [hes] at hkept
      cases hkept
      rw [append_singleton_eq_cons_iff]
      constructor
      · intro hall
        refine ⟨by omega, ?_⟩
        rw [hes]
        exact hall
      · intro hsat
        have hent := hsat.entries
        rw [hes] at hent
        exact hent

lemma verifyFrom_newEntry (entries : List AuditEntry) (ts : UInt64) (ev co de : String) :
    verifyFrom sha256 0 genesisPrevHash
        (entries ++ [AuditChain.newEntry sha256 entries ts ev co de]) = .ok () ↔
      verifyFrom sha256 0 genesisPrevHash entries = .ok () := by
  rw [verifyFrom_concat]
  refine ⟨fun h => h.1, fun h => ⟨h, ?_, rfl, rfl⟩⟩
  rw [UInt64.zero_add]
  rfl

lemma AuditChain.record_intact_iff (hc : c.Intact sha256) (ts : UInt64) (ev co de : String) :
    (∃ c', (c.record sha256 ts ev co de).map Prod.fst = some c' ∧ c'.Intact sha256) ↔
      c.RecordFits := by
  have hrec : (c.record sha256 ts ev co de).map Prod.fst = c.evict.map fun entries =>
      { c with entries := entries ++ [newEntry sha256 entries ts ev co de] } := by
    unfold record
    rw [map_map]
    rfl
  rw [hrec, evict_eq]
  unfold Intact verifyChain at *
  by_cases hroom : c.retention.maxEntries.toNat = 2 ^ 64 - 1 ∨
      c.entries.length < c.retention.maxEntries.toNat
  · rw [if_pos hroom]
    simp only [map_some, some.injEq, exists_eq_left', verifyFrom_newEntry]
    exact ⟨fun _ => hroom.imp_right Or.inl, fun _ => hc⟩
  · rw [if_neg hroom]
    have hfits : c.RecordFits ↔ c.entries.length = 1 := by
      unfold RecordFits; tauto
    rw [hfits]
    cases hes : c.entries with
    | nil => simp [removeFirst]
    | cons e es =>
      simp only [removeFirst, map_some, some.injEq, exists_eq_left',
        verifyFrom_newEntry, List.length_cons, Nat.add_eq_right, List.length_eq_zero_iff]
      -- the new head, if there is one, still carries the index of the second position
      rw [hes, verifyFrom_eq_ok_iff] at hc
      rw [verifyFrom_eq_ok_iff]
      exact HashChain.verified_tail_iff hc

lemma AuditChain.prune_intact (hc : c.Intact sha256) (nowMs : UInt64) :
    (c.pruneOlderThan sha256 nowMs).1.Intact sha256 := by
  unfold pruneOlderThan
  split_ifs with hage
  · exact hc
  · dsimp only
    split
    · rfl
    · exact hc
    · exact verifyFrom_restamp sha256 0 genesisPrevHash _

lemma AuditChain.step_restoreFrom_rejected (c : AuditChain) (hlen : entries.length < 2 ^ 64)
    (hv : verifyFrom sha256 0 genesisPrevHash entries ≠ .ok ()) :
    c.step sha256 (.restoreFrom entries hlen) = some c := by
  cases h : verifyFrom sha256 0 genesisPrevHash entries with
  | error e => simp only [step, restoreFrom, h]
  | ok u => exact absurd h hv

def AuditChain.kept (c : AuditChain) (entries : List AuditEntry) : List AuditEntry :=
  if c.retention.maxEntries ≠ 0 ∧ entries.length > c.retention.maxEntries.toNat then
    entries.drop (entries.length - c.retention.maxEntries.toNat)
  else entries

lemma AuditChain.step_restoreFrom_accepted (c : AuditChain) (hlen : entries.length < 2 ^ 64)
    (hv : verifyFrom sha256 0 genesisPrevHash entries = .ok ()) :
    c.step sha256 (.restoreFrom entries hlen) = some { c with entries := c.kept entries } := by
  simp only [step, restoreFrom, hv, kept]
  by_cases hcap : c.retention.maxEntries ≠ 0 ∧ entries.length > c.retention.maxEntries.toNat
  · rw [if_pos hcap, if_pos hcap]
  · rw [if_neg hcap, if_neg hcap]

lemma verifyFrom_drop_ne_ok {n : ℕ} (hn : 0 < n) (hlt : n < entries.length)
    (hlen : entries.length < 2 ^ 64) (hv : verifyFrom sha256 0 genesisPrevHash entries = .ok ()) :
    verifyFrom sha256 0 genesisPrevHash (entries.drop n) ≠ .ok () := by
  rw [verifyFrom_eq_ok_iff] at hv
  rw [ne_eq, verifyFrom_eq_ok_iff]
  exact HashChain.not_verified_drop hn hlt (hlt.trans hlen) hv

lemma AuditChain.restore_intact_iff (hc : c.Intact sha256) (entries : List AuditEntry)
    (hlen : entries.length < 2 ^ 64) :
    (∃ c', c.step sha256 (.restoreFrom entries hlen) = some c' ∧ c'.Intact sha256) ↔
      c.RestoreFits sha256 entries := by
  unfold RestoreFits
  by_cases hv : verifyFrom sha256 0 genesisPrevHash entries = .ok ()
  · rw [step_restoreFrom_accepted sha256 c hlen hv]
    simp only [some.injEq, exists_eq_left', Intact, verifyChain, kept, hv, ne_eq,
      not_true_eq_false, false_or, gt_iff_lt]
    by_cases hcap : ¬ c.retention.maxEntries = 0 ∧
        c.retention.maxEntries.toNat < entries.length
    · have hmax : c.retention.maxEntries.toNat ≠ 0 := fun h0 => hcap.1 (UInt64.toNat_inj.mp h0)
      rw [if_pos hcap]
      have hdrop : 0 < entries.length - c.retention.maxEntries.toNat := by omega
      refine iff_of_false (verifyFrom_drop_ne_ok sha256 hdrop (by omega) hlen hv) ?_
      rintro (h | h)
      · exact hcap.1 h
      · omega
    · rw [if_neg hcap]
      refine iff_of_true hv ?_
      by_cases h0 : c.retention.maxEntries = 0
      · exact Or.inl h0
      · exact Or.inr (not_lt.mp fun h => hcap ⟨h0, h⟩)
  · rw [step_restoreFrom_rejected sha256 c hlen hv]
    simp [hc, hv]

/-- **Step lemma**: from a verifying log, a call returns in a verifying log iff it fits. -/
theorem AuditChain.step_intact_iff (hc : c.Intact sha256) (op : AuditOp) :
    (∃ c', c.step sha256 op = some c' ∧ c'.Intact sha256) ↔ op.Fits sha256 c := by
  cases op with
  | record ts ev co de => exact record_intact_iff sha256 hc ts ev co de
  | pruneOlderThan nowMs =>
    simp only [step, some.injEq, exists_eq_left', AuditOp.Fits, iff_true]
    exact prune_intact sha256 hc nowMs
  | restoreFrom entries hlen => exact restore_intact_iff sha256 hc entries hlen

/-- **Which runs keep the log intact**: from a new log, every call returns and every state reached
verifies iff every operation fits. -/
theorem AuditChain.exec_intact_iff (retention : RetentionPolicy) (ops : List AuditOp) :
    (∀ ops', ops' <+: ops → ∃ c, Run.exec (AuditChain.step sha256) (AuditChain.new retention) ops'
        = some c ∧ c.verifyChain sha256 = .ok ()) ↔
      Run.Along (AuditChain.step sha256) (AuditOp.Fits sha256) (AuditChain.new retention) ops := by
  have hstep : ∀ (c : AuditChain) (op : AuditOp), True → c.Intact sha256 →
      ((∃ c', c.step sha256 op = some c' ∧ c'.Intact sha256) ↔ op.Fits sha256 c) :=
    fun c op _ hc => step_intact_iff sha256 hc op
  have hrun := Run.always_iff_along (I := fun _ => True) (fun _ _ _ _ _ => trivial) hstep
    trivial (s := AuditChain.new retention) rfl ops
  exact Run.always_iff_prefix.symm.trans hrun

/-- With any hash function, a log of capacity two that records three events reports an index gap
in itself. -/
theorem AuditChain.evicting_log_does_not_verify :
    ¬ ∃ sha256 : List UInt8 → Digest, ∀ (retention : RetentionPolicy) (ops : List AuditOp),
      ∃ c, Run.exec (AuditChain.step sha256) (AuditChain.new retention) ops = some c ∧
        c.verifyChain sha256 = .ok () := by
  rintro ⟨sha256, h⟩
  let ops : List AuditOp :=
    [.record 1 "e" "c" "d0", .record 2 "e" "c" "d1", .record 3 "e" "c" "d2"]
  obtain ⟨c, hc, hv⟩ := h (RetentionPolicy.lastN 2) ops
  have hgap : (Run.exec (AuditChain.step sha256) (AuditChain.new (RetentionPolicy.lastN 2))
      ops).map (AuditChain.verifyChain sha256) = some (.error (.indexGap 1)) := rfl
  rw [hc, map_some, hv] at hgap
  cases hgap

/-!
## What an audit log retains

With `max_entries = 0`, which the documentation calls unbounded, `record` removes from an empty log
and fails: `exec_retains_iff`.
-/

open List

structure AuditEvent where
  timestampMs : UInt64
  event : String
  component : String
  detail : String
  deriving DecidableEq

def AuditEvent.record (e : AuditEvent) : AuditOp :=
  .record e.timestampMs e.event e.component e.detail

def AuditEntry.recorded (e : AuditEntry) : AuditEvent :=
  ⟨e.timestampMs, e.event, e.component, e.detail⟩

def RetentionPolicy.retained (retention : RetentionPolicy) (events : List AuditEvent) :
    List AuditEvent :=
  if retention.maxEntries = 0 then events else events.rtake retention.maxEntries.toNat

def RetentionPolicy.held (retention : RetentionPolicy) (events : List AuditEvent) :
    List AuditEvent :=
  if retention.maxEntries.toNat = 2 ^ 64 - 1 then events
  else events.rtake retention.maxEntries.toNat

namespace AuditChain

lemma map_recorded_step (c : AuditChain) (e : AuditEvent) :
    (c.step sha256 e.record).map (fun c' => (c'.entries.map AuditEntry.recorded, c'.retention)) =
      c.evict.map fun kept => (kept.map AuditEntry.recorded ++ [e], c.retention) := by
  simp only [AuditEvent.record, step, record, Option.map_map]
  cases c.evict with
  | none => rfl
  | some kept =>
    simp only [Option.map_some, Function.comp_apply, map_append]
    rfl

lemma step_record_held {events : List AuditEvent} (hmax : c.retention.maxEntries ≠ 0)
    (hheld : c.entries.map AuditEntry.recorded = c.retention.held events) (e : AuditEvent) :
    ∃ c', c.step sha256 e.record = some c' ∧ c'.retention = c.retention ∧
      c'.entries.map AuditEntry.recorded = c.retention.held (events ++ [e]) := by
  have hne : c.retention.maxEntries.toNat ≠ 0 := fun h0 => hmax (UInt64.toNat_inj.mp h0)
  have hlen := congrArg length hheld
  rw [length_map] at hlen
  -- it is enough to know the events of what is kept
  suffices hkept : ∃ kept, c.evict = some kept ∧
      kept.map AuditEntry.recorded ++ [e] = c.retention.held (events ++ [e]) by
    obtain ⟨kept, hevi, heve⟩ := hkept
    have hstep := map_recorded_step sha256 c e
    rw [hevi, Option.map_some] at hstep
    obtain ⟨c', hc', heq⟩ := Option.map_eq_some_iff.mp hstep
    obtain ⟨hent, hret⟩ := Prod.mk.inj heq
    exact ⟨c', hc', hret, hent.trans heve⟩
  rw [evict_eq]
  unfold RetentionPolicy.held at hheld hlen ⊢
  by_cases hlar : c.retention.maxEntries.toNat = 2 ^ 64 - 1
  · rw [if_pos hlar] at hheld
    rw [if_pos (.inl hlar), if_pos hlar]
    exact ⟨c.entries, rfl, by rw [hheld]⟩
  · rw [if_neg hlar] at hheld hlen
    rw [if_neg hlar]
    rw [Recent.length_rtake] at hlen
    by_cases hroom : c.entries.length < c.retention.maxEntries.toNat
    · -- fewer events than places: none was dropped
      have hall : events.length < c.retention.maxEntries.toNat := by omega
      rw [if_pos (.inr hroom)]
      refine ⟨c.entries, rfl, ?_⟩
      rw [hheld, Recent.rtake_of_length_le hall.le, Recent.rtake_of_length_le]
      rw [length_append, length_singleton]
      exact hall
    · rw [if_neg (by tauto)]
      cases hent : c.entries with
      | nil =>
        rw [hent, length_nil] at hroom
        omega
      | cons first rest =>
        refine ⟨rest, rfl, ?_⟩
        have htail : rest.map AuditEntry.recorded =
            (events.rtake c.retention.maxEntries.toNat).tail := by
          rw [← hheld, hent]
          rfl
        rw [htail, Recent.tail_rtake_concat hne (by omega)]

lemma step_record_eq_none (hmax : c.retention.maxEntries = 0) (hemp : c.entries = [])
    (e : AuditEvent) : c.step sha256 e.record = none := by
  have hevi : c.evict = none := by
    rw [evict_eq, hmax, hemp]
    rfl
  rw [AuditEvent.record, step, record, hevi]
  rfl

lemma exec_record_held {retention : RetentionPolicy} (hmax : retention.maxEntries ≠ 0)
    (events : List AuditEvent) :
    ∃ c, Run.exec (step sha256) (new retention) (events.map AuditEvent.record) = some c ∧
      c.retention = retention ∧ c.entries.map AuditEntry.recorded = retention.held events := by
  induction events using reverseRecOn with
  | nil =>
    refine ⟨new retention, rfl, rfl, ?_⟩
    unfold RetentionPolicy.held
    split_ifs
    · rfl
    · exact (rtake_nil _).symm
  | append_singleton events e ih =>
    obtain ⟨c, hc, rfl, hheld⟩ := ih
    obtain ⟨c', hc', hret, hheld'⟩ := step_record_held sha256 hmax hheld e
    refine ⟨c', ?_, hret, hheld'⟩
    rw [map_append, map_singleton, Run.exec_concat, hc]
    exact hc'

lemma held_eq_retained_iff {retention : RetentionPolicy} (hmax : retention.maxEntries ≠ 0)
    (events : List AuditEvent) : retention.held events = retention.retained events ↔
      (retention.maxEntries.toNat = 2 ^ 64 - 1 → events.length ≤ 2 ^ 64 - 1) := by
  unfold RetentionPolicy.held RetentionPolicy.retained
  rw [if_neg hmax]
  by_cases hlar : retention.maxEntries.toNat = 2 ^ 64 - 1
  · rw [if_pos hlar, hlar]
    refine ⟨fun heq _ => ?_, fun hle => (Recent.rtake_of_length_le (hle rfl)).symm⟩
    have hlen := congrArg length heq
    rw [Recent.length_rtake] at hlen
    exact hlen.trans_le (min_le_left ..)
  · rw [if_neg hlar]
    exact iff_of_true rfl fun h => absurd h hlar

/-- **When a log retains what its policy says**: a run of `record` calls on a new log returns, with
the events that the policy retains, iff there is a limit (or no call), and the largest limit, which
is never applied, is not exceeded. -/
theorem exec_retains_iff (retention : RetentionPolicy) (events : List AuditEvent) :
    (∃ c, Run.exec (step sha256) (new retention) (events.map AuditEvent.record) = some c ∧
        c.entries.map AuditEntry.recorded = retention.retained events) ↔
      (events = [] ∨ retention.maxEntries ≠ 0) ∧
        (retention.maxEntries.toNat = 2 ^ 64 - 1 → events.length ≤ 2 ^ 64 - 1) := by
  by_cases hmax : retention.maxEntries = 0
  · have hzero : retention.maxEntries.toNat ≠ 2 ^ 64 - 1 := by
      rw [hmax]
      decide
    cases events with
    | nil =>
      refine iff_of_true ⟨new retention, rfl, ?_⟩ ⟨.inl rfl, fun h => absurd h hzero⟩
      rw [RetentionPolicy.retained, if_pos hmax]
      rfl
    | cons e events =>
      refine iff_of_false ?_ fun h => h.1.elim (cons_ne_nil e events) fun hne => hne hmax
      rintro ⟨c, hc, -⟩
      rw [map_cons, Run.exec, step_record_eq_none sha256 hmax rfl] at hc
      cases hc
  · obtain ⟨c, hc, -, hheld⟩ := exec_record_held sha256 hmax events
    rw [← held_eq_retained_iff hmax, hc]
    constructor
    · rintro ⟨c', hc', hret⟩
      cases hc'
      exact ⟨.inr hmax, hheld.symm.trans hret⟩
    · rintro ⟨-, heq⟩
      exact ⟨c, rfl, hheld.trans heq⟩

/-- With any hash function, the first event for a log without a limit is not recorded: the call
fails. -/
theorem unbounded_log_fails :
    ¬ ∃ sha256 : List UInt8 → Digest, ∀ (retention : RetentionPolicy) (events : List AuditEvent),
      ∃ c, Run.exec (step sha256) (new retention) (events.map AuditEvent.record) = some c ∧
        c.entries.map AuditEntry.recorded = retention.retained events := by
  rintro ⟨sha256, h⟩
  obtain ⟨c, hc, -⟩ := h (RetentionPolicy.lastN 0) [⟨1, "e", "c", "d"⟩]
  have hfai : Run.exec (step sha256) (new (RetentionPolicy.lastN 0))
      [AuditOp.record 1 "e" "c" "d"] = none := rfl
  exact Option.some_ne_none c (hc.symm.trans hfai)

end AuditChain

end Aether.Security
