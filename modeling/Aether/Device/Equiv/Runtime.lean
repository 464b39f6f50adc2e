import Aether.Device.Runtime

/-!
# Replay protection of the device runtime

The runtime counts the observations and the proposals of a peer apart, while the peer numbers both
with one counter.
-/

namespace Aether.Device

open List

variable {Observation Proposal : Type}

def RemoteDeliveryKind.other : RemoteDeliveryKind → RemoteDeliveryKind
  | .observation => .proposal
  | .proposal => .observation

lemma RemoteDeliveryKind.eq_or_eq_other (kind kind' : RemoteDeliveryKind) :
    kind' = kind ∨ kind' = kind.other := by
  cases kind <;> cases kind' <;> simp [other]

namespace DeviceRuntime

variable (r : DeviceRuntime) (d : Delivery Observation Proposal)

lemma deliver_eq : r.deliver d = r.accept d.kind d.source d.nowMs := by
  cases d <;> rfl

lemma deliver_cases :
    (∃ e, r.deliver d = (.rejected e, r)) ∨
      (r.peer d.sender).lastSeq d.kind < d.seq ∧
        r.deliver d = (.accepted, { r with
          peerState := r.peerState.insert d.sender.value
            ((r.peer d.sender).setLastSeq d.seq d.kind) }) := by
  rw [deliver_eq, accept]
  cases hget : r.registry.get d.source.deviceId with
  | none => exact .inl ⟨_, rfl⟩
  | some peer =>
    cases hres : acceptRemoteDelivery peer.pairing.state peer.pairing.grant peer.pairing.fingerprint
        d.source ((r.peer d.source.deviceId).lastSeq d.kind) r.skewMs d.nowMs d.kind with
    | error e => exact .inl ⟨e, by simp only [hres]⟩
    | ok u =>
      refine .inr ⟨lt_seq_of_acceptRemoteDelivery hres, ?_⟩
      simp only [hres]
      rfl

abbrev after : DeviceRuntime := Keyed.next deliver r d

variable {r d}

lemma after_of_rejected {e : RemoteDeliveryError} (h : (r.deliver d).1 = .rejected e) :
    r.after d = r := by
  rcases r.deliver_cases d with ⟨e', heq⟩ | ⟨-, heq⟩
  · rw [after, Keyed.next, heq]
  · rw [heq] at h
    cases h

lemma lt_seq_of_accepted (h : (r.deliver d).1 = .accepted) :
    (r.peer d.sender).lastSeq d.kind < d.seq := by
  rcases r.deliver_cases d with ⟨e, heq⟩ | ⟨hseq, -⟩
  · rw [heq] at h
    cases h
  · exact hseq

lemma peer_insert (r : DeviceRuntime) (id id' : DeviceId) (p : PeerState) :
    { r with peerState := r.peerState.insert id.value p }.peer id'
      = if id' = id then p else r.peer id' := by
  have hval : id'.value = id.value ↔ id' = id := ⟨congrArg DeviceId.mk, congrArg DeviceId.value⟩
  simp only [peer, AssocList.lookup_insert, hval]
  split_ifs <;> rfl

lemma peer_after (r : DeviceRuntime) (d : Delivery Observation Proposal) (id : DeviceId) :
    (r.after d).peer id =
      if (r.deliver d).1 = .accepted ∧ id = d.sender then (r.peer id).setLastSeq d.seq d.kind
      else r.peer id := by
  rcases r.deliver_cases d with ⟨e, heq⟩ | ⟨-, heq⟩
  · rw [after, Keyed.next, heq]
    rfl
  · rw [after, Keyed.next, heq, peer_insert]
    by_cases hid : id = d.sender <;> simp [hid]

lemma registry_after (r : DeviceRuntime) (d : Delivery Observation Proposal) :
    (r.after d).registry = r.registry ∧ (r.after d).skewMs = r.skewMs := by
  rcases r.deliver_cases d with ⟨e, heq⟩ | ⟨-, heq⟩
  · rw [after, Keyed.next, heq]
    exact ⟨rfl, rfl⟩
  · rw [after, Keyed.next, heq]
    exact ⟨rfl, rfl⟩

def view (r : DeviceRuntime) (id : DeviceId) : (DeviceRegistry × UInt64) × PeerState :=
  ((r.registry, r.skewMs), r.peer id)

lemma view_eq_iff {r r' : DeviceRuntime} {id : DeviceId} :
    r.view id = r'.view id ↔
      (r.registry = r'.registry ∧ r.skewMs = r'.skewMs) ∧ r.peer id = r'.peer id := by
  rw [view, view, Prod.mk.injEq, Prod.mk.injEq]

lemma deliver_fst_of_view {r r' : DeviceRuntime}
    (h : r.view d.sender = r'.view d.sender) : (r.deliver d).1 = (r'.deliver d).1 := by
  obtain ⟨⟨hreg, hskew⟩, hpeer⟩ := view_eq_iff.mp h
  rw [deliver_eq, deliver_eq, accept, accept, hreg, hskew]
  cases r'.registry.get d.source.deviceId with
  | none => rfl
  | some entry =>
    rw [Delivery.sender] at hpeer
    simp only [hpeer]
    split <;> rfl

lemma isLocal_deliver :
    Keyed.Local (@deliver Observation Proposal) Delivery.sender view where
  answer r r' d h := deliver_fst_of_view h
  own r r' d h := by
    obtain ⟨⟨hreg, hskew⟩, hpeer⟩ := view_eq_iff.mp h
    rw [view_eq_iff, (registry_after r d).1, (registry_after r d).2, (registry_after r' d).1,
      (registry_after r' d).2, peer_after, peer_after, deliver_fst_of_view h, hpeer]
    exact ⟨⟨hreg, hskew⟩, rfl⟩
  frame r d id hid := by
    rw [view_eq_iff, (registry_after r d).1, (registry_after r d).2, peer_after,
      if_neg fun h => hid h.2.symm]
    exact ⟨⟨rfl, rfl⟩, rfl⟩

def run (r : DeviceRuntime) (ds : List (Delivery Observation Proposal)) : DeviceRuntime :=
  ds.foldl after r

def acceptedFrom (r : DeviceRuntime) (ds : List (Delivery Observation Proposal)) (id : DeviceId) :
    List (Delivery Observation Proposal) :=
  ((Keyed.trace deliver r ds).filter fun p => p.2 = .accepted ∧ p.1.sender = id).map Prod.fst

lemma acceptedFrom_concat (r : DeviceRuntime) (ds : List (Delivery Observation Proposal))
    (d : Delivery Observation Proposal) (id : DeviceId) :
    r.acceptedFrom (ds ++ [d]) id = r.acceptedFrom ds id ++
      if ((r.run ds).deliver d).1 = .accepted ∧ d.sender = id then [d] else [] := by
  rw [acceptedFrom, Keyed.trace_concat, filter_append, map_append, acceptedFrom]
  congr 1
  rw [← run]
  split_ifs with h
  · simp [h]
  · simp [h]

lemma run_concat (r : DeviceRuntime) (ds : List (Delivery Observation Proposal))
    (d : Delivery Observation Proposal) : r.run (ds ++ [d]) = (r.run ds).after d := by
  rw [run, foldl_append]
  rfl

end DeviceRuntime

structure Tracks (p : PeerState) (accepted : List (Delivery Observation Proposal)) : Prop where
  le : ∀ d ∈ accepted, d.seq ≤ p.lastSeq d.kind
  reached : ∀ kind, p.lastSeq kind = 0 ∨
    ∃ d ∈ accepted, d.kind = kind ∧ d.seq = p.lastSeq kind

namespace Tracks

variable {p : PeerState} {accepted : List (Delivery Observation Proposal)}
  {d : Delivery Observation Proposal}

lemma default : Tracks PeerState.default ([] : List (Delivery Observation Proposal)) where
  le d h := by cases h
  reached kind := .inl (by cases kind <;> rfl)

lemma concat (h : Tracks p accepted) (hseq : p.lastSeq d.kind < d.seq) :
    Tracks (p.setLastSeq d.seq d.kind) (accepted ++ [d]) where
  le d' hd' := by
    rw [PeerState.lastSeq_setLastSeq]
    rcases mem_append.mp hd' with hold | hnew
    · split_ifs with hkind
      · have hle := h.le d' hold
        rw [hkind] at hle
        exact UInt64.le_of_lt (UInt64.lt_of_le_of_lt hle hseq)
      · exact h.le d' hold
    · obtain rfl := mem_singleton.mp hnew
      rw [if_pos rfl]
      exact UInt64.le_refl _
  reached kind := by
    rw [PeerState.lastSeq_setLastSeq]
    split_ifs with hkind
    · exact .inr ⟨d, mem_append_right _ (mem_singleton_self d), hkind.symm, rfl⟩
    · rcases h.reached kind with hzero | ⟨d', hd', hkind', hlast⟩
      · exact .inl hzero
      · exact .inr ⟨d', mem_append_left _ hd', hkind', hlast⟩

lemma forall_lt_iff (h : Tracks p accepted) (hseq : p.lastSeq d.kind < d.seq) :
    (∀ d' ∈ accepted, d'.seq < d.seq) ↔ p.lastSeq d.kind.other < d.seq := by
  constructor
  · intro hall
    rcases h.reached d.kind.other with hzero | ⟨d', hd', -, hlast⟩
    · rw [hzero]
      exact UInt64.lt_of_le_of_lt (UInt64.zero_le) hseq
    · rw [← hlast]
      exact hall d' hd'
  · intro hoth d' hd'
    have hle : d'.seq ≤ p.lastSeq d'.kind := h.le d' hd'
    rcases d.kind.eq_or_eq_other d'.kind with hkind | hkind
    · rw [hkind] at hle
      exact UInt64.lt_of_le_of_lt hle hseq
    · rw [hkind] at hle
      exact UInt64.lt_of_le_of_lt hle hoth

end Tracks

namespace DeviceRuntime

lemma tracks_acceptedFrom (registry : DeviceRegistry) (skewMs : UInt64)
    (ds : List (Delivery Observation Proposal)) (id : DeviceId) :
    Tracks (((new registry skewMs).run ds).peer id) ((new registry skewMs).acceptedFrom ds id) := by
  induction ds using reverseRecOn with
  | nil => exact Tracks.default
  | append_singleton ds d ih =>
    rw [run_concat, peer_after, acceptedFrom_concat]
    by_cases h : (((new registry skewMs).run ds).deliver d).1 = .accepted ∧ d.sender = id
    · obtain ⟨hacc, rfl⟩ := h
      rw [if_pos ⟨hacc, rfl⟩, if_pos ⟨hacc, rfl⟩]
      exact ih.concat (lt_seq_of_accepted hacc)
    · rw [if_neg h, if_neg fun h' => h ⟨h'.1, h'.2.symm⟩, append_nil]
      exact ih

/-- A peer's accepted numbers increase, rejections change nothing, and peers do not interfere. -/
structure ReplayProtected (r : DeviceRuntime) (ds : List (Delivery Observation Proposal)) :
    Prop where
  increasing : ∀ id, (r.acceptedFrom ds id).Pairwise fun d d' => d.seq < d'.seq
  rejected : ∀ pre d post, ds = pre ++ d :: post → ∀ e,
    ((r.run pre).deliver d).1 = .rejected e → ((r.run pre).deliver d).2 = r.run pre
  independent : ∀ id, (Keyed.trace deliver r ds).filter (fun p => p.1.sender = id)
    = Keyed.trace deliver r (ds.filter fun d => d.sender = id)

/-- What is accepted is newer than the last accepted one of the other kind as well. -/
def NewerThanOther (r : DeviceRuntime) (d : Delivery Observation Proposal) : Prop :=
  (r.deliver d).1 = .accepted → (r.peer d.sender).lastSeq d.kind.other < d.seq

lemma increasing_concat_iff (registry : DeviceRegistry) (skewMs : UInt64)
    (ds : List (Delivery Observation Proposal)) (d : Delivery Observation Proposal) :
    (∀ id, ((new registry skewMs).acceptedFrom (ds ++ [d]) id).Pairwise
        fun d d' => d.seq < d'.seq) ↔
      (∀ id, ((new registry skewMs).acceptedFrom ds id).Pairwise fun d d' => d.seq < d'.seq) ∧
        ((new registry skewMs).run ds).NewerThanOther d := by
  have hlast : ∀ id, (((new registry skewMs).acceptedFrom (ds ++ [d]) id).Pairwise
      fun d d' => d.seq < d'.seq) ↔
        (((new registry skewMs).acceptedFrom ds id).Pairwise fun d d' => d.seq < d'.seq) ∧
          (d.sender = id → ((new registry skewMs).run ds).NewerThanOther d) := by
    intro id
    rw [acceptedFrom_concat]
    by_cases h : (((new registry skewMs).run ds).deliver d).1 = .accepted ∧ d.sender = id
    · obtain ⟨hacc, rfl⟩ := h
      have htra := tracks_acceptedFrom registry skewMs ds d.sender
      rw [if_pos ⟨hacc, rfl⟩, pairwise_append]
      simp only [pairwise_singleton, mem_singleton, forall_eq, true_and]
      rw [htra.forall_lt_iff (lt_seq_of_accepted hacc)]
      exact and_congr_right fun _ => ⟨fun hlt _ _ => hlt, fun hlt => hlt trivial hacc⟩
    · rw [if_neg h, append_nil]
      exact (and_iff_left fun hid hacc => absurd ⟨hacc, hid⟩ h).symm
  constructor
  · intro h
    exact ⟨fun id => ((hlast id).mp (h id)).1, ((hlast d.sender).mp (h d.sender)).2 rfl⟩
  · rintro ⟨hold, hnew⟩ id
    exact (hlast id).mpr ⟨hold id, fun _ => hnew⟩

/-- **When a run is protected against replays**: iff both kinds of deliveries are in order. -/
theorem replayProtected_iff (registry : DeviceRegistry) (skewMs : UInt64)
    (ds : List (Delivery Observation Proposal)) :
    ReplayProtected (new registry skewMs) ds ↔
      Run.Steps after NewerThanOther (new registry skewMs) ds := by
  have hinc : (∀ id, ((new registry skewMs).acceptedFrom ds id).Pairwise
      fun d d' => d.seq < d'.seq) ↔ Run.Steps after NewerThanOther (new registry skewMs) ds := by
    induction ds using reverseRecOn with
    | nil =>
      refine ⟨fun _ pre d post heq => ?_, fun _ id => List.Pairwise.nil⟩
      exact absurd heq (by simp)
    | append_singleton ds d ih =>
      rw [increasing_concat_iff, Run.steps_concat_iff, ih]
      rfl
  constructor
  · intro h
    exact hinc.mp h.increasing
  · intro h
    refine ⟨hinc.mpr h, fun pre d post _ e hrej => after_of_rejected hrej, fun id => ?_⟩
    exact isLocal_deliver.filter_trace rfl ds

def phoneRegistry : DeviceRegistry :=
  ((DeviceRegistry.new.register ⟨"phone"⟩ .phone ⟨Vector.replicate 32 0⟩ .permissive 0).bind
    fun r => r.transition ⟨"phone"⟩ .paired 0).toOption.getD .new

def phoneSource (seq : UInt64) : RemoteSource := ⟨⟨"phone"⟩, ⟨Vector.replicate 32 0⟩, seq, 0⟩

/-- A proposal is accepted although a newer observation of the same peer was accepted before. -/
theorem not_replayProtected_proposal_after_observation :
    ¬ ReplayProtected (new phoneRegistry 60000)
      [Delivery.observation ⟨phoneSource 5, ()⟩ 0, Delivery.proposal ⟨phoneSource 3, ()⟩ 0] := by
  intro h
  have hseqs : ((new phoneRegistry 60000).acceptedFrom [Delivery.observation ⟨phoneSource 5, ()⟩ 0,
      Delivery.proposal ⟨phoneSource 3, ()⟩ 0] ⟨"phone"⟩).map Delivery.seq = [5, 3] := by
    decide +kernel
  have hinc := pairwise_map.mpr (h.increasing ⟨"phone"⟩)
  rw [hseqs] at hinc
  exact absurd hinc (by decide)

end DeviceRuntime

end Aether.Device
