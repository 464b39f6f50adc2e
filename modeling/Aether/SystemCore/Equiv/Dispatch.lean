import Aether.Security.Equiv.Audit
import Aether.SystemCore.Dispatch

/-!
# What a dispatch writes to the audit log

A dispatch appends the lines `auditLines` (`dispatch_writes`), which the parameters enter only
through `sanitizeParameters`.
-/

namespace Aether.SystemCore

open Aether.Core List
open Agentd (IpcRequest IpcResponse)
open Security

structure AuditLine where
  event : String
  component : String
  detail : String
  deriving DecidableEq

def lineOf (e : AuditEntry) : AuditLine := ⟨e.event, e.component, e.detail⟩

def linesOf (c : AuditChain) : List AuditLine := c.entries.map lineOf

/-- The lines are appended, while old ones may go. -/
structure Writes (c c' : AuditChain) (lines : List AuditLine) : Prop where
  suffix : linesOf c' <:+ linesOf c ++ lines
  last : lines ≠ [] → (linesOf c').getLast? = lines.getLast?

variable {c c' c'' : AuditChain} {lines lines' : List AuditLine}

lemma Writes.refl (c : AuditChain) : Writes c c [] where
  suffix := by rw [append_nil]
  last h := absurd rfl h

lemma Writes.append (h : Writes c c' lines) (h' : Writes c' c'' lines') (hne : lines' ≠ []) :
    Writes c c'' (lines ++ lines') where
  suffix := by
    rw [← append_assoc]
    obtain ⟨pre, hpre⟩ := h.suffix
    refine h'.suffix.trans ⟨pre, ?_⟩
    rw [← append_assoc, hpre]
  last _ := by rw [h'.last hne, getLast?_append_of_ne_nil _ hne]

lemma map_lineOf_restamp (sha256 : List UInt8 → Digest) (i : UInt64) (prev : Digest)
    (es : List AuditEntry) : (restamp sha256 i prev es).map lineOf = es.map lineOf := by
  induction es generalizing i prev with
  | nil => rfl
  | cons e es ih =>
    rw [restamp, map_cons, ih]
    rfl

lemma writes_pruneOlderThan (sha256 : List UInt8 → Digest) (c : AuditChain) (nowMs : UInt64) :
    Writes c (c.pruneOlderThan sha256 nowMs).1 [] where
  suffix := by
    rw [append_nil, AuditChain.pruneOlderThan]
    split_ifs
    · exact suffix_rfl
    · dsimp only
      split
      · exact nil_suffix
      · exact suffix_rfl
      · rw [linesOf, map_lineOf_restamp]
        exact (drop_suffix ..).map _
  last h := absurd rfl h

lemma evict_suffix {es : List AuditEntry} (h : c.evict = some es) : es <:+ c.entries := by
  rw [AuditChain.evict_eq] at h
  split_ifs at h
  · obtain rfl := Option.some.inj h
    exact suffix_rfl
  · cases hent : c.entries with
    | nil =>
      rw [hent] at h
      cases h
    | cons e rest =>
      rw [hent] at h
      obtain rfl := Option.some.inj h
      exact suffix_cons e rest

variable {σ : Type} {x : DispatchBackend σ}

def auditLine (x : DispatchBackend σ) (capability : String) (args : Json) (component : String)
    (ok : Bool) : AuditLine :=
  ⟨"ipc.dispatch", component, auditDetail x capability args ok⟩

lemma writes_recordAudit {ms : UInt64} {capability component : String} {args : Json} {ok : Bool}
    (h : recordAudit x ms c capability args component ok = some c') :
    Writes c c' [auditLine x capability args component ok] := by
  obtain ⟨⟨c₁, i⟩, hrcd, rfl⟩ := Option.map_eq_some_iff.mp h
  obtain ⟨es, hevi, heq⟩ := Option.map_eq_some_iff.mp hrcd
  cases heq
  have hlin : linesOf { c with entries := es ++ [AuditChain.newEntry x.sha256 es ms "ipc.dispatch"
      component (auditDetail x capability args ok)] } =
      es.map lineOf ++ [auditLine x capability args component ok] := by
    rw [linesOf, map_append]
    rfl
  constructor
  · show linesOf { c with entries := _ } <:+ _
    rw [hlin]
    obtain ⟨pre, hpre⟩ := (evict_suffix hevi).map lineOf
    exact ⟨pre, by rw [← append_assoc, hpre, linesOf]⟩
  · intro _
    show (linesOf { c with entries := _ }).getLast? = _
    rw [hlin, getLast?_concat]
    rfl

def denialLines (x : DispatchBackend σ) (req : IpcRequest) : List AuditLine :=
  if (evaluatePolicy req.command req.actorTrust).isAllow then []
  else [auditLine x "policy.deny" (denialArgs req) req.serviceId false]

def requestLines (x : DispatchBackend σ) (req : IpcRequest) (ok : Bool) : List AuditLine :=
  if isCapability req.command then
    [auditLine x req.command (sanitizeParameters req.parameters) req.serviceId ok]
  else []

variable {innerMs auditMs : UInt64} {d d₁ : Daemon σ} {req : IpcRequest} {r : IpcResponse}

lemma writes_handleCommand (h : handleCommand x innerMs d req = some (d₁, r)) :
    Writes d.auditChain d₁.auditChain [] := by
  unfold handleCommand at h
  split at h
  · cases h
    exact .refl _
  · cases h
    exact .refl _
  · cases h
    exact writes_pruneOlderThan ..
  · obtain ⟨answer, -, heq⟩ := Option.map_eq_some_iff.mp h
    cases heq
    exact .refl _

lemma writes_dispatchInner (h : dispatchInner x innerMs d req = some (d₁, r)) :
    Writes d.auditChain d₁.auditChain (denialLines x req) := by
  unfold dispatchInner at h
  dsimp only at h
  rw [denialLines]
  cases hver : (evaluatePolicy req.command req.actorTrust).isAllow with
  | false =>
    rw [hver] at h
    obtain ⟨chain, hrcd, heq⟩ := Option.bind_eq_some_iff.mp h
    cases heq
    exact writes_recordAudit hrcd
  | true =>
    rw [hver] at h
    exact writes_handleCommand h

lemma dispatch_writes (h : dispatch x innerMs auditMs d req = some (d₁, r)) :
    Writes d.auditChain d₁.auditChain (denialLines x req ++ requestLines x req r.ok) := by
  obtain ⟨⟨d₀, r₀⟩, hinn, h⟩ := Option.bind_eq_some_iff.mp h
  have hden := writes_dispatchInner hinn
  rw [requestLines]
  dsimp only at h
  split_ifs at h ⊢ with hcap
  · obtain ⟨chain, hrcd, heq⟩ := Option.bind_eq_some_iff.mp h
    cases heq
    exact hden.append (writes_recordAudit hrcd) (cons_ne_nil _ _)
  · cases h
    rw [append_nil]
    exact hden

def redactField (f : String × Json) : String × Json :=
  if f.1 = "content" then ("content", .str "[REDACTED]") else f

lemma sanitizeParameters_obj (fields : List (String × Json)) :
    sanitizeParameters (.obj fields) = .obj (fields.map redactField) := by
  unfold sanitizeParameters
  dsimp only
  cases hcon : Json.containsKey fields "content" with
  | true =>
    rw [if_pos rfl, Json.insert, hcon, if_pos rfl]
    rfl
  | false =>
    have hid : fields.map redactField = fields := by
      refine (map_congr_left fun f hf => ?_).trans (map_id fields)
      have hkey := any_eq_false.mp hcon f hf
      exact if_neg (by simpa using hkey)
    rw [if_neg Bool.false_ne_true, hid]

def SameField (f g : String × Json) : Prop := f.1 = g.1 ∧ (f.1 ≠ "content" → f.2 = g.2)

/-- Two objects that differ only in their `content`. -/
def SameButContent : Json → Json → Prop
  | .obj fields, .obj fields' => List.Forall₂ SameField fields fields'
  | _, _ => False

lemma SameField.redactField_eq {f g : String × Json} (h : SameField f g) :
    redactField f = redactField g := by
  obtain ⟨hkey, hval⟩ := h
  unfold redactField
  rw [← hkey]
  split_ifs with hcont
  · rfl
  · exact Prod.ext hkey (hval hcont)

lemma sanitizeParameters_congr {p q : Json} (h : SameButContent p q) :
    sanitizeParameters p = sanitizeParameters q := by
  unfold SameButContent at h
  split at h
  · next fields fields' =>
    have hfie : fields.map redactField = fields'.map redactField := by
      induction h with
      | nil => rfl
      | cons hf _ ih => rw [map_cons, map_cons, ih, hf.redactField_eq]
    rw [sanitizeParameters_obj, sanitizeParameters_obj, hfie]
  · exact h.elim

/-- Two requests that differ only in the `content` of their parameters and end with the same flag
append the same lines to the audit log, whatever the states and the clocks are; that of a capability
request is the last line of both logs. -/
theorem dispatch_audit_agrees (x : DispatchBackend σ) (req : IpcRequest) (parameters : Json)
    (hparameters : SameButContent req.parameters parameters)
    (innerMs auditMs innerMs' auditMs' : UInt64) (d d' d₁ d₁' : Daemon σ) (r r' : IpcResponse)
    (hrun : dispatch x innerMs auditMs d req = some (d₁, r))
    (hrun' : dispatch x innerMs' auditMs' d' { req with parameters } = some (d₁', r'))
    (hok : r.ok = r'.ok) :
    (∃ lines, Writes d.auditChain d₁.auditChain lines ∧ Writes d'.auditChain d₁'.auditChain lines) ∧
      (isCapability req.command = true →
        ∃ line, (linesOf d₁.auditChain).getLast? = some line ∧
          (linesOf d₁'.auditChain).getLast? = some line) := by
  have hwri := dispatch_writes hrun
  have hwri' := dispatch_writes hrun'
  have hreq : requestLines x { req with parameters } r'.ok = requestLines x req r.ok := by
    rw [requestLines, requestLines, hok, sanitizeParameters_congr hparameters]
  -- the line of a rejected request does not mention the parameters
  have hden : denialLines x { req with parameters } = denialLines x req := rfl
  rw [hreq, hden] at hwri'
  refine ⟨⟨_, hwri, hwri'⟩, fun hcap => ?_⟩
  have hlast : (denialLines x req ++ requestLines x req r.ok).getLast? =
      some (auditLine x req.command (sanitizeParameters req.parameters) req.serviceId r.ok) := by
    rw [requestLines, if_pos hcap, getLast?_concat]
  have hne : denialLines x req ++ requestLines x req r.ok ≠ [] := by
    intro hnil
    rw [hnil] at hlast
    cases hlast
  exact ⟨_, (hwri.last hne).trans hlast, (hwri'.last hne).trans hlast⟩

def echoBackend : DispatchBackend Unit where
  sha256 _ := genesisPrevHash
  render j := ((j.get "content").bind Json.asStr).getD "null"
  handle _ req := some ((), okResponse req.command req.parameters)

def noteRequest (content : String) : IpcRequest :=
  ⟨"shell", "app.note", .obj [("app", .str "notes"), ("content", .str content)], .trusted⟩

theorem dispatch_audit_agrees_note :
    ∃ line, ((dispatch echoBackend 1 2 ⟨(), .new .default⟩ (noteRequest "pin 1234")).bind fun p =>
        (linesOf p.1.auditChain).getLast?) = some line ∧
      ((dispatch echoBackend 3 4 ⟨(), .new .default⟩ (noteRequest "pin 9876")).bind fun p =>
        (linesOf p.1.auditChain).getLast?) = some line := by
  have hsame :
      SameButContent (noteRequest "pin 1234").parameters (noteRequest "pin 9876").parameters :=
    .cons ⟨rfl, fun _ => rfl⟩ (.cons ⟨rfl, fun h => absurd rfl h⟩ .nil)
  obtain ⟨-, hline⟩ := dispatch_audit_agrees echoBackend (noteRequest "pin 1234") _ hsame 1 2 3 4
    ⟨(), .new .default⟩ ⟨(), .new .default⟩ _ _ _ _ rfl rfl rfl
  exact hline (by decide)

end Aether.SystemCore
