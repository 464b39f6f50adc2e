import Aether.Agentd.Equiv.Executor

/-!
## Correctness of the action planner

`execute_spec` is read off `Plan`, the run of a whole plan intent by intent.  For
`execute_mutations_iff` the run is cut before an intent and after it (`Plan.exists_cut`);
what its attempts send is decided by what is heard in the first two of them.
-/

namespace Aether.Agentd

open Aether.Core Command List
open Aether.Runtime (FailureKind)

variable {w : Ipc} {ctx : PlannerContext}

/-- The run of a plan after `log`, from number `index` on: the results, whether all are successes,
and the events. -/
inductive Plan (w : Ipc) (ctx : PlannerContext) :
    List PlanEvent → ℕ → List Intent → List ActionResult → Bool → List PlanEvent → Prop
  | done (log : List PlanEvent) (index : ℕ) : Plan w ctx log index [] [] true []
  | next {log : List PlanEvent} {index : ℕ} {intent : Intent} {rest : List Intent}
      {result : ActionResult} {results : List ActionResult} {ok : Bool}
      {new events : List PlanEvent} (hran : Ran w ctx log index intent result new)
      (hsuccess : result.status = .success)
      (hrest : Plan w ctx (log ++ new) (index + 1) rest results ok events) :
      Plan w ctx log index (intent :: rest) (result :: results) ok (new ++ events)
  | stop {log : List PlanEvent} {index : ℕ} {intent : Intent} (rest : List Intent)
      {result : ActionResult} {new : List PlanEvent}
      (hran : Ran w ctx log index intent result new) (hfailure : result.status ≠ .success) :
      Plan w ctx log index (intent :: rest) [result] false new

lemma executeLoop_apply (formatResult : CapabilityId → Json → String) (ctx : PlannerContext)
    (index : ℕ) (intents : List Intent) (actions : List ActionResult) (log : List PlanEvent) :
    ∃ results ok events, executeLoop w formatResult ctx index intents actions log =
        (.ok (actions ++ results, ok), log ++ events) ∧
      Plan w ctx log index intents results ok events := by
  induction intents generalizing index actions log with
  | nil => exact ⟨[], true, [], by simp [executeLoop], .done log index⟩
  | cons intent rest ih =>
    obtain ⟨result, new, hrun, hran⟩ := runIntent_apply (w := w) formatResult ctx index intent log
    rw [executeLoop, bind_apply_of_eq hrun]
    by_cases hstat : result.status = .success
    · obtain ⟨results, ok, events, hrest, hplan⟩ :=
        ih (index + 1) (actions ++ [result]) (log ++ new)
      refine ⟨result :: results, ok, new ++ events, ?_, .next hran hstat hplan⟩
      rw [if_pos hstat, hrest, append_assoc, append_assoc]
      rfl
    · refine ⟨[result], false, new, ?_, .stop rest hran hstat⟩
      rw [if_neg hstat]
      rfl

section Plan

variable {log events : List PlanEvent} {index : ℕ} {intents : List Intent}
variable {results : List ActionResult} {ok : Bool}

/-- The intent that a result is about. -/
def ActionResult.intent (a : ActionResult) : Intent := ⟨a.capability, a.arguments⟩

lemma Ran.intent {intent : Intent} {result : ActionResult}
    (h : Ran w ctx log index intent result events) : result.intent = intent := by
  rw [ActionResult.intent, h.capability, h.arguments]

lemma Plan.isPrefix (h : Plan w ctx log index intents results ok events) :
    results.map ActionResult.intent <+: intents := by
  induction h with
  | done => exact prefix_refl _
  | next hran _ _ ih =>
    rw [map_cons, hran.intent]
    exact cons_prefix_cons.mpr ⟨rfl, ih⟩
  | stop rest hran _ =>
    rw [map_singleton, hran.intent]
    exact cons_prefix_cons.mpr ⟨rfl, nil_prefix⟩

lemma Plan.success_of_mem_dropLast (h : Plan w ctx log index intents results ok events) :
    ∀ a ∈ results.dropLast, a.status = .success := by
  induction h with
  | done => simp
  | @next _ _ _ _ result results _ _ _ _ hsuc _ ih =>
    cases results with
    | nil => simp
    | cons b results =>
      rw [dropLast_cons_of_ne_nil (by simp), forall_mem_cons]
      exact ⟨hsuc, ih⟩
  | stop rest _ _ => simp

lemma Plan.ok_iff (h : Plan w ctx log index intents results ok events) :
    ok = true ↔ results.length = intents.length ∧ ∀ a ∈ results, a.status = .success := by
  induction h with
  | done => simp
  | next _ hsuc _ ih => simp [ih, hsuc]
  | stop rest _ hfai => simp [hfai]

lemma Plan.reported_ok_iff (h : Plan w ctx log index intents results ok events) :
    (ok && !results.isEmpty && results.all fun a => a.status = .success) = true ↔
      intents ≠ [] ∧ results.length = intents.length ∧ ∀ a ∈ results, a.status = .success := by
  have hemp : results.length = intents.length → (results = [] ↔ intents = []) := by
    intro hlen
    rw [← length_eq_zero_iff, hlen, length_eq_zero_iff]
  simp only [Bool.and_eq_true, h.ok_iff, Bool.not_eq_true', isEmpty_eq_false_iff,
    all_eq_true, decide_eq_true_eq]
  constructor
  · rintro ⟨⟨⟨hlen, hsuc⟩, hne⟩, -⟩
    exact ⟨mt (hemp hlen).mpr hne, hlen, hsuc⟩
  · rintro ⟨hne, hlen, hsuc⟩
    exact ⟨⟨⟨hlen, hsuc⟩, mt (hemp hlen).mp hne⟩, hsuc⟩

lemma Plan.intent_bounds (h : Plan w ctx log index intents results ok events) :
    ∀ event ∈ events, index ≤ event.intent ∧ event.intent < index + results.length := by
  induction h with
  | done => simp
  | next hran _ _ ih =>
    rw [forall_mem_append, length_cons]
    constructor
    · intro event heve
      rw [hran.intent_eq event heve]
      omega
    · intro event heve
      have hbou := ih event heve
      omega
  | stop rest hran _ =>
    intro event heve
    rw [hran.intent_eq event heve, length_singleton]
    omega

lemma Plan.unconfirmed (h : Plan w ctx log index intents results ok events) :
    ∀ event ∈ events, ∃ j intent, event.intent = index + j ∧ intents[j]? = some intent ∧
      Unconfirmed intent.capability.capability := by
  -- only an intent that is not refused has events
  have hfst : ∀ {log : List PlanEvent} {index : ℕ} {intent : Intent} {result : ActionResult}
      {new : List PlanEvent}, Ran w ctx log index intent result new → ∀ event ∈ new,
        event.intent = index ∧ Unconfirmed intent.capability.capability := by
    intro log index intent result new hran event heve
    have href : refusal ctx intent = none := by
      by_contra href
      rw [(hran.refused href).2] at heve
      cases heve
    exact ⟨hran.intent_eq event heve, unconfirmed_of_refusal href⟩
  induction h with
  | done => simp
  | @next _ index intent rest _ _ _ _ _ hran _ _ ih =>
    rw [forall_mem_append]
    constructor
    · intro event heve
      obtain ⟨heq, hunc⟩ := hfst hran event heve
      exact ⟨0, intent, heq, rfl, hunc⟩
    · intro event heve
      obtain ⟨j, intent', heq, hj, hunc⟩ := ih event heve
      exact ⟨j + 1, intent', by omega, hj, hunc⟩
  | @stop _ index intent _ _ _ hran _ =>
    intro event heve
    obtain ⟨heq, hunc⟩ := hfst hran event heve
    exact ⟨0, intent, heq, rfl, hunc⟩

lemma Plan.le_of_sent (h : Plan w ctx log index intents results ok events) {j : ℕ}
    {a : ActionResult} (ha : results[j]? = some a) (hfai : a.status ≠ .success) {i n : ℕ}
    {call : IpcCall}
    (hsent : .sent i n call ∈ events) : i ≤ index + j := by
  obtain ⟨hj, rfl⟩ := List.getElem?_eq_some_iff.mp ha
  have hbou := h.intent_bounds _ hsent
  -- a result that is not a success is the last one
  have hlast : results.length ≤ j + 1 := by
    by_contra hlt
    have hmem : results[j] ∈ results.dropLast :=
      List.mem_iff_getElem.mpr ⟨j, by rw [List.length_dropLast]; omega, List.getElem_dropLast _⟩
    exact hfai (h.success_of_mem_dropLast _ hmem)
  have hi : PlanEvent.intent (.sent i n call) = i := rfl
  omega

lemma Plan.not_sent (h : Plan w ctx log index intents results ok events) {j : ℕ}
    {intent : Intent} (hj : intents[j]? = some intent)
    (hcon : ¬ Unconfirmed intent.capability.capability) {n : ℕ} {call : IpcCall} :
    .sent (index + j) n call ∉ events := by
  intro hsent
  obtain ⟨j', intent', heq, hj', hunc⟩ := h.unconfirmed _ hsent
  obtain rfl : j = j' := Nat.add_left_cancel heq
  rw [hj, Option.some_inj] at hj'
  rw [← hj'] at hunc
  exact hcon hunc

end Plan

lemma execute_eq (w : Ipc) (formatResult : CapabilityId → Json → String) (ctx : PlannerContext)
    (intents : List Intent) :
    ∃ results ok events, Plan w ctx [] 0 intents results ok events ∧
      execute w formatResult ctx intents [] =
        (.ok { actions := results, summary := buildSummary results,
               ok := ok && !results.isEmpty && results.all fun a => a.status = .success },
          events) := by
  obtain ⟨results, ok, events, hloop, hplan⟩ :=
    executeLoop_apply (w := w) formatResult ctx 0 intents [] []
  exact ⟨results, ok, events, hplan, bind_apply_of_eq hloop _⟩

/-- **Execution of a plan.**  It ends, whatever the servers answer.  The results are those of the
first intents, and all but possibly the last are successes.  Nothing is sent for an intent after the
first that does not succeed, and nothing ever for one of high or critical risk.  The plan is
reported as successful exactly if there is an intent and all have succeeded. -/
theorem execute_spec (w : Ipc) (formatResult : CapabilityId → Json → String) (ctx : PlannerContext)
    (intents : List Intent) :
    ∃ plan trace, execute w formatResult ctx intents [] = (.ok plan, trace) ∧
      plan.actions.map ActionResult.intent <+: intents ∧
      (∀ a ∈ plan.actions.dropLast, a.status = .success) ∧
      (∀ j a, plan.actions[j]? = some a → a.status ≠ .success →
        ∀ i n call, .sent i n call ∈ trace → i ≤ j) ∧
      (∀ i intent, intents[i]? = some intent →
        intent.capability.capability.riskLevel = .high ∨
          intent.capability.capability.riskLevel = .critical →
        ∀ n call, .sent i n call ∉ trace) ∧
      (plan.ok = true ↔ intents ≠ [] ∧ plan.actions.length = intents.length ∧
        ∀ a ∈ plan.actions, a.status = .success) := by
  obtain ⟨results, ok, events, hplan, heq⟩ := execute_eq w formatResult ctx intents
  refine ⟨_, _, heq, hplan.isPrefix, hplan.success_of_mem_dropLast, ?_, ?_, ?_⟩
  · intro j a ha hfai i n call hsent
    have hle := hplan.le_of_sent ha hfai hsent
    omega
  · intro i intent hi hrisk n call
    rw [← Nat.zero_add i]
    exact hplan.not_sent hi (not_unconfirmed_iff.mpr hrisk)
  · exact hplan.reported_ok_iff

/-- The capability changes applications, windows or files. -/
def CapabilityId.mutating : CapabilityId → Bool
  | .appLaunch | .appClose => true
  | .fileCreate | .fileWrite | .fileRename | .fileMove | .fileDelete => true
  | capability => capability.changesWindow

/-- The call asks for a change; the question for the windows does not. -/
def IpcCall.isRequest : IpcCall → Bool
  | .control _ => true
  | .surface request => (request.field "op").asStr ≠ some "window.list"

/-- The kind of a failure, if it is one. -/
def failureKind : Except String Json → Option FailureKind
  | .ok _ => none
  | .error e => some (classifyFailure e)

/-- A request for a change, with the kind of the failure that was heard, or a failed attempt. -/
inductive Mark where
  | request (heard : Option FailureKind)
  | failure (kind : FailureKind)
  deriving DecidableEq

namespace Mark

@[simp]
def isRequest : Mark → Bool
  | .request _ => true
  | .failure _ => false

@[simp]
def isTransient : Mark → Bool
  | .request heard => heard = some .transient
  | .failure kind => kind = .transient

end Mark

/-- The requests to either server for the change of intent `i`, and its failed attempts, in a trace
after the calls `h`. -/
def marks (w : Ipc) (i : ℕ) : List IpcCall → List PlanEvent → List Mark
  | _, [] => []
  | h, .sent j _ call :: rest =>
    if j = i ∧ call.isRequest = true then
      .request (failureKind (heard w h call)) :: marks w i (h ++ [call]) rest
    else marks w i (h ++ [call]) rest
  | h, .failed j _ e :: rest =>
    if j = i then .failure (classifyFailure e) :: marks w i h rest else marks w i h rest

/-- Every request comes after at most one other, and all that was heard before it is of transient
failures. -/
def Restrained (before : List Mark) : List Mark → Prop
  | [] => True
  | mark :: rest =>
    (mark.isRequest = true →
      before.countP Mark.isRequest ≤ 1 ∧ before.all Mark.isTransient = true) ∧
    Restrained (before ++ [mark]) rest

section Restrained

variable {before rest : List Mark}

@[simp] lemma restrained_nil : Restrained before [] := trivial

@[simp]
lemma restrained_request_iff {heard : Option FailureKind} :
    Restrained before (.request heard :: rest) ↔
      (before.countP Mark.isRequest ≤ 1 ∧ before.all Mark.isTransient = true) ∧
        Restrained (before ++ [.request heard]) rest := by
  simp [Restrained]

@[simp]
lemma restrained_failure_iff {kind : FailureKind} :
    Restrained before (.failure kind :: rest) ↔ Restrained (before ++ [.failure kind]) rest := by
  simp [Restrained]

end Restrained

instance decidableRestrained : (before ms : List Mark) → Decidable (Restrained before ms)
  | _, [] => isTrue trivial
  | before, mark :: rest =>
    have := decidableRestrained (before ++ [mark]) rest
    inferInstanceAs (Decidable ((_ → _ ∧ _) ∧ _))

/-- The change of intent `i` is requested at most twice, and a second time only after a transient
failure. -/
def AtMostTwice (w : Ipc) (i : ℕ) (trace : List PlanEvent) : Prop :=
  Restrained [] (marks w i [] trace)

instance (w : Ipc) (i : ℕ) (trace : List PlanEvent) : Decidable (AtMostTwice w i trace) :=
  inferInstanceAs (Decidable (Restrained _ _))

/-- A second attempt at the change of a window after the calls `h` needs no request to the surface
server and no third attempt. -/
def Settles (w : Ipc) (h : List IpcCall) (intent : Intent) : Prop :=
  (∃ v, heard w h intent.call = .ok v) ∨
    ∃ f, surfaceRequest w (h ++ [intent.call]) intent = .error f ∧ classifyFailure f ≠ .transient

/-- The answers after the calls `h` that a change can get without a request too many.  If the
control plane fails, the surface server matters for the change of a window: it finds the window,
then the failure of the control plane is transient and the change is done or fails for good; or it
does not, then there is no second attempt, or one that settles. -/
def Tolerable (w : Ipc) (h : List IpcCall) (intent : Intent) : Prop :=
  ∀ e, heard w h intent.call = .error e →
    if intent.capability.fallsBack = true then
      match surfaceRequest w (h ++ [intent.call]) intent with
      | .ok call => classifyFailure e = .transient ∧
          ∀ f, heard w (h ++ intent.call :: intent.lookup) call = .error f →
            classifyFailure f = .permanent
      | .error f => classifyFailure f = .permanent ∨
          classifyFailure e = .transient ∧ classifyFailure f = .transient ∧
            Settles w (h ++ intent.call :: intent.lookup) intent
    else classifyFailure e ≠ .unknown

lemma two_le_maxRetries_iff {capability : CapabilityId} (h : capability.mutating = true) :
    2 ≤ (recoveryPolicyFor capability).maxRetries.toNat ↔ capability.fallsBack = true := by
  cases capability <;> first | decide | cases h

section Marks

variable {i n : ℕ} {intent : Intent} {call : IpcCall} {h : List IpcCall} {t t' : List PlanEvent}

lemma marks_append (h : List IpcCall) (t t' : List PlanEvent) :
    marks w i h (t ++ t') = marks w i h t ++ marks w i (h ++ callsOf t) t' := by
  induction t generalizing h with
  | nil => simp [marks]
  | cons event t ih =>
    cases event with
    | sent j n call =>
      have hcalls : callsOf (.sent j n call :: t) = call :: callsOf t := rfl
      rw [cons_append, marks, marks, ih, hcalls, append_assoc]
      split_ifs <;> rfl
    | failed j n e =>
      have hcalls : callsOf (.failed j n e :: t) = callsOf t := rfl
      rw [cons_append, marks, marks, ih, hcalls]
      split_ifs <;> rfl

lemma marks_eq_nil (ht : ∀ event ∈ t, event.intent ≠ i) : marks w i h t = [] := by
  induction t generalizing h with
  | nil => rfl
  | cons event t ih =>
    rw [forall_mem_cons] at ht
    cases event with
    | sent j n call => rw [marks, if_neg fun hj => ht.1 hj.1, ih ht.2]
    | failed j n e =>
      have hj : j ≠ i := ht.1
      rw [marks, if_neg hj, ih ht.2]

lemma marks_request (hcall : call.isRequest = true) :
    marks w i h ((Slot.mk i n).sent call :: t) =
      .request (failureKind (heard w h call)) :: marks w i (h ++ [call]) t := by
  rw [Slot.sent, marks, if_pos ⟨rfl, hcall⟩]

lemma marks_lookup :
    marks w i h (intent.lookup.map (Slot.mk i n).sent ++ t) =
      marks w i (h ++ intent.lookup) t := by
  have hlist : marks w i h ((Slot.mk i n).sent listCall :: t) = marks w i (h ++ [listCall]) t := by
    rw [Slot.sent, marks, if_neg (by simp [show listCall.isRequest = false by decide])]
  unfold Intent.lookup
  split
  · simp
  · simp
  · exact hlist

lemma marks_closing (r : Except String Json) :
    marks w i h (closing i n r) = ((failureKind r).map Mark.failure).toList := by
  cases r with
  | ok v => rfl
  | error e => simp [closing, marks, failureKind]

lemma isRequest_of_surfaceRequest (hmut : intent.capability.mutating = true)
    (hreq : surfaceRequest w h intent = .ok call) : call.isRequest = true := by
  unfold surfaceRequest at hreq
  split at hreq
  · next hcap =>
    rw [hcap] at hmut
    cases hmut
  · cases hreq
    rfl
  · obtain ⟨list, -, hreq⟩ := Except.bind_eq_ok_iff.mp hreq
    unfold changeCall at hreq
    split at hreq
    · cases hreq
      have hop : intent.capability.surfaceOp ≠ "window.list" := by
        cases intent.capability <;> decide
      simpa [IpcCall.isRequest, windowRequest, Json.field, Json.get, Json.asStr] using hop
    · cases hreq

lemma marks_call (calls : List IpcCall) :
    marks w i h ((intent.call :: calls).map (Slot.mk i n).sent ++ t) =
      .request (failureKind (heard w h intent.call)) ::
        marks w i (h ++ [intent.call]) (calls.map (Slot.mk i n).sent ++ t) :=
  marks_request rfl

lemma marks_lost (r : Except String Json) :
    marks w i h ((intent.call :: intent.lookup).map (Slot.mk i n).sent ++ closing i n r) =
      .request (failureKind (heard w h intent.call)) ::
        ((failureKind r).map Mark.failure).toList := by
  rw [marks_call, marks_lookup, marks_closing]

lemma marks_changed (hmut : intent.capability.mutating = true) {h' : List IpcCall}
    (hreq : surfaceRequest w h' intent = .ok call) (r : Except String Json) :
    marks w i h ((intent.call :: (intent.lookup ++ [call])).map (Slot.mk i n).sent ++
        closing i n r) =
      .request (failureKind (heard w h intent.call)) ::
        .request (failureKind (heard w (h ++ intent.call :: intent.lookup) call)) ::
          ((failureKind r).map Mark.failure).toList := by
  rw [marks_call, List.map_append, append_assoc, marks_lookup, map_singleton, singleton_append,
    marks_request (isRequest_of_surfaceRequest hmut hreq), marks_closing, append_assoc,
    singleton_append]

end Marks

section Mutations

variable {i n : ℕ} {intent : Intent} {log new : List PlanEvent} {r : Except String Json}

lemma Segment.exists_marks (hseg : Segment w i intent log n r new) :
    ∃ heard rest, marks w i (callsOf log) new = .request heard :: rest := by
  obtain ⟨calls, hexc, rfl⟩ := hseg
  obtain ⟨rest, rfl⟩ : ∃ rest, calls = intent.call :: rest := by
    cases hexc with
    | done => exact ⟨_, rfl⟩
    | failed => exact ⟨_, rfl⟩
    | lost => exact ⟨_, rfl⟩
    | changed => exact ⟨_, rfl⟩
  exact ⟨_, _, marks_call rest⟩

lemma Attempts.exists_marks (hatt : Attempts w i intent log n r new) :
    ∃ heard rest, marks w i (callsOf log) new = .request heard :: rest := by
  cases hatt with
  | ok hseg => exact hseg.exists_marks
  | stop hseg => exact hseg.exists_marks
  | again hseg =>
    obtain ⟨heard, rest, heq⟩ := hseg.exists_marks
    rw [marks_append, heq]
    exact ⟨heard, _, rfl⟩

/-- A second attempt after transient failures only. -/
lemma restrained_second_iff (hmut : intent.capability.mutating = true)
    (hatt : Attempts w i intent log 2 r new) :
    Restrained [.request (some .transient), .failure .transient] (marks w i (callsOf log) new) ↔
      (intent.capability.fallsBack = true → Settles w (callsOf log) intent) := by
  cases hatt with
  | ok hseg =>
    obtain ⟨calls, hexc, rfl⟩ := hseg
    cases hexc with
    | done hcall =>
      rw [marks_call, hcall]
      simp [marks_closing, countP_cons, failureKind, Settles, hcall]
    | changed hcall hcap hreq hres =>
      rw [marks_changed hmut hreq, hcall, hres]
      simp [countP_cons, failureKind, Settles, hcall, hcap, hreq]
  | stop hseg hstop =>
    rw [← Bool.not_eq_true, retries_two_iff, two_le_maxRetries_iff hmut] at hstop
    obtain ⟨calls, hexc, rfl⟩ := hseg
    cases hexc with
    | failed hcall hcap =>
      rw [marks_call, hcall]
      simp [marks_closing, countP_cons, failureKind, hcap]
    | lost hcall hcap hreq =>
      have hkind : classifyFailure _ ≠ .transient := fun htra => hstop ⟨hcap, htra⟩
      rw [marks_lost, hcall]
      simp [countP_cons, failureKind, Settles, hcap, hreq, hcall, hkind]
    | changed hcall hcap hreq hres =>
      rw [marks_changed hmut hreq, hcall, hres]
      simp [countP_cons, failureKind, Settles, hcall, hcap, hreq]
  | again hseg hagain hrest =>
    rw [retries_two_iff, two_le_maxRetries_iff hmut] at hagain
    obtain ⟨hcap, htra⟩ := hagain
    obtain ⟨k, rest, hthird⟩ := Attempts.exists_marks hrest
    rw [marks_append, ← callsOf_append, hthird]
    obtain ⟨calls, hexc, rfl⟩ := hseg
    cases hexc with
    | failed hcall hcap' => simp [hcap] at hcap'
    | lost hcall hcap hreq =>
      rw [marks_lost, hcall]
      simp [countP_cons, failureKind, Settles, hcap, hreq, hcall, htra]
    | changed hcall hcap hreq hres =>
      rw [marks_changed hmut hreq, hcall, hres]
      simp [countP_cons, failureKind, Settles, hcall, hcap, hreq]

lemma restrained_again_iff {kind kind' : FailureKind} {ms : List Mark}
    (hms : ∃ heard rest, ms = .request heard :: rest) :
    Restrained [] (.request (some kind) :: .failure kind' :: ms) ↔
      kind = .transient ∧ kind' = .transient ∧
        Restrained [.request (some .transient), .failure .transient] ms := by
  obtain ⟨heard, rest, rfl⟩ := hms
  simp only [restrained_request_iff, restrained_failure_iff]
  constructor
  · rintro ⟨-, ⟨hcount, htra⟩, hrest⟩
    obtain ⟨rfl, rfl⟩ : kind = .transient ∧ kind' = .transient := by simpa using htra
    exact ⟨rfl, rfl, ⟨hcount, htra⟩, hrest⟩
  · rintro ⟨rfl, rfl, hres⟩
    exact ⟨by simp, hres⟩

lemma restrained_iff (hmut : intent.capability.mutating = true)
    (hatt : Attempts w i intent log 1 r new) :
    Restrained [] (marks w i (callsOf log) new) ↔ Tolerable w (callsOf log) intent := by
  cases hatt with
  | ok hseg =>
    obtain ⟨calls, hexc, rfl⟩ := hseg
    cases hexc with
    | done hcall =>
      rw [marks_call, hcall]
      simp [marks_closing, failureKind, Tolerable, hcall]
    | changed hcall hcap hreq hres =>
      rw [marks_changed hmut hreq, hcall, hres]
      simp [countP_cons, failureKind, Tolerable, hcall, hcap, hreq, hres]
  | @stop _ _ _ e hseg hstop =>
    have hperm : classifyFailure e = .permanent := by
      rw [← Bool.not_eq_true, retries_one_iff, not_or] at hstop
      cases hkind : classifyFailure e with
      | transient => exact absurd hkind hstop.1
      | permanent => rfl
      | unknown => exact absurd hkind hstop.2
    obtain ⟨calls, hexc, rfl⟩ := hseg
    cases hexc with
    | failed hcall hcap =>
      rw [marks_call, hcall]
      simp [marks_closing, failureKind, Tolerable, hcall, hcap, hperm]
    | lost hcall hcap hreq =>
      rw [marks_lost, hcall]
      simp [failureKind, Tolerable, hcall, hcap, hreq, hperm]
    | changed hcall hcap hreq hres =>
      rw [marks_changed hmut hreq, hcall, hres]
      simp [countP_cons, failureKind, Tolerable, hcall, hcap, hreq, hres, hperm]
  | @again _ _ rest _ e _ hseg hagain hrest =>
    have hkind : classifyFailure e ≠ .permanent ∧
        (classifyFailure e = .transient ↔ classifyFailure e ≠ .unknown) := by
      rcases retries_one_iff.mp hagain with hkind | hkind <;> simp [hkind]
    have hsecond := restrained_second_iff hmut hrest
    have hms := Attempts.exists_marks hrest
    rw [marks_append, ← callsOf_append]
    obtain ⟨calls, hexc, rfl⟩ := hseg
    rw [callsOf_segment] at hsecond hms ⊢
    generalize marks w i (callsOf log ++ calls) rest = ms at hsecond hms ⊢
    cases hexc with
    | failed hcall hcap =>
      rw [marks_call, hcall, map_nil, nil_append, marks_closing]
      show Restrained [] (.request (some _) :: .failure _ :: ms) ↔ _
      rw [restrained_again_iff hms, hsecond]
      simp [Tolerable, hcall, hcap, hkind.2]
    | lost hcall hcap hreq =>
      rw [marks_lost, hcall]
      show Restrained [] (.request (some _) :: .failure _ :: ms) ↔ _
      rw [restrained_again_iff hms, hsecond]
      simp [Tolerable, hcall, hcap, hreq, hkind.1]
    | changed hcall hcap hreq hres =>
      -- the two requests of the first attempt leave none for the second
      obtain ⟨heard, rest, rfl⟩ := hms
      rw [marks_changed hmut hreq, hcall, hres]
      simp [countP_cons, failureKind, Tolerable, hcall, hcap, hreq, hres, hkind.1]

end Mutations

/-- After the calls `h` the intents are granted and their attempts end in successes, one after the
other; `h'` are the calls then. -/
def Succeed (w : Ipc) (ctx : PlannerContext) : List IpcCall → List Intent → List IpcCall → Prop
  | h, [], h' => h' = h
  | h, intent :: rest, h' => refusal ctx intent = none ∧
      ∃ v calls, Exchanges w intent h 1 (.ok v) calls ∧ Succeed w ctx (h ++ calls) rest h'

section Cut

variable {log new events : List PlanEvent} {index : ℕ} {intent : Intent} {pre post : List Intent}
  {h : List IpcCall} {results : List ActionResult} {result : ActionResult} {ok : Bool}

lemma Ran.succeed_iff (hran : Ran w ctx log index intent result new) :
    Succeed w ctx (callsOf log) (intent :: post) h ↔
      result.status = .success ∧ Succeed w ctx (callsOf (log ++ new)) post h := by
  by_cases href : refusal ctx intent = none
  · obtain ⟨r, hatt, hstat⟩ := hran.attempts href
    have hexc := Attempts.exchanges hatt
    rw [Succeed, hstat, callsOf_append]
    constructor
    · rintro ⟨-, v, calls, hcalls, hrest⟩
      obtain ⟨rfl, rfl⟩ := hcalls.unique (fun h h' => h.unique h') hexc
      exact ⟨⟨v, rfl⟩, hrest⟩
    · rintro ⟨⟨v, rfl⟩, hrest⟩
      exact ⟨href, v, _, hexc, hrest⟩
  · simp [Succeed, href, (hran.refused href).1]

/-- The run of a plan, cut before an intent and after it, or before it if it is not reached. -/
lemma Plan.exists_cut (hplan : Plan w ctx log index (pre ++ intent :: post) results ok events) :
    ∃ before new later, events = before ++ (new ++ later) ∧
      (∀ event ∈ before, event.intent ≠ index + pre.length) ∧
      (∀ event ∈ later, event.intent ≠ index + pre.length) ∧
      ((∃ result, Ran w ctx (log ++ before) (index + pre.length) intent result new ∧
          ∀ h, Succeed w ctx (callsOf log) pre h ↔ h = callsOf (log ++ before)) ∨
        new = [] ∧ ∀ h, ¬ Succeed w ctx (callsOf log) pre h) := by
  induction pre generalizing log index results events with
  | nil =>
    have hsuc : ∀ h, Succeed w ctx (callsOf log) [] h ↔ h = callsOf (log ++ []) := by
      simp [Succeed]
    rw [← append_nil log] at hplan
    cases hplan with
    | @next _ _ _ _ result _ _ new later hran _ hrest =>
      refine ⟨[], new, later, rfl, by simp, fun event heve => ?_, .inl ⟨result, hran, hsuc⟩⟩
      have hbou := hrest.intent_bounds event heve
      rw [length_nil]
      omega
    | stop _ hran =>
      exact ⟨[], _, [], (append_nil _).symm, by simp, by simp, .inl ⟨_, hran, hsuc⟩⟩
  | cons first pre ih =>
    have hidx : index + (first :: pre).length = index + 1 + pre.length := by
      rw [length_cons]
      omega
    rw [hidx]
    cases hplan with
    | @next _ _ _ _ _ _ _ new _ hran hstat hrest =>
      obtain ⟨before, new', later, rfl, hbef, hlat, hcas⟩ := ih hrest
      simp only [hran.succeed_iff, hstat, true_and, append_assoc] at hcas ⊢
      refine ⟨new ++ before, new', later, by simp, ?_, hlat, hcas⟩
      rw [forall_mem_append]
      refine ⟨fun event heve => ?_, hbef⟩
      rw [hran.intent_eq event heve]
      omega
    | stop _ hran hfai =>
      refine ⟨events, [], [], by simp, fun event heve => ?_, by simp, .inr ⟨rfl, fun h hsuc => ?_⟩⟩
      · rw [hran.intent_eq event heve]
        omega
      · exact hfai (hran.succeed_iff.mp hsuc).1

end Cut

/-- **Repeated mutations.**  The change of every mutating intent in a plan is requested of the two
servers together at most twice, and a second time only after transient failures, exactly if the
answers are tolerable whenever such an intent is run: `recovery_policy_for` gives the changes of
windows the three retries of what only reads, `decide_recovery` repeats a first unknown failure too,
and every failure of the control plane sends the change of a window to the surface server. -/
theorem execute_mutations_iff (w : Ipc) (formatResult : CapabilityId → Json → String)
    (ctx : PlannerContext) (intents : List Intent) :
    (∀ pre intent post, intents = pre ++ intent :: post → intent.capability.mutating = true →
        AtMostTwice w pre.length (execute w formatResult ctx intents []).2) ↔
      ∀ pre intent post, intents = pre ++ intent :: post → intent.capability.mutating = true →
        refusal ctx intent = none → ∀ h, Succeed w ctx [] pre h → Tolerable w h intent := by
  refine forall₅_congr fun pre intent post heq hmut => ?_
  rw [heq]
  obtain ⟨results, ok, events, hplan, hexe⟩ := execute_eq w formatResult ctx (pre ++ intent :: post)
  obtain ⟨before, new, later, rfl, hbef, hlat, hrun⟩ := hplan.exists_cut
  simp only [Nat.zero_add, nil_append, filterMap_nil] at hbef hlat hrun
  -- only the events of the intent itself count
  have hmarks : marks w pre.length [] (before ++ (new ++ later)) =
      marks w pre.length (callsOf before) new := by
    rw [marks_append, marks_append, marks_eq_nil hbef, marks_eq_nil hlat]
    simp
  rw [hexe, AtMostTwice, hmarks]
  rcases hrun with ⟨result, hran, hsuc⟩ | ⟨rfl, hsuc⟩
  · simp only [hsuc, forall_eq]
    by_cases href : refusal ctx intent = none
    · obtain ⟨r, hatt, -⟩ := hran.attempts href
      rw [restrained_iff hmut hatt]
      simp [href]
    · simp [(hran.refused href).2, href, marks]
  · simp [hsuc, marks]

def hangUp : Ipc := fun _ call =>
  match call with
  | .control _ => .error "empty response from control plane"
  | .surface _ => .error "empty surface response"

def silent : Ipc := fun _ call =>
  match call with
  | .control _ => .error "recv: Resource temporarily unavailable (os error 11)"
  | .surface _ => .error "recv: Resource temporarily unavailable (os error 11)"

/-- The control plane hangs up, the surface server does what it is asked. -/
def halfDown : Ipc := fun _ call =>
  match call with
  | .control _ => .error "empty response from control plane"
  | .surface _ => .ok (.obj [("ok", .bool true)])

/-- A file is created twice though the first failure says nothing about its kind; a window is closed
by the surface server after a failure of the control plane of unknown kind; and if neither server
answers in time, the window is closed eight times. -/
theorem mutations_repeated :
    let createFile : Intent := ⟨.fileCreate, .obj [("path", .str "a.txt")]⟩
    let closeWindow : Intent := ⟨.windowClose, .obj [("app", .str "notes")]⟩
    let ctx : PlannerContext := ⟨[], ["notes"], ["notes"]⟩
    let created := (execute hangUp (fun _ _ => "") ctx [createFile] []).2
    let closedTwice := (execute halfDown (fun _ _ => "") ctx [closeWindow] []).2
    let closed := (execute silent (fun _ _ => "") ctx [closeWindow] []).2
    createFile.capability.mutating = true ∧ closeWindow.capability.mutating = true ∧
    (marks hangUp 0 [] created = [.request (some .unknown), .failure .unknown,
        .request (some .unknown), .failure .unknown] ∧ ¬ AtMostTwice hangUp 0 created) ∧
    (marks halfDown 0 [] closedTwice = [.request (some .unknown), .request none] ∧
      ¬ AtMostTwice halfDown 0 closedTwice) ∧
    (marks silent 0 [] closed).countP Mark.isRequest = 8 ∧ ¬ AtMostTwice silent 0 closed := by
  decide +kernel

end Aether.Agentd
