import Aether.Algorithm.AssocList
import Aether.Core.Equiv.App
import Aether.Store.Equiv.Launch

/-!
# Reopening the store

An uninstallation leaves the files as they are, so the files describe the apps of the store and
those that were uninstalled in the session (`Mirrored`), over all runs in which no file operation
fails.
-/

namespace Aether.Store

open Aether.Core Security Aether.Except Command List

variable {σ β : Type}

def JsonCodec.Lossless {α : Type} (codec : JsonCodec α β) : Prop :=
  ∀ a, ∃ bytes, codec.toVecPretty a = .ok bytes ∧ codec.fromSlice bytes = .ok a

/-- The file system keeps what is written, and what is encoded can be decoded. -/
structure Persistent (x : StoreEnv σ β) (content : σ → String → String → Option β) : Prop where
  fs : FsContract x.fs content
  manifest : x.manifestCodec.Lossless
  consent : x.consentCodec.Lossless
  record : x.recordCodec.Lossless

def diskApp (x : StoreEnv σ β) (files : String → String → Option β) (dir : String) :
    Option InstalledApp :=
  (files dir "install.json").bind fun installBytes =>
    (files dir "manifest.json").bind fun manifestBytes =>
      (files dir "consent.json").bind fun consentBytes =>
        AppStore.parseInstalled x installBytes manifestBytes consentBytes

/-- Every directory is named after the app in it. -/
def WellFiled (x : StoreEnv σ β) (files : String → String → Option β) : Prop :=
  ∀ dir app, diskApp x files dir = some app → app.record.appId = dir

def uninstalledIn (log : List StoreEvent) (appId : String) : Bool :=
  log.foldl (fun gone event =>
    match event with
    | .opened => false
    | .installed package => if package.manifest.appId = appId then false else gone
    | .uninstalled appId' => if appId' = appId then true else gone
    | _ => gone) false

lemma uninstalledIn_concat (log : List StoreEvent) (event : StoreEvent) (appId : String) :
    uninstalledIn (log ++ [event]) appId =
      match event with
      | .opened => false
      | .installed package =>
        if package.manifest.appId = appId then false else uninstalledIn log appId
      | .uninstalled appId' => if appId' = appId then true else uninstalledIn log appId
      | _ => uninstalledIn log appId := by
  rw [uninstalledIn, foldl_concat]
  rfl

def Failed (s : StoreSystem σ) : Prop := .fsFailed ∈ s.log

lemma Quiet.failed {s s' : StoreSystem σ} (h : Quiet s s') (hs : Failed s) : Failed s' := by
  obtain ⟨n, hn⟩ := h.log
  rw [Failed, hn]
  exact mem_append_left _ hs

variable {appId : String}

lemma slash_not_mem_of_valid (h : isValidAppId appId = true) : '/' ∉ appId.toList := by
  intro hmem
  rcases eq_dot_or_isLabelChar (isValidAppId_iff.mp h).labels hmem with hdot | hchar
  · exact absurd hdot (by decide)
  · revert hchar
    unfold IsLabelChar
    decide

lemma plainName_of_valid (h : isValidAppId appId = true) : PlainName appId := by
  refine ⟨?_, ?_, slash_not_mem_of_valid h⟩
  · rintro rfl
    exact absurd h (by decide)
  · rintro rfl
    exact absurd h (by decide)

lemma plainName_of_validate {m : AppManifest} (h : m.validate = .ok ()) : PlainName m.appId := by
  unfold AppManifest.validate at h
  obtain ⟨-, h⟩ := ite_throw_eq_ok_iff.mp h
  obtain ⟨-, h⟩ := ite_throw_eq_ok_iff.mp h
  obtain ⟨hid, -⟩ := ite_throw_eq_ok_iff.mp h
  exact plainName_of_valid (by simpa using hid)

lemma exists_evict {c : AuditChain} (hc : c.retention.maxEntries ≠ 0) :
    ∃ entries, c.evict = some entries := by
  rw [AuditChain.evict_eq]
  split_ifs with hroom
  · exact ⟨_, rfl⟩
  · cases hent : c.entries with
    | nil =>
      have hpos : 0 < c.retention.maxEntries.toNat := by
        rw [Nat.pos_iff_ne_zero]
        exact fun h0 => hc (UInt64.toNat_inj.mp h0)
      rw [hent] at hroom
      exact absurd (.inr hpos) hroom
    | cons e entries => exact ⟨entries, rfl⟩

namespace AppStore

variable (x : StoreEnv σ β) {s : StoreSystem σ}

def Succeeds {α : Type} (m : StoreM σ α) (s : StoreSystem σ)
    (Q : α → StoreSystem σ → Prop) : Prop :=
  Holds m s fun o s' => ¬ Failed s' → ∃ a, o = .ok a ∧ Q a s'

variable {α : Type} {m : StoreM σ α} {dir entry : String} {files : String → String → Option β}
  {Q : α → StoreSystem σ → Prop}

lemma Succeeds.bind {α' : Type} {f : α → StoreM σ α'} {R : α → StoreSystem σ → Prop}
    {Q : α' → StoreSystem σ → Prop} (hm : Succeeds m s R)
    (hf : ∀ a s', R a s' → Succeeds (f a) s' Q) (hfail : ∀ a, Preserves Failed (f a)) :
    Succeeds (m >>= f) s Q := by
  refine Holds.bind hm (fun a s' h => ?_) (fun e s' h hcln => ?_) fun s' h hcln => ?_
  · -- a failure in `m` is still in the log at the end
    by_cases hcln : Failed s'
    · exact fun hcln' => absurd (hfail a s' hcln) hcln'
    · obtain ⟨a', ha', hR⟩ := h hcln
      cases ha'
      exact hf a s' hR
  · obtain ⟨a, ha, -⟩ := h hcln
    exact nomatch ha
  · obtain ⟨a, ha, -⟩ := h hcln
    exact nomatch ha

lemma succeeds_pure {a : α} (h : Q a s) : Succeeds (pure a) s Q := fun _ => ⟨a, rfl, h⟩

lemma Succeeds.update_bind {g : StoreSystem σ → StoreSystem σ} {f : Unit → StoreM σ α}
    (h : Succeeds (f ()) (g s) Q) : Succeeds (update g >>= f) s Q := h

lemma Succeeds.persisted_bind {α' : Type} {a : α} {f : α → StoreM σ α'}
    {Q : α' → StoreSystem σ → Prop} (h : Succeeds (f a) s Q) :
    Succeeds (persisted (.ok a) >>= f) s Q := h

lemma succeeds_fsCall {op : σ → Except String α × σ}
    {Q : Except String α → StoreSystem σ → Prop}
    (h : ∀ a, (op s.fs).1 = .ok a → Q (.ok a) { s with fs := (op s.fs).2 }) :
    Succeeds (fsCall op) s Q := by
  unfold Succeeds Holds fsCall
  rcases hop : op s.fs with ⟨e | a, fs⟩
  · exact fun hcln => absurd (by simp [Failed]) hcln
  · exact fun _ => ⟨_, rfl, by simpa [hop] using h a (by rw [hop])⟩

lemma failed_of_quiet (hm : ∀ s₀, Preserves (Quiet s₀) m) :
    Preserves Failed m := fun s hs => (hm s s (.refl s)).failed hs

lemma failed_fsCall (op : σ → Except String α × σ) : Preserves Failed (fsCall op) :=
  failed_of_quiet fun _ => quiet_fsCall op

lemma failed_writeJson (codec : JsonCodec α β) (what path : String) (a : α) :
    Preserves Failed (writeJson x codec what path a) :=
  preserves_writeJson x (fun op => failed_fsCall op) codec what path a

def setFile (files : String → String → Option β) (dir file : String) (bytes : β) :
    String → String → Option β :=
  fun dir' file' => if dir' = dir ∧ file' = file then some bytes else files dir' file'

lemma manifestPath_eq (entry : String) : manifestPath entry = joinPath entry "manifest.json" := by
  rw [joinPath, String.append_assoc]
  rfl

lemma consentPath_eq (entry : String) : consentPath entry = joinPath entry "consent.json" := by
  rw [joinPath, String.append_assoc]
  rfl

lemma installPath_eq (entry : String) : installPath entry = joinPath entry "install.json" := by
  rw [joinPath, String.append_assoc]
  rfl

variable {content : σ → String → String → Option β}

lemma succeeds_writeJson (hfs : FsContract x.fs content) {codec : JsonCodec α β}
    (hcod : codec.Lossless) (what : String) {file : String} (hd : PlainName dir)
    (hf : PlainName file) (a : α) :
    Succeeds (writeJson x codec what (joinPath dir file) a) s fun _ s' =>
      ∃ fs bytes, s' = { s with fs } ∧ codec.fromSlice bytes = .ok a ∧
        content fs = setFile (content s.fs) dir file bytes := by
  obtain ⟨bytes, hto, hfrom⟩ := hcod a
  unfold writeJson
  rw [hto]
  refine Succeeds.persisted_bind (a := bytes) ?_
  refine Succeeds.bind (R := fun written s' => written = .ok () ∧ ∃ fs, s' = { s with fs } ∧
    content fs = setFile (content s.fs) dir file bytes) (succeeds_fsCall fun _ hwri => ?_) ?_
    fun _ => preserves_persisted _
  · refine ⟨rfl, _, rfl, ?_⟩
    funext dir' file'
    exact hfs.write_ok _ _ _ _ hd hf hwri dir' file'
  · rintro written s' ⟨rfl, fs, rfl, hcont⟩
    exact succeeds_pure ⟨fs, bytes, rfl, hfrom, hcont⟩

lemma diskApp_setFiles {app : InstalledApp} {installBytes manifestBytes consentBytes : β}
    (hman : x.manifestCodec.fromSlice manifestBytes = .ok app.manifest)
    (hcons : x.consentCodec.fromSlice consentBytes = .ok app.consent)
    (hrcd : x.recordCodec.fromSlice installBytes = .ok app.record) (dir' : String) :
    diskApp x (setFile (setFile (setFile files dir "manifest.json" manifestBytes)
        dir "consent.json" consentBytes) dir "install.json" installBytes) dir' =
      if dir' = dir then some app else diskApp x files dir' := by
  by_cases hdir : dir' = dir
  · simp [diskApp, setFile, hdir, parseInstalled, hman, hcons, hrcd, Except.toOption]
  · simp [diskApp, setFile, hdir]

lemma succeeds_persistInstall (hx : Persistent x content) (package : AppPackage)
    (decision : AppInstallDecision) {record : AppInstallRecord} (hpl : PlainName record.appId) :
    Succeeds (persistInstall x package decision record) s fun _ s' =>
      ∃ fs, s' = { s with fs } ∧ ∀ dir, diskApp x (content fs) dir =
        if dir = record.appId then
          some { record, manifest := package.manifest, consent := decision.consent }
        else diskApp x (content s.fs) dir := by
  unfold persistInstall
  rw [manifestPath_eq, consentPath_eq, installPath_eq]
  -- the directory, then the three files, each written over the files of the step before
  refine Succeeds.bind (R := fun made s' => made = .ok () ∧ ∃ fs, s' = { s with fs } ∧
    content fs = content s.fs) (succeeds_fsCall fun _ hmade => ?_) ?_ fun _ => ?_
  · exact ⟨rfl, _, rfl, hx.fs.mkdirAll_ok _ _ hmade⟩
  · rintro made s₁ ⟨rfl, fs₁, rfl, hcont₁⟩
    refine Succeeds.persisted_bind ?_
    refine Succeeds.bind
      (succeeds_writeJson x hx.fs hx.manifest "manifest" hpl (by decide) package.manifest) ?_
      fun _ => ?_
    · rintro _ s₂ ⟨fs₂, manifestBytes, rfl, hman, hcont₂⟩
      refine Succeeds.bind
        (succeeds_writeJson x hx.fs hx.consent "consent" hpl (by decide) decision.consent) ?_
        fun _ => ?_
      · rintro _ s₃ ⟨fs₃, consentBytes, rfl, hcons, hcont₃⟩
        refine (succeeds_writeJson x hx.fs hx.record "install" hpl (by decide) record).mono ?_
        rintro o s₄ h hcln
        obtain ⟨a, ha, fs₄, installBytes, rfl, hrcd, hcont₄⟩ := h hcln
        refine ⟨a, ha, fs₄, rfl, fun dir => ?_⟩
        rw [hcont₄, hcont₃, hcont₂, hcont₁]
        exact diskApp_setFiles x hman hcons hrcd dir
      · exact failed_writeJson x _ _ _ _
    · exact Preserves.bind (failed_writeJson x _ _ _ _) fun _ => failed_writeJson x _ _ _ _
  · refine Preserves.bind (preserves_persisted _) fun _ => ?_
    refine Preserves.bind (failed_writeJson x _ _ _ _) fun _ => ?_
    exact Preserves.bind (failed_writeJson x _ _ _ _) fun _ => failed_writeJson x _ _ _ _

lemma diskApp_of_not_exists (hfs : FsContract x.fs content) (hpl : PlainName entry) {fs : σ}
    (h : (x.fs.pathExists (joinPath entry "install.json") fs).1 = false) :
    diskApp x (content fs) entry = none := by
  cases hbs : content fs entry "install.json" with
  | none => rw [diskApp, hbs, Option.bind_none]
  | some bytes =>
    have hexi := hfs.pathExists_of_content fs entry _ bytes hpl (by decide) hbs
    exact absurd (hexi.symm.trans h) (by decide)

lemma Succeeds.exists_bind {path : String} {k : Bool → StoreM σ α}
    (h : Succeeds (k (x.fs.pathExists path s.fs).1)
      { s with fs := (x.fs.pathExists path s.fs).2 } Q) :
    Succeeds (fsExists x path >>= k) s Q := h

lemma succeeds_read_bind (hfs : FsContract x.fs content) (hd : PlainName dir) {file : String}
    (hf : PlainName file) {k : Except String β → StoreM σ Unit} {Q : Unit → StoreSystem σ → Prop}
    (herr : ∀ e, k (.error e) = pure ())
    (hok : ∀ bytes fs, content fs = content s.fs → content s.fs dir file = some bytes →
      Succeeds (k (.ok bytes)) { s with fs } Q) :
    Succeeds (fsCall (x.fs.read (joinPath dir file)) >>= k) s Q := by
  have hcont := hfs.content_read (joinPath dir file) s.fs
  unfold Succeeds Holds
  rw [bind_apply, fsCall]
  rcases hread : x.fs.read (joinPath dir file) s.fs with ⟨e | bytes, fs⟩
  · simp only [herr]
    exact fun hcln => absurd (by simp [Failed]) hcln
  · rw [hread] at hcont
    exact hok bytes fs hcont (hfs.read_ok _ _ _ _ hd hf (by rw [hread]))

def enter (installed : AppMap InstalledApp) : Option InstalledApp → AppMap InstalledApp
  | none => installed
  | some app => installed.insert app.record.appId app

lemma succeeds_rehydrateEntry (hfs : FsContract x.fs content) (hpl : PlainName entry) :
    Succeeds (rehydrateEntry x entry) s fun _ s' => ∃ fs, content fs = content s.fs ∧
      s' = { s with fs, installed := enter s.installed (diskApp x (content s.fs) entry) } := by
  unfold rehydrateEntry
  rw [installPath_eq, manifestPath_eq, consentPath_eq]
  refine Succeeds.exists_bind x ?_
  have hexi := hfs.content_pathExists (joinPath entry "install.json") s.fs
  rcases hfnd : x.fs.pathExists (joinPath entry "install.json") s.fs with ⟨_ | _, fs₀⟩
  · rw [hfnd] at hexi
    refine succeeds_pure ⟨fs₀, hexi, ?_⟩
    rw [diskApp_of_not_exists x hfs hpl (by rw [hfnd])]
    rfl
  · rw [hfnd] at hexi
    refine succeeds_read_bind x hfs hpl (by decide) (fun _ => rfl)
      fun installBytes fs₁ hcont₁ hinst => ?_
    refine succeeds_read_bind x hfs hpl (by decide) (fun _ => rfl)
      fun manifestBytes fs₂ hcont₂ hman => ?_
    refine succeeds_read_bind x hfs hpl (by decide) (fun _ => rfl)
      fun consentBytes fs₃ hcont₃ hcons => ?_
    simp only at hcont₁ hcont₂ hcont₃ hinst hman hcons ⊢
    have hdisk : diskApp x (content s.fs) entry =
        parseInstalled x installBytes manifestBytes consentBytes := by
      rw [hcont₂, hcont₁, hexi] at hcons
      rw [hcont₁, hexi] at hman
      rw [hexi] at hinst
      rw [diskApp, hinst, hman, hcons]
      rfl
    have hcont : content fs₃ = content s.fs := by
      rw [hcont₃, hcont₂, hcont₁, hexi]
    rw [hdisk]
    cases parseInstalled x installBytes manifestBytes consentBytes with
    | none => exact succeeds_pure ⟨fs₃, hcont, rfl⟩
    | some app => exact fun _ => ⟨(), rfl, fs₃, hcont, rfl⟩

lemma lookup_enter (installed : AppMap InstalledApp) (hfil : WellFiled x files)
    (entry appId : String) :
    (enter installed (diskApp x files entry)).lookup appId =
      if appId = entry then (diskApp x files appId).or (installed.lookup appId)
      else installed.lookup appId := by
  cases hdisk : diskApp x files entry with
  | none =>
    unfold enter
    split_ifs with hid
    · rw [hid, hdisk, Option.none_or]
    · rfl
  | some app =>
    unfold enter
    simp only
    rw [hfil entry app hdisk, AssocList.lookup_insert]
    split_ifs with hid
    · rw [hid, hdisk, Option.some_or]
    · rfl

lemma failed_fsExists (path : String) : Preserves Failed (fsExists x path) :=
  failed_of_quiet fun _ => quiet_fsExists x path

lemma failed_rehydrateEach (entries : List String) :
    Preserves Failed (rehydrateEach x entries) :=
  preserves_rehydrateEach x (fun _ => failed_fsCall _) (failed_fsExists x)
    (fun _ => preserves_update fun _ hs => hs) entries

lemma failed_rehydrateInstalls : Preserves Failed (rehydrateInstalls x) :=
  preserves_rehydrateInstalls x (fun _ => failed_fsCall _) (failed_fsExists x)
    (fun _ => preserves_update fun _ hs => hs) (failed_fsCall _)

lemma succeeds_rehydrateEach (hfs : FsContract x.fs content) (hfil : WellFiled x files)
    {entries : List String} (hpl : ∀ entry ∈ entries, PlainName entry)
    (hfiles : content s.fs = files) :
    Succeeds (rehydrateEach x entries) s fun _ s' => ∃ fs installed, content fs = files ∧
      s' = { s with fs, installed } ∧ ∀ appId, installed.lookup appId =
        if appId ∈ entries then (diskApp x files appId).or (s.installed.lookup appId)
        else s.installed.lookup appId := by
  induction entries generalizing s with
  | nil => exact succeeds_pure ⟨s.fs, s.installed, hfiles, rfl, fun _ => rfl⟩
  | cons entry entries ih =>
    rw [forall_mem_cons] at hpl
    refine Succeeds.bind (succeeds_rehydrateEntry x hfs hpl.1) ?_ fun _ =>
      failed_rehydrateEach x entries
    rintro _ s₁ ⟨fs₁, hcont, rfl⟩
    refine (ih (s := { s with fs := fs₁, installed := _ }) hpl.2 (hcont.trans hfiles)).mono ?_
    intro o s₂ h hcln
    obtain ⟨a, ha, fs₂, installed, hfiles₂, rfl, hlook⟩ := h hcln
    refine ⟨a, ha, fs₂, installed, hfiles₂, rfl, fun appId => ?_⟩
    rw [hlook, hfiles, lookup_enter x _ hfil]
    by_cases hid : appId = entry
    · have hmem : appId ∈ entry :: entries := hid ▸ mem_cons_self
      rw [if_pos hid, if_pos hmem, ← Option.or_assoc, Option.or_self, ite_self]
    · simp [hid]

lemma succeeds_loadTrust (hfs : FsContract x.fs content) :
    Succeeds (loadTrust x) s fun _ s' => ∃ fs, s' = { s with fs } ∧ content fs = content s.fs := by
  have hexi := hfs.content_pathExists trustFile s.fs
  unfold Succeeds Holds loadTrust
  rw [bind_apply, fsExists]
  rcases hfnd : x.fs.pathExists trustFile s.fs with ⟨_ | _, fs₁⟩ <;> rw [hfnd] at hexi
  · exact fun _ => ⟨_, rfl, fs₁, rfl, hexi⟩
  · have hread := hfs.content_read trustFile fs₁
    simp only [if_true]
    rw [bind_apply, fsCall]
    rcases hbs : x.fs.read trustFile fs₁ with ⟨e | bytes, fs₂⟩ <;> rw [hbs] at hread
    · exact fun hcln => absurd (by simp [Failed]) hcln
    · exact fun _ => ⟨_, rfl, fs₂, rfl, hread.trans hexi⟩

lemma succeeds_rehydrateInstalls (hfs : FsContract x.fs content)
    (hfil : WellFiled x (content s.fs)) (hemp : s.installed = ∅) :
    Succeeds (rehydrateInstalls x) s fun _ s' => ∃ fs installed, content fs = content s.fs ∧
      s' = { s with fs, installed } ∧
        ∀ appId, installed.lookup appId = diskApp x (content s.fs) appId := by
  refine Succeeds.bind (R := fun listed s' => ∃ names fs, listed = .ok names ∧
    s' = { s with fs } ∧ content fs = content s.fs ∧ (∀ dir ∈ names, PlainName dir) ∧
      ∀ dir file, (content s.fs dir file).isSome → dir ∈ names)
    (succeeds_fsCall fun names hnam => ?_) ?_ fun listed => ?_
  · obtain ⟨hpl, hall⟩ := hfs.list_ok s.fs names hnam
    exact ⟨names, _, rfl, rfl, hfs.content_list _ _, hpl, hall⟩
  · rintro listed s₁ ⟨names, fs₁, rfl, rfl, hcont, hpl, hall⟩
    refine (succeeds_rehydrateEach x hfs hfil hpl hcont).mono fun o s₂ h hcln => ?_
    obtain ⟨a, ha, fs₂, installed, hfiles, rfl, hlook⟩ := h hcln
    refine ⟨a, ha, fs₂, installed, hfiles, rfl, fun appId => ?_⟩
    rw [hlook, hemp, AList.lookup_empty, Option.or_none]
    split_ifs with hmem
    · rfl
    · -- a directory that is not listed has no files
      cases hinst : content s.fs appId "install.json" with
      | none => rw [diskApp, hinst, Option.bind_none]
      | some bytes => exact absurd (hall appId _ (by rw [hinst]; rfl)) hmem
  · cases listed with
    | error e => exact preserves_pure _
    | ok names => exact failed_rehydrateEach x names

/-- **Opening**: without a failure, a new store has the apps that the files describe. -/
theorem new_succeeds (hfs : FsContract x.fs content) (hfil : WellFiled x (content s.fs)) :
    Succeeds (new x) s fun _ s' => s'.audit = AuditChain.new .default ∧
      s'.log = s.log ++ [.opened] ∧ content s'.fs = content s.fs ∧
        ∀ appId, s'.installed.lookup appId = diskApp x (content s.fs) appId := by
  refine Succeeds.update_bind ?_
  refine Succeeds.bind (succeeds_loadTrust x hfs) ?_ fun trust => ?_
  · rintro trust s₁ ⟨fs₁, rfl, hcont₁⟩
    simp only at hcont₁
    refine Succeeds.update_bind ?_
    refine (succeeds_rehydrateInstalls x hfs (s := { fs := fs₁, trust, .. }) ?_ rfl).mono ?_
    · simp only [hcont₁]
      exact hfil
    · intro o s₂ h hcln
      obtain ⟨a, ha, fs₂, installed, hcont₂, rfl, hlook⟩ := h hcln
      rw [hcont₁] at hcont₂ hlook
      exact ⟨a, ha, rfl, rfl, hcont₂, hlook⟩
  · refine Preserves.bind (preserves_update fun _ hs => hs) fun _ => ?_
    exact failed_rehydrateInstalls x

end AppStore

structure Mirrored (x : StoreEnv σ β) (content : σ → String → String → Option β)
    (s : StoreSystem σ) : Prop where
  audit : s.audit.retention.maxEntries ≠ 0
  filed : WellFiled x (content s.fs)
  installed : ∀ appId, s.installed.lookup appId =
    if uninstalledIn s.log appId then none else diskApp x (content s.fs) appId
  kept : ∀ appId, uninstalledIn s.log appId → (diskApp x (content s.fs) appId).isSome

def Mirrors (x : StoreEnv σ β) (content : σ → String → String → Option β) (s : StoreSystem σ) :
    Prop :=
  ¬ Failed s → Mirrored x content s

section Mirrors

variable {x : StoreEnv σ β} {content : σ → String → String → Option β} {s s' : StoreSystem σ}

lemma Mirrored.congr (h : Mirrored x content s) (haud : s'.audit.retention = s.audit.retention)
    (hfs : content s'.fs = content s.fs) (hins : s'.installed = s.installed)
    (hlog : ∀ appId, uninstalledIn s'.log appId = uninstalledIn s.log appId) :
    Mirrored x content s' where
  audit := by
    rw [haud]
    exact h.audit
  filed := by
    rw [hfs]
    exact h.filed
  installed appId := by
    rw [hins, hlog, hfs]
    exact h.installed appId
  kept appId happId := by
    rw [hlog] at happId
    rw [hfs]
    exact h.kept appId happId

variable {payloads : AppMap (List UInt8)}

lemma Mirrored.commit {package : AppPackage} {app : InstalledApp} {audit : AuditChain} {fs : σ}
    (h : Mirrored x content s) (haud : audit.retention = s.audit.retention)
    (hrcd : app.record.appId = package.manifest.appId)
    (hdisk : ∀ dir, diskApp x (content fs) dir =
      if dir = package.manifest.appId then some app else diskApp x (content s.fs) dir) :
    Mirrored x content { s with
      fs, audit, payloads
      installed := s.installed.insert package.manifest.appId app
      log := s.log ++ [.installed package] } where
  audit := by
    simp only [haud]
    exact h.audit
  filed dir app' happ' := by
    simp only [hdisk] at happ'
    split_ifs at happ' with hdir
    · cases happ'
      rw [hrcd, hdir]
    · exact h.filed dir app' happ'
  installed appId := by
    simp only [uninstalledIn_concat, hdisk]
    rw [AssocList.lookup_insert]
    by_cases hid : appId = package.manifest.appId
    · rw [if_pos hid, if_pos hid.symm, if_pos hid, if_neg (by decide)]
    · rw [if_neg hid, if_neg (Ne.symm hid), if_neg hid]
      exact h.installed appId
  kept appId happId := by
    simp only [uninstalledIn_concat, hdisk] at happId ⊢
    by_cases hid : appId = package.manifest.appId
    · rw [if_pos hid]
      rfl
    · rw [if_neg (Ne.symm hid)] at happId
      rw [if_neg hid]
      exact h.kept appId happId

lemma Mirrored.uninstall (h : Mirrored x content s)
    (hfnd : (s.installed.lookup appId).isSome) :
    Mirrored x content { s with
      payloads
      installed := s.installed.erase appId
      log := s.log ++ [.uninstalled appId] } where
  audit := h.audit
  filed := h.filed
  installed appId' := by
    simp only [uninstalledIn_concat]
    rw [AssocList.lookup_erase]
    by_cases hid : appId' = appId
    · rw [if_pos hid, if_pos (by rw [if_pos hid.symm])]
    · rw [if_neg hid, if_neg (Ne.symm hid)]
      exact h.installed appId'
  kept appId' happId' := by
    simp only [uninstalledIn_concat] at happId'
    by_cases hid : appId' = appId
    · -- the app was installed, so the files describe it
      subst hid
      rw [h.installed] at hfnd
      split_ifs at hfnd
      · exact absurd hfnd (by decide)
      · exact hfnd
    · rw [if_neg (Ne.symm hid)] at happId'
      exact h.kept appId' happId'

lemma mirrored_of_opened (hfil : WellFiled x (content s.fs))
    (haud : s'.audit = AuditChain.new .default)
    (hlog : s'.log = s.log ++ [.opened]) (hfs : content s'.fs = content s.fs)
    (hins : ∀ appId, s'.installed.lookup appId = diskApp x (content s.fs) appId) :
    Mirrored x content s' where
  audit := by
    rw [haud]
    decide
  filed := by
    rw [hfs]
    exact hfil
  installed appId := by
    rw [hlog, uninstalledIn_concat, if_neg Bool.false_ne_true, hfs]
    exact hins appId
  kept appId happId := by
    rw [hlog, uninstalledIn_concat] at happId
    exact absurd happId Bool.false_ne_true

end Mirrors

namespace AppStore

variable (x : StoreEnv σ β) {content : σ → String → String → Option β} {s : StoreSystem σ}

lemma recordAudit_apply (hs : s.audit.retention.maxEntries ≠ 0) (nowMs : UInt64)
    (event component detail : String) :
    ∃ audit, recordAudit x nowMs event component detail s = (.ok (), { s with audit }) ∧
      audit.retention = s.audit.retention := by
  obtain ⟨entries, hent⟩ := exists_evict hs
  unfold recordAudit
  rw [AuditChain.record, hent]
  exact ⟨_, rfl, rfl⟩

lemma mirrors_recordAudit (nowMs : UInt64) (event component detail : String) :
    Preserves (Mirrors x content) (recordAudit x nowMs event component detail) := by
  intro s hs hcln
  have hcln₀ : ¬ Failed s := fun h =>
    hcln ((quiet_recordAudit x nowMs event component detail s (.refl s)).failed h)
  obtain ⟨audit, haud, hret⟩ :=
    recordAudit_apply x (hs hcln₀).audit nowMs event component detail
  rw [haud]
  exact (hs hcln₀).congr hret rfl rfl fun _ => rfl

variable {package : AppPackage}

lemma plainName_of_checkInstall {userConsent : List AppPermission}
    (h : checkInstall package userConsent s = .ok ()) : PlainName package.manifest.appId := by
  unfold checkInstall at h
  obtain ⟨_, hval, -⟩ := bind_eq_ok_iff.mp h
  exact plainName_of_validate (mapError_eq_ok_iff.mp hval)

lemma mirrors_commitInstall (hs : Mirrored x content s) {decision : AppInstallDecision}
    {record : AppInstallRecord} (hrcd : record.appId = package.manifest.appId) {fs : σ}
    (hdisk : ∀ dir, diskApp x (content fs) dir =
      if dir = record.appId then
        some { record, manifest := package.manifest, consent := decision.consent }
      else diskApp x (content s.fs) dir) (nowMs : UInt64) :
    Mirrors x content (commitInstall x package decision record nowMs { s with fs }).2 := by
  obtain ⟨audit, haud, hret⟩ := recordAudit_apply x (s := { s with fs }) hs.audit nowMs
    "store.install" "aether-store"
    s!"version={record.receiptVersion} plan_digest={record.planDigestHex}"
  rw [commitInstall, bind_apply, haud]
  rw [hrcd] at hdisk
  exact fun _ => hs.commit hret hrcd hdisk

lemma failed_commitInstall (package : AppPackage) (decision : AppInstallDecision)
    (record : AppInstallRecord) (nowMs : UInt64) :
    Preserves Failed (commitInstall x package decision record nowMs : StoreM σ _) :=
  Preserves.bind (failed_of_quiet fun _ => quiet_recordAudit x _ _ _ _) fun _ =>
    preserves_update fun _ hs => mem_append_left _ hs

lemma mirrors_installSigned (hx : Persistent x content) (package : AppPackage)
    (userConsent : List AppPermission) (nowMs : UInt64) :
    Preserves (Mirrors x content) (installSigned x package userConsent nowMs) := by
  intro s hs
  have hpre : Holds (prepareInstall x package userConsent nowMs) s fun o s₁ =>
      Mirrors x content s₁ ∧ ∀ decision record, o = .ok (decision, record) →
        PlainName package.manifest.appId ∧ record.appId = package.manifest.appId := by
    refine ⟨preserves_prepareInstall x (mirrors_recordAudit x) package userConsent nowMs s hs,
      fun decision record h => ?_⟩
    obtain ⟨hchk, hprep⟩ :=
      (prepareInstall_spec x package userConsent nowMs s).2.2 decision record h
    exact ⟨plainName_of_checkInstall hchk, hprep.recordId⟩
  refine Holds.bind (Q := fun _ s' => Mirrors x content s') hpre (fun result s₁ h₁ => ?_)
    (fun _ _ h => h.1) fun _ h => h.1
  obtain ⟨decision, record⟩ := result
  obtain ⟨hs₁, hres⟩ := h₁
  obtain ⟨hpl, hrcd⟩ := hres decision record rfl
  rw [← hrcd] at hpl
  refine Holds.bind (succeeds_persistInstall x hx package decision hpl) (fun _ s₂ h₂ => ?_)
    (fun e s₂ h₂ hcln => ?_) fun s₂ h₂ hcln => ?_
  · refine Holds.bind (R := fun _ s' => Mirrors x content s') ?_ (fun _ _ h => h) (fun _ _ h => h)
      fun _ h => h
    by_cases hfail : Failed s₂
    · exact fun hcln => absurd (failed_commitInstall x _ _ _ _ s₂ hfail) hcln
    · obtain ⟨_, -, fs, rfl, hdisk⟩ := h₂ hfail
      exact mirrors_commitInstall x (hs₁ hfail) hrcd hdisk nowMs
  · obtain ⟨a, ha, -⟩ := h₂ hcln
    exact nomatch ha
  · obtain ⟨a, ha, -⟩ := h₂ hcln
    exact nomatch ha

lemma mirrors_launch (appId : String) (nowMs : UInt64) :
    Preserves (Mirrors x content) (launch x appId nowMs) := by
  refine preserves_launch x (mirrors_recordAudit x) (fun app call s hs hcln => ?_)
    (fun s hs hcln => (hs hcln).congr rfl rfl rfl fun _ => rfl) appId nowMs
  have hcln₀ : ¬ Failed s := fun h => hcln (mem_append_left _ h)
  exact (hs hcln₀).congr rfl rfl rfl (uninstalledIn_concat s.log (.launched app call))

lemma mirrors_uninstall (appId : String) (nowMs : UInt64) :
    Preserves (Mirrors x content) (uninstall x appId nowMs) := by
  intro s hs
  rw [uninstall, peek_bind_apply]
  by_cases hfnd : (s.installed.lookup appId).isSome
  · rw [if_pos hfnd, update_bind_apply]
    refine mirrors_recordAudit x _ _ _ _ _ fun hcln => ?_
    exact (hs fun h => hcln (mem_append_left _ h)).uninstall hfnd
  · rw [if_neg hfnd]
    exact hs

lemma mirrors_setTrust (hfs : FsContract x.fs content) (trust : TrustedPublisherRegistry)
    (nowMs : UInt64) : Preserves (Mirrors x content) (setTrust x trust nowMs) := by
  refine preserves_setTrust x (mirrors_recordAudit x) trust (fun json s hs hcln => ?_)
    (fun s hs hcln => (hs hcln).congr rfl rfl rfl fun _ => rfl) nowMs
  -- the trust file is in no app's directory
  have hwri := hfs.write_top_ok s.fs trustFile json (by decide)
  unfold fsCall at hcln ⊢
  rcases hop : x.fs.write trustFile json s.fs with ⟨e | _, fs⟩
  · rw [hop] at hcln
    exact absurd (by simp [Failed]) hcln
  · rw [hop] at hcln hwri
    exact (hs hcln).congr rfl (hwri rfl) rfl fun _ => rfl

lemma failed_new : Preserves Failed (new x) := by
  refine Preserves.bind (preserves_update fun s hs => mem_append_left _ hs) fun _ => ?_
  refine Preserves.bind (preserves_loadTrust x (fun _ => failed_fsCall _) (failed_fsExists x))
    fun trust => ?_
  refine Preserves.bind (preserves_update fun _ hs => hs) fun _ => ?_
  exact failed_rehydrateInstalls x

lemma mirrors_new (hfs : FsContract x.fs content)
    (hfil : ¬ Failed s → WellFiled x (content s.fs)) : Mirrors x content (new x s).2 := by
  intro hcln
  have hfil' := hfil fun h => hcln (failed_new x s h)
  obtain ⟨_, -, haud, hlog, hcont, hins⟩ := new_succeeds x hfs hfil' hcln
  exact mirrored_of_opened hfil' haud hlog hcont hins

end AppStore

section Runs

variable {x : StoreEnv σ β} {content : σ → String → String → Option β} {s : StoreSystem σ}

lemma mirrors_step (hx : Persistent x content) (op : StoreOp) (hs : Mirrors x content s) :
    Mirrors x content (s.step x op) := by
  cases op with
  | installSigned package userConsent nowMs =>
    exact Preserves.bind (AppStore.mirrors_installSigned x hx _ _ _)
      (fun _ => preserves_pure _) s hs
  | launch appId nowMs =>
    exact Preserves.bind (AppStore.mirrors_launch x _ _) (fun _ => preserves_pure _) s hs
  | uninstall appId nowMs => exact AppStore.mirrors_uninstall x _ _ s hs
  | setTrust trust nowMs => exact AppStore.mirrors_setTrust x hx.fs _ _ s hs
  | reopen => exact AppStore.mirrors_new x hx.fs fun hcln => (hs hcln).filed

lemma mirrors_run (hx : Persistent x content) (ops : List StoreOp) (hs : Mirrors x content s) :
    Mirrors x content (s.run x ops) := by
  induction ops generalizing s with
  | nil => exact hs
  | cons op ops ih => exact ih (mirrors_step hx op hs)

/-- A store that is opened over the same file system has the same apps. -/
def ReopensAs (x : StoreEnv σ β) (s : StoreSystem σ) : Prop :=
  ∀ appId, (s.step x .reopen).installed.lookup appId = s.installed.lookup appId

/-- **Restart**: over every run without a failing file operation, a store that is opened over the
same file system has the same apps if and only if no app is uninstalled in the session without
having been installed again. -/
theorem run_reopen_iff (hx : Persistent x content) (fs : σ) (hfiled : WellFiled x (content fs))
    (ops : List StoreOp)
    (hclean : ¬ Failed (((StoreSystem.start x fs).run x ops).step x .reopen)) :
    ReopensAs x ((StoreSystem.start x fs).run x ops) ↔
      ∀ appId, uninstalledIn ((StoreSystem.start x fs).run x ops).log appId = false := by
  have hsta : Mirrors x content (StoreSystem.start x fs) :=
    AppStore.mirrors_new x hx.fs fun _ => hfiled
  have hs := mirrors_run hx ops hsta fun h => hclean (AppStore.failed_new x _ h)
  obtain ⟨_, -, -, -, -, hins⟩ := AppStore.new_succeeds x hx.fs hs.filed hclean
  constructor
  · intro hsame appId
    rw [Bool.eq_false_iff]
    intro hgone
    have hlook := hsame appId
    rw [hs.installed, if_pos hgone] at hlook
    have hkept := hs.kept appId hgone
    rw [(hins appId).symm.trans hlook] at hkept
    exact absurd hkept (by decide)
  · intro hnone appId
    rw [hs.installed, hnone, if_neg (by decide)]
    exact hins appId

end Runs

inductive StoredValue where
  | manifest (m : AppManifest)
  | consent (c : AppConsentRecord)
  | record (r : AppInstallRecord)
  | trust (t : TrustedPublisherRegistry)

def diskEnv : StoreEnv (LocalTree StoredValue) StoredValue where
  fs := LocalFs StoredValue
  sha256 _ := Vector.replicate 32 0
  planToVec _ := .ok []
  manifestToVec _ := .ok []
  manifestCodec := ⟨fun m => .ok (.manifest m), fun
    | .manifest m => .ok m
    | _ => .error "expected a manifest"⟩
  consentCodec := ⟨fun c => .ok (.consent c), fun
    | .consent c => .ok c
    | _ => .error "expected a consent record"⟩
  recordCodec := ⟨fun r => .ok (.record r), fun
    | .record r => .ok r
    | _ => .error "expected an install record"⟩
  trustCodec := ⟨fun t => .ok (.trust t), fun
    | .trust t => .ok t
    | _ => .error "expected a trust registry"⟩
  launch _ _ := .error "no launcher"

lemma persistent_diskEnv : Persistent diskEnv localContent where
  fs := localFs_contract
  manifest m := ⟨.manifest m, rfl, rfl⟩
  consent c := ⟨.consent c, rfl, rfl⟩
  record r := ⟨.record r, rfl, rfl⟩

lemma wellFiled_empty : WellFiled diskEnv (localContent LocalTree.empty) := by
  intro dir app h
  have hnone :
      localContent (LocalTree.empty : LocalTree StoredValue) dir "install.json" = none := by
    unfold localContent
    split_ifs <;> rfl
  rw [diskApp, hnone] at h
  exact nomatch h

def calcManifest : AppManifest :=
  { notesManifest with appId := "com.example.calc", name := "Calc", permissions := [.notify] }

def calcPackage : AppPackage := ⟨calcManifest, "", [0]⟩

def calcInstalled : List StoreOp :=
  [.setTrust ⟨[⟨"key", none, none⟩]⟩ 1, .installSigned calcPackage [.notify] 2]

def calcUninstalled : List StoreOp := calcInstalled ++ [.uninstall "com.example.calc" 3]

def onDisk (ops : List StoreOp) : StoreSystem (LocalTree StoredValue) :=
  (StoreSystem.start diskEnv .empty).run diskEnv ops

theorem run_reopen_iff_calcInstalled :
    ¬ Failed ((onDisk calcInstalled).step diskEnv .reopen) ∧
      (ReopensAs diskEnv (onDisk calcInstalled) ↔
        ∀ appId, uninstalledIn (onDisk calcInstalled).log appId = false) := by
  have hcln : ¬ Failed ((onDisk calcInstalled).step diskEnv .reopen) := by
    unfold Failed
    decide +kernel
  exact ⟨hcln, run_reopen_iff persistent_diskEnv .empty wellFiled_empty calcInstalled hcln⟩

/-- An app that was uninstalled is back when the store is opened again. -/
theorem uninstalled_app_reopens :
    ¬ Failed ((onDisk calcUninstalled).step diskEnv .reopen) ∧
      ¬ ReopensAs diskEnv (onDisk calcUninstalled) := by
  -- the run is evaluated once for both parts
  have hrun : ¬ Failed ((onDisk calcUninstalled).step diskEnv .reopen) ∧
      ((onDisk calcUninstalled).step diskEnv .reopen).installed.lookup "com.example.calc" ≠
        (onDisk calcUninstalled).installed.lookup "com.example.calc" := by
    unfold Failed
    decide +kernel
  exact ⟨hrun.1, fun hsame => hrun.2 (hsame "com.example.calc")⟩

end Aether.Store
