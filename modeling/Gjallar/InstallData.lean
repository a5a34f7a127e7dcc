import Gjallar.WorkingEngine

/-!
# The data of an installation

Secrets, the volume and the options of an installation across any number of interrupted runs.
Between two runs the volumes of the engine may change in any way.
-/
namespace Gjallar.Bootstrap

open Gjallar.Text Gjallar.Data Gjallar.CrashPrograms Gjallar.Installation

/-- The database of the installation may hold rows. -/
def Stored (m : Manifest) : Prop := m.state = .storageReady ∨ m.state = .ready

/-- How far an installation has come. -/
def stage : State → ℕ
  | .preparing => 0
  | .prepared => 1
  | .storageReady => 2
  | .ready => 3

theorem stored_iff (m : Manifest) : Stored m ↔ 2 ≤ stage m.state := by
  unfold Stored
  cases m.state <;> decide

theorem Stored.of_stage {m m' : Manifest} (h : Stored m) (hstage : stage m.state ≤ stage m'.state) :
    Stored m' :=
  (stored_iff m').mpr (((stored_iff m).mp h).trans hstage)

theorem ready_iff (m : Manifest) : m.state = .ready ↔ 3 ≤ stage m.state := by
  cases m.state <;> decide

/-- The manifests differ at most in the image and the state. -/
structure SameOptions (m m' : Manifest) : Prop where
  id : m'.id = m.id
  version : m'.version = m.version
  port : m'.port = m.port
  postgresImage : m'.postgresImage = m.postgresImage

theorem SameOptions.refl (m : Manifest) : SameOptions m m := ⟨rfl, rfl, rfl, rfl⟩

theorem SameOptions.trans {l m n : Manifest} (h : SameOptions l m) (h' : SameOptions m n) :
    SameOptions l n :=
  ⟨h'.id.trans h.id, h'.version.trans h.version, h'.port.trans h.port,
    h'.postgresImage.trans h.postgresImage⟩

theorem SameOptions.bindAddress {m m' : Manifest} (h : SameOptions m m') :
    m'.bindAddress = m.bindAddress := by
  unfold Manifest.bindAddress
  rw [h.version]

def Event.createsVolume : Event → Bool
  | .ran (.volumeCreate _ _) _ _ => true
  | _ => false

def Event.usesVolume : Event → Bool
  | .ran (.compose _ _ _ _) _ _ => true
  | _ => false

/-- The volumes of the engine change from outside. -/
def VolumesChanged (w w' : World) : Prop := ∃ volumes, w' = { w with volumes := volumes }

/-- The worlds after any number of runs from a world, each of which may be killed. -/
abbrev After (assets : Assets) (allowed : Run → World → List Reply → Prop) :
    World → World → Prop :=
  Reached (program assets) allowed VolumesChanged

theorem After.localRun {origin w : World} {allowed : Run → World → List Reply → Prop}
    (h : After localAssets allowed origin w) (run : Run) (steps : ℕ)
    (hallowed : allowed run w (List.replicate steps localReply)) :
    After localAssets allowed origin (localWorld run steps w) :=
  Reached.run h run _ hallowed

/-- Runs of every kind. -/
def Anything : Run → World → List Reply → Prop := fun _ _ _ => True

/-- Runs that are no upgrades. -/
def WithoutUpgrade : Run → World → List Reply → Prop := fun run _ _ => run.upgrades = false

/-! ### Forward in time -/

/-- What a later world keeps of an earlier one. -/
structure Forward (w w' : World) : Prop where
  secrets : ∀ name text, w.directory.secrets name = some text →
    w'.directory.secrets name = some text
  manifest : ∀ m, w.directory.loaded = some m →
    ∃ m', w'.directory.loaded = some m' ∧ SameOptions m m' ∧ stage m.state ≤ stage m'.state
  events : ∃ events, w'.log = events ++ w.log ∧
    ∀ m, w.directory.loaded = some m → Stored m → ∀ e ∈ events, e.createsVolume = false

theorem Forward.of_kept {w w' : World} (hsecrets : w'.directory.secrets = w.directory.secrets)
    (hmanifest : w'.directory.manifest = w.directory.manifest) (hlog : w'.log = w.log) :
    Forward w w' := by
  have hloaded : w'.directory.loaded = w.directory.loaded :=
    congrArg (fun manifest => Option.bind manifest validateManifest) hmanifest
  refine ⟨fun name text h => ?_, fun m h => ⟨m, ?_, SameOptions.refl m, le_rfl⟩, [], hlog, ?_⟩
  · rw [hsecrets, h]
  · rw [hloaded, h]
  · intro m _ _ e he
    cases he

theorem Forward.refl (w : World) : Forward w w := Forward.of_kept rfl rfl rfl

theorem Forward.trans {u v w : World} (h : Forward u v) (h' : Forward v w) : Forward u w := by
  obtain ⟨first, hfirst, hcreates⟩ := h.events
  obtain ⟨second, hsecond, hcreates'⟩ := h'.events
  refine ⟨fun name text ht => h'.secrets _ _ (h.secrets _ _ ht), fun m hm => ?_,
    second ++ first, ?_, fun m hm hstored e he => ?_⟩
  · obtain ⟨m', hm', hsame, hstage⟩ := h.manifest m hm
    obtain ⟨m'', hm'', hsame', hstage'⟩ := h'.manifest m' hm'
    exact ⟨m'', hm'', hsame.trans hsame', hstage.trans hstage'⟩
  · rw [hsecond, hfirst, List.append_assoc]
  · rcases List.mem_append.mp he with he | he
    · obtain ⟨m', hm', -, hstage⟩ := h.manifest m hm
      exact hcreates' m' hm' (hstored.of_stage hstage) e he
    · exact hcreates m hm hstored e he

/-- A move that replaces the manifest by one with the same options. -/
theorem Forward.of_manifest {w w' : World} {m m' : Manifest}
    (hsecrets : w'.directory.secrets = w.directory.secrets) (hlog : w'.log = w.log)
    (hloaded : w.directory.loaded = some m) (hloaded' : w'.directory.loaded = some m')
    (hsame : SameOptions m m') (hstage : stage m.state ≤ stage m'.state) : Forward w w' := by
  refine ⟨fun name text h => ?_, fun n hn => ?_, [], hlog, ?_⟩
  · rw [hsecrets, h]
  · rw [hloaded] at hn
    cases hn
    exact ⟨m', hloaded', hsame, hstage⟩
  · intro n _ _ e he
    cases he

theorem journalOf_eq_some {data : Value} {before candidate : Manifest}
    (h : journalOf data = some (before, candidate)) :
    before.withImage candidate.image = candidate := by
  unfold journalOf at h
  simp only [Option.bind_eq_bind, Option.bind_eq_some_iff] at h
  obtain ⟨_, -, b, -, c, -, h⟩ := h
  split_ifs at h with hsame
  cases h
  exact hsame

section Moving

variable {assets : Assets} {given : Given} {w w' : World}

theorem Upgrading.withImage {before candidate : Manifest} (h : Upgrading w before candidate) :
    before.withImage candidate.image = candidate := by
  obtain ⟨data, -, hjournal⟩ := Option.bind_eq_some_iff.mp h.journal
  exact journalOf_eq_some hjournal

/-- The manifest of the directory differs from the candidate only in the image. -/
theorem Upgrading.current {before candidate : Manifest} (h : Upgrading w before candidate) :
    ∃ m, w.directory.loaded = some m ∧ SameOptions m candidate ∧ m.state = candidate.state := by
  rcases h.manifest with hloaded | hloaded
  · refine ⟨before, hloaded, ?_, ?_⟩
    · rw [← h.withImage]
      exact ⟨rfl, rfl, rfl, rfl⟩
    · rw [← h.withImage, Manifest.withImage_state]
  · exact ⟨candidate, hloaded, SameOptions.refl _, rfl⟩

theorem Advance.stage_le {m : Manifest} {state : State} (h : Advance assets w m state) :
    stage m.state ≤ stage state := by
  cases h with
  | prepared hstate | storageReady hstate | ready hstate =>
      rw [hstate]
      decide

theorem Forward.of_move (h : Move given w w') : Forward w w' := by
  cases h with
  | stay => exact Forward.refl w
  | ran command succeeded hguard =>
      refine ⟨fun _ _ h => h, fun m hm => ⟨m, hm, SameOptions.refl m, le_rfl⟩, [_], rfl, ?_⟩
      intro m hm hstored e he
      rw [List.mem_singleton.mp he]
      cases command with
      | volumeCreate label name =>
          -- the volume is only created while the installation is prepared
          obtain ⟨m', hm', hstate, -⟩ := hguard
          rw [hm] at hm'
          cases hm'
          rcases hstored with hs | hs <;> rw [hstate] at hs <;> cases hs
      | _ => rfl
  | temporary | aside | secretsDir | script | mode | compose | journal | moveCompose =>
      exact Forward.of_kept rfl rfl rfl
  | create m options pending _ hnone =>
      have hloaded : w.directory.loaded = none := by
        unfold Directory.loaded
        rw [hnone]
        rfl
      refine ⟨fun _ _ h => h, fun n hn => ?_, [], rfl, fun n hn => ?_⟩
      · rw [hloaded] at hn
        cases hn
      · rw [hloaded] at hn
        cases hn
  | link m name value _ hnone =>
      refine ⟨fun other text ht => ?_, fun m hm => ⟨m, hm, SameOptions.refl m, le_rfl⟩, [], rfl, ?_⟩
      · have hne : other ≠ name := by
          rintro rfl
          rw [hnone] at ht
          cases ht
        exact (Function.update_of_ne hne _ _).trans ht
      · intro m _ _ e he
        cases he
  | advance m state pending hloaded _ hadvance =>
      exact Forward.of_manifest rfl rfl hloaded (validateManifest_toJson _) ⟨rfl, rfl, rfl, rfl⟩
        hadvance.stage_le
  | moveManifest before candidate pending hupgrading =>
      obtain ⟨m, hloaded, hsame, hstate⟩ := hupgrading.current
      exact Forward.of_manifest rfl rfl hloaded (validateManifest_toJson _) hsame
        (le_of_eq (congrArg stage hstate))
  | removeJournal =>
      refine ⟨fun _ _ h => h, fun m hm => ⟨m, hm, SameOptions.refl m, le_rfl⟩, [_], rfl, ?_⟩
      intro m _ _ e he
      rw [List.mem_singleton.mp he]
      rfl

theorem Forward.of_moves (h : Moves given w w') : Forward w w' := by
  induction h with
  | refl => exact Forward.refl w
  | tail _ hmove ih => exact ih.trans (Forward.of_move hmove)

theorem Forward.of_outside (h : VolumesChanged w w') : Forward w w' := by
  obtain ⟨volumes, rfl⟩ := h
  exact Forward.of_kept rfl rfl rfl

theorem Forward.of_after {allowed : Run → World → List Reply → Prop}
    (h : After assets allowed w w') : Forward w w' :=
  h.invariant (Forward.refl w)
    (fun run _ _ _ hforward => hforward.trans
      (Forward.of_moves (moves_exec { assets := assets, run := run } (fun _ _ => trivial) _)))
    fun _ _ hforward hout => hforward.trans (Forward.of_outside hout)

/-! ### Secrets and the use of volumes -/

/-- The database URL has the password of the application. -/
def UrlAgrees (d : Directory) : Prop :=
  ∀ url, d.secrets .databaseUrl = some url →
    ∃ app, d.secrets .appPassword = some app ∧ url = databaseUrl app

/-- Every Compose command belonged to the installation, and its volume had its label. -/
def OwnVolumes (w : World) : Prop :=
  ∀ project candidate args input succeeded volumes,
    Event.ran (.compose project candidate args input) succeeded volumes ∈ w.log →
      ∃ m, w.directory.loaded = some m ∧ project = m.project ∧ Labelled volumes m.id

structure Sound (w : World) : Prop where
  url : UrlAgrees w.directory
  volumes : OwnVolumes w

theorem UrlAgrees.of_forward (hagrees : UrlAgrees w.directory) (h : Forward w w')
    (hurl : w'.directory.secrets .databaseUrl = w.directory.secrets .databaseUrl) :
    UrlAgrees w'.directory := by
  intro url hurl'
  rw [hurl] at hurl'
  obtain ⟨app, happ, rfl⟩ := hagrees url hurl'
  exact ⟨app, h.secrets _ _ happ, rfl⟩

theorem UrlAgrees.of_move (hagrees : UrlAgrees w.directory) (h : Move given w w') :
    UrlAgrees w'.directory := by
  have hforward := Forward.of_move h
  cases h with
  | link m name value _ _ _ hurl =>
      by_cases hname : name = .databaseUrl
      · obtain ⟨app, happ, rfl⟩ := hurl hname
        subst hname
        intro url hurl'
        have hself := Function.update_self Secret.databaseUrl (some (databaseUrl app))
          w.directory.secrets
        have hother := Function.update_of_ne (by decide : Secret.appPassword ≠ .databaseUrl)
          (some (databaseUrl app)) w.directory.secrets
        cases hself.symm.trans hurl'
        exact ⟨app, hother.trans happ, rfl⟩
      · exact hagrees.of_forward hforward (Function.update_of_ne (Ne.symm hname) _ _)
  | _ => exact hagrees.of_forward hforward rfl

/-- Later the earlier commands still belong to the installation. -/
theorem OwnVolumes.of_forward {e : List Event} (hown : OwnVolumes w) (h : Forward w w')
    (hlog : w'.log = e ++ w.log) (he : ∀ event ∈ e, event.usesVolume = false) :
    OwnVolumes w' := by
  intro project candidate args input succeeded volumes hmem
  rw [hlog] at hmem
  rcases List.mem_append.mp hmem with hmem | hmem
  · cases he _ hmem
  · obtain ⟨m, hm, hproject, hlabel⟩ := hown _ _ _ _ _ _ hmem
    obtain ⟨m', hm', hsame, -⟩ := h.manifest m hm
    refine ⟨m', hm', ?_, ?_⟩
    · rw [hproject, Manifest.project, Manifest.project, hsame.id]
    · rw [hsame.id]
      exact hlabel

theorem OwnVolumes.of_move (hown : OwnVolumes w) (h : Move given w w') :
    OwnVolumes w' := by
  have hforward := Forward.of_move h
  have hnone : ∀ event ∈ ([] : List Event), event.usesVolume = false := fun _ he => by cases he
  cases h with
  | ran command succeeded hguard =>
      cases command with
      | compose project candidate args input =>
          intro project' candidate' args' input' succeeded' volumes' hmem
          rcases List.mem_cons.mp hmem with heq | hmem
          · cases heq
            obtain ⟨id, hproject, ⟨m, hm, hid⟩, hlabel⟩ := hguard
            subst hid
            exact ⟨m, hm, hproject, hlabel⟩
          · exact hown _ _ _ _ _ _ hmem
      | _ =>
          refine hown.of_forward hforward (e := [_]) rfl fun event he => ?_
          rw [List.mem_singleton.mp he]
          rfl
  | removeJournal =>
      refine hown.of_forward hforward (e := [_]) rfl fun event he => ?_
      rw [List.mem_singleton.mp he]
      rfl
  | _ => exact hown.of_forward hforward (e := []) rfl hnone

theorem Sound.of_moves (hw : Sound w) (h : Moves given w w') : Sound w' := by
  induction h with
  | refl => exact hw
  | tail _ hmove ih => exact ⟨ih.url.of_move hmove, ih.volumes.of_move hmove⟩

theorem sound_start : Sound {} := by
  constructor
  · intro url h
    cases h
  · intro _ _ _ _ _ _ h
    cases h

theorem Sound.of_after {allowed : Run → World → List Reply → Prop}
    (h : After assets allowed {} w) : Sound w := by
  refine h.invariant sound_start (fun run _ _ _ hsound => ?_) fun _ _ hsound hout => ?_
  · exact hsound.of_moves (moves_exec { assets := assets, run := run } (fun _ _ => trivial) _)
  · obtain ⟨volumes, rfl⟩ := hout
    exact ⟨hsound.url, hsound.volumes⟩

/-! ### A volume that is gone -/

/-- While rows may be stored a run leaves the volumes alone, and without the volume it issues no
Compose command. -/
theorem gone_of_moves {m : Manifest} (h : Moves given w w')
    (hloaded : w.directory.loaded = some m) (hstored : Stored m) :
    w'.volumes = w.volumes ∧ (w.volumes.lookup m.volume = none →
      ∃ events, w'.log = events ++ w.log ∧ ∀ e ∈ events, e.usesVolume = false) := by
  induction h with
  | refl => exact ⟨rfl, fun _ => ⟨[], rfl, fun e he => by cases he⟩⟩
  | @tail u v hmoves hmove ih =>
      obtain ⟨hvolumes, hgone⟩ := ih
      obtain ⟨n, hn, hsame, hstage⟩ := (Forward.of_moves hmoves).manifest m hloaded
      cases hmove with
      | ran command succeeded hguard =>
          cases command with
          | volumeCreate label name =>
              obtain ⟨n', hn', hstate, -⟩ := hguard
              rw [hn] at hn'
              cases hn'
              rcases hstored.of_stage hstage with hs | hs <;> rw [hstate] at hs <;> cases hs
          | compose project candidate args input =>
              refine ⟨hvolumes, fun hnone => ?_⟩
              obtain ⟨id, -, ⟨n', hn', rfl⟩, hlabel⟩ := hguard
              rw [hn] at hn'
              cases hn'
              -- a labelled volume contradicts its absence
              rw [Labelled, hvolumes, hsame.id] at hlabel
              rw [Manifest.volume, hlabel] at hnone
              cases hnone
          | _ =>
              refine ⟨hvolumes, fun hnone => ?_⟩
              obtain ⟨events, hlog, huses⟩ := hgone hnone
              refine ⟨_ :: events, congrArg (List.cons _) hlog, ?_⟩
              exact List.forall_mem_cons.mpr ⟨rfl, huses⟩
      | removeJournal =>
          refine ⟨hvolumes, fun hnone => ?_⟩
          obtain ⟨events, hlog, huses⟩ := hgone hnone
          refine ⟨_ :: events, congrArg (List.cons _) hlog, ?_⟩
          exact List.forall_mem_cons.mpr ⟨rfl, huses⟩
      | _ => exact ⟨hvolumes, hgone⟩

/-- Without its volume a run of a stored installation does not return. -/
theorem stopped_of_gone {m : Manifest} (hloaded : w.directory.loaded = some m)
    (hstored : Stored m) (hnone : w.volumes.lookup m.volume = none) (run : Run) (rs : List Reply)
    (report : Report) : ((program assets run).exec rs w).outcome ≠ .returned report := by
  intro hreturned
  obtain ⟨id, ⟨n, hn, rfl⟩, hlabel⟩ := served_of_returned hreturned
  have hmoves : Moves { assets := assets, run := run } w
      ((program assets run).exec rs w).state := moves_exec _ (fun _ _ => trivial) w
  obtain ⟨n', hn', hsame, -⟩ := (Forward.of_moves hmoves).manifest m hloaded
  rw [hn] at hn'
  cases hn'
  rw [Labelled, (gone_of_moves hmoves hloaded hstored).1, hsame.id] at hlabel
  rw [Manifest.volume, hlabel] at hnone
  cases hnone

/-! ### The image -/

/-- Without an upgrade no journal appears, and the image stays or is the one of the journal that
is there. -/
structure ImageKept (w w' : World) : Prop where
  journal : w'.directory.journal = w.directory.journal ∨ w'.directory.journal = none
  image : ∀ m m', w.directory.loaded = some m → w'.directory.loaded = some m' →
    m'.image = m.image ∨ ∃ before candidate,
      w.directory.journal.bind journalOf = some (before, candidate) ∧ m'.image = candidate.image

theorem ImageKept.of_kept (hmanifest : w'.directory.manifest = w.directory.manifest)
    (hjournal : w'.directory.journal = w.directory.journal ∨ w'.directory.journal = none) :
    ImageKept w w' := by
  have hloaded : w'.directory.loaded = w.directory.loaded :=
    congrArg (fun manifest => Option.bind manifest validateManifest) hmanifest
  refine ⟨hjournal, fun m m' hm hm' => .inl ?_⟩
  rw [hloaded, hm] at hm'
  cases hm'
  rfl

theorem ImageKept.trans {u v : World} (h : ImageKept u v) (hforward : Forward u v)
    (h' : ImageKept v w) : ImageKept u w := by
  constructor
  · rcases h'.journal with hj | hj
    · rw [hj]
      exact h.journal
    · exact .inr hj
  · intro m m' hm hm'
    obtain ⟨n, hn, -⟩ := hforward.manifest m hm
    rcases h'.image n m' hn hm' with himage | ⟨before, candidate, hjournal, himage⟩
    · rw [himage]
      exact h.image m n hm hn
    · rcases h.journal with hj | hj
      · rw [hj] at hjournal
        exact .inr ⟨before, candidate, hjournal, himage⟩
      · rw [hj] at hjournal
        cases hjournal

theorem ImageKept.of_move (h : Move given w w') (hrun : given.run.upgrades = false) :
    ImageKept w w' := by
  cases h with
  | create m options pending _ hnone =>
      refine ⟨.inl rfl, fun n _ hn => ?_⟩
      unfold Directory.loaded at hn
      rw [hnone] at hn
      cases hn
  | advance m state pending hloaded =>
      refine ⟨.inl rfl, fun n n' hn hn' => .inl ?_⟩
      rw [hloaded] at hn
      rw [loaded_manifest] at hn'
      cases hn
      cases hn'
      rfl
  | journal _ _ _ _ _ _ _ hupgrades =>
      rw [hrun] at hupgrades
      cases hupgrades
  | moveManifest before candidate pending hupgrading =>
      refine ⟨.inl rfl, fun n n' _ hn' => .inr ⟨before, candidate, hupgrading.journal, ?_⟩⟩
      rw [loaded_manifest] at hn'
      cases hn'
      rfl
  | removeJournal => exact ImageKept.of_kept rfl (.inr rfl)
  | _ => exact ImageKept.of_kept rfl (.inl rfl)

theorem ImageKept.of_moves (h : Moves given w w') (hrun : given.run.upgrades = false) :
    ImageKept w w' := by
  induction h with
  | refl => exact ImageKept.of_kept rfl (.inl rfl)
  | tail hmoves hmove ih =>
      exact ih.trans (Forward.of_moves hmoves) (ImageKept.of_move hmove hrun)

theorem ImageKept.of_after (h : After assets WithoutUpgrade w w') : ImageKept w w' := by
  have hboth : Forward w w' ∧ ImageKept w w' := by
    refine h.invariant (I := fun t => Forward w t ∧ ImageKept w t)
      ⟨Forward.refl w, ImageKept.of_kept rfl (.inl rfl)⟩ ?_ ?_
    · rintro run t rs hrun ⟨hforward, hkept⟩
      have hmoves : Moves { assets := assets, run := run } t
        ((program assets run).exec rs t).state := moves_exec _ (fun _ _ => trivial) t
      exact ⟨hforward.trans (Forward.of_moves hmoves),
        hkept.trans hforward (ImageKept.of_moves hmoves hrun)⟩
    · rintro t u ⟨hforward, hkept⟩ hout
      refine ⟨hforward.trans (Forward.of_outside hout), hkept.trans hforward ?_⟩
      obtain ⟨volumes, rfl⟩ := hout
      exact ImageKept.of_kept rfl (.inl rfl)
  exact hboth.2

end Moving

/-- What the worlds after a world keep of an installation with the manifest. -/
structure Preserved (assets : Assets) (w w' : World) (m : Manifest) : Prop where
  options : ∃ m', w'.directory.loaded = some m' ∧ m'.id = m.id ∧ m'.port = m.port ∧
    m'.bindAddress = m.bindAddress ∧ (Stored m → Stored m') ∧
    (After assets WithoutUpgrade w w' → m'.image = m.image ∨
      ∃ before candidate, w.directory.journal.bind journalOf = some (before, candidate) ∧
        m'.image = candidate.image)
  journal : After assets WithoutUpgrade w w' →
    w.directory.journal = none → w'.directory.journal = none
  created : Stored m →
    ∃ events, w'.log = events ++ w.log ∧ ∀ e ∈ events, e.createsVolume = false
  gone : Stored m → w.volumes.lookup m.volume = none → ∀ run rs,
    (∀ report, ((program assets run).exec rs w).outcome ≠ .returned report) ∧
      ∃ events, ((program assets run).exec rs w).state.log = events ++ w.log ∧
        ∀ e ∈ events, e.usesVolume = false

/-- Across any number of interrupted runs: what is linked, stored and recorded stays, and no
volume of another installation is used. -/
theorem install_preserves_data (assets : Assets) {w w' : World}
    (h : After assets Anything {} w) (h' : After assets Anything w w') :
    UrlAgrees w.directory ∧ OwnVolumes w ∧
      (∀ name text, w.directory.secrets name = some text →
        w'.directory.secrets name = some text) ∧
      ∀ m, w.directory.loaded = some m → Preserved assets w w' m := by
  have hsound := Sound.of_after h
  have hforward := Forward.of_after h'
  refine ⟨hsound.url, hsound.volumes, hforward.secrets, fun m hm => ⟨?_, ?_, ?_, ?_⟩⟩
  · obtain ⟨m', hm', hsame, hstage⟩ := hforward.manifest m hm
    refine ⟨m', hm', hsame.id, hsame.port, hsame.bindAddress, fun hs => hs.of_stage hstage, ?_⟩
    intro hafter
    exact (ImageKept.of_after hafter).image m m' hm hm'
  · intro hafter hnone
    rcases (ImageKept.of_after hafter).journal with hj | hj
    · rw [hj, hnone]
    · exact hj
  · intro hstored
    obtain ⟨events, hlog, hcreates⟩ := hforward.events
    exact ⟨events, hlog, hcreates m hm hstored⟩
  · intro hstored hnone run rs
    exact ⟨stopped_of_gone hm hstored hnone run rs,
      (gone_of_moves (moves_exec { assets := assets, run := run } (fun _ _ => trivial) w) hm
        hstored).2 hnone⟩

theorem install_preserves_data_unfinished :
    Preserved localAssets unfinishedWorld (localWorld (.install localOptions) 100 unfinishedWorld)
      (localManifest .storageReady) := by
  have hunfinished : After localAssets Anything {} unfinishedWorld :=
    After.localRun .start _ _ trivial
  have hafter : After localAssets Anything unfinishedWorld
      (localWorld (.install localOptions) 100 unfinishedWorld) :=
    After.localRun .start _ _ trivial
  exact (install_preserves_data localAssets hunfinished hafter).2.2.2 _ local_runs.2.2.1

end Gjallar.Bootstrap
