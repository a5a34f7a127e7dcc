import Gjallar.Bootstrap
import Mathlib.Logic.Relation

/-!
# What the bootstrap commands do

Every step of a command is one of the moves below, with what is known when it is taken. What holds
across interrupted commands follows from the moves alone.
-/
namespace Gjallar.Bootstrap

open Gjallar.Text Gjallar.Data Gjallar.CrashPrograms Gjallar.Installation Gjallar.TextLines

/-! ### Moves -/

/-- The volume of an installation is there with its label. -/
def Labelled (volumes : List (Str × Option Str)) (id : Identifier) : Prop :=
  volumes.lookup (volumeName id.uid) = some (some id.text)

/-- All files of a manifest but the Compose file are complete. -/
def Complete (assets : Assets) (m : Manifest) (d : Directory) : Prop :=
  d.secretsDir = true ∧ (∀ name ∈ secretNames m, filled (d.secrets name) = true) ∧
    ∀ script, d.scripts script = some (assets script)

/-- The installation with this identifier is the one in the directory, and it has its volume. -/
structure Served (w : World) (id : Identifier) : Prop where
  loaded : ∃ m, w.directory.loaded = some m ∧ m.id = id
  volume : Labelled w.volumes id

/-- What is known when a command is issued. -/
def Guarded (w : World) : Command → Prop
  | .compose project _ _ _ => ∃ id, project = projectName id.uid ∧ Served w id
  | .volumeCreate label name => ∃ m, w.directory.loaded = some m ∧ m.state = .prepared ∧
      w.directory.journal = none ∧ label = m.id.text ∧ name = m.volume
  | _ => True

/-- What is known when a state is persisted. -/
inductive Advance (assets : Assets) (w : World) (m : Manifest) : State → Prop
  | prepared (h : m.state = .preparing) (hfiles : Complete assets m w.directory)
      (hcompose : w.directory.compose = some (composeConfig m)) : Advance assets w m .prepared
  | storageReady (h : m.state = .prepared) (hvolume : Labelled w.volumes m.id) :
      Advance assets w m .storageReady
  | ready (h : m.state = .storageReady)
      (hreadable : w.directory.readable .initPostgres = true) : Advance assets w m .ready

/-- The journal of an upgrade is there, and the manifest is one of its two. -/
structure Upgrading (w : World) (before candidate : Manifest) : Prop where
  journal : w.directory.journal.bind journalOf = some (before, candidate)
  manifest : w.directory.loaded = some before ∨ w.directory.loaded = some candidate

/-- The service was started as the last event. -/
def Started (w : World) (m : Manifest) : Prop :=
  ∃ volumes input, w.log.head? =
    some (.ran (.compose m.project false (upArgs "gjallar") input) true volumes)

/-- The files of a manifest are being prepared. -/
structure Preparing (w : World) (m : Manifest) : Prop where
  loaded : w.directory.loaded = some m
  state : m.state = .preparing
  journal : w.directory.journal = none

/-- Is the run an upgrade? -/
def Run.upgrades : Run → Bool
  | .upgrade _ => true
  | _ => false

/-- A run with the assets of the client and with what is assumed of the replies it gets. -/
structure Given where
  assets : Assets
  run : Run
  replies : Reply → Prop := fun _ => True

/-- Some reply gives the reference this image. -/
def Resolved (replies : Reply → Prop) (reference : Str) (id : ImageId) : Prop :=
  ∃ r output d engine, replies r ∧ r.docker (.imageInspect reference) = .success output ∧
    output.json = some (.dict d) ∧ imageIdOf engine d = some id

/-- A new manifest has the options of the installation. -/
structure Chosen (given : Given) (options : Options) (m : Manifest) : Prop where
  run : given.run = .install options
  port : m.port.number = options.port
  bindAddress : m.bindAddress = options.bindAddress
  image : Resolved given.replies options.reference m.image

/-- The moves; only an installation creates a manifest, and only an upgrade writes a journal. -/
inductive Move (given : Given) (w : World) : World → Prop
  | stay : Move given w w
  | ran (command : Command) (succeeded : Bool) (h : Guarded w command) :
      Move given w (w.record command succeeded)
  | temporary (pending secretPending : ℕ) : Move given w
      { w with directory :=
        { w.directory with pending := pending, secretPending := secretPending } }
  | aside (candidate : Option Value) (backups : List Backup) (pending : ℕ)
      (h : w.directory.loaded.isSome = true) : Move given w
      { w with directory :=
        { w.directory with candidate := candidate, backups := backups, pending := pending } }
  | create (m : Manifest) (options : Options) (pending : ℕ) (hchosen : Chosen given options m)
      (hnone : w.directory.manifest = none) (hstate : m.state = .preparing)
      (hvolume : w.volumes.lookup m.volume = none) : Move given w
      { w with directory :=
        { w.directory with manifest := some m.toJson, pending := pending } }
  | secretsDir (m : Manifest) (h : Preparing w m) :
      Move given w { w with directory := { w.directory with secretsDir := true } }
  | link (m : Manifest) (name : Secret) (value : Str) (h : Preparing w m)
      (hnone : w.directory.secrets name = none)
      (htoken : name ≠ .databaseUrl → isToken value = true)
      (hurl : name = .databaseUrl → ∃ app, w.directory.secrets .appPassword = some app ∧
        value = databaseUrl app) : Move given w
      { w with directory :=
        { w.directory with secrets := Function.update w.directory.secrets name (some value) } }
  | script (m : Manifest) (name : Script) (text : Str) (readable : Script → Bool)
      (h : Preparing w m) : Move given w
      { w with directory :=
        { w.directory with
          scripts := Function.update w.directory.scripts name (some text), readable := readable } }
  | mode (m : Manifest) (readable : Script → Bool) (h : Preparing w m) :
      Move given w { w with directory := { w.directory with readable := readable } }
  | compose (m : Manifest) (pending : ℕ) (h : Preparing w m) : Move given w
      { w with directory :=
        { w.directory with compose := some (composeConfig m), pending := pending } }
  | advance (m : Manifest) (state : State) (pending : ℕ) (h : w.directory.loaded = some m)
      (hjournal : w.directory.journal = none) (hadvance : Advance given.assets w m state) :
      Move given w
      { w with directory :=
        { w.directory with manifest := some (m.withState state).toJson, pending := pending } }
  | journal (m : Manifest) (image : ImageId) (pending : ℕ) (h : w.directory.loaded = some m)
      (hjournal : w.directory.journal = none) (hfiles : Complete given.assets m w.directory)
      (hcompose : w.directory.compose.any (fun file => holdsConfig file m) = true)
      (hupgrades : given.run.upgrades = true) (himage : image ≠ m.image) : Move given w
      { w with directory :=
        { w.directory with
          journal := some (journalJson m (m.withImage image)), pending := pending } }
  | moveCompose (before candidate : Manifest) (pending : ℕ) (h : Upgrading w before candidate) :
      Move given w
      { w with directory :=
        { w.directory with compose := some (composeConfig candidate), pending := pending } }
  | moveManifest (before candidate : Manifest) (pending : ℕ) (h : Upgrading w before candidate)
      (hcompose : w.directory.compose = some (composeConfig candidate)) : Move given w
      { w with directory :=
        { w.directory with manifest := some candidate.toJson, pending := pending } }
  | removeJournal (before candidate : Manifest) (h : Upgrading w before candidate)
      (hmanifest : w.directory.loaded = some candidate)
      (hcompose : w.directory.compose = some (composeConfig candidate))
      (hstarted : Started w candidate) : Move given w
      { w with directory := { w.directory with journal := none }, log := .journalRemoved :: w.log }

/-- Any number of moves. -/
def Moves (given : Given) : World → World → Prop :=
  Relation.ReflTransGen (Move given)

/-- Every point of a run is reached by moves. -/
def moving (given : Given) (w : World) : Contract World Reply ClientError where
  replies := given.replies
  always := Moves given w

section Steps

variable {given : Given} {origin w : World} {α : Type} {Q : α → World → Prop}

theorem Moves.step {w' : World} (hw : Moves given origin w) (h : Move given w w') :
    Moves given origin w' := Relation.ReflTransGen.tail hw h

theorem wp_look {f : World → α} (hw : Moves given origin w) (h : Q (f w) w) :
    wp (moving given origin) (.read f) Q w := wp_read f hw h

/-- The target is replaced in one move behind the temporary file. -/
theorem wp_atomicJson {replace : Directory → Directory} {Q : Unit → World → Prop}
    (hw : Moves given origin w)
    (hmove : ∀ n, Move given { w with directory := { w.directory with pending := n } }
      { w with directory := replace w.directory })
    (h : Q () { w with directory := replace w.directory }) :
    wp (moving given origin) (atomicJson replace) Q w := by
  have htemporary : Moves given origin
      { w with directory := { w.directory with pending := w.directory.pending + 1 } } :=
    hw.step (Move.temporary (w.directory.pending + 1) w.directory.secretPending)
  refine wp_bind.mpr (wp_write htemporary ?_)
  exact wp_write (htemporary.step (hmove (w.directory.pending + 1))) h

/-- The directory and the volumes are as before. -/
structure Kept (w w' : World) : Prop where
  directory : w'.directory = w.directory
  volumes : w'.volumes = w.volumes

theorem Kept.refl (w : World) : Kept w w := ⟨rfl, rfl⟩

theorem Kept.trans {u v w : World} (h : Kept u v) (h' : Kept v w) : Kept u w :=
  ⟨h'.directory.trans h.directory, h'.volumes.trans h.volumes⟩

theorem Served.kept {u : World} {id : Identifier} (h : Served w id) (hk : Kept w u) :
    Served u id := by
  refine ⟨?_, ?_⟩
  · rw [hk.directory]
    exact h.loaded
  · rw [hk.volumes]
    exact h.volume

/-- A command that succeeds was served by Docker. -/
theorem docker_of_answer {r : Reply} {command : Command} {o : Output}
    (h : w.answer r command = .success o) : r.docker command = .success o := by
  unfold World.answer at h
  split at h
  · split_ifs at h
    · cases hanswer : r.docker _ <;> rw [hanswer] at h <;> cases h
    · exact h
  · exact h

/-- When the init script was run, `postgres` may read it. -/
theorem readable_of_answer {r : Reply} {project : Str} {candidate : Bool} {input : Option Value}
    {o : Output} (h : w.answer r (.compose project candidate roleArgs input) = .success o) :
    w.directory.readable .initPostgres = true := by
  by_contra hunreadable
  rw [Bool.not_eq_true] at hunreadable
  simp only [World.answer, hunreadable, and_self, if_true] at h
  cases hanswer : r.docker (.compose project candidate roleArgs input) <;> rw [hanswer] at h <;>
    cases h

theorem wp_runner {command : Command} {answer : World → Output → α} (hw : Moves given origin w)
    (hguard : Guarded w command)
    (h : ∀ r o, given.replies r → w.answer r command = .success o →
      Moves given origin (w.record command true) → Q (answer w o) (w.record command true)) :
    wp (moving given origin) (runner command answer) Q w := by
  intro r hr
  dsimp only [moving]
  cases ha : w.answer r command with
  | success o =>
      have hmoved : Moves given origin (w.record command true) :=
        hw.step (Move.ran command true hguard)
      exact ⟨hmoved, h r o hr ha hmoved⟩
  | failure happened =>
      cases happened with
      | true => exact ⟨hw.step (Move.ran command false hguard), trivial⟩
      | false => exact ⟨hw, trivial⟩

/-- A command that creates no volume. -/
theorem wp_command {command : Command} {answer : World → Output → α} (hw : Moves given origin w)
    (hguard : Guarded w command) (hvolumes : volumesAfter command w.volumes = w.volumes)
    (h : ∀ o w', Moves given origin w' → Kept w w' →
      w'.log.head? = some (.ran command true w.volumes) → Q (answer w o) w') :
    wp (moving given origin) (runner command answer) Q w :=
  wp_runner hw hguard fun _ o _ _ hmoved => h o _ hmoved ⟨rfl, hvolumes⟩ rfl

theorem wp_hasVolume {m : Manifest} {Q : Bool → World → Prop} (hw : Moves given origin w)
    (h : ∀ w', Moves given origin w' → Kept w w' →
      Q (w.volumes.lookup m.volume).isSome w') :
    wp (moving given origin) (hasVolume m) Q w :=
  wp_command hw trivial rfl fun _ w' hw' hkept _ => h w' hw' hkept

theorem join_eq_some {a : Option (Option Str)} {s : Str} (h : a.join = some s) :
    a = some (some s) := by
  cases a with
  | none => cases h
  | some b => exact congrArg some h

/-- Behind `volume` the volume of the installation is there with its label. -/
theorem wp_volume {m : Manifest} {create : Bool} {Q : Unit → World → Prop}
    (hw : Moves given origin w)
    (hcreate : create = true → w.directory.loaded = some m ∧ m.state = .prepared ∧
      w.directory.journal = none)
    (h : ∀ w', Moves given origin w' → w'.directory = w.directory → Labelled w'.volumes m.id →
      (create = false → w'.volumes = w.volumes) → Q () w') :
    wp (moving given origin) (volume m create) Q w := by
  refine wp_bind.mpr (wp_hasVolume hw fun u hu hkept => wp_bind.mpr ?_)
  have hinspect : ∀ v, Moves given origin v → v.directory = w.directory →
      (create = false → v.volumes = w.volumes) →
      wp (moving given origin) (do
        let label ← runner (.volumeInspect m.volume) fun w _ => (w.volumes.lookup m.volume).join
        .raiseIf (label ≠ some m.id.text) .volumeConflict) Q v := by
    intro v hv hdirectory hvolumes
    refine wp_bind.mpr (wp_command hv trivial rfl fun _ v' hv' hkept' _ => ?_)
    refine wp_raiseIf (fun _ => trivial) fun hlabel => ?_
    refine h v' hv' (hkept'.directory.trans hdirectory) ?_ fun hc =>
      hkept'.volumes.trans (hvolumes hc)
    rw [Labelled, hkept'.volumes]
    exact join_eq_some (not_not.mp hlabel)
  cases (w.volumes.lookup m.volume).isSome with
  | true => exact hinspect u hu hkept.directory fun _ => hkept.volumes
  | false =>
      refine wp_bind.mpr (wp_raiseIf (fun _ => trivial) fun hc => ?_)
      rw [Bool.not_eq_false] at hc
      obtain ⟨hloaded, hstate, hjournal⟩ := hcreate hc
      have hguard : Guarded u (.volumeCreate m.id.text m.volume) :=
        ⟨m, by rw [hkept.directory, hloaded], hstate, by rw [hkept.directory, hjournal], rfl, rfl⟩
      refine wp_runner hu hguard fun _ _ _ _ hmoved => ?_
      exact hinspect _ hmoved hkept.directory fun hfalse => by rw [hc] at hfalse; cases hfalse

theorem wp_compose {m : Manifest} {args : List Str} {input : Option Value}
    {Q : Output → World → Prop} (hw : Moves given origin w) (hserved : Served w m.id)
    (h : ∀ o w', Moves given origin w' → Kept w w' →
      w'.log.head? = some (.ran (.compose m.project false args input) true w.volumes) →
      Q o w') : wp (moving given origin) (compose m args input) Q w :=
  wp_command hw ⟨m.id, rfl, hserved⟩ rfl h

theorem wp_maintenance {m : Manifest} {command : Str} {payload : Option Value}
    {Q : Str → World → Prop} (hw : Moves given origin w) (hserved : Served w m.id)
    (h : ∀ state w', Moves given origin w' → Kept w w' → Q state w') :
    wp (moving given origin) (maintenance m command payload) Q w := by
  refine wp_bind.mpr (wp_compose hw hserved fun o w' hw' hkept _ => wp_bind.mpr ?_)
  refine wp_orRaise (fun _ => trivial) fun result _ => ?_
  exact wp_orRaise (fun _ => trivial) fun state _ => h state w' hw' hkept

theorem checkFiles_eq_ok {assets : Assets} {m : Manifest} {d : Directory} {u : Unit} :
    checkFiles assets m d = .ok u ↔
      Complete assets m d ∧ d.compose.any (fun file => holdsConfig file m) = true := by
  simp only [checkFiles, Operation.bind_eq_ok, Operation.raiseIf_eq_ok, Bool.not_eq_false,
    not_or, not_not, List.all_eq_true, Complete]
  constructor
  · rintro ⟨-, hdir, -, hsecrets, -, hcompose, hinit, hentry⟩
    refine ⟨⟨hdir, hsecrets, fun script => ?_⟩, hcompose⟩
    cases script
    · exact hinit
    · exact hentry
  · rintro ⟨⟨hdir, hsecrets, hscripts⟩, hcompose⟩
    exact ⟨(), hdir, (), hsecrets, (), hcompose, hscripts _, hscripts _⟩

theorem wp_validateFiles {m : Manifest} {Q : Unit → World → Prop} (hw : Moves given origin w)
    (h : Complete given.assets m w.directory →
      w.directory.compose.any (fun file => holdsConfig file m) = true → Q () w) :
    wp (moving given origin) (validateFiles given.assets m) Q w := by
  refine wp_bind.mpr (wp_look hw ?_)
  unfold ensure
  cases hcheck : checkFiles given.assets m w.directory with
  | error e => exact trivial
  | ok u =>
      obtain ⟨hcomplete, hcompose⟩ := checkFiles_eq_ok.mp hcheck
      exact h hcomplete hcompose

theorem wp_load {Q : Manifest → World → Prop} (hw : Moves given origin w)
    (h : ∀ m, w.directory.loaded = some m → Q m w) : wp (moving given origin) load Q w :=
  wp_bind.mpr (wp_look hw (wp_orRaise (fun _ => trivial) h))

theorem wp_checkPort {number : ℤ} {Q : Port → World → Prop} (hw : Moves given origin w)
    (h : ∀ port, port.number = number → Q port w) :
    wp (moving given origin) (checkPort number) Q w := by
  refine wp_bind.mpr (wp_orRaise (fun _ => trivial) fun port hport => wp_bind.mpr ?_)
  refine wp_receive hw fun r _ => wp_bind.mpr (wp_raiseIf (fun _ => trivial) fun _ => ?_)
  refine h port ?_
  unfold Port.ofNumber at hport
  split_ifs at hport
  cases hport
  rfl

theorem wp_bringUp {m : Manifest} {Q : Unit → World → Prop} (hw : Moves given origin w)
    (hserved : Served w m.id)
    (h : ∀ w', Moves given origin w' → Kept w w' → Started w' m → Q () w') :
    wp (moving given origin) (bringUp m) Q w := by
  refine wp_bind.mpr (wp_bind.mpr (wp_compose hw hserved fun o u hu hkept _ => ?_))
  have hrest : ∀ v, Moves given origin v → Kept w v →
      wp (moving given origin) (do
        let _ ← compose m (upArgs "postgres")
        let _ ← maintenance m "check-ready"
        let _ ← compose m (upArgs "gjallar")
        return ()) Q v := by
    intro v hv hkept'
    refine wp_bind.mpr (wp_compose hv (hserved.kept hkept') fun _ x hx hkx _ => wp_bind.mpr ?_)
    have hkept₁ := hkept'.trans hkx
    refine wp_maintenance hx (hserved.kept hkept₁) fun _ y hy hky => wp_bind.mpr ?_
    have hkept₂ := hkept₁.trans hky
    refine wp_compose hy (hserved.kept hkept₂) fun _ z hz hkz hlog => ?_
    exact h z hz (hkept₂.trans hkz) ⟨y.volumes, none, hlog⟩
  change wp (moving given origin)
    (do ensurePort m ((splitLines o.text).contains "gjallar"); _) Q u
  refine wp_bind.mpr ?_
  cases (splitLines o.text).contains "gjallar" with
  | true => exact hrest u hu hkept
  | false => exact wp_bind.mpr (wp_checkPort hu fun _ _ => hrest u hu hkept)

/-- `_start` changes no file; behind it the service was started. -/
theorem wp_start {m : Manifest} {Q : Report → World → Prop} (hw : Moves given origin w)
    (hloaded : ∃ m', w.directory.loaded = some m' ∧ m'.id = m.id)
    (h : ∀ report w', Moves given origin w' → Kept w w' → m.state = .ready →
      Started w' m → Served w' m.id → Q report w') :
    wp (moving given origin) (start given.assets m) Q w := by
  refine wp_bind.mpr (wp_validateFiles hw fun _ _ => wp_bind.mpr ?_)
  refine wp_volume hw (fun hfalse => by cases hfalse) fun u hu hdir hlabel hvol => ?_
  refine wp_bind.mpr (wp_raiseIf (fun _ => trivial) fun hstate => wp_bind.mpr ?_)
  have hkept : Kept w u := ⟨hdir, hvol rfl⟩
  have hserved : Served u m.id := by
    refine ⟨?_, hlabel⟩
    rw [hdir]
    exact hloaded
  refine wp_bringUp hu hserved fun v hv hkept' hstarted => ?_
  exact h _ v hv (hkept.trans hkept') (not_not.mp hstate) hstarted (hserved.kept hkept')

/-! ### Recovery -/

@[simp] theorem loaded_manifest (d : Directory) (m : Manifest) (n : ℕ) :
    Directory.loaded { d with manifest := some m.toJson, pending := n } = some m :=
  validateManifest_toJson m

theorem journalOf_journalJson (m : Manifest) (image : ImageId) :
    journalOf (journalJson m (m.withImage image)) = some (m, m.withImage image) := by
  simp only [journalOf, journalJson, Value.asDict, Option.bind_eq_bind, Option.bind_some]
  have hbefore : Dict.get [("before", m.toJson), ("candidate", (m.withImage image).toJson)]
      "before" = some m.toJson := rfl
  have hcandidate : Dict.get [("before", m.toJson), ("candidate", (m.withImage image).toJson)]
      "candidate" = some (m.withImage image).toJson := rfl
  rw [hbefore, hcandidate]
  simp

theorem wp_removeJournal {before candidate : Manifest} {Q : Unit → World → Prop}
    (hw : Moves given origin w) (h : Upgrading w before candidate)
    (hmanifest : w.directory.loaded = some candidate)
    (hcompose : w.directory.compose = some (composeConfig candidate))
    (hstarted : Started w candidate)
    (hQ : ∀ w', Moves given origin w' → w'.volumes = w.volumes →
      w'.directory = { w.directory with journal := none } → Q () w') :
    wp (moving given origin) removeJournal Q w := by
  have hmoved := hw.step (Move.removeJournal before candidate h hmanifest hcompose hstarted)
  exact wp_write hmoved (hQ _ hmoved rfl rfl)

theorem Upgrading.of_directory {u : World} {before candidate : Manifest}
    (h : Upgrading w before candidate) (hdir : u.directory = w.directory) :
    Upgrading u before candidate := by
  constructor
  · rw [hdir]
    exact h.journal
  · rw [hdir]
    exact h.manifest

/-- Start the candidate, then remove the journal. -/
theorem wp_startCandidate {before candidate : Manifest} {Q : Report → World → Prop}
    (hw : Moves given origin w) (h : Upgrading w before candidate)
    (hmanifest : w.directory.loaded = some candidate)
    (hcompose : w.directory.compose = some (composeConfig candidate))
    (hQ : ∀ report w', Moves given origin w' → w'.volumes = w.volumes →
      w'.directory = { w.directory with journal := none } → Served w' candidate.id →
      Q report w') :
    wp (moving given origin) (start given.assets candidate)
      (fun report => wp (moving given origin) removeJournal fun _ => Q report) w := by
  refine wp_start hw ⟨candidate, hmanifest, rfl⟩ fun report u hu hkept _ hstarted hserved => ?_
  have hdir := hkept.directory
  have hloaded : u.directory.loaded = some candidate := by rw [hdir, hmanifest]
  have hfile : u.directory.compose = some (composeConfig candidate) := by rw [hdir, hcompose]
  refine wp_removeJournal hu (h.of_directory hdir) hloaded hfile hstarted ?_
  intro v hv hvolumes hdirectory
  refine hQ report v hv (hvolumes.trans hkept.volumes) ?_ ?_
  · rw [hdirectory, hdir]
  · refine ⟨⟨candidate, ?_, rfl⟩, ?_⟩
    · rw [hdirectory]
      exact hloaded
    · rw [hvolumes]
      exact hserved.volume

/-- Both files take the candidate, the Compose file first. -/
theorem wp_takeCandidate {before candidate : Manifest} {Q : Unit → World → Prop}
    (hw : Moves given origin w) (h : Upgrading w before candidate)
    (hQ : ∀ w', Moves given origin w' → w'.volumes = w.volumes →
      w'.directory = { w.directory with
        compose := some (composeConfig candidate), manifest := some candidate.toJson } →
      Q () w') :
    wp (moving given origin)
      (atomicJson fun d => { d with compose := some (composeConfig candidate) })
      (fun _ => wp (moving given origin)
        (atomicJson fun d => { d with manifest := some candidate.toJson }) Q) w := by
  have hcompose : Moves given origin { w with directory :=
      { w.directory with compose := some (composeConfig candidate) } } :=
    hw.step (Move.moveCompose before candidate w.directory.pending h)
  refine wp_atomicJson hw (fun n => ?_) ?_
  · exact Move.moveCompose before candidate w.directory.pending ⟨h.journal, h.manifest⟩
  have hmanifest : Moves given origin { w with directory := { w.directory with
      compose := some (composeConfig candidate), manifest := some candidate.toJson } } :=
    hcompose.step
      (Move.moveManifest before candidate w.directory.pending ⟨h.journal, h.manifest⟩ rfl)
  refine wp_atomicJson hcompose (fun n => ?_) (hQ _ hmanifest rfl rfl)
  exact Move.moveManifest before candidate w.directory.pending ⟨h.journal, h.manifest⟩ rfl

/-- What `recover_upgrade` accepts. -/
structure Accepted (w : World) (before candidate : Manifest) : Prop where
  upgrading : Upgrading w before candidate
  compose : w.directory.compose.any
    (fun file => holdsConfig file before || holdsConfig file candidate) = true

theorem wp_checkJournal {c : Contract World Reply ClientError} {data : Value}
    {Q : Manifest → World → Prop} (hw : c.always w) (hraised : ∀ e, c.raised e w)
    (hdata : w.directory.journal = some data)
    (h : ∀ before candidate, Accepted w before candidate → Q candidate w) :
    wp c (checkJournal data) Q w := by
  refine wp_bind.mpr (wp_orRaise (fun _ => hraised _) fun found hfound => ?_)
  obtain ⟨before, candidate⟩ := found
  refine wp_bind.mpr (wp_bind.mpr (wp_read _ hw ?_))
  refine wp_orRaise (fun _ => hraised _) fun current hcurrent => wp_bind.mpr ?_
  refine wp_raiseIf (fun _ => hraised _) fun hmatch => wp_bind.mpr (wp_read _ hw (wp_bind.mpr ?_))
  refine wp_raiseIf (fun _ => hraised _) fun hfile => ?_
  refine h before candidate ⟨⟨?_, ?_⟩, (Bool.not_eq_false _).mp hfile⟩
  · rw [hdata]
    exact hfound
  · rw [hcurrent]
    by_cases hbefore : current = before
    · exact .inl (congrArg some hbefore)
    · by_cases hcandidate : current = candidate
      · exact .inr (congrArg some hcandidate)
      · exact absurd ⟨hbefore, hcandidate⟩ hmatch

/-- Both files are those of the candidate. -/
structure Taken (w : World) (candidate : Manifest) : Prop where
  manifest : w.directory.manifest = some candidate.toJson
  compose : w.directory.compose = some (composeConfig candidate)

/-- Behind `recover_upgrade` the files are those of the candidate, and no journal is left when the
service was to be started. -/
theorem wp_recoverUpgrade {starting : Bool} {Q : Unit → World → Prop}
    (hw : Moves given origin w)
    (h : ∀ w', Moves given origin w' → w'.volumes = w.volumes →
      (starting = true → w'.directory.journal = none) →
      (w.directory.journal = none → w' = w) → (w.directory.journal ≠ none →
        ∃ before candidate, Accepted w before candidate ∧ Taken w' candidate) → Q () w') :
    wp (moving given origin) (recoverUpgrade given.assets starting) Q w := by
  refine wp_bind.mpr (wp_look hw ?_)
  cases hjournal : w.directory.journal with
  | none => exact h w hw rfl (fun _ => hjournal) (fun _ => rfl) fun hne => absurd hjournal hne
  | some data =>
      refine wp_bind.mpr (wp_checkJournal hw (fun _ => trivial) hjournal ?_)
      intro before candidate haccepted
      have hnot : w.directory.journal ≠ none := by
        rw [hjournal]
        exact Option.some_ne_none data
      refine wp_bind.mpr ?_
      refine wp_volume hw (fun hfalse => by cases hfalse) fun u hu hdir _ hvol => ?_
      have hupgrading := haccepted.upgrading.of_directory hdir
      refine wp_bind.mpr (wp_mono (wp_takeCandidate hu hupgrading ?_)
        fun _ _ hrest => wp_bind.mpr hrest)
      intro v hv hvolumes hdirectory
      have htaken : Taken v candidate := by
        constructor
        · rw [hdirectory]
        · rw [hdirectory]
      have hloaded : v.directory.loaded = some candidate := by
        rw [hdirectory]
        exact validateManifest_toJson candidate
      refine wp_bind.mpr (wp_validateFiles hv fun _ _ => ?_)
      cases starting with
      | false =>
          exact h v hv (hvolumes.trans (hvol rfl)) (fun hfalse => by cases hfalse)
            (fun hnone => absurd hnone hnot) fun _ => ⟨before, candidate, haccepted, htaken⟩
      | true =>
          have hjournal' : v.directory.journal.bind journalOf = some (before, candidate) := by
            rw [hdirectory]
            exact hupgrading.journal
          refine wp_bind.mpr (wp_startCandidate hv ⟨hjournal', .inr hloaded⟩ hloaded
            htaken.compose (Q := fun _ => Q ()) ?_)
          intro _ x hx hvol' hdir' _
          refine h x hx ((hvol'.trans hvolumes).trans (hvol rfl)) (fun _ => by rw [hdir'])
            (fun hnone => absurd hnone hnot) fun _ => ⟨before, candidate, haccepted, ?_, ?_⟩
          · rw [hdir']
            exact htaken.manifest
          · rw [hdir']
            exact htaken.compose

/-! ### Preparing the files -/

theorem Preparing.of_files {m : Manifest} {d : Directory} (h : Preparing w m)
    (hmanifest : d.manifest = w.directory.manifest) (hjournal : d.journal = w.directory.journal) :
    Preparing { w with directory := d } m := by
  refine ⟨?_, h.state, hjournal.trans h.journal⟩
  rw [← h.loaded]
  exact congrArg (fun manifest => Option.bind manifest validateManifest) hmanifest

/-- A secret that exists stays, another one is linked. -/
theorem wp_secret {m : Manifest} {name : Secret} {value : Str} {Q : Str → World → Prop}
    (hw : Moves given origin w) (hp : Preparing w m)
    (htoken : name ≠ .databaseUrl → isToken value = true)
    (hurl : name = .databaseUrl → ∃ app, w.directory.secrets .appPassword = some app ∧
      value = databaseUrl app)
    (h : ∀ text secrets, secrets name = some text →
      (∀ n t, w.directory.secrets n = some t → secrets n = some t) →
      Moves given origin { w with directory := { w.directory with secrets := secrets } } →
      Q text { w with directory := { w.directory with secrets := secrets } }) :
    wp (moving given origin) (secret name value) Q w := by
  refine wp_bind.mpr (wp_look hw ?_)
  cases hexisting : w.directory.secrets name with
  | some text => exact h text w.directory.secrets hexisting (fun _ _ ht => ht) hw
  | none =>
      have hpending := hw.step
        (Move.temporary w.directory.pending (w.directory.secretPending + 1))
      refine wp_bind.mpr (wp_write hpending ?_)
      have hlinked := hpending.step (Move.link m name value
        (hp.of_files rfl rfl) hexisting htoken hurl)
      refine wp_bind.mpr (wp_write hlinked ?_)
      have hdone := hlinked.step (Move.temporary w.directory.pending w.directory.secretPending)
      refine wp_bind.mpr (wp_write hdone (h value
        (Function.update w.directory.secrets name (some value)) (Function.update_self _ _ _) ?_
        hdone))
      intro n t ht
      have hne : n ≠ name := by
        rintro rfl
        rw [hexisting] at ht
        cases ht
      rw [Function.update_of_ne hne, ht]

theorem filled_of_isToken {s : Str} (h : isToken s = true) : filled (some s) = true := by
  cases s with
  | nil => cases h
  | cons c s => rfl

theorem wp_credentialKey {m : Manifest} {Q : List Str → World → Prop}
    (hw : Moves given origin w) (hp : Preparing w m)
    (h : ∀ keys secrets,
      (2 ≤ m.version.number → ∃ key, keys = [key] ∧ secrets .credentialKey = some key) →
      (∀ n t, w.directory.secrets n = some t → secrets n = some t) →
      Moves given origin { w with directory := { w.directory with secrets := secrets } } →
      Q keys { w with directory := { w.directory with secrets := secrets } }) :
    wp (moving given origin) (credentialKey m) Q w := by
  unfold credentialKey
  split_ifs with hversion
  · refine wp_bind.mpr (wp_receive hw fun r _ => wp_bind.mpr ?_)
    refine wp_secret hw hp (fun _ => r.token.isHex) (fun hfalse => by cases hfalse) ?_
    exact fun key secrets hkey hkeep hmoved =>
      h [key] secrets (fun _ => ⟨key, rfl, hkey⟩) hkeep hmoved
  · exact h [] w.directory.secrets (fun hge => absurd hge hversion) (fun _ _ ht => ht) hw

theorem wp_prepareSecrets {m : Manifest} {Q : Unit → World → Prop} (hw : Moves given origin w)
    (hp : Preparing w m)
    (h : ∀ secrets, (∀ name ∈ secretNames m, filled (secrets name) = true) →
      Moves given origin { w with directory := { w.directory with secrets := secrets } } →
      Q () { w with directory := { w.directory with secrets := secrets } }) :
    wp (moving given origin) (prepareSecrets m) Q w := by
  refine wp_bind.mpr (wp_receive hw fun r₁ _ => wp_bind.mpr ?_)
  refine wp_secret hw hp (fun _ => r₁.token.isHex) (fun hfalse => by cases hfalse) ?_
  intro postgres s₁ hpostgres hkeep₁ hmoved₁
  have hp₁ := hp.of_files (d := { w.directory with secrets := s₁ }) rfl rfl
  refine wp_bind.mpr (wp_receive hmoved₁ fun r₂ _ => wp_bind.mpr ?_)
  refine wp_secret hmoved₁ hp₁ (fun _ => r₂.token.isHex) (fun hfalse => by cases hfalse) ?_
  intro app s₂ happ hkeep₂ hmoved₂
  have hp₂ := hp.of_files (d := { w.directory with secrets := s₂ }) rfl rfl
  refine wp_bind.mpr (wp_credentialKey hmoved₂ hp₂ fun keys s₃ hkeys hkeep₃ hmoved₃ => ?_)
  have hp₃ := hp.of_files (d := { w.directory with secrets := s₃ }) rfl rfl
  have happ₃ := hkeep₃ _ _ happ
  refine wp_bind.mpr (wp_raiseIf (fun _ => trivial) fun htokens => wp_bind.mpr ?_)
  rw [Bool.not_eq_false, List.all_cons, List.all_cons, Bool.and_eq_true,
    Bool.and_eq_true] at htokens
  refine wp_secret hmoved₃ hp₃ (fun hne => absurd rfl hne) (fun _ => ⟨app, happ₃, rfl⟩) ?_
  intro url s₄ hurl hkeep₄ hmoved₄
  refine wp_raiseIf (fun _ => trivial) fun hagree => h s₄ ?_ hmoved₄
  have hpostgresFilled : filled (s₄ .postgresPassword) = true := by
    rw [hkeep₄ _ _ (hkeep₃ _ _ (hkeep₂ _ _ hpostgres))]
    exact filled_of_isToken htokens.1
  have happFilled : filled (s₄ .appPassword) = true := by
    rw [hkeep₄ _ _ happ₃]
    exact filled_of_isToken htokens.2.1
  have hurlFilled : filled (s₄ .databaseUrl) = true := by
    rw [hurl, not_not.mp hagree]
    rfl
  intro name hname
  unfold secretNames at hname
  rcases List.mem_append.mp hname with hname | hname
  · simp only [List.mem_cons, List.not_mem_nil, or_false] at hname
    rcases hname with rfl | rfl | rfl
    · exact hpostgresFilled
    · exact happFilled
    · exact hurlFilled
  · split_ifs at hname with hversion
    · rw [List.mem_singleton.mp hname]
      obtain ⟨key, rfl, hkey⟩ := hkeys hversion
      rw [hkeep₄ _ _ hkey]
      have hall := htokens.2.2
      rw [List.all_cons, Bool.and_eq_true] at hall
      exact filled_of_isToken hall.1
    · cases hname

/-- Every script that is there is complete. -/
def Undamaged (assets : Assets) (d : Directory) : Prop :=
  ∀ name text, d.scripts name = some text → text = assets name

/-- `postgres` may read the init script, if it is there. -/
def Runnable (d : Directory) : Prop :=
  d.scripts .initPostgres ≠ none → d.readable .initPostgres = true

theorem wp_prepareScript {m : Manifest} {name : Script} {Q : Unit → World → Prop}
    (hw : Moves given origin w) (hp : Preparing w m)
    (h : ∀ scripts readable, scripts name = some (given.assets name) →
      (∀ text, w.directory.scripts name = some text → text = given.assets name) →
      (∀ other, other ≠ name → scripts other = w.directory.scripts other) →
      (∀ script, script ≠ name ∨ w.directory.scripts script ≠ none →
        readable script = w.directory.readable script) →
      Moves given origin { w with directory :=
        { w.directory with scripts := scripts, readable := readable } } →
      Q () { w with directory :=
        { w.directory with scripts := scripts, readable := readable } }) :
    wp (moving given origin) (prepareScript given.assets name) Q w := by
  refine wp_bind.mpr (wp_look hw ?_)
  cases hexisting : w.directory.scripts name with
  | some text =>
      refine wp_raiseIf (fun _ => trivial) fun hsame => ?_
      have hsame := not_not.mp hsame
      refine h w.directory.scripts w.directory.readable ?_ (fun _ ht => ?_) (fun _ _ => rfl)
        (fun _ _ => rfl) hw
      · rw [hexisting, hsame]
      · rw [hexisting] at ht
        cases ht
        exact hsame
  | none =>
      refine wp_bind.mpr (wp_receive hw fun u _ => wp_bind.mpr ?_)
      have hopen := hw.step (Move.script m name []
        (Function.update w.directory.readable name u.umask) hp)
      refine wp_write hopen (wp_bind.mpr (wp_receive hopen fun r _ => wp_bind.mpr ?_))
      have hpart := hopen.step (Move.script m name ((given.assets name).take r.cut)
        (Function.update w.directory.readable name u.umask) (hp.of_files rfl rfl))
      refine wp_write hpart (wp_bind.mpr ?_)
      have hfull := hpart.step (Move.script m name (given.assets name)
        (Function.update w.directory.readable name u.umask) (hp.of_files rfl rfl))
      refine wp_write hfull ?_
      have hmode := hfull.step (Move.mode m (Function.update
        (Function.update w.directory.readable name u.umask) name true) (hp.of_files rfl rfl))
      refine wp_write hmode ?_
      simp only [Function.update_idem] at hmode ⊢
      refine h _ _ (Function.update_self _ _ _) (fun _ ht => ?_)
        (fun other hne => Function.update_of_ne hne _ _) (fun script hscript => ?_) hmode
      · rw [hexisting] at ht
        cases ht
      · have hne : script ≠ name := by
          rintro rfl
          exact hscript.elim (fun hne => hne rfl) fun hsome => hsome hexisting
        exact Function.update_of_ne hne _ _

/-- Behind `prepare_files` the installation is prepared. -/
theorem wp_prepareFiles {m : Manifest} {Q : Unit → World → Prop} (hw : Moves given origin w)
    (hp : Preparing w m)
    (h : ∀ w', Moves given origin w' → w'.volumes = w.volumes →
      w'.directory.loaded = some (m.withState .prepared) → w'.directory.journal = none →
      Undamaged given.assets w.directory →
      (w.directory.scripts .initPostgres ≠ none →
        w'.directory.readable .initPostgres = w.directory.readable .initPostgres) → Q () w') :
    wp (moving given origin) (prepareFiles given.assets m) Q w := by
  have hdir := hw.step (Move.secretsDir m hp)
  refine wp_bind.mpr (wp_write hdir (wp_bind.mpr ?_))
  refine wp_prepareSecrets hdir (hp.of_files rfl rfl) fun secrets hsecrets hmoved₁ => ?_
  refine wp_bind.mpr (wp_prepareScript hmoved₁ (hp.of_files rfl rfl) ?_)
  intro scripts₁ readable₁ hinit hfirst hother₁ hmode₁ hmoved₂
  refine wp_bind.mpr (wp_prepareScript hmoved₂ (hp.of_files rfl rfl) ?_)
  intro scripts₂ readable₂ hentry hsecond hother hmode₂ hmoved₃
  refine wp_bind.mpr (wp_look hmoved₃ (wp_bind.mpr (wp_raiseIf (fun _ => trivial) fun _ => ?_)))
  have hcompose := hmoved₃.step
    (Move.compose m w.directory.pending (hp.of_files rfl rfl))
  refine wp_bind.mpr (wp_atomicJson hmoved₃ (fun n => ?_) ?_)
  · exact Move.compose m w.directory.pending (hp.of_files rfl rfl)
  have hcomplete : Complete given.assets m { w.directory with
      secretsDir := true, secrets := secrets, scripts := scripts₂, readable := readable₂ } := by
    refine ⟨rfl, hsecrets, fun script => ?_⟩
    cases script with
    | initPostgres => exact (hother .initPostgres (by decide)).trans hinit
    | postgresEntrypoint => exact hentry
  have hadvance := hcompose.step (Move.advance m .prepared w.directory.pending
    (hp.of_files rfl rfl).loaded hp.journal (.prepared hp.state hcomplete rfl))
  have hundamaged : Undamaged given.assets w.directory := by
    intro script text ht
    cases script with
    | initPostgres => exact hfirst text ht
    | postgresEntrypoint => exact hsecond text ((hother₁ .postgresEntrypoint (by decide)).trans ht)
  have hreadable : w.directory.scripts .initPostgres ≠ none →
      readable₂ .initPostgres = w.directory.readable .initPostgres := fun hsome =>
    (hmode₂ _ (.inl (by decide))).trans (hmode₁ _ (.inr hsome))
  refine wp_atomicJson hcompose (fun n => ?_) (h _ hadvance rfl (validateManifest_toJson _)
    hp.journal hundamaged hreadable)
  exact Move.advance m .prepared w.directory.pending (hp.of_files rfl rfl).loaded hp.journal
    (.prepared hp.state hcomplete rfl)

/-! ### The commands -/

/-- The manifest of an installation that no upgrade is changing. -/
structure Settled (w : World) (m : Manifest) : Prop where
  loaded : w.directory.loaded = some m
  journal : w.directory.journal = none

theorem Settled.of_kept {u : World} {m : Manifest} (h : Settled w m)
    (hdir : u.directory = w.directory) : Settled u m := by
  constructor
  · rw [hdir]
    exact h.loaded
  · rw [hdir]
    exact h.journal

theorem wp_preflight {Q : Str → World → Prop} (hw : Moves given origin w)
    (h : ∀ engine w', Moves given origin w' → Kept w w' → Q engine w') :
    wp (moving given origin) preflight Q w := by
  refine wp_bind.mpr (wp_receive hw fun _ _ => wp_bind.mpr (wp_raiseIf (fun _ => trivial) ?_))
  intro _
  refine wp_bind.mpr (wp_command hw trivial rfl fun _ u hu hku _ => wp_bind.mpr ?_)
  refine wp_raiseIf (fun _ => trivial) fun _ => wp_bind.mpr ?_
  refine wp_command hu trivial rfl fun _ v hv hkv _ => wp_bind.mpr ?_
  refine wp_raiseIf (fun _ => trivial) fun _ => wp_bind.mpr ?_
  refine wp_command hv trivial rfl fun _ x hx hkx _ => wp_bind.mpr ?_
  refine wp_orRaise (fun _ => trivial) fun info _ => wp_orRaise (fun _ => trivial) ?_
  exact fun engine _ => h engine x hx ((hku.trans hkv).trans hkx)

theorem eq_dict_of_asDict {v : Value} {d : Dict} (h : v.asDict = some d) : v = .dict d := by
  cases v with
  | dict e =>
      cases h
      rfl
  | _ => cases h

theorem wp_image {engine reference : Str} {Q : ImageId → World → Prop}
    (hw : Moves given origin w)
    (h : ∀ id w', Moves given origin w' → Kept w w' →
      Resolved given.replies reference id → Q id w') :
    wp (moving given origin) (image engine reference) Q w := by
  refine wp_bind.mpr (wp_raiseIf (fun _ => trivial) fun _ => wp_bind.mpr ?_)
  refine wp_runner hw trivial fun r o hr ho hu => wp_bind.mpr ?_
  refine wp_orRaise (fun _ => trivial) fun result hresult => wp_bind.mpr ?_
  refine wp_orRaise (fun _ => trivial) fun d hd => wp_bind.mpr ?_
  refine wp_orRaise (fun _ => trivial) fun id hid => wp_bind.mpr ?_
  refine wp_command hu trivial rfl fun _ v hv hkv _ => h id v hv ⟨hkv.directory, hkv.volumes⟩ ?_
  refine ⟨r, o, d, engine, hr, docker_of_answer ho, ?_, hid⟩
  rw [hresult, eq_dict_of_asDict hd]

theorem wp_pullImage {engine reference : Str} {Q : ImageId → World → Prop}
    (hw : Moves given origin w)
    (h : ∀ id w', Moves given origin w' → Kept w w' → Q id w') :
    wp (moving given origin) (pullImage engine reference) Q w := by
  refine wp_bind.mpr (wp_raiseIf (fun _ => trivial) fun _ => wp_bind.mpr ?_)
  refine wp_command hw trivial rfl fun _ u hu hku _ => ?_
  exact wp_image hu fun id v hv hkv _ => h id v hv (hku.trans hkv)

theorem wp_existingManifest {engine : Str} {options : Options} {Q : Manifest → World → Prop}
    (hw : Moves given origin w)
    (h : ∀ m w', Moves given origin w' → Kept w w' → w.directory.loaded = some m → Q m w') :
    wp (moving given origin) (existingManifest engine options) Q w := by
  refine wp_bind.mpr (wp_load hw fun m hm => wp_bind.mpr ?_)
  have hrest : ∀ v, Moves given origin v → Kept w v → wp (moving given origin) (do
      .raiseIf (m.port.number ≠ options.port) .installationExists
      .raiseIf (m.bindAddress ≠ options.bindAddress) .installationExists
      return m) Q v := fun v hv hkv =>
    wp_bind.mpr (wp_raiseIf (fun _ => trivial) fun _ => wp_bind.mpr
      (wp_raiseIf (fun _ => trivial) fun _ => h m v hv hkv hm))
  unfold checkImage
  cases options.image with
  | none => exact hrest w hw (Kept.refl w)
  | some reference =>
      dsimp only
      split_ifs
      · exact hrest w hw (Kept.refl w)
      · refine wp_bind.mpr (wp_image hw fun _ v hv hkv _ => ?_)
        exact wp_raiseIf (fun _ => trivial) fun _ => hrest v hv hkv

/-- The version of a new manifest says which address it binds. -/
theorem bindAddress_of_options {options : Options} {m : Manifest}
    (hbind : options.bindAddress = "127.0.0.1" ∨ options.bindAddress = "0.0.0.0")
    (hversion : m.version = if options.bindAddress = "0.0.0.0" then .three else .two) :
    m.bindAddress = options.bindAddress := by
  unfold Manifest.bindAddress
  rw [hversion]
  rcases hbind with h | h
  · rw [h]
    decide
  · rw [h]
    decide

theorem wp_newManifest {engine : Str} {options : Options} {Q : Manifest → World → Prop}
    (hrun : given.run = .install options)
    (hbind : options.bindAddress = "127.0.0.1" ∨ options.bindAddress = "0.0.0.0")
    (hw : Moves given origin w) (hnone : w.directory.manifest = none)
    (hjournal : w.directory.journal = none)
    (h : ∀ m w', Moves given origin w' → Settled w' m → m.state = .preparing →
      w.directory.occupied = false → Q m w') :
    wp (moving given origin) (newManifest engine options) Q w := by
  refine wp_bind.mpr (wp_look hw (wp_bind.mpr (wp_raiseIf (fun _ => trivial) ?_)))
  intro hempty
  refine wp_bind.mpr (wp_checkPort hw fun port hport => wp_bind.mpr (wp_receive hw fun r _ => ?_))
  refine wp_bind.mpr (wp_image hw fun application u hu hku himage => wp_bind.mpr ?_)
  refine wp_pullImage hu fun postgres v hv hkv => wp_bind.mpr ?_
  refine wp_hasVolume hv fun x hx hkx => wp_bind.mpr ?_
  refine wp_raiseIf (fun _ => trivial) fun habsent => ?_
  have hdir : x.directory = w.directory := ((hku.trans hkv).trans hkx).directory
  have hmanifest : x.directory.manifest = none := by rw [hdir, hnone]
  have hlookup : x.volumes.lookup (volumeName r.uuid.uid) = none := by
    rw [hkx.volumes]
    rw [Bool.not_eq_true, Option.isSome_eq_false_iff, Option.isNone_iff_eq_none] at habsent
    exact habsent
  have hchosen : Chosen given options
      { version := if options.bindAddress = "0.0.0.0" then .three else .two, id := r.uuid,
        port := port, image := application, postgresImage := postgres, state := .preparing } :=
    ⟨hrun, hport, bindAddress_of_options hbind rfl, himage⟩
  refine wp_bind.mpr (wp_atomicJson hx (fun n => ?_) ?_)
  · exact Move.create _ options x.directory.pending hchosen hmanifest rfl hlookup
  refine h _ _ (hx.step (Move.create _ options x.directory.pending hchosen hmanifest rfl hlookup))
    ⟨?_, ?_⟩ rfl ((Bool.not_eq_true _).mp hempty)
  · exact validateManifest_toJson _
  · change x.directory.journal = none
    rw [hdir, hjournal]

theorem wp_prepareIfNeeded {m : Manifest} {Q : Manifest → World → Prop}
    (hw : Moves given origin w) (hs : Settled w m) (hready : m.state ≠ .ready)
    (h : ∀ m' w', Moves given origin w' → Settled w' m' →
      m'.state = .prepared ∨ m'.state = .storageReady →
      (m.state = .preparing → Undamaged given.assets w.directory) →
      (w.directory.scripts .initPostgres ≠ none →
        w'.directory.readable .initPostgres = w.directory.readable .initPostgres) → Q m' w') :
    wp (moving given origin) (prepareIfNeeded given.assets m) Q w := by
  unfold prepareIfNeeded
  split_ifs with hstate
  · refine wp_bind.mpr (wp_hasVolume hw fun u hu hku => wp_bind.mpr ?_)
    refine wp_raiseIf (fun _ => trivial) fun _ => wp_bind.mpr ?_
    have hsettled := hs.of_kept hku.directory
    refine wp_prepareFiles hu ⟨hsettled.loaded, hstate, hsettled.journal⟩ ?_
    intro v hv _ hloaded hjournal hundamaged hreadable
    rw [hku.directory] at hundamaged hreadable
    exact h _ v hv ⟨hloaded, hjournal⟩ (.inl rfl) (fun _ => hundamaged) hreadable
  · refine h m w hw hs ?_ (fun hpreparing => absurd hpreparing hstate) fun _ => rfl
    cases hm : m.state with
    | preparing => exact absurd hm hstate
    | prepared => exact .inl rfl
    | storageReady => exact .inr rfl
    | ready => exact absurd hm hready

theorem wp_persistStorage {m : Manifest} {Q : Manifest → World → Prop}
    (hw : Moves given origin w) (hs : Settled w m)
    (hstate : m.state = .prepared ∨ m.state = .storageReady) (hvolume : Labelled w.volumes m.id)
    (h : ∀ m' w', Moves given origin w' → Settled w' m' → m'.state = .storageReady →
      Labelled w'.volumes m'.id → w'.directory.readable = w.directory.readable → Q m' w') :
    wp (moving given origin) (persistStorage m) Q w := by
  unfold persistStorage
  split_ifs with hprepared
  · have hmoved := hw.step (Move.advance m .storageReady w.directory.pending hs.loaded hs.journal
      (.storageReady hprepared hvolume))
    refine wp_bind.mpr (wp_atomicJson hw (fun n => ?_)
      (h _ _ hmoved ⟨validateManifest_toJson _, hs.journal⟩ rfl hvolume rfl))
    exact Move.advance m .storageReady w.directory.pending hs.loaded hs.journal
      (.storageReady hprepared hvolume)
  · exact h m w hw hs (hstate.resolve_left hprepared) hvolume rfl

/-- Behind the role setup of a fresh database the init script was run. -/
theorem wp_setUpRoles {m : Manifest} {Q : Unit → World → Prop} (hw : Moves given origin w)
    (hserved : Served w m.id)
    (h : ∀ w', Moves given origin w' → Kept w w' →
      (m.state = .storageReady → w.directory.readable .initPostgres = true) → Q () w') :
    wp (moving given origin) (setUpRoles m) Q w := by
  unfold setUpRoles
  split_ifs with hstate
  · refine wp_bind.mpr (wp_runner hw ⟨m.id, rfl, hserved⟩ fun r o _ ho hu => ?_)
    exact h _ hu ⟨rfl, rfl⟩ fun _ => readable_of_answer ho
  · exact h w hw (Kept.refl w) fun hready => absurd hready hstate

theorem wp_setUpAdministrator {m : Manifest} {offered : Bool} {state : Str}
    {Q : Unit → World → Prop} (hw : Moves given origin w) (hserved : Served w m.id)
    (h : ∀ w', Moves given origin w' → Kept w w' → Q () w') :
    wp (moving given origin) (setUpAdministrator m offered state) Q w := by
  unfold setUpAdministrator
  split_ifs
  · exact h w hw (Kept.refl w)
  · refine wp_bind.mpr (wp_raiseIf (fun _ => trivial) fun _ => wp_bind.mpr ?_)
    refine wp_receive hw fun r _ => wp_bind.mpr (wp_orRaise (fun _ => trivial) fun _ _ => ?_)
    exact wp_bind.mpr (wp_maintenance hw hserved fun _ u hu hku => h u hu hku)

theorem wp_completeInstall {options : Options} {m : Manifest} {Q : Report → World → Prop}
    (hw : Moves given origin w) (hs : Settled w m)
    (hstate : m.state = .prepared ∨ m.state = .storageReady)
    (h : ∀ report w' id, Moves given origin w' → Served w' id →
      w.directory.readable .initPostgres = true → Q report w') :
    wp (moving given origin) (completeInstall given.assets options m) Q w := by
  refine wp_bind.mpr (wp_validateFiles hw fun _ _ => wp_bind.mpr ?_)
  refine wp_volume hw (fun hprepared => ⟨hs.loaded, of_decide_eq_true hprepared, hs.journal⟩) ?_
  intro u hu hdir hlabel _
  refine wp_bind.mpr (wp_persistStorage hu (hs.of_kept hdir) hstate hlabel ?_)
  intro m v hv hs hstate hlabel hmode
  have hserved : Served v m.id := ⟨⟨m, hs.loaded, rfl⟩, hlabel⟩
  refine wp_bind.mpr (wp_compose hv hserved fun _ x₁ hx₁ hk₁ _ => wp_bind.mpr ?_)
  refine wp_setUpRoles hx₁ (hserved.kept hk₁) fun x₂ hx₂ hk₂ hran => wp_bind.mpr ?_
  have hk₂ := hk₁.trans hk₂
  refine wp_maintenance hx₂ (hserved.kept hk₂) fun _ x₃ hx₃ hk₃ => wp_bind.mpr ?_
  have hk₃ := hk₂.trans hk₃
  refine wp_maintenance hx₃ (hserved.kept hk₃) fun state x₄ hx₄ hk₄ => wp_bind.mpr ?_
  have hk₄ := hk₃.trans hk₄
  refine wp_setUpAdministrator hx₄ (hserved.kept hk₄) fun x₅ hx₅ hk₅ => wp_bind.mpr ?_
  have hk₅ := hk₄.trans hk₅
  refine wp_maintenance hx₅ (hserved.kept hk₅) fun _ x₆ hx₆ hk₆ => wp_bind.mpr ?_
  have hs₆ := hs.of_kept (hk₅.trans hk₆).directory
  have hreadable : v.directory.readable .initPostgres = true := by
    rw [← hk₁.directory]
    exact hran hstate
  have hreadable₆ : x₆.directory.readable .initPostgres = true := by
    rw [(hk₅.trans hk₆).directory]
    exact hreadable
  have hmoved := hx₆.step (Move.advance m .ready x₆.directory.pending hs₆.loaded hs₆.journal
    (.ready hstate hreadable₆))
  have hbefore : w.directory.readable .initPostgres = true := by
    rw [← hdir, ← hmode]
    exact hreadable
  refine wp_atomicJson hx₆ (fun n => ?_) (wp_start hmoved ⟨_, validateManifest_toJson _, rfl⟩
    fun report y hy _ _ _ hserved' => h report y _ hy hserved' hbefore)
  exact Move.advance m .ready x₆.directory.pending hs₆.loaded hs₆.journal
    (.ready hstate hreadable₆)

theorem wp_installFrom {options : Options} {m : Manifest} {Q : Report → World → Prop}
    (hw : Moves given origin w) (hs : Settled w m) (hready : m.state ≠ .ready)
    (h : ∀ report w' id, Moves given origin w' → Served w' id →
      (m.state = .preparing → Undamaged given.assets w.directory) → Runnable w.directory →
      Q report w') :
    wp (moving given origin) (installFrom given.assets options m) Q w :=
  wp_bind.mpr (wp_prepareIfNeeded hw hs hready fun _ _ hu hsettled hstate hundamaged hmode =>
    wp_completeInstall hu hsettled hstate fun report v id hv hserved hreadable =>
      h report v id hv hserved hundamaged fun hsome => (hmode hsome).symm.trans hreadable)

/-- What an installation must find in the directory. -/
structure Rerunnable (assets : Assets) (d : Directory) : Prop where
  occupied : d.manifest = none → d.occupied = false
  scripts : ∀ m, d.loaded = some m → m.state = .preparing → Undamaged assets d
  runnable : ∀ m, d.loaded = some m → m.state ≠ .ready → Runnable d

/-- `install` behind the recovery. -/
theorem wp_installRest {options : Options} {engine : Str} {Q : Report → World → Prop}
    (hrun : given.run = .install options)
    (hbind : options.bindAddress = "127.0.0.1" ∨ options.bindAddress = "0.0.0.0")
    (hw : Moves given origin w) (hjournal : w.directory.journal = none)
    (h : ∀ report w' id, Moves given origin w' → Served w' id →
      Rerunnable given.assets w.directory → Q report w') :
    wp (moving given origin) (do
      let known ← .read fun w : World => w.directory.manifest.isSome
      match known with
      | true => do
          let m ← existingManifest engine options
          if m.state = .ready then start given.assets m else installFrom given.assets options m
      | false => do
          let m ← newManifest engine options
          installFrom given.assets options m) Q w := by
  refine wp_bind.mpr (wp_look hw ?_)
  cases hknown : w.directory.manifest.isSome with
  | true =>
      have hsome : w.directory.manifest = none → w.directory.occupied = false := by
        intro hnone
        rw [hnone] at hknown
        cases hknown
      refine wp_bind.mpr (wp_existingManifest hw fun m x hx hkx hloaded => ?_)
      have hsettled : Settled x m := Settled.of_kept ⟨hloaded, hjournal⟩ hkx.directory
      have hrerunnable : (m.state = .preparing → Undamaged given.assets w.directory) →
          (m.state ≠ .ready → Runnable w.directory) → Rerunnable given.assets w.directory := by
        refine fun hundamaged hrunnable => ⟨hsome, fun n hn hstate => ?_, fun n hn hne => ?_⟩
        · rw [hloaded] at hn
          cases hn
          exact hundamaged hstate
        · rw [hloaded] at hn
          cases hn
          exact hrunnable hne
      split_ifs with hready
      · refine wp_start hx ⟨m, hsettled.loaded, rfl⟩ fun report y hy _ _ _ hserved => ?_
        refine h report y _ hy hserved (hrerunnable (fun hstate => ?_) fun hne => ?_)
        · rw [hready] at hstate
          cases hstate
        · exact absurd hready hne
      · refine wp_installFrom hx hsettled hready ?_
        intro report y id hy hserved hundamaged hrunnable
        rw [hkx.directory] at hundamaged hrunnable
        exact h report y id hy hserved (hrerunnable hundamaged fun _ => hrunnable)
  | false =>
      have hnone : w.directory.manifest = none := by
        rwa [Option.isSome_eq_false_iff, Option.isNone_iff_eq_none] at hknown
      refine wp_bind.mpr (wp_newManifest hrun hbind hw hnone hjournal ?_)
      intro m x hx hsettled hstate hempty
      have hunloaded : ∀ n, w.directory.loaded ≠ some n := by
        intro n hn
        unfold Directory.loaded at hn
        rw [hnone] at hn
        cases hn
      refine wp_installFrom hx hsettled (by rw [hstate]; decide)
        fun report y id hy hserved _ _ => ?_
      exact h report y id hy hserved ⟨fun _ => hempty, fun n hn => absurd hn (hunloaded n),
        fun n hn => absurd hn (hunloaded n)⟩

theorem bindAddress_valid {options : Options}
    (h : ¬ (options.bindAddress ≠ "127.0.0.1" ∧ options.bindAddress ≠ "0.0.0.0")) :
    options.bindAddress = "127.0.0.1" ∨ options.bindAddress = "0.0.0.0" := by
  by_cases hlocal : options.bindAddress = "127.0.0.1"
  · exact .inl hlocal
  · exact .inr (not_not.mp fun hall => h ⟨hlocal, hall⟩)

theorem wp_install {options : Options} {Q : Report → World → Prop}
    (hrun : given.run = .install options) (hw : Moves given origin w)
    (h : ∀ report w' id, Moves given origin w' → Served w' id →
      (w.directory.journal = none → Rerunnable given.assets w.directory) → Q report w') :
    wp (moving given origin) (install given.assets options) Q w := by
  refine wp_bind.mpr (wp_raiseIf (fun _ => trivial) fun hbind => wp_bind.mpr ?_)
  refine wp_preflight hw fun engine u hu hku => wp_bind.mpr ?_
  refine wp_recoverUpgrade hu fun v hv _ hjournal hsame _ => ?_
  refine wp_installRest hrun (bindAddress_valid hbind) hv (hjournal rfl) ?_
  intro report x id hx hserved hrerunnable
  refine h report x id hx hserved fun hnone => ?_
  rw [← hku.directory] at hnone ⊢
  rw [← hsame hnone]
  exact hrerunnable

/-- `service` behind the recovery. -/
theorem wp_serviceRest {action : Action} {Q : Report → World → Prop}
    (hw : Moves given origin w)
    (h : ∀ report w' id, Moves given origin w' → Served w' id → Q report w') :
    wp (moving given origin) (do
      let m ← load
      validateFiles given.assets m
      volume m false
      act given.assets m action) Q w := by
  refine wp_bind.mpr (wp_load hw fun m hm => wp_bind.mpr ?_)
  refine wp_validateFiles hw fun _ _ => wp_bind.mpr ?_
  refine wp_volume hw (fun hfalse => by cases hfalse) fun x hx hdir hlabel _ => ?_
  have hloaded : x.directory.loaded = some m := by rw [hdir, hm]
  have hserved : Served x m.id := ⟨⟨m, hloaded, rfl⟩, hlabel⟩
  cases action with
  | start =>
      exact wp_start hx ⟨m, hloaded, rfl⟩ fun report y hy _ _ _ hserved' => h report y _ hy hserved'
  | stop =>
      refine wp_bind.mpr (wp_compose hx hserved fun _ y hy hky _ => wp_bind.mpr ?_)
      have hserved' := hserved.kept hky
      exact wp_compose hy hserved' fun _ z hz hkz _ => h _ z _ hz (hserved'.kept hkz)

theorem wp_service {action : Action} {Q : Report → World → Prop}
    (hw : Moves given origin w)
    (h : ∀ report w' id, Moves given origin w' → Served w' id → Q report w') :
    wp (moving given origin) (service given.assets action) Q w := by
  refine wp_bind.mpr (wp_preflight hw fun _ u hu _ => wp_bind.mpr ?_)
  exact wp_recoverUpgrade hu fun v hv _ _ _ _ => wp_serviceRest hv h

theorem wp_saveBackup {m : Manifest} {Q : Unit → World → Prop}
    (hw : Moves given origin w) (hloaded : w.directory.loaded.isSome = true)
    (h : ∀ backups,
      Moves given origin { w with directory := { w.directory with backups := backups } } →
      Q () { w with directory := { w.directory with backups := backups } }) :
    wp (moving given origin) (saveBackup m) Q w := by
  have hfirst := hw.step (Move.aside w.directory.candidate ({} :: w.directory.backups)
    w.directory.pending hloaded)
  refine wp_bind.mpr (wp_write hfirst ?_)
  have hsecond := hfirst.step (Move.aside w.directory.candidate
    ({ manifest := some m.toJson } :: w.directory.backups) w.directory.pending hloaded)
  refine wp_bind.mpr (wp_write hsecond ?_)
  have hthird := hsecond.step (Move.aside w.directory.candidate
    ({ manifest := some m.toJson, compose := some (composeConfig m) } :: w.directory.backups)
    w.directory.pending hloaded)
  exact wp_write hthird (h _ hthird)

theorem wp_switchImage {m : Manifest} {image : ImageId} {Q : Report → World → Prop}
    (hupgrades : given.run.upgrades = true) (himage : image ≠ m.image)
    (hw : Moves given origin w) (hs : Settled w m)
    (hvolume : Labelled w.volumes m.id) (hfiles : Complete given.assets m w.directory)
    (hcompose : w.directory.compose.any (fun file => holdsConfig file m) = true)
    (h : ∀ report w' id, Moves given origin w' → Served w' id → Q report w') :
    wp (moving given origin) (switchImage given.assets m (m.withImage image)) Q w := by
  have hsome : w.directory.loaded.isSome = true := by
    rw [hs.loaded]
    rfl
  have hcandidate := hw.step (Move.aside (some (composeConfig (m.withImage image)))
    w.directory.backups w.directory.pending hsome)
  refine wp_bind.mpr (wp_atomicJson hw (fun n => ?_) (wp_bind.mpr ?_))
  · exact Move.aside (some (composeConfig (m.withImage image))) w.directory.backups
      w.directory.pending hsome
  have hserved : Served { w with directory := { w.directory with
      candidate := some (composeConfig (m.withImage image)) } } m.id :=
    ⟨⟨m, hs.loaded, rfl⟩, hvolume⟩
  refine wp_command hcandidate ⟨m.id, rfl, hserved⟩ rfl fun _ u hu hku _ => wp_bind.mpr ?_
  have hserved_u := hserved.kept hku
  have hloaded : u.directory.loaded = some m := by
    rw [hku.directory]
    exact hs.loaded
  refine wp_saveBackup hu (by rw [hloaded]; rfl) fun backups hbackups => wp_bind.mpr ?_
  have hserved_b : Served { u with directory := { u.directory with backups := backups } } m.id :=
    ⟨⟨m, hloaded, rfl⟩, hserved_u.volume⟩
  refine wp_compose hbackups hserved_b fun _ v hv hkv _ => ?_
  have hdir : v.directory = { w.directory with
      candidate := some (composeConfig (m.withImage image)), backups := backups } := by
    rw [hkv.directory, hku.directory]
  have hsettled : Settled v m := by
    constructor
    · rw [hdir]
      exact hs.loaded
    · rw [hdir]
      exact hs.journal
  have hcomplete : Complete given.assets m v.directory := by
    rw [hdir]
    exact hfiles
  have hfile : v.directory.compose.any (fun file => holdsConfig file m) = true := by
    rw [hdir]
    exact hcompose
  have hjournal := hv.step (Move.journal m image v.directory.pending hsettled.loaded
    hsettled.journal hcomplete hfile hupgrades himage)
  refine wp_bind.mpr (wp_atomicJson hv (fun n => ?_) (wp_bind.mpr ?_))
  · exact Move.journal m image v.directory.pending hsettled.loaded hsettled.journal hcomplete
      hfile hupgrades himage
  have hupgrading : Upgrading { v with directory :=
      { v.directory with journal := some (journalJson m (m.withImage image)) } } m
      (m.withImage image) :=
    ⟨journalOf_journalJson m image, .inl hsettled.loaded⟩
  refine wp_mono (wp_takeCandidate hjournal hupgrading ?_) fun _ _ hrest => wp_bind.mpr hrest
  intro x hx _ hxdir
  have hjournal' : x.directory.journal.bind journalOf = some (m, m.withImage image) := by
    rw [hxdir]
    exact journalOf_journalJson m image
  have hloaded' : x.directory.loaded = some (m.withImage image) := by
    rw [hxdir]
    exact validateManifest_toJson _
  refine wp_bind.mpr (wp_mono (wp_startCandidate hx ⟨hjournal', .inr hloaded'⟩ hloaded'
    (by rw [hxdir]) fun report y hy _ _ hserved' => h report y _ hy hserved')
    fun _ _ hrest => wp_bind.mpr hrest)

theorem wp_upgrade {reference : Str} {Q : Report → World → Prop}
    (hupgrades : given.run.upgrades = true) (hw : Moves given origin w)
    (h : ∀ report w' id, Moves given origin w' → Served w' id → Q report w') :
    wp (moving given origin) (upgrade given.assets reference) Q w := by
  refine wp_bind.mpr (wp_preflight hw fun engine u hu _ => wp_bind.mpr ?_)
  refine wp_recoverUpgrade hu fun v hv _ hjournal _ _ => wp_bind.mpr (wp_load hv fun m hm => ?_)
  have hsettled : Settled v m := ⟨hm, hjournal rfl⟩
  refine wp_bind.mpr (wp_validateFiles hv fun hfiles hcompose => wp_bind.mpr ?_)
  refine wp_volume hv (fun hfalse => by cases hfalse) fun x hx hdir hlabel _ => wp_bind.mpr ?_
  refine wp_image hx fun id y hy hky _ => wp_bind.mpr (wp_bind.mpr ?_)
  have hserved : Served y m.id := by
    refine Served.kept ⟨⟨m, ?_, rfl⟩, hlabel⟩ hky
    rw [hdir, hm]
  refine wp_compose hy hserved fun o z hz hkz _ => wp_bind.mpr ?_
  have hrest : ∀ t, Moves given origin t → Kept y t → wp (moving given origin)
      (if id = m.image then return .unchanged
        else switchImage given.assets m (m.withImage id)) Q t := by
    intro t ht hkt
    split_ifs with himage
    · exact h _ t _ ht (hserved.kept hkt)
    · have hdirectory : t.directory = v.directory := by
        rw [hkt.directory, hky.directory, hdir]
      refine wp_switchImage hupgrades himage ht (hsettled.of_kept hdirectory)
        (hserved.kept hkt).volume ?_ ?_ h
      · rw [hdirectory]
        exact hfiles
      · rw [hdirectory]
        exact hcompose
  cases (splitLines o.text).contains "gjallar" with
  | true =>
      refine wp_bind.mpr (wp_compose hz (hserved.kept hkz) fun _ t ht hkt _ => ?_)
      exact hrest t ht (hkz.trans hkt)
  | false =>
      refine wp_bind.mpr (wp_compose hz (hserved.kept hkz) fun _ t ht hkt _ => ?_)
      exact hrest t ht (hkz.trans hkt)

/-- Every point of a run is reached by moves, and a run that returns has its volume. -/
theorem wp_program (given : Given) (w : World) :
    wp (moving given w) (program given.assets given.run)
      (fun _ w' => ∃ id, Served w' id) w := by
  have hw : Moves given w w := Relation.ReflTransGen.refl
  cases hrun : given.run with
  | install options => exact wp_install hrun hw fun _ _ id _ hserved _ => ⟨id, hserved⟩
  | service action => exact wp_service hw fun _ _ id _ hserved => ⟨id, hserved⟩
  | upgrade reference =>
      exact wp_upgrade (by rw [hrun]; rfl) hw fun _ _ id _ hserved => ⟨id, hserved⟩

theorem moves_exec (given : Given) {rs : List Reply} (hrs : ∀ r ∈ rs, given.replies r)
    (w : World) : Moves given w ((program given.assets given.run).exec rs w).state :=
  (wp_exec (wp_program given w) Relation.ReflTransGen.refl hrs).1

theorem served_of_returned {assets : Assets} {run : Run} {rs : List Reply} {w : World}
    {report : Report} (h : ((program assets run).exec rs w).outcome = .returned report) :
    ∃ id, Served ((program assets run).exec rs w).state id :=
  (wp_exec (wp_program { assets := assets, run := run } w) Relation.ReflTransGen.refl
    fun _ _ => trivial).2.1 report h

end Steps

end Gjallar.Bootstrap
