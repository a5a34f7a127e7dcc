import Gjallar.BootstrapMoves

/-!
# A working engine

What the commands do while Docker serves them: no check of theirs can fail but those of the files.
The rules hold for every contract whose replies serve.
-/
namespace Gjallar.Bootstrap

open Gjallar.Text Gjallar.Data Gjallar.CrashPrograms Gjallar.Installation Gjallar.TextLines

/-- Every Docker command succeeds, and what it prints is acceptable. -/
structure Serving (r : Reply) : Prop where
  platform : r.platform = true
  portFree : r.portFree = true
  succeeds : ∀ command, ∃ o, r.docker command = .success o
  version : ∀ o, r.docker .composeVersion = .success o → composeSupported o.text = true
  context : ∀ o, r.docker .contextInspect = .success o →
    ("unix://" : Str).isPrefixOf (strip o.text) = true
  info : ∀ o, r.docker .info = .success o →
    ∃ info engine, o.json = some info ∧ engineArchitecture info = some engine
  maintenance : ∀ project command payload o,
    r.docker (.compose project false
      ["run", "--rm", "--no-deps", "-T", "maintenance", command] payload) = .success o →
    ∃ result state, o.json = some result ∧ maintenanceState result = some state

theorem answer_compose {w : World} {r : Reply} {project : Str} {candidate : Bool}
    {args : List Str} {input : Option Value}
    (h : args ≠ roleArgs ∨ w.directory.readable .initPostgres = true) :
    w.answer r (.compose project candidate args input) =
      r.docker (.compose project candidate args input) := by
  refine if_neg fun hbad => ?_
  rcases h with hargs | hreadable
  · exact hargs hbad.1
  · rw [hreadable] at hbad
    cases hbad.2

theorem maintenance_ne_roleArgs (command : Str) :
    (["run", "--rm", "--no-deps", "-T", "maintenance", command] : List Str) ≠ roleArgs := by
  intro h
  cases (List.cons.inj h).1

theorem upArgs_ne_roleArgs (service : Str) : upArgs service ≠ roleArgs := by
  intro h
  cases (List.cons.inj h).1

section Serves

variable {assets : Assets} {c : Contract World Reply ClientError} {w : World} {α : Type}
  {Q : α → World → Prop}

theorem serves_read (halways : ∀ w, c.always w) (f : World → α) (h : Q (f w) w) :
    wp c (.read f) Q w := wp_read f (halways w) h

theorem serves_change (halways : ∀ w, c.always w) {f : Directory → Directory}
    {Q : Unit → World → Prop} (h : Q () { w with directory := f w.directory }) :
    wp c (change f) Q w := wp_write (halways _) h

theorem serves_atomicJson (halways : ∀ w, c.always w) {replace : Directory → Directory}
    {Q : Unit → World → Prop}
    (h : Q () { w with directory := replace w.directory }) :
    wp c (atomicJson replace) Q w := by
  refine wp_bind.mpr (serves_change halways ?_)
  exact wp_write (halways _) h

theorem serves_raiseIf {bad : Prop} [Decidable bad] {e : ClientError} {Q : Unit → World → Prop}
    (hgood : ¬ bad) (h : Q () w) : wp c (.raiseIf bad e) Q w :=
  wp_raiseIf (fun hbad => absurd hbad hgood) fun _ => h

theorem serves_orRaise {a : Option α} {b : α} {e : ClientError} (ha : a = some b) (h : Q b w) :
    wp c (.orRaise a e) Q w := by
  subst ha
  exact h

variable (halways : ∀ w, c.always w) (hserving : ∀ r, c.replies r → Serving r)

include halways hserving

theorem serves_runner {command : Command} {answer : World → Output → α}
    (hanswer : ∀ r, w.answer r command = r.docker command)
    (h : ∀ r o, c.replies r → r.docker command = .success o →
      Q (answer w o) (w.record command true)) :
    wp c (runner command answer) Q w := by
  intro r hr
  obtain ⟨o, ho⟩ := (hserving r hr).succeeds command
  refine ⟨halways _, ?_⟩
  simp only [hanswer, ho]
  exact h r o hr ho

/-- A command that creates no volume. -/
theorem serves_command {command : Command} {answer : World → Output → α}
    (hanswer : ∀ r, w.answer r command = r.docker command)
    (hvolumes : volumesAfter command w.volumes = w.volumes)
    (h : ∀ r o w', c.replies r → r.docker command = .success o → Kept w w' →
      Q (answer w o) w') :
    wp c (runner command answer) Q w :=
  serves_runner halways hserving hanswer fun r o hr ho => h r o _ hr ho ⟨rfl, hvolumes⟩

/-- `preflight` returns the architecture of the engine. -/
theorem serves_preflight {Q : Str → World → Prop}
    (h : ∀ r o info engine w', c.replies r → r.docker .info = .success o → o.json = some info →
      engineArchitecture info = some engine → Kept w w' → Q engine w') :
    wp c preflight Q w := by
  refine wp_bind.mpr (wp_receive (halways w) fun r hr => wp_bind.mpr ?_)
  refine serves_raiseIf (by rw [(hserving r hr).platform]; decide) (wp_bind.mpr ?_)
  refine serves_command halways hserving (fun _ => rfl) rfl fun r o u hr ho hu => wp_bind.mpr ?_
  refine serves_raiseIf (by rw [(hserving r hr).version o ho]; decide) (wp_bind.mpr ?_)
  refine serves_command halways hserving (fun _ => rfl) rfl fun r o v hr ho hv => wp_bind.mpr ?_
  refine serves_raiseIf (by rw [(hserving r hr).context o ho]; decide) (wp_bind.mpr ?_)
  refine serves_command halways hserving (fun _ => rfl) rfl fun r o x hr ho hx => wp_bind.mpr ?_
  obtain ⟨info, engine, hjson, hengine⟩ := (hserving r hr).info o ho
  exact serves_orRaise hjson (serves_orRaise hengine
    (h r o info engine x hr ho hjson hengine ((hu.trans hv).trans hx)))

theorem serves_hasVolume {m : Manifest} {Q : Bool → World → Prop}
    (h : ∀ w', Kept w w' → Q (w.volumes.lookup m.volume).isSome w') :
    wp c (hasVolume m) Q w :=
  serves_command halways hserving (fun _ => rfl) rfl fun _ _ w' _ _ hkept => h w' hkept

/-- The volume is there with its label, or it may be created. -/
theorem serves_volume {m : Manifest} {create : Bool} {Q : Unit → World → Prop}
    (hvolume : Labelled w.volumes m.id ∨ create = true ∧ w.volumes.lookup m.volume = none)
    (h : ∀ w', w'.directory = w.directory → Labelled w'.volumes m.id →
      (create = false → w'.volumes = w.volumes) → Q () w') :
    wp c (volume m create) Q w := by
  have hinspect : ∀ u, u.directory = w.directory → Labelled u.volumes m.id →
      (create = false → u.volumes = w.volumes) → wp c (do
        let label ← runner (.volumeInspect m.volume) fun w _ => (w.volumes.lookup m.volume).join
        .raiseIf (label ≠ some m.id.text) .volumeConflict) Q u := by
    intro u hdir hlabel hkeeps
    refine wp_bind.mpr (serves_command halways hserving (fun _ => rfl) rfl fun _ _ v _ _ hv => ?_)
    refine serves_raiseIf (not_not.mpr ?_) (h v (hv.directory.trans hdir) ?_ fun hc =>
      hv.volumes.trans (hkeeps hc))
    · rw [Manifest.volume, hlabel]
      rfl
    · rw [hv.volumes]
      exact hlabel
  refine wp_bind.mpr (serves_hasVolume halways hserving fun u hu => wp_bind.mpr ?_)
  rcases hvolume with hlabel | ⟨hcreate, hnone⟩
  · have hsome : (w.volumes.lookup m.volume).isSome = true := by
      rw [Manifest.volume, hlabel]
      rfl
    rw [hsome]
    refine hinspect u hu.directory ?_ fun _ => hu.volumes
    rw [hu.volumes]
    exact hlabel
  · rw [hnone, hcreate]
    refine wp_bind.mpr (serves_raiseIf (by decide) ?_)
    refine serves_runner halways hserving (fun _ => rfl) fun _ _ _ _ =>
      hinspect _ hu.directory ?_ fun hfalse => ?_
    · have hlookup : u.volumes.lookup m.volume = none := by rw [hu.volumes, hnone]
      change List.lookup _ (if (u.volumes.lookup m.volume).isSome then _ else _) = _
      rw [hlookup]
      simp [Manifest.volume]
    · rw [hcreate] at hfalse
      cases hfalse

theorem serves_compose {m : Manifest} {args : List Str} {input : Option Value}
    {Q : Output → World → Prop}
    (hargs : args ≠ roleArgs ∨ w.directory.readable .initPostgres = true)
    (h : ∀ r o w', c.replies r → r.docker (.compose m.project false args input) = .success o →
      Kept w w' → Q o w') :
    wp c (compose m args input) Q w :=
  serves_command halways hserving (fun _ => answer_compose hargs) rfl h

theorem serves_maintenance {m : Manifest} {command : Str} {payload : Option Value}
    {Q : Str → World → Prop} (h : ∀ state w', Kept w w' → Q state w') :
    wp c (maintenance m command payload) Q w := by
  refine wp_bind.mpr (serves_compose halways hserving (.inl (maintenance_ne_roleArgs command))
    fun r o u hr ho hu => wp_bind.mpr ?_)
  obtain ⟨result, state, hjson, hstate⟩ := (hserving r hr).maintenance _ _ _ o ho
  exact serves_orRaise hjson (serves_orRaise hstate (h state u hu))

omit hserving in
theorem serves_validateFiles {m : Manifest} {Q : Unit → World → Prop}
    (hfiles : Complete assets m w.directory)
    (hcompose : w.directory.compose = some (composeConfig m)) (h : Q () w) :
    wp c (validateFiles assets m) Q w := by
  refine wp_bind.mpr (serves_read halways _ ?_)
  have hcheck : checkFiles assets m w.directory = .ok () := by
    refine checkFiles_eq_ok.mpr ⟨hfiles, ?_⟩
    rw [hcompose]
    exact eqv_composeConfig m
  rw [hcheck]
  exact h

omit hserving in
theorem serves_load {m : Manifest} {Q : Manifest → World → Prop}
    (hloaded : w.directory.loaded = some m) (h : Q m w) : wp c load Q w :=
  wp_bind.mpr (serves_read halways _ (serves_orRaise hloaded h))

theorem serves_checkPort (port : Port) {Q : Port → World → Prop} (h : Q port w) :
    wp c (checkPort port.number) Q w := by
  refine wp_bind.mpr (serves_orRaise (Port.ofNumber_number port) (wp_bind.mpr ?_))
  refine wp_receive (halways w) fun r hr => wp_bind.mpr ?_
  exact serves_raiseIf (by rw [(hserving r hr).portFree]; decide) h

theorem serves_bringUp {m : Manifest} {Q : Unit → World → Prop}
    (h : ∀ w', Kept w w' → Q () w') : wp c (bringUp m) Q w := by
  refine wp_bind.mpr (wp_bind.mpr (serves_compose halways hserving (.inl (by decide))
    fun _ o u _ _ hu => ?_))
  have hrest : wp c (do
      let _ ← compose m (upArgs "postgres")
      let _ ← maintenance m "check-ready"
      let _ ← compose m (upArgs "gjallar")
      return ()) Q u := by
    refine wp_bind.mpr (serves_compose halways hserving (.inl (upArgs_ne_roleArgs _))
      fun _ _ v _ _ hv => wp_bind.mpr ?_)
    refine serves_maintenance halways hserving fun _ x hx => wp_bind.mpr ?_
    refine serves_compose halways hserving (.inl (upArgs_ne_roleArgs _)) fun _ _ y _ _ hy => ?_
    exact h y (((hu.trans hv).trans hx).trans hy)
  change wp c (do ensurePort m ((splitLines o.text).contains "gjallar"); _) Q u
  refine wp_bind.mpr ?_
  cases (splitLines o.text).contains "gjallar" with
  | true => exact hrest
  | false => exact wp_bind.mpr (serves_checkPort halways hserving _ hrest)

/-- `_start` of a ready installation succeeds and changes no file. -/
theorem serves_start {m : Manifest} {Q : Report → World → Prop}
    (hfiles : Complete assets m w.directory)
    (hcompose : w.directory.compose = some (composeConfig m)) (hvolume : Labelled w.volumes m.id)
    (hready : m.state = .ready)
    (h : ∀ w', Kept w w' → Q (.running m.bindAddress m.port.number) w') :
    wp c (start assets m) Q w := by
  refine wp_bind.mpr (serves_validateFiles halways hfiles hcompose (wp_bind.mpr ?_))
  refine serves_volume halways hserving (.inl hvolume) fun u hdir _ hkeeps => wp_bind.mpr ?_
  refine serves_raiseIf (not_not.mpr hready) (wp_bind.mpr ?_)
  refine serves_bringUp halways hserving fun v hv => ?_
  exact h v (Kept.trans ⟨hdir, hkeeps rfl⟩ hv)

end Serves

/-! ### A local engine -/

/-- An image of the local engine; `"new"` names another one than every other reference. -/
def localImage (reference : Str) : ImageId where
  text := ("sha256:" : Str) ++ List.replicate 64 (if reference = "new" then 'b' else 'a')
  isImage := by split_ifs <;> decide

def localInfo : Value := .dict [("OSType", .str "linux"), ("Architecture", .str "x86_64")]

def localInspect (reference : Str) : Dict :=
  [("Id", .str (localImage reference).text), ("Os", .str "linux"),
    ("Architecture", .str "x86_64")]

def localMaintenance : Value := .dict [("ok", .bool true), ("state", .str "ready")]

def localEngine : Command → Output
  | .composeVersion => { text := "2.20.0" }
  | .contextInspect => { text := "unix:///var/run/docker.sock" }
  | .info => { json := some localInfo }
  | .imageInspect reference => { json := some (.dict (localInspect reference)) }
  | .compose _ _ _ _ => { json := some localMaintenance }
  | _ => {}

def localReply : Reply where
  platform := true
  docker := fun command => .success (localEngine command)
  portFree := true
  uuid := ⟨"11111111-1111-4111-8111-111111111111", "11111111-1111-4111-8111-111111111111",
    by decide⟩
  token := ⟨List.replicate 64 'a', by decide⟩
  cut := 0
  umask := false
  administrator := some (.dict [])

theorem serving_localReply : Serving localReply where
  platform := rfl
  portFree := rfl
  succeeds := fun command => ⟨localEngine command, rfl⟩
  version := by
    intro o ho
    cases ho
    decide
  context := by
    intro o ho
    cases ho
    decide
  info := by
    intro o ho
    cases ho
    exact ⟨localInfo, "amd64", rfl, by decide⟩
  maintenance := by
    intro _ _ _ o ho
    cases ho
    exact ⟨localMaintenance, "ready", rfl, by decide⟩

def localAssets : Assets := fun _ => "set -eu"

def localOptions : Options :=
  { image := none, port := 8000, bindAddress := "127.0.0.1", administrator := true }

/-- A run on the local engine that is killed after a number of steps. -/
def localRun (run : Run) (steps : ℕ) (w : World) : Execution World Reply ClientError Report :=
  (program localAssets run).exec (List.replicate steps localReply) w

/-- The world it leaves. -/
def localWorld (run : Run) (steps : ℕ) (w : World) : World := (localRun run steps w).state

theorem localWorld_eq (run : Run) (w : World) (k : ℕ) :
    ((program localAssets run).exec ((List.range k).map fun _ => localReply) w).state =
      localWorld run k w := by
  rw [localWorld, localRun, List.map_const', List.length_range]

/-- A local run that has ended stays as it is. -/
theorem localWorld_of_le {run : Run} {w : World} {n k : ℕ} (hnk : n ≤ k)
    (h : (localRun run n w).outcome ≠ .killed) :
    localWorld run k w = localWorld run n w := by
  have happend := (Prog.exec_append (List.replicate (k - n) localReply) h).2
  rw [← List.replicate_add, Nat.add_sub_cancel' hnk] at happend
  exact happend

/-- A finished installation. -/
def installedWorld : World := localWorld (.install localOptions) 100 {}

/-- An upgrade of the finished installation that was killed between the two files. -/
def switchingWorld : World := localWorld (.upgrade "new") 25 installedWorld

/-- An installation that was killed before it persisted the ready state. -/
def unfinishedWorld : World := localWorld (.install localOptions) 68 {}

/-- An upgrade of the unfinished installation. -/
def blockedWorld : World := localWorld (.upgrade "new") 100 unfinishedWorld

def localManifest (state : State) : Manifest :=
  { version := .two, id := localReply.uuid, port := ⟨8000, by decide⟩,
    image := localImage "gjallar:local", postgresImage := localImage "postgres:17-bookworm",
    state := state }

/-- What these runs lead to. -/
theorem local_runs :
    installedWorld.directory.loaded = some (localManifest .ready) ∧
      switchingWorld.directory.journal.bind journalOf = some (localManifest .ready,
        (localManifest .ready).withImage (localImage "new")) ∧
      unfinishedWorld.directory.loaded = some (localManifest .storageReady) ∧
      blockedWorld.directory.journal.bind journalOf = some (localManifest .storageReady,
        (localManifest .storageReady).withImage (localImage "new")) ∧
      blockedWorld.volumes.lookup (volumeName localReply.uuid.uid) =
        some (some localReply.uuid.text) ∧
      (localRun (.service .start) 100 blockedWorld).outcome ≠ .killed ∧
      (localWorld (.service .start) 100 blockedWorld).directory.journal.isSome = true := by
  decide +kernel

end Gjallar.Bootstrap
