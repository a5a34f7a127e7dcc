import Gjallar.InstallData
import Gjallar.WorkingEngine

/-!
# The journal of an upgrade

Across interrupted runs the manifest and the Compose file agree, or the journal of an upgrade tells
how they differ. While upgrades are only begun from the ready state, a journal is always completed.
-/
namespace Gjallar.Bootstrap

open Gjallar.Text Gjallar.Data Gjallar.CrashPrograms Gjallar.Installation

/-! ### The files -/

/-- An upgrade of a ready installation is under way. -/
structure Switching (assets : Assets) (w : World) (before : Manifest) (image : ImageId) :
    Prop where
  other : image ≠ before.image
  manifest : w.directory.manifest = some before.toJson ∨
    w.directory.manifest = some (before.withImage image).toJson
  compose : w.directory.compose = some (composeConfig before) ∨
    w.directory.compose = some (composeConfig (before.withImage image))
  files : Complete assets before w.directory
  ready : before.state = .ready

/-- The manifest, the Compose file and the journal between any two steps. -/
structure Orderly (assets : Assets) (w : World) : Prop where
  manifest : ∀ value, w.directory.manifest = some value → ∃ m : Manifest, value = m.toJson
  fresh : w.directory.manifest = none → w.directory.compose = none ∧ w.directory.journal = none
  settled : w.directory.journal = none → ∀ m file, w.directory.loaded = some m →
    w.directory.compose = some file → file = composeConfig m
  upgrading : ∀ data, w.directory.journal = some data → ∃ before image,
    data = journalJson before (before.withImage image) ∧ Switching assets w before image

/-- An upgrade is only begun from the ready state. -/
def ReadyUpgrade (run : Run) (w : World) : Prop :=
  run.upgrades = true → ∀ m, w.directory.loaded = some m → m.state = .ready

section Moving

variable {assets : Assets} {given : Given} {w w' : World}

theorem loaded_of_manifest {m : Manifest} (h : w.directory.manifest = some m.toJson) :
    w.directory.loaded = some m := by
  unfold Directory.loaded
  rw [h]
  exact validateManifest_toJson m

theorem Orderly.manifest_of_loaded {m : Manifest} (h : Orderly assets w)
    (hloaded : w.directory.loaded = some m) : w.directory.manifest = some m.toJson := by
  obtain ⟨value, hvalue, hvalid⟩ := Option.bind_eq_some_iff.mp hloaded
  obtain ⟨n, rfl⟩ := h.manifest value hvalue
  rw [validateManifest_toJson] at hvalid
  cases hvalid
  exact hvalue

/-- A move that leaves these three files alone. -/
theorem Orderly.of_files (h : Orderly assets w)
    (hmanifest : w'.directory.manifest = w.directory.manifest)
    (hcompose : w'.directory.compose = w.directory.compose)
    (hjournal : w'.directory.journal = w.directory.journal)
    (hfiles : w.directory.journal ≠ none → ∀ m, Complete assets m w.directory →
      Complete assets m w'.directory) : Orderly assets w' := by
  have hloaded : w'.directory.loaded = w.directory.loaded :=
    congrArg (fun manifest => Option.bind manifest validateManifest) hmanifest
  refine ⟨?_, ?_, ?_, fun data hdata => ?_⟩
  · rw [hmanifest]
    exact h.manifest
  · rw [hmanifest, hcompose, hjournal]
    exact h.fresh
  · rw [hjournal, hloaded, hcompose]
    exact h.settled
  · rw [hjournal] at hdata
    obtain ⟨before, image, hdata', hswitching⟩ := h.upgrading data hdata
    refine ⟨before, image, hdata', hswitching.other, ?_, ?_, ?_, hswitching.ready⟩
    · rw [hmanifest]
      exact hswitching.manifest
    · rw [hcompose]
      exact hswitching.compose
    · refine hfiles ?_ before hswitching.files
      rw [hdata]
      exact Option.some_ne_none data

/-- The journal that is there tells what is being switched. -/
theorem Orderly.switching {before candidate : Manifest} (h : Orderly assets w)
    (hupgrading : Upgrading w before candidate) : ∃ image data,
      candidate = before.withImage image ∧ w.directory.journal = some data ∧
        data = journalJson before candidate ∧ Switching assets w before image := by
  obtain ⟨data, hdata, hjournal⟩ := Option.bind_eq_some_iff.mp hupgrading.journal
  obtain ⟨b, image, rfl, hswitching⟩ := h.upgrading data hdata
  rw [journalOf_journalJson] at hjournal
  cases hjournal
  exact ⟨image, _, rfl, hdata, rfl, hswitching⟩

theorem Orderly.of_switching {before : Manifest} {image : ImageId}
    (hjournal : w.directory.journal = some (journalJson before (before.withImage image)))
    (hswitching : Switching assets w before image) : Orderly assets w := by
  refine ⟨fun value hvalue => ?_, fun hnone => ?_, fun hnone => ?_, fun data hdata => ?_⟩
  · rcases hswitching.manifest with hm | hm
    · rw [hvalue] at hm
      exact ⟨before, Option.some.inj hm⟩
    · rw [hvalue] at hm
      exact ⟨_, Option.some.inj hm⟩
  · rcases hswitching.manifest with hm | hm <;> rw [hnone] at hm <;> cases hm
  · rw [hjournal] at hnone
    cases hnone
  · rw [hjournal] at hdata
    exact ⟨before, image, (Option.some.inj hdata).symm, hswitching⟩

theorem Orderly.of_move (h : Orderly given.assets w) (hready : ReadyUpgrade given.run w)
    (hmove : Move given w w') : Orderly given.assets w' := by
  cases hmove with
  | stay | ran | temporary | aside => exact h.of_files rfl rfl rfl fun _ _ hfiles => hfiles
  | create m options pending _ hnone =>
      obtain ⟨hcompose, hjournal⟩ := h.fresh hnone
      refine ⟨fun value hvalue => ⟨m, (Option.some.inj hvalue).symm⟩, fun hfalse => ?_,
        fun _ n file _ hfile => ?_, fun data hdata => ?_⟩
      · cases hfalse
      · rw [hcompose] at hfile
        cases hfile
      · rw [hjournal] at hdata
        cases hdata
  | secretsDir m hp | link m _ _ hp | script m _ _ _ hp | mode m _ hp =>
      exact h.of_files rfl rfl rfl fun hne => absurd hp.journal hne
  | compose m pending hp =>
      refine ⟨h.manifest, fun hnone => ?_, fun _ n file hn hfile => ?_, fun data hdata => ?_⟩
      · have hloaded := hp.loaded
        unfold Directory.loaded at hloaded
        rw [show w.directory.manifest = none from hnone] at hloaded
        cases hloaded
      · have hn' : w.directory.loaded = some n := hn
        rw [hp.loaded] at hn'
        cases hn'
        exact (Option.some.inj hfile).symm
      · have hdata' : w.directory.journal = some data := hdata
        rw [hp.journal] at hdata'
        cases hdata'
  | advance m state pending hloaded hjournal =>
      refine ⟨fun value hvalue => ⟨_, (Option.some.inj hvalue).symm⟩, fun hfalse => ?_,
        fun _ n file hn hfile => ?_, fun data hdata => ?_⟩
      · cases hfalse
      · rw [loaded_manifest] at hn
        cases hn
        rw [composeConfig_withState]
        exact h.settled hjournal m file hloaded hfile
      · rw [hjournal] at hdata
        cases hdata
  | journal m image pending hloaded hjournal hfiles hcompose hupgrades himage =>
      refine Orderly.of_switching rfl ⟨himage, .inl (h.manifest_of_loaded hloaded), .inl ?_, hfiles,
        hready hupgrades m hloaded⟩
      cases hfile : w.directory.compose with
      | none =>
          rw [hfile] at hcompose
          cases hcompose
      | some file =>
          have hsame := h.settled hjournal m file hloaded hfile
          rw [hsame]
  | moveCompose before candidate pending hupgrading =>
      obtain ⟨image, data, rfl, hdata, rfl, hswitching⟩ := h.switching hupgrading
      exact Orderly.of_switching hdata ⟨hswitching.other, hswitching.manifest, .inr rfl,
        hswitching.files, hswitching.ready⟩
  | moveManifest before candidate pending hupgrading =>
      obtain ⟨image, data, rfl, hdata, rfl, hswitching⟩ := h.switching hupgrading
      exact Orderly.of_switching hdata ⟨hswitching.other, .inr rfl, hswitching.compose,
        hswitching.files, hswitching.ready⟩
  | removeJournal before candidate _ hmanifest hcompose =>
      refine ⟨h.manifest, fun hnone => ⟨(h.fresh hnone).1, rfl⟩, fun _ n file hn hfile => ?_,
        fun data hdata => ?_⟩
      · have hn' : w.directory.loaded = some n := hn
        have hfile' : w.directory.compose = some file := hfile
        rw [hmanifest] at hn'
        cases hn'
        rw [hcompose] at hfile'
        exact (Option.some.inj hfile').symm
      · cases hdata

/-- An upgrade creates no manifest. -/
theorem not_loaded_of_move (hmove : Move given w w') (hupgrades : given.run.upgrades = true)
    (hnone : w.directory.loaded = none) : w'.directory.loaded = none := by
  cases hmove with
  | create m options pending hchosen =>
      rw [hchosen.run] at hupgrades
      cases hupgrades
  | advance m state pending hloaded =>
      rw [hnone] at hloaded
      cases hloaded
  | moveManifest before candidate pending hupgrading =>
      obtain ⟨m, hloaded, -⟩ := hupgrading.current
      rw [hnone] at hloaded
      cases hloaded
  | _ => exact hnone

theorem ReadyUpgrade.of_move (h : ReadyUpgrade given.run w) (hmove : Move given w w') :
    ReadyUpgrade given.run w' := by
  intro hupgrades m' hm'
  cases hloaded : w.directory.loaded with
  | none =>
      rw [not_loaded_of_move hmove hupgrades hloaded] at hm'
      cases hm'
  | some m =>
      obtain ⟨n, hn, -, hstage⟩ := (Forward.of_move hmove).manifest m hloaded
      rw [hm'] at hn
      cases hn
      rw [h hupgrades m hloaded] at hstage
      exact (ready_iff m').mpr hstage

theorem Orderly.of_moves (h : Orderly given.assets w) (hready : ReadyUpgrade given.run w)
    (hmoves : Moves given w w') : Orderly given.assets w' := by
  have hboth : Orderly given.assets w' ∧ ReadyUpgrade given.run w' := by
    induction hmoves with
    | refl => exact ⟨h, hready⟩
    | tail _ hmove ih => exact ⟨ih.1.of_move ih.2 hmove, ih.2.of_move hmove⟩
  exact hboth.1

/-- Manifest and Compose file agree, or a journal names two manifests that differ in the image,
and each of the two files is one of them. -/
def Consistent (d : Directory) : Prop :=
  (d.journal = none ∧ ∀ value file, d.manifest = some value → d.compose = some file →
    ∃ m : Manifest, value = m.toJson ∧ file = composeConfig m) ∨
  ∃ before image, image ≠ before.image ∧
    d.journal = some (journalJson before (before.withImage image)) ∧
    (d.manifest = some before.toJson ∨ d.manifest = some (before.withImage image).toJson) ∧
    (d.compose = some (composeConfig before) ∨
      d.compose = some (composeConfig (before.withImage image)))

theorem Orderly.consistent (h : Orderly assets w) : Consistent w.directory := by
  cases hjournal : w.directory.journal with
  | none =>
      refine .inl ⟨hjournal, fun value file hvalue hfile => ?_⟩
      obtain ⟨m, rfl⟩ := h.manifest value hvalue
      exact ⟨m, rfl, h.settled hjournal m file (loaded_of_manifest hvalue) hfile⟩
  | some data =>
      obtain ⟨before, image, rfl, hs⟩ := h.upgrading data hjournal
      exact .inr ⟨before, image, hs.other, hjournal, hs.manifest, hs.compose⟩

/-! ### The removal of a journal -/

/-- Whenever a journal was removed the service had been started right before. -/
def StartedFirst : List Event → Prop
  | [] => True
  | .journalRemoved :: log => (∃ project input volumes, log.head? =
      some (.ran (.compose project false (upArgs "gjallar") input) true volumes)) ∧
        StartedFirst log
  | .ran _ _ _ :: log => StartedFirst log

theorem StartedFirst.of_move (h : StartedFirst w.log) (hmove : Move given w w') :
    StartedFirst w'.log := by
  cases hmove with
  | removeJournal before candidate _ _ _ hstarted =>
      obtain ⟨volumes, input, hhead⟩ := hstarted
      exact ⟨⟨_, input, volumes, hhead⟩, h⟩
  | _ => exact h

theorem StartedFirst.of_moves (h : StartedFirst w.log) (hmoves : Moves given w w') :
    StartedFirst w'.log := by
  induction hmoves with
  | refl => exact h
  | tail _ hmove ih => exact ih.of_move hmove

/-- A journal stays until it is removed. -/
def JournalKept (w w' : World) : Prop :=
  ∀ data, w.directory.journal = some data → w'.directory.journal = some data ∨
    ∃ events, w'.log = events ++ w.log ∧ Event.journalRemoved ∈ events

theorem JournalKept.refl (w : World) : JournalKept w w := fun _ h => .inl h

theorem JournalKept.trans {u v : World} (h : JournalKept u v) (h' : JournalKept v w)
    (hforward : Forward u v) (hforward' : Forward v w) : JournalKept u w := by
  intro data hdata
  obtain ⟨first, hfirst, -⟩ := hforward.events
  obtain ⟨second, hsecond, -⟩ := hforward'.events
  rcases h data hdata with hv | ⟨events, hlog, hmem⟩
  · rcases h' data hv with hw | ⟨events, hlog, hmem⟩
    · exact .inl hw
    · refine .inr ⟨events ++ first, ?_, List.mem_append_left _ hmem⟩
      rw [hlog, hfirst, List.append_assoc]
  · refine .inr ⟨second ++ events, ?_, List.mem_append_right _ hmem⟩
    rw [hsecond, hlog, List.append_assoc]

theorem JournalKept.of_move (hmove : Move given w w') : JournalKept w w' := by
  intro data hdata
  cases hmove with
  | journal _ _ _ _ hjournal =>
      rw [hdata] at hjournal
      cases hjournal
  | removeJournal => exact .inr ⟨[.journalRemoved], rfl, List.mem_singleton_self _⟩
  | _ => exact .inl hdata

theorem JournalKept.of_moves (hmoves : Moves given w w') : JournalKept w w' := by
  induction hmoves with
  | refl => exact JournalKept.refl w
  | tail hmoves hmove ih =>
      exact ih.trans (JournalKept.of_move hmove) (Forward.of_moves hmoves) (Forward.of_move hmove)

theorem JournalKept.of_after {allowed : Run → World → List Reply → Prop}
    (h : After assets allowed w w') : JournalKept w w' := by
  have hboth : Forward w w' ∧ JournalKept w w' := by
    refine h.invariant (I := fun t => Forward w t ∧ JournalKept w t)
      ⟨Forward.refl w, JournalKept.refl w⟩ ?_ ?_
    · rintro run t rs - ⟨hforward, hkept⟩
      have hmoves : Moves { assets := assets, run := run } t
        ((program assets run).exec rs t).state := moves_exec _ (fun _ _ => trivial) t
      have hforward' := Forward.of_moves hmoves
      exact ⟨hforward.trans hforward',
        hkept.trans (JournalKept.of_moves hmoves) hforward hforward'⟩
    · rintro t u ⟨hforward, hkept⟩ hout
      have hforward' := Forward.of_outside hout
      refine ⟨hforward.trans hforward', hkept.trans ?_ hforward hforward'⟩
      obtain ⟨volumes, rfl⟩ := hout
      exact fun _ hdata => .inl hdata
  exact hboth.2

/-! ### Recovery -/

/-- A journal that is not accepted stops the recovery before it changes anything. -/
theorem recoverUpgrade_rejects (hjournal : w.directory.journal ≠ none)
    (h : ∀ before candidate, ¬ Accepted w before candidate) (starting : Bool) (rs : List Reply) :
    ((recoverUpgrade assets starting).exec rs w).state = w ∧
      ∀ u, ((recoverUpgrade assets starting).exec rs w).outcome ≠ .returned u := by
  obtain ⟨data, hdata⟩ := Option.ne_none_iff_exists'.mp hjournal
  let c : Contract World Reply ClientError :=
    { always := fun t => t = w, raised := fun _ t => t = w }
  have hwp : wp c (recoverUpgrade assets starting) (fun _ _ => False) w := by
    refine wp_bind.mpr (wp_read _ rfl ?_)
    rw [hdata]
    refine wp_bind.mpr (wp_checkJournal rfl (fun _ => rfl) hdata fun before candidate ha => ?_)
    exact absurd ha (h before candidate)
  obtain ⟨hstate, hreturned, -⟩ := wp_exec hwp rfl fun _ _ => trivial
  exact ⟨hstate, fun u hu => hreturned u hu⟩

/-- Behind a recovery that returns both files are those of the candidate. -/
theorem recoverUpgrade_takes (hjournal : w.directory.journal ≠ none) {starting : Bool}
    {rs : List Reply} {u : Unit}
    (h : ((recoverUpgrade assets starting).exec rs w).outcome = .returned u) :
    ∃ before candidate, Accepted w before candidate ∧
      Taken ((recoverUpgrade assets starting).exec rs w).state candidate := by
  let given : Given := { assets := assets, run := .service .start }
  have hwp : wp (moving given w) (recoverUpgrade given.assets starting) (fun _ t =>
      ∃ before candidate, Accepted w before candidate ∧ Taken t candidate) w :=
    wp_recoverUpgrade Relation.ReflTransGen.refl fun _ _ _ _ _ htaken => htaken hjournal
  exact (wp_exec hwp Relation.ReflTransGen.refl fun _ _ => trivial).2.1 u h

/-! ### Completing an upgrade -/

/-- The upgrade to the candidate is complete. -/
structure Completed (w : World) (candidate : Manifest) : Prop where
  journal : w.directory.journal = none
  files : Taken w candidate

theorem Completed.of_move {candidate : Manifest} (h : Completed w candidate)
    (hready : candidate.state = .ready) (hrun : given.run.upgrades = false)
    (hmove : Move given w w') : Completed w' candidate := by
  have hloaded := loaded_of_manifest h.files.manifest
  cases hmove with
  | stay | ran | temporary | aside => exact ⟨h.journal, h.files.manifest, h.files.compose⟩
  | create _ _ _ _ hnone =>
      rw [h.files.manifest] at hnone
      cases hnone
  | secretsDir m hp | link m _ _ hp | script m _ _ _ hp | mode m _ hp | compose m _ hp =>
      have hm := hp.loaded
      rw [hloaded] at hm
      cases hm
      rw [hp.state] at hready
      cases hready
  | advance m state _ hm _ hadvance =>
      rw [hloaded] at hm
      cases hm
      cases hadvance with
      | prepared hstate | storageReady hstate | ready hstate =>
          rw [hstate] at hready
          cases hready
  | journal _ _ _ _ _ _ _ hupgrades =>
      rw [hrun] at hupgrades
      cases hupgrades
  | moveCompose _ _ _ hu | moveManifest _ _ _ hu | removeJournal _ _ hu =>
      have hjournal := hu.journal
      rw [h.journal] at hjournal
      cases hjournal

theorem Completed.of_moves {candidate : Manifest} (h : Completed w candidate)
    (hready : candidate.state = .ready) (hrun : given.run.upgrades = false)
    (hmoves : Moves given w w') : Completed w' candidate := by
  induction hmoves with
  | refl => exact h
  | tail _ hmove ih => exact ih.of_move hready hrun hmove

end Moving

section Serves

variable {assets : Assets} {c : Contract World Reply ClientError} {w : World}
  {before : Manifest} {image : ImageId}

theorem serves_checkJournal (halways : ∀ w, c.always w) {Q : Manifest → World → Prop}
    (hs : Switching assets w before image) (h : Q (before.withImage image) w) :
    wp c (checkJournal (journalJson before (before.withImage image))) Q w := by
  obtain ⟨current, hloaded, hcurrent⟩ : ∃ current, w.directory.loaded = some current ∧
      ¬ (current ≠ before ∧ current ≠ before.withImage image) := by
    rcases hs.manifest with hm | hm
    · exact ⟨_, loaded_of_manifest hm, fun hne => hne.1 rfl⟩
    · exact ⟨_, loaded_of_manifest hm, fun hne => hne.2 rfl⟩
  refine wp_bind.mpr (serves_orRaise (journalOf_journalJson before image) (wp_bind.mpr ?_))
  refine serves_load halways hloaded (wp_bind.mpr (serves_raiseIf hcurrent (wp_bind.mpr ?_)))
  refine serves_read halways _ (wp_bind.mpr (serves_raiseIf ?_ h))
  rw [Bool.not_eq_false]
  rcases hs.compose with hfile | hfile
  · rw [hfile, Option.any_some, holdsConfig, eqv_composeConfig]
    rfl
  · rw [hfile, Option.any_some, holdsConfig, holdsConfig, eqv_composeConfig, Bool.or_true]

/-- A served recovery completes the upgrade. -/
theorem serves_recoverUpgrade (halways : ∀ w, c.always w)
    (hserving : ∀ r, c.replies r → Serving r) {Q : Unit → World → Prop}
    (hjournal : w.directory.journal = some (journalJson before (before.withImage image)))
    (hs : Switching assets w before image) (hvolume : Labelled w.volumes before.id)
    (h : ∀ w', Completed w' (before.withImage image) → Q () w') :
    wp c (recoverUpgrade assets true) Q w := by
  refine wp_bind.mpr (serves_read halways _ ?_)
  rw [hjournal]
  refine wp_bind.mpr (serves_checkJournal halways hs (wp_bind.mpr ?_))
  refine serves_volume halways hserving (.inl hvolume) fun u hdir hlabel _ => wp_bind.mpr ?_
  refine serves_atomicJson halways (wp_bind.mpr (serves_atomicJson halways (wp_bind.mpr ?_)))
  have hfiles : Complete assets (before.withImage image) u.directory := by
    rw [hdir]
    exact hs.files
  refine serves_validateFiles halways hfiles rfl (wp_bind.mpr ?_)
  refine serves_start halways hserving hfiles rfl hlabel hs.ready fun v hv => ?_
  refine wp_write (halways _) (h _ ⟨rfl, ?_, ?_⟩)
  · exact congrArg Directory.manifest hv.directory
  · exact congrArg Directory.compose hv.directory

/-- A start, or an installation on an address that is allowed. -/
def Resuming : Run → Prop
  | .service .start => True
  | .install options => options.bindAddress = "127.0.0.1" ∨ options.bindAddress = "0.0.0.0"
  | _ => False

/-- Served replies; an error is only raised once the upgrade is complete. -/
def completing (candidate : Manifest) : Contract World Reply ClientError where
  replies := Serving
  raised := fun _ w => Completed w candidate

/-- A served run completes the upgrade, whether it then goes on or stops. -/
theorem serves_completes {run : Run} (hrun : Resuming run)
    (hjournal : w.directory.journal = some (journalJson before (before.withImage image)))
    (hs : Switching assets w before image) (hvolume : Labelled w.volumes before.id) :
    wp (completing (before.withImage image)) (program assets run)
      (fun _ t => Completed t (before.withImage image)) w := by
  let given : Given := { assets := assets, run := run, replies := Serving }
  have hrest : ∀ {p : Prog Report} {v : World}, Completed v (before.withImage image) →
      given.run.upgrades = false → wp (moving given v) p (fun _ _ => True) v →
      wp (completing (before.withImage image)) p
        (fun _ t => Completed t (before.withImage image)) v := by
    intro p v hcompleted hupgrades hp
    refine wp_weaken hp Relation.ReflTransGen.refl (fun _ hr => hr) (fun _ _ => trivial) ?_ ?_
    · exact fun _ t hmoves _ => hcompleted.of_moves hs.ready hupgrades hmoves
    · exact fun _ t hmoves _ => hcompleted.of_moves hs.ready hupgrades hmoves
  have hkept : ∀ {u}, Kept w u → wp (completing (before.withImage image))
      (recoverUpgrade assets true) (fun _ v => Completed v (before.withImage image)) u := by
    intro u hu
    refine serves_recoverUpgrade (fun _ => trivial) (fun _ hr => hr) ?_
      ⟨hs.other, ?_, ?_, ?_, hs.ready⟩ ?_ fun v hv => hv
    · rw [hu.directory, hjournal]
    · rw [hu.directory]
      exact hs.manifest
    · rw [hu.directory]
      exact hs.compose
    · rw [hu.directory]
      exact hs.files
    · rw [hu.volumes]
      exact hvolume
  cases run with
  | install options =>
      refine wp_bind.mpr (serves_raiseIf ?_ (wp_bind.mpr ?_))
      · rintro ⟨hlocal, hall⟩
        exact hrun.elim hlocal hall
      refine serves_preflight (fun _ => trivial) (fun _ hr => hr)
        fun _ _ _ engine u _ _ _ _ hu => ?_
      refine wp_seq (hkept hu) fun _ v hv => hrest hv rfl ?_
      exact wp_installRest rfl hrun Relation.ReflTransGen.refl hv.journal fun _ _ _ _ _ _ => trivial
  | service action =>
      cases action with
      | start =>
          refine wp_bind.mpr (serves_preflight (fun _ => trivial) (fun _ hr => hr) ?_)
          intro _ _ _ engine u _ _ _ _ hu
          refine wp_seq (hkept hu) fun _ v hv => hrest hv rfl ?_
          exact wp_serviceRest Relation.ReflTransGen.refl fun _ _ _ _ _ => trivial
      | stop => exact absurd hrun id
  | upgrade reference => exact absurd hrun id

end Serves

/-! ### Crash consistency -/

/-- `recover_upgrade` accepts only a journal that both files match, and both take the candidate. -/
def RecoversOnlyAccepted (assets : Assets) (w : World) : Prop :=
  w.directory.journal ≠ none → ∀ starting rs,
    ((∀ before candidate, ¬ Accepted w before candidate) →
      ((recoverUpgrade assets starting).exec rs w).state = w) ∧
    ∀ u, ((recoverUpgrade assets starting).exec rs w).outcome = .returned u →
      ∃ before candidate, Accepted w before candidate ∧
        Taken ((recoverUpgrade assets starting).exec rs w).state candidate

/-- Served runs complete the upgrade of the journal, while the volume is there. -/
def Completes (assets : Assets) (w : World) : Prop :=
  ∀ before candidate, w.directory.journal.bind journalOf = some (before, candidate) →
    Labelled w.volumes before.id → ∀ run, Resuming run → ∀ replies : ℕ → Reply,
      (∀ i, Serving (replies i)) → ∃ n, ∀ k, n ≤ k →
        Completed ((program assets run).exec ((List.range k).map replies) w).state candidate

theorem Orderly.completes {assets : Assets} {w : World} (h : Orderly assets w) :
    Completes assets w := by
  intro before candidate hjournal hvolume run hrun replies hreplies
  obtain ⟨data, hdata, hvalid⟩ := Option.bind_eq_some_iff.mp hjournal
  obtain ⟨b, image, rfl, hs⟩ := h.upgrading data hdata
  rw [journalOf_journalJson] at hvalid
  cases hvalid
  obtain ⟨n, hn⟩ := wp_ends (serves_completes hrun hdata hs hvolume) trivial hreplies
  refine ⟨n, fun k hk => ?_⟩
  rcases hn k hk with ⟨_, -, hcompleted⟩ | ⟨_, -, hcompleted⟩
  · exact hcompleted
  · exact hcompleted

theorem Orderly.of_after {assets : Assets} {w : World}
    (h : After assets (fun run v _ => ReadyUpgrade run v) {} w) :
    Orderly assets w ∧ StartedFirst w.log := by
  refine h.invariant (I := fun t => Orderly assets t ∧ StartedFirst t.log) ⟨⟨?_, ?_, ?_, ?_⟩, ?_⟩
    ?_ ?_
  · intro value hvalue
    cases hvalue
  · exact fun _ => ⟨rfl, rfl⟩
  · intro _ m file _ hfile
    cases hfile
  · intro data hdata
    cases hdata
  · trivial
  · rintro run t rs hready ⟨horderly, hlog⟩
    have hmoves : Moves { assets := assets, run := run } t
      ((program assets run).exec rs t).state := moves_exec _ (fun _ _ => trivial) t
    exact ⟨horderly.of_moves hready hmoves, hlog.of_moves hmoves⟩
  · rintro t u ⟨horderly, hlog⟩ ⟨volumes, rfl⟩
    exact ⟨horderly.of_files rfl rfl rfl fun _ _ hfiles => hfiles, hlog⟩

/-- While every upgrade is begun from the ready state: the files agree or a journal tells how they
differ, nothing else is recovered, a journal is removed only behind a start, and every served start
or installation completes the upgrade. -/
theorem upgrade_crash_consistent (assets : Assets) {w : World}
    (h : After assets (fun run v _ => ReadyUpgrade run v) {} w) :
    Consistent w.directory ∧ StartedFirst w.log ∧
      (∀ w', After assets Anything w w' → JournalKept w w') ∧
      (∀ v, RecoversOnlyAccepted assets v) ∧ Completes assets w := by
  obtain ⟨horderly, hlog⟩ := Orderly.of_after h
  refine ⟨horderly.consistent, hlog, fun w' h' => JournalKept.of_after h', ?_,
    horderly.completes⟩
  intro v hjournal starting rs
  exact ⟨fun hnone => (recoverUpgrade_rejects hjournal hnone starting rs).1,
    fun u hu => recoverUpgrade_takes hjournal hu⟩

/-- An upgrade that is killed between its two files. -/
theorem upgrade_crash_consistent_between_files :
    switchingWorld.directory.journal.bind journalOf = some (localManifest .ready,
        (localManifest .ready).withImage (localImage "new")) ∧
      Consistent switchingWorld.directory ∧ Completes localAssets switchingWorld := by
  have hready : ReadyUpgrade (.upgrade "new") installedWorld := by
    intro _ m hm
    rw [local_runs.1] at hm
    cases hm
    rfl
  have hinstalled : After localAssets (fun run v _ => ReadyUpgrade run v) {} installedWorld :=
    After.localRun .start _ _ fun hfalse => by cases hfalse
  have hswitching : After localAssets (fun run v _ => ReadyUpgrade run v) {} switchingWorld :=
    hinstalled.localRun _ 25 hready
  have h := upgrade_crash_consistent localAssets hswitching
  exact ⟨local_runs.2.1, h.1, h.2.2.2.2⟩

/-- No start completes the upgrade of an installation that was not ready. -/
theorem unfinished_upgrade_blocks : After localAssets Anything {} blockedWorld ∧
    ¬ Completes localAssets blockedWorld := by
  have hunfinished : After localAssets Anything {} unfinishedWorld :=
    After.localRun .start _ _ trivial
  refine ⟨hunfinished.localRun _ _ trivial, fun hcompletes => ?_⟩
  obtain ⟨-, -, -, hjournal, hvolume, hraised, hkept⟩ := local_runs
  obtain ⟨n, hn⟩ := hcompletes _ _ hjournal hvolume (.service .start) trivial
    (fun _ => localReply) fun _ => serving_localReply
  have hcompleted := (hn (max n 100) (le_max_left n 100)).journal
  rw [localWorld_eq, localWorld_of_le (le_max_right n 100) hraised] at hcompleted
  rw [hcompleted] at hkept
  cases hkept

end Gjallar.Bootstrap
