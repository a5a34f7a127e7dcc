import Gjallar.InstallData

/-!
# Resuming an installation

An installation that was killed is run again with the same options. The directories from which it
cannot go on are those with a temporary file in front of the first manifest, with a part of a
script, or with an init script that `postgres` may not read.
-/
namespace Gjallar.Bootstrap

open Gjallar.Text Gjallar.Data Gjallar.CrashPrograms Gjallar.Installation

/-! ### Interrupted installations -/

/-- Every inspection of an image that succeeds finds the same one. -/
def Stable (resolve : Str → ImageId) (r : Reply) : Prop :=
  ∀ reference o d engine id, r.docker (.imageInspect reference) = .success o →
    o.json = some (.dict d) → imageIdOf engine d = some id → id = resolve reference

/-- The worlds after any number of installations with these options, each of which may be killed
or fail. -/
abbrev Interrupted (assets : Assets) (options : Options) (resolve : Str → ImageId) :
    World → Prop :=
  Reached (program assets)
    (fun run _ rs => run = .install options ∧ ∀ r ∈ rs, Stable resolve r) (fun _ _ => False) {}

/-- Nothing but temporary files has been written. -/
structure Blank (w : World) : Prop where
  volumes : w.volumes = []
  directory : ∃ pending secretPending,
    w.directory = { pending := pending, secretPending := secretPending }

/-- All files of a manifest are there. -/
structure Filed (assets : Assets) (d : Directory) (m : Manifest) : Prop where
  complete : Complete assets m d
  compose : d.compose = some (composeConfig m)

/-- The volume is there, or it may still be created. -/
def VolumeFits (w : World) (m : Manifest) : Prop :=
  Labelled w.volumes m.id ∨ m.state = .prepared ∧ w.volumes.lookup m.volume = none

/-- An installation with the options has got as far as its manifest says. -/
structure Halfway (assets : Assets) (options : Options) (resolve : Str → ImageId) (w : World)
    (m : Manifest) : Prop where
  manifest : w.directory.manifest = some m.toJson
  journal : w.directory.journal = none
  port : m.port.number = options.port
  bindAddress : m.bindAddress = options.bindAddress
  image : m.image = resolve options.reference
  tokens : ∀ name value, name ≠ .databaseUrl → w.directory.secrets name = some value →
    isToken value = true
  url : UrlAgrees w.directory
  preparing : m.state = .preparing → w.volumes.lookup m.volume = none ∧
    ∀ file, w.directory.compose = some file → file = composeConfig m
  files : m.state ≠ .preparing → Filed assets w.directory m
  volume : m.state ≠ .preparing → VolumeFits w m
  readable : m.state = .ready → w.directory.readable .initPostgres = true

/-- What an interrupted installation leaves. -/
def Resumable (assets : Assets) (options : Options) (resolve : Str → ImageId) (w : World) : Prop :=
  Blank w ∨ ∃ m, Halfway assets options resolve w m

section Moving

variable {given : Given} {options : Options} {resolve : Str → ImageId} {w w' : World}
  {m : Manifest}

theorem Halfway.loaded {assets : Assets} (h : Halfway assets options resolve w m) :
    w.directory.loaded = some m := by
  unfold Directory.loaded
  rw [h.manifest]
  exact validateManifest_toJson m

theorem Blank.not_loaded (h : Blank w) : w.directory.loaded = none := by
  obtain ⟨pending, secretPending, hdirectory⟩ := h.directory
  rw [hdirectory]
  rfl

/-- The first manifest of an installation. -/
theorem Blank.halfway {assets : Assets} (h : Blank w) (hport : m.port.number = options.port)
    (hbind : m.bindAddress = options.bindAddress) (himage : m.image = resolve options.reference)
    (hstate : m.state = .preparing) (pending : ℕ) :
    Halfway assets options resolve { w with directory :=
      { w.directory with manifest := some m.toJson, pending := pending } } m := by
  obtain ⟨p, secretPending, hdirectory⟩ := h.directory
  rw [hdirectory]
  refine ⟨rfl, rfl, hport, hbind, himage, ?_, ?_, fun _ => ⟨?_, ?_⟩, ?_, ?_, ?_⟩
  · intro _ _ _ hvalue
    cases hvalue
  · intro _ hvalue
    cases hvalue
  · change w.volumes.lookup m.volume = none
    rw [h.volumes]
    rfl
  · intro _ hfile
    cases hfile
  · exact fun hne => absurd hstate hne
  · exact fun hne => absurd hstate hne
  · intro hready
    rw [hstate] at hready
    cases hready

variable (hrun : given.run = .install options) (hreplies : ∀ r, given.replies r → Stable resolve r)

include hrun hreplies

theorem Blank.of_move (h : Blank w) (hmove : Move given w w') :
    Resumable given.assets options resolve w' := by
  have hnone := h.not_loaded
  have hblank : ∀ {v : World}, v.volumes = w.volumes → v.directory = w.directory →
      Resumable given.assets options resolve v := by
    intro v hvolumes hdirectory
    refine .inl ⟨hvolumes.trans h.volumes, ?_⟩
    rw [hdirectory]
    exact h.directory
  cases hmove with
  | stay => exact hblank rfl rfl
  | ran command succeeded hguard =>
      cases command with
      | volumeCreate label name =>
          obtain ⟨m, hm, -⟩ := hguard
          rw [hnone] at hm
          cases hm
      | _ => exact hblank rfl rfl
  | temporary pending secretPending =>
      obtain ⟨_, _, hdirectory⟩ := h.directory
      refine .inl ⟨h.volumes, pending, secretPending, ?_⟩
      rw [hdirectory]
  | aside candidate backups pending hsome =>
      rw [hnone] at hsome
      cases hsome
  | create m options' pending hchosen _ hstate =>
      have hsame := hchosen.run
      rw [hrun] at hsame
      cases hsame
      obtain ⟨r, o, d, engine, hr, ho, hd, hid⟩ := hchosen.image
      have himage : m.image = resolve options.reference := hreplies r hr _ _ _ _ _ ho hd hid
      exact .inr ⟨m, h.halfway hchosen.port hchosen.bindAddress himage hstate pending⟩
  | secretsDir m hp | link m _ _ hp | script m _ _ _ hp | mode m _ hp | compose m _ hp =>
      have hm := hp.loaded
      rw [hnone] at hm
      cases hm
  | advance m _ _ hm | journal m _ _ hm =>
      rw [hnone] at hm
      cases hm
  | moveCompose _ _ _ hu | moveManifest _ _ _ hu | removeJournal _ _ hu =>
      obtain ⟨m, hm, -⟩ := hu.current
      rw [hnone] at hm
      cases hm

omit hrun hreplies in
/-- A move that changes neither files nor volumes. -/
theorem Halfway.of_kept {assets : Assets} (h : Halfway assets options resolve w m)
    (hvolumes : w'.volumes = w.volumes)
    (hmanifest : w'.directory.manifest = w.directory.manifest)
    (hjournal : w'.directory.journal = w.directory.journal)
    (hcompose : w'.directory.compose = w.directory.compose)
    (hdir : w'.directory.secretsDir = w.directory.secretsDir)
    (hsecrets : w'.directory.secrets = w.directory.secrets)
    (hscripts : w'.directory.scripts = w.directory.scripts)
    (hreadable : w'.directory.readable = w.directory.readable) :
    Halfway assets options resolve w' m := by
  refine ⟨hmanifest.trans h.manifest, hjournal.trans h.journal, h.port, h.bindAddress, h.image,
    ?_, ?_, ?_, ?_, ?_, ?_⟩
  · rw [hsecrets]
    exact h.tokens
  · unfold UrlAgrees
    rw [hsecrets]
    exact h.url
  · rw [hvolumes, hcompose]
    exact h.preparing
  · intro hne
    obtain ⟨hcomplete, hfile⟩ := h.files hne
    refine ⟨?_, hcompose.trans hfile⟩
    unfold Complete
    rw [hdir, hsecrets, hscripts]
    exact hcomplete
  · unfold VolumeFits
    rw [hvolumes]
    exact h.volume
  · rw [hreadable]
    exact h.readable

omit hrun hreplies in
theorem Halfway.kept {assets : Assets} (h : Halfway assets options resolve w m)
    (hkept : Kept w w') : Halfway assets options resolve w' m := by
  refine h.of_kept hkept.volumes ?_ ?_ ?_ ?_ ?_ ?_ ?_ <;> rw [hkept.directory]

omit hrun hreplies in
/-- A move while the files are being prepared. -/
theorem Halfway.of_preparing {assets : Assets} (h : Halfway assets options resolve w m)
    (hstate : m.state = .preparing) (hvolumes : w'.volumes = w.volumes)
    (hmanifest : w'.directory.manifest = w.directory.manifest)
    (hjournal : w'.directory.journal = w.directory.journal)
    (hcompose : ∀ file, w'.directory.compose = some file → file = composeConfig m)
    (htokens : ∀ name value, name ≠ .databaseUrl → w'.directory.secrets name = some value →
      isToken value = true) (hurl : UrlAgrees w'.directory) :
    Halfway assets options resolve w' m := by
  refine ⟨hmanifest.trans h.manifest, hjournal.trans h.journal, h.port, h.bindAddress, h.image,
    htokens, hurl, fun _ => ⟨?_, hcompose⟩, fun hne => absurd hstate hne,
    fun hne => absurd hstate hne, fun hready => ?_⟩
  · rw [hvolumes]
    exact (h.preparing hstate).1
  · rw [hstate] at hready
    cases hready

omit hrun hreplies in
/-- The creation of the volume. -/
theorem VolumeFits.create (h : VolumeFits w m) :
    Labelled (volumesAfter (.volumeCreate m.id.text m.volume) w.volumes) m.id := by
  unfold Labelled volumesAfter
  rcases h with hlabel | ⟨-, hnone⟩
  · have hsome : (w.volumes.lookup m.volume).isSome = true := by
      rw [Manifest.volume, hlabel]
      rfl
    simp only [hsome, if_true]
    exact hlabel
  · have hnone' : w.volumes.lookup (volumeName m.id.uid) = none := hnone
    simp [hnone', Manifest.volume]

omit hreplies in
theorem Halfway.of_move (h : Halfway given.assets options resolve w m)
    (hmove : Move given w w') : ∃ m', Halfway given.assets options resolve w' m' := by
  have hagrees := h.url.of_move hmove
  cases hmove with
  | stay | temporary | aside => exact ⟨m, h.of_kept rfl rfl rfl rfl rfl rfl rfl rfl⟩
  | ran command succeeded hguard =>
      cases command with
      | volumeCreate label name =>
          obtain ⟨n, hn, hstate, -, rfl, rfl⟩ := hguard
          rw [h.loaded] at hn
          cases hn
          have hne : m.state ≠ .preparing := by
            rw [hstate]
            decide
          exact ⟨m, h.manifest, h.journal, h.port, h.bindAddress, h.image, h.tokens, h.url,
            fun hpreparing => absurd hpreparing hne, h.files, fun _ => .inl (h.volume hne).create,
            h.readable⟩
      | _ => exact ⟨m, h.of_kept rfl rfl rfl rfl rfl rfl rfl rfl⟩
  | create _ _ _ _ hnone =>
      rw [h.manifest] at hnone
      cases hnone
  | secretsDir n hp | script n _ _ _ hp | mode n _ hp =>
      have hn := hp.loaded
      rw [h.loaded] at hn
      cases hn
      exact ⟨m, h.of_preparing hp.state rfl rfl rfl (h.preparing hp.state).2 h.tokens hagrees⟩
  | link n name value hp _ htoken =>
      have hn := hp.loaded
      rw [h.loaded] at hn
      cases hn
      refine ⟨m, h.of_preparing hp.state rfl rfl rfl (h.preparing hp.state).2 ?_ hagrees⟩
      intro other text hother htext
      by_cases hname : other = name
      · subst hname
        have hself := Function.update_self other (some value) w.directory.secrets
        cases hself.symm.trans htext
        exact htoken hother
      · exact h.tokens other text hother ((Function.update_of_ne hname _ _).symm.trans htext)
  | compose n _ hp =>
      have hn := hp.loaded
      rw [h.loaded] at hn
      cases hn
      refine ⟨m, h.of_preparing hp.state rfl rfl rfl (fun file hfile => ?_) h.tokens hagrees⟩
      exact (Option.some.inj hfile).symm
  | advance n state pending hn _ hadvance =>
      rw [h.loaded] at hn
      cases hn
      refine ⟨m.withState state, rfl, h.journal, h.port, h.bindAddress, h.image, h.tokens, h.url,
        ?_, fun _ => ?_, fun _ => ?_, fun hready => ?_⟩
      · intro hpreparing
        cases hadvance <;> cases hpreparing
      · cases hadvance with
        | prepared hstate hfiles hcompose => exact ⟨hfiles, hcompose⟩
        | storageReady hstate | ready hstate =>
            have hfiled := h.files (by rw [hstate]; decide)
            exact ⟨hfiled.complete, hfiled.compose⟩
      · cases hadvance with
        | prepared hstate => exact .inr ⟨rfl, (h.preparing hstate).1⟩
        | storageReady hstate hvolume => exact .inl hvolume
        | ready hstate =>
            refine .inl ((h.volume (by rw [hstate]; decide)).resolve_right fun hprepared => ?_)
            rw [hstate] at hprepared
            cases hprepared.1
      · cases hadvance with
        | prepared | storageReady => cases hready
        | ready _ hreadable => exact hreadable
  | journal _ _ _ _ _ _ _ hupgrades =>
      rw [hrun] at hupgrades
      cases hupgrades
  | moveCompose _ _ _ hu | moveManifest _ _ _ hu | removeJournal _ _ hu =>
      have hjournal := hu.journal
      rw [h.journal] at hjournal
      cases hjournal

theorem Resumable.of_moves (h : Resumable given.assets options resolve w)
    (hmoves : Moves given w w') : Resumable given.assets options resolve w' := by
  induction hmoves with
  | refl => exact h
  | tail _ hmove ih =>
      rcases ih with hblank | ⟨m, hm⟩
      · exact hblank.of_move hrun hreplies hmove
      · exact .inr (hm.of_move hrun hmove)

end Moving

theorem Resumable.of_interrupted {assets : Assets} {options : Options}
    {resolve : Str → ImageId} {w : World} (h : Interrupted assets options resolve w) :
    Resumable assets options resolve w := by
  refine h.invariant (.inl ⟨rfl, 0, 0, rfl⟩) ?_ fun _ _ _ hfalse => absurd hfalse id
  rintro run t rs ⟨rfl, hstable⟩ hresumable
  have hmoves : Moves { assets := assets, run := .install options, replies := Stable resolve } t
    ((program assets (.install options)).exec rs t).state := moves_exec _ hstable t
  exact hresumable.of_moves rfl (fun _ hr => hr) hmoves

/-! ### Running it again -/

/-- Served replies of an engine that finds these images, with administrator input. -/
structure Working (engine : Str) (resolve : Str → ImageId) (r : Reply) : Prop extends
    Serving r where
  architecture : ∀ o info e, r.docker .info = .success o → o.json = some info →
    engineArchitecture info = some e → e = engine
  inspect : ∀ reference o, r.docker (.imageInspect reference) = .success o →
    ∃ d, o.json = some (.dict d) ∧ imageIdOf engine d = some (resolve reference)
  administrator : ∃ payload, r.administrator = some payload

/-- Options that `install` accepts. -/
structure ValidOptions (options : Options) : Prop where
  bindAddress : options.bindAddress = "127.0.0.1" ∨ options.bindAddress = "0.0.0.0"
  port : 1024 ≤ options.port ∧ options.port ≤ 65535
  reference : isReference options.reference = true
  administrator : options.administrator = true

section Works

variable {assets : Assets} {c : Contract World Reply ClientError} {engine : Str}
  {resolve : Str → ImageId} {options : Options} {w : World} {m : Manifest}
  (halways : ∀ w, c.always w) (hworking : ∀ r, c.replies r → Working engine resolve r)

include halways hworking

omit halways in
theorem works_serving : ∀ r, c.replies r → Serving r := fun r hr => (hworking r hr).toServing

theorem works_image {reference : Str} {Q : ImageId → World → Prop}
    (href : isReference reference = true) (h : ∀ w', Kept w w' → Q (resolve reference) w') :
    wp c (image engine reference) Q w := by
  have hserving := works_serving hworking
  refine wp_bind.mpr (serves_raiseIf (by rw [href]; decide) (wp_bind.mpr ?_))
  refine serves_command halways hserving (fun _ => rfl) rfl fun r o u hr ho hu => wp_bind.mpr ?_
  obtain ⟨d, hjson, hid⟩ := (hworking r hr).inspect reference o ho
  refine serves_orRaise hjson (wp_bind.mpr (serves_orRaise rfl (wp_bind.mpr ?_)))
  refine serves_orRaise hid (wp_bind.mpr ?_)
  exact serves_command halways hserving (fun _ => rfl) rfl fun _ _ v _ _ hv => h v (hu.trans hv)

theorem works_pullImage {reference : Str} {Q : ImageId → World → Prop}
    (href : isReference reference = true) (h : ∀ w', Kept w w' → Q (resolve reference) w') :
    wp c (pullImage engine reference) Q w := by
  refine wp_bind.mpr (serves_raiseIf (by rw [href]; decide) (wp_bind.mpr ?_))
  refine serves_command halways (works_serving hworking) (fun _ => rfl) rfl fun _ _ u _ _ hu => ?_
  exact works_image halways hworking href fun v hv => h v (hu.trans hv)

theorem works_existingManifest {Q : Manifest → World → Prop} (hoptions : ValidOptions options)
    (hm : Halfway assets options resolve w m) (h : ∀ w', Kept w w' → Q m w') :
    wp c (existingManifest engine options) Q w := by
  refine wp_bind.mpr (serves_load halways hm.loaded (wp_bind.mpr ?_))
  have hrest : ∀ u, Kept w u → wp c (do
      .raiseIf (m.port.number ≠ options.port) .installationExists
      .raiseIf (m.bindAddress ≠ options.bindAddress) .installationExists
      return m) Q u := fun u hu =>
    wp_bind.mpr (serves_raiseIf (not_not.mpr hm.port) (wp_bind.mpr
      (serves_raiseIf (not_not.mpr hm.bindAddress) (h u hu))))
  have hvalid := hoptions.reference
  have himage := hm.image
  unfold Options.reference at hvalid himage
  unfold checkImage
  cases hreference : options.image with
  | none => exact hrest w (Kept.refl w)
  | some reference =>
      rw [hreference] at hvalid himage
      dsimp only at hvalid himage ⊢
      split_ifs at hvalid himage ⊢
      · exact hrest w (Kept.refl w)
      · refine wp_bind.mpr (works_image halways hworking hvalid fun u hu => ?_)
        exact serves_raiseIf (not_not.mpr himage.symm) (hrest u hu)

theorem works_newManifest {Q : Manifest → World → Prop} (hoptions : ValidOptions options)
    (hblank : Blank w) (hpending : w.directory.pending = 0)
    (h : ∀ m w', (∀ assets, Halfway assets options resolve w' m) → m.state = .preparing →
      w'.directory.scripts = w.directory.scripts →
      w'.directory.readable = w.directory.readable → Q m w') :
    wp c (newManifest engine options) Q w := by
  have hserving := works_serving hworking
  have hempty : w.directory.occupied = false := by
    obtain ⟨pending, secretPending, hdirectory⟩ := hblank.directory
    rw [hdirectory] at hpending ⊢
    subst hpending
    rfl
  refine wp_bind.mpr (serves_read halways _ (wp_bind.mpr (serves_raiseIf ?_ (wp_bind.mpr ?_))))
  · rw [hempty]
    decide
  let port : Port := ⟨options.port, hoptions.port⟩
  refine serves_checkPort halways hserving port (wp_bind.mpr ?_)
  refine wp_receive (halways w) fun r _ => wp_bind.mpr ?_
  refine works_image halways hworking hoptions.reference fun u hu => wp_bind.mpr ?_
  refine works_pullImage halways hworking (by decide) fun v hv => wp_bind.mpr ?_
  refine serves_hasVolume halways hserving fun x hx => wp_bind.mpr ?_
  have hkept : Kept w x := (hu.trans hv).trans hx
  have hblank' : Blank x := by
    refine ⟨hkept.volumes.trans hblank.volumes, ?_⟩
    rw [hkept.directory]
    exact hblank.directory
  refine serves_raiseIf ?_ (wp_bind.mpr (serves_atomicJson halways (h _ _ ?_ rfl ?_ ?_)))
  · rw [(hu.trans hv).volumes, hblank.volumes]
    exact Bool.false_ne_true
  · exact fun _ => hblank'.halfway rfl (bindAddress_of_options hoptions.bindAddress rfl) rfl rfl _
  · change x.directory.scripts = w.directory.scripts
    rw [hkept.directory]
  · change x.directory.readable = w.directory.readable
    rw [hkept.directory]

/-! ### Files -/

omit hworking in
/-- A secret is the one that was there, or the new value. -/
theorem works_secret {name : Secret} {value : Str} {Q : Str → World → Prop}
    (h : ∀ text secrets, secrets name = some text →
      (w.directory.secrets name = some text ∨ w.directory.secrets name = none ∧ text = value) →
      (∀ other, other ≠ name → secrets other = w.directory.secrets other) →
      Q text { w with directory := { w.directory with secrets := secrets } }) :
    wp c (secret name value) Q w := by
  refine wp_bind.mpr (serves_read halways _ ?_)
  cases hexisting : w.directory.secrets name with
  | some text => exact h text w.directory.secrets hexisting (.inl hexisting) fun _ _ => rfl
  | none =>
      refine wp_bind.mpr (serves_change halways (wp_bind.mpr (serves_change halways ?_)))
      refine wp_bind.mpr (serves_change halways ?_)
      exact h value (Function.update w.directory.secrets name (some value))
        (Function.update_self _ _ _) (.inr ⟨hexisting, rfl⟩)
        fun other hne => Function.update_of_ne hne _ _

omit hworking in
/-- A random secret has the form of a token. -/
theorem works_token {name : Secret} (hname : name ≠ .databaseUrl) (token : Token)
    (htokens : ∀ name value, name ≠ .databaseUrl → w.directory.secrets name = some value →
      isToken value = true) {Q : Str → World → Prop}
    (h : ∀ text secrets, secrets name = some text → isToken text = true →
      (∀ old, w.directory.secrets name = some old → text = old) →
      (∀ other, other ≠ name → secrets other = w.directory.secrets other) →
      (∀ other value, other ≠ .databaseUrl → secrets other = some value →
        isToken value = true) →
      Q text { w with directory := { w.directory with secrets := secrets } }) :
    wp c (secret name token.text) Q w := by
  refine works_secret halways fun text secrets htext hcase hother => ?_
  have htoken : isToken text = true := by
    rcases hcase with hexisting | ⟨-, rfl⟩
    · exact htokens name text hname hexisting
    · exact token.isHex
  have hold : ∀ old, w.directory.secrets name = some old → text = old := by
    intro old hold
    rcases hcase with hexisting | ⟨hnone, -⟩
    · rw [hexisting] at hold
      exact Option.some.inj hold
    · rw [hnone] at hold
      cases hold
  refine h text secrets htext htoken hold hother fun other value hne hvalue => ?_
  by_cases hsame : other = name
  · subst hsame
    rw [htext] at hvalue
    cases hvalue
    exact htoken
  · rw [hother other hsame] at hvalue
    exact htokens other value hne hvalue

omit hworking in
theorem works_credentialKey {Q : List Str → World → Prop}
    (htokens : ∀ name value, name ≠ .databaseUrl → w.directory.secrets name = some value →
      isToken value = true)
    (h : ∀ keys secrets, keys.all isToken = true →
      (2 ≤ m.version.number → filled (secrets .credentialKey) = true) →
      (∀ other, other ≠ .credentialKey → secrets other = w.directory.secrets other) →
      Q keys { w with directory := { w.directory with secrets := secrets } }) :
    wp c (credentialKey m) Q w := by
  unfold credentialKey
  split_ifs with hversion
  · refine wp_bind.mpr (wp_receive (halways w) fun r _ => wp_bind.mpr ?_)
    refine works_token halways (by decide) r.token htokens ?_
    intro key secrets hkey htoken _ hother _
    refine h [key] secrets ?_ (fun _ => ?_) hother
    · rw [List.all_cons, htoken]
      rfl
    · rw [hkey]
      exact filled_of_isToken htoken
  · exact h [] w.directory.secrets rfl (fun hge => absurd hge hversion) fun _ _ => rfl

omit hworking in
theorem works_prepareSecrets {Q : Unit → World → Prop}
    (htokens : ∀ name value, name ≠ .databaseUrl → w.directory.secrets name = some value →
      isToken value = true) (hurl : UrlAgrees w.directory)
    (h : ∀ secrets, (∀ name ∈ secretNames m, filled (secrets name) = true) →
      Q () { w with directory := { w.directory with secrets := secrets } }) :
    wp c (prepareSecrets m) Q w := by
  refine wp_bind.mpr (wp_receive (halways w) fun r₁ _ => wp_bind.mpr ?_)
  refine works_token halways (by decide) r₁.token htokens ?_
  intro postgres s₁ hpostgres hpostgresToken _ hother₁ htokens₁
  refine wp_bind.mpr (wp_receive (halways _) fun r₂ _ => wp_bind.mpr ?_)
  refine works_token halways (by decide) r₂.token htokens₁ ?_
  intro app s₂ happ happToken happOld hother₂ htokens₂
  refine wp_bind.mpr (works_credentialKey halways htokens₂ fun keys s₃ hkeys hkey hother₃ => ?_)
  refine wp_bind.mpr (serves_raiseIf ?_ (wp_bind.mpr (works_secret halways ?_)))
  · rw [List.all_cons, List.all_cons, hpostgresToken, happToken, hkeys]
    decide
  intro url s₄ hurlText hcase hother₄
  have happ₄ : s₄ .appPassword = some app :=
    (hother₄ _ (by decide)).trans ((hother₃ _ (by decide)).trans happ)
  have hagrees : url = databaseUrl app := by
    rcases hcase with hexisting | ⟨-, hnew⟩
    · -- the URL was there before, and with it the password that it names
      have h₁ : s₁ .databaseUrl = w.directory.secrets .databaseUrl := hother₁ _ (by decide)
      have h₂ : s₂ .databaseUrl = s₁ .databaseUrl := hother₂ _ (by decide)
      have h₃ : s₃ .databaseUrl = s₂ .databaseUrl := hother₃ _ (by decide)
      have hbefore : w.directory.secrets .databaseUrl = some url := by
        rw [← h₁, ← h₂, ← h₃]
        exact hexisting
      obtain ⟨app', happ', rfl⟩ := hurl url hbefore
      rw [happOld app' ((hother₁ _ (by decide)).trans happ')]
    · exact hnew
  refine serves_raiseIf (not_not.mpr hagrees) (h s₄ fun name hname => ?_)
  have hpostgres₄ : s₄ .postgresPassword = some postgres :=
    (hother₄ _ (by decide)).trans ((hother₃ _ (by decide)).trans
      ((hother₂ _ (by decide)).trans hpostgres))
  unfold secretNames at hname
  rcases List.mem_append.mp hname with hname | hname
  · simp only [List.mem_cons, List.not_mem_nil, or_false] at hname
    rcases hname with rfl | rfl | rfl
    · rw [hpostgres₄]
      exact filled_of_isToken hpostgresToken
    · rw [happ₄]
      exact filled_of_isToken happToken
    · rw [hurlText, hagrees]
      rfl
  · split_ifs at hname with hversion
    · rw [List.mem_singleton.mp hname, hother₄ _ (by decide)]
      exact hkey hversion
    · cases hname

omit hworking in
theorem works_prepareScript {name : Script} {Q : Unit → World → Prop}
    (hundamaged : Undamaged assets w.directory)
    (h : ∀ scripts readable, scripts name = some (assets name) →
      (∀ other, other ≠ name → scripts other = w.directory.scripts other) →
      ((w.directory.scripts name ≠ none → w.directory.readable name = true) →
        readable name = true) →
      (∀ other, other ≠ name → readable other = w.directory.readable other) →
      Q () { w with directory :=
        { w.directory with scripts := scripts, readable := readable } }) :
    wp c (prepareScript assets name) Q w := by
  refine wp_bind.mpr (serves_read halways _ ?_)
  cases hexisting : w.directory.scripts name with
  | some text =>
      have hsame := hundamaged name text hexisting
      refine serves_raiseIf (not_not.mpr hsame) (h w.directory.scripts w.directory.readable ?_
        (fun _ _ => rfl) (fun hreadable => hreadable ?_) fun _ _ => rfl)
      · rw [hexisting, hsame]
      · rw [hexisting]
        exact Option.some_ne_none text
  | none =>
      refine wp_bind.mpr (wp_receive (halways w) fun u _ => wp_bind.mpr (serves_change halways ?_))
      refine wp_bind.mpr (wp_receive (halways _) fun r _ => wp_bind.mpr (serves_change halways ?_))
      refine wp_bind.mpr (serves_change halways (serves_change halways ?_))
      simp only [Function.update_idem]
      exact h _ _ (Function.update_self _ _ _) (fun other hne => Function.update_of_ne hne _ _)
        (fun _ => Function.update_self _ _ _) fun other hne => Function.update_of_ne hne _ _

omit hworking in
theorem works_prepareFiles {Q : Unit → World → Prop} (hm : Halfway assets options resolve w m)
    (hstate : m.state = .preparing) (hundamaged : Undamaged assets w.directory)
    (hrunnable : Runnable w.directory)
    (h : ∀ w', w'.volumes = w.volumes → Filed assets w'.directory m →
      w'.directory.readable .initPostgres = true → Q () w') :
    wp c (prepareFiles assets m) Q w := by
  refine wp_bind.mpr (serves_change halways (wp_bind.mpr ?_))
  refine works_prepareSecrets halways hm.tokens hm.url fun secrets hsecrets => wp_bind.mpr ?_
  refine works_prepareScript halways hundamaged fun s₁ r₁ hinit hother₁ hmode _ => wp_bind.mpr ?_
  have hundamaged₁ : ∀ name text, s₁ name = some text → text = assets name := by
    intro name text ht
    cases name with
    | initPostgres =>
        rw [hinit] at ht
        exact (Option.some.inj ht).symm
    | postgresEntrypoint =>
        rw [hother₁ _ (by decide)] at ht
        exact hundamaged _ text ht
  refine works_prepareScript halways hundamaged₁ fun s₂ r₂ hentry hother₂ _ hmode₂ => wp_bind.mpr ?_
  refine serves_read halways _ (wp_bind.mpr (serves_raiseIf ?_ (wp_bind.mpr ?_)))
  · cases hfile : w.directory.compose with
    | none => simp
    | some file =>
        rw [(hm.preparing hstate).2 file hfile]
        simp [holdsConfig]
  refine serves_atomicJson halways (serves_atomicJson halways
    (h _ rfl ⟨⟨rfl, hsecrets, fun script => ?_⟩, rfl⟩ ?_))
  · cases script with
    | initPostgres => exact (hother₂ _ (by decide)).trans hinit
    | postgresEntrypoint => exact hentry
  · exact (hmode₂ .initPostgres (by decide)).trans (hmode hrunnable)

theorem works_prepareIfNeeded {Q : Manifest → World → Prop}
    (hm : Halfway assets options resolve w m) (hready : m.state ≠ .ready)
    (hundamaged : Undamaged assets w.directory) (hrunnable : Runnable w.directory)
    (h : ∀ m' w', m'.state = .prepared ∨ m'.state = .storageReady →
      Filed assets w'.directory m' → VolumeFits w' m' →
      w'.directory.readable .initPostgres = true → Q m' w') :
    wp c (prepareIfNeeded assets m) Q w := by
  unfold prepareIfNeeded
  split_ifs with hstate
  · obtain ⟨hnone, -⟩ := hm.preparing hstate
    refine wp_bind.mpr (serves_hasVolume halways (works_serving hworking) fun u hu => ?_)
    refine wp_bind.mpr (serves_raiseIf ?_ (wp_bind.mpr ?_))
    · rw [hnone]
      exact Bool.false_ne_true
    have hm' := hm.kept hu
    rw [← hu.directory] at hundamaged hrunnable
    refine works_prepareFiles halways hm' hstate hundamaged hrunnable ?_
    intro v hvolumes hfiled hreadable
    refine h (m.withState .prepared) v (.inl rfl) ⟨hfiled.complete, hfiled.compose⟩
      (.inr ⟨rfl, ?_⟩) hreadable
    rw [hvolumes, hu.volumes]
    exact hnone
  · have hinit := (hm.files hstate).complete.2.2 .initPostgres
    refine h m w ?_ (hm.files hstate) (hm.volume hstate) (hrunnable ?_)
    rotate_left
    · rw [hinit]
      exact Option.some_ne_none _
    cases hcase : m.state with
    | preparing => exact absurd hcase hstate
    | prepared => exact .inl rfl
    | storageReady => exact .inr rfl
    | ready => exact absurd hcase hready

/-! ### The rest of the installation -/

theorem works_setUpAdministrator {state : Str} {Q : Unit → World → Prop}
    (h : ∀ w', Kept w w' → Q () w') : wp c (setUpAdministrator m true state) Q w := by
  unfold setUpAdministrator
  split_ifs
  · exact h w (Kept.refl w)
  · refine wp_bind.mpr (serves_raiseIf (by decide) (wp_bind.mpr ?_))
    refine wp_receive (halways w) fun r hr => wp_bind.mpr ?_
    obtain ⟨payload, hpayload⟩ := (hworking r hr).administrator
    refine serves_orRaise hpayload (wp_bind.mpr ?_)
    exact serves_maintenance halways (works_serving hworking) fun _ u hu => h u hu

omit hworking in
theorem works_persistStorage {Q : Manifest → World → Prop}
    (hstate : m.state = .prepared ∨ m.state = .storageReady)
    (h : ∀ m' w', m'.state = .storageReady → m'.id = m.id → w'.volumes = w.volumes →
      w'.directory.readable = w.directory.readable →
      (∀ assets, Filed assets w.directory m → Filed assets w'.directory m') → Q m' w') :
    wp c (persistStorage m) Q w := by
  unfold persistStorage
  split_ifs with hprepared
  · exact wp_bind.mpr (serves_atomicJson halways (h _ _ rfl rfl rfl rfl fun _ hfiled =>
      ⟨hfiled.complete, hfiled.compose⟩))
  · exact h m w (hstate.resolve_left hprepared) rfl rfl rfl fun _ hfiled => hfiled

theorem works_setUpRoles {Q : Unit → World → Prop}
    (hreadable : w.directory.readable .initPostgres = true) (h : ∀ w', Kept w w' → Q () w') :
    wp c (setUpRoles m) Q w := by
  unfold setUpRoles
  split_ifs
  · refine wp_bind.mpr (serves_compose halways (works_serving hworking) (.inr hreadable)
      fun _ _ u _ _ hu => ?_)
    exact h u hu
  · exact h w (Kept.refl w)

/-- An installation whose files are there is completed. -/
theorem works_completeInstall {Q : Report → World → Prop}
    (hoffered : options.administrator = true)
    (hstate : m.state = .prepared ∨ m.state = .storageReady)
    (hfiled : Filed assets w.directory m) (hvolume : VolumeFits w m)
    (hreadable : w.directory.readable .initPostgres = true)
    (h : ∀ report w' m', w'.directory.loaded = some m' → m'.state = .ready → Q report w') :
    wp c (completeInstall assets options m) Q w := by
  have hserving := works_serving hworking
  refine wp_bind.mpr (serves_validateFiles halways hfiled.complete hfiled.compose ?_)
  refine wp_bind.mpr (serves_volume halways hserving ?_ fun u hdir hlabel _ => wp_bind.mpr ?_)
  · rcases hvolume with hlabel | ⟨hprepared, hnone⟩
    · exact .inl hlabel
    · exact .inr ⟨decide_eq_true hprepared, hnone⟩
  refine works_persistStorage halways hstate fun n x hn hid hvolumes hmode hfiles => wp_bind.mpr ?_
  have hfiled' : Filed assets x.directory n := by
    refine hfiles assets ?_
    rw [hdir]
    exact hfiled
  have hlabel' : Labelled x.volumes n.id := by
    rw [hvolumes, hid]
    exact hlabel
  refine serves_compose halways hserving (.inl (upArgs_ne_roleArgs _)) fun _ _ x₁ _ _ hx₁ =>
    wp_bind.mpr ?_
  have hreadable' : x₁.directory.readable .initPostgres = true := by
    rw [hx₁.directory, hmode, hdir]
    exact hreadable
  refine works_setUpRoles halways hworking hreadable' fun x₂ hx₂ => wp_bind.mpr ?_
  refine serves_maintenance halways hserving fun _ x₃ hx₃ => wp_bind.mpr ?_
  refine serves_maintenance halways hserving fun state x₄ hx₄ => wp_bind.mpr ?_
  rw [hoffered]
  refine works_setUpAdministrator halways hworking fun x₅ hx₅ => wp_bind.mpr ?_
  refine serves_maintenance halways hserving fun _ x₆ hx₆ => wp_bind.mpr ?_
  have hkept : Kept x x₆ := ((((hx₁.trans hx₂).trans hx₃).trans hx₄).trans hx₅).trans hx₆
  have hcomplete : Complete assets n x₆.directory := by
    rw [hkept.directory]
    exact hfiled'.complete
  have hcompose : x₆.directory.compose = some (composeConfig n) := by
    rw [hkept.directory]
    exact hfiled'.compose
  refine serves_atomicJson halways ?_
  refine serves_start halways hserving hcomplete hcompose ?_ rfl fun y hy => ?_
  · change Labelled x₆.volumes n.id
    rw [hkept.volumes]
    exact hlabel'
  · refine h _ y (n.withState .ready) ?_ rfl
    rw [hy.directory]
    exact validateManifest_toJson _

/-- No temporary file is left in front of the first manifest, no script is damaged, and `postgres`
may read the init script. -/
structure Clean (assets : Assets) (d : Directory) : Prop where
  temporary : d.manifest = none → d.pending = 0
  scripts : Undamaged assets d
  runnable : Runnable d

/-- From a clean directory the installation becomes ready. -/
theorem works_install {Q : Report → World → Prop} (hoptions : ValidOptions options)
    (hresumable : Resumable assets options resolve w) (hclean : Clean assets w.directory)
    (h : ∀ report w' m', w'.directory.loaded = some m' → m'.state = .ready → Q report w') :
    wp c (install assets options) Q w := by
  have hserving := works_serving hworking
  have hjournal : w.directory.journal = none := by
    rcases hresumable with hblank | ⟨m, hm⟩
    · obtain ⟨_, _, hdirectory⟩ := hblank.directory
      rw [hdirectory]
    · exact hm.journal
  refine wp_bind.mpr (serves_raiseIf ?_ (wp_bind.mpr ?_))
  · rintro ⟨hlocal, hall⟩
    exact hoptions.bindAddress.elim hlocal hall
  refine serves_preflight halways hserving fun r o info e u hr ho hinfo he hu => ?_
  obtain rfl := (hworking r hr).architecture o info e ho hinfo he
  refine wp_bind.mpr (wp_bind.mpr (serves_read halways _ ?_))
  rw [hu.directory, hjournal]
  refine wp_bind.mpr (serves_read halways _ ?_)
  rw [hu.directory]
  rcases hresumable with hblank | ⟨m, hm⟩
  · have hblank' : Blank u := by
      refine ⟨hu.volumes.trans hblank.volumes, ?_⟩
      rw [hu.directory]
      exact hblank.directory
    have hnone : w.directory.manifest = none := by
      obtain ⟨_, _, hdirectory⟩ := hblank.directory
      rw [hdirectory]
    have hpending : u.directory.pending = 0 := by
      rw [hu.directory]
      exact hclean.temporary hnone
    rw [hnone]
    refine wp_bind.mpr (works_newManifest halways hworking hoptions hblank' hpending ?_)
    intro n v hn hstate hscripts hmode
    have hundamaged : Undamaged assets v.directory := by
      unfold Undamaged
      rw [hscripts, hu.directory]
      exact hclean.scripts
    have hrunnable : Runnable v.directory := by
      unfold Runnable
      rw [hscripts, hmode, hu.directory]
      exact hclean.runnable
    have hready : n.state ≠ .ready := by
      rw [hstate]
      decide
    refine wp_bind.mpr (works_prepareIfNeeded halways hworking (hn assets) hready hundamaged
      hrunnable ?_)
    intro n' x hstate' hfiled hvolume hreadable
    exact works_completeInstall halways hworking hoptions.administrator hstate' hfiled hvolume
      hreadable h
  · have hm' := hm.kept hu
    rw [hm.manifest]
    refine wp_bind.mpr (works_existingManifest halways hworking hoptions hm' fun v hv => ?_)
    have hkept := hu.trans hv
    have hm'' := hm'.kept hv
    split_ifs with hready
    · have hne : m.state ≠ .preparing := by
        rw [hready]
        decide
      have hlabel : Labelled v.volumes m.id := by
        refine (hm''.volume hne).resolve_right fun hprepared => ?_
        rw [hready] at hprepared
        cases hprepared.1
      have hfiled := hm''.files hne
      refine serves_start halways hserving hfiled.complete hfiled.compose hlabel hready ?_
      intro x hx
      refine h _ x m ?_ hready
      rw [hx.directory]
      exact hm''.loaded
    · have hclean' : Clean assets v.directory := by
        rw [hkept.directory]
        exact hclean
      refine wp_bind.mpr (works_prepareIfNeeded halways hworking hm'' hready hclean'.scripts
        hclean'.runnable ?_)
      intro n x hstate hfiled hvolume hreadable
      exact works_completeInstall halways hworking hoptions.administrator hstate hfiled hvolume
        hreadable h

end Works

/-! ### The points at which it may be killed -/

/-- With working replies the installation is completed. -/
def Resumes (assets : Assets) (options : Options) (engine : Str) (resolve : Str → ImageId)
    (w : World) : Prop :=
  ∀ replies : ℕ → Reply, (∀ i, Working engine resolve (replies i)) → ∃ n, ∀ k, n ≤ k →
    (∃ report, ((install assets options).exec ((List.range k).map replies) w).outcome =
      .returned report) ∧
    ∃ m, ((install assets options).exec ((List.range k).map replies) w).state.directory.loaded =
      some m ∧ m.state = .ready

section Kill

variable {assets : Assets} {options : Options} {engine : Str} {resolve : Str → ImageId}
  {w : World}

theorem Resumable.resumes (hoptions : ValidOptions options)
    (h : Resumable assets options resolve w) (hclean : Clean assets w.directory) :
    Resumes assets options engine resolve w := by
  intro replies hreplies
  let c : Contract World Reply ClientError :=
    { replies := Working engine resolve, raised := fun _ _ => False }
  have hwp : wp c (install assets options)
      (fun _ w' => ∃ m, w'.directory.loaded = some m ∧ m.state = .ready) w :=
    works_install (fun _ => trivial) (fun _ hr => hr) hoptions h hclean
      fun _ _ m hm hready => ⟨m, hm, hready⟩
  obtain ⟨n, hn⟩ := wp_ends hwp trivial hreplies
  refine ⟨n, fun k hk => ?_⟩
  rcases hn k hk with ⟨report, hreturned, hm⟩ | ⟨_, _, hfalse⟩
  · exact ⟨⟨report, hreturned⟩, hm⟩
  · exact absurd hfalse id

/-- Only from a clean directory an installation ever returns. -/
theorem Resumable.clean_of_returned (h : Resumable assets options resolve w) {rs : List Reply}
    {report : Report}
    (hreturned : ((install assets options).exec rs w).outcome = .returned report) :
    Clean assets w.directory := by
  let given : Given := { assets := assets, run := .install options }
  have hwp : wp (moving given w) (install given.assets options)
      (fun _ _ => w.directory.journal = none → Rerunnable given.assets w.directory) w :=
    wp_install rfl Relation.ReflTransGen.refl fun _ _ _ _ _ hrerunnable => hrerunnable
  have hrerunnable := (wp_exec hwp Relation.ReflTransGen.refl fun _ _ => trivial).2.1 report
    hreturned
  rcases h with hblank | ⟨m, hm⟩
  · obtain ⟨pending, secretPending, hdirectory⟩ := hblank.directory
    rw [hdirectory] at hrerunnable ⊢
    refine ⟨fun _ => ?_, fun name text ht => (by cases ht), fun hsome => absurd rfl hsome⟩
    have hempty := (hrerunnable rfl).occupied rfl
    by_contra hne
    rw [Directory.occupied, decide_eq_true hne] at hempty
    cases hempty
  · refine ⟨fun hnone => ?_, ?_, ?_⟩
    · rw [hm.manifest] at hnone
      cases hnone
    · by_cases hstate : m.state = .preparing
      · exact (hrerunnable hm.journal).scripts m hm.loaded hstate
      · intro name text ht
        rw [(hm.files hstate).complete.2.2 name] at ht
        exact (Option.some.inj ht).symm
    · by_cases hready : m.state = .ready
      · exact fun _ => hm.readable hready
      · exact (hrerunnable hm.journal).runnable m hm.loaded hready

end Kill

/-- After interrupted installations with valid options, the same installation becomes ready
exactly when no temporary file is left in front of the first manifest, no script is damaged and
`postgres` may read the init script. -/
theorem install_resumes_iff (assets : Assets) {options : Options} (hoptions : ValidOptions options)
    {engine : Str} {resolve : Str → ImageId} {r : Reply} (hr : Working engine resolve r)
    {w : World} (h : Interrupted assets options resolve w) :
    Resumes assets options engine resolve w ↔ Clean assets w.directory := by
  have hresumable := Resumable.of_interrupted h
  constructor
  · intro hresumes
    obtain ⟨n, hn⟩ := hresumes (fun _ => r) fun _ => hr
    obtain ⟨⟨report, hreturned⟩, -⟩ := hn n le_rfl
    exact hresumable.clean_of_returned hreturned
  · exact hresumable.resumes hoptions

theorem working_localReply : Working "amd64" localImage localReply where
  toServing := serving_localReply
  architecture := by
    intro o info e ho hinfo he
    cases ho
    cases hinfo
    have hengine : engineArchitecture localInfo = some ("amd64" : Str) := by decide
    rw [hengine] at he
    exact (Option.some.inj he).symm
  inspect := by
    intro reference o ho
    cases ho
    refine ⟨localInspect reference, rfl, ?_⟩
    have hid : textOf (localInspect reference) "Id" = some (localImage reference).text := rfl
    have hos : textOf (localInspect reference) "Os" = some ("linux" : Str) := rfl
    have harchitecture : architecture (Dict.get (localInspect reference) "Architecture") =
        some ("amd64" : Str) := by
      change architecture (some (.str "x86_64")) = _
      decide
    simp only [imageIdOf, hid, hos, harchitecture, Option.bind_some, ImageId.ofText_text,
      Option.bind_eq_bind, and_self, if_true]
  administrator := ⟨_, rfl⟩

theorem stable_localReply : Stable localImage localReply := by
  intro reference o d engine id ho hd hid
  cases ho
  cases hd
  simp only [imageIdOf, Option.bind_eq_bind, Option.bind_eq_some_iff] at hid
  obtain ⟨found, ⟨text, htext, hfound⟩, hid⟩ := hid
  cases htext
  rw [ImageId.ofText_text] at hfound
  cases hfound
  split_ifs at hid
  exact (Option.some.inj hid).symm

theorem validOptions_localOptions : ValidOptions localOptions where
  bindAddress := .inl rfl
  port := by decide
  reference := by decide
  administrator := rfl

theorem interrupted_local (steps : ℕ) : Interrupted localAssets localOptions localImage
    (localWorld (.install localOptions) steps {}) := by
  have hstart : Interrupted localAssets localOptions localImage {} := .start
  refine Reached.run hstart (Run.install localOptions) _ ⟨rfl, fun r hr => ?_⟩
  rw [List.eq_of_mem_replicate hr]
  exact stable_localReply

/-- Killed before the rename of the first manifest, in the middle of a script, and before its mode
is changed. -/
theorem local_kills :
    (localWorld (.install localOptions) 16 {}).directory.manifest.isNone = true ∧
      (localWorld (.install localOptions) 16 {}).directory.pending = 1 ∧
      (localWorld (.install localOptions) 42 {}).directory.scripts .initPostgres = some [] ∧
      (localWorld (.install localOptions) 44 {}).directory.scripts .initPostgres ≠ none ∧
      (localWorld (.install localOptions) 44 {}).directory.readable .initPostgres = false ∧
      (localWorld (.install localOptions) 20 {}).directory.manifest.isSome = true ∧
      (localWorld (.install localOptions) 20 {}).directory.scripts .initPostgres = none ∧
      (localWorld (.install localOptions) 20 {}).directory.scripts .postgresEntrypoint = none := by
  decide

theorem install_resumes_after_manifest : Resumes localAssets localOptions "amd64" localImage
    (localWorld (.install localOptions) 20 {}) := by
  refine (install_resumes_iff localAssets validOptions_localOptions working_localReply
    (interrupted_local 20)).mpr ⟨fun hnone => ?_, fun name text ht => ?_, fun hsome => ?_⟩
  · have hsome := local_kills.2.2.2.2.2.1
    rw [hnone] at hsome
    cases hsome
  · cases name with
    | initPostgres =>
        rw [local_kills.2.2.2.2.2.2.1] at ht
        cases ht
    | postgresEntrypoint =>
        rw [local_kills.2.2.2.2.2.2.2] at ht
        cases ht
  · exact absurd local_kills.2.2.2.2.2.2.1 hsome

/-- Killed after so many steps, the installation can neither be resumed nor ever return. -/
def KilledForGood (steps : ℕ) : Prop :=
  Interrupted localAssets localOptions localImage
      (localWorld (.install localOptions) steps {}) ∧
    ¬ Resumes localAssets localOptions "amd64" localImage
      (localWorld (.install localOptions) steps {}) ∧
    ∀ rs report, ((install localAssets localOptions).exec rs
      (localWorld (.install localOptions) steps {})).outcome ≠ .returned report

theorem killedForGood_of_not_clean {steps : ℕ}
    (hstuck : ¬ Clean localAssets (localWorld (.install localOptions) steps {}).directory) :
    KilledForGood steps := by
  have hinterrupted := interrupted_local steps
  have hreturns : ∀ rs report, ((install localAssets localOptions).exec rs
      (localWorld (.install localOptions) steps {})).outcome ≠ .returned report :=
    fun rs report hreturned =>
      hstuck ((Resumable.of_interrupted hinterrupted).clean_of_returned hreturned)
  refine ⟨hinterrupted, fun hresumes => ?_, hreturns⟩
  obtain ⟨n, hn⟩ := hresumes (fun _ => localReply) fun _ => working_localReply
  obtain ⟨⟨report, hreturned⟩, -⟩ := hn n le_rfl
  exact hreturns _ report hreturned

/-- Three points at which the installation can be killed for good: before the first manifest is
renamed, in the middle of a script, and before the mode of the init script is changed. -/
theorem killed_install_never_returns :
    KilledForGood 16 ∧ KilledForGood 42 ∧ KilledForGood 44 := by
  refine ⟨killedForGood_of_not_clean fun hclean => ?_,
    killedForGood_of_not_clean fun hclean => ?_, killedForGood_of_not_clean fun hclean => ?_⟩
  · have hpending := hclean.temporary (Option.isNone_iff_eq_none.mp local_kills.1)
    rw [local_kills.2.1] at hpending
    cases hpending
  · have htext := hclean.scripts .initPostgres [] local_kills.2.2.1
    revert htext
    decide
  · have hreadable := hclean.runnable local_kills.2.2.2.1
    rw [local_kills.2.2.2.2.1] at hreadable
    cases hreadable

end Gjallar.Bootstrap
