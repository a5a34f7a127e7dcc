import Gjallar.ArchiveConfig

/-!
# The exceptions of the archive parser

Only the encoding of the text and the conversion of the size to a number raise something else
than a `BackupError`; the later search for the size finds what the source policy found.
-/
namespace Gjallar.ArchiveConfig

open Gjallar.Text Gjallar.TextLines Gjallar.Data Gjallar.Operation Gjallar.Regex
  Gjallar.Regex.Pattern Gjallar.Registration Gjallar.Traversals Gjallar.VmDelete

variable {α β : Type}

/-- A computation raises a `BackupError` or nothing. -/
def Refuses (x : Except Raised α) : Prop := ∀ e, x = .error e → ∃ b, e = .backup b

theorem Refuses.ok (a : α) : Refuses (.ok a : Except Raised α) := fun _ h => by cases h

theorem Refuses.pure (a : α) : Refuses (Pure.pure a : Except Raised α) := Refuses.ok a

theorem Refuses.bind {x : Except Raised α} {f : α → Except Raised β} (hx : Refuses x)
    (hf : ∀ a, x = .ok a → Refuses (f a)) : Refuses (x >>= f) := by
  intro e he
  cases x with
  | error e' =>
      cases he
      exact hx _ rfl
  | ok a => exact hf a rfl e he

theorem Refuses.raiseIf (bad : Prop) [Decidable bad] (code message : Str) (status : ℕ) :
    Refuses (raiseIf bad (backupError code message status)) := by
  intro e he
  rw [raiseIf_eq_error] at he
  exact ⟨_, he.2.symm⟩

theorem Refuses.orRaise (a : Option α) (code message : Str) (status : ℕ) :
    Refuses (orRaise a (backupError code message status)) := by
  intro e he
  cases a with
  | none =>
      cases he
      exact ⟨_, rfl⟩
  | some a => cases he

theorem Refuses.map {x : Except Raised α} (hx : Refuses x) (f : α → β) : Refuses (x.map f) := by
  intro e he
  cases x with
  | error e' =>
      cases he
      exact hx _ rfl
  | ok a => cases he

theorem Refuses.foldlM {f : β → α → Except Raised β} (hf : ∀ b a, Refuses (f b a)) (l : List α)
    (b : β) : Refuses (l.foldlM f b) := by
  induction l generalizing b with
  | nil => exact Refuses.pure b
  | cons a l ih =>
      rw [List.foldlM_cons]
      exact Refuses.bind (hf b a) fun b' _ => ih b'

/-! ### The steps that only refuse -/

theorem refuses_pairsOf (parts : List Str) (code message : Str) (status : ℕ) :
    Refuses (pairsOf parts (backupError code message status)) :=
  Refuses.bind (Refuses.orRaise _ _ _ _) fun _ _ =>
    Refuses.bind (Refuses.raiseIf _ _ _ _) fun _ _ => Refuses.pure _

theorem refuses_options (value : Value) : Refuses (options value) :=
  Refuses.bind (Refuses.orRaise _ _ _ _) fun _ _ => refuses_pairsOf _ _ _ _

theorem refuses_readLine (r : Reading) (line : Str) : Refuses (readLine r line) := by
  intro e he
  unfold readLine at he
  split at he
  · split at he
    · cases he
    · cases he
      exact ⟨_, rfl⟩
  · split at he
    · cases he
    · split at he
      · split at he
        · cases he
        · cases he
          exact ⟨_, rfl⟩
      · cases he
        exact ⟨_, rfl⟩

theorem refuses_sourceIdentity (rt : Runtime) (config status : Dict)
    (pending snapshots : List Dict) :
    Refuses (sourceIdentity rt config status pending snapshots) :=
  Refuses.bind (Refuses.raiseIf _ _ _ _) fun _ _ =>
    Refuses.bind (Refuses.raiseIf _ _ _ _) fun _ _ =>
      Refuses.bind (Refuses.raiseIf _ _ _ _) fun _ _ =>
        Refuses.bind (Refuses.orRaise _ _ _ _) fun _ _ =>
          Refuses.bind (Refuses.orRaise _ _ _ _) fun _ _ => Refuses.pure _

theorem refuses_sourceDisk (vmid : ℕ) (slot : Str) (suffix : Pattern Char) (config : Dict) :
    Refuses (sourceDisk vmid slot suffix config) :=
  Refuses.bind (Refuses.orRaise _ _ _ _) fun _ _ =>
    Refuses.bind (refuses_pairsOf _ _ _ _) fun _ _ =>
      Refuses.bind (Refuses.orRaise _ _ _ _) fun _ _ =>
        Refuses.bind (Refuses.raiseIf _ _ _ _) fun _ _ => Refuses.pure _

theorem refuses_rootSize (rt : Runtime) (config status : Dict) (pending snapshots : List Dict)
    (vmid : ℕ) : Refuses (rootSize rt config status pending snapshots vmid) :=
  Refuses.bind (refuses_sourceIdentity rt config status pending snapshots) fun _ _ =>
    Refuses.bind (refuses_sourceDisk vmid _ _ config) fun _ _ =>
      Refuses.bind (Refuses.orRaise _ _ _ _) fun _ _ => Refuses.pure _

theorem refuses_checkDevices (config : Dict) : Refuses (checkDevices config) :=
  Refuses.bind (refuses_options _) fun _ _ =>
    Refuses.bind (Refuses.raiseIf _ _ _ _) fun _ _ =>
      Refuses.bind (Refuses.raiseIf _ _ _ _) fun _ _ =>
        Refuses.bind (Refuses.raiseIf _ _ _ _) fun _ _ => Refuses.pure _

theorem refuses_slotOptions (config : Dict) (slot : Str) : Refuses (slotOptions config slot) := by
  refine Refuses.bind (Refuses.orRaise _ _ _ _) fun text _ => ?_
  dsimp only
  split
  · exact Refuses.bind (refuses_options _) fun _ _ => Refuses.pure _
  · exact Refuses.bind (Refuses.ok _) fun _ _ => Refuses.pure _

theorem refuses_smbiosOptions (config : Dict) : Refuses (smbiosOptions config) := by
  unfold smbiosOptions
  split
  · exact Refuses.ok _
  · exact Refuses.bind (refuses_options _) fun _ _ => Refuses.pure _

theorem refuses_hardwareFingerprint (rt : Runtime) (config : Dict) :
    Refuses (hardwareFingerprint rt config) :=
  Refuses.bind (refuses_slotOptions config _) fun _ _ =>
    Refuses.bind (refuses_slotOptions config _) fun _ _ =>
      Refuses.bind (refuses_smbiosOptions config) fun _ _ => Refuses.pure _

theorem refuses_smbiosUuid (config : Dict) : Refuses (smbiosUuid config) := by
  unfold smbiosUuid
  dsimp only
  split
  · exact Refuses.map (refuses_options _) _
  · exact Refuses.ok _

/-! ### The text and the size -/

theorem refuses_readArchive {raw : List CodePoint} {text : Str} (h : encode raw = .ok text) :
    Refuses (readArchive raw) :=
  Refuses.bind (Refuses.raiseIf _ _ _ _) fun _ _ => by
    rw [h]
    exact Refuses.bind (Refuses.ok text) fun _ _ =>
      Refuses.bind (Refuses.raiseIf _ _ _ _) fun _ _ => Refuses.foldlM refuses_readLine _ _

theorem readSize_digits {s digits unit : Str} (h : readSize s = some (digits, unit)) :
    s = digits ++ unit ∧ (∀ c ∈ digits, isAsciiDigit c = true) ∧
      ∀ c ∈ unit, c ∈ ("MGT" : Str) := by
  obtain ⟨m, hm, heq⟩ := Option.map_eq_some_iff.mp h
  obtain ⟨-, -, hmatch⟩ := fullmatch_eq_some hm
  simp only [diskSize, matches_seq, matches_group, matches_one, matches_star_one] at hmatch
  obtain ⟨u, v, h₁, h₂, rfl, hgroups, ⟨g, hdigits, rfl⟩, ⟨g', ⟨⟨c, hc, rfl⟩, rfl⟩, rfl⟩⟩ := hmatch
  obtain ⟨first, rest, g₁, g₂, rfl, rfl, ⟨⟨d, hd, rfl⟩, rfl⟩, hrest, rfl⟩ := hdigits
  rw [Match.group, Match.group, hgroups] at heq
  cases heq
  refine ⟨rfl, ?_, ?_⟩
  · intro e he
    rcases List.mem_append.mp he with he | he
    · rw [List.mem_singleton.mp he]
      simp only [Bool.and_eq_true] at hd
      exact hd.1
    · exact hrest e he
  · intro e he
    change e ∈ [c] at he
    rw [List.mem_singleton.mp he]
    exact List.contains_iff_mem.mp hc

theorem intOf_of_short {digits : Str} (hdigits : ∀ c ∈ digits, isAsciiDigit c = true)
    (h : digits.length ≤ 4300) : ∃ n, intOf digits = .ok n := by
  refine ⟨Nat.ofDigitChars 10 digits 0, ?_⟩
  rw [intOf, bind_eq_ok]
  exact ⟨(), (raiseIf_eq_ok _ _ _).mpr (not_lt.mpr h), (orRaise_eq_ok _ _ _).mpr
    (toInt_of_ascii hdigits)⟩

theorem intOf_of_long {digits : Str} (h : 4300 < digits.length) :
    intOf digits = .error .valueError := by
  rw [intOf, raiseIf, if_pos h]
  rfl

/-- The part of a key and a value is found under its key only. -/
theorem searchPart_of_readOption {part key value : Str}
    (h : readOption part = some (key, value)) :
    (if ("size=" : Str).isPrefixOf part then readSize (part.drop 5) else none) =
      if key = "size" then readSize value else none := by
  have hpart : part = key ++ '=' :: value ∧ '=' ∉ key := by
    unfold readOption at h
    split at h
    · rename_i k v hsplit
      split at h
      · cases h
        exact eq_of_splitOnce hsplit
      · cases h
    · cases h
  obtain ⟨rfl, hkey⟩ := hpart
  by_cases hsize : key = "size"
  · subst hsize
    rw [if_pos rfl]
    rfl
  · rw [if_neg hsize, if_neg]
    intro hbegins
    obtain ⟨rest, hrest⟩ := List.isPrefixOf_iff_prefix.mp hbegins
    have hsplit := splitOnce_append hkey value
    rw [← hrest] at hsplit
    cases hsplit
    exact hsize rfl

theorem findSome_parts {parts : List Str} {opts : List (Str × Str)}
    (h : parts.Forall₂ (fun part kv => readOption part = some kv) opts) {size : Str × Str}
    (hsize : readSize ((opts.lookup ("size" : Str)).getD []) = some size) :
    parts.findSome? (fun part =>
      if ("size=" : Str).isPrefixOf part then readSize (part.drop 5) else none) = some size := by
  induction h with
  | nil => cases hsize
  | @cons part kv parts opts hpart _ ih =>
      obtain ⟨key, value⟩ := kv
      rw [List.findSome?_cons, searchPart_of_readOption hpart]
      by_cases hkey : key = "size"
      · subst hkey
        rw [List.lookup_cons, beq_self_eq_true] at hsize
        rw [if_pos rfl]
        change readSize value = some size at hsize
        rw [hsize]
      · have hbeq : (("size" : Str) == key) = false := beq_eq_false_iff_ne.mpr (Ne.symm hkey)
        rw [List.lookup_cons, hbeq] at hsize
        rw [if_neg hkey]
        exact ih hsize

theorem colon_mem_ownedVolume {vmid : ℤ} {suffix : Pattern Char} {s : Str} {m : Match Char}
    (h : (ownedVolume vmid suffix).fullmatch s = some m) : ':' ∈ s := by
  obtain ⟨-, -, hmatch⟩ := fullmatch_eq_some h
  simp only [ownedVolume, matches_seq, matches_lit] at hmatch
  obtain ⟨u, v, h₁, h₂, rfl, -, -, w, x, h₃, h₄, rfl, -, ⟨rfl, -⟩, -⟩ := hmatch
  simp

/-- The search finds the size that the source policy read. -/
theorem searchSize_of_sourceDisk {vmid : ℕ} {suffix : Pattern Char} {config : Dict} {root : Disk}
    {opts : List (Str × Str)} (h : sourceDisk vmid "scsi0" suffix config = .ok (root, opts))
    {size : Str × Str}
    (hsize : readSize ((opts.lookup ("size" : Str)).getD []) = some size) :
    searchSize (((Dict.getD config "scsi0" .null).asStr).getD []) = some size := by
  simp only [sourceDisk, bind_eq_ok, orRaise_eq_ok, raiseIf_eq_ok, pure_eq_ok, pairsOf] at h
  obtain ⟨text, htext, opts', ⟨pairs, hpairs, -, -, rfl⟩, m, hm, -, -, heq⟩ := h
  cases heq
  rw [htext, Option.getD_some, searchSize]
  cases hparts : splitAll ',' text with
  | nil => exact absurd hparts (splitAll_ne_nil ',' text)
  | cons volume parts =>
      rw [hparts] at hm hpairs
      have hvolume : (if ("size=" : Str).isPrefixOf volume then readSize (volume.drop 5)
          else none) = none := by
        split
        · rename_i hbegins
          obtain ⟨rest, rfl⟩ := List.isPrefixOf_iff_prefix.mp hbegins
          cases hread : readSize rest with
          | none => exact hread
          | some found =>
              obtain ⟨digits, unit⟩ := found
              obtain ⟨rfl, hdigits, hunit⟩ := readSize_digits hread
              rcases List.mem_append.mp (colon_mem_ownedVolume hm) with hc | hc
              · exact absurd hc (by decide)
              · rcases List.mem_append.mp hc with hc | hc
                · exact absurd (hdigits _ hc) (by decide)
                · exact absurd (hunit _ hc) (by decide)
        · rfl
      rw [List.findSome?_cons, hvolume]
      exact findSome_parts (mapM_eq_some.mp hpairs) hsize

/-! ### When something else is raised -/

theorem parse_of_unencodable (rt : Runtime) {raw : List CodePoint} (vmid : ℕ) {e : Raised}
    (h : encode raw = .error e) : parseArchiveConfig rt raw vmid = .error .unicodeEncodeError := by
  have he : encode raw = .error .unicodeEncodeError := by
    unfold encode at h ⊢
    cases hmap : raw.mapM Sum.getLeft? with
    | none => rfl
    | some text =>
        rw [hmap] at h
        cases h
  have hne : raw ≠ [] := by
    rintro rfl
    cases he
  have hread : readArchive raw = .error .unicodeEncodeError := by
    rw [readArchive, raiseIf, if_neg hne, he]
    rfl
  rw [parseArchiveConfig, hread]
  rfl

/-- The conversion of the size of the root disk, once everything before it is in order. -/
def ReachesSize (rt : Runtime) (raw : List CodePoint) (vmid : ℕ) (digits : Str) : Prop :=
  ∃ reading identity root unit, readArchive raw = .ok reading ∧
    rootSize rt reading.archiveConfig [("status", .str "stopped")] []
      [[("name", .str "current")]] vmid = .ok (identity, root, digits, unit)

theorem parse_of_long {rt : Runtime} {raw : List CodePoint} {vmid : ℕ} {digits : Str}
    (h : ReachesSize rt raw vmid digits) (hlong : 4300 < digits.length) :
    parseArchiveConfig rt raw vmid = .error .valueError := by
  obtain ⟨reading, identity, root, unit, hread, hsize⟩ := h
  have hsource : archiveSource rt reading.archiveConfig vmid = .error .valueError := by
    rw [archiveSource, source, hsize]
    change (intOf digits >>= _) = _
    rw [intOf_of_long hlong]
    rfl
  rw [parseArchiveConfig, hread]
  change (archiveSource rt reading.archiveConfig vmid >>= _) = _
  rw [hsource]
  rfl

theorem disk_of_rootSize {rt : Runtime} {config status : Dict} {pending snapshots : List Dict}
    {vmid : ℕ} {identity : Str × Str} {root : Disk} {size : Str × Str}
    (h : rootSize rt config status pending snapshots vmid = .ok (identity, root, size)) :
    ∃ suffix opts, sourceDisk vmid "scsi0" suffix config = .ok (root, opts) ∧
      readSize ((opts.lookup ("size" : Str)).getD []) = some size := by
  rw [rootSize, bind_eq_ok] at h
  obtain ⟨identity', -, h⟩ := h
  rw [bind_eq_ok] at h
  obtain ⟨⟨disk, opts⟩, hdisk, h⟩ := h
  simp only [bind_eq_ok, orRaise_eq_ok, pure_eq_ok] at h
  obtain ⟨size', hsize, heq⟩ := h
  cases heq
  exact ⟨_, opts, hdisk, hsize⟩

/-- Otherwise the parser only refuses. -/
theorem refuses_parse {rt : Runtime} {raw : List CodePoint} {vmid : ℕ} {text : Str}
    (htext : encode raw = .ok text)
    (hshort : ∀ digits, ReachesSize rt raw vmid digits → digits.length ≤ 4300) :
    Refuses (parseArchiveConfig rt raw vmid) := by
  refine Refuses.bind (refuses_readArchive htext) fun reading hread => ?_
  have hint : ∀ {identity root digits unit}, rootSize rt reading.archiveConfig
      [("status", .str "stopped")] [] [[("name", .str "current")]] vmid =
        .ok (identity, root, digits, unit) → ∃ n, intOf digits = .ok n := by
    intro identity root digits unit hsize
    have hlength := hshort digits ⟨reading, identity, root, unit, hread, hsize⟩
    obtain ⟨_, _, -, hreadsize⟩ := disk_of_rootSize hsize
    exact intOf_of_short (readSize_digits hreadsize).2.1 hlength
  refine Refuses.bind ?_ fun identity hidentity => ?_
  · refine Refuses.bind (refuses_rootSize rt _ _ _ _ vmid) fun found hfound => ?_
    obtain ⟨⟨digest, name⟩, root, digits, unit⟩ := found
    obtain ⟨n, hn⟩ := hint hfound
    change Refuses (intOf digits >>= _)
    rw [hn]
    exact Refuses.bind (Refuses.ok n) fun _ _ =>
      Refuses.bind (refuses_sourceDisk vmid _ _ _) fun _ _ => Refuses.pure _
  · refine Refuses.bind (Refuses.raiseIf _ _ _ _) fun _ _ => ?_
    refine Refuses.bind (refuses_checkDevices _) fun nic _ => ?_
    rw [htext]
    refine Refuses.bind (Refuses.ok text) fun _ _ => Refuses.bind ?_ fun _ _ => Refuses.pure _
    simp only [archiveSource, source, bind_eq_ok] at hidentity
    obtain ⟨⟨⟨digest, name⟩, root, digits, unit⟩, hfound, -⟩ := hidentity
    obtain ⟨n, hn⟩ := hint hfound
    obtain ⟨_, _, hdisk, hreadsize⟩ := disk_of_rootSize hfound
    rw [manifest, searchSize_of_sourceDisk hdisk hreadsize]
    change Refuses (intOf digits >>= _)
    rw [hn]
    exact Refuses.bind (Refuses.ok n) fun _ _ =>
      Refuses.bind (refuses_smbiosUuid _) fun _ _ =>
        Refuses.bind (refuses_hardwareFingerprint rt _) fun _ _ => Refuses.pure _

end Gjallar.ArchiveConfig
