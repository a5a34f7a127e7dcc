import Gjallar.Numerals
import Gjallar.Operation
import Gjallar.Registration
import Gjallar.TextLines
import Gjallar.Traversals

/-!
# The network device of a stopped VM

The device is a text of options. A replacement of its bridge and its VLAN tag keeps the other
options; it is a device again as long as it stays within the length that is read.
-/
namespace Gjallar.NetworkReplacement

open Gjallar.Text Gjallar.TextLines Gjallar.Data Gjallar.Operation Gjallar.Regex
  Gjallar.Regex.Pattern Gjallar.Registration Gjallar.Traversals

/-- `NetworkError` with its default status, and the `ValueError` of a tag with other digits than
decimal ones. -/
inductive NetworkFailure where
  | refused (code message : Str)
  | valueError
  deriving DecidableEq

def unsupported (message : Str) : NetworkFailure := .refused "VM_NETWORK_CONFIG_UNSUPPORTED" message

/-- The options in their order. -/
abbrev Options := List (Str × Str)

/-- `[A-Za-z0-9_-]+`. -/
def optionKey : Pattern Char := plus (one (alnumOr "_-"))

/-- `(?:[0-9a-fA-F]{2}:){5}[0-9a-fA-F]{2}`. -/
def macAddress : Pattern Char :=
  let pair := times (one isHexDigit) 2
  seq (times (seq pair (lit ":")) 5) pair

def networkModels : List Str :=
  ["virtio", "e1000", "e1000-82540em", "e1000-82544gc", "e1000-82545em", "i82551", "i82557b",
    "i82559er", "ne2k_pci", "pcnet", "rtl8139", "vmxnet3"]

/-- `part.split("=", 1)`, of two parts with a key and a value. -/
def readPair (part : Str) : Option (Str × Str) :=
  match splitOnce '=' part with
  | (key, some value) =>
      if (optionKey.fullmatch key).isSome = true ∧ value ≠ [] then some (key, value) else none
  | (_, none) => none

/-- The check of the current tag. -/
def checkTag (options : Options) : Except NetworkFailure Unit :=
  match options.lookup ("tag" : Str) with
  | none => .ok ()
  | some tag =>
      if isDigit tag = true then
        match toInt tag with
        | none => .error .valueError
        | some n =>
            if 1 ≤ n ∧ n ≤ 4094 then .ok ()
            else .error (unsupported "현재 VLAN tag 형식을 확인하세요.")
      else .error (unsupported "현재 VLAN tag 형식을 확인하세요.")

/-- `parse_net0`. -/
def parseNet0 (value : Value) : Except NetworkFailure Options := do
  let net0 ← orRaise (value.asStr.filter fun s => !s.isEmpty && s.length ≤ 2048)
    (unsupported "기존 net0 설정을 확인할 수 없습니다.")
  let options ← orRaise ((splitAll ',' net0).mapM readPair)
    (unsupported "net0 설정 형식을 확인하세요.")
  let (model, mac) ← orRaise options.head? (unsupported "net0 설정 형식을 확인하세요.")
  raiseIf (¬ (options.map Prod.fst).Nodup ∨ (macAddress.fullmatch mac).isNone = true)
    (unsupported "net0 MAC 또는 중복 옵션을 확인하세요.")
  raiseIf (model ∉ networkModels) (unsupported "첫 지원 범위의 NIC 모델이 아닙니다.")
  raiseIf ((options.lookup ("trunks" : Str)).isSome = true ∨
      isIdentifier ((options.lookup ("bridge" : Str)).getD []) = false)
    (unsupported "bridge 없는 NIC 또는 VLAN trunk는 지원하지 않습니다.")
  checkTag options
  return options

/-- `options[key] = value`. -/
def setOption (options : Options) (key value : Str) : Options :=
  if (options.lookup key).isSome = true then
    options.map fun kv => if kv.1 = key then (key, value) else kv
  else options ++ [(key, value)]

/-- `options.pop(key, None)`. -/
def popOption (options : Options) (key : Str) : Options := options.filter fun kv => kv.1 ≠ key

/-- The options after the replacement. -/
def replaceOptions (options : Options) (bridge : Str) : Option ℕ → Options
  | none => popOption (setOption options "bridge" bridge) "tag"
  | some tag => setOption (setOption options "bridge" bridge) "tag" (ofNat tag)

def printOption (kv : Str × Str) : Str := kv.1 ++ '=' :: kv.2

def printOptions (options : Options) : Str := join "," (options.map printOption)

/-- `replace_network`; the tag is a number or missing. -/
def replaceNetwork (net0 : Value) (bridge : Str) (tag : Option ℕ) : Except NetworkFailure Str := do
  let options ← parseNet0 net0
  return printOptions (replaceOptions options bridge tag)

/-! ### The options that are accepted -/

/-- The options of a device that is accepted, apart from its length. -/
structure Supported (options : Options) : Prop where
  first : ∃ kv ∈ options.head?, kv.1 ∈ networkModels ∧ (macAddress.fullmatch kv.2).isSome = true
  entry : ∀ kv ∈ options, (optionKey.fullmatch kv.1).isSome = true ∧ kv.2 ≠ [] ∧ ',' ∉ kv.2
  nodup : (options.map Prod.fst).Nodup
  untrunked : options.lookup ("trunks" : Str) = none
  bridge : isIdentifier ((options.lookup ("bridge" : Str)).getD []) = true
  tag : ∀ t, options.lookup ("tag" : Str) = some t →
    isDigit t = true ∧ ∃ n, toInt t = some n ∧ 1 ≤ n ∧ n ≤ 4094

theorem alnumOr_of_optionKey {key : Str} (h : (optionKey.fullmatch key).isSome = true) :
    ∀ c ∈ key, alnumOr "_-" c = true := by
  rw [fullmatch_isSome_iff] at h
  obtain ⟨g, hg⟩ := h
  exact (matches_plus_one ..).mp hg |>.2.1

theorem notMem_of_optionKey {key : Str} (h : (optionKey.fullmatch key).isSome = true) :
    ',' ∉ key ∧ '=' ∉ key :=
  ⟨fun hc => absurd (alnumOr_of_optionKey h _ hc) (by decide),
    fun hc => absurd (alnumOr_of_optionKey h _ hc) (by decide)⟩

theorem readPair_eq_some {part : Str} {kv : Str × Str} : readPair part = some kv ↔
    part = printOption kv ∧ (optionKey.fullmatch kv.1).isSome = true ∧ kv.2 ≠ [] := by
  obtain ⟨key, value⟩ := kv
  constructor
  · intro h
    unfold readPair at h
    split at h
    · rename_i k v hsplit
      split at h
      · rename_i hvalid
        cases h
        exact ⟨(eq_of_splitOnce hsplit).1, hvalid⟩
      · cases h
    · cases h
  · rintro ⟨rfl, hkey, hvalue⟩
    rw [readPair, printOption, splitOnce_append (notMem_of_optionKey hkey).2]
    exact if_pos ⟨hkey, hvalue⟩

theorem checkTag_eq_ok {options : Options} : checkTag options = .ok () ↔
    ∀ t, options.lookup ("tag" : Str) = some t →
      isDigit t = true ∧ ∃ n, toInt t = some n ∧ 1 ≤ n ∧ n ≤ 4094 := by
  unfold checkTag
  cases options.lookup ("tag" : Str) with
  | none => simp
  | some tag =>
      by_cases hdigit : isDigit tag = true
      · cases hint : toInt tag with
        | none => simp [hdigit, hint]
        | some n =>
            by_cases hn : 1 ≤ n ∧ n ≤ 4094
            · simp [hdigit, hint, hn]
            · simp only [hdigit, if_true, hint, if_neg hn]
              refine iff_of_false (fun h => by cases h) fun h => ?_
              obtain ⟨-, m, hm, hbounds⟩ := h tag rfl
              rw [hint] at hm
              cases hm
              exact hn hbounds
      · simp [hdigit]

theorem forall₂_readPair {parts : List Str} {options : Options} :
    parts.Forall₂ (fun part kv => readPair part = some kv) options ↔
      parts = options.map printOption ∧
        ∀ kv ∈ options, (optionKey.fullmatch kv.1).isSome = true ∧ kv.2 ≠ [] := by
  induction options generalizing parts with
  | nil => simp [List.forall₂_nil_right_iff]
  | cons kv options ih =>
      rw [List.forall₂_cons_right_iff, List.forall_mem_cons, List.map_cons]
      constructor
      · rintro ⟨part, parts, hpart, hparts, rfl⟩
        obtain ⟨rfl, hentry⟩ := readPair_eq_some.mp hpart
        obtain ⟨rfl, hentries⟩ := ih.mp hparts
        exact ⟨rfl, hentry, hentries⟩
      · rintro ⟨rfl, hentry, hentries⟩
        exact ⟨_, _, readPair_eq_some.mpr ⟨rfl, hentry⟩, ih.mpr ⟨rfl, hentries⟩, rfl⟩

/-- The parts of a device are the prints of its options. -/
theorem mapM_readPair {net0 : Str} {options : Options} (hne : options ≠ []) :
    (splitAll ',' net0).mapM readPair = some options ↔ net0 = printOptions options ∧
      ∀ kv ∈ options, (optionKey.fullmatch kv.1).isSome = true ∧ kv.2 ≠ [] ∧ ',' ∉ kv.2 := by
  rw [mapM_eq_some, forall₂_readPair]
  constructor
  · rintro ⟨hparts, hentries⟩
    refine ⟨?_, fun kv hkv => ⟨(hentries kv hkv).1, (hentries kv hkv).2, fun hcomma => ?_⟩⟩
    · rw [printOptions, ← hparts]
      exact (join_splitAll ',' net0).symm
    · have hpart : printOption kv ∈ splitAll ',' net0 := hparts ▸ List.mem_map_of_mem hkv
      exact notMem_of_mem_splitAll hpart
        (List.mem_append_right _ (List.mem_cons_of_mem _ hcomma))
  · rintro ⟨rfl, hentries⟩
    refine ⟨splitAll_join (by simpa using hne) ?_, fun kv hkv =>
      ⟨(hentries kv hkv).1, (hentries kv hkv).2.1⟩⟩
    rw [List.forall_mem_map]
    intro kv hkv hcomma
    obtain ⟨hkey, -, hvalue⟩ := hentries kv hkv
    rw [printOption, List.mem_append, List.mem_cons] at hcomma
    rcases hcomma with hcomma | hcomma | hcomma
    · exact (notMem_of_optionKey hkey).1 hcomma
    · cases hcomma
    · exact hvalue hcomma

theorem Supported.ne_nil {options : Options} (h : Supported options) : options ≠ [] := by
  rintro rfl
  obtain ⟨kv, hkv, -⟩ := h.first
  cases hkv

theorem printOptions_ne_nil {options : Options} (h : options ≠ []) : printOptions options ≠ [] := by
  obtain ⟨kv, rest, rfl⟩ := List.exists_cons_of_ne_nil h
  cases rest with
  | nil => simp [printOptions, join, printOption]
  | cons lw rest => simp [printOptions, join, printOption]

/-- A device is accepted if it is the print of supported options and not too long. -/
theorem parseNet0_eq_ok {value : Value} {options : Options} : parseNet0 value = .ok options ↔
    value = .str (printOptions options) ∧ (printOptions options).length ≤ 2048 ∧
      Supported options := by
  simp only [parseNet0, bind_eq_ok, orRaise_eq_ok, raiseIf_eq_ok, pure_eq_ok,
    Option.filter_eq_some_iff]
  constructor
  · rintro ⟨net0, ⟨hstr, hlength⟩, parsed, hparsed, ⟨model, mac⟩, hhead, -, hdistinct, -, hmodel, -,
      hbridge, checked, htag, rfl⟩
    cases checked
    have hne : parsed ≠ [] := by
      rintro rfl
      cases hhead
    obtain ⟨rfl, hentries⟩ := (mapM_readPair hne).mp hparsed
    rw [not_or, not_not] at hdistinct
    rw [not_or, Bool.not_eq_true, Bool.not_eq_false] at hbridge
    rw [Bool.and_eq_true, decide_eq_true_eq] at hlength
    refine ⟨?_, hlength.2, ?_⟩
    · cases value with
      | str s =>
          cases hstr
          rfl
      | _ => cases hstr
    · exact
        { first := ⟨_, hhead, not_not.mp hmodel,
            by simpa [Option.isSome_iff_ne_none] using hdistinct.2⟩
          entry := hentries
          nodup := hdistinct.1
          untrunked := by simpa using hbridge.1
          bridge := hbridge.2
          tag := checkTag_eq_ok.mp htag }
  · rintro ⟨rfl, hlength, hsupported⟩
    obtain ⟨⟨model, mac⟩, hhead, hmodel, hmac⟩ := hsupported.first
    have hne := hsupported.ne_nil
    refine ⟨printOptions options, ⟨rfl, ?_⟩, options, (mapM_readPair hne).mpr
      ⟨rfl, hsupported.entry⟩, (model, mac), hhead, (), ?_, (), not_not.mpr hmodel, (), ?_, (),
      checkTag_eq_ok.mpr hsupported.tag, rfl⟩
    · rw [Bool.and_eq_true, decide_eq_true_eq]
      exact ⟨by simpa using printOptions_ne_nil hne, hlength⟩
    · rw [not_or, not_not, Option.isNone_iff_eq_none, ← Ne, ← Option.isSome_iff_ne_none]
      exact ⟨hsupported.nodup, hmac⟩
    · rw [not_or, Bool.not_eq_true, Bool.not_eq_false, hsupported.untrunked]
      exact ⟨rfl, hsupported.bridge⟩

/-! ### The replaced options -/

theorem lookup_cons (kv : Str × Str) (options : Options) (k : Str) :
    (kv :: options).lookup k = if k = kv.1 then some kv.2 else options.lookup k := by
  obtain ⟨key, v⟩ := kv
  by_cases h : k = key
  · simp [h]
  · simp [List.lookup_cons, h, beq_eq_false_iff_ne.mpr h]

theorem lookup_of_mem {options : Options} (hnodup : (options.map Prod.fst).Nodup)
    {kv : Str × Str} (h : kv ∈ options) : options.lookup kv.1 = some kv.2 := by
  induction options with
  | nil => cases h
  | cons lw options ih =>
      rw [List.map_cons, List.nodup_cons] at hnodup
      rw [lookup_cons]
      rcases List.mem_cons.mp h with rfl | h
      · exact if_pos rfl
      · have hne : kv.1 ≠ lw.1 := fun heq => hnodup.1 (heq ▸ List.mem_map_of_mem h)
        rw [if_neg hne]
        exact ih hnodup.2 h

theorem isSome_lookup_iff {options : Options} {key : Str} :
    (options.lookup key).isSome = true ↔ key ∈ options.map Prod.fst := by
  induction options with
  | nil => simp
  | cons kv options ih =>
      rw [lookup_cons, List.map_cons, List.mem_cons, ← ih]
      by_cases h : key = kv.1 <;> simp [h]

theorem lookup_append (o p : Options) (k : Str) :
    (o ++ p).lookup k = (o.lookup k).or (p.lookup k) := by
  induction o with
  | nil => simp
  | cons kv o ih =>
      rw [List.cons_append, lookup_cons, lookup_cons, ih]
      by_cases h : k = kv.1 <;> simp [h]

theorem lookup_setOption (options : Options) (key value k : Str) :
    (setOption options key value).lookup k = if k = key then some value else options.lookup k := by
  have hmap : ∀ o : Options, (o.map fun kv => if kv.1 = key then (key, value) else kv).lookup k =
      if k = key then (o.lookup k).map fun _ => value else o.lookup k := by
    intro o
    induction o with
    | nil => simp
    | cons kv o ih =>
        rw [List.map_cons, lookup_cons, lookup_cons, ih]
        by_cases hkv : kv.1 = key
        · by_cases hk : k = key <;> simp [hkv, hk]
        · by_cases hk : k = key
          · simp [hkv, hk, Ne.symm hkv]
          · simp [hkv, hk]
  unfold setOption
  split
  · rename_i hsome
    rw [hmap]
    by_cases hk : k = key
    · obtain ⟨v, hv⟩ := Option.isSome_iff_exists.mp hsome
      rw [if_pos hk, if_pos hk, hk, hv, Option.map_some]
    · rw [if_neg hk, if_neg hk]
  · rename_i hnone
    rw [lookup_append, lookup_cons]
    by_cases hk : k = key
    · rw [if_pos hk, if_pos hk, hk, Option.not_isSome_iff_eq_none.mp hnone, Option.none_or]
    · simp [hk]

theorem lookup_popOption (options : Options) (key k : Str) :
    (popOption options key).lookup k = if k = key then none else options.lookup k := by
  induction options with
  | nil => simp [popOption]
  | cons kv options ih =>
      rw [popOption] at ih
      rw [popOption, List.filter_cons, lookup_cons]
      by_cases hkv : kv.1 = key
      · rw [if_neg (by simpa using hkv), ih]
        by_cases hk : k = key
        · simp [hk]
        · rw [if_neg hk, if_neg hk, if_neg fun heq => hk (heq.trans hkv)]
      · rw [if_pos (by simpa using hkv), lookup_cons, ih]
        by_cases hk : k = key
        · rw [if_neg fun heq => hkv (heq.symm.trans hk), if_pos hk, if_pos hk]
        · simp only [if_neg hk]

theorem keys_setOption (options : Options) (key value : Str) :
    (setOption options key value).map Prod.fst =
      if key ∈ options.map Prod.fst then options.map Prod.fst
      else options.map Prod.fst ++ [key] := by
  unfold setOption
  simp only [isSome_lookup_iff]
  split
  · rw [List.map_map]
    refine List.map_congr_left fun kv _ => ?_
    dsimp only [Function.comp_apply]
    split
    · rename_i heq
      exact heq.symm
    · rfl
  · rw [List.map_append, List.map_singleton]

theorem nodup_setOption {options : Options} (h : (options.map Prod.fst).Nodup)
    (key value : Str) : ((setOption options key value).map Prod.fst).Nodup := by
  rw [keys_setOption]
  split
  · exact h
  · rename_i hkey
    exact List.nodup_append.mpr ⟨h, List.nodup_singleton key, by
      rintro a ha b hb rfl
      exact hkey (List.mem_singleton.mp hb ▸ ha)⟩

theorem nodup_popOption {options : Options} (h : (options.map Prod.fst).Nodup) (key : Str) :
    ((popOption options key).map Prod.fst).Nodup :=
  h.sublist (List.filter_sublist.map Prod.fst)

theorem mem_setOption {options : Options} {key value : Str} {kv : Str × Str}
    (h : kv ∈ setOption options key value) : kv = (key, value) ∨ kv ∈ options := by
  unfold setOption at h
  split at h
  · obtain ⟨lw, hlw, rfl⟩ := List.mem_map.mp h
    split
    · exact Or.inl rfl
    · exact Or.inr hlw
  · rcases List.mem_append.mp h with h | h
    · exact Or.inr h
    · exact Or.inl (List.mem_singleton.mp h)

theorem head_setOption {options : Options} {kv : Str × Str} (h : options.head? = some kv)
    {key : Str} (hkey : kv.1 ≠ key) (value : Str) :
    (setOption options key value).head? = some kv := by
  obtain ⟨rest, rfl⟩ := List.head?_eq_some_iff.mp h
  unfold setOption
  split
  · rw [List.map_cons, if_neg hkey, List.head?_cons]
  · rfl

theorem head_popOption {options : Options} {kv : Str × Str} (h : options.head? = some kv)
    {key : Str} (hkey : kv.1 ≠ key) : (popOption options key).head? = some kv := by
  obtain ⟨rest, rfl⟩ := List.head?_eq_some_iff.mp h
  rw [popOption, List.filter_cons, if_pos (by simpa using hkey), List.head?_cons]

/-- Setting an option to its value changes nothing. -/
theorem setOption_of_lookup {options : Options} (hnodup : (options.map Prod.fst).Nodup)
    {key value : Str} (h : options.lookup key = some value) :
    setOption options key value = options := by
  rw [setOption, if_pos (by rw [h]; rfl)]
  refine (List.map_congr_left fun kv hkv => ?_).trans (List.map_id options)
  dsimp only [id]
  split
  · rename_i heq
    have hkv' := lookup_of_mem hnodup hkv
    rw [heq, h, Option.some.injEq] at hkv'
    exact Prod.ext heq.symm hkv'
  · rfl

theorem popOption_of_lookup {options : Options} {key : Str} (h : options.lookup key = none) :
    popOption options key = options := by
  rw [popOption, List.filter_eq_self]
  intro kv hkv
  have hkey : key ∉ options.map Prod.fst := by
    rw [← isSome_lookup_iff, h]
    decide
  simp only [decide_eq_true_eq]
  rintro rfl
  exact hkey (List.mem_map_of_mem hkv)

/-! ### Replacements of supported options -/

theorem ne_of_mem_networkModels {model : Str} (h : model ∈ networkModels) :
    model ≠ ("bridge" : Str) ∧ model ≠ ("tag" : Str) := by
  revert model
  decide

theorem Supported.setOption {options : Options} (h : Supported options) {key value : Str}
    (hmodel : key ∉ networkModels) (hkey : (optionKey.fullmatch key).isSome = true)
    (hvalue : value ≠ []) (hcomma : ',' ∉ value) (htrunks : key ≠ ("trunks" : Str))
    (hbridge : key = ("bridge" : Str) → isIdentifier value = true)
    (htag : key = ("tag" : Str) → isDigit value = true ∧ ∃ n, toInt value = some n ∧ 1 ≤ n ∧
      n ≤ 4094) : Supported (setOption options key value) := by
  obtain ⟨kv, hhead, hfirst, hmac⟩ := h.first
  have hne : kv.1 ≠ key := fun heq => hmodel (heq ▸ hfirst)
  refine ⟨⟨kv, head_setOption hhead hne value, hfirst, hmac⟩, ?_, nodup_setOption h.nodup key value,
    ?_, ?_, ?_⟩
  · intro lw hlw
    rcases mem_setOption hlw with rfl | hlw
    · exact ⟨hkey, hvalue, hcomma⟩
    · exact h.entry lw hlw
  · rw [lookup_setOption, if_neg htrunks.symm]
    exact h.untrunked
  · rw [lookup_setOption]
    split
    · rename_i heq
      exact hbridge heq.symm
    · exact h.bridge
  · intro t ht
    rw [lookup_setOption] at ht
    split at ht
    · rename_i heq
      cases ht
      exact htag heq.symm
    · exact h.tag t ht

theorem Supported.popTag {options : Options} (h : Supported options) :
    Supported (popOption options "tag") := by
  obtain ⟨kv, hhead, hfirst, hmac⟩ := h.first
  refine ⟨⟨kv, head_popOption hhead (ne_of_mem_networkModels hfirst).2, hfirst, hmac⟩, ?_,
    nodup_popOption h.nodup "tag", ?_, ?_, ?_⟩
  · exact fun lw hlw => h.entry lw (List.mem_of_mem_filter hlw)
  · rw [lookup_popOption, if_neg (by decide)]
    exact h.untrunked
  · rw [lookup_popOption, if_neg (by decide)]
    exact h.bridge
  · intro t ht
    rw [lookup_popOption, if_pos rfl] at ht
    cases ht

/-- A tag that a request can name. -/
def ValidTag (tag : Option ℕ) : Prop := ∀ n ∈ tag, 1 ≤ n ∧ n ≤ 4094

theorem notMem_of_isIdentifier {s : Str} (h : isIdentifier s = true) : s ≠ [] ∧ ',' ∉ s := by
  constructor
  · rintro rfl
    revert h
    decide
  · intro hcomma
    have := alnumOr_of_mem_identifier h hcomma
    revert this
    decide

section Replacement

variable {options : Options} {bridge : Str} {tag : Option ℕ}

theorem Supported.setBridge (h : Supported options) (hbridge : isIdentifier bridge = true) :
    Supported (NetworkReplacement.setOption options "bridge" bridge) :=
  h.setOption (by decide) (by decide) (notMem_of_isIdentifier hbridge).1
    (notMem_of_isIdentifier hbridge).2 (by decide) (fun _ => hbridge)
    (fun heq => absurd heq (by decide))

/-- Supported options with another bridge and another tag are supported. -/
theorem Supported.replaceOptions (h : Supported options) (hbridge : isIdentifier bridge = true)
    (htag : ValidTag tag) : Supported (replaceOptions options bridge tag) := by
  cases tag with
  | none => exact (h.setBridge hbridge).popTag
  | some n =>
      refine (h.setBridge hbridge).setOption (by decide) (by decide)
        (ofNat_ne_nil n) ?_ (by decide) (fun heq => absurd heq (by decide))
        fun _ => ⟨isDigit_ofNat n, n, toInt_ofNat n, htag n rfl⟩
      intro hcomma
      exact absurd (isAsciiDigit_of_mem_ofNat hcomma) (by decide)

end Replacement

theorem lookup_bridge (options : Options) (bridge : Str) (tag : Option ℕ) :
    (replaceOptions options bridge tag).lookup ("bridge" : Str) = some bridge := by
  cases tag with
  | none => rw [replaceOptions, lookup_popOption, if_neg (by decide), lookup_setOption, if_pos rfl]
  | some n => rw [replaceOptions, lookup_setOption, if_neg (by decide),
      lookup_setOption, if_pos rfl]

theorem lookup_tag (options : Options) (bridge : Str) (tag : Option ℕ) :
    (replaceOptions options bridge tag).lookup ("tag" : Str) = tag.map ofNat := by
  cases tag with
  | none => rw [replaceOptions, lookup_popOption, if_pos rfl, Option.map_none]
  | some n => rw [replaceOptions, lookup_setOption, if_pos rfl, Option.map_some]

theorem nodup_replaceOptions {options : Options} (h : (options.map Prod.fst).Nodup) (bridge : Str)
    (tag : Option ℕ) : ((replaceOptions options bridge tag).map Prod.fst).Nodup := by
  cases tag with
  | none => exact nodup_popOption (nodup_setOption h _ _) _
  | some n => exact nodup_setOption (nodup_setOption h _ _) _ _

/-- A second replacement changes nothing. -/
theorem replaceOptions_again {options : Options} (h : (options.map Prod.fst).Nodup) (bridge : Str)
    (tag : Option ℕ) : replaceOptions (replaceOptions options bridge tag) bridge tag =
      replaceOptions options bridge tag := by
  have hnodup := nodup_replaceOptions h bridge tag
  have hbridge := setOption_of_lookup hnodup (lookup_bridge options bridge tag)
  have htag := lookup_tag options bridge tag
  cases tag with
  | none =>
      rw [replaceOptions.eq_1 (replaceOptions options bridge none), hbridge]
      exact popOption_of_lookup htag
  | some n =>
      rw [replaceOptions.eq_2 (replaceOptions options bridge (some n)), hbridge]
      exact setOption_of_lookup hnodup htag

theorem head_replaceOptions {options : Options} (h : Supported options) (bridge : Str)
    (tag : Option ℕ) : (replaceOptions options bridge tag).head? = options.head? := by
  obtain ⟨kv, hhead, hfirst, -⟩ := h.first
  obtain ⟨hbridge, htag⟩ := ne_of_mem_networkModels hfirst
  have hset := head_setOption hhead hbridge bridge
  rw [hhead]
  cases tag with
  | none => exact head_popOption hset htag
  | some n => exact head_setOption hset htag _

/-! ### What a replacement keeps -/

/-- The options with another value under one key. -/
def withValue (options : Options) (key value : Str) : Options :=
  options.map fun kv => if kv.1 = key then (key, value) else kv

theorem popOption_withValue (options : Options) (key k value : Str) :
    popOption (withValue options key value) k = withValue (popOption options k) key value := by
  rw [popOption, withValue, List.filter_map, popOption, withValue]
  congr 1
  apply List.filter_congr
  intro kv _
  dsimp only [Function.comp_apply]
  split
  · rename_i heq
    rw [heq]
  · rfl

theorem popOption_setOption (options : Options) (key value : Str) :
    popOption (setOption options key value) key = popOption options key := by
  unfold setOption
  split
  · rename_i hsome
    clear hsome
    induction options with
    | nil => rfl
    | cons kv options ih =>
        rw [popOption, popOption] at ih
        rw [popOption, popOption, List.map_cons, List.filter_cons, List.filter_cons, ih]
        by_cases hkv : kv.1 = key <;> simp [hkv]
  · rw [popOption, List.filter_append, popOption]
    simp

/-- Apart from the tag a replacement only puts the new bridge in the place of the old one. -/
theorem popTag_replaceOptions {options : Options} (h : Supported options) (bridge : Str)
    (tag : Option ℕ) : popOption (replaceOptions options bridge tag) "tag" =
      withValue (popOption options "tag") "bridge" bridge := by
  have hsome : (options.lookup ("bridge" : Str)).isSome = true := by
    have hbridge := h.bridge
    cases hlookup : options.lookup ("bridge" : Str) with
    | some _ => rfl
    | none =>
        rw [hlookup] at hbridge
        revert hbridge
        decide
  have hset : setOption options "bridge" bridge = withValue options "bridge" bridge :=
    if_pos hsome
  cases tag with
  | none =>
      rw [replaceOptions, popOption_of_lookup (by rw [lookup_popOption, if_pos rfl]), hset,
        popOption_withValue]
  | some n => rw [replaceOptions, popOption_setOption, hset, popOption_withValue]

/-! ### Lengths -/

/-- The length of an option with its separators. -/
def entryLength (key : Str) (value : Option Str) : ℕ :=
  value.elim 0 fun v => key.length + v.length + 2

theorem length_printOption (kv : Str × Str) :
    (printOption kv).length + 1 = entryLength kv.1 (some kv.2) := by
  rw [printOption, List.length_append, List.length_cons, entryLength, Option.elim_some]
  omega

theorem lookup_eq_none_of_nodup {kv : Str × Str} {options : Options}
    (h : ((kv :: options).map Prod.fst).Nodup) : options.lookup kv.1 = none := by
  rw [← Option.not_isSome_iff_eq_none, isSome_lookup_iff]
  exact (List.nodup_cons.mp h).1

theorem totalLength_popOption {options : Options} (h : (options.map Prod.fst).Nodup)
    (key : Str) : totalLength ((popOption options key).map printOption) +
      entryLength key (options.lookup key) = totalLength (options.map printOption) := by
  induction options with
  | nil => rfl
  | cons kv options ih =>
      have ih := ih (List.nodup_cons.mp h).2
      have hnone := lookup_eq_none_of_nodup h
      rw [List.map_cons, totalLength_cons, ← ih, lookup_cons, length_printOption, popOption,
        List.filter_cons]
      by_cases hkv : kv.1 = key
      · rw [if_neg (by simpa using hkv), if_pos hkv.symm, ← hkv, hnone]
        simp only [entryLength, Option.elim_none, popOption]
        omega
      · rw [if_pos (by simpa using hkv), if_neg (Ne.symm hkv), List.map_cons, totalLength_cons,
          length_printOption]
        simp only [popOption]
        omega

theorem withValue_of_lookup {options : Options} {key : Str} (h : options.lookup key = none)
    (value : Str) : withValue options key value = options := by
  refine (List.map_congr_left fun kv hkv => ?_).trans (List.map_id options)
  have hkey : key ∉ options.map Prod.fst := by
    rw [← isSome_lookup_iff, h]
    decide
  exact if_neg fun heq : kv.1 = key => hkey (heq ▸ List.mem_map_of_mem hkv)

theorem totalLength_withValue {options : Options} (h : (options.map Prod.fst).Nodup)
    {key : Str} (hkey : (options.lookup key).isSome = true) (value : Str) :
    totalLength ((withValue options key value).map printOption) +
      entryLength key (options.lookup key) =
        totalLength (options.map printOption) + entryLength key (some value) := by
  induction options with
  | nil => cases hkey
  | cons kv options ih =>
      have hnone := lookup_eq_none_of_nodup h
      rw [lookup_cons] at hkey
      rw [lookup_cons, withValue, List.map_cons, List.map_cons, List.map_cons, totalLength_cons,
        totalLength_cons, length_printOption, length_printOption]
      by_cases hkv : kv.1 = key
      · rw [if_pos hkv, if_pos hkv.symm, ← hkv, ← withValue, withValue_of_lookup hnone]
        dsimp only
        omega
      · rw [if_neg (Ne.symm hkv)] at hkey
        have ih := ih (List.nodup_cons.mp h).2 hkey
        rw [withValue] at ih
        rw [if_neg hkv, if_neg (Ne.symm hkv)]
        omega

theorem totalLength_setOption {options : Options} (h : (options.map Prod.fst).Nodup)
    (key value : Str) : totalLength ((setOption options key value).map printOption) +
      entryLength key (options.lookup key) =
        totalLength (options.map printOption) + entryLength key (some value) := by
  unfold setOption
  split
  · rename_i hsome
    exact totalLength_withValue h hsome value
  · rename_i hnone
    have happend : ∀ (ws : List Str) (w : Str),
        totalLength (ws ++ [w]) = totalLength ws + (w.length + 1) := by
      intro ws w
      simp [totalLength]
    rw [List.map_append, List.map_singleton, happend, length_printOption,
      Option.not_isSome_iff_eq_none.mp hnone]
    simp [entryLength]

theorem length_printOptions {options : Options} (h : options ≠ []) :
    (printOptions options).length + 1 = totalLength (options.map printOption) :=
  length_join_add_one ',' (by simpa using h)

theorem length_replaceOptions {options : Options} (h : Supported options) {bridge : Str}
    {tag : Option ℕ} (hne : replaceOptions options bridge tag ≠ []) :
    (printOptions (replaceOptions options bridge tag)).length +
        entryLength "bridge" (options.lookup ("bridge" : Str)) +
        entryLength "tag" (options.lookup ("tag" : Str)) =
      (printOptions options).length + entryLength "bridge" (some bridge) +
        entryLength "tag" (tag.map ofNat) := by
  have hbefore := length_printOptions h.ne_nil
  have hafter := length_printOptions hne
  have hbridge := totalLength_setOption h.nodup "bridge" bridge
  have hnodup := nodup_setOption h.nodup "bridge" bridge
  have htag : (setOption options "bridge" bridge).lookup ("tag" : Str) =
      options.lookup ("tag" : Str) := by
    rw [lookup_setOption, if_neg (by decide)]
  cases tag with
  | none =>
      have hpop := totalLength_popOption hnodup "tag"
      rw [htag] at hpop
      rw [replaceOptions] at hafter ⊢
      rw [Option.map_none]
      change _ = _ + _ + 0
      omega
  | some n =>
      have hset := totalLength_setOption hnodup "tag" (ofNat n)
      rw [htag] at hset
      rw [replaceOptions] at hafter ⊢
      rw [Option.map_some]
      omega

/-! ### When a replacement is a device again -/

/-- The value of the first option of a text with the given key. -/
def optionText (net0 key : Str) : Option Str :=
  (splitAll ',' net0).findSome? fun part =>
    if (splitOnce '=' part).1 = key then (splitOnce '=' part).2 else none

theorem optionText_printOptions {options : Options} (h : Supported options) (key : Str) :
    optionText (printOptions options) key = options.lookup key := by
  have hparts : splitAll ',' (printOptions options) = options.map printOption :=
    ((forall₂_readPair).mp (mapM_eq_some.mp ((mapM_readPair h.ne_nil).mpr ⟨rfl, h.entry⟩))).1
  have hentry := h.entry
  rw [optionText, hparts, List.findSome?_map]
  clear h hparts
  induction options with
  | nil => rfl
  | cons kv options ih =>
      rw [List.forall_mem_cons] at hentry
      rw [lookup_cons, List.findSome?_cons, ih hentry.2]
      dsimp only [Function.comp_apply]
      rw [printOption, splitOnce_append (notMem_of_optionKey hentry.1.1).2]
      by_cases hkey : kv.1 = key
      · rw [if_pos hkey, if_pos hkey.symm]
      · rw [if_neg hkey, if_neg (Ne.symm hkey)]

/-- The text with the new bridge and the new tag in the place of the old ones is not too long. -/
def Fits (net0 bridge : Str) (tag : Option ℕ) : Prop :=
  net0.length + entryLength "bridge" (some bridge) + entryLength "tag" (tag.map ofNat) ≤
    2048 + entryLength "bridge" (optionText net0 "bridge") +
      entryLength "tag" (optionText net0 "tag")

/-- The text is a device with the given options in their order, except for the bridge and the
tag; another replacement leaves it as it is. -/
def ReplacesOnly (options : Options) (bridge : Str) (tag : Option ℕ) (out : Str) : Prop :=
  ∃ replaced, parseNet0 (.str out) = .ok replaced ∧
    popOption replaced "tag" = withValue (popOption options "tag") "bridge" bridge ∧
    replaced.lookup ("tag" : Str) = tag.map ofNat ∧
    replaced.head? = options.head? ∧
    replaceNetwork (.str out) bridge tag = .ok out

theorem replaceNetwork_eq_ok {net0 out bridge : Str} {tag : Option ℕ} {options : Options}
    (h : parseNet0 (.str net0) = .ok options) : replaceNetwork (.str net0) bridge tag = .ok out ↔
      out = printOptions (replaceOptions options bridge tag) := by
  rw [replaceNetwork, h]
  exact ⟨fun hout => (Except.ok.inj hout).symm, fun hout => congrArg Except.ok hout.symm⟩

/-- A replacement is a device again, with the other options as they were, if and only if it is
not too long. -/
theorem replaces_only_iff_fits {net0 bridge : Str} {tag : Option ℕ} {options : Options}
    (h : parseNet0 (.str net0) = .ok options) (hbridge : isIdentifier bridge = true)
    (htag : ValidTag tag) :
    (∃ out, replaceNetwork (.str net0) bridge tag = .ok out ∧
      ReplacesOnly options bridge tag out) ↔ Fits net0 bridge tag := by
  obtain ⟨hprint, -, hsupported⟩ := parseNet0_eq_ok.mp h
  rw [Value.str.injEq] at hprint
  have hreplaced := hsupported.replaceOptions hbridge htag
  have hlength := length_replaceOptions hsupported hreplaced.ne_nil
  have hfits : Fits net0 bridge tag ↔
      (printOptions (replaceOptions options bridge tag)).length ≤ 2048 := by
    rw [Fits, hprint, optionText_printOptions hsupported, optionText_printOptions hsupported]
    omega
  rw [hfits]
  constructor
  · rintro ⟨out, hout, replaced, haccepted, -⟩
    rw [(replaceNetwork_eq_ok h).mp hout] at haccepted
    obtain ⟨hsame, hshort, -⟩ := parseNet0_eq_ok.mp haccepted
    rw [Value.str.injEq] at hsame
    rwa [hsame]
  · intro hshort
    have haccepted : parseNet0 (.str (printOptions (replaceOptions options bridge tag))) =
        .ok (replaceOptions options bridge tag) :=
      parseNet0_eq_ok.mpr ⟨rfl, hshort, hreplaced⟩
    refine ⟨_, (replaceNetwork_eq_ok h).mpr rfl, _, haccepted,
      popTag_replaceOptions hsupported bridge tag, lookup_tag options bridge tag,
      head_replaceOptions hsupported bridge tag, (replaceNetwork_eq_ok haccepted).mpr ?_⟩
    rw [replaceOptions_again hsupported.nodup]

theorem replaces_only_iff_fits_tag :
    (∃ out, replaceNetwork (.str "virtio=52:54:00:12:34:56,bridge=vmbr0,firewall=1") "vmbr1"
        (some 20) = .ok out ∧ ReplacesOnly [("virtio", "52:54:00:12:34:56"), ("bridge", "vmbr0"),
          ("firewall", "1")] "vmbr1" (some 20) out) ↔
      Fits "virtio=52:54:00:12:34:56,bridge=vmbr0,firewall=1" "vmbr1" (some 20) :=
  replaces_only_iff_fits (by decide) (by decide) (by
    rintro n ⟨⟩
    decide)

/-- A device of the greatest length that is accepted. -/
def longestOptions : Options :=
  [("virtio", "52:54:00:12:34:56"), ("bridge", "vmbr9"), ("note", List.replicate 2005 'x')]

theorem supported_longestOptions : Supported longestOptions := by
  refine ⟨⟨_, rfl, by decide, by decide⟩, ?_, by decide, rfl,
    by decide, ?_⟩
  · intro kv hkv
    simp only [longestOptions, List.mem_cons, List.not_mem_nil, or_false] at hkv
    rcases hkv with rfl | rfl | rfl
    · decide
    · decide
    · refine ⟨by decide, List.ne_nil_of_length_pos ?_, fun hcomma => ?_⟩
      · rw [List.length_replicate]
        decide
      · exact absurd (List.eq_of_mem_replicate hcomma) (by decide)
  · intro t ht
    cases ht

/-- A bridge with a longer name makes the device too long to be accepted. -/
theorem replacement_too_long : ∃ options,
    parseNet0 (.str (printOptions longestOptions)) = .ok options ∧
      isIdentifier "vmbr10" = true ∧ ValidTag none ∧
      ¬ ∃ out, replaceNetwork (.str (printOptions longestOptions)) "vmbr10" none = .ok out ∧
        ReplacesOnly options "vmbr10" none out := by
  refine ⟨longestOptions, parseNet0_eq_ok.mpr ⟨rfl, by decide +kernel, supported_longestOptions⟩,
    by decide, by simp [ValidTag], ?_⟩
  rintro ⟨out, hout, replaced, haccepted, -⟩
  have hlong : 2048 < (printOptions (replaceOptions longestOptions "vmbr10" none)).length := by
    decide +kernel
  have hparsed : parseNet0 (.str (printOptions longestOptions)) = .ok longestOptions :=
    parseNet0_eq_ok.mpr ⟨rfl, by decide +kernel, supported_longestOptions⟩
  rw [(replaceNetwork_eq_ok hparsed).mp hout] at haccepted
  obtain ⟨hsame, hshort, -⟩ := parseNet0_eq_ok.mp haccepted
  rw [Value.str.injEq] at hsame
  rw [← hsame] at hshort
  omega

end Gjallar.NetworkReplacement
