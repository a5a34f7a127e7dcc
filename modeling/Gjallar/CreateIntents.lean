import Gjallar.CanonicalJson
import Gjallar.DictEquality
import Gjallar.RedactionOutlines

/-!
# Create VM intents

`vm_create_plan_intent` selects the stable fields of a plan after redaction, and `prepare` records
its digest with the operation. Two plans have one intent exactly when they differ at most under
secret keys, in texts that are withheld, and in the public keys and passwords of texts.
-/
namespace Gjallar.CreateIntents

open Gjallar.Text Gjallar.Data Gjallar.Operation Gjallar.Redaction Gjallar.RedactionTraces
  Gjallar.CanonicalJson

/-! ### What redaction keeps of a value -/

/-- The values differ at most under secret keys, in texts that are withheld and in the public keys
and passwords of texts. Numbers are compared as `==` does, so `True` is 1. -/
inductive Alike : Value → Value → Prop
  | null : Alike .null .null
  | number {v w : Value} {q : ℚ} (hv : v.number = some q) (hw : w.number = some q) : Alike v w
  | str {s t : Str} (h : Indistinct s t) : Alike (.str s) (.str t)
  | list {xs ys : List Value} (hlength : xs.length = ys.length)
      (h : ∀ (i : ℕ) (x y : Value), xs[i]? = some x → ys[i]? = some y → Alike x y) :
      Alike (.list xs) (.list ys)
  | dict {d e : Dict} (hkeys : ∀ key, Dict.has d key = Dict.has e key)
      (h : ∀ key x y, Dict.get d key = some x → Dict.get e key = some y →
        isSecretKey key = false → Alike x y) : Alike (.dict d) (.dict e)

theorem redactList_eq_map (vs : List Value) : redactList vs = vs.map redactSecrets := by
  induction vs with
  | nil => rfl
  | cons v vs ih => rw [redactList, ih, List.map_cons]

theorem canonicalList_eq_map (vs : List Value) : canonicalList vs = vs.map canonical := by
  induction vs with
  | nil => rfl
  | cons v vs ih => rw [canonicalList, ih, List.map_cons]

@[simp] theorem redactSecrets_list (xs : List Value) :
    redactSecrets (.list xs) = .list (xs.map redactSecrets) := by
  rw [redactSecrets, redactList_eq_map]

@[simp] theorem redactSecrets_float (q : ℚ) : redactSecrets (.float q) = .float q := rfl

theorem isJson_redactSecrets {v : Value} (h : v.IsJson) : (redactSecrets v).IsJson := by
  induction h with
  | null => exact .null
  | bool b => exact .bool b
  | int n => exact .int n
  | float q => exact .float q
  | str s => exact .str _
  | @list xs _ ih =>
      rw [redactSecrets_list]
      refine .list fun x hx => ?_
      obtain ⟨y, hy, rfl⟩ := List.mem_map.mp hx
      exact ih y hy
  | @dict d hkeys _ ih =>
      rw [redactSecrets_dict, sanitized_eq_map]
      refine .dict ?_ fun kv hkv => ?_
      · rwa [← sanitized_eq_map, keys_sanitized]
      · obtain ⟨kv', hmem, rfl⟩ := List.mem_map.mp hkv
        by_cases hsecret : isSecretKey kv'.1 = true
        · rw [if_pos hsecret]
          exact .str _
        · rw [if_neg hsecret]
          exact ih kv' hmem

/-- The same JSON values compare equal. -/
theorem eqv_of_sameJson {v w : Value} (hv : v.IsJson) (hw : w.IsJson) (h : SameJson v w) :
    v.eqv w = true := by
  rw [SameJson] at h
  induction hv generalizing w with
  | null => cases hw <;> first | rfl | simp [canonical] at h
  | bool b =>
      cases hw with
      | bool c =>
          cases h
          simp [Value.eqv, Value.number]
      | _ => simp [canonical] at h
  | int n =>
      cases hw with
      | int m =>
          cases h
          simp
      | _ => simp [canonical] at h
  | float q =>
      cases hw with
      | float r =>
          simp only [canonical, Value.float.injEq] at h
          simp [Value.eqv, Value.number, h]
      | _ => simp [canonical] at h
  | str s =>
      cases hw with
      | str t =>
          cases h
          simp
      | _ => simp [canonical] at h
  | @list xs _ ih =>
      cases hw with
      | @list ys hys =>
          simp only [canonical, canonicalList_eq_map, Value.list.injEq] at h
          rw [Value.eqv, Value.eqvList_iff]
          refine ⟨by simpa using congrArg List.length h, fun i x y hx hy => ?_⟩
          have hitem := congrArg (fun l => l[i]?) h
          simp only [List.getElem?_map, hx, hy, Option.map_some, Option.some.injEq] at hitem
          exact ih x (List.mem_of_getElem? hx) (hys y (List.mem_of_getElem? hy)) hitem
      | _ => simp [canonical] at h
  | @dict d hkeys _ ih =>
      cases hw with
      | @dict e hkeys' hentries =>
          rw [Value.eqv_dict_iff hkeys hkeys']
          intro key
          have hget := sameJson_dict_iff.mp h key
          cases hd : Dict.get d key with
          | none =>
              cases he : Dict.get e key with
              | none => exact .none
              | some y => simp [hd, he] at hget
          | some x =>
              cases he : Dict.get e key with
              | none => simp [hd, he] at hget
              | some y =>
                  simp only [hd, he, Option.map_some, Option.some.injEq] at hget
                  exact .some (ih _ (Dict.mem_of_get hd) (hentries _ (Dict.mem_of_get he)) hget)
      | _ => simp [canonical] at h

theorem eqv_number {v w : Value} {p : ℚ} (hv : v.number = some p) :
    v.eqv w = true ↔ w.number = some p := by
  cases v <;> cases hv <;> cases w <;>
    simp only [Value.eqv, Value.number, beq_iff_eq, Option.some.injEq, reduceCtorEq,
      Bool.false_eq_true] <;>
    exact eq_comm

theorem number_redactSecrets (v : Value) : (redactSecrets v).number = v.number := by
  cases v with
  | list xs => rw [redactSecrets_list]; rfl
  | tuple xs => rw [redactSecrets]; rfl
  | _ => rfl

theorem eqv_redactSecrets_number {v w : Value} {p : ℚ} (hp : v.number = some p) :
    (redactSecrets v).eqv (redactSecrets w) = true ↔ Alike v w := by
  rw [eqv_number ((number_redactSecrets v).trans hp), number_redactSecrets]
  constructor
  · exact .number hp
  · intro h
    cases h with
    | number hv hw => rw [hw, ← hv, hp]
    | _ => cases hp

theorem eqv_redactSecrets_str {s : Str} {w : Value} (hw : w.IsJson) :
    (redactSecrets (.str s)).eqv (redactSecrets w) = true ↔ Alike (.str s) w := by
  constructor
  · intro h
    cases hw with
    | str t =>
        rw [redactSecrets_str, redactSecrets_str, Value.eqv_str, beq_iff_eq,
          redactString_eq_iff] at h
        exact .str h
    | _ => simp [Value.eqv, Value.number] at h
  · intro h
    cases h with
    | str h =>
        rw [redactSecrets_str, redactSecrets_str, Value.eqv_str, beq_iff_eq,
          redactString_eq_iff]
        exact h
    | number hv => cases hv

theorem eqv_redactSecrets_list {xs : List Value} {w : Value}
    (ih : ∀ x ∈ xs, ∀ {y : Value}, y.IsJson →
      ((redactSecrets x).eqv (redactSecrets y) = true ↔ Alike x y)) (hw : w.IsJson) :
    (redactSecrets (.list xs)).eqv (redactSecrets w) = true ↔ Alike (.list xs) w := by
  constructor
  · intro h
    cases hw with
    | @list ys hys =>
        rw [redactSecrets_list, redactSecrets_list, Value.eqv, Value.eqvList_iff,
          List.length_map, List.length_map] at h
        refine .list h.1 fun i x y hx hy => ?_
        refine (ih x (List.mem_of_getElem? hx) (hys y (List.mem_of_getElem? hy))).mp ?_
        exact h.2 i _ _ (by rw [List.getElem?_map, hx]; rfl)
          (by rw [List.getElem?_map, hy]; rfl)
    | _ => simp [Value.eqv, Value.number] at h
  · intro h
    cases h with
    | @list _ ys hlength h =>
        cases hw with
        | list hys =>
            rw [redactSecrets_list, redactSecrets_list, Value.eqv, Value.eqvList_iff,
              List.length_map, List.length_map]
            refine ⟨hlength, fun i x y hx hy => ?_⟩
            rw [List.getElem?_map, Option.map_eq_some_iff] at hx hy
            obtain ⟨x', hx, rfl⟩ := hx
            obtain ⟨y', hy, rfl⟩ := hy
            exact (ih x' (List.mem_of_getElem? hx) (hys y' (List.mem_of_getElem? hy))).mpr
              (h i x' y' hx hy)
    | number hv => cases hv

theorem eqv_redactSecrets_dict {d : Dict} {w : Value} (hkeys : (Dict.keys d).Nodup)
    (ih : ∀ kv ∈ d, ∀ {y : Value}, y.IsJson →
      ((redactSecrets kv.2).eqv (redactSecrets y) = true ↔ Alike kv.2 y)) (hw : w.IsJson) :
    (redactSecrets (.dict d)).eqv (redactSecrets w) = true ↔ Alike (.dict d) w := by
  constructor
  · intro h
    cases hw with
    | @dict e hkeys' hentries =>
        rw [redactSecrets_dict, redactSecrets_dict, Value.eqv_dict_iff (by simpa using hkeys)
          (by simpa using hkeys')] at h
        refine .dict (fun key => ?_) fun key x y hx hy hsecret => ?_
        · have hkey := h key
          rw [get_sanitized, get_sanitized] at hkey
          rw [Dict.has_iff, Dict.has_iff]
          revert hkey
          cases Dict.get d key <;> cases Dict.get e key <;> intro hkey <;> cases hkey <;> rfl
        · have hkey := h key
          rw [get_sanitized, get_sanitized, hx, hy, Option.map_some, Option.map_some,
            hsecret] at hkey
          cases hkey with
          | some hkey => exact (ih _ (Dict.mem_of_get hx) (hentries _ (Dict.mem_of_get hy))).mp hkey
    | _ => simp [Value.eqv, Value.number] at h
  · intro h
    cases h with
    | @dict _ e hhas h =>
        cases hw with
        | dict hkeys' hentries =>
            rw [redactSecrets_dict, redactSecrets_dict, Value.eqv_dict_iff
              (by simpa using hkeys) (by simpa using hkeys')]
            intro key
            have hkey := hhas key
            rw [Dict.has_iff, Dict.has_iff] at hkey
            rw [get_sanitized, get_sanitized]
            cases hx : Dict.get d key with
            | none =>
                cases hy : Dict.get e key with
                | none => exact .none
                | some y => simp [hx, hy] at hkey
            | some x =>
                cases hy : Dict.get e key with
                | none => simp [hx, hy] at hkey
                | some y =>
                    refine .some ?_
                    cases hsecret : isSecretKey key with
                    | true => simp
                    | false =>
                        exact (ih _ (Dict.mem_of_get hx)
                          (hentries _ (Dict.mem_of_get hy))).mpr (h key x y hx hy hsecret)
    | number hv => cases hv

/-- Redaction keeps no difference exactly between alike values. -/
theorem eqv_redactSecrets_iff {v w : Value} (hv : v.IsJson) (hw : w.IsJson) :
    (redactSecrets v).eqv (redactSecrets w) = true ↔ Alike v w := by
  induction hv generalizing w with
  | bool b => exact eqv_redactSecrets_number rfl
  | int n => exact eqv_redactSecrets_number rfl
  | float q => exact eqv_redactSecrets_number rfl
  | null =>
      constructor
      · intro h
        cases hw with
        | null => exact .null
        | _ => simp [Value.eqv, Value.number] at h
      · intro h
        cases h with
        | null => rfl
        | number hv => cases hv
  | str s => exact eqv_redactSecrets_str hw
  | list _ ih => exact eqv_redactSecrets_list ih hw
  | dict hkeys _ ih => exact eqv_redactSecrets_dict hkeys ih hw

/-! ### The intent of a plan -/

/-- `_PLAN_INTENT_KEYS`. -/
def planIntentKeys : List Str :=
  ["draft_id", "job_id", "manifest_id", "profile_id", "vm_name", "vmid", "target_node_id",
    "storage_id", "template_id", "hardware", "profile_hardware_limits", "network", "access",
    "selected_template", "selected_bridge", "first_power_on_included", "power_policy",
    "smoke_timeout_summary", "risk_summary"]

/-- `_REVIEW_INTENT_KEYS`. -/
def reviewIntentKeys : List Str :=
  ["profile_id", "vm_name", "vmid", "target_node_id", "storage_id", "template_id",
    "template_vmid", "template_node_id", "hardware", "profile_hardware_limits", "network",
    "access", "selected_template", "selected_bridge", "first_power_on_included", "power_policy",
    "smoke_timeout_summary", "risk_summary", "planned_git_diff_summary"]

/-- `{key: d.get(key) for key in keys if key in d}`. -/
def select (keys : List Str) (d : Dict) : Dict :=
  keys.filterMap fun key => (Dict.get d key).map fun v => (key, v)

/-- The `review_confirm` entry, when it is a dictionary. -/
def review (payload : Dict) : Option Dict := (Dict.get payload "review_confirm").bind Value.asDict

/-- `vm_create_plan_intent` of a payload. -/
def vmCreatePlanIntent (payload : Dict) : Dict :=
  let redactedPayload := sanitized payload
  let intent := select planIntentKeys redactedPayload
  match review redactedPayload with
  | some review => intent ++ [(("review_confirm" : Str), .dict (select reviewIntentKeys review))]
  | none => intent

theorem get_select (keys : List Str) (d : Dict) (key : Str) :
    Dict.get (select keys d) key = if key ∈ keys then Dict.get d key else none := by
  induction keys with
  | nil => rfl
  | cons k keys ih =>
      rw [select, List.filterMap_cons]
      by_cases hkey : key = k
      · subst hkey
        cases hd : Dict.get d key with
        | none =>
            change Dict.get (select keys d) key = _
            rw [ih, hd]
            simp
        | some v => simp
      · have hmem : (key ∈ k :: keys) ↔ key ∈ keys := by simp [hkey]
        cases hd : Dict.get d k with
        | none =>
            change Dict.get (select keys d) key = _
            simp only [ih, hmem]
        | some v =>
            change Dict.get ((k, v) :: select keys d) key = _
            rw [Dict.get_cons, if_neg hkey, ih]
            simp only [hmem]

theorem isSecretKey_of_mem {key : Str} (h : key ∈ planIntentKeys ++ reviewIntentKeys) :
    isSecretKey key = false := by
  have hall : ∀ k ∈ planIntentKeys ++ reviewIntentKeys, isSecretKey k = false := by
    decide
  exact hall key h

/-- The review of the redacted payload is the redacted review. -/
theorem review_sanitized (payload : Dict) :
    review (sanitized payload) = (review payload).map sanitized := by
  have hkey : isSecretKey "review_confirm" = false := by decide
  rw [review, review, get_sanitized, hkey]
  cases Dict.get payload "review_confirm" with
  | none => rfl
  | some v => cases v <;> simp [redactSecrets, Value.asDict, sanitized]

theorem vmCreatePlanIntent_eq (payload : Dict) :
    vmCreatePlanIntent payload = select planIntentKeys (sanitized payload) ++
      (review payload).elim []
        fun r => [(("review_confirm" : Str), .dict (select reviewIntentKeys (sanitized r)))] := by
  simp only [vmCreatePlanIntent, review_sanitized]
  cases review payload with
  | none => exact (List.append_nil _).symm
  | some r => rfl

theorem not_mem_planIntentKeys : ("review_confirm" : Str) ∉ planIntentKeys := by decide

theorem get_vmCreatePlanIntent (payload : Dict) {key : Str} (h : key ∈ planIntentKeys) :
    Dict.get (vmCreatePlanIntent payload) key = (Dict.get payload key).map redactSecrets := by
  have hsecret := isSecretKey_of_mem (List.mem_append_left reviewIntentKeys h)
  have hreview : key ≠ "review_confirm" := fun heq => not_mem_planIntentKeys (heq ▸ h)
  rw [vmCreatePlanIntent_eq, Dict.get_append, get_select, if_pos h, get_sanitized, hsecret]
  cases review payload with
  | none => exact Option.or_none
  | some r =>
      rw [Option.elim_some, Dict.get_cons, if_neg hreview, Dict.get_nil, Option.or_none]
      rfl

theorem get_review_confirm (payload : Dict) :
    Dict.get (vmCreatePlanIntent payload) "review_confirm" =
      (review payload).map fun r => .dict (select reviewIntentKeys (sanitized r)) := by
  rw [vmCreatePlanIntent_eq, Dict.get_append, get_select, if_neg not_mem_planIntentKeys,
    Option.none_or]
  cases review payload with
  | none => rfl
  | some r => rw [Option.elim_some, Dict.get_cons, if_pos rfl, Option.map_some]

theorem get_eq_none (payload : Dict) {key : Str} (h : key ∉ planIntentKeys)
    (hne : key ≠ "review_confirm") : Dict.get (vmCreatePlanIntent payload) key = none := by
  rw [vmCreatePlanIntent_eq, Dict.get_append, get_select, if_neg h, Option.none_or]
  cases review payload with
  | none => rfl
  | some r => rw [Option.elim_some, Dict.get_cons, if_neg hne, Dict.get_nil]

theorem get_select_review (r : Dict) {key : Str} (h : key ∈ reviewIntentKeys) :
    Dict.get (select reviewIntentKeys (sanitized r)) key = (Dict.get r key).map redactSecrets := by
  have hsecret := isSecretKey_of_mem (List.mem_append_right planIntentKeys h)
  rw [get_select, if_pos h, get_sanitized, hsecret]
  rfl

/-! ### Two payloads -/

/-- `a == b` for entries that may be missing. -/
def SameEntry (x y : Option Value) : Prop := Option.Rel (fun v w => v.eqv w = true) x y

/-- The payloads differ in an intent field. -/
def IntentDiffers (p q : Dict) : Prop :=
  (∃ key ∈ planIntentKeys, ¬ SameEntry (Dict.get p key) (Dict.get q key)) ∨
    ∃ key ∈ reviewIntentKeys, ¬ SameEntry ((review p).bind fun r => Dict.get r key)
      ((review q).bind fun r => Dict.get r key)

/-- The intent fields of the payloads differ at most in what redaction drops. -/
structure Conflated (p q : Dict) : Prop where
  plan : ∀ key ∈ planIntentKeys, Option.Rel Alike (Dict.get p key) (Dict.get q key)
  review : Option.Rel
    (fun r s => ∀ key ∈ reviewIntentKeys, Option.Rel Alike (Dict.get r key) (Dict.get s key))
    (review p) (review q)

/-- The two intents compare equal. -/
def SameIntent (p q : Dict) : Prop :=
  (Value.dict (vmCreatePlanIntent p)).eqv (.dict (vmCreatePlanIntent q)) = true

instance (p q : Dict) : Decidable (SameIntent p q) := inferInstanceAs (Decidable (_ = _))

theorem isJson_of_get {d : Dict} (h : (Value.dict d).IsJson) {key : Str} {v : Value}
    (hv : Dict.get d key = some v) : v.IsJson := by
  cases h with
  | dict _ h => exact h _ (Dict.mem_of_get hv)

theorem isJson_of_review {p r : Dict} (h : (Value.dict p).IsJson) (hr : review p = some r) :
    (Value.dict r).IsJson := by
  obtain ⟨v, hv, hdict⟩ := Option.bind_eq_some_iff.mp hr
  cases v with
  | dict d =>
      cases hdict
      exact isJson_of_get h hv
  | _ => cases hdict

/-- Entries behind redaction. -/
theorem rel_redactSecrets_iff {x y : Option Value} (hx : ∀ v, x = some v → v.IsJson)
    (hy : ∀ v, y = some v → v.IsJson) :
    SameEntry (x.map redactSecrets) (y.map redactSecrets) ↔ Option.Rel Alike x y := by
  rw [SameEntry]
  constructor
  · intro h
    cases x with
    | none =>
        cases y with
        | none => exact .none
        | some w => cases h
    | some v =>
        cases y with
        | none => cases h
        | some w =>
            cases h with
            | some h => exact .some ((eqv_redactSecrets_iff (hx v rfl) (hy w rfl)).mp h)
  · intro h
    cases h with
    | none => exact .none
    | some h => exact .some ((eqv_redactSecrets_iff (hx _ rfl) (hy _ rfl)).mpr h)

theorem keys_select (keys : List Str) (d : Dict) :
    (Dict.keys (select keys d)).Sublist keys := by
  induction keys with
  | nil => exact .slnil
  | cons k keys ih =>
      rw [select, List.filterMap_cons]
      cases Dict.get d k with
      | none => exact ih.cons k
      | some v => exact ih.cons_cons k

theorem isJson_select (keys : List Str) (hnodup : keys.Nodup) {d : Dict}
    (h : (Value.dict d).IsJson) : (Value.dict (select keys d)).IsJson := by
  refine .dict ((keys_select keys d).nodup hnodup) fun kv hkv => ?_
  obtain ⟨key, -, hkv⟩ := List.mem_filterMap.mp hkv
  obtain ⟨v, hv, rfl⟩ := Option.map_eq_some_iff.mp hkv
  exact isJson_of_get h hv

theorem isJson_sanitized {d : Dict} (h : (Value.dict d).IsJson) :
    (Value.dict (sanitized d)).IsJson := isJson_redactSecrets h

theorem nodup_reviewIntentKeys : reviewIntentKeys.Nodup := by decide

/-- The intent of a JSON payload is a JSON value. -/
theorem isJson_vmCreatePlanIntent {p : Dict} (h : (Value.dict p).IsJson) :
    (Value.dict (vmCreatePlanIntent p)).IsJson := by
  have hnodup : (planIntentKeys ++ [("review_confirm" : Str)]).Nodup := by decide
  have hplan := isJson_select planIntentKeys (by decide) (isJson_sanitized h)
  rw [vmCreatePlanIntent_eq]
  cases hr : review p with
  | none => simpa using hplan
  | some r =>
      cases hplan with
      | dict hkeys hentries =>
          refine .dict ?_ fun kv hkv => ?_
          · rw [Dict.keys, List.map_append]
            exact ((keys_select planIntentKeys _).append (List.Sublist.refl _)).nodup hnodup
          · rcases List.mem_append.mp hkv with hkv | hkv
            · exact hentries kv hkv
            · rw [List.mem_singleton.mp hkv]
              exact isJson_select _ nodup_reviewIntentKeys
                (isJson_sanitized (isJson_of_review h hr))

theorem eqv_select_review_iff {r s : Dict} (hr : (Value.dict r).IsJson)
    (hs : (Value.dict s).IsJson) :
    (Value.dict (select reviewIntentKeys (sanitized r))).eqv
        (.dict (select reviewIntentKeys (sanitized s))) = true ↔
      ∀ key ∈ reviewIntentKeys, Option.Rel Alike (Dict.get r key) (Dict.get s key) := by
  have hkeys : ∀ d : Dict, (Dict.keys (select reviewIntentKeys (sanitized d))).Nodup := fun d =>
    (keys_select reviewIntentKeys _).nodup nodup_reviewIntentKeys
  rw [Value.eqv_dict_iff (hkeys r) (hkeys s)]
  constructor
  · intro h key hkey
    have hget := h key
    rw [get_select_review r hkey, get_select_review s hkey] at hget
    exact (rel_redactSecrets_iff (fun _ => isJson_of_get hr) fun _ => isJson_of_get hs).mp hget
  · intro h key
    by_cases hkey : key ∈ reviewIntentKeys
    · rw [get_select_review r hkey, get_select_review s hkey]
      exact (rel_redactSecrets_iff (fun _ => isJson_of_get hr) fun _ => isJson_of_get hs).mpr
        (h key hkey)
    · rw [get_select, get_select, if_neg hkey, if_neg hkey]
      exact .none

/-- The intents of two payloads compare equal exactly when redaction conflates the payloads. -/
theorem sameIntent_iff {p q : Dict} (hp : (Value.dict p).IsJson) (hq : (Value.dict q).IsJson) :
    SameIntent p q ↔ Conflated p q := by
  have hkeys : ∀ {d : Dict}, (Value.dict d).IsJson → (Dict.keys d).Nodup := fun h => by
    cases h with
    | dict hkeys _ => exact hkeys
  rw [SameIntent, Value.eqv_dict_iff (hkeys (isJson_vmCreatePlanIntent hp))
    (hkeys (isJson_vmCreatePlanIntent hq))]
  constructor
  · intro h
    constructor
    · intro key hkey
      have hget := h key
      rw [get_vmCreatePlanIntent p hkey, get_vmCreatePlanIntent q hkey] at hget
      exact (rel_redactSecrets_iff (fun _ => isJson_of_get hp) fun _ => isJson_of_get hq).mp hget
    · have hget := h "review_confirm"
      rw [get_review_confirm, get_review_confirm] at hget
      cases hr : review p with
      | none =>
          cases hs : review q with
          | none => exact .none
          | some s =>
              rw [hr, hs] at hget
              cases hget
      | some r =>
          cases hs : review q with
          | none =>
              rw [hr, hs] at hget
              cases hget
          | some s =>
              rw [hr, hs] at hget
              cases hget with
              | some hget =>
                  exact .some ((eqv_select_review_iff (isJson_of_review hp hr)
                    (isJson_of_review hq hs)).mp hget)
  · intro h key
    by_cases hkey : key ∈ planIntentKeys
    · rw [get_vmCreatePlanIntent p hkey, get_vmCreatePlanIntent q hkey]
      exact (rel_redactSecrets_iff (fun _ => isJson_of_get hp) fun _ => isJson_of_get hq).mpr
        (h.plan key hkey)
    · by_cases hreview : key = "review_confirm"
      · subst hreview
        rw [get_review_confirm, get_review_confirm]
        have hrel := h.review
        cases hr : review p with
        | none =>
            cases hs : review q with
            | none => exact .none
            | some s =>
                rw [hr, hs] at hrel
                cases hrel
        | some r =>
            cases hs : review q with
            | none =>
                rw [hr, hs] at hrel
                cases hrel
            | some s =>
                rw [hr, hs] at hrel
                cases hrel with
                | some hrel =>
                    exact .some ((eqv_select_review_iff (isJson_of_review hp hr)
                      (isJson_of_review hq hs)).mpr hrel)
      · rw [get_eq_none p hkey hreview, get_eq_none q hkey hreview]
        exact .none

end Gjallar.CreateIntents
