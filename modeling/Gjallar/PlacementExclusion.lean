import Gjallar.Placement

/-!
# What the recommendations exclude

Every recommendation relieves a hot node, and there are ten in all at most. A VM that a red risk
names is left out when the name stands in one of the fields that are read, and a node has three
recommendations at most when no other record has its id.
-/
namespace Gjallar.Placement

open Gjallar.Text Gjallar.TextLines Gjallar.Data Gjallar.StableRanks

variable (repr : Value → Str)

/-! ### The exclusion -/

/-- The values of all the names that are present. -/
def present (source : Value) (names : List Str) : List Value := names.filterMap (readField source)

/-- The texts of all the identifier fields of a risk, at the top level and in its details. -/
def carriedFields (risk : Value) : List Str :=
  ((present risk (vmidNames ++ resourceNames) ++
    (present risk detailKeys).flatMap fun detail => present detail detailNames).map
      fun v => asText repr v).filter fun s => !s.isEmpty

/-- One of the levels of the risk is red. -/
def DeclaresRed (risk : Value) : Prop :=
  ∃ v ∈ present risk levelNames, normalizeStatus repr v = "red"

/-- A red risk names the VM in one of its identifier fields. -/
def NamedByRed (risks : List Value) (vm : Vm) : Prop :=
  ∃ risk ∈ risks, DeclaresRed repr risk ∧ ∃ text ∈ carriedFields repr risk,
    namesVm vm text = true

/-- A red risk names the VM, but in no field that is read of a risk that is read as red. -/
def Hidden (risks : List Value) (vm : Vm) : Prop :=
  NamedByRed repr risks vm ∧ hasRedRisk repr vm risks = false

/-- One of the names stands behind another name with another value. -/
def Shadowed (source : Value) (names : List Str) : Prop :=
  ∃ v ∈ present source names, field? source names ≠ some v

/-- A level or a field of the risk is not read, since another name of its group is. -/
def Ambiguous (risk : Value) : Prop :=
  (∃ names ∈ [levelNames, vmidNames, resourceNames, detailKeys], Shadowed risk names) ∨
    ∃ detail ∈ present risk detailKeys, Shadowed detail detailNames

section Hidden

variable {repr : Value → Str} {risk source : Value} {names : List Str}

theorem field_of_not_shadowed (h : ¬ Shadowed source names) {v : Value}
    (hv : v ∈ present source names) (default : Value) : field source names default = v := by
  have hread : field? source names = some v := not_not.mp fun hne => h ⟨v, hv, hne⟩
  rw [field, hread]
  rfl

theorem mem_riskFields {v : Value} (hne : (asText repr v).isEmpty = false)
    (h : v = field risk vmidNames (.str []) ∨ v = field risk resourceNames (.str []) ∨
      v = field (field risk detailKeys (.dict [])) detailNames (.str [])) :
    asText repr v ∈ riskFields repr risk := by
  refine List.mem_filter.mpr ⟨List.mem_map_of_mem ?_, by rw [hne]; rfl⟩
  simpa using h

/-- The fields of a risk that is not ambiguous are all read. -/
theorem carried_of_not_ambiguous (h : ¬ Ambiguous risk) {text : Str}
    (htext : text ∈ carriedFields repr risk) : text ∈ riskFields repr risk := by
  rw [Ambiguous, not_or] at h
  have hplain : ∀ names ∈ [levelNames, vmidNames, resourceNames, detailKeys],
      ¬ Shadowed risk names := fun names hnames hs => h.1 ⟨names, hnames, hs⟩
  obtain ⟨hmem, hne⟩ := List.mem_filter.mp htext
  obtain ⟨v, hv, rfl⟩ := List.mem_map.mp hmem
  refine mem_riskFields (by simpa using hne) ?_
  rcases List.mem_append.mp hv with hv | hv
  · rw [present, List.filterMap_append] at hv
    rcases List.mem_append.mp hv with hv | hv
    · exact .inl (field_of_not_shadowed (hplain vmidNames (by simp)) hv _).symm
    · exact .inr (.inl (field_of_not_shadowed (hplain resourceNames (by simp)) hv _).symm)
  · obtain ⟨detail, hdetail, hv⟩ := List.mem_flatMap.mp hv
    have hfield := field_of_not_shadowed (hplain detailKeys (by simp)) hdetail (.dict [])
    have hinner : ¬ Shadowed detail detailNames := fun hs => h.2 ⟨detail, hdetail, hs⟩
    rw [hfield]
    exact .inr (.inr (field_of_not_shadowed hinner hv _).symm)

/-- A VM is hidden by risks of one kind only: those with two names of one group. -/
theorem ambiguous_of_hidden {risks : List Value} {vm : Vm} (h : Hidden repr risks vm) :
    ∃ risk ∈ risks, DeclaresRed repr risk ∧ Ambiguous risk := by
  obtain ⟨⟨risk, hrisk, hred, text, htext, hnames⟩, hread⟩ := h
  refine ⟨risk, hrisk, hred, not_not.mp fun hplain => ?_⟩
  obtain ⟨v, hv, hlevel⟩ := hred
  have hlevels : ¬ Shadowed risk levelNames := fun hs =>
    hplain (.inl ⟨levelNames, List.mem_cons_self, hs⟩)
  have hriskLevel : riskLevel repr risk = "red" := by
    rw [riskLevel, field_of_not_shadowed hlevels hv, hlevel]
  have htargets : riskTargetsVm repr risk vm = true :=
    List.any_eq_true.mpr ⟨text, carried_of_not_ambiguous hplain htext, hnames⟩
  have hfound : hasRedRisk repr vm risks = true :=
    List.any_eq_true.mpr ⟨risk, hrisk, by rw [hriskLevel, htargets]; rfl⟩
  rw [hread] at hfound
  cases hfound

end Hidden

/-! ### Offers -/

/-- A VM that is offered for a move, with the positions of its record and of the two nodes. -/
structure Offer where
  source : Node × ℕ
  target : Node × ℕ
  vm : Vm × ℕ

def Offer.recommendation (nodes : List Node) (o : Offer) : Recommendation :=
  buildCandidate nodes o.vm.1 o.source.1 o.target.1

/-- The order in which the offers are made. -/
def MadeBefore (a b : Offer) : Prop :=
  Ahead hottestFirst a.source b.source ∨ a.source = b.source ∧ Ahead largestFirst a.vm b.vm

/-- The order of the recommendations, and the order in which they are made. -/
def Preferred (nodes : List Node) : Offer → Offer → Prop :=
  Stably (fun a b => recommendedFirst (a.recommendation nodes) (b.recommendation nodes)) MadeBefore

section Selection

variable (nodes : List Node) (vms : List Vm) (risks : List Value)

/-- One of the three largest movable VMs of a hot node, for the coolest target of the node. -/
structure Offered (o : Offer) : Prop where
  source_mem : o.source ∈ nodes.zipIdx
  hot : isHot o.source.1 = true
  target : FirstOf (isTarget o.source.1) coolestFirst nodes 1 o.target
  vm : FirstOf (isMovable repr risks o.source.1) largestFirst vms 3 o.vm

/-- An offer with fewer than ten preferred to it. -/
def Recommended (o : Offer) : Prop :=
  Offered repr nodes vms risks o ∧
    {a | Offered repr nodes vms risks a ∧ Preferred nodes a o}.ncard < 10

/-- The offers of a source, made as its recommendations are. -/
def offersOf (source : Node × ℕ) : List Offer :=
  ((entriesBy (isTarget source.1) coolestFirst nodes).take 1).flatMap fun target =>
    ((entriesBy (isMovable repr risks source.1) largestFirst vms).take 3).map fun vm =>
      ⟨source, target, vm⟩

def offers : List Offer :=
  (entriesBy isHot hottestFirst nodes).flatMap (offersOf repr nodes vms risks)

/-- The offers that the recommendations are built from. -/
def chosen : List Offer :=
  ((offers repr nodes vms risks).insertionSort fun a b =>
    recommendedFirst (a.recommendation nodes) (b.recommendation nodes)).take 10

variable {repr nodes vms risks} {source : Node × ℕ} {o : Offer}

theorem map_offersOf : (offersOf repr nodes vms risks source).map (Offer.recommendation nodes) =
    candidatesOf repr nodes vms risks source.1 := by
  have htargets : (entriesBy (isTarget source.1) coolestFirst nodes).map Prod.fst =
      targetNodes nodes source.1 := map_entriesBy
  have hvms : (entriesBy (isMovable repr risks source.1) largestFirst vms).map Prod.fst =
      sourceVms repr vms risks source.1 := map_entriesBy
  rw [offersOf, candidatesOf, ← htargets, ← hvms]
  cases entriesBy (isTarget source.1) coolestFirst nodes with
  | nil => rfl
  | cons target rest =>
      simp only [List.take_succ_cons, List.take_zero, List.flatMap_singleton, List.map_cons,
        List.map_map, ← List.map_take]
      rfl

theorem map_offers : (offers repr nodes vms risks).map (Offer.recommendation nodes) =
    candidates repr nodes vms risks := by
  have hsources : (entriesBy isHot hottestFirst nodes).map Prod.fst = hotNodes nodes :=
    map_entriesBy
  rw [offers, candidates, ← hsources, List.map_flatMap, List.flatMap_map]
  exact congrArg (List.flatMap · _) (funext fun source => map_offersOf)

/-- The recommendations are built from the chosen offers. -/
theorem map_chosen : (chosen repr nodes vms risks).map (Offer.recommendation nodes) =
    buildRecommendations repr nodes vms risks := by
  rw [chosen, buildRecommendations, List.map_take, ← map_offers,
    List.map_insertionSort _ recommendedFirst _ _ fun _ _ _ _ => Iff.rfl]

theorem mem_offersOf : o ∈ offersOf repr nodes vms risks source ↔ o.source = source ∧
    FirstOf (isTarget source.1) coolestFirst nodes 1 o.target ∧
    FirstOf (isMovable repr risks source.1) largestFirst vms 3 o.vm := by
  simp only [offersOf, List.mem_flatMap, List.mem_map, mem_take_entriesBy]
  constructor
  · rintro ⟨target, htarget, vm, hvm, rfl⟩
    exact ⟨rfl, htarget, hvm⟩
  · rintro ⟨rfl, htarget, hvm⟩
    exact ⟨o.target, htarget, o.vm, hvm, rfl⟩

theorem mem_offers : o ∈ offers repr nodes vms risks ↔ Offered repr nodes vms risks o := by
  simp only [offers, List.mem_flatMap, mem_entriesBy, mem_offersOf]
  constructor
  · rintro ⟨_, ⟨hmem, hhot⟩, rfl, htarget, hvm⟩
    exact ⟨hmem, hhot, htarget, hvm⟩
  · exact fun h => ⟨o.source, ⟨h.source_mem, h.hot⟩, rfl, h.target, h.vm⟩

theorem MadeBefore.asymm {a b : Offer} (h : MadeBefore a b) : ¬ MadeBefore b a := by
  rintro (h' | ⟨heq, h'⟩)
  · rcases h with h | ⟨heq, -⟩
    · exact h.asymm h'
    · rw [heq] at h'
      exact h'.asymm h'
  · rcases h with h | ⟨-, h⟩
    · rw [heq] at h
      exact h.asymm h
    · exact h.asymm h'

theorem pairwise_offersOf : (offersOf repr nodes vms risks source).Pairwise MadeBefore := by
  have hvms := (pairwise_entriesBy (p := isMovable repr risks source.1) (r := largestFirst)
    (l := vms)).sublist (List.take_sublist 3 _)
  rw [offersOf]
  cases entriesBy (isTarget source.1) coolestFirst nodes with
  | nil => exact List.Pairwise.nil
  | cons target rest =>
      rw [List.take_succ_cons, List.take_zero, List.flatMap_singleton, List.pairwise_map]
      exact hvms.imp fun h => .inr ⟨rfl, h⟩

theorem pairwise_offers : (offers repr nodes vms risks).Pairwise MadeBefore := by
  rw [offers, List.pairwise_flatMap]
  refine ⟨fun source _ => pairwise_offersOf, pairwise_entriesBy.imp fun h a ha b hb => .inl ?_⟩
  rw [(mem_offersOf.mp ha).1, (mem_offersOf.mp hb).1]
  exact h

theorem Preferred.asymm {a b : Offer} (h : Preferred nodes a b) : ¬ Preferred nodes b a :=
  Stably.asymm (fun _ _ => MadeBefore.asymm) h

theorem pairwise_chosen : ((offers repr nodes vms risks).insertionSort fun a b =>
    recommendedFirst (a.recommendation nodes) (b.recommendation nodes)).Pairwise
      (Preferred nodes) := by
  have htotal : Std.Total fun a b : Offer =>
      recommendedFirst (a.recommendation nodes) (b.recommendation nodes) :=
    ⟨fun a b => total_of recommendedFirst _ _⟩
  have htrans : IsTrans Offer fun a b =>
      recommendedFirst (a.recommendation nodes) (b.recommendation nodes) :=
    ⟨fun _ _ _ => trans_of recommendedFirst⟩
  exact pairwise_insertionSort pairwise_offers

theorem mem_chosen : o ∈ chosen repr nodes vms risks ↔ Recommended repr nodes vms risks o := by
  rw [chosen, mem_take_iff (fun _ _ => Preferred.asymm) pairwise_chosen, List.mem_insertionSort,
    Recommended, mem_offers]
  simp only [List.mem_insertionSort, mem_offers]

theorem nodup_chosen : (chosen repr nodes vms risks).Nodup :=
  (nodup_of_pairwise (fun _ _ => Preferred.asymm) pairwise_chosen).sublist (List.take_sublist _ _)

end Selection

/-! ### The recommendations -/

/-- An offer to move a running VM from a hot node to one under less pressure. -/
structure Moves (nodes : List Node) (vms : List Vm) (o : Offer) : Prop where
  vm_mem : o.vm.1 ∈ vms
  source_mem : o.source.1 ∈ nodes
  target_mem : o.target.1 ∈ nodes
  located : o.vm.1.nodeId = o.source.1.id
  running : o.vm.1.status = "running"
  template : o.vm.1.template = false
  sourceOnline : o.source.1.online = true
  hot : hotThreshold ≤ o.source.1.pressure
  targetOnline : o.target.1.online = true
  different : o.target.1.id ≠ o.source.1.id
  delta : requiredDelta ≤ o.source.1.pressure - o.target.1.pressure

/-- The recommendations for an inventory respect every exclusion and bound. -/
structure Respects (inventory : Inventory) (risks : List Value) : Prop where
  built : recommendations repr inventory risks =
    (chosen repr (inventory.normalNodes repr) (inventory.normalVms repr) risks).map
      (Offer.recommendation (inventory.normalNodes repr))
  moves : ∀ o ∈ chosen repr (inventory.normalNodes repr) (inventory.normalVms repr) risks,
    Moves (inventory.normalNodes repr) (inventory.normalVms repr) o ∧
      ¬ NamedByRed repr risks o.vm.1
  perSource : ∀ id, (recommendations repr inventory risks).countP (·.sourceNodeId = id) ≤ 3
  total : (recommendations repr inventory risks).length ≤ 10
  cut : ∃ cut, (recommendations repr inventory risks ++ cut).Perm
      (candidates repr (inventory.normalNodes repr) (inventory.normalVms repr) risks) ∧
    (cut ≠ [] → (recommendations repr inventory risks).length = 10) ∧
    ∀ kept ∈ recommendations repr inventory risks, ∀ r ∈ cut,
      r.sourceTargetDelta ≤ kept.sourceTargetDelta

/-- No hidden VM comes through, and no more than three offers for one id of a node. -/
structure Clear (inventory : Inventory) (risks : List Value) : Prop where
  vms : ∀ o, Recommended repr (inventory.normalNodes repr) (inventory.normalVms repr) risks o →
    ¬ Hidden repr risks o.vm.1
  sources : ∀ id, {o | Recommended repr (inventory.normalNodes repr) (inventory.normalVms repr)
    risks o ∧ o.source.1.id = id}.ncard ≤ 3

section Bounds

variable {repr : Value → Str} {nodes : List Node} {vms : List Vm} {risks : List Value} {o : Offer}

theorem moves_of_offered (h : Offered repr nodes vms risks o) :
    Moves nodes vms o ∧ hasRedRisk repr o.vm.1 risks = false := by
  obtain ⟨hsmem, hhot, ⟨⟨htmem, htarget⟩, -⟩, ⟨hvmem, hmovable⟩, -⟩ := h
  simp only [isHot, isTarget, isMovable, Bool.and_eq_true, decide_eq_true_eq, Bool.not_eq_true']
    at hhot htarget hmovable
  obtain ⟨⟨⟨hlocated, hrunning⟩, htemplate⟩, hred⟩ := hmovable
  exact ⟨⟨List.fst_mem_of_mem_zipIdx hvmem, List.fst_mem_of_mem_zipIdx hsmem,
    List.fst_mem_of_mem_zipIdx htmem, hlocated, hrunning, htemplate, hhot.1, hhot.2, htarget.1.1,
    htarget.1.2, htarget.2⟩, hred⟩

/-- The recommendations for an id of a node are counted by their offers. -/
theorem countP_recommendations (id : Str) :
    (buildRecommendations repr nodes vms risks).countP (·.sourceNodeId = id) =
      {o | Recommended repr nodes vms risks o ∧ o.source.1.id = id}.ncard := by
  have hset : {o | Recommended repr nodes vms risks o ∧ o.source.1.id = id} =
      {o | o ∈ (chosen repr nodes vms risks).filter fun o => o.source.1.id = id} := by
    ext o
    simp [mem_chosen]
  rw [hset, ncard_mem (nodup_chosen.filter _), ← map_chosen, List.countP_map,
    List.countP_eq_length_filter]
  rfl

theorem countP_candidatesOf (source : Node) (id : Str) :
    (candidatesOf repr nodes vms risks source).countP (·.sourceNodeId = id) ≤
      if source.id = id then 3 else 0 := by
  unfold candidatesOf
  split
  · simp
  · split_ifs with hid
    · refine List.countP_le_length.trans ?_
      rw [List.length_map, List.length_take]
      exact min_le_left _ _
    · rw [List.countP_map, Nat.le_zero, List.countP_eq_zero]
      exact fun vm _ h => hid (of_decide_eq_true h)

/-- Every record of a node gives three recommendations at most. -/
theorem countP_candidates_le (sources : List Node) (id : Str) :
    (sources.flatMap (candidatesOf repr nodes vms risks)).countP (·.sourceNodeId = id) ≤
      3 * sources.countP (·.id = id) := by
  induction sources with
  | nil => simp
  | cons source sources ih =>
      have hsource := @countP_candidatesOf repr nodes vms risks source id
      rw [List.flatMap_cons, List.countP_append, List.countP_cons]
      simp only [decide_eq_true_eq]
      split_ifs at hsource ⊢ <;> omega

/-- With one record for each id, no node has more than three recommendations. -/
theorem countP_of_distinct (hdistinct : (nodes.map Node.id).Nodup) (id : Str) :
    (buildRecommendations repr nodes vms risks).countP (·.sourceNodeId = id) ≤ 3 := by
  have hcandidates : (buildRecommendations repr nodes vms risks).countP (·.sourceNodeId = id) ≤
      (candidates repr nodes vms risks).countP (·.sourceNodeId = id) := by
    rw [← (List.perm_insertionSort recommendedFirst (candidates repr nodes vms risks)).countP_eq]
    exact (List.take_sublist _ _).countP_le
  have hhot : (hotNodes nodes).countP (·.id = id) ≤ nodes.countP (·.id = id) := by
    rw [hotNodes, (List.perm_insertionSort _ _).countP_eq]
    exact List.filter_sublist.countP_le
  have hone : nodes.countP (·.id = id) ≤ 1 := by
    have hcount := List.nodup_iff_count_le_one.mp hdistinct id
    rw [List.count_eq_countP, List.countP_map] at hcount
    refine (List.countP_congr fun node _ => ?_).trans_le hcount
    simp
  have hsources := @countP_candidates_le repr nodes vms risks (hotNodes nodes) id
  rw [candidates] at hcandidates
  omega

/-- The recommendations that are cut report no larger difference than those that are kept. -/
theorem buildRecommendations_cut : ∃ cut,
    (buildRecommendations repr nodes vms risks ++ cut).Perm (candidates repr nodes vms risks) ∧
    (cut ≠ [] → (buildRecommendations repr nodes vms risks).length = 10) ∧
    ∀ kept ∈ buildRecommendations repr nodes vms risks, ∀ r ∈ cut,
      r.sourceTargetDelta ≤ kept.sourceTargetDelta := by
  let sorted := (candidates repr nodes vms risks).insertionSort recommendedFirst
  have hsplit : sorted.take 10 ++ sorted.drop 10 = sorted := List.take_append_drop 10 sorted
  have hsorted : sorted.Pairwise recommendedFirst := List.pairwise_insertionSort _ _
  refine ⟨sorted.drop 10, ?_, fun hcut => ?_, fun kept hkept r hr => ?_⟩
  · have hperm : sorted.Perm (candidates repr nodes vms risks) :=
      List.perm_insertionSort recommendedFirst _
    rw [← hsplit] at hperm
    exact hperm
  · rw [ne_eq, List.drop_eq_nil_iff, not_le] at hcut
    rw [buildRecommendations, List.length_take]
    exact min_eq_left hcut.le
  · rw [← hsplit, List.pairwise_append] at hsorted
    exact neg_le_neg_iff.mp (hsorted.2.2 kept hkept r hr).key_le

end Bounds

/-- In an inventory with one record for each node only a hidden VM can be in the way. -/
theorem clear_of_distinct {repr : Value → Str} {inventory : Inventory} {risks : List Value}
    (hdistinct : ((inventory.normalNodes repr).map Node.id).Nodup)
    (hvms : ∀ vm ∈ inventory.normalVms repr, ¬ Hidden repr risks vm) :
    Clear repr inventory risks := by
  refine ⟨fun o ho => hvms _ (moves_of_offered ho.1).1.vm_mem, fun id => ?_⟩
  rw [← countP_recommendations]
  exact countP_of_distinct hdistinct id

def hotNode : Value := .dict [("node_id", .str "a"), ("status", .str "online"),
  ("cpu_usage_percent", .int 100), ("memory_usage_percent", .int 100)]

def idleNode : Value := .dict [("node_id", .str "b"), ("status", .str "online")]

/-- The record of a VM on the hot node. -/
def runningVm (vmid : ℤ) (name : Str) : Value := .dict [("vmid", .int vmid), ("name", .str name),
  ("node_id", .str "a"), ("status", .str "running"), ("template", .bool false)]

theorem not_respects_of_named {repr : Value → Str} {inventory : Inventory} {risks : List Value}
    (vm : Vm) (hchosen : (chosen repr (inventory.normalNodes repr) (inventory.normalVms repr)
      risks).map (fun o => o.vm.1) = [vm]) (hnamed : NamedByRed repr risks vm) :
    ¬ Respects repr inventory risks := by
  intro h
  obtain ⟨o, ho, rfl⟩ := List.mem_map.mp (hchosen ▸ List.mem_singleton_self vm)
  exact (h.moves o ho).2 hnamed

end Gjallar.Placement
