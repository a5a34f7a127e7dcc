import Gjallar.SizeText

/-!
# When the resize decision is right

The decision compares the requested size with a size that is rounded to two decimals, so a disk
that is smaller by less than half a hundredth of a GiB counts as large enough, and a size without
a unit, which is in bytes, counts as GiB. A resize that is decided is always needed. The sizes that
the creation and the disk operation read agree only where the rounding loses nothing.
-/
namespace Gjallar.DiskResize

open Gjallar.Text Gjallar.Data Gjallar.Rounding Gjallar.Binary64

/-- The double of the amount is at most half a hundredth below the requested size. -/
def Fits (n : ℕ) (size : SizeText) : Prop :=
  ∀ q : ℚ, toDouble size.amount = q →
    nearest n - 1 / 200 ≤ q * 2 ^ unitExponent size.unit.toList

/-! ### The comparison of doubles -/

theorem toDouble_eq_top_iff (q : ℚ) : toDouble q = ⊤ ↔ limit ≤ nearest q := by
  unfold toDouble
  split
  · rename_i h
    exact iff_of_false (WithTop.coe_ne_top) (not_le.mpr h)
  · rename_i h
    exact iff_of_true rfl (not_lt.mp h)

theorem toDouble_eq_coe_iff (q d : ℚ) : toDouble q = d ↔ nearest q < limit ∧ nearest q = d := by
  unfold toDouble
  split
  · rename_i h
    rw [WithTop.coe_inj]
    exact ⟨fun hd => ⟨h, hd⟩, fun hd => hd.2⟩
  · rename_i h
    exact iff_of_false (WithTop.top_ne_coe) fun hd => h hd.1

theorem one_le_nearest {n : ℕ} (hn : 1 ≤ n) : 1 ≤ nearest n := by
  have hone : nearest ((1 : ℕ) : ℚ) = 1 := by
    rw [nearest_of_isDouble (isDouble_natCast (by norm_num))]
    norm_num
  rw [← hone]
  exact nearest_mono (by norm_num) (by exact_mod_cast hn)

/-- A product that is not tiny is exact. -/
theorem half_le_nearest_scale_iff {d b : ℚ} {k : ℤ} (hd : IsDouble d) (hb : 1 / 2 ≤ b) :
    b ≤ nearest (d * 2 ^ k) ↔ b ≤ d * 2 ^ k := by
  have hsmall : (2 : ℚ) ^ (-1000 : ℤ) < 1 / 2 := by
    have hhalf : (1 / 2 : ℚ) = 2 ^ (-1 : ℤ) := by norm_num
    rw [hhalf]
    exact zpow_lt_zpow_right₀ (by norm_num) (by norm_num)
  rcases le_or_gt (2 ^ (-1000 : ℤ)) (d * 2 ^ k) with hlow | hlow
  · rw [nearest_of_isDouble (hd.scale hlow)]
  · have hdouble : IsDouble (2 ^ (-1000 : ℤ)) :=
      ⟨1, -1000, by norm_num, by norm_num, by rw [Nat.cast_one, one_mul]⟩
    have hnearest : nearest (d * 2 ^ k) ≤ 2 ^ (-1000 : ℤ) := by
      rw [← nearest_of_isDouble hdouble]
      exact nearest_mono (mul_nonneg hd.nonneg (two_zpow_pos k).le) hlow.le
    refine iff_of_false (not_le.mpr ?_) (not_le.mpr ?_)
    · linarith
    · linarith

theorem le_scaled_iff {n : ℕ} (hn : 1 ≤ n) (hfinite : toDouble n ≠ ⊤) {a : ℚ} (ha : 0 ≤ a)
    (k : ℤ) : toDouble n ≤ roundDouble 2 (scaleDouble (toDouble a) k) ↔
      ∀ q : ℚ, toDouble a = q → nearest n - 1 / 200 ≤ q * 2 ^ k := by
  obtain ⟨m, hm⟩ := exists_nearest_natCast n
  have hone := one_le_nearest hn
  have hlimit : nearest n < limit := not_le.mp fun h => hfinite ((toDouble_eq_top_iff n).mpr h)
  have hrequest : toDouble n = (m : ℚ) := (toDouble_eq_coe_iff n m).mpr ⟨hlimit, hm⟩
  have hmdouble : IsDouble (m : ℚ) := hm ▸ isDouble_nearest (Nat.cast_nonneg n)
  have hhalf : (1 / 2 : ℚ) ≤ nearest n - 1 / 200 := by linarith
  rcases lt_or_ge (nearest a) limit with hfin | htop
  · have hamount := (toDouble_eq_coe_iff a (nearest a)).mpr ⟨hfin, rfl⟩
    have hadouble := isDouble_nearest ha
    have hscaled := half_le_nearest_scale_iff (k := k) hadouble hhalf
    have hall : (∀ q : ℚ, toDouble a = q → nearest n - 1 / 200 ≤ q * 2 ^ k) ↔
        nearest n - 1 / 200 ≤ nearest a * 2 ^ k := by
      constructor
      · exact fun h => h _ hamount
      · intro h q hq
        rwa [← WithTop.coe_inj.mp (hamount.symm.trans hq)]
    rw [hall, ← hscaled, hamount]
    change toDouble n ≤ roundDouble 2 (toDouble (nearest a * 2 ^ k)) ↔ _
    rcases lt_or_ge (nearest (nearest a * 2 ^ k)) limit with hfin' | htop'
    · rw [(toDouble_eq_coe_iff _ _).mpr ⟨hfin', rfl⟩, hrequest, hm]
      have hproduct : IsDouble (nearest (nearest a * 2 ^ k)) :=
        isDouble_nearest (mul_nonneg hadouble.nonneg (two_zpow_pos k).le)
      rw [← le_nearest_roundTo_iff hmdouble hproduct]
      exact WithTop.coe_le_coe
    · rw [(toDouble_eq_top_iff _).mpr htop']
      refine iff_of_true le_top ?_
      linarith
  · rw [(toDouble_eq_top_iff a).mpr htop]
    refine iff_of_true le_top fun q hq => ?_
    exact absurd hq WithTop.top_ne_coe

theorem unitExponent_bounds (unit : Str) : -20 ≤ unitExponent unit ∧ unitExponent unit ≤ 20 := by
  unfold unitExponent
  split_ifs <;> decide

theorem isNormal_of_le {q : ℚ} {k : ℤ} (hk : -1022 ≤ k) (h : 2 ^ k ≤ q) : IsNormal q :=
  (zpow_le_zpow_right₀ (by norm_num) hk).trans h

/-- A disk that is large enough fits. -/
theorem fits_of_le_gib {n : ℕ} {size : SizeText} (hn : 1 ≤ n) (h : (n : ℚ) ≤ size.gib) :
    Fits n size := by
  intro q hq
  obtain ⟨-, rfl⟩ := (toDouble_eq_coe_iff _ _).mp hq
  have hn' : (1 : ℚ) ≤ n := by exact_mod_cast hn
  suffices hle : nearest n ≤ nearest size.amount * 2 ^ unitExponent size.unit.toList by linarith
  unfold SizeText.gib at h
  split at h
  · rename_i c hc
    rw [hc, Option.toList_some]
    obtain ⟨hlow, hhigh⟩ := unitExponent_bounds [c]
    have hproduct : (2 : ℚ) ^ (0 : ℤ) ≤ size.amount * 2 ^ unitExponent [c] := by
      rw [zpow_zero]
      linarith
    have hamount : (2 : ℚ) ^ (-unitExponent [c]) ≤ size.amount := by
      rw [zpow_neg, inv_le_iff_one_le_mul₀ (two_zpow_pos _)]
      linarith
    rw [← nearest_mul_zpow (isNormal_of_le (by omega) hamount)
      (isNormal_of_le (by norm_num) hproduct)]
    exact nearest_mono (by linarith) h
  · rename_i hc
    have hexponent : unitExponent size.unit.toList = 0 := by
      rw [hc]
      rfl
    rw [hexponent, zpow_zero, mul_one]
    refine nearest_mono (by linarith) (h.trans ?_)
    exact div_le_self size.amount_nonneg (by norm_num)

/-! ### The decision for a disk -/

theorem sizeGb_of_mem {config : Dict} {entry : DiskEntry} (h : entry ∈ diskEntries config) :
    entry.sizeGb = parseDiskSizeGb entry.rawConfig := by
  obtain ⟨⟨device, value⟩, -, hentry⟩ := List.mem_filterMap.mp h
  simp only [diskEntryFromConfig, Option.bind_eq_bind, Option.bind_eq_some_iff] at hentry
  obtain ⟨m, -, raw, -, volume, -, index, -, hentry⟩ := hentry
  split at hentry
  · cases hentry
  · cases hentry
    rfl

theorem mem_of_select {repr : Value → Str} {config : Dict} {entry : DiskEntry} {how : Str}
    (h : selectClonedBootDisk repr config = some (entry, how)) : entry ∈ diskEntries config := by
  unfold selectClonedBootDisk at h
  dsimp only at h
  split at h
  · rename_i found hfound
    cases h
    exact List.mem_of_find?_eq_some hfound
  · split at h
    · rename_i found hfound
      cases h
      obtain ⟨device, -, hdevice⟩ := List.exists_of_findSome?_eq_some hfound
      exact List.mem_of_find?_eq_some hdevice
    · obtain ⟨found, hfound, hpair⟩ := Option.map_eq_some_iff.mp h
      cases hpair
      exact (List.mem_insertionSort _).mp (List.mem_of_mem_head? hfound)

theorem one_le_requested {hardware : Dict} {n : ℕ} (h : requestedDiskGb hardware = some n) :
    1 ≤ n := by
  unfold requestedDiskGb at h
  dsimp only at h
  split at h
  · split at h
    · rename_i hpos
      cases h
      omega
    · cases h
  · cases h

/-- What the comparison decides for a size. -/
theorem decideResize_iff {n : ℕ} (hn : 1 ≤ n) {size : SizeText} {entry : DiskEntry} {how : Str}
    (hsize : HasSize entry.rawConfig size) (hentry : entry.sizeGb = parseDiskSizeGb entry.rawConfig)
    {d : ResizeDecision} (h : decideResize n (entry, how) = .ok d) : toDouble n ≠ ⊤ →
    (d.action = .notNeeded ↔ Fits n size) ∧ (d.action = .resizeRequired → ¬ Fits n size) := by
  intro hfinite
  have hcompare := le_scaled_iff hn hfinite size.amount_nonneg (unitExponent size.unit.toList)
  have hpositive : 0 < toDouble n := by
    obtain ⟨q, hq⟩ := WithTop.ne_top_iff_exists.mp hfinite
    obtain ⟨-, rfl⟩ := (toDouble_eq_coe_iff _ _).mp hq.symm
    rw [← hq]
    exact WithTop.coe_pos.mpr (zero_lt_one.trans_le (one_le_nearest hn))
  rw [decideResize, hentry, parse_of_hasSize hsize] at h
  simp only [if_neg hfinite] at h
  generalize roundDouble 2 _ = current at h hcompare
  split at h
  · rename_i hzero
    cases h
    refine ⟨iff_of_false (by simp) fun hfits => ?_, by simp⟩
    exact absurd (hpositive.trans_le (hcompare.mpr hfits)) (not_lt.mpr hzero)
  · split at h
    · rename_i hlt
      cases h
      have hnot : ¬ Fits n size := fun hfits => absurd (hcompare.mpr hfits) (not_le.mpr hlt)
      exact ⟨iff_of_false (by simp) hnot, fun _ => hnot⟩
    · rename_i hle
      cases h
      exact ⟨iff_of_true rfl (hcompare.mp (not_lt.mp hle)), by simp⟩

theorem decideResize_of_top {n : ℕ} {selected : DiskEntry × Str} (h : toDouble n = ⊤)
    {d : ResizeDecision} (hd : decideResize n selected = .ok d) : d.action = .skipped := by
  unfold decideResize at hd
  dsimp only at hd
  split at hd
  · cases hd
    rfl
  · rw [if_pos h] at hd
    split at hd
    · cases hd
      rfl
    · cases hd

/-- A resize is decided only for a smaller disk and declined only for one that is large enough. -/
def Sound (repr : Value → Str) (hardware config : Dict) : Prop :=
  ∀ n entry how size d, requestedDiskGb hardware = some n →
    selectClonedBootDisk repr config = some (entry, how) → HasSize entry.rawConfig size →
    resizeDecisionFromConfig repr hardware config = .ok d →
    (d.action = .notNeeded → (n : ℚ) ≤ size.gib) ∧ (d.action = .resizeRequired → size.gib < n)

/-- The selected disk is large enough, or the amount in front of its unit is more than half a
hundredth below the requested size, or the request is beyond the doubles. -/
def SoundWhen (repr : Value → Str) (hardware config : Dict) : Prop :=
  ∀ n entry how size, requestedDiskGb hardware = some n →
    selectClonedBootDisk repr config = some (entry, how) → HasSize entry.rawConfig size →
    (n : ℚ) ≤ size.gib ∨ toDouble n = ⊤ ∨ ¬ Fits n size

theorem sound_iff (repr : Value → Str) (hardware config : Dict) :
    Sound repr hardware config ↔ SoundWhen repr hardware config := by
  have hdecision : ∀ {n selected}, requestedDiskGb hardware = some n →
      selectClonedBootDisk repr config = some selected →
      resizeDecisionFromConfig repr hardware config = decideResize n selected := by
    intro n selected hn hselected
    simp only [resizeDecisionFromConfig, hn, hselected]
  constructor
  · intro h n entry how size hn hselected hsize
    by_cases hfinite : toDouble n = ⊤
    · exact .inr (.inl hfinite)
    by_cases hfits : Fits n size
    · have hentry := sizeGb_of_mem (mem_of_select hselected)
      cases hd : decideResize n (entry, how) with
      | ok d =>
          have hiff := decideResize_iff (one_le_requested hn) hsize hentry hd hfinite
          have hok := (hdecision hn hselected).trans hd
          exact .inl ((h n entry how size d hn hselected hsize hok).1 (hiff.1.mpr hfits))
      | error e =>
          simp only [decideResize, hentry, parse_of_hasSize hsize, if_neg hfinite] at hd
          split at hd
          · cases hd
          · split at hd <;> cases hd
    · exact .inr (.inr hfits)
  · intro h n entry how size d hn hselected hsize hd
    rw [hdecision hn hselected] at hd
    have hentry := sizeGb_of_mem (mem_of_select hselected)
    by_cases hfinite : toDouble n = ⊤
    · rw [decideResize_of_top hfinite hd]
      exact ⟨by simp, by simp⟩
    · obtain ⟨hdeclined, hresize⟩ :=
        decideResize_iff (one_le_requested hn) hsize hentry hd hfinite
      constructor
      · intro hd
        rcases h n entry how size hn hselected hsize with hle | htop | hnot
        · exact hle
        · exact absurd htop hfinite
        · exact absurd (hdeclined.mp hd) hnot
      · intro hd
        by_contra hle
        exact hresize hd (fits_of_le_gib (one_le_requested hn) (not_lt.mp hle))

/-! ### The two parsers -/

/-- The size in GiB to the digits that the disk operation keeps. -/
def SizeText.decimalGib (size : SizeText) : ℚ := significant (size.gib * 2 ^ 30) / 2 ^ 30

/-- The creation reads the size that the disk operation reads. -/
def Agrees (raw : Str) : Prop :=
  ∀ size current bytes, HasSize raw size → parseDiskSizeGb raw = some current →
    diskSizeBytes size.text = some bytes → current = ((bytes / 2 ^ 30 : ℚ) : Double)

/-- The unit is given, the numbers are within the doubles and the size is one that the rounding
to two decimals keeps. -/
def AgreesWhen (raw : Str) : Prop :=
  ∀ size, HasSize raw size → (diskSizeBytes size.text).isSome →
    size.unit ≠ none ∧ toDouble size.amount ≠ ⊤ ∧ toDouble size.decimalGib ≠ ⊤ ∧
      nearest (roundTo 2 size.decimalGib) = size.decimalGib

/-- The bytes are nearly the size. -/
theorem abs_bytes_sub_le {size : SizeText} {bytes : ℕ}
    (h : diskSizeBytes size.text = some bytes) :
    |(bytes : ℚ) / 2 ^ 30 - size.gib| ≤ size.gib / 10 ^ 27 := by
  obtain ⟨hbytes, hsize, -⟩ := diskSizeBytes_text h
  have hgib : 0 ≤ size.gib := by
    unfold SizeText.gib
    split
    · exact mul_nonneg size.amount_nonneg (two_zpow_pos _).le
    · exact div_nonneg size.amount_nonneg (by norm_num)
  have hpos : 0 < size.gib * 2 ^ 30 := by
    refine (mul_nonneg hgib (by norm_num)).lt_of_ne fun hzero => ?_
    have hnone : significant (size.gib * 2 ^ 30) = 0 := by
      have hhalf : halfEven 0 = 0 := halfEven_intCast 0
      rw [← hzero, significant, zero_div, hhalf, Int.cast_zero, zero_mul]
    rw [hnone] at hsize
    have hbytes' : (0 : ℚ) < bytes := by exact_mod_cast hbytes
    linarith
  have hclose := abs_significant_sub_le hpos
  rw [hsize, abs_le] at hclose
  rw [abs_le]
  constructor
  · rw [le_sub_iff_add_le, le_div_iff₀ (by norm_num)]
    linarith
  · rw [sub_le_iff_le_add, div_le_iff₀ (by norm_num)]
    linarith

/-- A double that is rounded to two decimals keeps at least half of its value. -/
theorem half_le_nearest_roundTo {x : ℚ} (hx : IsDouble x) (hlow : 1 / 10 ≤ x) :
    x / 2 ≤ nearest (roundTo 2 x) := by
  have hsmall : (2 : ℚ) ^ (-1000 : ℤ) ≤ 1 / 32 := by
    have hpow : (1 / 32 : ℚ) = 2 ^ (-5 : ℤ) := by norm_num
    rw [hpow]
    exact zpow_le_zpow_right₀ (by norm_num) (by norm_num)
  have hhalf : IsDouble (x * 2 ^ (-1 : ℤ)) := by
    refine hx.scale (hsmall.trans ?_)
    norm_num
    linarith
  have heq : x * 2 ^ (-1 : ℤ) = x / 2 := by norm_num; ring
  rw [heq] at hhalf
  rw [← nearest_of_isDouble hhalf]
  refine nearest_mono hhalf.nonneg ?_
  have habs := abs_le.mp (abs_roundTo_sub_le x)
  linarith

theorem rounded_eq_coe_iff {a d : ℚ} {k : ℤ} :
    roundDouble 2 (scaleDouble (toDouble a) k) = d ↔ nearest a < limit ∧
      nearest (nearest a * 2 ^ k) < limit ∧
      nearest (roundTo 2 (nearest (nearest a * 2 ^ k))) = d := by
  rcases lt_or_ge (nearest a) limit with ha | ha
  · rw [(toDouble_eq_coe_iff _ _).mpr ⟨ha, rfl⟩]
    change roundDouble 2 (toDouble (nearest a * 2 ^ k)) = d ↔ _
    rcases lt_or_ge (nearest (nearest a * 2 ^ k)) limit with hp | hp
    · rw [(toDouble_eq_coe_iff _ _).mpr ⟨hp, rfl⟩]
      change ((nearest (roundTo 2 (nearest (nearest a * 2 ^ k))) : ℚ) : Double) = d ↔ _
      rw [WithTop.coe_inj]
      exact ⟨fun h => ⟨ha, hp, h⟩, fun h => h.2.2⟩
    · rw [(toDouble_eq_top_iff _).mpr hp]
      exact iff_of_false WithTop.top_ne_coe fun h => absurd h.2.1 (not_lt.mpr hp)
  · rw [(toDouble_eq_top_iff _).mpr ha]
    exact iff_of_false WithTop.top_ne_coe fun h => absurd h.1 (not_lt.mpr ha)

/-- Without a unit bytes are read as GiB. -/
theorem unit_ne_none_of_eq {size : SizeText} {bytes : ℕ}
    (h : diskSizeBytes size.text = some bytes)
    (heq : roundDouble 2 (scaleDouble (toDouble size.amount)
      (unitExponent size.unit.toList)) = ((bytes / 2 ^ 30 : ℚ) : Double)) : size.unit ≠ none := by
  intro hunit
  obtain ⟨hbytes, -, -⟩ := diskSizeBytes_text h
  have hpos : (1 : ℚ) ≤ bytes := by exact_mod_cast hbytes
  have hclose := abs_bytes_sub_le h
  have hgib : size.gib = size.amount / 2 ^ 30 := by
    unfold SizeText.gib
    rw [hunit]
  have hexponent : unitExponent size.unit.toList = 0 := by
    rw [hunit]
    rfl
  rw [hexponent] at heq
  obtain ⟨-, -, hrounded⟩ := rounded_eq_coe_iff.mp heq
  rw [zpow_zero, mul_one, nearest_of_isDouble (isDouble_nearest size.amount_nonneg)] at hrounded
  rw [hgib, ← sub_div, div_right_comm, abs_div, abs_of_pos (by norm_num : (0 : ℚ) < 2 ^ 30),
    div_le_div_iff_of_pos_right (by norm_num), abs_le] at hclose
  have hamount : (bytes : ℚ) / 2 ≤ size.amount := by
    have hsmall : size.amount / 10 ^ 27 ≤ size.amount :=
      div_le_self size.amount_nonneg (by norm_num)
    linarith
  have hnormal : IsNormal size.amount := by
    refine isNormal_of_le (k := -1) (by norm_num) ?_
    norm_num
    linarith
  have hnear := (abs_le.mp (abs_nearest_sub_le_of_isNormal hnormal)).1
  have hhalf : size.amount / 2 ^ 53 ≤ size.amount / 2 :=
    div_le_div_of_nonneg_left size.amount_nonneg (by norm_num) (by norm_num)
  have hkeep := half_le_nearest_roundTo (isDouble_nearest size.amount_nonneg) (by linarith)
  rw [hrounded, le_div_iff₀ (by norm_num)] at hkeep
  norm_num at hkeep
  linarith

/-- A size that the rounding keeps is read exactly. -/
theorem rounded_of_kept {size : SizeText} {bytes : ℕ} (h : diskSizeBytes size.text = some bytes)
    (hunit : size.unit ≠ none) (hamount : nearest size.amount < limit)
    (hlimit : nearest ((bytes : ℚ) / 2 ^ 30) < limit)
    (hkept : nearest (roundTo 2 ((bytes : ℚ) / 2 ^ 30)) = (bytes : ℚ) / 2 ^ 30) :
    roundDouble 2 (scaleDouble (toDouble size.amount) (unitExponent size.unit.toList)) =
      ((bytes / 2 ^ 30 : ℚ) : Double) := by
  obtain ⟨hbytes, -, -⟩ := diskSizeBytes_text h
  obtain ⟨c, hc⟩ := Option.ne_none_iff_exists'.mp hunit
  have hclose := abs_bytes_sub_le h
  have hgib : size.gib = size.amount * 2 ^ unitExponent size.unit.toList := by
    unfold SizeText.gib
    rw [hc]
    rfl
  obtain ⟨hlow, hhigh⟩ := unitExponent_bounds size.unit.toList
  generalize unitExponent size.unit.toList = k at hgib hlow hhigh ⊢
  have hpos : (2 : ℚ) ^ (-30 : ℤ) ≤ (bytes : ℚ) / 2 ^ 30 := by
    have hone : (1 : ℚ) ≤ bytes := by exact_mod_cast hbytes
    rw [zpow_neg, ← one_div]
    exact div_le_div_of_nonneg_right hone (by norm_num)
  generalize (bytes : ℚ) / 2 ^ 30 = d at *
  have hdpos : 0 < d := (two_zpow_pos _).trans_le hpos
  have hround : 0 ≤ roundTo 2 d :=
    div_nonneg (by exact_mod_cast halfEven_nonneg (mul_nonneg hdpos.le (by norm_num)))
      (by norm_num)
  have hdouble : IsDouble d := hkept ▸ isDouble_nearest hround
  have hscaled : IsDouble (d * 2 ^ (-k)) := by
    refine hdouble.scale ?_
    calc (2 : ℚ) ^ (-1000 : ℤ) ≤ 2 ^ (-30 - k) := zpow_le_zpow_right₀ (by norm_num) (by omega)
      _ = 2 ^ (-30 : ℤ) * 2 ^ (-k) := by rw [← zpow_add₀ (by norm_num), ← sub_eq_add_neg]
      _ ≤ d * 2 ^ (-k) := mul_le_mul_of_nonneg_right hpos (two_zpow_pos _).le
  have hcancel : ∀ x : ℚ, x * 2 ^ (-k) * 2 ^ k = x := by
    intro x
    rw [mul_assoc, ← zpow_add₀ (by norm_num), neg_add_cancel, zpow_zero, mul_one]
  have hnear : nearest size.amount = d * 2 ^ (-k) := by
    refine nearest_of_close size.amount_nonneg hscaled (mul_pos hdpos (two_zpow_pos _)) ?_
    have heq : size.amount - d * 2 ^ (-k) = (size.gib - d) * 2 ^ (-k) := by
      rw [sub_mul, hgib, mul_assoc, ← zpow_add₀ (by norm_num), add_neg_cancel, zpow_zero, mul_one]
    rw [heq, abs_mul, abs_of_pos (two_zpow_pos _), mul_div_right_comm, abs_sub_comm]
    refine mul_le_mul_of_nonneg_right ?_ (two_zpow_pos _).le
    have habs := abs_le.mp hclose
    refine hclose.trans ?_
    norm_num at habs ⊢
    linarith
  refine rounded_eq_coe_iff.mpr ⟨hamount, ?_⟩
  rw [hnear, hcancel, nearest_of_isDouble hdouble]
  rw [nearest_of_isDouble hdouble] at hlimit
  exact ⟨hlimit, hkept⟩

theorem agrees_iff (raw : Str) : Agrees raw ↔ AgreesWhen raw := by
  constructor
  · intro h size hsize haccepted
    obtain ⟨bytes, hbytes⟩ := Option.isSome_iff_exists.mp haccepted
    have heq := h size _ bytes hsize (parse_of_hasSize hsize) hbytes
    have hgib : size.decimalGib = bytes / 2 ^ 30 := by
      rw [SizeText.decimalGib, (diskSizeBytes_text hbytes).2.1]
    obtain ⟨hamount, hproduct, hrounded⟩ := rounded_eq_coe_iff.mp heq
    have hdouble : IsDouble (nearest (nearest size.amount * 2 ^ unitExponent size.unit.toList)) :=
      isDouble_nearest (mul_nonneg (nearest_nonneg size.amount_nonneg) (two_zpow_pos _).le)
    refine ⟨unit_ne_none_of_eq hbytes heq, ?_, ?_, ?_⟩
    · exact fun htop => absurd hamount (not_lt.mpr ((toDouble_eq_top_iff _).mp htop))
    · rw [hgib, ← hrounded]
      intro htop
      have hlimit := (toDouble_eq_top_iff _).mp htop
      rw [nearest_of_isDouble (isDouble_nearest hdouble.roundTo_nonneg)] at hlimit
      exact absurd (nearest_roundTo_lt_limit hdouble hproduct) (not_lt.mpr hlimit)
    · rw [hgib, ← hrounded]
      exact nearest_roundTo_idem hdouble
  · intro h size current bytes hsize hcurrent hbytes
    obtain ⟨hunit, hamount, hlimit, hkept⟩ :=
      h size hsize (Option.isSome_iff_exists.mpr ⟨bytes, hbytes⟩)
    have hgib : size.decimalGib = bytes / 2 ^ 30 := by
      rw [SizeText.decimalGib, (diskSizeBytes_text hbytes).2.1]
    rw [parse_of_hasSize hsize] at hcurrent
    rw [hgib] at hlimit hkept
    rw [← Option.some.inj hcurrent]
    refine rounded_of_kept hbytes hunit ?_ ?_ hkept
    · exact not_le.mp fun hle => hamount ((toDouble_eq_top_iff _).mpr hle)
    · exact not_le.mp fun hle => hlimit ((toDouble_eq_top_iff _).mpr hle)

/-- The decision is right exactly when no rounding hides that the disk is too small, and the two
parsers agree exactly on the sizes with a unit that the rounding keeps. -/
theorem resize_decision_iff (repr : Value → Str) (hardware config : Dict) (raw : Str) :
    (Sound repr hardware config ↔ SoundWhen repr hardware config) ∧
      (Agrees raw ↔ AgreesWhen raw) :=
  ⟨sound_iff repr hardware config, agrees_iff raw⟩

/-- A disk of four MiB less than 10 GiB. -/
def nearlyTen : SizeText where
  whole := "10481664"
  fraction := []
  unit := some 'K'
  whole_ne_nil := by decide
  whole_digits := forall_mem_of_all (by decide)
  fraction_digits := by simp
  unit_mem := by simp

def tenInBytes : SizeText where
  whole := "10737418240"
  fraction := []
  unit := none
  whole_ne_nil := by decide
  whole_digits := forall_mem_of_all (by decide)
  fraction_digits := by simp
  unit_mem := by simp

/-- A disk that is four MiB too small is not resized, and the two parsers read different sizes of
it and of a size in bytes. -/
theorem smaller_disk_not_resized :
    ¬ Sound (fun _ => []) [("disk_gb", .int 10)]
        [("scsi0", .str "local-lvm:vm-100-disk-0,size=10481664K")] ∧
      ¬ Agrees "local-lvm:vm-100-disk-0,size=10481664K" ∧
      ¬ Agrees "local-lvm:vm-100-disk-0,size=10737418240" := by
  have hsize : HasSize "local-lvm:vm-100-disk-0,size=10481664K" nearlyTen :=
    ⟨["local-lvm:vm-100-disk-0"], [], by decide, by decide⟩
  have hcurrent : parseDiskSizeGb "local-lvm:vm-100-disk-0,size=10481664K" =
      some ((10 : ℚ) : Double) := by decide +kernel
  refine ⟨fun h => ?_, fun h => ?_, fun h => ?_⟩
  · have hnumber : nearlyTen.amount = 10481664 := by decide +kernel
    have hfits : Fits 10 nearlyTen := by
      intro q hq
      have hdouble : toDouble nearlyTen.amount = ((10481664 : ℚ) : Double) := by decide +kernel
      have hten : nearest ((10 : ℕ) : ℚ) = 10 := by decide +kernel
      rw [← WithTop.coe_inj.mp (hdouble.symm.trans hq), hten]
      change (10 : ℚ) - 1 / 200 ≤ 10481664 * 2 ^ (-20 : ℤ)
      norm_num
    have hfinite : toDouble ((10 : ℕ) : ℚ) = ((10 : ℚ) : Double) := by decide +kernel
    rcases (sound_iff _ _ _).mp h 10 ⟨"scsi0", "scsi", 0, _, _, _⟩ "scsi0" nearlyTen rfl rfl hsize
      with hle | htop | hnot
    · change ((10 : ℕ) : ℚ) ≤ nearlyTen.amount * 2 ^ (-20 : ℤ) at hle
      rw [hnumber] at hle
      norm_num at hle
    · rw [hfinite] at htop
      exact WithTop.coe_ne_top htop
    · exact hnot hfits
  · have hbytes : diskSizeBytes nearlyTen.text = some 10733223936 := by decide +kernel
    have heq := WithTop.coe_inj.mp (h nearlyTen _ _ hsize hcurrent hbytes)
    norm_num at heq
  · have haccepted : (diskSizeBytes tenInBytes.text).isSome = true := by decide +kernel
    have hsize : HasSize "local-lvm:vm-100-disk-0,size=10737418240" tenInBytes :=
      ⟨["local-lvm:vm-100-disk-0"], [], by decide, by decide⟩
    exact ((agrees_iff _).mp h tenInBytes hsize haccepted).1 rfl

end Gjallar.DiskResize
