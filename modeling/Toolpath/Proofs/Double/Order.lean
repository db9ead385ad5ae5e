import Toolpath.Proofs.Double.Value

/-! # Comparison of doubles

Unpacked numbers are compared by sign, exponent and mantissa. For canonical numbers this is the
comparison of their values, so the order of doubles is the order of values, with infinities at the
ends and nothing below or above what is not a number.
-/
namespace Toolpath.Double
open Float.Model Float.Model.UnpackedFloat

/-- Of two canonical magnitudes the one with the larger exponent is larger. -/
theorem lt_of_exponent_lt {s t : Sign} {m n : ℕ} {e f : ℤ} {hm : 0 < m} {hn : 0 < n}
    (hu : Canonical (.finite s m e hm)) (hv : Canonical (.finite t n f hn)) (h : e < f) :
    (m : ℝ) * 2 ^ e < n * 2 ^ f := by
  obtain ⟨hm', he, -⟩ := hu
  obtain ⟨-, -, hn'⟩ := hv
  have h1 : (m : ℝ) < 2 ^ (53 : ℤ) := by exact_mod_cast hm'
  have h2 : (2 : ℝ) ^ (52 : ℤ) ≤ n := by exact_mod_cast hn'.resolve_right (by omega)
  calc (m : ℝ) * 2 ^ e < 2 ^ (53 : ℤ) * 2 ^ e := mul_lt_mul_of_pos_right h1 (by positivity)
    _ = 2 ^ (53 + e) := (zpow_add₀ (by norm_num) _ _).symm
    _ ≤ 2 ^ (52 + f) := zpow_le_zpow_right₀ (by norm_num) (by omega)
    _ = 2 ^ (52 : ℤ) * 2 ^ f := zpow_add₀ (by norm_num) _ _
    _ ≤ n * 2 ^ f := mul_le_mul_of_nonneg_right h2 (by positivity)

theorem compare_magnitude {s t : Sign} {m n : ℕ} {e f : ℤ} {hm : 0 < m} {hn : 0 < n}
    (hu : Canonical (.finite s m e hm)) (hv : Canonical (.finite t n f hn)) :
    (compare e f).then (compare m n) = compare ((m : ℝ) * 2 ^ e) (n * 2 ^ f) := by
  rcases lt_trichotomy e f with h | rfl | h
  · rw [compare_lt_iff_lt.mpr h, compare_lt_iff_lt.mpr (lt_of_exponent_lt hu hv h)]
    rfl
  · have hp : (0 : ℝ) < 2 ^ e := by positivity
    rw [compare_eq_iff_eq.mpr rfl]
    change compare m n = _
    rcases lt_trichotomy m n with h | rfl | h
    · have h' : (m : ℝ) < n := by exact_mod_cast h
      rw [compare_lt_iff_lt.mpr h, compare_lt_iff_lt.mpr (mul_lt_mul_of_pos_right h' hp)]
    · rw [compare_eq_iff_eq.mpr rfl, compare_eq_iff_eq.mpr rfl]
    · have h' : (n : ℝ) < m := by exact_mod_cast h
      rw [compare_gt_iff_gt.mpr h, compare_gt_iff_gt.mpr (mul_lt_mul_of_pos_right h' hp)]
  · rw [compare_gt_iff_gt.mpr h, compare_gt_iff_gt.mpr (lt_of_exponent_lt hv hu h)]
    rfl

theorem compare_neg_neg (a b : ℝ) : compare (-a) (-b) = (compare a b).swap := by
  rcases lt_trichotomy a b with h | rfl | h
  · rw [compare_lt_iff_lt.mpr h, compare_gt_iff_gt.mpr (neg_lt_neg h)]
    rfl
  · rw [compare_eq_iff_eq.mpr rfl, compare_eq_iff_eq.mpr rfl]
    rfl
  · rw [compare_gt_iff_gt.mpr h, compare_lt_iff_lt.mpr (neg_lt_neg h)]
    rfl

theorem compare_finite {u v : UnpackedFloat} (hu : Canonical u) (hv : Canonical v)
    (hfu : u.isFinite = true) (hfv : v.isFinite = true) :
    UnpackedFloat.compare u v = some (compare (realOf u) (realOf v)) := by
  cases u with
  | infinity s => cases hfu
  | notANumber => cases hfu
  | zero s =>
    cases v with
    | infinity t => cases hfv
    | notANumber => cases hfv
    | zero t =>
      change some Ordering.eq = some (compare (0 : ℝ) 0)
      rw [compare_eq_iff_eq.mpr rfl]
    | finite t n f hn =>
      have hp : (0 : ℝ) < n * 2 ^ f := by positivity
      cases t with
      | positive =>
        change some Ordering.lt = some (compare (0 : ℝ) (n * 2 ^ f))
        rw [compare_lt_iff_lt.mpr hp]
      | negative =>
        change some Ordering.gt = some (compare (0 : ℝ) (-(n * 2 ^ f)))
        rw [compare_gt_iff_gt.mpr (neg_lt_zero.mpr hp)]
  | finite s m e hm =>
    have hp : (0 : ℝ) < m * 2 ^ e := by positivity
    cases v with
    | infinity t => cases hfv
    | notANumber => cases hfv
    | zero t =>
      cases s with
      | positive =>
        change some Ordering.gt = some (compare ((m : ℝ) * 2 ^ e) 0)
        rw [compare_gt_iff_gt.mpr hp]
      | negative =>
        change some Ordering.lt = some (compare (-((m : ℝ) * 2 ^ e)) 0)
        rw [compare_lt_iff_lt.mpr (neg_lt_zero.mpr hp)]
    | finite t n f hn =>
      have hq : (0 : ℝ) < n * 2 ^ f := by positivity
      have hmag := compare_magnitude hu hv
      cases s <;> cases t
      case negative.negative =>
        change some ((compare e f).then (compare m n)).swap = some (compare (-_) (-_))
        rw [hmag, compare_neg_neg]
      case negative.positive =>
        change some Ordering.lt = some (compare (-((m : ℝ) * 2 ^ e)) (n * 2 ^ f))
        rw [compare_lt_iff_lt.mpr (by linarith)]
      case positive.negative =>
        change some Ordering.gt = some (compare ((m : ℝ) * 2 ^ e) (-(n * 2 ^ f)))
        rw [compare_gt_iff_gt.mpr (by linarith)]
      case positive.positive =>
        change some ((compare e f).then (compare m n)) = _
        rw [hmag]
        rfl

theorem compare_coe (a b : ℝ) : compare (a : EReal) (b : EReal) = compare a b := by
  rcases lt_trichotomy a b with h | rfl | h
  · rw [compare_lt_iff_lt.mpr h, compare_lt_iff_lt.mpr (EReal.coe_lt_coe_iff.mpr h)]
  · rw [compare_eq_iff_eq.mpr rfl, compare_eq_iff_eq.mpr rfl]
  · rw [compare_gt_iff_gt.mpr h, compare_gt_iff_gt.mpr (EReal.coe_lt_coe_iff.mpr h)]

theorem valueOf_of_isFinite {u : UnpackedFloat} (h : u.isFinite = true) :
    valueOf u = (realOf u : EReal) := by
  cases u with
  | infinity s => cases h
  | _ => rfl

theorem isFinite_or_infinity {u : UnpackedFloat} (h : u.isNaN = false) :
    u.isFinite = true ∨ ∃ s, u = .infinity s := by
  cases u with
  | notANumber => cases h
  | infinity s => exact .inr ⟨s, rfl⟩
  | _ => exact .inl rfl

theorem compare_eq {u v : UnpackedFloat} (hu : Canonical u) (hv : Canonical v)
    (hnu : u.isNaN = false) (hnv : v.isNaN = false) :
    UnpackedFloat.compare u v = some (compare (valueOf u) (valueOf v)) := by
  rcases isFinite_or_infinity hnu with hfu | ⟨s, rfl⟩
  · rcases isFinite_or_infinity hnv with hfv | ⟨t, rfl⟩
    · rw [compare_finite hu hv hfu hfv, valueOf_of_isFinite hfu, valueOf_of_isFinite hfv,
        compare_coe]
    · rw [valueOf_of_isFinite hfu]
      cases t with
      | positive =>
        change _ = some (compare (realOf u : EReal) ⊤)
        rw [compare_lt_iff_lt.mpr (EReal.coe_lt_top _)]
        cases u <;> first | rfl | cases hfu
      | negative =>
        change _ = some (compare (realOf u : EReal) ⊥)
        rw [compare_gt_iff_gt.mpr (EReal.bot_lt_coe _)]
        cases u <;> first | rfl | cases hfu
  · rcases isFinite_or_infinity hnv with hfv | ⟨t, rfl⟩
    · rw [valueOf_of_isFinite hfv]
      cases s with
      | positive =>
        change _ = some (compare ⊤ (realOf v : EReal))
        rw [compare_gt_iff_gt.mpr (EReal.coe_lt_top _)]
        cases v <;> first | rfl | cases hfv
      | negative =>
        change _ = some (compare ⊥ (realOf v : EReal))
        rw [compare_lt_iff_lt.mpr (EReal.bot_lt_coe _)]
        cases v <;> first | rfl | cases hfv
    · have hlt : (⊥ : EReal) < ⊤ := bot_lt_top
      cases s <;> cases t
      · change _ = some (compare (⊥ : EReal) ⊥)
        rw [compare_eq_iff_eq.mpr rfl]
        rfl
      · change _ = some (compare (⊥ : EReal) ⊤)
        rw [compare_lt_iff_lt.mpr hlt]
        rfl
      · change _ = some (compare (⊤ : EReal) ⊥)
        rw [compare_gt_iff_gt.mpr hlt]
        rfl
      · change _ = some (compare (⊤ : EReal) ⊤)
        rw [compare_eq_iff_eq.mpr rfl]
        rfl

theorem compare_nan_left {u v : UnpackedFloat} (h : u.isNaN = true) :
    UnpackedFloat.compare u v = none := by
  cases u with
  | notANumber => cases v <;> rfl
  | _ => cases h

theorem compare_nan_right {u v : UnpackedFloat} (h : v.isNaN = true) :
    UnpackedFloat.compare u v = none := by
  cases v with
  | notANumber => cases u <;> rfl
  | _ => cases h

theorem compare_toModel (x y : Float) :
    UnpackedFloat.compare x.toModel.unpack y.toModel.unpack =
      if x.isNaN = false ∧ y.isNaN = false then some (compare (value x) (value y)) else none := by
  split_ifs with h
  · exact compare_eq (canonical_unpack _) (canonical_unpack _) h.1 h.2
  · by_cases hx : x.isNaN = true
    · exact compare_nan_left hx
    · have hy : y.isNaN = true := by
        by_contra hy
        exact h ⟨Bool.eq_false_iff.mpr hx, Bool.eq_false_iff.mpr hy⟩
      exact compare_nan_right hy

theorem lt_iff {x y : Float} :
    x < y ↔ x.isNaN = false ∧ y.isNaN = false ∧ value x < value y := by
  change (decide ((UnpackedFloat.compare x.toModel.unpack y.toModel.unpack == some .lt) = true))
    = true ↔ _
  rw [decide_eq_true_iff, compare_toModel]
  split_ifs with h
  · rw [beq_iff_eq, Option.some_inj, compare_lt_iff_lt]
    tauto
  · simp only [beq_iff_eq, reduceCtorEq, false_iff]
    tauto

theorem le_iff {x y : Float} :
    x ≤ y ↔ x.isNaN = false ∧ y.isNaN = false ∧ value x ≤ value y := by
  change (decide ((UnpackedFloat.compare x.toModel.unpack y.toModel.unpack).any (·.isLE) = true))
    = true ↔ _
  rw [decide_eq_true_iff, compare_toModel]
  split_ifs with h
  · rw [Option.any_some]
    have hle := Ordering.isLE_iff_ne_gt.trans (compare_le_iff_le (a := value x) (b := value y))
    tauto
  · simp only [Option.any_none, Bool.false_eq_true, false_iff]
    tauto

theorem beq_iff {x y : Float} :
    (x == y) = true ↔ x.isNaN = false ∧ y.isNaN = false ∧ value x = value y := by
  change (UnpackedFloat.compare x.toModel.unpack y.toModel.unpack == some .eq) = true ↔ _
  rw [compare_toModel]
  split_ifs with h
  · rw [beq_iff_eq, Option.some_inj, compare_eq_iff_eq]
    tauto
  · simp only [beq_iff_eq, reduceCtorEq, false_iff]
    tauto

theorem not_lt_of_lt {x y : Float} (h : x < y) : ¬ y < x :=
  fun h' => lt_asymm (lt_iff.mp h).2.2 (lt_iff.mp h').2.2

theorem not_lt_iff_le {x y : Float} (hx : x.isNaN = false) (hy : y.isNaN = false) :
    ¬ x < y ↔ y ≤ x := by
  simp only [lt_iff, le_iff, hx, hy, true_and, not_lt]

theorem not_beq_of_lt {x y : Float} (h : x < y) : ¬ (x == y) = true :=
  fun h' => (lt_iff.mp h).2.2.ne (beq_iff.mp h').2.2

theorem not_beq_of_gt {x y : Float} (h : y < x) : ¬ (x == y) = true :=
  fun h' => (lt_iff.mp h).2.2.ne' (beq_iff.mp h').2.2

section
variable {x y : Float} (hx : x.isFinite = true) (hy : y.isFinite = true)
include hx hy

theorem lt_iff_toReal : x < y ↔ toReal x < toReal y := by
  rw [lt_iff, value_of_isFinite hx, value_of_isFinite hy, EReal.coe_lt_coe_iff,
    and_iff_right (isNaN_of_isFinite hx), and_iff_right (isNaN_of_isFinite hy)]

theorem le_iff_toReal : x ≤ y ↔ toReal x ≤ toReal y := by
  rw [le_iff, value_of_isFinite hx, value_of_isFinite hy, EReal.coe_le_coe_iff,
    and_iff_right (isNaN_of_isFinite hx), and_iff_right (isNaN_of_isFinite hy)]

theorem beq_iff_toReal : (x == y) = true ↔ toReal x = toReal y := by
  rw [beq_iff, value_of_isFinite hx, value_of_isFinite hy, EReal.coe_eq_coe_iff,
    and_iff_right (isNaN_of_isFinite hx), and_iff_right (isNaN_of_isFinite hy)]

end

theorem isFinite_of_between {x y z : Float} (hx : x.isFinite = true) (hz : z.isFinite = true)
    (hxy : x ≤ y) (hyz : y ≤ z) : y.isFinite = true := by
  obtain ⟨-, hy, h1⟩ := le_iff.mp hxy
  obtain ⟨-, -, h2⟩ := le_iff.mp hyz
  rw [value_of_isFinite hx] at h1
  rw [value_of_isFinite hz] at h2
  have hbot : value y ≠ ⊥ := ((EReal.bot_lt_coe _).trans_le h1).ne'
  have htop : value y ≠ ⊤ := (h2.trans_lt (EReal.coe_lt_top _)).ne
  exact isFinite_of_value hy (EReal.coe_toReal htop hbot).symm

end Toolpath.Double
