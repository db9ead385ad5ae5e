import Toolpath.Proofs.Double.Functions

/-! # Relative errors

Rounding moves a number by half a step of its grid at most. From the least number with 53 bits on
this is a fraction of the number, below it a fixed amount, and sums of doubles are not rounded there
at all. `Near` collects the errors of a computation step by step: so many roundings of the exact
result, and a slack for what may have been lost in underflow.
-/
namespace Toolpath.Double

theorem unit_pos : 0 < unit := by
  unfold unit
  positivity

theorem unit_lt_one : unit < 1 := by
  unfold unit
  norm_num

theorem underflow_pos : 0 < underflow := by
  unfold underflow
  positivity

theorem abs_nearestInt_sub_le (x : ℝ) : |nearestInt x - x| ≤ 1 / 2 := by
  have hsplit := Int.floor_add_fract x
  have h0 := Int.fract_nonneg x
  have h1 := Int.fract_lt_one x
  rw [abs_le]
  unfold nearestInt
  split_ifs with h
  · have hhalf : Int.fract x ≤ 1 / 2 := h.elim le_of_lt fun h => h.1.le
    constructor <;> linarith
  · have hhalf : 1 / 2 ≤ Int.fract x := by
      by_contra hlt
      exact h (.inl (not_le.mp hlt))
    push_cast
    constructor <;> linarith

theorem abs_nearest_sub_le (x : ℝ) : |nearest x - x| ≤ 2 ^ gridExponent x / 2 := by
  have hpos : (0 : ℝ) < 2 ^ gridExponent x := by positivity
  have hscale : nearest x - x =
      (nearestInt (x / 2 ^ gridExponent x) - x / 2 ^ gridExponent x) * 2 ^ gridExponent x := by
    unfold nearest
    field_simp
  rw [hscale, abs_mul, abs_of_pos hpos]
  have h := mul_le_mul_of_nonneg_right (abs_nearestInt_sub_le (x / 2 ^ gridExponent x)) hpos.le
  linarith

theorem nearest_zpow {e : ℤ} (he : -1074 ≤ e) : nearest (2 ^ e) = 2 ^ e := by
  have h := nearest_grid (m := 1) (by norm_num) he
  rwa [Nat.cast_one, one_mul] at h

section
variable {x : ℝ}

/-- A number that is not too small has 53 bits on its grid. -/
theorem le_of_normal (hx : 2 ^ (-1022 : ℤ) ≤ x) : 2 ^ (gridExponent x + 52) ≤ x := by
  rcases (le_gridExponent x).eq_or_lt with heq | hlt
  · rw [← heq]
    exact hx
  · exact le_of_lt_gridExponent (lt_of_lt_of_le (by positivity) hx) hlt

theorem grid_eq (g : ℤ) : (2 : ℝ) ^ g / 2 = unit * 2 ^ (g + 52) := by
  unfold unit
  rw [← zpow_add₀ two_ne_zero, show -53 + (g + 52) = g - 1 by ring, zpow_sub_one₀ two_ne_zero]
  rfl

theorem abs_nearest_sub_le_of_normal (hx : 2 ^ (-1022 : ℤ) ≤ x) : |nearest x - x| ≤ unit * x := by
  have h := abs_nearest_sub_le x
  rw [grid_eq] at h
  exact h.trans (mul_le_mul_of_nonneg_left (le_of_normal hx) unit_pos.le)

theorem abs_nearest_sub_le_of_small (h0 : 0 ≤ x) (hx : x < 2 ^ (-1022 : ℤ)) :
    |nearest x - x| ≤ underflow := by
  rcases h0.eq_or_lt with rfl | hpos
  · rw [nearest_zero, sub_zero, abs_zero]
    exact underflow_pos.le
  · have hgrid : gridExponent x = -1074 := gridExponent_eq le_rfl (.inl rfl) hpos
      (hx.trans (zpow_lt_zpow_right₀ one_lt_two (by norm_num)))
    have h := abs_nearest_sub_le x
    have hhalf : (2 : ℝ) ^ (-1074 : ℤ) / 2 = underflow := by
      unfold underflow
      rw [show (-1075 : ℤ) = -1074 - 1 by rfl, zpow_sub_one₀ two_ne_zero]
      rfl
    rwa [hgrid, hhalf] at h

theorem abs_nearest_sub_le_add (h0 : 0 ≤ x) : |nearest x - x| ≤ unit * x + underflow := by
  have hux : 0 ≤ unit * x := mul_nonneg unit_pos.le h0
  have hu := underflow_pos
  rcases lt_or_ge x (2 ^ (-1022 : ℤ)) with hsmall | hnormal
  · linarith [abs_nearest_sub_le_of_small h0 hsmall]
  · linarith [abs_nearest_sub_le_of_normal hnormal]

/-- Multiples of the least double are not rounded unless they have 53 bits. -/
theorem abs_nearest_sub_le_of_int {k : ℤ} (h0 : 0 ≤ x) (hk : x = k * 2 ^ (-1074 : ℤ)) :
    |nearest x - x| ≤ unit * x := by
  rcases lt_or_ge x (2 ^ (-1022 : ℤ)) with hsmall | hnormal
  · have hp : (0 : ℝ) < 2 ^ (-1074 : ℤ) := by positivity
    have hk0 : 0 ≤ k := by
      by_contra hneg
      have hlt : (k : ℝ) < 0 := by exact_mod_cast not_le.mp hneg
      have := mul_neg_of_neg_of_pos hlt hp
      linarith
    obtain ⟨n, rfl⟩ := Int.eq_ofNat_of_zero_le hk0
    have hn : n < 2 ^ 53 := by
      have hpow : (2 : ℝ) ^ (-1022 : ℤ) = 2 ^ 52 * 2 ^ (-1074 : ℤ) := by
        rw [show (-1022 : ℤ) = 52 + -1074 by rfl, zpow_add₀ two_ne_zero]
        rfl
      rw [hk, hpow, Int.cast_natCast] at hsmall
      have hlt : (n : ℝ) < 2 ^ 52 := lt_of_mul_lt_mul_right hsmall hp.le
      have hlt' : n < 2 ^ 52 := by exact_mod_cast hlt
      exact hlt'.trans (by norm_num)
    rw [hk, Int.cast_natCast, nearest_grid hn le_rfl, sub_self, abs_zero]
    exact mul_nonneg unit_pos.le (by positivity)
  · exact abs_nearest_sub_le_of_normal hnormal

/-- What is rounded up stays below the middle of the step, and the bound is sharp there. -/
theorem nearest_mul_le (hx : 2 ^ (-1022 : ℤ) ≤ x) :
    nearest x * (1 + unit) ≤ x * (1 + 2 * unit) := by
  have hu := unit_pos
  have hv := le_of_normal hx
  have herr := abs_nearest_sub_le x
  have hstep : (2 : ℝ) ^ (gridExponent x + 52) = 2 ^ 52 * 2 ^ gridExponent x := by
    rw [zpow_add₀ two_ne_zero, mul_comm]
    rfl
  rw [grid_eq] at herr
  obtain ⟨v, hvdef⟩ : ∃ v : ℝ, v = 2 ^ (gridExponent x + 52) := ⟨_, rfl⟩
  rw [← hvdef] at hv herr
  by_cases hfar : v * (1 + unit) ≤ x
  · have hle : nearest x ≤ x + unit * v := by linarith [(abs_le.mp herr).2]
    nlinarith
  · -- just above the power of two all numbers are rounded down to it
    have hg : (0 : ℝ) < 2 ^ gridExponent x := by positivity
    have hhalf : x / 2 ^ gridExponent x < ((2 ^ 52 : ℤ) : ℝ) + 1 / 2 := by
      rw [div_lt_iff₀ hg]
      have hgrid := grid_eq (gridExponent x)
      rw [← hvdef] at hgrid
      push_cast
      have hlt := not_le.mp hfar
      rw [hvdef, hstep] at hlt
      rw [hvdef, hstep] at hgrid
      linarith
    have hint : (nearestInt (x / 2 ^ gridExponent x) : ℝ) ≤ ((2 ^ 52 : ℤ) : ℝ) := by
      exact_mod_cast nearestInt_le_of_lt_half hhalf
    have hle : nearest x ≤ x := by
      refine le_trans ?_ hv
      rw [hvdef, hstep, nearest]
      exact mul_le_mul_of_nonneg_right (by exact_mod_cast hint) hg.le
    have h0 : 0 < x := lt_of_lt_of_le (by positivity) hx
    nlinarith

/-- What is rounded down stays above the middle of the step. -/
theorem le_nearest_mul (hx : 2 ^ (-1022 : ℤ) ≤ x) : x ≤ nearest x * (1 + unit) := by
  have hu := unit_pos
  have hv := le_of_normal hx
  have herr := abs_nearest_sub_le x
  rw [grid_eq] at herr
  have hp : (0 : ℝ) < 2 ^ (gridExponent x + 52) := by positivity
  have hge : 2 ^ (gridExponent x + 52) ≤ nearest x := by
    have hle := le_gridExponent x
    rw [← nearest_zpow (e := gridExponent x + 52) (by omega)]
    exact nearest_mono hp.le hv
  have hlow : x ≤ nearest x + unit * 2 ^ (gridExponent x + 52) := by linarith [(abs_le.mp herr).1]
  have hmul := mul_le_mul_of_nonneg_left hge hu.le
  linarith

end

/-- Two doubles are a unit apart. -/
theorem IsGrid.mul_lt {x y : ℝ} (hx : IsGrid x) (hy : IsGrid y) (h0 : 0 < x) (h : x < y) :
    x * (1 + unit) < y := by
  obtain ⟨g, hg⟩ : ∃ g, g = gridExponent x := ⟨_, rfl⟩
  have hp : (0 : ℝ) < 2 ^ g := by positivity
  have hmultiple {z : ℝ} (hz : IsGrid z) (hz0 : 0 < z) (hle : g ≤ gridExponent z) :
      ∃ n : ℤ, z = n * 2 ^ g := by
    obtain ⟨k, hk⟩ := Int.le.dest hle
    refine ⟨nearestInt (z / 2 ^ gridExponent z) * 2 ^ k, ?_⟩
    have hself : nearestInt (z / 2 ^ gridExponent z) * 2 ^ gridExponent z = z := by
      have h := hz.signedNearest_eq
      rwa [signedNearest_of_nonneg hz0.le] at h
    have hpow : (2 : ℝ) ^ gridExponent z = 2 ^ g * 2 ^ k := by
      rw [← hk, zpow_add₀ two_ne_zero, zpow_natCast]
    push_cast
    linear_combination (nearestInt (z / 2 ^ gridExponent z) : ℝ) * hpow - hself
  obtain ⟨m, hm⟩ := hmultiple hx h0 hg.le
  obtain ⟨n, hn⟩ := hmultiple hy (h0.trans h) (hg ▸ gridExponent_mono h0 h.le)
  have hstep : x + 2 ^ g ≤ y := by
    have hlt : (m : ℝ) * 2 ^ g < n * 2 ^ g := by rwa [← hm, ← hn]
    have hmn : (m : ℝ) + 1 ≤ n := by
      have h' : (m : ℝ) < n := lt_of_mul_lt_mul_right hlt hp.le
      exact_mod_cast h'
    rw [hm, hn]
    linarith [mul_le_mul_of_nonneg_right hmn hp.le]
  have hunit : unit * x < 2 ^ g := by
    have hlt := mul_lt_mul_of_pos_left (lt_of_gridExponent x) unit_pos
    rwa [← hg, unit, ← zpow_add₀ two_ne_zero, show -53 + (g + 53) = g by ring] at hlt
  linarith

theorem zpow_le_mul_self {z : ℝ} {e : ℤ} (h : 2 ^ e ≤ z) : 2 ^ (e + e) ≤ z * z := by
  rw [zpow_add₀ two_ne_zero]
  exact mul_self_le_mul_self (by positivity) h

/-- The squares of two doubles are kept apart by rounding. -/
theorem nearest_mul_self_lt {x y : ℝ} (hx : IsGrid x) (hy : IsGrid y) (h0 : 0 ≤ x) (h : x < y)
    (hlow : 2 ^ (-510 : ℤ) ≤ y) : nearest (x * x) < nearest (y * y) := by
  rcases lt_or_ge x (2 ^ (-511 : ℤ)) with hsmall | hlarge
  · have hbelow : x * x ≤ 2 ^ (-511 + -511 : ℤ) := by
      rw [zpow_add₀ two_ne_zero]
      exact mul_self_le_mul_self h0 hsmall.le
    calc nearest (x * x) ≤ nearest (2 ^ (-511 + -511 : ℤ)) :=
          nearest_mono (mul_nonneg h0 h0) hbelow
      _ = 2 ^ (-511 + -511 : ℤ) := nearest_zpow (by norm_num)
      _ < 2 ^ (-510 + -510 : ℤ) := zpow_lt_zpow_right₀ one_lt_two (by norm_num)
      _ = nearest (2 ^ (-510 + -510 : ℤ)) := (nearest_zpow (by norm_num)).symm
      _ ≤ nearest (y * y) := nearest_mono (by positivity) (zpow_le_mul_self hlow)
  · have hu := unit_pos
    have hpos : 0 < x := lt_of_lt_of_le (by positivity) hlarge
    have hup := nearest_mul_le (zpow_le_mul_self hlarge)
    have hdown := le_nearest_mul (zpow_le_mul_self (hlarge.trans h.le))
    have hsquare : x * (1 + unit) * (x * (1 + unit)) < y * y :=
      mul_self_lt_mul_self (by positivity) (hx.mul_lt hy hpos h)
    -- a unit squared separates the two bounds
    have hgap : x * x * (1 + 2 * unit) < y * y := by nlinarith [mul_pos hpos hpos, mul_pos hu hu]
    exact lt_of_mul_lt_mul_right (hup.trans_lt (hgap.trans_le hdown)) (by linarith)

/-- A computed number is as near to the exact one as `k` roundings leave it, up to a slack. -/
structure Near (k : ℕ) (slack computed exact : ℝ) : Prop where
  lower : exact * (1 - unit) ^ k - slack ≤ computed
  upper : computed ≤ exact * (1 + unit) ^ k + slack

namespace Near
variable {k l : ℕ} {a b x y r q : ℝ}

theorem refl (r : ℝ) : Near 0 0 r r := ⟨by simp, by simp⟩

theorem mono (h : Near k a x r) (hr : 0 ≤ r) (hk : k ≤ l) (hab : a ≤ b) : Near l b x r := by
  have hu := unit_pos
  have hu1 := unit_lt_one
  have hlow : r * (1 - unit) ^ l ≤ r * (1 - unit) ^ k :=
    mul_le_mul_of_nonneg_left (pow_le_pow_of_le_one (by linarith) (by linarith) hk) hr
  have hup : r * (1 + unit) ^ k ≤ r * (1 + unit) ^ l :=
    mul_le_mul_of_nonneg_left (pow_le_pow_right₀ (by linarith) hk) hr
  exact ⟨by linarith [h.lower], by linarith [h.upper]⟩

theorem add (hx : Near k a x r) (hy : Near k b y q) : Near k (a + b) (x + y) (r + q) :=
  ⟨by linarith [hx.lower, hy.lower], by linarith [hx.upper, hy.upper]⟩

theorem mul_const (h : Near k a x r) {c : ℝ} (hc : 0 ≤ c) : Near k (a * c) (x * c) (r * c) :=
  ⟨by linarith [mul_le_mul_of_nonneg_right h.lower hc],
    by linarith [mul_le_mul_of_nonneg_right h.upper hc]⟩

theorem exact_iff : Near k 0 x r ↔ r * (1 - unit) ^ k ≤ x ∧ x ≤ r * (1 + unit) ^ k := by
  constructor
  · intro h
    have hlow := h.lower
    have hup := h.upper
    rw [sub_zero] at hlow
    rw [add_zero] at hup
    exact ⟨hlow, hup⟩
  · rintro ⟨hlow, hup⟩
    exact ⟨by rwa [sub_zero], by rwa [add_zero]⟩

theorem mul_pow_two_mul (r c : ℝ) (k : ℕ) : r * r * c ^ (2 * k) = r * c ^ k * (r * c ^ k) := by
  rw [two_mul, pow_add]
  ring

theorem mul_self (h : Near k 0 x r) (hr : 0 ≤ r) : Near (2 * k) 0 (x * x) (r * r) := by
  obtain ⟨hlow, hup⟩ := exact_iff.mp h
  have hu := unit_lt_one
  have h0 : 0 ≤ r * (1 - unit) ^ k := mul_nonneg hr (pow_nonneg (by linarith) k)
  rw [exact_iff, mul_pow_two_mul, mul_pow_two_mul]
  exact ⟨mul_self_le_mul_self h0 hlow, mul_self_le_mul_self (h0.trans hlow) hup⟩

theorem sqrt (h : Near (2 * k) 0 x (r * r)) (hr : 0 ≤ r) : Near k 0 √x r := by
  obtain ⟨hlow, hup⟩ := exact_iff.mp h
  rw [mul_pow_two_mul, ← sq] at hlow hup
  have hu := unit_pos
  have h0 : 0 ≤ r * (1 + unit) ^ k := mul_nonneg hr (pow_nonneg (by linarith) k)
  rw [exact_iff]
  exact ⟨Real.le_sqrt_of_sq_le hlow, Real.sqrt_le_iff.mpr ⟨h0, hup⟩⟩

/-- One more rounding. -/
theorem round (h : Near k a x r) (ha : 0 ≤ a) (he : |y - x| ≤ unit * x + b) :
    Near (k + 1) (2 * a + b) y r := by
  have hu := unit_pos
  have hu1 := unit_lt_one
  obtain ⟨hdown, hup⟩ := abs_le.mp he
  have hlow := mul_le_mul_of_nonneg_right h.lower (by linarith : 0 ≤ 1 - unit)
  have hhigh := mul_le_mul_of_nonneg_right h.upper (by linarith : 0 ≤ 1 + unit)
  have hslack := mul_le_mul_of_nonneg_left hu1.le ha
  have hslack0 := mul_nonneg ha hu.le
  constructor
  · rw [pow_succ]
    linarith
  · rw [pow_succ]
    linarith

/-- One more rounding also covers a slack that is small enough. -/
theorem absorb (h : Near k a x r) (hr : 0 ≤ r) (ha : a ≤ unit * (r * (1 - unit) ^ k)) :
    Near (k + 1) 0 x r := by
  have hu := unit_pos
  have hpow : r * (1 - unit) ^ k ≤ r * (1 + unit) ^ k :=
    mul_le_mul_of_nonneg_left
      (pow_le_pow_left₀ (by linarith [unit_lt_one]) (by linarith) k) hr
  have hcover := ha.trans (mul_le_mul_of_nonneg_left hpow hu.le)
  rw [exact_iff, pow_succ, pow_succ]
  constructor
  · linarith [h.lower]
  · linarith [h.upper]

end Near

/-- Rounding the result of a computation: how near it stays, and when it is in range. -/
theorem IsRounded.near {z : Float} {k : ℕ} {a x r : ℝ} (hz : IsRounded z x) (hx : 0 ≤ x)
    (h : Near k a x r) (ha : 0 ≤ a) :
    (z.isFinite = true → Near (k + 1) (2 * a + underflow) (toReal z) r) ∧
    (r * (1 + unit) ^ k + a < overflow → z.isFinite = true) := by
  constructor
  · intro hfin
    rw [hz.toReal_eq hfin, signedNearest_of_nonneg hx]
    exact h.round ha (abs_nearest_sub_le_add hx)
  · intro hlt
    rw [hz.isFinite_iff, abs_of_nonneg hx]
    exact h.upper.trans_lt hlt

end Toolpath.Double
