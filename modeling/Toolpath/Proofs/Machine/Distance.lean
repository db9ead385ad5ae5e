import Toolpath.Machine
import Toolpath.Proofs.Arc.Points
import Toolpath.Proofs.Double.Nonnegative
import Toolpath.Proofs.Double.Relative

/-! # Computed distances and times

The distance of two positions is the root of a sum of squares, and its time the distance over the
feed. Both are within a few units of the exact ones, as long as the squares are in range: it is the
square of the distance that decides whether a distance is found at all.
-/
namespace Toolpath

open Double

namespace Double

theorem underflow_le : underflow ≤ 2 ^ (-200 : ℤ) :=
  zpow_le_zpow_right₀ one_le_two (by norm_num)

theorem one_lt_overflow : 1 < overflow := by simpa using isGrid_one.lt_overflow

/-- What underflow may take from a few operations is below a unit. -/
theorem mul_underflow_le : 60 * underflow ≤ 2 * unit := by
  refine (mul_le_mul_of_nonneg_left underflow_le (by norm_num)).trans ?_
  norm_num [unit]

theorem half_le_pow {k : ℕ} (hk : k ≤ 8) : 1 / 2 ≤ (1 - unit) ^ k := by
  have hu := unit_pos
  have hu1 := unit_lt_one
  refine le_trans ?_ (pow_le_pow_of_le_one (by linarith) (by linarith) hk)
  norm_num [unit]

theorem pow_le_two {k : ℕ} (hk : k ≤ 8) : (1 + unit) ^ k ≤ 2 := by
  have hu := unit_pos
  refine (pow_le_pow_right₀ (by linarith) hk).trans ?_
  norm_num [unit]

end Double

namespace Position
variable {p q : Position Float}

noncomputable def square (p q : Position Float) : ℝ :=
  (toReal p.x - toReal q.x) * (toReal p.x - toReal q.x) +
    (toReal p.y - toReal q.y) * (toReal p.y - toReal q.y) +
    (toReal p.z - toReal q.z) * (toReal p.z - toReal q.z)

def squares (p q : Position Float) : Float :=
  (p.x - q.x) * (p.x - q.x) + (p.y - q.y) * (p.y - q.y) + (p.z - q.z) * (p.z - q.z)

theorem distanceTo_eq (p q : Position Float) : p.distanceTo q = (p.squares q).sqrt := rfl

theorem square_nonneg (p q : Position Float) : 0 ≤ p.square q := by
  unfold square
  have hx := mul_self_nonneg (toReal p.x - toReal q.x)
  have hy := mul_self_nonneg (toReal p.y - toReal q.y)
  have hz := mul_self_nonneg (toReal p.z - toReal q.z)
  linarith

/-- The square of a difference stays near, and is in range if the exact one is. -/
theorem mul_self_sub_near {x y : Float} (hx : x.isFinite = true) (hy : y.isFinite = true) :
    (((x - y) * (x - y)).isFinite = true → Near 3 underflow (toReal ((x - y) * (x - y)))
      ((toReal x - toReal y) * (toReal x - toReal y))) ∧
    ((toReal x - toReal y) * (toReal x - toReal y) * (1 + unit) ^ 2 < overflow →
      ((x - y) * (x - y)).isFinite = true) := by
  have hr := isRounded_sub hx hy
  obtain ⟨d, hd⟩ : ∃ d, d = toReal x - toReal y := ⟨_, rfl⟩
  rw [← hd] at hr ⊢
  have hnear : (x - y).isFinite = true → Near 2 0 (toReal (x - y) * toReal (x - y)) (d * d) := by
    intro hfin
    -- a difference of doubles is a multiple of the least one, so nothing is lost in underflow
    obtain ⟨j, hj⟩ := (isGrid_toReal x).exists_int
    obtain ⟨k, hk⟩ := (isGrid_toReal y).exists_int
    obtain ⟨c, hc⟩ : ∃ c, c = |d| := ⟨_, rfl⟩
    have hc0 : 0 ≤ c := hc ▸ abs_nonneg d
    have hint : c = ((|j - k| : ℤ) : ℝ) * 2 ^ (-1074 : ℤ) := by
      rw [hc, hd, hj, hk, ← sub_mul, abs_mul,
        abs_of_pos (by positivity : (0 : ℝ) < 2 ^ (-1074 : ℤ))]
      push_cast
      rfl
    have herr : |nearest c - c| ≤ unit * c + 0 := by
      rw [add_zero]
      exact abs_nearest_sub_le_of_int hc0 hint
    have hone : Near 1 0 |toReal (x - y)| c := by
      rw [hr.toReal_eq hfin, abs_signedNearest, ← hc]
      simpa using (Near.refl c).round le_rfl herr
    have h := hone.mul_self hc0
    rwa [abs_mul_abs_self, hc, abs_mul_abs_self] at h
  constructor
  · intro hfin
    have hdiff := (isFinite_of_mul hfin).1
    have h := ((isRounded_mul hdiff hdiff).near (mul_self_nonneg _) (hnear hdiff) le_rfl).1 hfin
    exact h.mono (mul_self_nonneg d) le_rfl (by norm_num)
  · intro hlt
    have hu := unit_pos
    have hsquare : d * d < overflow := by
      refine lt_of_le_of_lt ?_ hlt
      exact le_mul_of_one_le_right (mul_self_nonneg d) (one_le_pow₀ (by linarith))
    have hdiff : (x - y).isFinite = true := by
      rw [hr.isFinite_iff]
      by_contra hnot
      have hle := not_lt.mp hnot
      have hgrow := mul_le_mul hle (one_lt_overflow.le.trans hle) zero_le_one (abs_nonneg d)
      rw [abs_mul_abs_self, mul_one] at hgrow
      linarith
    exact ((isRounded_mul hdiff hdiff).near (mul_self_nonneg _) (hnear hdiff) le_rfl).2
      (by rwa [add_zero])

section
variable (hp : p.isFinite = true) (hq : q.isFinite = true)
include hp hq

/-- The sum of squares stays near, and is in range if the square of the distance is. -/
theorem squares_near :
    ((p.squares q).isFinite = true →
      Near 5 (13 * underflow) (toReal (p.squares q)) (p.square q)) ∧
    (p.square q * (1 + unit) ^ 5 + 13 * underflow < overflow → (p.squares q).isFinite = true) := by
  obtain ⟨hpx, hpy, hpz⟩ := isFinite_iff.mp hp
  obtain ⟨hqx, hqy, hqz⟩ := isFinite_iff.mp hq
  obtain ⟨nearx, fitx⟩ := mul_self_sub_near hpx hqx
  obtain ⟨neary, fity⟩ := mul_self_sub_near hpy hqy
  obtain ⟨nearz, fitz⟩ := mul_self_sub_near hpz hqz
  have hu := unit_pos
  have hslack := underflow_pos
  have hnonneg {d : Float} (h : (d * d).isFinite = true) : 0 ≤ toReal (d * d) :=
    (isRounded_mul (isFinite_of_mul h).1 (isFinite_of_mul h).1).ge_of_ge h isGrid_zero
      (mul_self_nonneg _)
  have hX := mul_self_nonneg (toReal p.x - toReal q.x)
  have hY := mul_self_nonneg (toReal p.y - toReal q.y)
  have hZ := mul_self_nonneg (toReal p.z - toReal q.z)
  have hXY (hfx : ((p.x - q.x) * (p.x - q.x)).isFinite = true)
      (hfy : ((p.y - q.y) * (p.y - q.y)).isFinite = true) :=
    (isRounded_add hfx hfy).near (add_nonneg (hnonneg hfx) (hnonneg hfy))
      ((nearx hfx).add (neary hfy)) (by linarith)
  have hXYZ (hfx : ((p.x - q.x) * (p.x - q.x)).isFinite = true)
      (hfy : ((p.y - q.y) * (p.y - q.y)).isFinite = true)
      (hfxy : ((p.x - q.x) * (p.x - q.x) + (p.y - q.y) * (p.y - q.y)).isFinite = true)
      (hfz : ((p.z - q.z) * (p.z - q.z)).isFinite = true) :=
    have hxy0 := (isRounded_add hfx hfy).ge_of_ge hfxy isGrid_zero
      (add_nonneg (hnonneg hfx) (hnonneg hfy))
    (isRounded_add hfxy hfz).near (add_nonneg hxy0 (hnonneg hfz))
      (((hXY hfx hfy).1 hfxy).add ((nearz hfz).mono hZ (by norm_num) le_rfl)) (by linarith)
  constructor
  · intro hfin
    obtain ⟨hfxy, hfz⟩ := isFinite_of_add hfin
    obtain ⟨hfx, hfy⟩ := isFinite_of_add hfxy
    exact ((hXYZ hfx hfy hfxy hfz).1 hfin).mono (square_nonneg p q) le_rfl (by linarith)
  · intro hlt
    have hroom {r a : ℝ} {k : ℕ} (hr : r ≤ p.square q) (hk : k ≤ 5) (ha : a ≤ 13 * underflow) :
        r * (1 + unit) ^ k + a < overflow := by
      have hpow : (1 + unit) ^ k ≤ (1 + unit) ^ 5 := pow_le_pow_right₀ (by linarith) hk
      have hle := mul_le_mul hr hpow (by positivity) (square_nonneg p q)
      linarith
    have hle : p.square q = (toReal p.x - toReal q.x) * (toReal p.x - toReal q.x) +
      (toReal p.y - toReal q.y) * (toReal p.y - toReal q.y) +
      (toReal p.z - toReal q.z) * (toReal p.z - toReal q.z) := rfl
    have hpart {r : ℝ} (hr : r ≤ p.square q) : r * (1 + unit) ^ 2 < overflow := by
      have h := hroom hr (by norm_num : 2 ≤ 5) (by linarith : 0 ≤ 13 * underflow)
      rwa [add_zero] at h
    have hfx := fitx (hpart (by linarith))
    have hfy := fity (hpart (by linarith))
    have hfz := fitz (hpart (by linarith))
    have hfxy := (hXY hfx hfy).2 (hroom (by linarith) (by norm_num) (by linarith))
    exact (hXYZ hfx hfy hfxy hfz).2 (hroom le_rfl (by norm_num) (by linarith))

theorem zero_le_squares : 0 ≤ p.squares q := by
  obtain ⟨hpx, hpy, hpz⟩ := isFinite_iff.mp hp
  obtain ⟨hqx, hqy, hqz⟩ := isFinite_iff.mp hq
  have hsq {x y : Float} (hx : x.isFinite = true) (hy : y.isFinite = true) :
      0 ≤ (x - y) * (x - y) := zero_le_mul_self (isRounded_sub hx hy).not_nan
  exact zero_le_add (zero_le_add (hsq hpx hqx) (hsq hpy hqy)) (hsq hpz hqz)

/-- Whether a distance is found is decided by its square. -/
theorem distanceTo_isFinite :
    ((p.distanceTo q).isFinite = true →
      p.square q * (1 - unit) ^ 5 - 13 * underflow < overflow) ∧
    (p.square q * (1 + unit) ^ 5 + 13 * underflow < overflow →
      (p.distanceTo q).isFinite = true) := by
  rw [distanceTo_eq, isFinite_sqrt_iff (zero_le_squares hp hq)]
  obtain ⟨hnear, hfits⟩ := squares_near hp hq
  refine ⟨fun hfin => ?_, hfits⟩
  exact (hnear hfin).lower.trans_lt (lt_of_abs_lt (isGrid_toReal _).lt_overflow)

/-- A distance that is found stays near, unless it is so short that its square is lost. -/
theorem distanceTo_near (hfin : (p.distanceTo q).isFinite = true)
    (hlong : 2 ^ (-118 : ℤ) ≤ p.square q) :
    Near 4 0 (toReal (p.distanceTo q)) √(p.square q) := by
  have hS : 0 ≤ p.squares q := zero_le_squares hp hq
  rw [distanceTo_eq] at hfin ⊢
  have hfS := (isFinite_sqrt_iff hS).mp hfin
  rw [le_iff_toReal isFinite_zero hfS, toReal_zero] at hS
  have hD := square_nonneg p q
  have hsquares : Near 6 0 (toReal (p.squares q)) (p.square q) := by
    apply ((squares_near hp hq).1 hfS).absorb hD
    have hhalf := half_le_pow (by norm_num : 5 ≤ 8)
    have hpart := mul_le_mul hlong hhalf (by norm_num) hD
    refine le_trans ?_ (mul_le_mul_of_nonneg_left hpart unit_pos.le)
    refine (mul_le_mul_of_nonneg_left underflow_le (by norm_num)).trans ?_
    norm_num [unit]
  have hroot : Near 3 0 √(toReal (p.squares q)) √(p.square q) := by
    apply Near.sqrt _ (Real.sqrt_nonneg _)
    rwa [Real.mul_self_sqrt hD]
  have hnormal : (2 : ℝ) ^ (-1022 : ℤ) ≤ √(toReal (p.squares q)) := by
    have hhalf := half_le_pow (by norm_num : 6 ≤ 8)
    have hpart := mul_le_mul hlong hhalf (by norm_num) hD
    have hroot : (2 : ℝ) ^ (-100 : ℤ) ≤ √(toReal (p.squares q)) := by
      apply Real.le_sqrt_of_sq_le
      refine le_trans ?_ (hpart.trans (Near.exact_iff.mp hsquares).1)
      norm_num
    exact (zpow_le_zpow_right₀ one_le_two (by norm_num)).trans hroot
  rw [(isRounded_sqrt hfS hS).toReal_eq hfin, signedNearest_of_nonneg (Real.sqrt_nonneg _)]
  have herr := abs_nearest_sub_le_of_normal hnormal
  simpa using hroot.round le_rfl (by rwa [add_zero])

theorem distanceTo_le_of_short (hshort : p.square q ≤ 2 ^ (-118 : ℤ)) :
    (p.distanceTo q).isFinite = true ∧ toReal (p.distanceTo q) ≤ 2 ^ (-58 : ℤ) := by
  have hS : 0 ≤ p.squares q := zero_le_squares hp hq
  obtain ⟨hnear, hfits⟩ := squares_near hp hq
  have hsum : p.square q * (1 + unit) ^ 5 + 13 * underflow ≤ 2 ^ (-116 : ℤ) := by
    have hu := unit_pos
    have hpart := mul_le_mul hshort (pow_le_two (by norm_num : 5 ≤ 8)) (by positivity)
      (by positivity)
    have hslack := mul_le_mul_of_nonneg_left underflow_le (by norm_num : (0 : ℝ) ≤ 13)
    refine (add_le_add hpart hslack).trans ?_
    norm_num
  have hfS := hfits (hsum.trans_lt (zpow_lt_overflow (by norm_num)))
  have hfin := (isFinite_sqrt_iff hS).mpr hfS
  rw [le_iff_toReal isFinite_zero hfS, toReal_zero] at hS
  refine ⟨hfin, (isRounded_sqrt hfS hS).le_of_le hfin (isGrid_zpow (by norm_num) (by norm_num)) ?_⟩
  apply Real.sqrt_le_iff.mpr ⟨by positivity, ((hnear hfS).upper.trans hsum).trans ?_⟩
  norm_num

end

end Position

theorem isFinite_sixty : (60 : Float).isFinite = true := rfl

theorem toReal_sixty : toReal 60 = 60 := by
  change ((8444249301319680 : ℕ) : ℝ) * 2 ^ (-47 : ℤ) = 60
  norm_num

/-- No feed is so small that a very short distance takes too long. -/
theorem div_le_of_short {d : ℝ} {f : Float} (hf0 : 0 < toReal f) (h : d ≤ 2 ^ (-58 : ℤ)) :
    d / toReal f ≤ 2 ^ (1016 : ℤ) := by
  have hleast := (isGrid_toReal f).least_le hf0
  refine (div_le_div₀ (by positivity) h (by positivity) hleast).trans_eq ?_
  rw [← zpow_sub₀ two_ne_zero]
  rfl

theorem mul_sixty_lt {x : ℝ} (h : x ≤ 2 ^ (1016 : ℤ)) : x * 60 < overflow := by
  calc x * 60 ≤ 2 ^ (1016 : ℤ) * 2 ^ (6 : ℤ) :=
        mul_le_mul h (by norm_num) (by norm_num) (by positivity)
    _ = 2 ^ (1022 : ℤ) := by
        rw [← zpow_add₀ two_ne_zero]
        rfl
    _ < overflow := zpow_lt_overflow (by norm_num)

section
variable {d f : Float} (hd : d.isFinite = true) (hd0 : 0 ≤ toReal d) (hf : f.isFinite = true)
  (hf0 : 0 < toReal f)
include hd hd0 hf hf0

/-- The time of a distance stays near. -/
theorem time_near {k : ℕ} {r : ℝ} (h : Near k 0 (toReal d) r) :
    ((d / f * 60).isFinite = true →
      r / toReal f * 60 * (1 - unit) ^ (k + 1) - 60 * underflow < overflow) ∧
    (r / toReal f * 60 * (1 + unit) ^ (k + 1) + 60 * underflow < overflow →
      (d / f * 60).isFinite = true) := by
  have hslack := underflow_pos
  have hu := unit_pos
  have hquotient : Near k 0 (toReal d / toReal f) (r / toReal f) := by
    have h' := h.mul_const (inv_nonneg.mpr hf0.le)
    rwa [zero_mul, ← div_eq_mul_inv, ← div_eq_mul_inv] at h'
  have hrounded := isRounded_div hd hf hf0.ne'
  have hq0 : 0 ≤ toReal d / toReal f := div_nonneg hd0 hf0.le
  obtain ⟨hnear, hfits⟩ := hrounded.near hq0 hquotient le_rfl
  have hminute (hq : (d / f).isFinite = true) :
      Near (k + 1) (60 * underflow) (toReal (d / f) * 60) (r / toReal f * 60) := by
    have h' := (hnear hq).mul_const (by norm_num : (0 : ℝ) ≤ 60)
    rwa [mul_zero, zero_add, mul_comm underflow] at h'
  have htime (hq : (d / f).isFinite = true) :
      (d / f * 60).isFinite = true ↔ toReal (d / f) * 60 < overflow := by
    have hr := isRounded_mul hq isFinite_sixty
    have h0 := hrounded.ge_of_ge hq isGrid_zero hq0
    rw [toReal_sixty] at hr
    rw [hr.isFinite_iff, abs_of_nonneg (by positivity)]
  constructor
  · intro hfin
    have hq := (isFinite_of_mul hfin).1
    exact (hminute hq).lower.trans_lt ((htime hq).mp hfin)
  · intro hlt
    have hq : (d / f).isFinite = true := by
      apply hfits
      have hup := hq0.trans hquotient.upper
      rw [add_zero] at hup ⊢
      have hgrow := mul_nonneg hup hu.le
      rw [pow_succ] at hlt
      linarith
    exact (htime hq).mpr ((hminute hq).upper.trans_lt hlt)

theorem time_of_short (h : toReal d ≤ 2 ^ (-58 : ℤ)) : (d / f * 60).isFinite = true := by
  have hr := isRounded_div hd hf hf0.ne'
  have hq0 : 0 ≤ toReal d / toReal f := div_nonneg hd0 hf0.le
  have hquotient := div_le_of_short hf0 h
  have hq : (d / f).isFinite = true := by
    rw [hr.isFinite_iff, abs_of_nonneg hq0]
    exact hquotient.trans_lt (zpow_lt_overflow (by norm_num))
  have hq1 : toReal (d / f) ≤ 2 ^ (1016 : ℤ) := by
    rw [hr.toReal_eq hq, signedNearest_of_nonneg hq0, ← nearest_zpow (e := 1016) (by norm_num)]
    exact nearest_mono hq0 hquotient
  have hq0' := hr.ge_of_ge hq isGrid_zero hq0
  have htime := isRounded_mul hq isFinite_sixty
  rw [toReal_sixty] at htime
  rw [htime.isFinite_iff, abs_of_nonneg (by positivity)]
  exact mul_sixty_lt hq1

end

/-- A time is out of range only where there is a feed, and then it is the quotient. -/
theorem moveTime_cases {d f : Float} (hd : d.isFinite = true) :
    (moveTime d f).isFinite = true ∨
    (f.isFinite = true ∧ 0 < toReal f ∧ moveTime d f = d / f * 60) := by
  unfold moveTime
  split
  next hpos =>
    by_cases hf : f.isFinite = true
    · exact .inr ⟨hf, (lt_iff_toReal isFinite_zero hf).mp hpos, rfl⟩
    · left
      have hn := (lt_iff.mp hpos).2.1
      have hzero := toReal_div_infinite hd hf hn
      obtain ⟨s, hs⟩ := div_infinite hd hf hn
      have hq : (d / f).isFinite = true := by
        rw [hs]
        cases s <;> rfl
      rw [(isRounded_mul hq isFinite_sixty).isFinite_iff, hzero, zero_mul, abs_zero]
      exact overflow_pos
  next => exact .inl isFinite_zero

/-- Whether a straight move goes too far for a limit: by the square of its distance, or by its
time. -/
def Exceeds (p q : Position Float) (feed : Float) (limit : ℝ) : Prop :=
  limit ≤ p.square q ∨
  (feed.isFinite = true ∧ 0 < toReal feed ∧ limit ≤ √(p.square q) / toReal feed * 60)

theorem overflow_le_of_le {l : ℝ} (h : overflow * (1 + 8 * unit) ≤ l) :
    overflow ≤ l * (1 - unit) ^ 5 - 60 * underflow := by
  have hone := one_lt_overflow
  have hpow : 1 + 2 * unit ≤ (1 + 8 * unit) * (1 - unit) ^ 5 := by norm_num [unit]
  have hslack := mul_underflow_le
  have hu := unit_pos
  have h0 : 0 ≤ (1 - unit) ^ 5 := pow_nonneg (by linarith [unit_lt_one]) 5
  calc overflow ≤ overflow * (1 + 2 * unit) - 60 * underflow := by nlinarith
    _ ≤ overflow * ((1 + 8 * unit) * (1 - unit) ^ 5) - 60 * underflow := by
        linarith [mul_le_mul_of_nonneg_left hpow overflow_pos.le]
    _ ≤ l * (1 - unit) ^ 5 - 60 * underflow := by
        linarith [mul_le_mul_of_nonneg_right h h0]

theorem lt_overflow_of_lt {l : ℝ} (h : l < overflow * (1 - 8 * unit)) :
    l * (1 + unit) ^ 5 + 60 * underflow < overflow := by
  have hone := one_lt_overflow
  have hpow : (1 - 8 * unit) * (1 + unit) ^ 5 ≤ 1 - 2 * unit := by norm_num [unit]
  have hslack := mul_underflow_le
  have hu := unit_pos
  have h0 : 0 < (1 + unit) ^ 5 := by positivity
  calc l * (1 + unit) ^ 5 + 60 * underflow
      < overflow * ((1 - 8 * unit) * (1 + unit) ^ 5) + 60 * underflow := by
        linarith [mul_lt_mul_of_pos_right h h0]
    _ ≤ overflow * (1 - 2 * unit) + 60 * underflow := by
        linarith [mul_le_mul_of_nonneg_left hpow overflow_pos.le]
    _ ≤ overflow := by nlinarith

/-- Straight moves are made up to where numbers are in range, within a few units. -/
theorem isRepresentable_distanceTo {p q : Position Float} (hp : p.isFinite = true)
    (hq : q.isFinite = true) (feed : Float) :
    (Exceeds p q feed (overflow * (1 + 8 * unit)) →
      isRepresentable (p.distanceTo q) feed = false) ∧
    (isRepresentable (p.distanceTo q) feed = false →
      Exceeds p q feed (overflow * (1 - 8 * unit))) := by
  have hu := unit_pos
  have hslack := underflow_pos
  have hD0 := Real.sqrt_nonneg (p.square q)
  obtain ⟨hfound, hfits⟩ := Position.distanceTo_isFinite hp hq
  have hd0 (hfin : (p.distanceTo q).isFinite = true) : 0 ≤ toReal (p.distanceTo q) :=
    toReal_sqrt_nonneg hfin
  constructor
  · intro hexceeds
    by_contra hnot
    obtain ⟨hfin, htime⟩ := Bool.and_eq_true_iff.mp (Bool.not_eq_false _ ▸ hnot)
    rcases hexceeds with hfar | ⟨hf, hf0, hlate⟩
    · linarith [overflow_le_of_le hfar, hfound hfin]
    · have hpos : 0 < feed := (lt_iff_toReal isFinite_zero hf).mpr hf0
      rw [moveTime, if_pos hpos] at htime
      have hlong : 2 ^ (-118 : ℤ) ≤ p.square q := by
        by_contra hshort
        have hD : √(p.square q) ≤ 2 ^ (-58 : ℤ) := by
          refine Real.sqrt_le_iff.mpr ⟨by positivity, (not_le.mp hshort).le.trans ?_⟩
          norm_num
        have hlt := mul_sixty_lt (div_le_of_short hf0 hD)
        nlinarith [overflow_pos]
      have hnear := Position.distanceTo_near hp hq hfin hlong
      have hin := (time_near hfin (hd0 hfin) hf hf0 hnear).1 htime
      linarith [overflow_le_of_le hlate]
  · intro hrefused
    by_contra hnot
    obtain ⟨hnear, hearly⟩ := not_or.mp hnot
    have hfin := hfits (by linarith [lt_overflow_of_lt (not_le.mp hnear)])
    have htime : (moveTime (p.distanceTo q) feed).isFinite = true := by
      rcases moveTime_cases (f := feed) hfin with hfin' | ⟨hf, hf0, heq⟩
      · exact hfin'
      · rw [heq]
        rcases le_total (p.square q) (2 ^ (-118 : ℤ)) with hshort | hlong
        · exact time_of_short hfin (hd0 hfin) hf hf0 (Position.distanceTo_le_of_short hp hq hshort).2
        · have hlt : √(p.square q) / toReal feed * 60 < overflow * (1 - 8 * unit) := by
            by_contra hge
            exact hearly ⟨hf, hf0, not_lt.mp hge⟩
          exact (time_near hfin (hd0 hfin) hf hf0
            (Position.distanceTo_near hp hq hfin hlong)).2 (lt_overflow_of_lt hlt)
    rw [isRepresentable, hfin, htime] at hrefused
    cases hrefused

end Toolpath
