import Toolpath.Proofs.Arc.Sweep
import Toolpath.Proofs.Double.Decimal

/-! # The points shown of an arc

A point of the sweep is the centre plus a radius vector, and on the linear axis the start plus a
part of the rise. Angle and radius vector are in range, so overflow is left to four sums: where
these stay in range the point is finite, and where they do not it is infinite, but always a number.
-/
namespace Toolpath

open Double

/-- Whether all coordinates are numbers, infinite or not. -/
structure Position.IsNumber (p : Position Float) : Prop where
  x : p.x.isNaN = false
  y : p.y.isNaN = false
  z : p.z.isNaN = false

namespace Position

theorem isFinite_iff {p : Position Float} : p.isFinite = true ↔
    p.x.isFinite = true ∧ p.y.isFinite = true ∧ p.z.isFinite = true := by
  change (p.x.isFinite && p.y.isFinite && p.z.isFinite) = true ↔ _
  rw [Bool.and_eq_true, Bool.and_eq_true, and_assoc]

theorem isNumber_of_isFinite {p : Position Float} (h : p.isFinite = true) : p.IsNumber := by
  obtain ⟨hx, hy, hz⟩ := isFinite_iff.mp h
  exact ⟨isNaN_of_isFinite hx, isNaN_of_isFinite hy, isNaN_of_isFinite hz⟩

end Position

namespace Plane

theorem isFinite_unproject_iff (p : Plane) (a b l : Float) : (p.unproject a b l).isFinite = true ↔
    a.isFinite = true ∧ b.isFinite = true ∧ l.isFinite = true := by
  rw [Position.isFinite_iff]
  cases p
  · rfl
  · exact ⟨fun ⟨h1, h2, h3⟩ => ⟨h3, h1, h2⟩, fun ⟨h1, h2, h3⟩ => ⟨h2, h3, h1⟩⟩
  · exact ⟨fun ⟨h1, h2, h3⟩ => ⟨h2, h3, h1⟩, fun ⟨h1, h2, h3⟩ => ⟨h3, h1, h2⟩⟩

theorem isNumber_unproject (p : Plane) {a b l : Float} (ha : a.isNaN = false)
    (hb : b.isNaN = false) (hl : l.isNaN = false) : (p.unproject a b l).IsNumber := by
  cases p
  · exact ⟨ha, hb, hl⟩
  · exact ⟨hb, hl, ha⟩
  · exact ⟨hl, ha, hb⟩

end Plane

def fraction (i n : Nat) : Float := Scalar.ofNat (i + 1) / Scalar.ofNat n

theorem isGrid_two_pow_64 : IsGrid (2 ^ 64) := by
  exact_mod_cast isGrid_zpow (e := 64) (by norm_num) (by norm_num)

theorem ofNat_range {n : ℕ} (h0 : 0 < n) (hn : n ≤ 2 ^ 64) : (Float.ofNat n).isFinite = true ∧
    1 ≤ toReal (Float.ofNat n) ∧ toReal (Float.ofNat n) ≤ 2 ^ 64 := by
  have h1 : (1 : ℝ) ≤ n := by exact_mod_cast h0
  have h2 : (n : ℝ) ≤ 2 ^ 64 := by exact_mod_cast hn
  have hr := isRounded_ofNat n
  have hfin : (Float.ofNat n).isFinite = true := by
    apply hr.isFinite_of_le isGrid_two_pow_64
    rwa [abs_of_nonneg (by positivity), abs_of_nonneg (by positivity)]
  exact ⟨hfin, hr.ge_of_ge hfin isGrid_one h1, hr.le_of_le hfin isGrid_two_pow_64 h2⟩

/-- The samples are taken behind the start and up to the end of the sweep. -/
theorem fraction_range {i n : ℕ} (hi : i < n) (hn : n ≤ 2 ^ 64) :
    (fraction i n).isFinite = true ∧ 0 < toReal (fraction i n) ∧ toReal (fraction i n) ≤ 1 := by
  have hsmall : IsGrid ((2 ^ 64)⁻¹) := by
    rw [← zpow_natCast, ← zpow_neg]
    exact isGrid_zpow (by norm_num) (by norm_num)
  obtain ⟨hnum, hnum1, hnum2⟩ := ofNat_range (n := i + 1) (by omega) (by omega)
  obtain ⟨hden, hden1, hden2⟩ := ofNat_range (n := n) (by omega) hn
  have hle : toReal (Float.ofNat (i + 1)) ≤ toReal (Float.ofNat n) := by
    rw [(isRounded_ofNat _).toReal_eq hnum, (isRounded_ofNat _).toReal_eq hden]
    exact signedNearest_mono (by exact_mod_cast hi)
  have hpos : 0 < toReal (Float.ofNat n) := by linarith
  have hr := isRounded_div hnum hden hpos.ne'
  have hq1 : toReal (Float.ofNat (i + 1)) / toReal (Float.ofNat n) ≤ 1 := (div_le_one hpos).mpr hle
  have hq0 : (2 ^ 64)⁻¹ ≤ toReal (Float.ofNat (i + 1)) / toReal (Float.ofNat n) := by
    rw [inv_eq_one_div]
    exact div_le_div₀ (by linarith) hnum1 hpos hden2
  have hq : 0 < toReal (Float.ofNat (i + 1)) / toReal (Float.ofNat n) := by positivity
  have hfin : (fraction i n).isFinite = true := by
    apply hr.isFinite_of_le isGrid_one
    rwa [abs_of_pos hq, abs_one]
  have hge := hr.ge_of_ge hfin hsmall hq0
  exact ⟨hfin, lt_of_lt_of_le (by positivity) hge, hr.le_of_le hfin isGrid_one hq1⟩

theorem Sampling.count_range (s : Sampling Float) (hmin : s.minimum ≤ 2 ^ 64) (sweep : Float) :
    0 < s.count sweep ∧ s.count sweep ≤ 2 ^ 64 := by
  have hone := s.one_le_minimum
  have hmax : Sampling.maxCount ≤ 2 ^ 64 := by decide
  unfold Sampling.count
  omega

namespace Arc

def angleAt (a : Arc Float) (t : Float) : Float := a.startAngle + a.sweep * t

def low (a : Arc Float) : Float := (a.plane.project a.start).2.2

def high (a : Arc Float) : Float := (a.plane.project a.target).2.2

/-- Whether the sums that make the point at a fraction of the sweep stay in range. -/
structure FitsAt (E : Elementary Float) (a : Arc Float) (t : Float) : Prop where
  first : |toReal (a.plane.project a.center).1 + toReal (a.radius * E.cos (a.angleAt t))| < overflow
  second :
    |toReal (a.plane.project a.center).2.1 + toReal (a.radius * E.sin (a.angleAt t))| < overflow
  rise : |toReal a.high - toReal a.low| < overflow
  linear : |toReal a.low + toReal ((a.high - a.low) * t)| < overflow

theorem pointAt_eq (E : Elementary Float) (a : Arc Float) (t : Float) : a.pointAt E t =
    a.plane.unproject ((a.plane.project a.center).1 + a.radius * E.cos (a.angleAt t))
      ((a.plane.project a.center).2.1 + a.radius * E.sin (a.angleAt t))
      (a.low + (a.high - a.low) * t) := rfl

theorem isGrid_two_turns : IsGrid (4 * toReal Scalar.pi) := by
  refine ⟨7074237752028440, -49, ?_, by norm_num, by norm_num, by norm_num⟩
  rw [toReal_pi, abs_of_pos (by positivity)]
  norm_num

section
variable {E : Elementary Float} {a : Arc Float} (hE : E.Lawful) (hw : a.WellFormed E)
include hw

theorem radius_mul_finite {c : Float} (hc : -1 ≤ c ∧ c ≤ 1) : (a.radius * c).isFinite = true := by
  have hone : (-1 : Float).isFinite = true := rfl
  have hfin := isFinite_of_between hone isFinite_one hc.1 hc.2
  have hlower : -1 ≤ toReal c := by
    have h := (le_iff_toReal hone hfin).mp hc.1
    rwa [toReal_neg, toReal_one] at h
  have hupper : toReal c ≤ 1 := by
    have h := (le_iff_toReal hfin isFinite_one).mp hc.2
    rwa [toReal_one] at h
  apply (isRounded_mul hw.radius_finite hfin).isFinite_of_le (isGrid_toReal a.radius)
  rw [abs_mul]
  exact mul_le_of_le_one_right (abs_nonneg _) (abs_le.mpr ⟨hlower, hupper⟩)

variable (hs : a.start.isFinite = true) {t : Float} (ht : t.isFinite = true) (ht0 : 0 < toReal t)
  (ht1 : toReal t ≤ 1)
include hE hs ht ht0 ht1

theorem angleAt_finite : (a.angleAt t).isFinite = true := by
  have hturn := withinTurn_sweep hE hw hs
  obtain ⟨hfs, hls, hus⟩ := angle_range hE hw hs
  have htau := toReal_tau
  have hpi := toReal_pi_pos
  have hpart : |toReal a.sweep * toReal t| ≤ |toReal Scalar.tau| := by
    rw [abs_mul, abs_of_pos ht0, abs_of_pos (by linarith : 0 < toReal Scalar.tau)]
    have hsweep : |toReal a.sweep| ≤ toReal Scalar.tau := abs_le.mpr ⟨hturn.lower, hturn.upper⟩
    exact (mul_le_of_le_one_right (abs_nonneg _) ht1).trans hsweep
  have hr := isRounded_mul hturn.finite ht
  have hfin := hr.isFinite_of_le (isGrid_toReal Scalar.tau) hpart
  have hbounds := abs_le.mp (hpart.trans_eq (abs_of_pos (by linarith)))
  have hlower := hr.ge_of_ge hfin (isGrid_toReal Scalar.tau).neg hbounds.1
  have hupper := hr.le_of_le hfin (isGrid_toReal Scalar.tau) hbounds.2
  rw [← hw.startAngle_eq] at hfs hls hus
  apply (isRounded_add hfs hfin).isFinite_of_le isGrid_two_turns
  rw [abs_of_pos (by linarith : 0 < 4 * toReal Scalar.pi), abs_le]
  constructor <;> linarith

theorem summands_finite :
    (a.radius * E.cos (a.angleAt t)).isFinite = true ∧
    (a.radius * E.sin (a.angleAt t)).isFinite = true ∧
    a.low.isFinite = true ∧ a.high.isFinite = true := by
  have hangle := angleAt_finite hE hw hs ht ht0 ht1
  exact ⟨radius_mul_finite hw (hE.cos_range hangle), radius_mul_finite hw (hE.sin_range hangle),
    (a.plane.project_finite hs).2.2, (a.plane.project_finite hw.target_finite).2.2⟩

/-- A point of the sweep is finite just if none of its sums overflows. -/
theorem pointAt_isFinite_iff : (a.pointAt E t).isFinite = true ↔ a.FitsAt E t := by
  obtain ⟨hc1, hc2⟩ := center_finite hE hw
  obtain ⟨hcos, hsin, hlow, hhigh⟩ := summands_finite hE hw hs ht ht0 ht1
  have hrise := isRounded_sub hhigh hlow
  have hpart (hfin : (a.high - a.low).isFinite = true) :
      ((a.high - a.low) * t).isFinite = true := by
    apply (isRounded_mul hfin ht).isFinite_of_le (isGrid_toReal (a.high - a.low))
    rw [abs_mul, abs_of_pos ht0]
    exact mul_le_of_le_one_right (abs_nonneg _) ht1
  rw [pointAt_eq, Plane.isFinite_unproject_iff, (isRounded_add hc1 hcos).isFinite_iff,
    (isRounded_add hc2 hsin).isFinite_iff]
  constructor
  · rintro ⟨h1, h2, h3⟩
    have hfin := (isFinite_of_mul (isFinite_of_add h3).2).1
    exact ⟨h1, h2, hrise.isFinite_iff.mp hfin,
      (isRounded_add hlow (hpart hfin)).isFinite_iff.mp h3⟩
  · intro h
    have hfin := hrise.isFinite_iff.mpr h.rise
    exact ⟨h.first, h.second, (isRounded_add hlow (hpart hfin)).isFinite_iff.mpr h.linear⟩

theorem pointAt_isNumber : (a.pointAt E t).IsNumber := by
  obtain ⟨hc1, hc2⟩ := center_finite hE hw
  obtain ⟨hcos, hsin, hlow, hhigh⟩ := summands_finite hE hw hs ht ht0 ht1
  have hpart := isNaN_mul_of_isFinite (isRounded_sub hhigh hlow).not_nan ht ht0.ne'
  rw [pointAt_eq]
  exact a.plane.isNumber_unproject (isRounded_add hc1 hcos).not_nan (isRounded_add hc2 hsin).not_nan
    (isNaN_add_of_isFinite hlow hpart)

end
end Arc
end Toolpath
