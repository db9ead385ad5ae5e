import Mathlib.Tactic
import Toolpath.Duration
import Toolpath.Proofs.Double.Integers
import Toolpath.Proofs.Double.Sums

/-! # Tenths of a second

A number of seconds has the tenths nearest to ten times it, as far as they can be told apart. What
is negative or not a number has none. So every double has tenths, and a longer duration has no
fewer.
-/
namespace Toolpath.Duration
open Double

/-- The tenths of a number of seconds. Ten times the number is a double, and a half goes up. -/
inductive IsTenths (seconds : Float) : ℕ → Prop
  | none (h : ¬ 0 < seconds) : IsTenths seconds 0
  | nearest (h : 0 < seconds) (hfinite : (seconds * 10).isFinite = true) :
    IsTenths seconds (min (round (toReal (seconds * 10))).toNat maxTenths)
  | most (h : 0 < seconds) (hinfinite : (seconds * 10).isFinite = false) :
    IsTenths seconds maxTenths

theorem toReal_ten : toReal 10 = 10 := (toReal_of_nat? (n := 10) (by decide +kernel)).2

section
variable {x y : Float}

theorem isRounded_ten_mul (hx : x.isFinite = true) : IsRounded (x * 10) (toReal x * 10) := by
  have h := isRounded_mul hx (y := 10) rfl
  rwa [toReal_ten] at h

theorem zero_le_of_pos (h : 0 < x) : 0 ≤ x := by
  obtain ⟨hzero, hx, hlt⟩ := lt_iff.mp h
  exact le_iff.mpr ⟨hzero, hx, hlt.le⟩

/-- Ten times a number is not below zero if the number is not, and infinite if the number is. -/
theorem zero_le_mul_ten (h : 0 ≤ x) : 0 ≤ x * 10 := by
  rcases cases_of_zero_le h with ⟨hfinite, hreal⟩ | hinfinity
  · exact (isRounded_ten_mul hfinite).zero_le (by positivity)
  · change 0 ≤ Float.ofModel (.pack (Float.Model.UnpackedFloat.mul .binary64 x.toModel.unpack _))
    rw [hinfinity]
    exact zero_le_infinity

theorem mul_ten_le (hx : 0 ≤ x) (hle : x ≤ y) (hy : (y * 10).isFinite = true) :
    x * 10 ≤ y * 10 := by
  have hfy := (isFinite_of_mul hy).1
  have hfx := isFinite_of_between isFinite_zero hfy hx hle
  have hreal := (le_iff_toReal hfx hfy).mp hle
  exact (isRounded_ten_mul hfx).le (isRounded_ten_mul hfy) (by linarith)

end

variable {x y : Float}

theorem tenths_of_not_pos (h : ¬ 0 < x) : tenths x = 0 := by
  have hzero : Binary.ofFloat (0 * 10) = .finite false 0 0 := by decide +kernel
  rw [tenths, if_neg h, hzero]
  rfl

theorem tenths_of_isFinite (h : 0 < x) (hfinite : (x * 10).isFinite = true) :
    tenths x = min (round (toReal (x * 10))).toNat maxTenths := by
  obtain ⟨negative, m, e, hx⟩ := exists_ofFloat_of_isFinite hfinite
  have hreal := (of_ofFloat hx).2
  rw [tenths, if_pos h, hx, hreal]
  cases negative with
  | false =>
    change min (Binary.roundHalfUp (Binary.ratio m e).1 (Binary.ratio m e).2) maxTenths =
      min (round ((m : ℝ) * 2 ^ e)).toNat maxTenths
    rw [roundHalfUp_eq_round _ (ratio_spec m e).1, ratio_eq]
  | true =>
    -- ten times what is above zero is not negative, so this is a zero
    have hpos := zero_le_mul_ten (zero_le_of_pos h)
    rw [le_iff_toReal isFinite_zero hfinite, toReal_zero, hreal] at hpos
    have hneg : (0 : ℝ) ≤ -((m : ℝ) * 2 ^ e) := hpos
    have hmagnitude : (0 : ℝ) ≤ (m : ℝ) * 2 ^ e := by positivity
    change 0 = min (round (-((m : ℝ) * 2 ^ e))).toNat maxTenths
    rw [le_antisymm (by linarith) hmagnitude, neg_zero, round_zero]
    rfl

theorem tenths_of_not_isFinite (h : 0 < x) (hinfinite : (x * 10).isFinite = false) :
    tenths x = maxTenths := by
  have hpos := zero_le_mul_ten (zero_le_of_pos h)
  rw [tenths, if_pos h]
  cases hx : Binary.ofFloat (x * 10) with
  | nan =>
    rw [eq_of_ofFloat_nan hx] at hpos
    exact absurd hpos (by decide +kernel)
  | infinity negative =>
    cases negative with
    | false => rfl
    | true =>
      rw [eq_of_ofFloat_infinity hx] at hpos
      exact absurd hpos (by decide +kernel)
  | finite negative m e =>
    rw [(of_ofFloat hx).1] at hinfinite
    cases hinfinite

/-- Every double has tenths, and these are computed. -/
theorem isTenths_tenths (x : Float) : IsTenths x (tenths x) := by
  by_cases h : 0 < x
  · cases hfinite : (x * 10).isFinite with
    | true =>
      rw [tenths_of_isFinite h hfinite]
      exact .nearest h hfinite
    | false =>
      rw [tenths_of_not_isFinite h hfinite]
      exact .most h hfinite
  · rw [tenths_of_not_pos h]
    exact .none h

theorem IsTenths.le_maxTenths {n : ℕ} (h : IsTenths x n) : n ≤ maxTenths := by
  cases h with
  | none => exact Nat.zero_le _
  | nearest => exact min_le_right _ _
  | most => exact le_rfl

theorem round_toReal_le (hle : x ≤ y) (hx : x.isFinite = true) (hy : y.isFinite = true) :
    round (toReal x) ≤ round (toReal y) := by
  rw [round_eq, round_eq]
  have := (le_iff_toReal hx hy).mp hle
  exact Int.floor_mono (by linarith)

/-- A longer duration has no fewer tenths. -/
theorem tenths_mono (hle : x ≤ y) : tenths x ≤ tenths y := by
  by_cases hx : 0 < x
  · have hy : 0 < y :=
      lt_iff.mpr ⟨rfl, (le_iff.mp hle).2.1, (lt_iff.mp hx).2.2.trans_le (le_iff.mp hle).2.2⟩
    cases hfinite : (y * 10).isFinite with
    | true =>
      have hten := mul_ten_le (zero_le_of_pos hx) hle hfinite
      have hzero := zero_le_mul_ten (zero_le_of_pos hx)
      have hfx := isFinite_of_between isFinite_zero hfinite hzero hten
      rw [tenths_of_isFinite hx hfx, tenths_of_isFinite hy hfinite]
      exact min_le_min_right _ (Int.toNat_le_toNat (round_toReal_le hten hfx hfinite))
    | false =>
      rw [tenths_of_not_isFinite hy hfinite]
      exact (isTenths_tenths x).le_maxTenths
  · rw [tenths_of_not_pos hx]
    exact Nat.zero_le _

end Toolpath.Duration
