import Toolpath.Proofs.Double.Mantissa

/-! # Unpacked numbers

Arithmetic is done on unpacked numbers and packed again. An unpacked number is canonical if its
mantissa has 53 bits, or fewer at the least exponent; these are the numbers that packing can take,
and it makes infinities of those whose exponent is too large. The result of an operation is
canonical, and after packing its value is the exact result, `rounded`.
-/
namespace Toolpath.Double
open Float.Model Float.Model.UnpackedFloat

noncomputable def signed : Sign → ℝ → ℝ
  | .positive, x => x
  | .negative, x => -x

@[simp] theorem abs_signed (s : Sign) (x : ℝ) : |signed s x| = |x| := by
  cases s
  · exact abs_neg x
  · rfl

@[simp] theorem signed_zero (s : Sign) : signed s 0 = 0 := by
  cases s
  · exact neg_zero
  · rfl

theorem signedNearest_signed (s : Sign) (x : ℝ) :
    signedNearest (signed s x) = signed s (signedNearest x) := by
  cases s
  · exact signedNearest_neg x
  · rfl

noncomputable def realOf : UnpackedFloat → ℝ
  | .finite s m e _ => signed s (scaled m e)
  | _ => 0

noncomputable def valueOf : UnpackedFloat → EReal
  | .infinity .positive => ⊤
  | .infinity .negative => ⊥
  | u => (realOf u : EReal)

def Canonical : UnpackedFloat → Prop
  | .finite _ m e _ => m < 2 ^ 53 ∧ -1074 ≤ e ∧ (2 ^ 52 ≤ m ∨ e = -1074)
  | _ => True

/-- What is left of a canonical number by packing it. -/
def settle : UnpackedFloat → UnpackedFloat
  | .finite s m e h => if e ≤ 971 then .finite s m e h else .infinity s
  | u => u

theorem settle_finite {s : Sign} {m : ℕ} {e : ℤ} {h : 0 < m} (he : e ≤ 971) :
    settle (.finite s m e h) = .finite s m e h := if_pos he

theorem targetExponent_eq (m : ℕ) (e : ℤ) :
    Format.binary64.targetExponent (totalExponent m e) = max ((m.log2 : ℤ) + e - 52) (-1074) := by
  simp only [Format.targetExponent, totalExponent, Format.mantissaBits, Format.minExponent]
  norm_num
  omega

/-- The exponent to which a mantissa is brought is the one of the grid. -/
theorem targetExponent_eq_gridExponent {m : ℕ} {e : ℤ} {x : ℝ} (hx : 0 < x)
    (hfloor : ⌊x / 2 ^ e⌋ = (m : ℤ)) (he : e ≤ Format.binary64.targetExponent (totalExponent m e)) :
    Format.binary64.targetExponent (totalExponent m e) = gridExponent x := by
  rw [targetExponent_eq] at he ⊢
  obtain ⟨hlow, hhigh⟩ := Int.floor_eq_iff.mp hfloor
  have hp : (0 : ℝ) < 2 ^ e := by positivity
  rw [le_div_iff₀ hp, Int.cast_natCast] at hlow
  rw [div_lt_iff₀ hp, Int.cast_natCast] at hhigh
  rcases Nat.eq_zero_or_pos m with rfl | hm
  · -- nothing is left of the number: it is below the least grid
    have he' : e ≤ -1074 := by
      simp only [Nat.log2_zero, Nat.cast_zero, zero_add] at he
      omega
    have hg : gridExponent x ≤ -1074 := by
      apply gridExponent_le hx le_rfl
      rw [Nat.cast_zero, zero_add, one_mul] at hhigh
      exact hhigh.trans_le (zpow_le_zpow_right₀ (by norm_num) (by omega))
    have := le_gridExponent x
    simp only [Nat.log2_zero, Nat.cast_zero, zero_add]
    omega
  · have hbits : (2 : ℝ) ^ m.log2 ≤ m := by exact_mod_cast Nat.log2_self_le hm.ne'
    have hbits' : (m : ℝ) + 1 ≤ 2 ^ (m.log2 + 1) := by
      exact_mod_cast Nat.succ_le_of_lt Nat.lt_log2_self
    have hle : (m.log2 : ℤ) + e ≤ Int.log 2 x := by
      apply (Int.zpow_le_iff_le_log (by norm_num) hx).mp
      push_cast
      rw [zpow_add₀ (by norm_num), zpow_natCast]
      exact (mul_le_mul_of_nonneg_right hbits hp.le).trans hlow
    have hlt : Int.log 2 x < (m.log2 : ℤ) + 1 + e := by
      apply (Int.lt_zpow_iff_log_lt (by norm_num) hx).mp
      push_cast
      rw [zpow_add₀ (by norm_num)]
      exact hhigh.trans_le (mul_le_mul_of_nonneg_right (by exact_mod_cast hbits') hp.le)
    unfold gridExponent
    omega

/-- A mantissa of 53 bits stays as it is, and one that a carry has filled loses a zero. -/
theorem shiftToTargetExponent_exact {r : ℕ} {t : ℤ} (hr : r ≤ 2 ^ 53) (ht : -1074 ≤ t) :
    ∃ (r' : ℕ) (t' : ℤ), shiftToTargetExponent .binary64 r t .exact = (⟨r', false, false⟩, t') ∧
      (r' : ℝ) * 2 ^ t' = r * 2 ^ t ∧ r' < 2 ^ 53 ∧ -1074 ≤ t' ∧
      (2 ^ 52 ≤ r' ∨ (r' = r ∧ t' = t)) := by
  rcases hr.lt_or_eq with hlt | rfl
  · refine ⟨r, t, ?_, rfl, hlt, ht, .inr ⟨rfl, rfl⟩⟩
    have hbits : r.log2 < 53 := by
      rcases Nat.eq_zero_or_pos r with rfl | hpos
      · simp
      · exact (Nat.log2_lt hpos.ne').mpr hlt
    have hstay : (Format.binary64.targetExponent (totalExponent r t) - t).toNat = 0 := by
      rw [targetExponent_eq]
      omega
    simp only [shiftToTargetExponent, shiftToExponent, hstay, Nat.cast_zero, add_zero]
    rfl
  · refine ⟨2 ^ 52, t + 1, ?_, ?_, by norm_num, by omega, .inl le_rfl⟩
    · have hone : (Format.binary64.targetExponent (totalExponent (2 ^ 53) t) - t).toNat = 1 := by
        rw [targetExponent_eq, Nat.log2_two_pow]
        omega
      simp only [shiftToTargetExponent, shiftToExponent, hone, Nat.cast_one]
      rfl
    · rw [zpow_add₀ (by norm_num)]
      push_cast
      ring

/-- The mantissa at the target exponent, before the last carry. -/
theorem first_rounding {m : ℕ} {e : ℤ} {acc : Accuracy} {x : ℝ} (hx : 0 ≤ x)
    (h : Holds (.ofMantissaAndAccuracy m acc) (x / 2 ^ e))
    (he : e ≤ Format.binary64.targetExponent (totalExponent m e)) :
    ∃ (em : ExtendedMantissa) (t : ℤ), shiftToTargetExponent .binary64 m e acc = (em, t) ∧
      (em.roundedMantissa : ℝ) * 2 ^ t = nearest x ∧ em.roundedMantissa ≤ 2 ^ 53 ∧ -1074 ≤ t ∧
      (2 ^ 52 ≤ em.roundedMantissa ∨ t = -1074 ∨ em.roundedMantissa = 0) := by
  obtain ⟨t, ht⟩ : ∃ t, t = Format.binary64.targetExponent (totalExponent m e) := ⟨_, rfl⟩
  rw [← ht] at he
  obtain ⟨k, hk⟩ := Int.le.dest he
  have hshift : (t - e).toNat = k := by omega
  have hem := h.shiftRight k
  rw [div_div, ← zpow_natCast, ← zpow_add₀ (by norm_num), hk] at hem
  have hrounded := hem.roundedMantissa_eq
  have hlow : -1074 ≤ t := by
    rw [ht, targetExponent_eq]
    exact le_max_right _ _
  refine ⟨ExtendedMantissa.ofMantissaAndAccuracy m acc >>> k, t, ?_, ?_⟩
  · simp only [shiftToTargetExponent, shiftToExponent, ← ht, hshift, hk]
  rcases hx.eq_or_lt with rfl | hpos
  · rw [zero_div, show (0 : ℝ) = ((0 : ℤ) : ℝ) by simp, nearestInt_intCast] at hrounded
    have hz : (ExtendedMantissa.ofMantissaAndAccuracy m acc >>> k).roundedMantissa = 0 := by
      exact_mod_cast hrounded
    rw [hz]
    simp [hlow]
  · have hgrid : t = gridExponent x := by
      have hfloor : ⌊x / 2 ^ e⌋ = (m : ℤ) := by
        rw [h.floor_eq]
        cases acc with
        | exact => rfl
        | inexact o => cases o <;> rfl
      rw [ht]
      exact targetExponent_eq_gridExponent hpos hfloor (ht ▸ he)
    rw [hgrid] at hrounded hlow ⊢
    refine ⟨?_, ?_, hlow, ?_⟩
    · rw [nearest, ← hrounded, Int.cast_natCast]
    · have := nearestInt_le_of_lt (x := x)
      rw [← hrounded] at this
      exact_mod_cast this
    · rcases hlow.eq_or_lt with heq | hlt
      · exact .inr (.inl heq.symm)
      · have := le_nearestInt_of_lt hpos hlt
        rw [← hrounded] at this
        exact .inl (by exact_mod_cast this)

/-- What rounding makes of a mantissa that holds a number. -/
theorem roundWithAccuracy_spec (s : Sign) {m : ℕ} {e : ℤ} {acc : Accuracy} {x : ℝ} (hx : 0 ≤ x)
    (h : Holds (.ofMantissaAndAccuracy m acc) (x / 2 ^ e))
    (he : e ≤ Format.binary64.targetExponent (totalExponent m e)) :
    Canonical (roundWithAccuracy .binary64 s m e acc) ∧
      realOf (roundWithAccuracy .binary64 s m e acc) = signed s (nearest x) := by
  obtain ⟨em, t, hfirst, hvalue, hbits, ht, hfull⟩ := first_rounding hx h he
  obtain ⟨r, t', hsecond, hvalue', hr, ht', hfull'⟩ := shiftToTargetExponent_exact hbits ht
  have hunfold : roundWithAccuracy .binary64 s m e acc =
      if h : r = 0 then .zero s else .finite s r t' (Nat.pos_of_ne_zero h) := by
    unfold roundWithAccuracy
    simp only [hfirst, hsecond]
  rw [hvalue] at hvalue'
  rw [hunfold]
  split_ifs with hz
  · subst hz
    refine ⟨trivial, ?_⟩
    rw [← hvalue', Nat.cast_zero, zero_mul, signed_zero]
    rfl
  · refine ⟨⟨hr, ht', ?_⟩, by rw [← hvalue']; rfl⟩
    rcases hfull' with hfull' | ⟨rfl, rfl⟩
    · exact .inl hfull'
    · tauto

theorem Canonical.le_iff {s : Sign} {m : ℕ} {e : ℤ} {h : 0 < m} (hc : Canonical (.finite s m e h)) :
    e ≤ 971 ↔ (m : ℝ) * 2 ^ e < 2 ^ (1024 : ℤ) := by
  obtain ⟨hm, he, hfull⟩ := hc
  constructor
  · intro hle
    have h1 : (m : ℝ) < 2 ^ (53 : ℤ) := by exact_mod_cast hm
    calc (m : ℝ) * 2 ^ e < 2 ^ (53 : ℤ) * 2 ^ e := mul_lt_mul_of_pos_right h1 (by positivity)
      _ = 2 ^ (53 + e) := (zpow_add₀ (by norm_num) _ _).symm
      _ ≤ 2 ^ (1024 : ℤ) := zpow_le_zpow_right₀ (by norm_num) (by omega)
  · intro hlt
    by_contra hgt
    have h1 : (2 : ℝ) ^ (52 : ℤ) ≤ m := by exact_mod_cast hfull.resolve_right (by omega)
    have h2 : (2 : ℝ) ^ (1024 : ℤ) ≤ m * 2 ^ e := by
      calc (2 : ℝ) ^ (1024 : ℤ) ≤ 2 ^ (52 + e) := zpow_le_zpow_right₀ (by norm_num) (by omega)
        _ = 2 ^ (52 : ℤ) * 2 ^ e := zpow_add₀ (by norm_num) _ _
        _ ≤ m * 2 ^ e := mul_le_mul_of_nonneg_right h1 (by positivity)
    exact absurd hlt (not_lt.mpr h2)

/-- An infinity stands for what overflows on its side. -/
theorem valueOf_infinity {s : Sign} {r z : ℝ} (hr : 0 < r) (hz : signed s r = signedNearest z)
    (hover : overflow ≤ |z|) : valueOf (.infinity s) = rounded z := by
  cases s with
  | positive =>
    change r = _ at hz
    have h0 : 0 ≤ z := by
      by_contra hneg
      rw [signedNearest, if_neg hneg] at hz
      have := nearest_nonneg (x := -z) (by linarith)
      linarith
    rw [abs_of_nonneg h0] at hover
    rw [rounded, if_pos hover]
    rfl
  | negative =>
    change -r = _ at hz
    have h0 : z < 0 := by
      by_contra hnn
      rw [signedNearest_of_nonneg (not_lt.mp hnn)] at hz
      have := nearest_nonneg (not_lt.mp hnn)
      linarith
    rw [abs_of_neg h0] at hover
    have hnot : ¬ overflow ≤ z := by linarith [overflow_pos]
    rw [rounded, if_neg hnot, if_pos (by linarith)]
    rfl

/-- A canonical number with the value of a nearest multiple is packed to the rounded number. -/
theorem valueOf_settle {u : UnpackedFloat} {z : ℝ} (hc : Canonical u) (hf : u.isFinite = true)
    (hz : realOf u = signedNearest z) : valueOf (settle u) = rounded z := by
  cases u with
  | infinity s => cases hf
  | notANumber => cases hf
  | zero s =>
    have hsmall : nearest |z| < 2 ^ (1024 : ℤ) := by
      rw [← abs_signedNearest, ← hz]
      change |(0 : ℝ)| < _
      rw [abs_zero]
      positivity
    rw [rounded_of_lt ((nearest_lt_iff (abs_nonneg z)).mp hsmall), ← hz]
    rfl
  | finite s m e h =>
    have hpos : (0 : ℝ) < m * 2 ^ e := by positivity
    change signed s (m * 2 ^ e) = _ at hz
    have habs : (m : ℝ) * 2 ^ e = nearest |z| := by
      rw [← abs_signedNearest, ← hz, abs_signed, abs_of_pos hpos]
    have hle := hc.le_iff
    rw [habs, nearest_lt_iff (abs_nonneg z)] at hle
    by_cases he : e ≤ 971
    · rw [rounded_of_lt (hle.mp he), ← hz, settle_finite he]
      rfl
    · rw [settle, if_neg he]
      exact valueOf_infinity hpos hz (not_lt.mp fun h' => he (hle.mpr h'))

theorem isFinite_roundWithAccuracy (s : Sign) (m : ℕ) (e : ℤ) (acc : Accuracy) :
    (roundWithAccuracy .binary64 s m e acc).isFinite = true := by
  unfold roundWithAccuracy
  simp only
  split_ifs <;> rfl

end Toolpath.Double
