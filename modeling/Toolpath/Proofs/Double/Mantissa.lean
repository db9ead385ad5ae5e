import Toolpath.Proofs.Double.Rounding

/-! # The mantissa of a rounded number

A computed mantissa is cut off behind its last bit, and two more bits keep what rounding has to know
of the rest. `Holds` says that they do so for a given number; shifting keeps it true, and the
mantissa that is rounded in the end is `nearestInt` of the number.
-/
namespace Toolpath.Double
open Float.Model Float.Model.UnpackedFloat

/-- The mantissa is the whole part of the number, and the residual bits tell on which side of the
half the number lies, or that it has no other bits. -/
structure Holds (em : ExtendedMantissa) (v : ℝ) : Prop where
  floor_two_mul : ⌊2 * v⌋ = 2 * em.mantissa + em.roundBit.toNat
  sticky : em.stickyBit = false ↔ (⌊2 * v⌋ : ℝ) = 2 * v

theorem Holds.floor_eq {em : ExtendedMantissa} {v : ℝ} (h : Holds em v) :
    ⌊v⌋ = (em.mantissa : ℤ) := by
  obtain ⟨hlow, hhigh⟩ := Int.floor_eq_iff.mp h.floor_two_mul
  have hbit : em.roundBit.toNat ≤ 1 := Bool.toNat_le _
  have hbit' : (em.roundBit.toNat : ℝ) ≤ 1 := by exact_mod_cast hbit
  have hbit0 : (0 : ℝ) ≤ em.roundBit.toNat := Nat.cast_nonneg _
  push_cast at hlow hhigh
  rw [Int.floor_eq_iff]
  push_cast
  constructor <;> linarith

theorem Holds.shiftRightOne {em : ExtendedMantissa} {v : ℝ} (h : Holds em v) :
    Holds em.shiftRightOne (v / 2) := by
  have hv : 2 * (v / 2) = v := by ring
  have hparts : (em.mantissa : ℤ) = 2 * ((em.mantissa / 2 : ℕ) : ℤ) + (em.mantissa % 2 : ℕ) := by
    omega
  have hbit : (em.mantissa % 2 != 0).toNat = em.mantissa % 2 := by
    rcases Nat.mod_two_eq_zero_or_one em.mantissa with h0 | h1
    · rw [h0]; rfl
    · rw [h1]; rfl
  constructor
  · rw [hv, h.floor_eq]
    change (em.mantissa : ℤ) = 2 * ((em.mantissa / 2 : ℕ) : ℤ) + ((em.mantissa % 2 != 0).toNat : ℕ)
    rw [hbit]
    exact hparts
  · rw [hv, h.floor_eq]
    change (em.roundBit || em.stickyBit) = false ↔ _
    have hfloor := congrArg (Int.cast (R := ℝ)) h.floor_two_mul
    have hlow := Int.floor_le (2 * v)
    have hsticky := h.sticky
    push_cast at hfloor
    rw [hfloor] at hsticky hlow
    cases hr : em.roundBit with
    | false =>
      simp only [hr, Bool.toNat_false, Nat.cast_zero, add_zero] at hsticky
      rw [Bool.false_or, hsticky]
      constructor <;> intro heq <;> push_cast at * <;> linarith
    | true =>
      simp only [hr, Bool.toNat_true, Nat.cast_one] at hlow
      simp only [Bool.true_or, Bool.true_eq_false, false_iff]
      push_cast
      intro heq
      linarith

theorem Holds.shiftRight {em : ExtendedMantissa} {v : ℝ} (h : Holds em v) (n : ℕ) :
    Holds (em >>> n) (v / 2 ^ n) := by
  induction n with
  | zero =>
    change Holds em (v / 2 ^ 0)
    rwa [pow_zero, div_one]
  | succ n ih =>
    change Holds (em >>> n).shiftRightOne (v / 2 ^ (n + 1))
    rw [pow_succ, ← div_div]
    exact ih.shiftRightOne

theorem Holds.roundedMantissa_eq {em : ExtendedMantissa} {v : ℝ} (h : Holds em v) :
    (em.roundedMantissa : ℤ) = nearestInt v := by
  obtain ⟨m, r, s⟩ := em
  have hfloor : ⌊v⌋ = (m : ℤ) := h.floor_eq
  have htwo := congrArg (Int.cast (R := ℝ)) h.floor_two_mul
  have hlow := Int.floor_le (2 * v)
  have hhigh := Int.lt_floor_add_one (2 * v)
  have hsticky := h.sticky
  push_cast at htwo
  rw [htwo] at hlow hhigh hsticky
  have hfract : Int.fract v = v - m := by
    unfold Int.fract
    rw [hfloor]
    push_cast
    rfl
  unfold nearestInt
  rw [hfract, hfloor]
  cases r with
  | false =>
    simp only [Bool.toNat_false, Nat.cast_zero, add_zero] at hhigh
    have hlt : v - m < 1 / 2 := by linarith
    rw [if_pos (.inl hlt)]
    cases s <;> rfl
  | true =>
    simp only [Bool.toNat_true, Nat.cast_one] at hlow hsticky
    have hge : ¬ v - m < 1 / 2 := by linarith
    cases s with
    | true =>
      have hne : ¬ v - m = 1 / 2 := by
        intro heq
        have := hsticky.mpr (by linarith)
        cases this
      rw [if_neg (by tauto)]
      rfl
    | false =>
      have heq : v - m = 1 / 2 := by
        have := hsticky.mp rfl
        linarith
      change ((m + m % 2 : ℕ) : ℤ) = _
      simp only [heq, lt_self_iff_false, true_and, false_or, Int.even_coe_nat]
      rcases Nat.mod_two_eq_zero_or_one m with h0 | h1
      · rw [if_pos (Nat.even_iff.mpr h0), h0]
        rfl
      · rw [if_neg (by rw [Nat.even_iff, h1]; decide), h1]
        rfl

theorem holds_of_bounds {m : ℕ} {r s : Bool} {v : ℝ} (hlow : 2 * (m : ℝ) + r.toNat ≤ 2 * v)
    (hhigh : 2 * v < 2 * (m : ℝ) + r.toNat + 1)
    (hs : s = false ↔ 2 * (m : ℝ) + r.toNat = 2 * v) : Holds ⟨m, r, s⟩ v := by
  have hf : ⌊2 * v⌋ = 2 * (m : ℤ) + (r.toNat : ℕ) := by
    rw [Int.floor_eq_iff]
    push_cast
    exact ⟨hlow, hhigh⟩
  refine ⟨hf, ?_⟩
  rw [hf]
  push_cast
  exact hs

theorem holds_exact (m : ℕ) : Holds (.ofMantissaAndAccuracy m .exact) m := by
  apply holds_of_bounds <;> simp

/-- A mantissa with a rest `f`, of which only the comparison with the half is kept. -/
theorem holds_inexact (m : ℕ) {f : ℝ} (h0 : 0 < f) (h1 : f < 1) :
    Holds (.ofMantissaAndAccuracy m (.inexact (compare (2 * f) 1))) (m + f) := by
  cases hc : compare (2 * f) 1 with
  | lt =>
    have h := compare_lt_iff_lt.mp hc
    apply holds_of_bounds <;> simp only [Bool.toNat_false, Nat.cast_zero]
    · linarith
    · linarith
    · simp only [Bool.true_eq_false, false_iff]
      intro heq
      linarith
  | eq =>
    have h := compare_eq_iff_eq.mp hc
    apply holds_of_bounds <;> simp only [Bool.toNat_true, Nat.cast_one]
    · linarith
    · linarith
    · simp only [true_iff]
      linarith
  | gt =>
    have h := compare_gt_iff_gt.mp hc
    apply holds_of_bounds <;> simp only [Bool.toNat_true, Nat.cast_one]
    · linarith
    · linarith
    · simp only [Bool.true_eq_false, false_iff]
      intro heq
      linarith

theorem holds_fraction (a : ℕ) {b : ℕ} (hb : 0 < b) :
    Holds (.ofMantissaAndAccuracy (a / b) (accuracyOfFraction (a % b) b)) ((a : ℝ) / b) := by
  have hb' : (0 : ℝ) < b := by exact_mod_cast hb
  have hv : (a : ℝ) / b = (a / b : ℕ) + (a % b : ℕ) / b := by
    have hparts : (a : ℝ) = b * (a / b : ℕ) + (a % b : ℕ) := by
      exact_mod_cast (Nat.div_add_mod a b).symm
    rw [div_eq_iff hb'.ne', add_mul, div_mul_cancel₀ _ hb'.ne']
    linarith
  rw [hv]
  unfold accuracyOfFraction
  split_ifs with hr
  · rw [hr, Nat.cast_zero, zero_div, add_zero]
    exact holds_exact _
  · have hpos : 0 < a % b := Nat.pos_of_ne_zero hr
    have hlt : ((a % b : ℕ) : ℝ) / b < 1 := by
      rw [div_lt_one hb']
      exact_mod_cast Nat.mod_lt a hb
    have hcompare : compare (2 * (a % b)) b = compare (2 * (((a % b : ℕ) : ℝ) / b)) 1 := by
      rw [← mul_div_assoc]
      rcases lt_trichotomy (2 * (a % b)) b with h | h | h
      · rw [compare_lt_iff_lt.mpr h, eq_comm, compare_lt_iff_lt, div_lt_one hb']
        exact_mod_cast h
      · rw [compare_eq_iff_eq.mpr h, eq_comm, compare_eq_iff_eq, div_eq_one_iff_eq hb'.ne']
        exact_mod_cast h
      · rw [compare_gt_iff_gt.mpr h, eq_comm, compare_gt_iff_gt, one_lt_div hb']
        exact_mod_cast h
    rw [hcompare]
    exact holds_inexact _ (by positivity) hlt

end Toolpath.Double
