import Toolpath.Proofs.Double.Identities

/-! # Opposites

A sign is kept apart from the magnitude, so it passes through a product without any rounding, and
the magnitude does not see it. A double is below zero, above it, or equal to it, unless it is not a
number, and then arithmetic leaves it alone.
-/
namespace Toolpath.Double
open Float.Model Float.Model.UnpackedFloat

theorem eq_of_unpack_eq {x y : Float} (h : x.toModel.unpack = y.toModel.unpack) : x = y := by
  rw [← pack_unpack x, h, pack_unpack]

theorem abs_neg_eq (x : Float) : (-x).abs = x.abs := by
  apply eq_of_unpack_eq
  rw [unpack_abs, unpack_abs, unpack_neg]
  cases x.toModel.unpack <;> rfl

theorem value_neg (x : Float) : value (-x) = -value x := by
  unfold value
  rw [unpack_neg]
  cases x.toModel.unpack with
  | notANumber => exact neg_zero.symm
  | zero s => exact neg_zero.symm
  | infinity s =>
    cases s
    · exact EReal.neg_bot.symm
    · exact EReal.neg_top.symm
  | finite s m e hm =>
    change ((signed (-s) (m * 2 ^ e) : ℝ) : EReal) = -((signed s (m * 2 ^ e) : ℝ) : EReal)
    rw [signed_neg, EReal.coe_neg]

theorem isNaN_neg (x : Float) : (-x).isNaN = x.isNaN := by
  change (-x).toModel.unpack.isNaN = x.toModel.unpack.isNaN
  rw [unpack_neg]
  cases x.toModel.unpack <;> rfl

theorem value_zero : value 0 = 0 := (value_of_isFinite isFinite_zero).trans (congrArg _ toReal_zero)

theorem neg_lt_zero_iff (x : Float) : -x < 0 ↔ 0 < x := by
  rw [lt_iff, lt_iff, isNaN_neg, value_neg, value_zero, EReal.neg_lt_comm, neg_zero]
  tauto

theorem sign_cases {x : Float} (hn : x.isNaN = false) (h0 : (x == 0) = false) : x < 0 ∨ 0 < x := by
  have hzero : (0 : Float).isNaN = false := rfl
  have hne : value x ≠ value 0 := fun h => Bool.eq_false_iff.mp h0 (beq_iff.mpr ⟨hn, hzero, h⟩)
  rcases lt_or_gt_of_ne hne with h | h
  · exact .inl (lt_iff.mpr ⟨hn, hzero, h⟩)
  · exact .inr (lt_iff.mpr ⟨hzero, hn, h⟩)

theorem beq_zero_of_le {x : Float} (hpos : 0 ≤ x) (hneg : x ≤ 0) : (x == 0) = true := by
  obtain ⟨hz, hn, hle⟩ := le_iff.mp hpos
  exact beq_iff.mpr ⟨hn, hz, le_antisymm (le_iff.mp hneg).2.2 hle⟩

theorem isNaN_of_not_le {x : Float} (hpos : ¬ 0 ≤ x) (hneg : ¬ x ≤ 0) : x.isNaN = true := by
  by_contra hn
  rw [Bool.not_eq_true] at hn
  have hlt : 0 < x := not_not.mp ((not_lt_iff_le rfl hn).not.mpr hneg)
  exact hpos (le_iff.mpr ⟨rfl, hn, (lt_iff.mp hlt).2.2.le⟩)

theorem add_of_isNaN {x : Float} (h : x.isNaN = true) (y : Float) : x + y = x := by
  change x.toModel.unpack.isNaN = true at h
  cases hx : x.toModel.unpack with
  | notANumber =>
    change Float.ofModel (.pack (UnpackedFloat.add .binary64 x.toModel.unpack _)) = x
    conv_rhs => rw [← pack_unpack x, hx]
    rw [hx]
    rfl
  | _ =>
    rw [hx] at h
    cases h

theorem roundWithAccuracy_neg (s : Sign) (m : ℕ) (e : ℤ) (acc : Accuracy) :
    roundWithAccuracy .binary64 (-s) m e acc = (roundWithAccuracy .binary64 s m e acc).neg := by
  unfold roundWithAccuracy
  dsimp only
  split_ifs <;> rfl

theorem unpackedMul_neg (u v : UnpackedFloat) :
    UnpackedFloat.mul .binary64 u.neg v = (UnpackedFloat.mul .binary64 u v).neg := by
  have hsign (s t : Sign) : -s * t = -(s * t) := by cases s <;> cases t <;> rfl
  cases u with
  | notANumber => rfl
  | infinity s =>
    cases v with
    | infinity t => exact congrArg UnpackedFloat.infinity (hsign s t)
    | finite t n f hn => exact congrArg UnpackedFloat.infinity (hsign s t)
    | _ => rfl
  | zero s =>
    cases v with
    | zero t => exact congrArg UnpackedFloat.zero (hsign s t)
    | finite t n f hn => exact congrArg UnpackedFloat.zero (hsign s t)
    | _ => rfl
  | finite s m e hm =>
    cases v with
    | infinity t => exact congrArg UnpackedFloat.infinity (hsign s t)
    | zero t => exact congrArg UnpackedFloat.zero (hsign s t)
    | finite t n f hn =>
      change roundWithAccuracy .binary64 (-s * t) (m * n) (e + f) .exact = _
      rw [hsign, roundWithAccuracy_neg]
      rfl
    | notANumber => rfl

/-- A product is canonical, also where it is no number or infinite. -/
theorem canonical_mul (x y : Float) :
    Canonical (UnpackedFloat.mul .binary64 x.toModel.unpack y.toModel.unpack) := by
  by_cases h : x.isFinite = true ∧ y.isFinite = true
  · exact (rounds_mul (settled_unpack h.1) (settled_unpack h.2)).canonical
  · change ¬ (x.toModel.unpack.isFinite = true ∧ y.toModel.unpack.isFinite = true) at h
    cases hx : x.toModel.unpack <;> cases hy : y.toModel.unpack <;> rw [hx, hy] at h <;>
      first
        | exact trivial
        | exact absurd ⟨rfl, rfl⟩ h

theorem neg_mul_eq (x y : Float) : -x * y = -(x * y) := by
  have hunpack (x : Float) : (x * y).toModel.unpack =
      settle (UnpackedFloat.mul .binary64 x.toModel.unpack y.toModel.unpack) :=
    unpack_pack (canonical_mul x y)
  apply eq_of_unpack_eq
  rw [hunpack, unpack_neg, unpackedMul_neg, settle_neg, unpack_neg, hunpack]

end Toolpath.Double
