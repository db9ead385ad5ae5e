import Mathlib.Analysis.SpecialFunctions.Sqrt
import Toolpath.Proofs.Double.Order

/-! # Functions of doubles

Opposite and magnitude are exact, the root is the rounded real root, and a natural number becomes
the rounded one. A sum or product is finite only if both its terms are.
-/
namespace Toolpath.Double
open Float.Model Float.Model.UnpackedFloat

theorem isGrid_zero : IsGrid 0 := ⟨0, 0, by simp⟩

@[simp] theorem toReal_zero : toReal 0 = 0 := rfl

@[simp] theorem isFinite_zero : (0 : Float).isFinite = true := rfl

@[simp] theorem toReal_one : toReal 1 = 1 := by
  change ((4503599627370496 : ℕ) : ℝ) * 2 ^ (-52 : ℤ) = 1
  norm_num

@[simp] theorem isFinite_one : (1 : Float).isFinite = true := rfl

theorem isGrid_one : IsGrid 1 := toReal_one ▸ isGrid_toReal 1

theorem settle_neg (u : UnpackedFloat) : settle u.neg = (settle u).neg := by
  cases u with
  | finite s m e h =>
    change (if e ≤ 971 then _ else _ : UnpackedFloat) = (if e ≤ 971 then _ else _ : UnpackedFloat).neg
    split_ifs <;> rfl
  | _ => rfl

theorem settle_abs (u : UnpackedFloat) : settle u.abs = (settle u).abs := by
  cases u with
  | finite s m e h =>
    change (if e ≤ 971 then _ else _ : UnpackedFloat) = (if e ≤ 971 then _ else _ : UnpackedFloat).abs
    split_ifs <;> rfl
  | _ => rfl

theorem unpack_neg (x : Float) : (-x).toModel.unpack = x.toModel.unpack.neg := by
  have hc : Canonical x.toModel.unpack.neg := by
    have := canonical_unpack x.toModel
    cases h : x.toModel.unpack <;> rw [h] at this <;> exact this
  rw [show (-x).toModel.unpack = settle x.toModel.unpack.neg from unpack_pack hc, settle_neg,
    settle_unpack]

theorem unpack_abs (x : Float) : x.abs.toModel.unpack = x.toModel.unpack.abs := by
  have hc : Canonical x.toModel.unpack.abs := by
    have := canonical_unpack x.toModel
    cases h : x.toModel.unpack <;> rw [h] at this <;> exact this
  rw [show x.abs.toModel.unpack = settle x.toModel.unpack.abs from unpack_pack hc, settle_abs,
    settle_unpack]

@[simp] theorem isFinite_neg (x : Float) : (-x).isFinite = x.isFinite := by
  change (-x).toModel.unpack.isFinite = x.toModel.unpack.isFinite
  rw [unpack_neg]
  cases x.toModel.unpack <;> rfl

@[simp] theorem isFinite_abs (x : Float) : x.abs.isFinite = x.isFinite := by
  change x.abs.toModel.unpack.isFinite = x.toModel.unpack.isFinite
  rw [unpack_abs]
  cases x.toModel.unpack <;> rfl

@[simp] theorem toReal_neg (x : Float) : toReal (-x) = -toReal x := by
  unfold toReal
  rw [unpack_neg, realOf_neg]

@[simp] theorem toReal_abs (x : Float) : toReal x.abs = |toReal x| := by
  unfold toReal
  rw [unpack_abs]
  cases x.toModel.unpack with
  | finite s m e h =>
    change (m : ℝ) * 2 ^ e = |signed s (m * 2 ^ e)|
    rw [abs_signed, abs_of_nonneg (by positivity)]
  | _ => exact abs_zero.symm

/-- The root of a mantissa, cut off to a whole number, with the comparison of the rest. -/
theorem holds_sqrt (n : ℕ) :
    Holds (.ofMantissaAndAccuracy n.sqrt (if n - n.sqrt * n.sqrt = 0 then .exact
      else .inexact (if n - n.sqrt * n.sqrt ≤ n.sqrt then .lt else .gt))) (√(n : ℝ)) := by
  obtain ⟨r, hr⟩ : ∃ r, r = n.sqrt := ⟨_, rfl⟩
  obtain ⟨d, hd⟩ : ∃ d, d = n - r * r := ⟨_, rfl⟩
  have hle : r * r ≤ n := hr ▸ Nat.sqrt_le n
  have hlt : n < (r + 1) * (r + 1) := hr ▸ Nat.lt_succ_sqrt n
  have hn : n = r * r + d := by omega
  have hn' : (n : ℝ) = r * r + d := by exact_mod_cast hn
  have hr0 : (0 : ℝ) ≤ r := Nat.cast_nonneg r
  have hsq : √(n : ℝ) * √(n : ℝ) = r * r + d := by
    rw [Real.mul_self_sqrt (Nat.cast_nonneg n), hn']
  have hs0 : 0 ≤ √(n : ℝ) := Real.sqrt_nonneg _
  rw [← hr, ← hd]
  split_ifs with h0 hhalf
  · have hroot : √(n : ℝ) = r := by
      rw [hn', h0, Nat.cast_zero, add_zero, Real.sqrt_mul_self hr0]
    rw [hroot]
    exact holds_exact r
  all_goals
    have hd0 : (1 : ℝ) ≤ d := by exact_mod_cast Nat.pos_of_ne_zero h0
    have hpos : 0 < √(n : ℝ) - r := by nlinarith
    have hone : √(n : ℝ) - r < 1 := by
      have : (n : ℝ) < (r + 1) * (r + 1) := by exact_mod_cast hlt
      nlinarith
    have h := holds_inexact r hpos hone
    rw [add_sub_cancel] at h
  · have hd1 : (d : ℝ) ≤ r := by exact_mod_cast hhalf
    rwa [compare_lt_iff_lt.mpr (by nlinarith)] at h
  · have hd1 : (r : ℝ) + 1 ≤ d := by exact_mod_cast not_le.mp hhalf
    rwa [compare_gt_iff_gt.mpr (by nlinarith)] at h

/-- A root is computed far enough to be cut off. -/
theorem sqrt_exponent_le {m : ℕ} (hm : 0 < m) (e : ℤ) :
    (sqrtCore .binary64 m e).2.1 ≤ Format.binary64.targetExponent
      (totalExponent (sqrtCore .binary64 m e).1 (sqrtCore .binary64 m e).2.1) := by
  obtain ⟨t, ht⟩ : ∃ t, t = min (e.ediv 2)
      (Format.binary64.targetExponent ((totalExponent m e + 1).ediv 2)) := ⟨_, rfl⟩
  obtain ⟨k, hk⟩ : ∃ k, k = (e - 2 * t).toNat := ⟨_, rfl⟩
  have hexp : (sqrtCore .binary64 m e).2.1 = t := ht.symm
  have hroot : (sqrtCore .binary64 m e).1 = (m <<< k).sqrt := by
    rw [hk, ht]
    rfl
  have htarget : Format.binary64.targetExponent ((totalExponent m e + 1).ediv 2) =
      max (((m.log2 : ℤ) + 1 + e + 1) / 2 - 53) (-1074) := by
    simp only [Format.targetExponent, totalExponent, Format.mantissaBits, Format.minExponent]
    rfl
  have hhalf : e.ediv 2 = e / 2 := rfl
  rw [htarget, hhalf] at ht
  rw [hexp, hroot, targetExponent_eq]
  by_cases hlow : t ≤ -1074
  · omega
  · -- the root has 53 bits at least
    have hbits : 104 ≤ m.log2 + k := by omega
    have hle : 2 ^ 104 ≤ m <<< k := by
      have h1 := Nat.log2_self_le (n := m <<< k) (by rw [Nat.shiftLeft_eq]; positivity)
      rw [log2_shiftLeft hm] at h1
      exact (Nat.pow_le_pow_right (by norm_num) hbits).trans h1
    have hsqrt : 2 ^ 52 ≤ (m <<< k).sqrt := Nat.le_sqrt.mpr hle
    have := (Nat.le_log2 (by omega)).mpr hsqrt
    omega

theorem rounds_sqrt {u : UnpackedFloat} (hu : Settled u) (h0 : 0 ≤ realOf u) :
    Rounds (UnpackedFloat.sqrt .binary64 u) √(realOf u) := by
  cases u with
  | infinity s => cases hu.isFinite
  | notANumber => cases hu.isFinite
  | zero s =>
    change Rounds _ √0
    rw [Real.sqrt_zero]
    exact rounds_zero s
  | finite s m e hm =>
    have hp : (0 : ℝ) < m * 2 ^ e := by positivity
    cases s with
    | negative =>
      change 0 ≤ -((m : ℝ) * 2 ^ e) at h0
      linarith
    | positive =>
      obtain ⟨t, ht⟩ : ∃ t, t = (sqrtCore .binary64 m e).2.1 := ⟨_, rfl⟩
      obtain ⟨k, hk⟩ : ∃ k, k = (e - 2 * t).toNat := ⟨_, rfl⟩
      have hle : 2 * t ≤ e := by
        have : t ≤ e / 2 := ht ▸ min_le_left _ _
        omega
      have hexp := sqrt_exponent_le hm e
      change Rounds (roundWithAccuracy .binary64 .positive (sqrtCore .binary64 m e).1
        (sqrtCore .binary64 m e).2.1 (sqrtCore .binary64 m e).2.2) √(m * 2 ^ e)
      apply rounds_roundWithAccuracy .positive (Real.sqrt_nonneg _) _ hexp
      have hvalue : √((m : ℝ) * 2 ^ e) / 2 ^ t = √((m <<< k : ℕ) : ℝ) := by
        have hpow : (m : ℝ) * 2 ^ e = (m <<< k : ℕ) * (2 ^ t * 2 ^ t) := by
          rw [Nat.shiftLeft_eq]
          push_cast
          rw [mul_assoc, ← zpow_natCast, ← zpow_add₀ (by norm_num), ← zpow_add₀ (by norm_num)]
          congr 2
          omega
        rw [hpow, Real.sqrt_mul (Nat.cast_nonneg _), Real.sqrt_mul_self (by positivity),
          mul_div_cancel_right₀ _ (by positivity)]
      rw [← ht, hvalue, hk, ht]
      exact holds_sqrt _

theorem isRounded_sqrt {x : Float} (hx : x.isFinite = true) (h0 : 0 ≤ toReal x) :
    IsRounded x.sqrt √(toReal x) :=
  (rounds_sqrt (settled_unpack hx) h0).isRounded

theorem isFinite_pack_of_not {u : UnpackedFloat} (h : u.isFinite = false) :
    (Float.ofModel (.pack u)).isFinite = false := by
  have hc : Canonical u := by
    cases u with
    | finite s m e hm => cases h
    | _ => trivial
  change (Float.Model.pack u).unpack.isFinite = false
  rw [unpack_pack hc]
  cases u with
  | finite s m e hm => cases h
  | zero s => cases h
  | _ => rfl

theorem toReal_sqrt_nonneg {x : Float} (h : x.sqrt.isFinite = true) : 0 ≤ toReal x.sqrt := by
  by_cases hx : x.isFinite = true ∧ 0 ≤ toReal x
  · exact (isRounded_sqrt hx.1 hx.2).ge_of_ge h isGrid_zero (Real.sqrt_nonneg _)
  · -- the root of all other numbers is infinite or not a number
    exfalso
    have hs : (UnpackedFloat.sqrt .binary64 x.toModel.unpack).isFinite = false := by
      change ¬ (x.toModel.unpack.isFinite = true ∧ 0 ≤ realOf x.toModel.unpack) at hx
      cases hu : x.toModel.unpack with
      | infinity s => cases s <;> rfl
      | notANumber => rfl
      | zero s =>
        rw [hu] at hx
        exact absurd ⟨rfl, le_rfl⟩ hx
      | finite s m e hm =>
        rw [hu] at hx
        cases s with
        | negative => rfl
        | positive =>
          have hp : (0 : ℝ) ≤ m * 2 ^ e := by positivity
          exact absurd ⟨rfl, hp⟩ hx
    have h' : x.sqrt.isFinite = false := isFinite_pack_of_not hs
    rw [h] at h'
    cases h'

theorem unpackedAdd_infinity {u : UnpackedFloat} (hu : u.isFinite = true) (t : Sign) :
    UnpackedFloat.add .binary64 u (.infinity t) = .infinity t := by
  cases u with
  | infinity s => cases hu
  | notANumber => cases hu
  | _ => rfl

theorem unpackedInfinity_add {u : UnpackedFloat} (hu : u.isFinite = true) (t : Sign) :
    UnpackedFloat.add .binary64 (.infinity t) u = .infinity t := by
  cases u with
  | infinity s => cases hu
  | notANumber => cases hu
  | _ => rfl

section
variable {x y : Float}

theorem isFinite_of_add (h : (x + y).isFinite = true) : x.isFinite = true ∧ y.isFinite = true := by
  by_contra hxy
  have hu : (UnpackedFloat.add .binary64 x.toModel.unpack y.toModel.unpack).isFinite = false := by
    change ¬ (x.toModel.unpack.isFinite = true ∧ y.toModel.unpack.isFinite = true) at hxy
    revert hxy
    cases x.toModel.unpack <;> cases y.toModel.unpack <;> intro hxy <;>
      first
        | rfl
        | exact absurd ⟨rfl, rfl⟩ hxy
        | (simp only [UnpackedFloat.add]; split_ifs <;> rfl)
  exact absurd h (Bool.eq_false_iff.mp (isFinite_pack_of_not hu))

theorem sub_eq_add_neg' : x - y = x + -y := by
  change Float.ofModel (.pack (UnpackedFloat.sub .binary64 x.toModel.unpack y.toModel.unpack)) =
    .ofModel (.pack (UnpackedFloat.add .binary64 x.toModel.unpack (-y).toModel.unpack))
  rw [unpackedSub_eq_add_neg, unpack_neg]

theorem isFinite_of_sub (h : (x - y).isFinite = true) : x.isFinite = true ∧ y.isFinite = true := by
  rw [sub_eq_add_neg'] at h
  simpa using isFinite_of_add h

theorem isFinite_of_mul (h : (x * y).isFinite = true) : x.isFinite = true ∧ y.isFinite = true := by
  by_contra hxy
  have hu : (UnpackedFloat.mul .binary64 x.toModel.unpack y.toModel.unpack).isFinite = false := by
    change ¬ (x.toModel.unpack.isFinite = true ∧ y.toModel.unpack.isFinite = true) at hxy
    revert hxy
    cases x.toModel.unpack <;> cases y.toModel.unpack <;> intro hxy <;>
      first
        | rfl
        | exact absurd ⟨rfl, rfl⟩ hxy
  exact absurd h (Bool.eq_false_iff.mp (isFinite_pack_of_not hu))

theorem toReal_mul_nonneg (h : (x * y).isFinite = true) (hx : 0 ≤ toReal x) (hy : 0 ≤ toReal y) :
    0 ≤ toReal (x * y) :=
  have hfin := isFinite_of_mul h
  (isRounded_mul hfin.1 hfin.2).ge_of_ge h isGrid_zero (mul_nonneg hx hy)

theorem isFinite_of_div (h : (x / y).isFinite = true) (hy : y.isNaN = false) :
    x.isFinite = true := by
  by_contra hx
  have hu : (UnpackedFloat.div .binary64 x.toModel.unpack y.toModel.unpack).isFinite = false := by
    change ¬ x.toModel.unpack.isFinite = true at hx
    change y.toModel.unpack.isNaN = false at hy
    revert hx hy
    cases x.toModel.unpack <;> cases y.toModel.unpack <;> intro hx hy <;>
      first
        | rfl
        | exact absurd rfl hx
  exact absurd h (Bool.eq_false_iff.mp (isFinite_pack_of_not hu))

theorem div_infinite (hx : x.isFinite = true) (hy : ¬ y.isFinite = true) (hn : y.isNaN = false) :
    ∃ s, x / y = .ofModel (.pack (.zero s)) := by
  obtain ⟨t, ht⟩ := (isFinite_or_infinity hn).resolve_left hy
  have hu : ∃ s, UnpackedFloat.div .binary64 x.toModel.unpack y.toModel.unpack = .zero s := by
    change x.toModel.unpack.isFinite = true at hx
    rw [ht]
    cases hxu : x.toModel.unpack with
    | infinity s => rw [hxu] at hx; cases hx
    | notANumber => rw [hxu] at hx; cases hx
    | zero s => exact ⟨s / t, rfl⟩
    | finite s m e hm => exact ⟨s / t, rfl⟩
  obtain ⟨s, hs⟩ := hu
  refine ⟨s, ?_⟩
  change Float.ofModel (.pack (UnpackedFloat.div .binary64 _ _)) = _
  rw [hs]

theorem toReal_div_infinite (hx : x.isFinite = true) (hy : ¬ y.isFinite = true)
    (hn : y.isNaN = false) : toReal (x / y) = 0 := by
  obtain ⟨s, hs⟩ := div_infinite hx hy hn
  rw [hs]
  cases s <;> rfl

theorem toReal_div_nonneg (h : (x / y).isFinite = true) (hx : 0 ≤ toReal x) (hy : 0 < y) :
    0 ≤ toReal (x / y) := by
  have hn : y.isNaN = false := (lt_iff.mp hy).2.1
  have hfx := isFinite_of_div h hn
  by_cases hfy : y.isFinite = true
  · have hy' : 0 < toReal y := (lt_iff_toReal isFinite_zero hfy).mp hy
    exact (isRounded_div hfx hfy hy'.ne').ge_of_ge h isGrid_zero (div_nonneg hx hy'.le)
  · exact (toReal_div_infinite hfx hfy hn).ge

theorem isNaN_add_of_isFinite (hx : x.isFinite = true) (hy : y.isNaN = false) :
    (x + y).isNaN = false := by
  rcases isFinite_or_infinity hy with hf | ⟨t, ht⟩
  · exact (isRounded_add hx hf).not_nan
  · change (Float.Model.pack (UnpackedFloat.add .binary64 _ _)).unpack.isNaN = false
    rw [ht, unpackedAdd_infinity hx, unpack_pack (u := .infinity t) trivial]
    rfl

theorem isNaN_sub_of_isFinite (hx : x.isNaN = false) (hy : y.isFinite = true) :
    (x - y).isNaN = false := by
  rcases isFinite_or_infinity hx with hf | ⟨s, hs⟩
  · exact (isRounded_sub hf hy).not_nan
  · rw [← isFinite_neg] at hy
    rw [sub_eq_add_neg']
    change (Float.Model.pack (UnpackedFloat.add .binary64 _ _)).unpack.isNaN = false
    rw [hs, unpackedInfinity_add hy, unpack_pack (u := .infinity s) trivial]
    rfl

theorem isNaN_mul_of_isFinite (hx : x.isNaN = false) (hy : y.isFinite = true)
    (h0 : toReal y ≠ 0) : (x * y).isNaN = false := by
  rcases isFinite_or_infinity hx with hf | ⟨s, hs⟩
  · exact (isRounded_mul hf hy).not_nan
  · have hu : ∃ t, UnpackedFloat.mul .binary64 x.toModel.unpack y.toModel.unpack =
        .infinity t := by
      change y.toModel.unpack.isFinite = true at hy
      change realOf y.toModel.unpack ≠ 0 at h0
      rw [hs]
      cases hyu : y.toModel.unpack with
      | infinity t => rw [hyu] at hy; cases hy
      | notANumber => rw [hyu] at hy; cases hy
      | zero t => rw [hyu] at h0; exact absurd rfl h0
      | finite t n f hn => exact ⟨s * t, rfl⟩
    obtain ⟨t, ht⟩ := hu
    change (Float.Model.pack (UnpackedFloat.mul .binary64 _ _)).unpack.isNaN = false
    rw [ht, unpack_pack (u := .infinity t) trivial]
    rfl

end

/-- There are two zeros. -/
theorem eq_zero_of_beq {x : Float} (h : x == 0) : x = 0 ∨ x = -0 := by
  rcases (Float.beq_iff_ne_nan_and_eq.mp h).2.2 with h | ⟨h, -⟩ | ⟨h, -⟩
  · exact .inl h
  · exact .inl h
  · exact .inr h

theorem eq_zero_or {x : Float} (hx : x.isFinite = true) (h : toReal x = 0) : x = 0 ∨ x = -0 :=
  eq_zero_of_beq ((beq_iff_toReal hx isFinite_zero).mpr (h.trans toReal_zero.symm))

/-- A double other than zero is told by its value. -/
theorem eq_of_toReal_eq {x y : Float} (hx : x.isFinite = true) (hy : y.isFinite = true)
    (h : toReal x = toReal y) (h0 : toReal x ≠ 0) : x = y := by
  rcases (Float.beq_iff_ne_nan_and_eq.mp ((beq_iff_toReal hx hy).mpr h)).2.2 with
    heq | ⟨rfl, -⟩ | ⟨rfl, -⟩
  · exact heq
  · exact absurd toReal_zero h0
  · exact absurd ((toReal_neg 0).trans (neg_eq_zero.mpr toReal_zero)) h0

end Toolpath.Double
