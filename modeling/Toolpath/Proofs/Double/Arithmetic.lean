import Toolpath.Proofs.Double.Packing

/-! # Arithmetic of unpacked numbers

Each operation on finite unpacked numbers gives the exact result, rounded once. A sum of mantissas
is brought to the lower exponent, a product is long enough as it is, and a quotient is computed far
enough for rounding.
-/
namespace Toolpath.Double
open Float.Model Float.Model.UnpackedFloat

/-- The unpacked number is finite, and is packed to the rounded real number. -/
structure Rounds (u : UnpackedFloat) (r : ℝ) : Prop where
  canonical : Canonical u
  isFinite : u.isFinite = true
  realOf_eq : realOf u = signedNearest r

theorem rounds_roundWithAccuracy (s : Sign) {m : ℕ} {e : ℤ} {acc : Accuracy} {x : ℝ}
    (hx : 0 ≤ x) (h : Holds (.ofMantissaAndAccuracy m acc) (x / 2 ^ e))
    (he : e ≤ Format.binary64.targetExponent (totalExponent m e)) :
    Rounds (roundWithAccuracy .binary64 s m e acc) (signed s x) := by
  obtain ⟨hc, hv⟩ := roundWithAccuracy_spec s hx h he
  refine ⟨hc, isFinite_roundWithAccuracy s m e acc, ?_⟩
  rw [hv, signedNearest_signed, signedNearest_of_nonneg hx]

theorem rounds_zero (s : Sign) : Rounds (.zero s) 0 :=
  ⟨trivial, rfl, by rw [signedNearest_of_nonneg le_rfl, nearest_zero]; rfl⟩

theorem isGrid_realOf {u : UnpackedFloat} (hc : Canonical u) (hs : settle u = u) :
    IsGrid (realOf u) := by
  cases u with
  | infinity s => exact ⟨0, 0, by simp [realOf]⟩
  | notANumber => exact ⟨0, 0, by simp [realOf]⟩
  | zero s => exact ⟨0, 0, by simp [realOf]⟩
  | finite s m e h =>
    have he : e ≤ 971 := by
      by_contra hgt
      rw [settle, if_neg hgt] at hs
      cases hs
    refine ⟨m, e, ?_, hc.1, hc.2.1, he⟩
    change |signed s (m * 2 ^ e)| = _
    rw [abs_signed, abs_of_nonneg (by positivity)]

theorem rounds_self {u : UnpackedFloat} (hc : Canonical u) (hs : settle u = u)
    (hf : u.isFinite = true) : Rounds u (realOf u) :=
  ⟨hc, hf, (isGrid_realOf hc hs).signedNearest_eq.symm⟩

theorem decreaseExponent_value (m : ℕ) {e t : ℤ} (h : t ≤ e) :
    ((decreaseExponent m e t).1 : ℝ) * 2 ^ t = m * 2 ^ e := by
  obtain ⟨k, rfl⟩ := Int.le.dest h
  have hk : (t + (k : ℤ) - t).toNat = k := by omega
  simp only [decreaseExponent, hk, Nat.shiftLeft_eq]
  rw [zpow_add₀ (by norm_num), zpow_natCast]
  push_cast
  ring

theorem log2_shiftLeft {m : ℕ} (hm : 0 < m) (k : ℕ) : (m <<< k).log2 = m.log2 + k := by
  rw [Nat.shiftLeft_eq, Nat.log2_eq_iff (by positivity)]
  have hlow := Nat.log2_self_le hm.ne'
  have hhigh := Nat.lt_log2_self (n := m)
  constructor
  · rw [pow_add]
    exact Nat.mul_le_mul_right _ hlow
  · rw [show m.log2 + k + 1 = m.log2 + 1 + k by ring, pow_add]
    exact Nat.mul_lt_mul_of_pos_right hhigh (by positivity)

theorem rounds_round (s : Sign) {m : ℕ} (hm : 0 < m) (e : ℤ) :
    Rounds (UnpackedFloat.round .binary64 s m e) (signed s (m * 2 ^ e)) := by
  obtain ⟨t, ht⟩ : ∃ t, t = Format.binary64.targetExponent (totalExponent m e) := ⟨_, rfl⟩
  obtain ⟨k, hk⟩ : ∃ k, k = (e - t).toNat := ⟨_, rfl⟩
  have hunfold : UnpackedFloat.round .binary64 s m e =
      roundWithAccuracy .binary64 s (m <<< k) (e - k) .exact := by
    unfold UnpackedFloat.round
    simp only [decreaseExponent, ← ht, ← hk]
  have hvalue : ((m <<< k : ℕ) : ℝ) = m * 2 ^ e / 2 ^ (e - k) := by
    rw [eq_div_iff (by positivity), Nat.shiftLeft_eq]
    push_cast
    rw [mul_assoc, ← zpow_natCast, ← zpow_add₀ (by norm_num)]
    congr 2
    omega
  rw [hunfold]
  apply rounds_roundWithAccuracy s (by positivity)
  · rw [← hvalue]
    exact holds_exact _
  · rw [targetExponent_eq, log2_shiftLeft hm]
    rw [targetExponent_eq] at ht
    omega

theorem rounds_normalize (M : ℤ) (e : ℤ) (zeroSign : Sign) :
    Rounds (UnpackedFloat.normalize .binary64 M e zeroSign) (M * 2 ^ e) := by
  unfold UnpackedFloat.normalize
  cases hc : compare M 0 with
  | lt =>
    have hM : M < 0 := compare_lt_iff_lt.mp hc
    have h := rounds_round .negative (m := (-M).toNat) (by omega) e
    have hcast : (((-M).toNat : ℕ) : ℝ) = -M := by
      rw [← Int.cast_natCast, Int.toNat_of_nonneg (by omega), Int.cast_neg]
    rw [hcast] at h
    change Rounds _ (-(-(M : ℝ) * 2 ^ e)) at h
    rwa [neg_mul, neg_neg] at h
  | eq =>
    rw [compare_eq_iff_eq.mp hc, Int.cast_zero, zero_mul]
    exact rounds_zero zeroSign
  | gt =>
    have hM : 0 < M := compare_gt_iff_gt.mp hc
    have h := rounds_round .positive (m := M.toNat) (by omega) e
    have hcast : ((M.toNat : ℕ) : ℝ) = M := by
      rw [← Int.cast_natCast, Int.toNat_of_nonneg hM.le]
    rwa [hcast] at h

theorem apply_cast (s : Sign) (m : ℕ) : ((s.apply m : ℤ) : ℝ) = signed s m := by
  cases s
  · exact (Int.cast_neg _).trans (by rw [Int.cast_natCast]; rfl)
  · exact Int.cast_natCast m

theorem signed_mul (s : Sign) (x y : ℝ) : signed s x * y = signed s (x * y) := by
  cases s
  · exact neg_mul x y
  · rfl

theorem signed_neg (s : Sign) (x : ℝ) : signed (-s) x = -signed s x := by
  cases s
  · exact (neg_neg x).symm
  · rfl

theorem signed_sign_mul (s t : Sign) (x y : ℝ) :
    signed (s * t) (x * y) = signed s x * signed t y := by
  cases s <;> cases t
  · exact (neg_mul_neg x y).symm
  · exact (neg_mul x y).symm
  · exact (mul_neg x y).symm
  · rfl

structure Settled (u : UnpackedFloat) : Prop where
  canonical : Canonical u
  settle_eq : settle u = u
  isFinite : u.isFinite = true

theorem Settled.rounds {u : UnpackedFloat} (h : Settled u) : Rounds u (realOf u) :=
  rounds_self h.canonical h.settle_eq h.isFinite

theorem rounds_add {u v : UnpackedFloat} (hu : Settled u) (hv : Settled v) :
    Rounds (UnpackedFloat.add .binary64 u v) (realOf u + realOf v) := by
  cases u with
  | infinity s => cases hu.isFinite
  | notANumber => cases hu.isFinite
  | zero s =>
    change Rounds _ (0 + realOf v)
    rw [zero_add]
    cases v with
    | infinity t => cases hv.isFinite
    | notANumber => cases hv.isFinite
    | zero t =>
      simp only [UnpackedFloat.add]
      split_ifs <;> exact rounds_zero _
    | finite t n f hn => exact hv.rounds
  | finite s m e hm =>
    cases v with
    | infinity t => cases hv.isFinite
    | notANumber => cases hv.isFinite
    | zero t =>
      change Rounds _ (_ + 0)
      rw [add_zero]
      exact hu.rounds
    | finite t n f hn =>
      have h := rounds_normalize (s.apply (decreaseExponent m e (min e f)).1
        + t.apply (decreaseExponent n f (min e f)).1) (min e f) .positive
      rw [Int.cast_add, apply_cast, apply_cast, add_mul, signed_mul, signed_mul,
        decreaseExponent_value m (min_le_left e f), decreaseExponent_value n (min_le_right e f)] at h
      exact h

theorem Settled.neg {u : UnpackedFloat} (h : Settled u) : Settled u.neg := by
  obtain ⟨hc, hs, hf⟩ := h
  cases u with
  | infinity s => cases hf
  | notANumber => cases hf
  | zero s => exact ⟨trivial, rfl, rfl⟩
  | finite s m e hm =>
    have he : e ≤ 971 := by
      by_contra hgt
      rw [settle, if_neg hgt] at hs
      cases hs
    exact ⟨hc, settle_finite he, rfl⟩

theorem realOf_neg (u : UnpackedFloat) : realOf u.neg = -realOf u := by
  cases u with
  | finite s m e _ => exact signed_neg s _
  | _ => exact neg_zero.symm

theorem apply_neg (s : Sign) (k : ℤ) : (-s).apply k = -s.apply k := by
  cases s
  · exact (neg_neg k).symm
  · rfl

theorem unpackedSub_eq_add_neg (u v : UnpackedFloat) :
    UnpackedFloat.sub .binary64 u v = UnpackedFloat.add .binary64 u v.neg := by
  cases u with
  | finite s m e hm =>
    cases v with
    | finite t n f hn =>
      simp only [UnpackedFloat.sub, UnpackedFloat.neg, UnpackedFloat.add, apply_neg,
        Int.sub_eq_add_neg]
    | _ => rfl
  | _ => cases v <;> rfl

theorem rounds_sub {u v : UnpackedFloat} (hu : Settled u) (hv : Settled v) :
    Rounds (UnpackedFloat.sub .binary64 u v) (realOf u - realOf v) := by
  rw [unpackedSub_eq_add_neg, sub_eq_add_neg, ← realOf_neg]
  exact rounds_add hu hv.neg

/-- A product of mantissas is long enough to be cut off. -/
theorem mul_exponent_le {s t : Sign} {m n : ℕ} {e f : ℤ} {hm : 0 < m} {hn : 0 < n}
    (hu : Canonical (.finite s m e hm)) (hv : Canonical (.finite t n f hn)) :
    e + f ≤ Format.binary64.targetExponent (totalExponent (m * n) (e + f)) := by
  obtain ⟨-, he, hm'⟩ := hu
  obtain ⟨-, hf, hn'⟩ := hv
  rw [targetExponent_eq]
  by_cases hlong : 2 ^ 52 ≤ m * n
  · have := (Nat.le_log2 (Nat.mul_pos hm hn).ne').mpr hlong
    omega
  · have h1 : m ≤ m * n := Nat.le_mul_of_pos_right m hn
    have h2 : n ≤ m * n := Nat.le_mul_of_pos_left n hm
    omega

theorem rounds_mul_finite (s t : Sign) {m n : ℕ} {e f : ℤ} (hm : 0 < m) (hn : 0 < n)
    (hlong : e + f ≤ Format.binary64.targetExponent (totalExponent (m * n) (e + f))) :
    Rounds (UnpackedFloat.mul .binary64 (.finite s m e hm) (.finite t n f hn))
      (signed s (m * 2 ^ e) * signed t (n * 2 ^ f)) := by
  change Rounds (roundWithAccuracy .binary64 (s * t) (m * n) (e + f) .exact) _
  rw [← signed_sign_mul]
  apply rounds_roundWithAccuracy _ (by positivity) _ hlong
  have hvalue : (m : ℝ) * 2 ^ e * (n * 2 ^ f) / 2 ^ (e + f) = (m * n : ℕ) := by
    rw [div_eq_iff (by positivity), zpow_add₀ (by norm_num)]
    push_cast
    ring
  rw [hvalue]
  exact holds_exact _

theorem rounds_mul {u v : UnpackedFloat} (hu : Settled u) (hv : Settled v) :
    Rounds (UnpackedFloat.mul .binary64 u v) (realOf u * realOf v) := by
  cases u with
  | infinity s => cases hu.isFinite
  | notANumber => cases hu.isFinite
  | zero s =>
    change Rounds _ (0 * realOf v)
    rw [zero_mul]
    cases v with
    | infinity t => cases hv.isFinite
    | notANumber => cases hv.isFinite
    | zero t => exact rounds_zero _
    | finite t n f hn => exact rounds_zero _
  | finite s m e hm =>
    cases v with
    | infinity t => cases hv.isFinite
    | notANumber => cases hv.isFinite
    | zero t =>
      change Rounds _ (_ * 0)
      rw [mul_zero]
      exact rounds_zero _
    | finite t n f hn =>
      exact rounds_mul_finite s t hm hn (mul_exponent_le hu.canonical hv.canonical)

/-- A quotient of mantissas is computed far enough to be cut off. -/
theorem div_exponent_le {m n : ℕ} (hm : 0 < m) (hn : 0 < n) (e f : ℤ) :
    (divCore .binary64 m e n f).2.1 ≤ Format.binary64.targetExponent
      (totalExponent (divCore .binary64 m e n f).1 (divCore .binary64 m e n f).2.1) := by
  obtain ⟨t, ht⟩ : ∃ t, t = min (e - f)
      (Format.binary64.targetExponent (totalExponent m e - totalExponent n f)) := ⟨_, rfl⟩
  obtain ⟨k, hk⟩ : ∃ k, k = (e - f - t).toNat := ⟨_, rfl⟩
  have hunfold : divCore .binary64 m e n f =
      (m <<< k / n, t, accuracyOfFraction (m <<< k % n) n) := by
    unfold divCore
    simp only [← ht, ← hk]
  have htarget : Format.binary64.targetExponent (totalExponent m e - totalExponent n f) =
      max ((m.log2 : ℤ) + e - (n.log2 + f) - 53) (-1074) := by
    simp only [Format.targetExponent, totalExponent, Format.mantissaBits, Format.minExponent]
    norm_num
    omega
  rw [htarget] at ht
  rw [hunfold, targetExponent_eq]
  simp only
  by_cases hlow : t ≤ -1074
  · omega
  · -- the quotient has 53 bits at least
    have hbits : n.log2 + 1 + 52 ≤ m.log2 + k := by omega
    have hle : 2 ^ 52 ≤ m <<< k / n := by
      rw [Nat.le_div_iff_mul_le hn]
      have h1 := Nat.log2_self_le (n := m <<< k) (by rw [Nat.shiftLeft_eq]; positivity)
      rw [log2_shiftLeft hm] at h1
      calc 2 ^ 52 * n ≤ 2 ^ 52 * 2 ^ (n.log2 + 1) := Nat.mul_le_mul_left _ Nat.lt_log2_self.le
        _ = 2 ^ (n.log2 + 1 + 52) := by rw [← pow_add, add_comm]
        _ ≤ 2 ^ (m.log2 + k) := Nat.pow_le_pow_right (by norm_num) hbits
        _ ≤ m <<< k := h1
    have := (Nat.le_log2 (by omega)).mpr hle
    omega

theorem signed_sign_div (s t : Sign) (x y : ℝ) :
    signed (s / t) (x / y) = signed s x / signed t y := by
  cases s <;> cases t
  · exact (neg_div_neg_eq x y).symm
  · exact (neg_div y x).symm
  · exact (div_neg x).symm
  · rfl

theorem rounds_div_finite (s t : Sign) {m n : ℕ} {e f : ℤ} (hm : 0 < m) (hn : 0 < n) :
    Rounds (UnpackedFloat.div .binary64 (.finite s m e hm) (.finite t n f hn))
      (signed s (m * 2 ^ e) / signed t (n * 2 ^ f)) := by
  obtain ⟨k, hk⟩ : ∃ k, k = (e - f - (divCore .binary64 m e n f).2.1).toNat := ⟨_, rfl⟩
  have hcore : divCore .binary64 m e n f = (m <<< k / n, (divCore .binary64 m e n f).2.1,
      accuracyOfFraction (m <<< k % n) n) := by
    rw [hk]
    rfl
  have hle : (divCore .binary64 m e n f).2.1 ≤ e - f := min_le_left _ _
  have hexp := div_exponent_le hm hn e f
  obtain ⟨q, hq⟩ : ∃ q, q = (divCore .binary64 m e n f).2.1 := ⟨_, rfl⟩
  rw [← hq] at hk hcore hle hexp
  change Rounds (roundWithAccuracy .binary64 (s / t) (divCore .binary64 m e n f).1
    (divCore .binary64 m e n f).2.1 (divCore .binary64 m e n f).2.2)
    (signed s (m * 2 ^ e) / signed t (n * 2 ^ f))
  rw [hcore] at hexp ⊢
  rw [← signed_sign_div]
  apply rounds_roundWithAccuracy _ (by positivity) _ hexp
  have hn' : (n : ℝ) ≠ 0 := by exact_mod_cast hn.ne'
  have hvalue : (m : ℝ) * 2 ^ e / (n * 2 ^ f) / 2 ^ q = (m <<< k : ℕ) / n := by
    have hpow : (2 : ℝ) ^ e = 2 ^ k * 2 ^ q * 2 ^ f := by
      rw [← zpow_natCast, ← zpow_add₀ (by norm_num), ← zpow_add₀ (by norm_num)]
      congr 1
      omega
    rw [hpow, Nat.shiftLeft_eq]
    push_cast
    field_simp
  rw [hvalue]
  exact holds_fraction _ hn

theorem rounds_div {u v : UnpackedFloat} (hu : Settled u) (hv : Settled v) (h0 : realOf v ≠ 0) :
    Rounds (UnpackedFloat.div .binary64 u v) (realOf u / realOf v) := by
  cases v with
  | infinity t => cases hv.isFinite
  | notANumber => cases hv.isFinite
  | zero t => exact absurd rfl h0
  | finite t n f hn =>
    cases u with
    | infinity s => cases hu.isFinite
    | notANumber => cases hu.isFinite
    | zero s =>
      change Rounds _ (0 / _)
      rw [zero_div]
      exact rounds_zero _
    | finite s m e hm => exact rounds_div_finite s t hm hn

end Toolpath.Double
