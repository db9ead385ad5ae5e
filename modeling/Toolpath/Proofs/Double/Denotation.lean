import Toolpath.Number.Binary
import Toolpath.Proofs.Double.Identities

/-! # What a double denotes, in real numbers

`Binary` takes a finite double apart into sign, mantissa and exponent. These are its real value, and
so is a fraction of natural numbers up to the sign.
-/
namespace Toolpath.Double
open Float.Model Float.Model.UnpackedFloat

theorem ratio_spec (m : ℕ) (e : ℤ) :
    0 < (Binary.ratio m e).2 ∧
      ((Binary.ratio m e).1 : ℝ) = m * 2 ^ e * (Binary.ratio m e).2 := by
  unfold Binary.ratio
  split_ifs with he
  · refine ⟨one_pos, ?_⟩
    rw [Nat.cast_one, mul_one, Nat.shiftLeft_eq, Nat.cast_mul, Nat.cast_pow, Nat.cast_ofNat,
      ← zpow_natCast, Int.toNat_of_nonneg he]
  · have hpow : ((1 <<< (-e).toNat : ℕ) : ℝ) = 2 ^ (-e) := by
      rw [Nat.shiftLeft_eq, one_mul, Nat.cast_pow, Nat.cast_ofNat, ← zpow_natCast,
        Int.toNat_of_nonneg (by omega)]
    refine ⟨by rw [Nat.shiftLeft_eq, one_mul]; positivity, ?_⟩
    rw [hpow, mul_assoc, ← zpow_add₀ two_ne_zero, add_neg_cancel, zpow_zero, mul_one]

theorem of_ofFloat {x : Float} {negative : Bool} {m : ℕ} {e : ℤ}
    (h : Binary.ofFloat x = .finite negative m e) :
    x.isFinite = true ∧
      toReal x = signed (if negative then .negative else .positive) (m * 2 ^ e) := by
  unfold Binary.ofFloat at h
  change x.toModel.unpack.isFinite = true ∧ realOf x.toModel.unpack = _
  cases hx : x.toModel.unpack with
  | notANumber => rw [hx] at h; cases h
  | infinity s => rw [hx] at h; cases h
  | zero s =>
    rw [hx] at h
    cases h
    refine ⟨rfl, ?_⟩
    rw [Nat.cast_zero, zero_mul, signed_zero]
    rfl
  | finite s k q hk =>
    rw [hx] at h
    cases h
    cases s <;> exact ⟨rfl, rfl⟩

theorem canonical_of_ofFloat {x : Float} {negative : Bool} {m : ℕ} {e : ℤ}
    (h : Binary.ofFloat x = .finite negative m e) (hm : 0 < m) :
    m < 2 ^ 53 ∧ -1074 ≤ e ∧ (2 ^ 52 ≤ m ∨ e = -1074) := by
  unfold Binary.ofFloat at h
  have hc := canonical_unpack x.toModel
  cases hx : x.toModel.unpack with
  | notANumber => rw [hx] at h; cases h
  | infinity s => rw [hx] at h; cases h
  | zero s => rw [hx] at h; cases h; exact absurd hm (lt_irrefl 0)
  | finite s k q hk =>
    rw [hx] at h hc
    cases h
    exact hc

/-- There is one double only that is not a number, so a double is known by what it denotes. -/
theorem ofFloat_injective : Function.Injective Binary.ofFloat := by
  intro x y h
  have hunpack : x.toModel.unpack = y.toModel.unpack := by
    unfold Binary.ofFloat at h
    cases hx : x.toModel.unpack with
    | notANumber => cases hy : y.toModel.unpack <;> rw [hx, hy] at h <;> first | rfl | cases h
    | infinity s =>
      cases hy : y.toModel.unpack with
      | infinity t => rw [hx, hy] at h; cases s <;> cases t <;> first | rfl | cases h
      | _ => rw [hx, hy] at h; cases h
    | zero s =>
      cases hy : y.toModel.unpack with
      | zero t => rw [hx, hy] at h; cases s <;> cases t <;> first | rfl | cases h
      | finite t k q hk => rw [hx, hy] at h; exact absurd (Binary.finite.inj h).2.1 hk.ne
      | _ => rw [hx, hy] at h; cases h
    | finite s m e hm =>
      cases hy : y.toModel.unpack with
      | zero t => rw [hx, hy] at h; exact absurd (Binary.finite.inj h).2.1 hm.ne'
      | finite t k q hk => rw [hx, hy] at h; cases s <;> cases t <;> cases h <;> rfl
      | _ => rw [hx, hy] at h; cases h
  rw [← pack_unpack x, hunpack, pack_unpack]

theorem eq_of_ofFloat_nan {x : Float} (h : Binary.ofFloat x = .nan) : x = 0.0 / 0.0 :=
  ofFloat_injective (h.trans (by decide +kernel))

theorem eq_of_ofFloat_infinity {x : Float} {negative : Bool}
    (h : Binary.ofFloat x = .infinity negative) :
    x = if negative then -1.0 / 0.0 else 1.0 / 0.0 :=
  ofFloat_injective (h.trans (by cases negative <;> decide +kernel))

theorem eq_of_ofFloat_zero {x : Float} {negative : Bool} {e : ℤ}
    (h : Binary.ofFloat x = .finite negative 0 e) : x = if negative then -0.0 else 0.0 := by
  have he : e = 0 := by
    unfold Binary.ofFloat at h
    cases hx : x.toModel.unpack with
    | finite s k q hk => rw [hx] at h; cases h; exact absurd hk (lt_irrefl 0)
    | zero s => rw [hx] at h; cases h; rfl
    | _ => rw [hx] at h; cases h
  subst he
  exact ofFloat_injective (h.trans (by cases negative <;> decide +kernel))

theorem exists_ofFloat_of_isFinite {x : Float} (h : x.isFinite = true) :
    ∃ negative m e, Binary.ofFloat x = .finite negative m e := by
  cases hx : Binary.ofFloat x with
  | nan =>
    rw [eq_of_ofFloat_nan hx] at h
    exact absurd h (by decide +kernel)
  | infinity negative =>
    rw [eq_of_ofFloat_infinity hx] at h
    cases negative <;> exact absurd h (by decide +kernel)
  | finite negative m e => exact ⟨negative, m, e, rfl⟩

theorem toReal_of_nat? {x : Float} {n : ℕ} (h : (Binary.ofFloat x).nat? = some n) :
    x.isFinite = true ∧ toReal x = n := by
  cases hx : Binary.ofFloat x with
  | nan => rw [hx] at h; cases h
  | infinity negative => rw [hx] at h; cases h
  | finite negative m e =>
    obtain ⟨hfinite, hreal⟩ := of_ofFloat hx
    obtain ⟨hpos, hratio⟩ := ratio_spec m e
    rw [hx] at h
    change (if (Binary.ratio m e).1 % (Binary.ratio m e).2 = 0 ∧ (negative = false ∨ m = 0) then
      some ((Binary.ratio m e).1 / (Binary.ratio m e).2) else none) = some n at h
    split_ifs at h with hc
    obtain ⟨hmod, hsign⟩ := hc
    obtain rfl := Option.some.inj h
    have hvalue : (m : ℝ) * 2 ^ e = ((Binary.ratio m e).1 / (Binary.ratio m e).2 : ℕ) := by
      rw [Nat.cast_div (Nat.dvd_of_mod_eq_zero hmod) (by positivity), hratio, mul_div_assoc,
        div_self (by positivity), mul_one]
    refine ⟨hfinite, hreal.trans ?_⟩
    rw [← hvalue]
    rcases hsign with rfl | rfl
    · rfl
    · rw [Nat.cast_zero, zero_mul, signed_zero]

end Toolpath.Double
