import Toolpath.Proofs.Double.Unpacked

/-! # Packing

What is unpacked is canonical and in range, and packing a canonical number keeps it or makes it
infinite. So every double is read by its unpacked number, and every operation by `settle`.
-/
namespace Toolpath.Double
open Float.Model Float.Model.UnpackedFloat

theorem toNat_append_one (v : BitVec 52) : (1#1 ++ v).toNat = 2 ^ 52 + v.toNat := by
  rw [BitVec.toNat_append, Nat.shiftLeft_eq, Nat.mul_comm, ← Nat.two_pow_add_eq_or_of_lt v.isLt]
  rfl

theorem finite_congr {s : Sign} {m m' : ℕ} {e e' : ℤ} (hm : m = m') (he : e = e') (h : 0 < m)
    (h' : 0 < m') : UnpackedFloat.finite s m e h = .finite s m' e' h' := by
  subst hm he
  rfl

theorem unpack_normal (b : BitVec Format.binary64.numBits) (h0 : unpackExponent b ≠ 0#_)
    (h1 : unpackExponent b ≠ -1#_) :
    UnpackedFloat.unpack .binary64 b = .finite (Sign.ofBitVec (unpackSign b))
      (2 ^ 52 + (unpackMantissa b).toNat) ((unpackExponent b).toNat - 1075) (by omega) := by
  unfold UnpackedFloat.unpack
  simp only [if_neg h1, if_neg h0]
  exact finite_congr (toNat_append_one _) rfl _ _

theorem unpack_subnormal (b : BitVec Format.binary64.numBits) (h0 : unpackExponent b = 0#_)
    (hm : 0 < (unpackMantissa b).toNat) :
    UnpackedFloat.unpack .binary64 b = .finite (Sign.ofBitVec (unpackSign b))
      (unpackMantissa b).toNat (-1074) hm := by
  have h1 : unpackExponent b ≠ -1#_ := by
    rw [h0]
    decide
  have hm' : unpackMantissa b ≠ 0#_ := by
    intro h
    rw [h] at hm
    exact absurd hm (by decide)
  unfold UnpackedFloat.unpack
  simp only [if_neg h1, if_pos h0, dif_neg hm']
  refine finite_congr rfl ?_ _ _
  rw [h0]
  rfl

theorem pack_finite (s : Sign) (m : ℕ) (e : ℤ) (h : 0 < m) :
    UnpackedFloat.pack .binary64 (.finite s m e h) =
      if 2048 ≤ (e + 1075).toNat + 1 then packedInfinity .binary64 s
      else if m.log2 + 1 = 53 then
        packComponents .binary64 s (BitVec.ofNat 11 (e + 1075).toNat) (BitVec.ofNat 52 m)
      else packComponents .binary64 s 0#11 (BitVec.ofNat 52 m) := by
  have hbias : e + 1075 = e + 1023 + 52 := by omega
  rw [hbias]
  rfl

section
variable {s : Sign} {m : ℕ} {e : ℤ} (h : 0 < m)

theorem unpack_pack_normal (hm : 2 ^ 52 ≤ m) (hm' : m < 2 ^ 53) (he : -1074 ≤ e) (he' : e ≤ 971) :
    (Float.Model.pack (.finite s m e h)).unpack = .finite s m e h := by
  have hsmall : ¬ 2048 ≤ (e + 1075).toNat + 1 := by omega
  have hlog : m.log2 + 1 = 53 := by rw [(Nat.log2_eq_iff h.ne').mpr ⟨hm, hm'⟩]
  have hexp : (BitVec.ofNat 11 (e + 1075).toNat).toNat = (e + 1075).toNat := by
    rw [BitVec.toNat_ofNat]
    omega
  have hmant : (BitVec.ofNat 52 m).toNat = m - 2 ^ 52 := by
    rw [BitVec.toNat_ofNat]
    omega
  have hne {v : BitVec 11} (hv : v.toNat ≠ (e + 1075).toNat) :
      BitVec.ofNat 11 (e + 1075).toNat ≠ v := by
    rintro rfl
    exact hv hexp
  change UnpackedFloat.unpack .binary64 (UnpackedFloat.pack .binary64 _) = _
  rw [pack_finite, if_neg hsmall, if_pos hlog, unpack_normal]
  · rw [unpackSign_packComponents, Sign.ofBitVec_toBitVec]
    simp only [unpackExponent_packComponents, unpackMantissa_packComponents]
    apply finite_congr
    · rw [hmant]
      omega
    · rw [hexp]
      omega
  · rw [unpackExponent_packComponents]
    refine hne ?_
    change 0 ≠ _
    omega
  · rw [unpackExponent_packComponents]
    refine hne ?_
    change 2047 ≠ _
    omega

theorem unpack_pack_subnormal (hm : m < 2 ^ 52) :
    (Float.Model.pack (.finite s m (-1074) h)).unpack = .finite s m (-1074) h := by
  have hlog : ¬ m.log2 + 1 = 53 := by
    have := (Nat.log2_lt h.ne').mpr hm
    omega
  have hmant : (BitVec.ofNat 52 m).toNat = m := by
    rw [BitVec.toNat_ofNat]
    omega
  change UnpackedFloat.unpack .binary64 (UnpackedFloat.pack .binary64 _) = _
  rw [pack_finite, if_neg (by decide), if_neg hlog, unpack_subnormal]
  · rw [unpackSign_packComponents, Sign.ofBitVec_toBitVec]
    apply finite_congr
    · rw [unpackMantissa_packComponents, hmant]
    · rfl
  · rw [unpackExponent_packComponents]
  · rw [unpackMantissa_packComponents, hmant]
    exact h

theorem unpack_pack_large (he : 971 < e) :
    (Float.Model.pack (.finite s m e h)).unpack = .infinity s := by
  change UnpackedFloat.unpack .binary64 (UnpackedFloat.pack .binary64 _) = _
  rw [pack_finite, if_pos (by omega)]
  cases s <;> rfl

end

theorem unpack_pack {u : UnpackedFloat} (hc : Canonical u) :
    (Float.Model.pack u).unpack = settle u := by
  cases u with
  | infinity s => cases s <;> rfl
  | notANumber => rfl
  | zero s => cases s <;> rfl
  | finite s m e h =>
    obtain ⟨hm, he, hfull⟩ := hc
    by_cases hlarge : e ≤ 971
    · rw [settle_finite hlarge]
      by_cases hnormal : 2 ^ 52 ≤ m
      · exact unpack_pack_normal h hnormal hm he hlarge
      · obtain rfl : e = -1074 := hfull.resolve_left hnormal
        exact unpack_pack_subnormal h (not_le.mp hnormal)
    · rw [unpack_pack_large h (not_le.mp hlarge)]
      exact (if_neg hlarge).symm

theorem canonical_unpack_bits (b : BitVec Format.binary64.numBits) :
    Canonical (UnpackedFloat.unpack .binary64 b) ∧
      settle (UnpackedFloat.unpack .binary64 b) = UnpackedFloat.unpack .binary64 b := by
  have hmant := (unpackMantissa b).isLt
  have hexp := (unpackExponent b).isLt
  change _ < 2 ^ 52 at hmant
  change _ < 2048 at hexp
  by_cases h0 : unpackExponent b = 0#_
  · by_cases hm : 0 < (unpackMantissa b).toNat
    · rw [unpack_subnormal b h0 hm]
      exact ⟨⟨by omega, le_rfl, .inr rfl⟩, settle_finite (by norm_num)⟩
    · have hz : unpackMantissa b = 0#_ := BitVec.eq_of_toNat_eq (by simpa using hm)
      have h1 : unpackExponent b ≠ -1#_ := by
        rw [h0]
        decide
      unfold UnpackedFloat.unpack
      simp only [if_neg h1, if_pos h0, dif_pos hz]
      exact ⟨trivial, rfl⟩
  · by_cases h1 : unpackExponent b = -1#_
    · unfold UnpackedFloat.unpack
      simp only [if_pos h1]
      split_ifs <;> exact ⟨trivial, rfl⟩
    · have hpos : 0 < (unpackExponent b).toNat := by
        by_contra h
        exact h0 (BitVec.eq_of_toNat_eq (by simpa using h))
      have hlt : (unpackExponent b).toNat < 2047 := by
        by_contra h
        apply h1
        apply BitVec.eq_of_toNat_eq
        change _ = 2047
        omega
      rw [unpack_normal b h0 h1]
      exact ⟨⟨by omega, by omega, .inl (by omega)⟩, settle_finite (by omega)⟩

theorem canonical_unpack (x : Float.Model) : Canonical x.unpack := (canonical_unpack_bits _).1

/-- What is unpacked has been packed before. -/
@[simp] theorem settle_unpack (x : Float.Model) : settle x.unpack = x.unpack :=
  (canonical_unpack_bits _).2

end Toolpath.Double
