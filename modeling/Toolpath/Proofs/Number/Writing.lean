import Mathlib.Data.Real.Basic
import Mathlib.Tactic
import Toolpath.Number.Literal
import Toolpath.Number.Shortest

/-! # Decimals as they are written

A decimal is written by digits with a point among them. Zeros are added on either side where the
point is not within the digits, and so the digits written have the value of the decimal, and none of
them is a needless zero in front.
-/
namespace Toolpath

@[simp] theorem String.toList_pushn (s : String) (c : Char) (n : Nat) :
    (s.pushn c n).toList = s.toList ++ List.replicate n c := by
  rw [String.pushn_eq_repeat_push]
  induction n with
  | zero => simp [Nat.repeat]
  | succ n ih => simp [Nat.repeat, ih, List.replicate_succ']

namespace Literal

theorem digitsValue_append (a b : List Char) :
    digitsValue (a ++ b) = 10 ^ b.length * digitsValue a + digitsValue b :=
  (Nat.ofDigitChars_append 0).trans Nat.ofDigitChars_eq_ofDigitChars_zero

@[simp] theorem digitsValue_toDigits (n : Nat) : digitsValue (Nat.toDigits 10 n) = n :=
  Nat.ofDigitChars_ten_toDigits

@[simp] theorem digitsValue_replicate_zero (n : Nat) : digitsValue (List.replicate n '0') = 0 :=
  Nat.ofDigitChars_replicate_zero

end Literal

theorem toList_toString (n : Nat) : (toString n).toList = Nat.toDigits 10 n := Nat.toList_repr

theorem isDigit_of_mem_toDigits {n : Nat} {c : Char} (h : c ∈ Nat.toDigits 10 n) :
    c.isDigit = true := Nat.isDigit_of_mem_toDigits (by norm_num) (by norm_num) h

theorem head?_toDigits_ne_zero {n : Nat} (hn : 0 < n) : (Nat.toDigits 10 n).head? ≠ some '0' := by
  induction n using Nat.strong_induction_on with
  | _ n ih =>
    rcases lt_or_ge n 10 with hlt | hge
    · rw [Nat.toDigits_of_lt_base hlt]
      interval_cases n <;> decide
    · rw [Nat.toDigits_of_base_le (by norm_num) hge,
        List.head?_append_of_ne_nil _ Nat.toDigits_ne_nil]
      exact ih (n / 10) (Nat.div_lt_self hn (by norm_num)) (Nat.div_pos hge (by norm_num))

/-- Digits without a needless zero in front. -/
structure Whole (whole : List Char) : Prop where
  ne_nil : whole ≠ []
  isDigit : ∀ c ∈ whole, c.isDigit = true
  head : whole = ['0'] ∨ whole.head? ≠ some '0'

theorem whole_toDigits (n : Nat) : Whole (Nat.toDigits 10 n) where
  ne_nil := Nat.toDigits_ne_nil
  isDigit _ := isDigit_of_mem_toDigits
  head := by
    rcases Nat.eq_zero_or_pos n with rfl | hn
    · exact .inl rfl
    · exact .inr (head?_toDigits_ne_zero hn)

structure Pointed (whole fraction : List Char) : Prop extends Whole whole where
  fraction_ne_nil : fraction ≠ []
  isDigit_fraction : ∀ c ∈ fraction, c.isDigit = true

theorem pointed_zero : Pointed ['0'] ['0'] :=
  ⟨⟨by simp, List.forall_mem_singleton.mpr rfl, .inl rfl⟩, by simp,
    List.forall_mem_singleton.mpr rfl⟩

noncomputable def pointedValue (whole fraction : List Char) : ℝ :=
  Literal.digitsValue (whole ++ fraction) * 10 ^ (-(fraction.length : ℤ))

namespace Shortest

/-- Zeros in front of the digits. -/
theorem pointed_small {ds : List Char} (hne : ds ≠ []) (hdigits : ∀ c ∈ ds, c.isDigit = true)
    (zeros : Nat) : Pointed ['0'] (List.replicate zeros '0' ++ ds) ∧
    pointedValue ['0'] (List.replicate zeros '0' ++ ds) =
      Literal.digitsValue ds * 10 ^ (-((zeros + ds.length : Nat) : ℤ)) := by
  constructor
  · refine ⟨pointed_zero.toWhole, by simp [hne], ?_⟩
    intro c hc
    rcases List.mem_append.mp hc with hc | hc
    · rw [List.eq_of_mem_replicate hc]
      rfl
    · exact hdigits c hc
  · have hzero : Literal.digitsValue ['0'] = 0 := rfl
    unfold pointedValue
    rw [Literal.digitsValue_append, Literal.digitsValue_append, hzero,
      Literal.digitsValue_replicate_zero]
    simp

/-- The point among the digits. -/
theorem pointed_within {ds : List Char} (hdigits : ∀ c ∈ ds, c.isDigit = true)
    (hhead : ds.head? ≠ some '0') {k : Nat} (hk : 0 < k) (hk' : k < ds.length) :
    Pointed (ds.take k) (ds.drop k) ∧
    pointedValue (ds.take k) (ds.drop k) =
      Literal.digitsValue ds * 10 ^ (-((ds.length - k : Nat) : ℤ)) := by
  constructor
  · refine ⟨⟨?_, fun c hc => hdigits c (List.mem_of_mem_take hc), .inr ?_⟩, ?_,
      fun c hc => hdigits c (List.mem_of_mem_drop hc)⟩
    · rw [← List.length_pos_iff, List.length_take]
      omega
    · rw [List.head?_take, if_neg hk.ne']
      exact hhead
    · rw [← List.length_pos_iff, List.length_drop]
      omega
  · unfold pointedValue
    rw [List.take_append_drop, List.length_drop]

/-- Zeros behind the digits, and one behind the point. -/
theorem pointed_large {ds : List Char} (hne : ds ≠ []) (hdigits : ∀ c ∈ ds, c.isDigit = true)
    (hhead : ds.head? ≠ some '0') (zeros : Nat) :
    Pointed (ds ++ List.replicate zeros '0') ['0'] ∧
    pointedValue (ds ++ List.replicate zeros '0') ['0'] =
      Literal.digitsValue ds * 10 ^ (zeros : ℤ) := by
  constructor
  · refine ⟨⟨by simp [hne], ?_, .inr ?_⟩, by simp, pointed_zero.isDigit_fraction⟩
    · intro c hc
      rcases List.mem_append.mp hc with hc | hc
      · exact hdigits c hc
      · rw [List.eq_of_mem_replicate hc]
        rfl
    · rw [List.head?_append_of_ne_nil _ hne]
      exact hhead
  · have hzero : Literal.digitsValue ['0'] = 0 := rfl
    unfold pointedValue
    rw [Literal.digitsValue_append, Literal.digitsValue_append, hzero,
      Literal.digitsValue_replicate_zero, zpow_natCast]
    push_cast
    simp
    ring

theorem plain_spec {d : Nat} (hd : 0 < d) (power : ℤ) : ∃ whole fraction,
    (plain d power).toList = whole ++ '.' :: fraction ∧ Pointed whole fraction ∧
    pointedValue whole fraction = d * 10 ^ power := by
  have hlength : (toString d).length = (Nat.toDigits 10 d).length := by
    rw [← String.length_toList, toList_toString]
  have hdigits := fun c => isDigit_of_mem_toDigits (n := d) (c := c)
  have hhead := head?_toDigits_ne_zero hd
  have hne : Nat.toDigits 10 d ≠ [] := Nat.toDigits_ne_nil
  have hvalue := Literal.digitsValue_toDigits d
  unfold plain
  dsimp only
  rw [hlength]
  split_ifs with hpoint hpower
  · obtain ⟨hpointed, heq⟩ := pointed_small hne hdigits
      (-(((Nat.toDigits 10 d).length : ℤ) + power)).toNat
    refine ⟨_, _, ?_, hpointed, ?_⟩
    · simp
    · rw [heq, hvalue]
      congr 2
      omega
  · obtain ⟨hpointed, heq⟩ := pointed_within hdigits hhead
      (k := (((Nat.toDigits 10 d).length : ℤ) + power).toNat) (by omega) (by omega)
    refine ⟨_, _, ?_, hpointed, ?_⟩
    · simp
    · rw [heq, hvalue]
      congr 2
      omega
  · obtain ⟨hpointed, heq⟩ := pointed_large hne hdigits hhead power.toNat
    refine ⟨_, _, ?_, hpointed, ?_⟩
    · simp
    · rw [heq, hvalue, Int.toNat_of_nonneg (not_lt.mp hpower)]

/-- The digits around the point and the power of ten, each written in full. -/
theorem scientific_spec {d : Nat} (hd : 0 < d) (power : ℤ) :
    ∃ (first : Char) (fraction : List Char) (negative : Bool) (exponent : List Char),
      (scientific d power).toList =
      first :: ((if fraction.isEmpty then [] else '.' :: fraction) ++
        'e' :: (if negative then '-' else '+') :: exponent) ∧
      first.isDigit = true ∧ first ≠ '0' ∧ (∀ c ∈ fraction, c.isDigit = true) ∧
      exponent ≠ [] ∧ ∀ c ∈ exponent, c.isDigit = true := by
  have hdigits := fun c => isDigit_of_mem_toDigits (n := d) (c := c)
  have hhead := head?_toDigits_ne_zero hd
  unfold scientific
  dsimp only
  generalize (((toString d).toList.length : ℤ) - 1 + power) = shift
  rw [toList_toString]
  cases hds : Nat.toDigits 10 d with
  | nil => exact absurd hds Nat.toDigits_ne_nil
  | cons first fraction =>
    rw [hds] at hdigits hhead
    refine ⟨first, fraction, decide (shift < 0), Nat.toDigits 10 shift.natAbs, ?_,
      hdigits first (by simp), by simpa using hhead, fun c hc => hdigits c (by simp [hc]),
      Nat.toDigits_ne_nil, fun c => isDigit_of_mem_toDigits⟩
    cases fraction <;> by_cases hshift : shift < 0 <;> simp [hshift]

theorem toList_text (round : Binary.Rounding) (layout : Nat → Int → String) (negative : Bool)
    {m : Nat} (hm : 0 < m) (e : Int) : (text round layout negative m e).toList =
      (if negative then ['-'] else []) ++
        (layout (digits round m e).1 (digits round m e).2).toList := by
  cases negative <;> simp [text, hm.ne']

theorem toList_text_zero (round : Binary.Rounding) (layout : Nat → Int → String) (negative : Bool)
    (e : Int) : (text round layout negative 0 e).toList =
      (if negative then ['-'] else []) ++ ['0', '.', '0'] := by
  cases negative <;> simp [text]

end Shortest
end Toolpath
