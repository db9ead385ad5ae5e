import Toolpath.Proofs.Machine.Blocks
import Toolpath.Proofs.Number.Naturals
import Toolpath.Proofs.Number.Writing
import Toolpath.Proofs.Word.Layout

/-! # What the number of a word denotes

`Denotes` reads a number text exactly, as a rational number. A word has a number unless its text has
none or is out of range. It has a code where the nearest double is a natural number, and that is so
for more texts than those that denote one.
-/
namespace Toolpath

def AllDigits (text : List Char) : Prop := ∀ c ∈ text, c.isDigit = true

instance : DecidablePred AllDigits := List.decidableBAll fun c : Char => c.isDigit = true

inductive UnsignedValue : List Char → ℚ → Prop where
  | whole {digits : List Char} (ne_nil : digits ≠ []) (ascii : AllDigits digits) :
      UnsignedValue digits (Literal.digitsValue digits)
  | pointed {digits fraction : List Char} (ne_nil : digits ++ fraction ≠ [])
      (ascii : AllDigits digits) (fraction_ascii : AllDigits fraction) :
      UnsignedValue (digits ++ '.' :: fraction)
        (Literal.digitsValue digits + Literal.digitsValue fraction / 10 ^ fraction.length)

inductive Denotes : List Char → ℚ → Prop where
  | unsigned {text : List Char} {q : ℚ} (value : UnsignedValue text q) : Denotes text q
  | plus {text : List Char} {q : ℚ} (value : UnsignedValue text q) : Denotes ('+' :: text) q
  | minus {text : List Char} {q : ℚ} (value : UnsignedValue text q) : Denotes ('-' :: text) (-q)

theorem isDecimal_of_isDigit {c : Char} (h : c.isDigit = true) : isDecimal c = true := by
  simp [isDecimal, h]

theorem AllDigits.allDecimal {text : List Char} (h : AllDigits text) : AllDecimal text :=
  fun c hc => isDecimal_of_isDigit (h c hc)

theorem stops_point (rest : List Char) : Stops Char.isDigit ('.' :: rest) := stops_cons.mpr rfl

namespace UnsignedValue
variable {text : List Char} {q : ℚ}

theorem unsignedText (h : UnsignedValue text q) : UnsignedText text := by
  cases h with
  | whole ne_nil ascii => exact .whole ne_nil ascii.allDecimal
  | @pointed digits fraction ne_nil ascii fraction_ascii =>
    cases digits with
    | nil => exact .fraction ne_nil fraction_ascii.allDecimal
    | cons d digits =>
      exact .pointed (List.cons_ne_nil d digits) ascii.allDecimal fraction_ascii.allDecimal

/-- The literal that is read has the value. -/
theorem magnitude? (h : UnsignedValue text q) (negative : Bool) :
    ∃ l, Word.magnitude? negative text = some l ∧ l.toRat = if negative then -q else q := by
  cases h with
  | whole ne_nil ascii =>
    refine ⟨.ofParts negative text [] 0, ?_, ?_⟩
    · have htake := List.takeWhile_eq_self_iff.mpr ascii
      have hdrop := List.dropWhile_eq_nil_iff.mpr ascii
      simp [Word.magnitude?, htake, hdrop, ne_nil]
    · simp [Literal.ofParts, Literal.toRat]
  | @pointed digits fraction ne_nil ascii fraction_ascii =>
    refine ⟨.ofParts negative digits fraction 0, ?_, ?_⟩
    · have htake := takeWhile_run ascii (stops_point fraction)
      have hdrop := dropWhile_run ascii (stops_point fraction)
      have hall : fraction.all Char.isDigit = true := List.all_eq_true.mpr fraction_ascii
      have hempty : (digits.isEmpty && fraction.isEmpty) = false := by
        simpa [imp_iff_not_or] using ne_nil
      simp [Word.magnitude?, htake, hdrop, hall, hempty]
    · have hpow : (10 : ℚ) ^ fraction.length ≠ 0 := by positivity
      have hvalue :
          (Literal.digitsValue (digits ++ fraction) : ℚ) * 10 ^ (0 - fraction.length : ℤ) =
          Literal.digitsValue digits + Literal.digitsValue fraction / 10 ^ fraction.length := by
        rw [Literal.digitsValue_append, zero_sub, zpow_neg, zpow_natCast]
        push_cast
        field_simp
      rw [← hvalue]
      rfl

end UnsignedValue

namespace Denotes
variable {text : List Char} {q : ℚ}

theorem literal? {w : Word} (h : Denotes w.value q) : ∃ l, w.literal? = some l ∧ l.toRat = q := by
  unfold Word.literal?
  generalize w.value = text at h
  cases h with
  | unsigned value =>
    obtain ⟨c, rest, rfl, hplus, hminus⟩ := value.unsignedText.exists_cons
    split
    · next heq => exact absurd (List.cons.inj heq).1 hplus
    · next heq => exact absurd (List.cons.inj heq).1 hminus
    · exact value.magnitude? false
  | plus value => exact value.magnitude? false
  | minus value => exact value.magnitude? true

/-- A text denotes one number only. -/
theorem unique {r : ℚ} (h : Denotes text q) (h' : Denotes text r) : q = r := by
  obtain ⟨l, hl, rfl⟩ := literal? (w := ⟨'G', text⟩) h
  obtain ⟨l', hl', rfl⟩ := literal? (w := ⟨'G', text⟩) h'
  rw [Option.some.inj (hl.symm.trans hl')]

end Denotes

theorem UnsignedText.exists_value {text : List Char} (h : UnsignedText text)
    (ascii : ∀ c ∈ text, isDecimal c = true → c.isDigit = true) : ∃ q, UnsignedValue text q := by
  cases h with
  | whole ne_nil decimal => exact ⟨_, .whole ne_nil fun c hc => ascii c hc (decimal c hc)⟩
  | pointed ne_nil decimal fraction_decimal =>
    rw [List.forall_mem_append, List.forall_mem_cons] at ascii
    exact ⟨_, .pointed (by simp [ne_nil]) (fun c hc => ascii.1 c hc (decimal c hc))
      fun c hc => ascii.2.2 c hc (fraction_decimal c hc)⟩
  | fraction ne_nil decimal =>
    rw [List.forall_mem_cons] at ascii
    exact ⟨_, .pointed (by simpa using ne_nil) (List.forall_mem_nil _)
      fun c hc => ascii.2 c hc (decimal c hc)⟩

/-- A number text denotes a number if all of its digits have a value. -/
theorem NumberText.exists_denotes {text : List Char} (h : NumberText text)
    (ascii : ∀ c ∈ text, isDecimal c = true → c.isDigit = true) : ∃ q, Denotes text q := by
  cases h with
  | unsigned number =>
    obtain ⟨q, hq⟩ := number.exists_value ascii
    exact ⟨q, .unsigned hq⟩
  | signed sign_eq number =>
    obtain ⟨q, hq⟩ := number.exists_value fun c hc => ascii c (List.mem_cons_of_mem _ hc)
    rcases sign_eq with rfl | rfl
    · exact ⟨q, .plus hq⟩
    · exact ⟨-q, .minus hq⟩

namespace Word
open Double
variable {w : Word} {q : ℚ}

theorem number?_of_denotes (h : Denotes w.value q) :
    w.number? = none ↔ overflow ≤ |(q : ℝ)| := by
  obtain ⟨l, hl, rfl⟩ := h.literal?
  rw [number?, hl, Option.map_some, Option.filter_some, ← not_lt,
    ← l.isRounded_toFloat.isFinite_iff]
  split_ifs with hfinite <;> simp [hfinite]

theorem code?_of_denotes (h : Denotes w.value q) (n : ℕ) :
    w.code? = some n ↔ n < UInt32.size ∧ RoundsTo q n := by
  obtain ⟨l, hl, rfl⟩ := h.literal?
  have hcode : w.code? = some n ↔
      (Binary.ofFloat l.toFloat).nat? = some n ∧ n < UInt32.size := by
    rw [code?, Option.filter_eq_some_iff, decide_eq_true_eq, Option.bind_eq_some_iff]
    refine and_congr_left fun _ => ⟨?_, ?_⟩
    · rintro ⟨x, hx, hn⟩
      rw [number?, hl, Option.map_some, Option.filter_eq_some_iff, Option.some_inj] at hx
      rwa [hx.1]
    · intro hn
      refine ⟨l.toFloat, ?_, hn⟩
      rw [number?, hl, Option.map_some, Option.filter_eq_some_iff]
      exact ⟨rfl, (nat?_eq_some_iff.mp hn).1⟩
  rw [hcode, and_comm]
  refine and_congr_right fun hlt => l.nat?_toFloat_iff ?_
  exact hlt.trans (by decide)

/-- What rounds to a code and has no more than six decimals is the code. -/
theorem eq_of_roundsTo {n : ℕ} (hn : n < UInt32.size) {m : ℤ} (hq : q * 10 ^ 6 = m)
    (h : RoundsTo q n) : q = n := by
  have hnear : |q - n| ≤ 2 ^ (-22 : ℤ) := h.abs_sub_le (k := 32) hn
  have hlt : |((m - n * 10 ^ 6 : ℤ) : ℚ)| < 1 := by
    have hsub : ((m - n * 10 ^ 6 : ℤ) : ℚ) = (q - n) * 10 ^ 6 := by
      push_cast
      rw [← hq]
      ring
    rw [hsub, abs_mul]
    norm_num at hnear ⊢
    linarith
  have heq : m - n * 10 ^ 6 = 0 := Int.abs_lt_one_iff.mp (by exact_mod_cast hlt)
  have hm : (m : ℚ) = n * 10 ^ 6 := by exact_mod_cast sub_eq_zero.mp heq
  exact mul_right_cancel₀ (by norm_num) (hq.trans hm)

theorem code?_of_decimals (h : Denotes w.value q) {m : ℤ} (hq : q * 10 ^ 6 = m) (n : ℕ) :
    w.code? = some n ↔ n < UInt32.size ∧ q = n := by
  rw [code?_of_denotes h]
  refine and_congr_right fun hn => ⟨eq_of_roundsTo hn hq, ?_⟩
  rintro rfl
  exact roundsTo_self n

theorem code?_of_number? (h : w.number? = none) : w.code? = none := by
  rw [code?, h]
  rfl

theorem read_of_code? (hletter : w.letter = 'G') (h : w.code? = none) (b : Block) :
    b.read w = b := by
  rw [Block.read_command? b hletter, command?, if_pos hletter, h]
  rfl

namespace WellFormed
variable (hw : w.WellFormed)
include hw

/-- A text that denotes no number is missing or has a digit without a value. -/
theorem denotes_or : (∃ q, Denotes w.value q) ∨
    w.value = [] ∨ ∃ c ∈ w.value, isDecimal c = true ∧ c.isDigit = false := by
  by_cases hother : ∃ c ∈ w.value, isDecimal c = true ∧ c.isDigit = false
  · exact .inr (.inr hother)
  · rcases hw.value with hnil | hnumber
    · exact .inr (.inl hnil)
    · refine .inl (hnumber.exists_denotes fun c hc hdecimal => ?_)
      by_contra hdigit
      exact hother ⟨c, hc, hdecimal, Bool.eq_false_iff.mpr hdigit⟩

theorem number?_eq_none_iff : w.number? = none ↔
    w.value = [] ∨ (∃ c ∈ w.value, isDecimal c = true ∧ c.isDigit = false) ∨
    ∃ q, Denotes w.value q ∧ overflow ≤ |(q : ℝ)| := by
  constructor
  · intro hnone
    rcases hw.denotes_or with ⟨q, hq⟩ | hnil | hother
    · exact .inr (.inr ⟨q, hq, (number?_of_denotes hq).mp hnone⟩)
    · exact .inl hnil
    · exact .inr (.inl hother)
  · rintro (hnil | hother | ⟨q, hq, hlarge⟩)
    · exact number?_of_numberless (.inl (List.isEmpty_iff.mpr hnil))
    · exact number?_of_numberless (.inr (.inl hother))
    · exact (number?_of_denotes hq).mpr hlarge

theorem code?_eq_some_iff (n : ℕ) : w.code? = some n ↔
    n < UInt32.size ∧ ∃ q, Denotes w.value q ∧ RoundsTo q n := by
  constructor
  · intro hcode
    obtain ⟨q, hq⟩ : ∃ q, Denotes w.value q := by
      by_contra hno
      have hdigits := hw.denotes_or.resolve_left hno
      rw [code?_of_number? (hw.number?_eq_none_iff.mpr (or_assoc.mp (.inl hdigits)))] at hcode
      cases hcode
    obtain ⟨hn, hround⟩ := (code?_of_denotes hq n).mp hcode
    exact ⟨hn, q, hq, hround⟩
  · rintro ⟨hn, q, hq, hround⟩
    exact (code?_of_denotes hq n).mpr ⟨hn, hround⟩

end WellFormed

/-- A word of a text has no number just if its text is missing, has a digit that is not an ASCII one
or is out of range. Its code is the natural number of 32 bits that its text rounds to, and that its
text denotes, if it has no more than six decimals. A G word that rounds to no code does nothing. -/
theorem split_denotes {text : List Char} (h : w ∈ split text) :
    (w.number? = none ↔
      w.value = [] ∨ (∃ c ∈ w.value, isDecimal c = true ∧ c.isDigit = false) ∨
      ∃ q, Denotes w.value q ∧ overflow ≤ |(q : ℝ)|) ∧
    (∀ n, w.code? = some n ↔ n < UInt32.size ∧ ∃ q, Denotes w.value q ∧ RoundsTo q n) ∧
    (∀ (q : ℚ) (m : ℤ), Denotes w.value q → q * 10 ^ 6 = m →
      ∀ n : ℕ, w.code? = some n ↔ n < UInt32.size ∧ q = n) ∧
    (w.letter = 'G' → (∀ q, Denotes w.value q → ∀ n < UInt32.size, ¬ RoundsTo q n) →
      ∀ b : Block, b.read w = b) := by
  have hw := wellFormed_of_mem_split h
  refine ⟨hw.number?_eq_none_iff, hw.code?_eq_some_iff, fun q m hq hm => code?_of_decimals hq hm, ?_⟩
  intro hletter hno
  refine read_of_code? hletter ?_
  by_contra hsome
  obtain ⟨n, hn⟩ := Option.ne_none_iff_exists'.mp hsome
  obtain ⟨hlt, q, hq, hround⟩ := (hw.code?_eq_some_iff n).mp hn
  exact hno q hq n hlt hround

/-- A decimal with a one in its twentieth place has the code one. -/
theorem split_denotes_tail :
    ⟨'G', "1.00000000000000000001".toList⟩ ∈ split "G1.00000000000000000001".toList ∧
    Denotes "1.00000000000000000001".toList (1 + 1 / 10 ^ 20) ∧
    code? ⟨'G', "1.00000000000000000001".toList⟩ = some 1 := by
  have hmem : ⟨'G', "1.00000000000000000001".toList⟩ ∈ split "G1.00000000000000000001".toList := by
    decide
  have hvalue : UnsignedValue ("1".toList ++ '.' :: "00000000000000000001".toList)
      ((1 : ℕ) + (1 : ℕ) / 10 ^ 20) := .pointed (by decide) (by decide) (by decide)
  have hdenotes : Denotes "1.00000000000000000001".toList (1 + 1 / 10 ^ 20) := by
    rw [Nat.cast_one] at hvalue
    exact .unsigned hvalue
  refine ⟨hmem, hdenotes, ((split_denotes hmem).2.1 1).mpr ⟨by decide, _, hdenotes, ?_⟩⟩
  decide +kernel

end Word
end Toolpath
