import Toolpath.Json.Value
import Toolpath.Proofs.Number.Parts
import Toolpath.Proofs.Number.Shortest
import Toolpath.Proofs.Number.Writing

/-! # Numbers in JSON read back

A finite double is written as a number with a point or an exponent, and it is read to its end
wherever it stands. What comes out of the digits is another matter, since they are scaled in
doubles: whether a double reads back depends on the double. What is not finite is no number at all.
-/
namespace Toolpath.Json
open Double

variable {whole text rest : List Char}

/-- Digits with a point or an exponent behind them are read as a scaled significand. -/
theorem number?_append (h : Whole whole) (negative : Bool) {tail : NumberTail}
    (htext : Stops inDigits text) (htail : numberTail? digits? text = some (tail, rest)) :
    number? ((if negative then ['-'] else []) ++ (whole ++ text)) =
      if tail.isWhole ∧ Literal.digitsValue whole < UInt64.size then
        some (.integer negative (UInt64.ofNat (Literal.digitsValue whole)), rest)
      else some (.number (Scaled.ofParts negative whole (tail.fraction.getD [])
        (tail.power.getD 0)).toFloat?, rest) := by
  have hzero : ¬(whole.head? = some '0' ∧ whole ≠ ['0']) := by
    rintro ⟨hhead, hne⟩
    exact (h.head.resolve_left hne) hhead
  have hdigits := reads_digits? h.ne_nil h.isDigit htext
  obtain ⟨d, ds, rfl⟩ := List.exists_cons_of_ne_nil h.ne_nil
  have hd := h.isDigit d (by simp)
  cases negative with
  | true =>
    simp only [if_true, List.cons_append, List.nil_append] at hdigits ⊢
    unfold number?
    simp only [hdigits, Option.bind_eq_bind, Option.bind_some, if_neg hzero, htail]
  | false =>
    simp only [Bool.false_eq_true, if_false, List.cons_append, List.nil_append] at hdigits ⊢
    unfold number?
    split
    next sign after hsplit =>
    split at hsplit
    · next heq => cases heq; exact absurd hd (by decide)
    · cases hsplit
      simp only [hdigits, Option.bind_eq_bind, Option.bind_some, if_neg hzero, htail]

/-- The digits of a double with a point or an exponent behind them. -/
theorem decimalText_spec {d : Nat} (hd : 0 < d) (power : ℤ) : ∃ whole text tail,
    (decimalText d power).toList = whole ++ text ∧ Whole whole ∧ tail.isWhole = false ∧
    ∀ rest, Stops inNumber rest → Stops inDigits (text ++ rest) ∧
      numberTail? digits? (text ++ rest) = some (tail, rest) := by
  unfold decimalText
  dsimp only
  split_ifs
  · obtain ⟨whole, fraction, htext, hpointed, -⟩ := Shortest.plain_spec hd power
    refine ⟨whole, '.' :: fraction, ⟨some fraction, none⟩, htext, hpointed.toWhole, rfl, ?_⟩
    intro rest hrest
    exact ⟨stops_cons.mpr rfl,
      numberTail?_fraction reads_digits? hpointed.fraction_ne_nil hpointed.isDigit_fraction hrest⟩
  · obtain ⟨first, fraction, negative, exponent, htext, hfirst, hzero, hfraction, hne, hexponent⟩ :=
      Shortest.scientific_spec hd power
    have hreads (rest : List Char) (hrest : Stops inNumber rest) :=
      numberTail?_exponent reads_digits? negative hfraction hne hexponent hrest.inDigits
    refine ⟨[first], _, ⟨if fraction.isEmpty then none else some fraction,
      some (if negative then -(Literal.digitsValue exponent : ℤ)
        else Literal.digitsValue exponent)⟩, htext,
      ⟨by simp, by simpa using hfirst, .inr (by simpa using hzero)⟩, ?_, fun rest hrest => ⟨?_, ?_⟩⟩
    · cases fraction <;> rfl
    · cases fraction <;> exact stops_cons.mpr rfl
    · rw [← hreads rest hrest]
      simp

/-- The text of a finite double is read to its end as some number. -/
theorem number?_numberText {x : Float} (hx : x.isFinite = true) : ∃ value, ∀ rest,
    Stops inNumber rest →
      number? ((numberText x).toList ++ rest) = some (.number value, rest) := by
  obtain ⟨negative, m, e, hbinary⟩ := exists_ofFloat_of_isFinite hx
  obtain ⟨whole, text, tail, htext, hwhole, htail, hreads⟩ : ∃ whole text tail,
      (numberText x).toList = (if negative then ['-'] else []) ++ (whole ++ text) ∧ Whole whole ∧
      tail.isWhole = false ∧ ∀ rest, Stops inNumber rest → Stops inDigits (text ++ rest) ∧
        numberTail? digits? (text ++ rest) = some (tail, rest) := by
    rcases Nat.eq_zero_or_pos m with rfl | hm
    · refine ⟨['0'], ['.', '0'], ⟨some ['0'], none⟩, ?_, pointed_zero.toWhole, rfl, ?_⟩
      · rw [numberText, hbinary]
        exact Shortest.toList_text_zero _ _ _ _
      · intro rest hrest
        exact ⟨stops_cons.mpr rfl, numberTail?_fraction reads_digits?
          pointed_zero.fraction_ne_nil pointed_zero.isDigit_fraction hrest⟩
    · obtain ⟨hbits, he, hnormal⟩ := canonical_of_ofFloat hbinary hm
      obtain ⟨hpos, -⟩ := Shortest.digits_spec Binary.neighbouring_roundHalfEven hm hbits he hnormal
      obtain ⟨whole, text, tail, htext, h⟩ := decimalText_spec hpos
        (Shortest.digits Binary.roundHalfEven m e).2
      refine ⟨whole, text, tail, ?_, h⟩
      rw [numberText, hbinary, ← htext]
      exact Shortest.toList_text _ _ _ hm _
  refine ⟨(Scaled.ofParts negative whole (tail.fraction.getD []) (tail.power.getD 0)).toFloat?, ?_⟩
  intro rest hrest
  obtain ⟨hstops, hnumber⟩ := hreads rest hrest
  rw [htext, List.append_assoc, List.append_assoc, number?_append hwhole negative hstops hnumber,
    htail]
  simp

/-- Whole numbers of 64 bits are read as they were written. -/
theorem number?_toString {n : Nat} (hn : n < UInt64.size) (hrest : Stops inNumber rest) :
    number? ((toString n).toList ++ rest) = some (.integer false (UInt64.ofNat n), rest) := by
  have h := number?_append (whole_toDigits n) false hrest.inDigits (numberTail?_of_stops hrest)
  rw [toList_toString]
  refine h.trans ?_
  simp [NumberTail.isWhole, hn]

def reading (x : Float) : Datum := ((number? (numberText x).toList).map Prod.fst).getD .other

def ReadsBack (x : Float) : Prop := (reading x).float? = some x

instance (x : Float) : Decidable (ReadsBack x) := inferInstanceAs (Decidable (_ = _))

theorem numberText_of_not_isFinite {x : Float} (hx : x.isFinite = false) :
    numberText x = "null" := by
  unfold numberText
  cases hbinary : Binary.ofFloat x with
  | finite negative m e =>
    rw [(of_ofFloat hbinary).1] at hx
    cases hx
  | _ => rfl

theorem reading_of_not_isFinite {x : Float} (hx : x.isFinite = false) : reading x = .other := by
  have hnull : number? "null".toList = none := by decide
  rw [reading, numberText_of_not_isFinite hx, hnull]
  rfl

theorem number?_reading {x : Float} (hx : x.isFinite = true) (hrest : Stops inNumber rest) :
    number? ((numberText x).toList ++ rest) = some (reading x, rest) := by
  obtain ⟨value, hvalue⟩ := number?_numberText hx
  have halone := hvalue [] (by simp [Stops])
  rw [List.append_nil] at halone
  rw [hvalue rest hrest, reading, halone]
  rfl

end Toolpath.Json
