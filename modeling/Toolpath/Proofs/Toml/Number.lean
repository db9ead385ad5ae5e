import Toolpath.Proofs.Number.Parts
import Toolpath.Proofs.Number.Shortest
import Toolpath.Proofs.Number.Writing
import Toolpath.Toml.Number

/-! # Numbers in TOML read back

What is written for a double is read as that double, whichever it is: the reading is exact, and
infinities and not-a-number have names. So it is with whole numbers of 63 bits.
-/
namespace Toolpath.Toml
open Double

variable {whole rest text : List Char}

theorem decimal?_append (h : Whole whole) {tail : NumberTail} (negative : Bool)
    (htext : Stops inDigits text)
    (htail : numberTail? (digits? Char.isDigit) text = some (tail, rest)) :
    decimal? negative (whole ++ text) =
      if tail.isWhole then (integer? negative (Literal.digitsValue whole)).map fun i => (i, rest)
      else if ((tail.literal negative whole).toFloat.isFinite ∨ negative) then
        some (.number (some (tail.literal negative whole).toFloat), rest)
      else none := by
  unfold decimal?
  split
  · next more heq =>
    -- the first digit is a zero, and so the only one
    have hwhole : whole = ['0'] := by
      have hhead : (whole ++ text).head? = whole.head? := List.head?_append_of_ne_nil _ h.ne_nil
      refine h.head.resolve_right (not_not_intro ?_)
      rw [← hhead, heq]
      rfl
    subst hwhole
    obtain rfl : text = more := by simpa using heq
    simp [htail]
  · simp [reads_digits? h.ne_nil h.isDigit htext, htail]

theorem signed?_of_isDigit {d : Char} (hd : d.isDigit = true) (negative : Bool)
    (text : List Char) : signed? negative (d :: text) = decimal? negative (d :: text) := by
  unfold signed?
  split
  · next heq => cases heq; exact absurd hd (by decide)
  · next heq => cases heq; exact absurd hd (by decide)
  · rfl

/-- A digit begins a decimal, unless a letter behind a zero tells another base. -/
theorem number?_of_isDigit {d : Char} (hd : d.isDigit = true)
    (htext : Stops (fun c => c ∈ ['x', 'o', 'b']) text) :
    number? (d :: text) = decimal? false (d :: text) := by
  unfold number?
  split
  · next heq => cases heq; exact absurd hd (by decide)
  · next heq => cases heq; exact absurd hd (by decide)
  · next heq => cases heq; exact absurd (htext 'x' (by simp)) (by decide)
  · next heq => cases heq; exact absurd (htext 'o' (by simp)) (by decide)
  · next heq => cases heq; exact absurd (htext 'b' (by simp)) (by decide)
  · exact signed?_of_isDigit hd false text

theorem number?_append (h : Whole whole) (htext : Stops (fun c => c ∈ ['x', 'o', 'b']) text)
    (negative : Bool) : number? ((if negative then ['-'] else []) ++ (whole ++ text)) =
      decimal? negative (whole ++ text) := by
  obtain ⟨d, ds, rfl⟩ := List.exists_cons_of_ne_nil h.ne_nil
  have hd := h.isDigit d (by simp)
  cases negative with
  | true => exact signed?_of_isDigit hd true (ds ++ text)
  | false =>
    refine number?_of_isDigit hd fun c hc => ?_
    cases ds with
    | nil => exact htext c hc
    | cons e ds =>
      obtain rfl : e = c := by simpa using hc
      have he := h.isDigit e (by simp)
      refine decide_eq_false fun hmem => ?_
      fin_cases hmem <;> exact absurd he (by decide)

/-- The digits of a double around a point are read as the double. -/
theorem toFloat_text {x : Float} {negative : Bool} {m : ℕ} {e : ℤ}
    (hx : Binary.ofFloat x = .finite negative m e) : ∃ whole fraction,
    (numberText x).toList = (if negative then ['-'] else []) ++ (whole ++ '.' :: fraction) ∧
    Pointed whole fraction ∧ (Literal.ofParts negative whole fraction 0).toFloat = x := by
  rcases Nat.eq_zero_or_pos m with rfl | hm
  · -- both zeros are written with their sign
    refine ⟨['0'], ['0'], ?_, pointed_zero, ?_⟩
    · rw [numberText, hx]
      exact Shortest.toList_text_zero _ _ _ _
    · rw [eq_of_ofFloat_zero hx]
      cases negative <;> decide +kernel
  · obtain ⟨hbits, he, hnormal⟩ := canonical_of_ofFloat hx hm
    obtain ⟨hpos, -⟩ := Shortest.digits_spec Binary.neighbouring_roundHalfUp hm hbits he hnormal
    obtain ⟨whole, fraction, htext, hpointed, hvalue⟩ := Shortest.plain_spec hpos
      (Shortest.digits Binary.roundHalfUp m e).2
    refine ⟨whole, fraction, ?_, hpointed, ?_⟩
    · rw [numberText, hx, ← htext]
      exact Shortest.toList_text _ _ _ hm _
    · refine Literal.toFloat_of_digits hx hm Binary.neighbouring_roundHalfUp rfl ?_
      rw [← hvalue, Literal.ofParts, pointedValue, zero_sub]

/-- Every double is read as it was written. -/
theorem number?_numberText (x : Float) (hrest : Stops inNumber rest) :
    number? ((numberText x).toList ++ rest) = some (.number (some x), rest) := by
  cases hx : Binary.ofFloat x with
  | nan => simp [numberText, hx, number?, signed?, ← eq_of_ofFloat_nan hx]
  | infinity negative =>
    have hname := (eq_of_ofFloat_infinity hx).symm
    cases negative <;> simp only [Bool.false_eq_true, if_false, if_true] at hname <;>
      simp [numberText, hx, number?, signed?, hname]
  | finite negative m e =>
    obtain ⟨whole, fraction, htext, hpointed, hvalue⟩ := toFloat_text hx
    have htail := numberTail?_fraction reads_digits? hpointed.fraction_ne_nil
      hpointed.isDigit_fraction hrest
    have hfirst : Stops inDigits ('.' :: (fraction ++ rest)) := stops_cons.mpr rfl
    have hbase : Stops (fun c => c ∈ ['x', 'o', 'b']) ('.' :: (fraction ++ rest)) :=
      stops_cons.mpr rfl
    rw [htext, List.append_assoc, List.append_assoc, List.cons_append,
      number?_append hpointed.toWhole hbase, decimal?_append hpointed.toWhole negative hfirst htail]
    simp only [NumberTail.isWhole, NumberTail.literal, Option.isNone_some, Bool.false_and,
      Bool.false_eq_true, if_false, Option.getD_some, Option.getD_none, hvalue,
      (of_ofFloat hx).1, true_or, if_true]

/-- Whole numbers of 63 bits are read as they were written. -/
theorem number?_toString {n : Nat} (hn : n < UInt64.size / 2) (hrest : Stops inNumber rest) :
    number? ((toString n).toList ++ rest) = some (.integer false (UInt64.ofNat n), rest) := by
  have hbase : Stops (fun c => c ∈ ['x', 'o', 'b']) rest := by
    intro c hc
    have := hrest c hc
    simp_all [inNumber]
  have hwhole := whole_toDigits n
  have h := number?_append hwhole hbase false
  rw [decimal?_append hwhole false hrest.inDigits (numberTail?_of_stops hrest)] at h
  rw [toList_toString]
  refine h.trans ?_
  simp [NumberTail.isWhole, integer?, hn]

end Toolpath.Toml
