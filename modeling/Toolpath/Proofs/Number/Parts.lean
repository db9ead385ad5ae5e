import Mathlib.Tactic
import Toolpath.Number.Parts
import Toolpath.Json.Reader
import Toolpath.Toml.Number

/-! # Where the parts of a number end

Both formats read a run of digits to its end. Behind a number stands something that belongs to none
of its parts, and then each part is read as it was written.
-/
namespace Toolpath

def Stops (kind : Char → Bool) (text : List Char) : Prop := ∀ c ∈ text.head?, kind c = false

theorem stops_cons {kind : Char → Bool} {c : Char} {text : List Char} :
    Stops kind (c :: text) ↔ kind c = false := by simp [Stops]

section Runs
variable {kind : Char → Bool} {run rest : List Char}

theorem takeWhile_run (hrun : ∀ c ∈ run, kind c = true) (hrest : Stops kind rest) :
    (run ++ rest).takeWhile kind = run := by
  rw [List.takeWhile_append_of_pos hrun]
  cases rest with
  | nil => simp
  | cons c rest => simp [hrest c (by simp)]

theorem dropWhile_run (hrun : ∀ c ∈ run, kind c = true) (hrest : Stops kind rest) :
    (run ++ rest).dropWhile kind = rest := by
  rw [List.dropWhile_append_of_pos hrun]
  cases rest with
  | nil => simp
  | cons c rest => simp [hrest c (by simp)]

theorem dropWhile_of_stops (h : Stops kind rest) : rest.dropWhile kind = rest :=
  dropWhile_run (List.forall_mem_nil _) h

end Runs

def inDigits (c : Char) : Bool := c.isDigit || c = '_'

def inNumber (c : Char) : Bool := inDigits c || c ∈ ['.', 'e', 'E', 'x', 'o', 'b']

theorem Stops.inDigits {text : List Char} (h : Stops inNumber text) : Stops inDigits text := by
  intro c hc
  have := h c hc
  simp_all [inNumber]

theorem Stops.isDigit {text : List Char} (h : Stops Toolpath.inDigits text) :
    Stops Char.isDigit text := by
  intro c hc
  have := h c hc
  simp_all [Toolpath.inDigits]

def DigitReader.Reads (digits? : DigitReader) : Prop :=
  ∀ {ds rest : List Char}, ds ≠ [] → (∀ c ∈ ds, c.isDigit = true) → Stops inDigits rest →
    digits? (ds ++ rest) = some (ds, rest)

theorem Json.reads_digits? : DigitReader.Reads Json.digits? := by
  intro ds rest hne hdigits hrest
  unfold Json.digits?
  rw [takeWhile_run hdigits hrest.isDigit, dropWhile_run hdigits hrest.isDigit]
  cases ds with
  | nil => exact absurd rfl hne
  | cons d ds => rfl

namespace Toml

theorem digitTail_append {ds rest : List Char} (hdigits : ∀ c ∈ ds, c.isDigit = true)
    (hrest : Stops inDigits rest) : digitTail Char.isDigit (ds ++ rest) = (ds, rest) := by
  induction ds with
  | nil =>
    cases rest with
    | nil => rfl
    | cons c rest =>
      have hc := hrest c (by simp)
      simp only [inDigits, Bool.or_eq_false_iff, decide_eq_false_iff_not] at hc
      rw [List.nil_append, digitTail]
      · simp [hc.1]
      · simp [hc.2]
  | cons d ds ih =>
    have hd := hdigits d (by simp)
    rw [List.cons_append, digitTail]
    · rw [if_pos hd, ih fun c hc => hdigits c (by simp [hc])]
      rfl
    · -- an underscore is no digit
      rintro _ _ rfl
      exact absurd hd (by decide)

theorem reads_digits? : DigitReader.Reads (digits? Char.isDigit) := by
  intro ds rest hne hdigits hrest
  cases ds with
  | nil => exact absurd rfl hne
  | cons d ds =>
    rw [List.cons_append, digits?, if_pos (hdigits d (by simp)),
      digitTail_append (fun c hc => hdigits c (by simp [hc])) hrest]
    rfl

end Toml

section Tails
variable {digits? : DigitReader} {rest : List Char}

theorem fraction?_of_stops (h : Stops (· = '.') rest) :
    fraction? digits? rest = some (none, rest) := by
  unfold fraction?
  split
  · have := h '.' (by simp)
    simp at this
  · rfl

theorem exponent?_of_stops (h : Stops inNumber rest) :
    exponent? digits? rest = some (none, rest) := by
  unfold exponent?
  split
  · exact absurd (h 'e' (by simp)) (by decide)
  · exact absurd (h 'E' (by simp)) (by decide)
  · rfl

/-- Whole digits by themselves have no tail. -/
theorem numberTail?_of_stops (h : Stops inNumber rest) :
    numberTail? digits? rest = some ({}, rest) := by
  have hpoint : Stops (· = '.') rest := by
    intro c hc
    have := h c hc
    simp_all [inNumber]
  simp [numberTail?, fraction?_of_stops hpoint, exponent?_of_stops h]

theorem fraction?_point (hreads : digits?.Reads) {fraction : List Char} (hne : fraction ≠ [])
    (hdigits : ∀ c ∈ fraction, c.isDigit = true) (h : Stops inDigits rest) :
    fraction? digits? ('.' :: (fraction ++ rest)) = some (some fraction, rest) := by
  simp [fraction?, hreads hne hdigits h]

theorem numberTail?_fraction (hreads : digits?.Reads) {fraction : List Char} (hne : fraction ≠ [])
    (hdigits : ∀ c ∈ fraction, c.isDigit = true) (h : Stops inNumber rest) :
    numberTail? digits? ('.' :: (fraction ++ rest)) = some (⟨some fraction, none⟩, rest) := by
  simp [numberTail?, fraction?_point hreads hne hdigits h.inDigits, exponent?_of_stops h]

/-- An exponent whose sign is shown. -/
theorem exponent?_signed (hreads : digits?.Reads) (negative : Bool) {power : List Char}
    (hne : power ≠ []) (hdigits : ∀ c ∈ power, c.isDigit = true) (h : Stops inDigits rest) :
    exponent? digits? ('e' :: (if negative then '-' else '+') :: (power ++ rest)) =
      some (some (if negative then -(Literal.digitsValue power : Int)
        else Literal.digitsValue power), rest) := by
  cases negative <;> simp [exponent?, power?, hreads hne hdigits h]

/-- An exponent, with or without a fraction before it. -/
theorem numberTail?_exponent (hreads : digits?.Reads) (negative : Bool)
    {fraction power : List Char} (hfraction : ∀ c ∈ fraction, c.isDigit = true) (hne : power ≠ [])
    (hpower : ∀ c ∈ power, c.isDigit = true) (h : Stops inDigits rest) :
    numberTail? digits? ((if fraction.isEmpty then [] else '.' :: fraction) ++
        'e' :: (if negative then '-' else '+') :: (power ++ rest)) =
      some (⟨if fraction.isEmpty then none else some fraction,
        some (if negative then -(Literal.digitsValue power : Int)
          else Literal.digitsValue power)⟩, rest) := by
  have hexponent := exponent?_signed hreads negative hne hpower h
  cases fraction with
  | nil =>
    have hfirst : Stops (· = '.')
        ('e' :: (if negative then '-' else '+') :: (power ++ rest)) := stops_cons.mpr rfl
    simp [numberTail?, fraction?_of_stops hfirst, hexponent]
  | cons d ds =>
    have hfirst : Stops inDigits
        ('e' :: (if negative then '-' else '+') :: (power ++ rest)) := stops_cons.mpr rfl
    have hpoint := fraction?_point hreads (by simp) hfraction hfirst
    simp only [List.isEmpty_cons, Bool.false_eq_true, if_false, List.cons_append] at hpoint ⊢
    simp [numberTail?, hpoint, hexponent]

end Tails
end Toolpath
