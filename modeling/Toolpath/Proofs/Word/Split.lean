import Toolpath.Proofs.Number.Parts
import Toolpath.Proofs.Text.Blank
import Toolpath.Word

/-! # Where words end

A word ends where a character follows that cannot stand in a number, so a line can be cut in front
of such a character without a change to its words. What addresses no word is passed over.
-/
namespace Toolpath

def inValue (c : Char) : Bool := isDecimal c || c = '.' || c = '+' || c = '-'

theorem inValue_of_isBlank {c : Char} (h : isBlank c = true) : inValue c = false :=
  forall_isBlank (P := fun c => inValue c = false) (by decide) h

theorem isAddress_of_isBlank {c : Char} (h : isBlank c = true) : isAddress c = false :=
  forall_isBlank (P := fun c => isAddress c = false) (by decide) h

theorem isAddress_of_isDecimal {c : Char} (h : isDecimal c = true) : isAddress c = false := by
  have hc := (toNat_of_isDecimal h).2
  simp only [isAddress, Bool.and_eq_false_iff, decide_eq_false_iff_not, Char.le_def,
    UInt32.le_iff_toNat_le]
  have hA : 'A'.val.toNat = 0x41 := rfl
  have hZ : 'Z'.val.toNat = 0x5A := rfl
  have hval : c.val.toNat = c.toNat := rfl
  omega

theorem AllBlank.stops {text : List Char} (h : AllBlank text) : Stops inValue text := by
  intro c hc
  exact inValue_of_isBlank (h c (List.mem_of_mem_head? hc))

section
variable {kind : Char → Bool} {behind : List Char}

theorem takeWhile_append_stops (h : Stops kind behind) (text : List Char) :
    (text ++ behind).takeWhile kind = text.takeWhile kind ∧
    (text ++ behind).dropWhile kind = text.dropWhile kind ++ behind := by
  induction text with
  | nil => exact ⟨takeWhile_run (List.forall_mem_nil _) h, dropWhile_of_stops h⟩
  | cons c rest ih =>
    obtain ⟨htake, hdrop⟩ := ih
    by_cases hc : kind c = true
    · simp [hc, htake, hdrop]
    · simp [hc]

end

theorem splitNumber_cons {c : Char} (hplus : c ≠ '+') (hminus : c ≠ '-') (rest : List Char) :
    splitNumber (c :: rest) = (unsignedNumber? (c :: rest)).getD ([], c :: rest) := by
  unfold splitNumber
  split
  · next heq => exact absurd (List.cons.inj heq).1 hplus
  · next heq => exact absurd (List.cons.inj heq).1 hminus
  · rfl

section
variable {behind : List Char} (h : Stops inValue behind)
include h

theorem Stops.isDecimal : Stops Toolpath.isDecimal behind := by
  intro c hc
  have := h c hc
  simp_all [inValue]

theorem Stops.ne_cons {c : Char} (hc : inValue c = true) (rest : List Char) :
    behind ≠ c :: rest := by
  rintro rfl
  rw [stops_cons, hc] at h
  cases h

/-- What cannot stand in a number is left over by it. -/
theorem unsignedNumber?_append (text : List Char) : unsignedNumber? (text ++ behind) =
    (unsignedNumber? text).map fun number => (number.1, number.2 ++ behind) := by
  obtain ⟨hwhole, hrest⟩ := takeWhile_append_stops h.isDecimal text
  unfold unsignedNumber?
  rw [hwhole, hrest]
  generalize text.takeWhile Toolpath.isDecimal = whole
  generalize text.dropWhile Toolpath.isDecimal = rest
  cases rest with
  | nil =>
    have hpoint : ∀ fraction, behind ≠ '.' :: fraction := h.ne_cons rfl
    cases whole <;> simp
  | cons c rest =>
    obtain ⟨htake, hdrop⟩ := takeWhile_append_stops h.isDecimal rest
    by_cases hc : c = '.'
    · subst hc
      cases whole with
      | nil =>
        simp only [List.cons_append, htake, hdrop]
        cases rest.takeWhile Toolpath.isDecimal <;> rfl
      | cons d whole => simp only [List.cons_append, htake, hdrop, Option.map_some]
    · cases whole <;> simp [hc]

theorem splitNumber_append (text : List Char) : splitNumber (text ++ behind) =
    ((splitNumber text).1, (splitNumber text).2 ++ behind) := by
  cases text with
  | nil =>
    have hplus : ∀ rest, behind ≠ '+' :: rest := h.ne_cons rfl
    have hminus : ∀ rest, behind ≠ '-' :: rest := h.ne_cons rfl
    have hnone : unsignedNumber? behind = none := unsignedNumber?_append h []
    have hnil : unsignedNumber? [] = none := rfl
    simp [splitNumber, hnone, hnil]
  | cons c rest =>
    have hwhole := unsignedNumber?_append h (c :: rest)
    have hrest := unsignedNumber?_append h rest
    by_cases hp : c = '+'
    · subst hp
      simp only [List.cons_append, splitNumber, hrest]
      cases unsignedNumber? rest <;> rfl
    · by_cases hm : c = '-'
      · subst hm
        simp only [List.cons_append, splitNumber, hrest]
        cases unsignedNumber? rest <;> rfl
      · rw [splitNumber_cons hp hm, List.cons_append, splitNumber_cons hp hm, ← List.cons_append,
          hwhole]
        cases unsignedNumber? (c :: rest) <;> rfl

end

namespace Word

theorem split_append {behind : List Char} (h : Stops inValue behind) (text : List Char) :
    split (text ++ behind) = split text ++ split behind := by
  induction text with
  | nil => rfl
  | cons c rest ih =>
    rw [List.cons_append, split, split, ih, splitNumber_append h]
    split_ifs <;> rfl

/-- What holds no address is passed over. -/
theorem split_of_no_address {before : List Char} (h : ∀ c ∈ before, isAddress c = false)
    (rest : List Char) : split (before ++ rest) = split rest := by
  induction before with
  | nil => rfl
  | cons c before ih =>
    rw [List.forall_mem_cons] at h
    rw [List.cons_append, split, h.1, if_neg Bool.false_ne_true]
    exact ih h.2

end Word
end Toolpath
