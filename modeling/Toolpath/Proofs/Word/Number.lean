import Toolpath.Proofs.Word.Split

/-! # Number texts

`NumberText` is the grammar of the numbers that a word can have: a sign that may be missing, and then
digits that a point and more digits may follow, or a point and at least one digit. What stands behind
an address is split where the longest number at its head ends.
-/
namespace Toolpath

def AllDecimal (text : List Char) : Prop := ∀ c ∈ text, isDecimal c = true

inductive UnsignedText : List Char → Prop where
  | whole {digits : List Char} (ne_nil : digits ≠ []) (decimal : AllDecimal digits) :
      UnsignedText digits
  | pointed {digits fraction : List Char} (ne_nil : digits ≠ []) (decimal : AllDecimal digits)
      (fraction_decimal : AllDecimal fraction) : UnsignedText (digits ++ '.' :: fraction)
  | fraction {fraction : List Char} (ne_nil : fraction ≠ []) (decimal : AllDecimal fraction) :
      UnsignedText ('.' :: fraction)

inductive NumberText : List Char → Prop where
  | unsigned {text : List Char} (number : UnsignedText text) : NumberText text
  | signed {sign : Char} {text : List Char} (sign_eq : sign = '+' ∨ sign = '-')
      (number : UnsignedText text) : NumberText (sign :: text)

/-- The longest of the numbers at the head of a text, or nothing if there is none. -/
inductive IsLongestNumber (text : List Char) : List Char → Prop where
  | number {value : List Char} (head : value <+: text) (number : NumberText value)
      (longest : ∀ other, other <+: text → NumberText other → other.length ≤ value.length) :
      IsLongestNumber text value
  | nothing (none : ∀ other, other <+: text → ¬ NumberText other) : IsLongestNumber text []

theorem inValue_point : inValue '.' = true := rfl

theorem isDecimal_point : isDecimal '.' = false := by decide

theorem AllDecimal.inValue {text : List Char} (h : AllDecimal text) :
    ∀ c ∈ text, inValue c = true := by
  intro c hc
  simp [Toolpath.inValue, h c hc]

theorem allDecimal_takeWhile (text : List Char) : AllDecimal (text.takeWhile isDecimal) :=
  fun _ => List.mem_takeWhile_imp

theorem isAddress_of_inValue {c : Char} (h : inValue c = true) : isAddress c = false := by
  simp only [inValue, Bool.or_eq_true, decide_eq_true_eq] at h
  rcases h with ((h | rfl) | rfl) | rfl
  · exact isAddress_of_isDecimal h
  all_goals rfl

namespace UnsignedText
variable {text : List Char}

theorem inValue (h : UnsignedText text) : ∀ c ∈ text, inValue c = true := by
  cases h with
  | whole _ decimal => exact decimal.inValue
  | pointed _ decimal fraction_decimal =>
    rw [List.forall_mem_append, List.forall_mem_cons]
    exact ⟨decimal.inValue, inValue_point, fraction_decimal.inValue⟩
  | fraction _ decimal =>
    rw [List.forall_mem_cons]
    exact ⟨inValue_point, decimal.inValue⟩

/-- It begins with a digit or a point, so it has no sign. -/
theorem exists_cons (h : UnsignedText text) :
    ∃ c rest, text = c :: rest ∧ c ≠ '+' ∧ c ≠ '-' := by
  have hdigit {c : Char} (hc : isDecimal c = true) : c ≠ '+' ∧ c ≠ '-' := by
    constructor <;> rintro rfl <;> exact absurd hc (by decide)
  cases h with
  | whole ne_nil decimal =>
    obtain ⟨c, rest, rfl⟩ := List.exists_cons_of_ne_nil ne_nil
    exact ⟨c, rest, rfl, hdigit (decimal c List.mem_cons_self)⟩
  | pointed ne_nil decimal =>
    obtain ⟨c, rest, rfl⟩ := List.exists_cons_of_ne_nil ne_nil
    exact ⟨c, _, rfl, hdigit (decimal c List.mem_cons_self)⟩
  | fraction => exact ⟨'.', _, rfl, by decide, by decide⟩

/-- A number at the head of a text is read, though more may be read than it alone. -/
theorem reads (h : UnsignedText text) (behind : List Char) :
    ∃ more rest, unsignedNumber? (text ++ behind) = some (text ++ more, rest) := by
  have hpoint (rest : List Char) : Stops isDecimal ('.' :: rest) := stops_cons.mpr isDecimal_point
  unfold unsignedNumber?
  cases h with
  | whole ne_nil decimal =>
    rw [List.takeWhile_append_of_pos decimal, List.dropWhile_append_of_pos decimal]
    obtain ⟨d, digits, rfl⟩ := List.exists_cons_of_ne_nil ne_nil
    dsimp only [List.cons_append]
    -- The digits may go on behind the number, and a point may follow them there.
    split
    · contradiction
    · contradiction
    · next rest _ _ =>
      exact ⟨behind.takeWhile isDecimal ++ '.' :: rest.takeWhile isDecimal, _, by simp; rfl⟩
    · exact ⟨_, _, rfl⟩
  | @pointed digits fraction ne_nil decimal fraction_decimal =>
    have htext : digits ++ '.' :: fraction ++ behind = digits ++ '.' :: (fraction ++ behind) := by
      simp
    rw [htext, takeWhile_run decimal (hpoint _), dropWhile_run decimal (hpoint _)]
    obtain ⟨d, digits, rfl⟩ := List.exists_cons_of_ne_nil ne_nil
    refine ⟨behind.takeWhile isDecimal, behind.dropWhile isDecimal, ?_⟩
    simp [List.takeWhile_append_of_pos fraction_decimal,
      List.dropWhile_append_of_pos fraction_decimal]
  | @fraction fraction ne_nil decimal =>
    rw [List.cons_append, List.takeWhile_cons_of_neg (by simp [isDecimal_point]),
      List.dropWhile_cons_of_neg (by simp [isDecimal_point])]
    simp only [List.takeWhile_append_of_pos decimal, List.dropWhile_append_of_pos decimal]
    obtain ⟨d, digits, rfl⟩ := List.exists_cons_of_ne_nil ne_nil
    exact ⟨behind.takeWhile isDecimal, behind.dropWhile isDecimal, rfl⟩

end UnsignedText

/-- What is read is a number, and the rest is what stands behind it. -/
theorem unsignedText_of_some {text number rest : List Char}
    (h : unsignedNumber? text = some (number, rest)) : UnsignedText number ∧ number ++ rest = text := by
  have hwhole := allDecimal_takeWhile text
  have htext : text.takeWhile isDecimal ++ text.dropWhile isDecimal = text :=
    List.takeWhile_append_dropWhile
  unfold unsignedNumber? at h
  dsimp only at h
  generalize text.takeWhile isDecimal = whole at h hwhole htext
  generalize text.dropWhile isDecimal = behind at h htext
  rw [← htext]
  split at h
  · next behind =>
    split at h
    · cases h
    · next ne_nil =>
      cases h
      refine ⟨.fraction ne_nil (allDecimal_takeWhile behind), ?_⟩
      rw [List.cons_append, List.takeWhile_append_dropWhile, List.nil_append]
  · cases h
  · next behind ne_nil =>
    cases h
    refine ⟨.pointed ne_nil hwhole (allDecimal_takeWhile behind), ?_⟩
    rw [List.append_assoc, List.cons_append, List.takeWhile_append_dropWhile]
  · next ne_nil _ _ =>
    cases h
    exact ⟨.whole ne_nil hwhole, rfl⟩

namespace NumberText
variable {text : List Char}

theorem inValue (h : NumberText text) : ∀ c ∈ text, inValue c = true := by
  cases h with
  | unsigned number => exact number.inValue
  | signed sign_eq number =>
    rw [List.forall_mem_cons]
    refine ⟨?_, number.inValue⟩
    rcases sign_eq with rfl | rfl <;> rfl

theorem ne_nil (h : NumberText text) : text ≠ [] := by
  cases h with
  | unsigned number =>
    obtain ⟨c, rest, rfl, -⟩ := number.exists_cons
    exact List.cons_ne_nil c rest
  | signed => exact List.cons_ne_nil _ _

theorem reads (h : NumberText text) (behind : List Char) :
    ∃ more rest, splitNumber (text ++ behind) = (text ++ more, rest) := by
  cases h with
  | unsigned number =>
    obtain ⟨more, rest, hread⟩ := number.reads behind
    obtain ⟨c, text, rfl, hplus, hminus⟩ := number.exists_cons
    rw [List.cons_append] at hread
    rw [List.cons_append, splitNumber_cons hplus hminus, hread]
    exact ⟨more, rest, rfl⟩
  | signed sign_eq number =>
    obtain ⟨more, rest, hread⟩ := number.reads behind
    refine ⟨more, rest, ?_⟩
    rcases sign_eq with rfl | rfl <;> simp [splitNumber, hread]

end NumberText

section
variable (text : List Char)

/-- A text is split into a number, if it begins with one, and the rest. -/
theorem splitNumber_spec : (splitNumber text).1 ++ (splitNumber text).2 = text ∧
    ((splitNumber text).1 = [] ∨ NumberText (splitNumber text).1) := by
  have hsigned {sign : Char} (hsign : sign = '+' ∨ sign = '-') (rest : List Char) :
      splitNumber (sign :: rest) = ((unsignedNumber? rest).map fun number =>
        (sign :: number.1, number.2)).getD ([], sign :: rest) := by
    rcases hsign with rfl | rfl <;> rfl
  cases text with
  | nil => exact ⟨rfl, .inl rfl⟩
  | cons c rest =>
    by_cases hsign : c = '+' ∨ c = '-'
    · rw [hsigned hsign]
      cases hread : unsignedNumber? rest with
      | none => exact ⟨rfl, .inl rfl⟩
      | some parts =>
        obtain ⟨hnumber, hrest⟩ := unsignedText_of_some hread
        exact ⟨congrArg (c :: ·) hrest, .inr (.signed hsign hnumber)⟩
    · rw [not_or] at hsign
      rw [splitNumber_cons hsign.1 hsign.2]
      cases hread : unsignedNumber? (c :: rest) with
      | none => exact ⟨rfl, .inl rfl⟩
      | some parts =>
        obtain ⟨hnumber, hrest⟩ := unsignedText_of_some hread
        exact ⟨hrest, .inr (.unsigned hnumber)⟩

theorem isLongestNumber_splitNumber : IsLongestNumber text (splitNumber text).1 := by
  have hlongest : ∀ other, other <+: text → NumberText other →
      other.length ≤ (splitNumber text).1.length := by
    rintro other ⟨behind, rfl⟩ hother
    obtain ⟨more, rest, hread⟩ := hother.reads behind
    simp [hread]
  obtain ⟨htext, hnil | hnumber⟩ := splitNumber_spec text
  · rw [hnil] at hlongest ⊢
    refine .nothing fun other hother hnumber => hnumber.ne_nil ?_
    exact List.eq_nil_of_length_eq_zero (Nat.le_zero.mp (hlongest other hother hnumber))
  · exact .number ⟨_, htext⟩ hnumber hlongest

/-- A number alone is split off as a whole. -/
theorem splitNumber_numberText {text : List Char} (h : NumberText text) :
    splitNumber text = (text, []) := by
  obtain ⟨more, rest, hread⟩ := h.reads []
  have htext := (splitNumber_spec text).1
  rw [List.append_nil] at hread
  rw [hread, List.append_assoc, List.append_right_eq_self, List.append_eq_nil_iff] at htext
  obtain ⟨rfl, hrest⟩ := htext
  rw [hread, List.append_nil, ← hrest]

end

theorem numberText_iff {text : List Char} :
    NumberText text ↔ text ≠ [] ∧ splitNumber text = (text, []) := by
  constructor
  · intro h
    exact ⟨h.ne_nil, splitNumber_numberText h⟩
  · rintro ⟨hne, hsplit⟩
    have h := (splitNumber_spec text).2
    rw [hsplit] at h
    exact h.resolve_left hne

instance : DecidablePred NumberText := fun _ => decidable_of_iff _ numberText_iff.symm

theorem IsLongestNumber.unique {text value other : List Char} (h : IsLongestNumber text value)
    (h' : IsLongestNumber text other) : value = other := by
  cases h with
  | number head number longest =>
    cases h' with
    | number head' number' longest' =>
      have hlength := Nat.le_antisymm (longest' _ head number) (longest _ head' number')
      exact List.IsPrefix.eq_of_length (List.prefix_of_prefix_length_le head head' hlength.le) hlength
    | nothing none => exact absurd number (none _ head)
  | nothing none =>
    cases h' with
    | number head' number' => exact absurd number' (none _ head')
    | nothing => rfl

end Toolpath
