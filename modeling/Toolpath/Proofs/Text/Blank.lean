import Mathlib.Data.List.DropRight
import Toolpath.Text.Blank
import Toolpath.Text.Digit

/-! # Blanks and digits

Trimming takes blanks from both ends and nothing else, and leaves none there. The blanks are few, so
what is said of each can be tried on all of them; a digit lies in one of the runs of ten.
-/
namespace Toolpath

def AllBlank (text : List Char) : Prop := ∀ c ∈ text, isBlank c = true

theorem allBlank_nil : AllBlank [] := List.forall_mem_nil _

def blankCodes : List Nat :=
  [0x9, 0xA, 0xB, 0xC, 0xD, 0x20, 0x85, 0xA0, 0x1680, 0x2000, 0x2001, 0x2002, 0x2003, 0x2004,
   0x2005, 0x2006, 0x2007, 0x2008, 0x2009, 0x200A, 0x2028, 0x2029, 0x202F, 0x205F, 0x3000]

theorem toNat_mem_blankCodes {c : Char} (h : isBlank c = true) : c.toNat ∈ blankCodes := by
  simp only [isBlank, Bool.or_eq_true, Bool.and_eq_true, decide_eq_true_eq, beq_iff_eq] at h
  simp only [blankCodes, List.mem_cons, List.not_mem_nil, or_false]
  omega

/-- What holds of the blanks one by one holds of every blank. -/
theorem forall_isBlank {P : Char → Prop} (h : ∀ n ∈ blankCodes, P (Char.ofNat n)) {c : Char}
    (hc : isBlank c = true) : P c := by
  have hn := h _ (toNat_mem_blankCodes hc)
  rwa [Char.ofNat_toNat] at hn

/-- A decimal digit is one of the ten from a zero on. -/
theorem exists_zero_of_isDecimal {c : Char} (h : isDecimal c = true) :
    ∃ z ∈ digitZeros, z ≤ c.toNat ∧ c.toNat < z + 10 := by
  rcases Bool.or_eq_true_iff.mp h with hdigit | hdecimal
  · simp only [Char.isDigit, Bool.and_eq_true, decide_eq_true_eq, ge_iff_le,
      UInt32.le_iff_toNat_le] at hdigit
    have h0 : 0x30 ≤ c.toNat := hdigit.1
    have h9 : c.toNat ≤ 0x39 := hdigit.2
    exact ⟨0x30, by decide, h0, by omega⟩
  · obtain ⟨z, hz, hbounds⟩ := List.any_eq_true.mp hdecimal
    simp only [Bool.and_eq_true, decide_eq_true_eq] at hbounds
    exact ⟨z, hz, hbounds⟩

def digitCodes : List Nat := digitZeros.flatMap fun z => (List.range 10).map (z + ·)

theorem toNat_mem_digitCodes {c : Char} (h : isDecimal c = true) : c.toNat ∈ digitCodes := by
  obtain ⟨z, hz, hlow, hhigh⟩ := exists_zero_of_isDecimal h
  refine List.mem_flatMap.mpr ⟨z, hz, List.mem_map.mpr ⟨c.toNat - z, ?_, ?_⟩⟩
  · exact List.mem_range.mpr (by omega)
  · exact Nat.add_sub_cancel' hlow

/-- Beyond the ASCII digits all are far above the ASCII characters. -/
theorem toNat_of_isDecimal {c : Char} (h : isDecimal c = true) :
    0x30 ≤ c.toNat ∧ (c.toNat ≤ 0x39 ∨ 0x660 ≤ c.toNat) := by
  obtain ⟨z, hz, hlow, hhigh⟩ := exists_zero_of_isDecimal h
  have hall : ∀ z ∈ digitZeros, z = 0x30 ∨ 0x660 ≤ z := by decide
  rcases hall z hz with rfl | hz <;> omega

section
variable (text : List Char)

theorem trim_eq : trim text = (text.dropWhile isBlank).rdropWhile isBlank := rfl

theorem trim_spec : ∃ before behind, AllBlank before ∧ AllBlank behind ∧
    text = before ++ trim text ++ behind := by
  refine ⟨text.takeWhile isBlank, (text.dropWhile isBlank).rtakeWhile isBlank, ?_, ?_, ?_⟩
  · intro c hc
    exact List.mem_takeWhile_imp hc
  · intro c hc
    exact List.mem_rtakeWhile_imp hc
  · rw [trim_eq, List.append_assoc, List.rdropWhile_append_rtakeWhile,
      List.takeWhile_append_dropWhile]

theorem mem_of_mem_trim {text : List Char} {c : Char} (h : c ∈ trim text) : c ∈ text := by
  obtain ⟨before, behind, -, -, htext⟩ := trim_spec text
  rw [htext]
  exact List.mem_append_left _ (List.mem_append_right _ h)

theorem not_isBlank_of_getLast?_trim {c : Char} (h : (trim text).getLast? = some c) :
    isBlank c = false := by
  have hnot := List.head?_dropWhile_not isBlank (text.dropWhile isBlank).reverse
  unfold trim at h
  rw [List.getLast?_reverse] at h
  rwa [h] at hnot

/-- The first character is no blank either, for it is none before the end is trimmed. -/
theorem not_isBlank_of_head?_trim {c : Char} (h : (trim text).head? = some c) :
    isBlank c = false := by
  have hnot := List.head?_dropWhile_not isBlank text
  have hhead : (text.dropWhile isBlank).head? = some c := by
    rw [← List.rdropWhile_append_rtakeWhile (p := isBlank) (l := text.dropWhile isBlank), ← trim_eq,
      List.head?_append, h]
    rfl
  rwa [hhead] at hnot

theorem trim?_getD : (trim? text).getD [] = trim text := by
  unfold trim?
  cases trim text <;> rfl

/-- A blank text may be passed on as well as dropped, if nothing is made of the empty text. -/
theorem getD_bind_trim? {f : List Char → Option (List Char)} (h : (f []).getD [] = []) :
    ((trim? text).bind f).getD [] = (f (trim text)).getD [] := by
  unfold trim?
  cases trim text with
  | nil => exact h.symm
  | cons c rest => rfl

theorem trim?_eq_some {t : List Char} : trim? text = some t ↔ t = trim text ∧ t ≠ [] := by
  unfold trim?
  cases trim text with
  | nil => simp
  | cons c rest =>
    rw [Option.some_inj]
    constructor
    · rintro rfl
      simp
    · rintro ⟨rfl, -⟩
      rfl

theorem trim_eq_nil_iff : trim text = [] ↔ AllBlank text := by
  constructor
  · intro h
    obtain ⟨before, behind, hbefore, hbehind, htext⟩ := trim_spec text
    rw [h, List.append_nil] at htext
    rw [htext]
    exact List.forall_mem_append.mpr ⟨hbefore, hbehind⟩
  · intro h
    have hdrop : text.dropWhile isBlank = [] := List.dropWhile_eq_nil_iff.mpr h
    simp [trim, hdrop]

theorem trim?_eq_none_iff : trim? text = none ↔ AllBlank text := by
  rw [← trim_eq_nil_iff]
  unfold trim?
  cases trim text <;> simp

end

/-- The text between the outermost blanks of another one that is not blank. -/
structure Trimmed (text result : List Char) : Prop where
  ne_nil : result ≠ []
  padded : ∃ before behind, AllBlank before ∧ AllBlank behind ∧ text = before ++ result ++ behind
  head : ∀ c ∈ result.head?, isBlank c = false
  last : ∀ c ∈ result.getLast?, isBlank c = false

section
variable {text result : List Char}

theorem dropWhile_isBlank {before : List Char} (hbefore : AllBlank before) (hne : result ≠ [])
    (hhead : ∀ c ∈ result.head?, isBlank c = false) (behind : List Char) :
    (before ++ result ++ behind).dropWhile isBlank = result ++ behind := by
  obtain ⟨c, rest, rfl⟩ := List.exists_cons_of_ne_nil hne
  rw [List.append_assoc, List.dropWhile_append_of_pos hbefore]
  simp [hhead c rfl]

theorem trim?_eq_some_iff_trimmed : trim? text = some result ↔ Trimmed text result := by
  rw [trim?_eq_some]
  constructor
  · rintro ⟨rfl, hne⟩
    exact ⟨hne, trim_spec text, fun c => not_isBlank_of_head?_trim text,
      fun c => not_isBlank_of_getLast?_trim text⟩
  · rintro ⟨hne, ⟨before, behind, hbefore, hbehind, rfl⟩, hhead, hlast⟩
    refine ⟨?_, hne⟩
    -- Read from its end, the text begins with the blanks behind.
    have hback : AllBlank behind.reverse := fun c hc => hbehind c (List.mem_reverse.mp hc)
    have hdrop := dropWhile_isBlank hback (List.reverse_ne_nil_iff.mpr hne) (by simpa using hlast) []
    rw [List.append_nil, List.append_nil] at hdrop
    rw [trim, dropWhile_isBlank hbefore hne hhead, List.reverse_append, hdrop, List.reverse_reverse]

end
end Toolpath
