import Toolpath.Proofs.Cleaner.Comments

/-! # What the pipeline leaves of a line

The standard pipeline leaves a text without blanks at its ends and without comments, made of the
upper case of the line and of spaces. Where it drops a line nothing would be left of it.
-/
namespace Toolpath
open Cleaner

theorem stripLineNumber_spec (text : List Char) : stripLineNumber text = text ∨
    ∃ c digits blanks, (c = 'N' ∨ c = 'n') ∧ (∀ d ∈ digits, isDecimal d = true) ∧ AllBlank blanks ∧
      text = c :: (digits ++ (blanks ++ stripLineNumber text)) := by
  unfold stripLineNumber
  split
  next c rest =>
    split
    next h =>
      right
      refine ⟨c, rest.takeWhile isDecimal, (rest.dropWhile isDecimal).takeWhile isBlank,
        by simpa using (Bool.and_eq_true_iff.mp h).1, ?_, ?_, ?_⟩
      · intro d hd
        exact List.mem_takeWhile_imp hd
      · intro d hd
        exact List.mem_takeWhile_imp hd
      · rw [List.takeWhile_append_dropWhile, List.takeWhile_append_dropWhile]
    next => exact .inl rfl
  next => exact .inl rfl

theorem mem_of_mem_stripLineNumber {text : List Char} {c : Char}
    (h : c ∈ stripLineNumber text) : c ∈ text := by
  rcases stripLineNumber_spec text with hkept | ⟨d, digits, blanks, -, -, -, htext⟩
  · rwa [hkept] at h
  · rw [htext]
    exact List.mem_cons_of_mem _ (List.mem_append_right _ (List.mem_append_right _ h))

/-- The line as the standard pipeline leaves it, empty if it is dropped. -/
def cleaned (line : List Char) : List Char := (Pipeline.standard.run line).getD []

theorem standard_run (line : List Char) : Pipeline.standard.run line =
    (trim? line).bind fun text => (trim? (stripLineNumber (upper text))).bind fun text =>
      trim? (outsideComments 0 text) := by
  change ((trim? line).bind fun text => (trim? (stripLineNumber (upper text))).bind
    fun text => (trim? (outsideComments 0 text)).bind some) = _
  simp only [Option.bind_fun_some]

theorem cleaned_eq (line : List Char) : cleaned line =
    trim (outsideComments 0 (trim (stripLineNumber (upper (trim line))))) := by
  unfold cleaned
  rw [standard_run, getD_bind_trim? _ rfl, getD_bind_trim? _ rfl, trim?_getD]

/-- A cleaned line has no characters but those of its upper case, and spaces. -/
theorem mem_cleaned {line : List Char} {c : Char} (h : c ∈ cleaned line) :
    c = ' ' ∨ c ∈ upper line := by
  rw [cleaned_eq] at h
  refine (mem_outsideComments c (mem_of_mem_trim h)).2.imp_right fun hc => ?_
  have hupper : c ∈ upper (trim line) := mem_of_mem_stripLineNumber (mem_of_mem_trim hc)
  obtain ⟨d, hd, hraised⟩ := List.mem_flatMap.mp hupper
  exact List.mem_flatMap.mpr ⟨d, mem_of_mem_trim hd, hraised⟩

theorem feed_not_mem_cleaned {line : List Char} (h : '\n' ∉ line) : '\n' ∉ cleaned line := by
  intro hc
  rcases mem_cleaned hc with hspace | hupper
  · contradiction
  · obtain ⟨c, hline, hfeed⟩ := List.mem_flatMap.mp hupper
    rcases (mem_upperOf hfeed).2 with rfl | hletter
    · exact h hline
    · contradiction

structure IsClean (text : List Char) : Prop where
  ne_nil : text ≠ []
  head : ∀ c ∈ text.head?, isBlank c = false
  last : ∀ c ∈ text.getLast?, isBlank c = false
  no_group : '(' ∉ text
  no_remark : ';' ∉ text

theorem isClean_of_run {line text : List Char} (h : Pipeline.standard.run line = some text) :
    IsClean text := by
  rw [standard_run] at h
  obtain ⟨trimmed, -, h⟩ := Option.bind_eq_some_iff.mp h
  obtain ⟨unnumbered, -, h⟩ := Option.bind_eq_some_iff.mp h
  obtain ⟨rfl, hne⟩ := (trim?_eq_some _).mp h
  exact
    { ne_nil := hne
      head := fun c hc => not_isBlank_of_head?_trim _ hc
      last := fun c hc => not_isBlank_of_getLast?_trim _ hc
      no_group := fun hc => (mem_outsideComments _ (mem_of_mem_trim hc)).1.1 rfl
      no_remark := fun hc => (mem_outsideComments _ (mem_of_mem_trim hc)).1.2 rfl }

end Toolpath
