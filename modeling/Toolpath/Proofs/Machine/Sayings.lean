import Toolpath.Proofs.Cleaner.Pipeline
import Toolpath.Proofs.Machine.Words
import Toolpath.Proofs.Word.Split

/-! # What a line says

A line says its words but for the line numbers, of which no block takes notice. What it says can be
read off what is outside of its comments in upper case: trimming takes off no words, and taking off
a line number no others.
-/
namespace Toolpath
open Cleaner

def spoken (text : List Char) : List Word := (Word.split text).filter fun w => w.letter != 'N'

def lineSays (line : List Char) : List Word := spoken (cleaned line)

theorem lineWords_eq (line : List Char) : lineWords line = Word.split (cleaned line) := by
  unfold lineWords cleaned
  cases Pipeline.standard.run line <;> rfl

theorem Block.scan_filter (m : Modal) (words : List Word) :
    scan m (words.filter fun w => w.letter != 'N') = scan m words := by
  -- Nothing is erased here, so the words to be left out must do nothing at all.
  have hread (b : Block) (w : Word) :
      id (b.read w) = if (w.letter == 'N') = true then id b else (id b).read w := by
    split
    next hw =>
      unfold read
      rw [beq_iff_eq.mp hw]
      rfl
    next => rfl
  exact (foldl_erase hread words _).symm

theorem Machine.step_spoken (E : Elementary Float) (s : Sampling Float) (m : Machine)
    (line : List Char) :
    m.step E s line = m.perform E s (Block.scan m.modal (lineSays line)) := by
  rw [step_words, lineWords_eq, lineSays, spoken, Block.scan_filter]

section
variable {before behind : List Char}

theorem spoken_padded (hbefore : AllBlank before) (hbehind : AllBlank behind) (text : List Char) :
    spoken (before ++ text ++ behind) = spoken text := by
  have hfront : ∀ c ∈ before, isAddress c = false := fun c hc => isAddress_of_isBlank (hbefore c hc)
  have hback : Word.split behind = [] := by
    have := Word.split_of_no_address (fun c hc => isAddress_of_isBlank (hbehind c hc)) []
    rwa [List.append_nil] at this
  unfold spoken
  rw [List.append_assoc, Word.split_of_no_address hfront, Word.split_append hbehind.stops, hback,
    List.append_nil]

theorem spoken_trim (text : List Char) : spoken (trim text) = spoken text := by
  obtain ⟨before, behind, hbefore, hbehind, htext⟩ := trim_spec text
  conv_rhs => rw [htext, spoken_padded hbefore hbehind]

/-- Blanks at the ends of a text tell nothing. -/
theorem spoken_outside_padded (hbefore : AllBlank before) (hbehind : AllBlank behind)
    (text : List Char) : spoken (outsideComments 0 (before ++ text ++ behind)) =
      spoken (outsideComments 0 text) := by
  obtain ⟨rest, hrest, houtside⟩ := outsideComments_padded hbefore hbehind text
  rw [houtside, spoken_padded hbefore hrest]

theorem spoken_outside_trim (text : List Char) :
    spoken (outsideComments 0 (trim text)) = spoken (outsideComments 0 text) := by
  obtain ⟨before, behind, hbefore, hbehind, htext⟩ := trim_spec text
  conv_rhs => rw [htext, spoken_outside_padded hbefore hbehind]

end

/-- A line number tells nothing, for its letter is passed over and its digits address no word. -/
theorem spoken_outside_numbered {c : Char} (hc : c = 'N' ∨ c = 'n') {digits blanks : List Char}
    (hdigits : ∀ d ∈ digits, isDecimal d = true) (hblanks : AllBlank blanks) (text : List Char) :
    spoken (outsideComments 0 (c :: (digits ++ (blanks ++ text)))) =
      spoken (outsideComments 0 text) := by
  have hmark : ∀ d ∈ c :: (digits ++ blanks), isMark d = false := by
    rw [List.forall_mem_cons, List.forall_mem_append]
    refine ⟨?_, fun d hd => isMark_of_isDecimal (hdigits d hd),
      fun d hd => isMark_of_isBlank (hblanks d hd)⟩
    rcases hc with rfl | rfl <;> rfl
  have haddress : ∀ d ∈ digits ++ blanks, isAddress d = false := by
    rw [List.forall_mem_append]
    exact ⟨fun d hd => isAddress_of_isDecimal (hdigits d hd),
      fun d hd => isAddress_of_isBlank (hblanks d hd)⟩
  have hplain := outsideComments_plain 0 hmark text
  rw [if_pos rfl, List.cons_append, List.cons_append, List.append_assoc,
    List.append_assoc] at hplain
  rw [hplain, ← List.append_assoc]
  generalize outsideComments 0 text = rest
  unfold spoken
  -- A capital letter makes a word, which is not counted; a small one makes none.
  rcases hc with rfl | rfl
  · rw [Word.split, if_pos (by decide), Word.split_of_no_address haddress]
    rfl
  · rw [Word.split, if_neg (by decide), Word.split_of_no_address haddress]

theorem spoken_outside_stripLineNumber (text : List Char) :
    spoken (outsideComments 0 (stripLineNumber text)) =
      spoken (outsideComments 0 text) := by
  rcases stripLineNumber_spec text with h | ⟨c, digits, blanks, hc, hdigits, hblanks, htext⟩
  · rw [h]
  · conv_rhs => rw [htext, spoken_outside_numbered hc hdigits hblanks]

section
variable (line : List Char)

/-- What a line says is outside of its comments in upper case. -/
theorem lineSays_eq : lineSays line = spoken (outsideComments 0 (upper line)) := by
  have htrim : spoken (outsideComments 0 (upper (trim line))) =
      spoken (outsideComments 0 (upper line)) := by
    obtain ⟨before, behind, hbefore, hbehind, htext⟩ := trim_spec line
    conv_rhs => rw [htext, upper_append, upper_append, hbefore.upper, hbehind.upper,
      spoken_outside_padded hbefore hbehind]
  calc lineSays line
    _ = spoken (outsideComments 0 (trim (stripLineNumber (upper (trim line))))) := by
        rw [lineSays, cleaned_eq, spoken_trim]
    _ = spoken (outsideComments 0 (upper (trim line))) := by
        rw [spoken_outside_trim, spoken_outside_stripLineNumber]
    _ = spoken (outsideComments 0 (upper line)) := htrim

theorem lineSays_padded {before behind : List Char} (hbefore : AllBlank before)
    (hbehind : AllBlank behind) : lineSays (before ++ line ++ behind) = lineSays line := by
  rw [lineSays_eq, lineSays_eq, upper_append, upper_append, hbefore.upper, hbehind.upper,
    spoken_outside_padded hbefore hbehind]

theorem lineSays_trim : lineSays (trim line) = lineSays line := by
  obtain ⟨before, behind, hbefore, hbehind, hline⟩ := trim_spec line
  conv_rhs => rw [hline, lineSays_padded _ hbefore hbehind]

theorem lineSays_numbered {c : Char} (hc : c = 'N' ∨ c = 'n') {digits blanks : List Char}
    (hdigits : ∀ d ∈ digits, isDecimal d = true) (hblanks : AllBlank blanks) :
    lineSays (c :: (digits ++ (blanks ++ line))) = lineSays line := by
  have hN : upperOf c = ['N'] := by
    rcases hc with rfl | rfl <;> rfl
  rw [lineSays_eq, lineSays_eq, upper_cons, upper_append, upper_append, hN, hblanks.upper,
    upper_eq_self fun d hd => upperOf_of_isDecimal (hdigits d hd)]
  exact spoken_outside_numbered (.inl rfl) hdigits hblanks _

theorem lineSays_stripLineNumber : lineSays (stripLineNumber line) = lineSays line := by
  rcases stripLineNumber_spec line with h | ⟨c, digits, blanks, hc, hdigits, hblanks, hline⟩
  · rw [h]
  · conv_rhs => rw [hline, lineSays_numbered _ hc hdigits hblanks]

theorem lineSays_upper : lineSays (upper line) = lineSays line := by
  rw [lineSays_eq, lineSays_eq, upper_upper]

/-- What is outside of the comments says the same on its own. -/
theorem lineSays_outsideComments : lineSays (outsideComments 0 line) = lineSays line := by
  have hplain : ∀ c ∈ upper (outsideComments 0 line), c ≠ '(' ∧ c ≠ ';' := by
    rw [← outsideComments_upper]
    intro c hc
    exact (mem_outsideComments c hc).1
  rw [lineSays_eq, lineSays_eq, outsideComments_eq_self hplain,
    outsideComments_upper]

/-- Cleaning a line once more leaves what it says, even where it takes off a second number. -/
theorem lineSays_cleaned : lineSays (cleaned line) = lineSays line := by
  rw [cleaned_eq, lineSays_trim, lineSays_outsideComments, lineSays_trim, lineSays_stripLineNumber,
    lineSays_upper, lineSays_trim]

end
end Toolpath
