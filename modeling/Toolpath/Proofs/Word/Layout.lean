import Mathlib.Data.List.Forall2
import Toolpath.Proofs.Word.Number

/-! # Words and what stands between them

A text has one word for each of its addresses, with the longest number that follows the address, and
the rest of it are gaps without any address. The other way round, words that are written down, with
gaps between them or none, are the words of what is written: no number goes on into an address.
-/
namespace Toolpath
namespace Word

theorem toList_text (w : Word) : w.text.toList = w.letter :: w.value := String.toList_ofList

def atAddress (text : List Char) : Bool := text.head?.any isAddress

/-- Whether a word is the one at the head of a text: its letter stands there, and its value is the
longest number behind the letter. -/
def Heads (w : Word) (text : List Char) : Prop :=
  ∃ behind, text = w.letter :: behind ∧ IsLongestNumber behind w.value

def layout (spaced : List (Word × List Char)) : List Char :=
  spaced.flatMap fun (w, gap) => w.text.toList ++ gap

@[simp] theorem layout_nil : layout [] = [] := rfl

@[simp] theorem layout_cons (w : Word) (gap : List Char) (rest : List (Word × List Char)) :
    layout ((w, gap) :: rest) = w.letter :: (w.value ++ (gap ++ layout rest)) := by
  simp [layout, toList_text]

section
variable (text : List Char)

theorem isAddress_splitNumber : ∀ c ∈ (splitNumber text).1, isAddress c = false := by
  intro c hc
  rcases (splitNumber_spec text).2 with hnil | hnumber
  · rw [hnil] at hc
    cases hc
  · exact isAddress_of_inValue (hnumber.inValue c hc)

/-- Behind a word the search may go on where its number ends. -/
theorem split_address {c : Char} (hc : isAddress c = true) :
    split (c :: text) = ⟨c, (splitNumber text).1⟩ :: split (splitNumber text).2 := by
  rw [split, if_pos hc]
  conv_lhs => rw [← (splitNumber_spec text).1, split_of_no_address (isAddress_splitNumber text)]
  rw [(splitNumber_spec text).1]

theorem letters_split : (split text).map letter = text.filter isAddress := by
  induction text with
  | nil => rfl
  | cons c rest ih =>
    rw [split, List.filter_cons, ← ih]
    split_ifs <;> rfl

theorem split_heads : List.Forall₂ Heads (split text) (text.tails.filter atAddress) := by
  induction text with
  | nil => exact .nil
  | cons c rest ih =>
    rw [split, List.tails_cons]
    by_cases hc : isAddress c = true
    · rw [if_pos hc, List.filter_cons_of_pos (by simpa [atAddress] using hc)]
      exact .cons ⟨rest, rfl, isLongestNumber_splitNumber rest⟩ ih
    · rw [if_neg hc, List.filter_cons_of_neg (by simpa [atAddress] using hc)]
      exact ih

theorem leftUnique_heads : Relator.LeftUnique Heads := by
  rintro ⟨letter, value⟩ ⟨letter', value'⟩ _ ⟨behind, rfl, hvalue⟩ ⟨_, hhead, hvalue'⟩
  obtain ⟨rfl, rfl⟩ := List.cons.inj hhead
  exact congrArg (Word.mk letter) (hvalue.unique hvalue')

/-- A text is laid out in its words, and no address stands outside of their letters. -/
theorem exists_layout (text : List Char) : ∃ before spaced,
    text = before ++ layout spaced ∧ spaced.map Prod.fst = split text ∧
    (∀ c ∈ before, isAddress c = false) ∧
    ∀ p ∈ spaced, ∀ c ∈ p.1.value ++ p.2, isAddress c = false := by
  match text with
  | [] => exact ⟨[], [], rfl, rfl, List.forall_mem_nil _, List.forall_mem_nil _⟩
  | c :: rest =>
    by_cases hc : isAddress c = true
    · -- The next gap begins where the number ends, so the recursion is on the length.
      have hrest := (splitNumber_spec rest).1
      have hvalue := isAddress_splitNumber rest
      obtain ⟨before, spaced, hbehind, hwords, hbefore, hspaced⟩ :=
        exists_layout (splitNumber rest).2
      refine ⟨[], (⟨c, (splitNumber rest).1⟩, before) :: spaced, ?_, ?_, List.forall_mem_nil _, ?_⟩
      · rw [List.nil_append, layout_cons, ← hbehind, hrest]
      · rw [List.map_cons, hwords, split_address rest hc]
      · rw [List.forall_mem_cons, List.forall_mem_append]
        exact ⟨⟨hvalue, hbefore⟩, hspaced⟩
    · obtain ⟨before, spaced, hrest, hwords, hbefore, hspaced⟩ := exists_layout rest
      refine ⟨c :: before, spaced, ?_, ?_, ?_, hspaced⟩
      · rw [List.cons_append, ← hrest]
      · rw [hwords, split, if_neg hc]
      · rw [List.forall_mem_cons]
        exact ⟨Bool.eq_false_iff.mpr hc, hbefore⟩
termination_by text.length
decreasing_by
  · have hlength := congrArg List.length (splitNumber_spec rest).1
    rw [List.length_append] at hlength
    rw [List.length_cons]
    omega
  · exact Nat.lt_succ_self _

/-- A text has one word for each of its addresses, in their order. The word of an address is the one
at the head of the text from there on, and nothing else are the words of the text. What is passed
over, in front of the words and behind them, holds no address, and neither does a value. -/
theorem split_text :
    (split text).map letter = text.filter isAddress ∧
    (∀ words, words = split text ↔ List.Forall₂ Heads words (text.tails.filter atAddress)) ∧
    ∃ before spaced,
      text = before ++ layout spaced ∧ spaced.map Prod.fst = split text ∧
      (∀ c ∈ before, isAddress c = false) ∧
      ∀ p ∈ spaced, ∀ c ∈ p.1.value ++ p.2, isAddress c = false := by
  refine ⟨letters_split text, fun words => ?_, exists_layout text⟩
  constructor
  · rintro rfl
    exact split_heads text
  · intro hwords
    exact List.left_unique_forall₂' leftUnique_heads hwords (split_heads text)

end

structure WellFormed (w : Word) : Prop where
  address : isAddress w.letter = true
  value : w.value = [] ∨ NumberText w.value

instance : DecidablePred WellFormed := fun w =>
  decidable_of_iff (isAddress w.letter = true ∧ (w.value = [] ∨ NumberText w.value))
    ⟨fun ⟨address, value⟩ => ⟨address, value⟩, fun ⟨address, value⟩ => ⟨address, value⟩⟩

/-- Whether a text can stand between words without a change to them. -/
def Separates (gap : List Char) : Prop := ∀ c ∈ gap, isAddress c = false ∧ inValue c = false

instance : DecidablePred Separates :=
  List.decidableBAll fun c => isAddress c = false ∧ inValue c = false

def joined (words : List Word) (gaps : List (List Char)) : List Char :=
  layout (words.zip (gaps ++ [[]]))

theorem wellFormed_of_mem_split {text : List Char} {w : Word} (h : w ∈ split text) :
    w.WellFormed := by
  induction text with
  | nil => cases h
  | cons c rest ih =>
    rw [split] at h
    by_cases hc : isAddress c = true
    · rw [if_pos hc, List.mem_cons] at h
      rcases h with rfl | h
      · exact ⟨hc, (splitNumber_spec rest).2⟩
      · exact ih h
    · rw [if_neg hc] at h
      exact ih h

namespace WellFormed
variable {w : Word}

theorem splitNumber_value (h : w.WellFormed) : (splitNumber w.value).1 = w.value := by
  rcases h.value with hnil | hnumber
  · rw [hnil]
    rfl
  · rw [splitNumber_numberText hnumber]

theorem isAddress_value (h : w.WellFormed) : ∀ c ∈ w.value, isAddress c = false := by
  rw [← h.splitNumber_value]
  exact isAddress_splitNumber _

/-- The number of a word ends where the next word begins. -/
theorem stops (h : w.WellFormed) (rest : List Char) : Stops inValue (w.letter :: rest) := by
  rw [stops_cons, Bool.eq_false_iff]
  intro hletter
  exact Bool.eq_false_iff.mp (isAddress_of_inValue hletter) h.address

end WellFormed

/-- A number ends with its word, be it at a gap, at the next word or at the end of the text. -/
theorem stops_gap {gap : List Char} (hgap : Separates gap) {spaced : List (Word × List Char)}
    (hwords : ∀ p ∈ spaced, p.1.WellFormed) : Stops inValue (gap ++ layout spaced) := by
  cases gap with
  | nil =>
    cases spaced with
    | nil => exact nofun
    | cons p rest => exact layout_cons p.1 p.2 rest ▸ (hwords p List.mem_cons_self).stops _
  | cons c gap => exact stops_cons.mpr (hgap c List.mem_cons_self).2

/-- The words of what is laid out in words are these words. -/
theorem split_layout {spaced : List (Word × List Char)} (hwords : ∀ p ∈ spaced, p.1.WellFormed)
    (hgaps : ∀ p ∈ spaced, Separates p.2) : split (layout spaced) = spaced.map Prod.fst := by
  induction spaced with
  | nil => rfl
  | cons p rest ih =>
    obtain ⟨w, gap⟩ := p
    rw [List.forall_mem_cons] at hwords hgaps
    obtain ⟨hw, hwords⟩ := hwords
    obtain ⟨hgap, hgaps⟩ := hgaps
    have hbehind : split (w.value ++ (gap ++ layout rest)) = rest.map Prod.fst := by
      rw [split_of_no_address hw.isAddress_value,
        split_of_no_address fun c hc => (hgap c hc).1, ih hwords hgaps]
    rw [layout_cons, split, if_pos hw.address, hbehind, splitNumber_append (stops_gap hgap hwords),
      hw.splitNumber_value]
    rfl

theorem split_joined {words : List Word} (hwords : ∀ w ∈ words, w.WellFormed)
    {gaps : List (List Char)} (hlength : gaps.length + 1 = words.length)
    (hgaps : ∀ gap ∈ gaps, Separates gap) : split (joined words gaps) = words := by
  have hfirst : (words.zip (gaps ++ [[]])).map Prod.fst = words :=
    List.map_fst_zip (by simp [← hlength])
  conv_rhs => rw [← hfirst]
  apply split_layout
  · intro p hp
    exact hwords p.1 (List.of_mem_zip hp).1
  · intro p hp
    rcases List.mem_append.mp (List.of_mem_zip hp).2 with hgap | hnil
    · exact hgaps p.2 hgap
    · rw [List.mem_singleton.mp hnil]
      exact List.forall_mem_nil _

theorem split_texts {words : List Word} (hwords : ∀ w ∈ words, w.WellFormed) :
    split (words.flatMap fun w => w.text.toList) = words := by
  have hlayout : layout (words.map fun w => (w, [])) = words.flatMap fun w => w.text.toList := by
    simp [layout, List.flatMap_map]
  have hfirst : (words.map fun w => (w, ([] : List Char))).map Prod.fst = words := by
    rw [List.map_map]
    exact List.map_id words
  conv_rhs => rw [← hfirst]
  rw [← hlayout]
  apply split_layout
  · simpa using hwords
  · simp [Separates]

/-- Well-formed words are the words of their texts, written one right behind the other or with gaps
between them. The words of any text are well-formed, so that writing them down and reading them
again gives the same words. -/
theorem split_written :
    (∀ words : List Word, (∀ w ∈ words, w.WellFormed) →
      split (words.flatMap fun w => w.text.toList) = words ∧
      ∀ gaps : List (List Char), gaps.length + 1 = words.length → (∀ gap ∈ gaps, Separates gap) →
        split (joined words gaps) = words) ∧
    ∀ text, (∀ w ∈ split text, w.WellFormed) ∧
      split ((split text).flatMap fun w => w.text.toList) = split text := by
  constructor
  · intro words hwords
    exact ⟨split_texts hwords, fun gaps => split_joined hwords⟩
  · intro text
    have hwords : ∀ w ∈ split text, w.WellFormed := fun _ => wellFormed_of_mem_split
    exact ⟨hwords, split_texts hwords⟩

/-- A sign, points at both ends of a number and a letter without one, with and without gaps. -/
theorem split_written_line :
    (∀ w ∈ [Word.mk 'G' ['0', '1'], ⟨'X', ['-', '2', '.']⟩, ⟨'M', []⟩, ⟨'Y', ['.', '5']⟩],
      w.WellFormed) ∧
    (∀ gap ∈ [[' '], ['g', '/'], ['\t']], Separates gap) ∧
    split "G01X-2.MY.5".toList =
      [⟨'G', ['0', '1']⟩, ⟨'X', ['-', '2', '.']⟩, ⟨'M', []⟩, ⟨'Y', ['.', '5']⟩] ∧
    split "G01 X-2.g/M\tY.5".toList =
      [⟨'G', ['0', '1']⟩, ⟨'X', ['-', '2', '.']⟩, ⟨'M', []⟩, ⟨'Y', ['.', '5']⟩] := by
  have hwords : ∀ w ∈ [Word.mk 'G' ['0', '1'], ⟨'X', ['-', '2', '.']⟩, ⟨'M', []⟩, ⟨'Y', ['.', '5']⟩],
      w.WellFormed := by decide +kernel
  have hgaps : ∀ gap ∈ [[' '], ['g', '/'], ['\t']], Separates gap := by decide +kernel
  obtain ⟨htexts, hjoined⟩ := split_written.1 _ hwords
  exact ⟨hwords, hgaps, htexts, hjoined _ rfl hgaps⟩

end Word
end Toolpath
