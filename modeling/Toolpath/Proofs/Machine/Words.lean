import Toolpath.Proofs.Machine.Steps

/-! # What words do to a block

The words of a line act on its block apart from each other: a G word by the command of its code, the
word of an axis by its number, and what a command leaves alone is in force as before.
-/
namespace Toolpath

def Word.command? (w : Word) : Option Command :=
  if w.letter = 'G' then w.code?.bind Command.ofCode? else none

def Modal.read (m : Modal) (w : Word) : Modal :=
  if w.letter = 'F' then w.number?.elim m m.setFeed else w.command?.elim m m.apply

/-- The number that a line of words has for a letter: that of the last word which gives it one. -/
def lastNumber (letter : Char) (words : List Word) : Option Float :=
  ((words.filter fun w => w.letter == letter).filterMap Word.number?).getLast?

theorem lastNumber_cons (letter : Char) (w : Word) (rest : List Word) :
    lastNumber letter (w :: rest) =
      (lastNumber letter rest).or (if w.letter = letter then w.number? else none) := by
  unfold lastNumber
  by_cases hw : w.letter = letter
  · rw [if_pos hw, List.filter_cons_of_pos (by simpa using hw)]
    cases hn : w.number? with
    | none => rw [List.filterMap_cons_none hn, Option.or_none]
    | some v =>
      rw [List.filterMap_cons_some hn, List.getLast?_cons]
      cases ((rest.filter fun w => w.letter == letter).filterMap Word.number?).getLast? <;> rfl
  · rw [if_neg hw, List.filter_cons_of_neg (by simpa using hw), Option.or_none]

/-- The numbers of one line, in front of those of another. -/
def AxisWords.or {α : Type} (w v : AxisWords α) : AxisWords α where
  x := w.x.or v.x
  y := w.y.or v.y
  z := w.z.or v.z
  i := w.i.or v.i
  j := w.j.or v.j
  k := w.k.or v.k
  r := w.r.or v.r

theorem AxisWords.or_none {α : Type} (w : AxisWords α) : w.or {} = w := by
  simp [AxisWords.or]

theorem AxisWords.or_assoc {α : Type} (u w v : AxisWords α) : (u.or w).or v = u.or (w.or v) := by
  simp [AxisWords.or, Option.or_assoc]

def Word.numbers (w : Word) : AxisWords Float where
  x := if w.letter = 'X' then w.number? else none
  y := if w.letter = 'Y' then w.number? else none
  z := if w.letter = 'Z' then w.number? else none
  i := if w.letter = 'I' then w.number? else none
  j := if w.letter = 'J' then w.number? else none
  k := if w.letter = 'K' then w.number? else none
  r := if w.letter = 'R' then w.number? else none

def lastNumbers (words : List Word) : AxisWords Float where
  x := lastNumber 'X' words
  y := lastNumber 'Y' words
  z := lastNumber 'Z' words
  i := lastNumber 'I' words
  j := lastNumber 'J' words
  k := lastNumber 'K' words
  r := lastNumber 'R' words

theorem lastNumbers_cons (w : Word) (rest : List Word) :
    lastNumbers (w :: rest) = (lastNumbers rest).or w.numbers := by
  simp only [lastNumbers, AxisWords.or, Word.numbers, lastNumber_cons]

namespace Block

theorem read_command? (b : Block) {w : Word} (hw : w.letter = 'G') :
    b.read w = w.command?.elim b b.command := by
  unfold read Word.command?
  rw [if_pos hw, hw]
  dsimp only
  cases w.code?.bind Command.ofCode? <;> rfl

/-- The parts of a block take a word in apart from each other. -/
theorem read_parts (b : Block) (w : Word) : b.read w =
    { modal := b.modal.read w
      motion := (w.command?.bind Command.motion?).or b.motion
      words := w.numbers.or b.words } := by
  obtain ⟨letter, value⟩ := w
  by_cases hg : letter = 'G'
  · subst hg
    have hmodal : b.modal.read ⟨'G', value⟩ =
        (Word.command? ⟨'G', value⟩).elim b.modal b.modal.apply := rfl
    rw [read_command? b rfl, hmodal]
    cases Word.command? ⟨'G', value⟩ <;> rfl
  · have hcommand : Word.command? ⟨letter, value⟩ = none := if_neg hg
    unfold read Modal.read
    rw [hcommand]
    dsimp only
    split
    case h_1 => contradiction
    case h_2 => cases Word.number? ⟨'F', value⟩ <;> rfl
    case h_10 hf hx hy hz hi hj hk hr =>
      simp only [Word.numbers, if_neg hf, if_neg hx, if_neg hy, if_neg hz, if_neg hi, if_neg hj,
        if_neg hk, if_neg hr]
      rfl
    all_goals rfl

theorem modal_read (b : Block) (w : Word) : (b.read w).modal = b.modal.read w :=
  congrArg Block.modal (b.read_parts w)

theorem read_words (b : Block) (w : Word) : (b.read w).words = w.numbers.or b.words :=
  congrArg Block.words (b.read_parts w)

/-- An erasure that some words do nothing to, while the others are read alike under it, can be made
before or behind a line; those words need not be read then. -/
theorem foldl_erase {e : Block → Block} {hidden : Word → Bool}
    (h : ∀ b w, e (b.read w) = if hidden w then e b else (e b).read w) (words : List Word)
    (b : Block) : e (words.foldl read b) = (words.filter (!hidden ·)).foldl read (e b) := by
  induction words generalizing b with
  | nil => rfl
  | cons w rest ih =>
    rw [List.foldl_cons, ih, h]
    cases hw : hidden w with
    | true => rw [List.filter_cons_of_neg (by simp [hw]), if_pos rfl]
    | false =>
      rw [List.filter_cons_of_pos (by simp [hw]), List.foldl_cons, if_neg Bool.false_ne_true]

theorem foldl_words (words : List Word) (b : Block) :
    (words.foldl read b).words = (lastNumbers words).or b.words := by
  induction words generalizing b with
  | nil => rfl
  | cons w rest ih =>
    rw [List.foldl_cons, ih, read_words, lastNumbers_cons, AxisWords.or_assoc]

theorem scan_words (m : Modal) (words : List Word) : (scan m words).words = lastNumbers words :=
  (foldl_words words { modal := m }).trans (AxisWords.or_none _)

theorem scan_axes (m : Modal) (words : List Word) :
    (scan m words).words.x = lastNumber 'X' words ∧
    (scan m words).words.y = lastNumber 'Y' words ∧
    (scan m words).words.z = lastNumber 'Z' words := by
  rw [scan_words]
  exact ⟨rfl, rfl, rfl⟩

theorem read_frame (b : Block) (w : Word) :
    (b.read w).modal.toFrame = (w.command?.elim b.modal b.modal.apply).toFrame := by
  rw [modal_read]
  unfold Modal.read
  split
  next hf =>
    have hcommand : w.command? = none := if_neg (by simp [hf])
    rw [hcommand]
    cases w.number? with
    | none => rfl
    | some v =>
      change (b.modal.setFeed v).toFrame = b.modal.toFrame
      rw [Modal.setFeed_eq]
  next => rfl

/-- What is not in force before a line, and is selected by none of its words, is not in force behind
it. -/
theorem foldl_frame_ne {β : Type} (get : Frame → β) {select : β → Command}
    (hselect : ∀ (m : Modal) (c : Command), c = select (get (m.apply c).toFrame) ∨
      get (m.apply c).toFrame = get m.toFrame) {x : β} {words : List Word}
    (hwords : ∀ w ∈ words, w.command? ≠ some (select x)) {b : Block}
    (hb : get b.modal.toFrame ≠ x) : get (words.foldl read b).modal.toFrame ≠ x := by
  induction words generalizing b with
  | nil => exact hb
  | cons w rest ih =>
    rw [List.forall_mem_cons] at hwords
    refine ih hwords.2 ?_
    rw [read_frame]
    cases hc : w.command? with
    | none => exact hb
    | some c =>
      rintro rfl
      rcases hselect b.modal c with hselected | hkept
      · exact hwords.1 (hc.trans (congrArg some hselected))
      · exact hb hkept.symm

theorem scan_units_ne {m : Modal} {words : List Word} {u : Units} (hm : m.units ≠ u)
    (h : ∀ w ∈ words, w.command? ≠ some (.units u)) : (scan m words).modal.units ≠ u :=
  foldl_frame_ne Frame.units (fun _ c => by cases c <;> simp [Modal.apply]) h hm

theorem scan_distance_ne {m : Modal} {words : List Word} {mode : DistanceMode}
    (hm : m.distance ≠ mode) (h : ∀ w ∈ words, w.command? ≠ some (.distance mode)) :
    (scan m words).modal.distance ≠ mode :=
  foldl_frame_ne Frame.distance (fun _ c => by cases c <;> simp [Modal.apply]) h hm

end Block
end Toolpath
