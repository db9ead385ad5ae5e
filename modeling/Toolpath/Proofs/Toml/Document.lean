import Toolpath.Proofs.Toml.Number
import Toolpath.Toml.Reader

/-! # Lines with keys and numbers

A line with a bare key and a number defines the number under the key, and a document of such lines,
no key twice, has them all at its root. A number must not be taken for a date: behind its digits
there is no dash and no colon.
-/
namespace Toolpath.Toml

/-! ## Values that are numbers -/

theorem field?_spec {width low high n : Nat} (hwidth : 0 < width) {text rest : List Char}
    (h : field? width low high text = some (n, rest)) :
    ∃ ds, text = ds ++ rest ∧ ds ≠ [] ∧ ∀ c ∈ ds, c.isDigit = true := by
  unfold field? at h
  dsimp only at h
  split_ifs at h with hfield
  obtain ⟨hlength, hdigits, -⟩ := hfield
  cases h
  refine ⟨text.take width, (List.take_append_drop width text).symm, ?_, List.all_eq_true.mp hdigits⟩
  rw [← List.length_pos_iff, hlength]
  exact hwidth

theorem behind?_eq_some {c : Char} {text rest : List Char} (h : behind? c text = some rest) :
    text = c :: rest := by
  unfold behind? at h
  split at h
  · split_ifs at h with hc
    cases h
    rw [hc]
  · cases h

def Undated (text : List Char) : Prop :=
  Stops Char.isDigit text ∨ Stops (fun c => c ∈ ['-', ':']) (text.dropWhile Char.isDigit)

theorem Undated.behind?_eq_none {text rest : List Char} (h : Undated text) {width low high n : Nat}
    (hwidth : 0 < width) (hfield : field? width low high text = some (n, rest)) {c : Char}
    (hc : c ∈ ['-', ':']) : behind? c rest = none := by
  obtain ⟨ds, rfl, hne, hdigits⟩ := field?_spec hwidth hfield
  cases hbehind : behind? c rest with
  | none => rfl
  | some more =>
    obtain rfl := behind?_eq_some hbehind
    have hstops : Stops Char.isDigit (c :: more) := by
      intro d hd
      obtain rfl : c = d := by simpa using hd
      fin_cases hc <;> rfl
    rcases h with hfirst | hnext
    · obtain ⟨d, ds, rfl⟩ := List.exists_cons_of_ne_nil hne
      have := hfirst d (by simp)
      rw [hdigits d (by simp)] at this
      cases this
    · rw [dropWhile_run hdigits hstops] at hnext
      have := hnext c (by simp)
      simp only [decide_eq_false_iff_not] at this
      exact absurd hc this

theorem Undated.skipDate?_eq_none {text : List Char} (h : Undated text) :
    skipDate? text = none := by
  have hday : skipDay? text = none := by
    unfold skipDay?
    cases hyear : field? 4 0 9999 text with
    | none => rfl
    | some year => simp [h.behind?_eq_none (by norm_num) hyear (c := '-') (by simp)]
  have htime : skipTime? text = none := by
    unfold skipTime?
    cases hhour : field? 2 0 23 text with
    | none => rfl
    | some hour => simp [h.behind?_eq_none (by norm_num) hhour (c := ':') (by simp)]
  simp [skipDate?, hday, htime]

theorem undated_of_isDigit {ds rest : List Char} (hdigits : ∀ c ∈ ds, c.isDigit = true)
    (hrest : Stops Char.isDigit rest) (hmarks : Stops (fun c => c ∈ ['-', ':']) rest) :
    Undated (ds ++ rest) := by
  refine .inr ?_
  rwa [dropWhile_run hdigits hrest]

/-- A value that begins like a number is one. -/
theorem value?_of_undated {text : List Char} (h : Undated text)
    (hfirst : Stops (fun c => c ∈ ['[', '{', 't', 'f', '"', '\'']) text) (depth fuel : Nat) :
    value? depth (fuel + 1) text = number? text := by
  have hne (c : Char) (hc : c ∈ ['[', '{', 't', 'f', '"', '\'']) (rest : List Char) :
      text ≠ c :: rest := by
    rintro rfl
    have := hfirst c (by simp)
    simp only [decide_eq_false_iff_not] at this
    exact this hc
  have hstring : skipString? text = none := by
    unfold skipString?
    split
    · exact absurd rfl (hne '"' (by simp) _)
    · exact absurd rfl (hne '\'' (by simp) _)
    · exact absurd rfl (hne '"' (by simp) _)
    · exact absurd rfl (hne '\'' (by simp) _)
    · rfl
  unfold value?
  split
  · exact absurd rfl (hne '[' (by simp) _)
  · exact absurd rfl (hne '{' (by simp) _)
  · exact absurd rfl (hne 't' (by simp) _)
  · exact absurd rfl (hne 'f' (by simp) _)
  · rw [hstring, h.skipDate?_eq_none]

structure ReadsAs (text : List Char) (datum : Datum) : Prop where
  start (rest : List Char) : Stops isSpace (text ++ '\n' :: rest)
  value (fuel : Nat) (rest : List Char) :
    value? 0 (fuel + 1) (text ++ '\n' :: rest) = some (datum, '\n' :: rest)

theorem readsAs_of_number? {c : Char} {text : List Char} {datum : Datum}
    (hc : c.isDigit = true ∨ c ∈ ['-', 'i', 'n'])
    (hdate : ∀ rest, Undated (c :: text ++ '\n' :: rest))
    (hvalue : ∀ rest, number? (c :: text ++ '\n' :: rest) = some (datum, '\n' :: rest)) :
    ReadsAs (c :: text) datum := by
  have hother : c ∉ [' ', '\t', '[', '{', 't', 'f', '"', '\''] := by
    intro hmem
    rcases hc with hc | hc
    · fin_cases hmem <;> exact absurd hc (by decide)
    · fin_cases hmem <;> simp at hc
  refine ⟨fun rest => ?_, fun fuel rest => ?_⟩
  · simp_all [Stops, isSpace]
  · rw [value?_of_undated (hdate rest) (by simp_all [Stops]), hvalue rest]

theorem stops_newline (rest : List Char) : Stops inNumber ('\n' :: rest) := stops_cons.mpr rfl

theorem readsAs_numberText (x : Float) : ReadsAs (numberText x).toList (.number (some x)) := by
  have hvalue (rest : List Char) := number?_numberText x (stops_newline rest)
  have hsign {c : Char} {text : List Char} (h : (numberText x).toList = c :: text)
      (hc : c ∈ ['-', 'i', 'n']) : ReadsAs (numberText x).toList (.number (some x)) := by
    rw [h] at hvalue ⊢
    refine readsAs_of_number? (.inr hc) (fun rest => .inl ?_) hvalue
    fin_cases hc <;> exact stops_cons.mpr rfl
  cases hx : Binary.ofFloat x with
  | nan => exact hsign (c := 'n') (by simp [numberText, hx]; rfl) (by simp)
  | infinity negative =>
    cases negative with
    | false => exact hsign (c := 'i') (by simp [numberText, hx]; rfl) (by simp)
    | true => exact hsign (c := '-') (by simp [numberText, hx]; rfl) (by simp)
  | finite negative m e =>
    obtain ⟨whole, fraction, htext, hpointed, -⟩ := toFloat_text hx
    cases negative with
    | true => exact hsign (c := '-') (by simpa using htext) (by simp)
    | false =>
      simp only [Bool.false_eq_true, if_false, List.nil_append] at htext
      obtain ⟨d, ds, rfl⟩ := List.exists_cons_of_ne_nil hpointed.ne_nil
      rw [htext] at hvalue ⊢
      refine readsAs_of_number? (.inl (hpointed.isDigit d (by simp))) (fun rest => ?_) hvalue
      have h : Undated ((d :: ds) ++ '.' :: (fraction ++ '\n' :: rest)) :=
        undated_of_isDigit hpointed.isDigit (stops_cons.mpr rfl) (stops_cons.mpr rfl)
      simpa using h

theorem readsAs_toString {n : Nat} (hn : n < UInt64.size / 2) :
    ReadsAs (toString n).toList (.integer false (UInt64.ofNat n)) := by
  have hvalue (rest : List Char) := number?_toString hn (stops_newline rest)
  have hwhole := whole_toDigits n
  rw [toList_toString] at hvalue ⊢
  obtain ⟨d, ds, hds⟩ := List.exists_cons_of_ne_nil hwhole.ne_nil
  rw [hds] at hvalue hwhole ⊢
  refine readsAs_of_number? (.inl (hwhole.isDigit d (by simp))) (fun rest => ?_) hvalue
  exact undated_of_isDigit hwhole.isDigit (stops_cons.mpr rfl) (stops_cons.mpr rfl)

/-! ## Lines -/

def atRoot (pairs : List (String × Datum)) : Definitions :=
  ⟨pairs.map fun p => ([.key p.1], .value p.2)⟩

theorem root_atRoot (pairs : List (String × Datum)) : (atRoot pairs).root = pairs := by
  simp [atRoot, Definitions.root, List.filterMap_map]

theorem insert_atRoot {pairs : List (String × Datum)} {key : String}
    (hkey : key ∉ pairs.map Prod.fst) (datum : Datum) :
    (atRoot pairs).insert [] [key] datum = some (atRoot ((key, datum) :: pairs)) := by
  have hnew : (atRoot pairs).find? [.key key] = none := by
    simp only [atRoot, Definitions.find?, List.lookup_eq_none_iff]
    rintro entry hentry
    obtain ⟨p, hp, rfl⟩ := List.mem_map.mp hentry
    have hne : key ≠ p.1 := fun h => hkey (h ▸ List.mem_map_of_mem hp)
    simpa using hne
  simp [Definitions.insert, Definitions.descend, hnew]
  rfl

structure BareKey (key : String) : Prop where
  ne_nil : key.toList ≠ []
  bare : ∀ c ∈ key.toList, isBare c = true

section Keys
variable {key : String} (hkey : BareKey key)
include hkey

theorem BareKey.ne_cons {c : Char} (hc : isBare c = false) (rest more : List Char) :
    key.toList ++ rest ≠ c :: more := by
  intro heq
  obtain ⟨d, ds, hds⟩ := List.exists_cons_of_ne_nil hkey.ne_nil
  rw [hds] at heq
  cases heq
  rw [hkey.bare c (by simp [hds])] at hc
  cases hc

theorem skipSpace_bare (rest : List Char) :
    skipSpace (key.toList ++ rest) = key.toList ++ rest := by
  refine dropWhile_of_stops fun c hc => ?_
  obtain ⟨more, hmore⟩ := List.head?_eq_some_iff.mp hc
  by_contra hspace
  refine hkey.ne_cons (c := c) ?_ rest more hmore
  simp only [isSpace, Bool.or_eq_false_iff, decide_eq_false_iff_not, not_and_or, not_not] at hspace
  rcases hspace with rfl | rfl <;> decide

theorem skipLines_bare (rest : List Char) :
    skipLines false (key.toList ++ rest) = key.toList ++ rest := by
  generalize htext : key.toList ++ rest = text
  have hne {c : Char} (hc : isBare c = false) (more : List Char) : text ≠ c :: more :=
    htext ▸ hkey.ne_cons hc rest more
  unfold skipLines
  split
  · rfl
  · exact absurd rfl (hne (by decide) _)
  · exact absurd rfl (hne (by decide) _)
  · next c more _ _ =>
    have hspace : isSpace c = false := by
      simp only [isSpace, Bool.or_eq_false_iff, decide_eq_false_iff_not]
      constructor <;> rintro rfl <;> exact absurd rfl (hne (by decide) more)
    have hcomment : c ≠ '#' := by
      rintro rfl
      exact absurd rfl (hne (by decide) more)
    simp [hspace, hcomment]

theorem keyPart?_bare {rest : List Char} (hrest : Stops isBare rest) :
    keyPart? (key.toList ++ rest) = some (key, rest) := by
  unfold keyPart?
  split
  · next heq => exact absurd heq (hkey.ne_cons (by decide) _ _)
  · next heq => exact absurd heq (hkey.ne_cons (by decide) _ _)
  · rw [takeWhile_run hkey.bare hrest, dropWhile_run hkey.bare hrest]
    split
    · next heq => exact absurd heq hkey.ne_nil
    · rw [String.ofList_toList]

theorem key?_bare (rest : List Char) :
    key? (key.toList ++ ' ' :: '=' :: rest) = some ([key], '=' :: rest) := by
  have hstops : Stops isBare (' ' :: '=' :: rest) := stops_cons.mpr rfl
  have hbehind : skipSpace (' ' :: '=' :: rest) = '=' :: rest := by
    simp [skipSpace, isSpace]
  change keyParts? (78 + 1) _ = _
  rw [keyParts?, skipSpace_bare hkey, keyPart?_bare hkey hstops]
  simp [hbehind]

/-- A line with a bare key defines its value. -/
theorem line?_bare {text : List Char} {datum : Datum} (htext : ReadsAs text datum)
    (d : Definitions) (rest : List Char) :
    line? d [] (key.toList ++ ' ' :: '=' :: ' ' :: (text ++ '\n' :: rest)) =
      (d.insert [] [key] datum).map fun d => (d, [], rest) := by
  have hspace : ([' '] ++ (text ++ '\n' :: rest)).dropWhile isSpace = text ++ '\n' :: rest :=
    dropWhile_run (by simp [isSpace]) (htext.start rest)
  change skipSpace (' ' :: (text ++ '\n' :: rest)) = _ at hspace
  have hfuel (t : List Char) : fuel t = 2 * t.length + 1 + 1 := rfl
  unfold line?
  split
  · next heq => exact absurd heq (hkey.ne_cons (by decide) _ _)
  · next heq => exact absurd heq (hkey.ne_cons (by decide) _ _)
  · simp only [key?_bare hkey, behind?, hspace, hfuel, htext.value, Option.bind_eq_bind,
      Option.bind_some, if_true]
    cases d.insert [] [key] datum <;> simp [lineEnd?, newline?, skipSpace, isSpace]

end Keys

/-- A key with the text of its value, and the datum that the text stands for. -/
structure Line where
  key : String
  text : List Char
  datum : Datum

namespace Line

def chars (l : Line) : List Char := l.key.toList ++ ' ' :: '=' :: ' ' :: (l.text ++ ['\n'])

structure Valid (l : Line) : Prop where
  bare : BareKey l.key
  reads : ReadsAs l.text l.datum

end Line

theorem lines?_valid {fuel : Nat} {pairs : List (String × Datum)} {lines : List Line}
    (hvalid : ∀ l ∈ lines, l.Valid) (hnodup : (lines.map Line.key).Nodup)
    (hnew : ∀ l ∈ lines, l.key ∉ pairs.map Prod.fst) (hfuel : lines.length < fuel) :
    lines? fuel (atRoot pairs) [] (lines.flatMap Line.chars) =
      some (atRoot ((lines.map fun l => (l.key, l.datum)).reverse ++ pairs)) := by
  -- each line is one step of fuel, and what it defines is new to those behind it
  induction lines generalizing fuel pairs with
  | nil =>
    obtain ⟨fuel, rfl⟩ := Nat.exists_eq_succ_of_ne_zero hfuel.ne'
    simp [lines?, skipLines]
  | cons l lines ih =>
    obtain ⟨fuel, rfl⟩ := Nat.exists_eq_succ_of_ne_zero (Nat.ne_zero_of_lt hfuel)
    obtain ⟨hbare, hreads⟩ := hvalid l (by simp)
    have htext : (l :: lines).flatMap Line.chars = l.key.toList ++
        ' ' :: '=' :: ' ' :: (l.text ++ '\n' :: lines.flatMap Line.chars) := by
      simp [Line.chars]
    have hfresh : ∀ l' ∈ lines, l'.key ∉ ((l.key, l.datum) :: pairs).map Prod.fst := by
      intro l' hl'
      have hne : l'.key ≠ l.key := by
        intro h
        exact (List.nodup_cons.mp hnodup).1 (h ▸ List.mem_map_of_mem hl')
      simpa [hne] using hnew l' (by simp [hl'])
    have hnext := ih (fun l' hl' => hvalid l' (by simp [hl'])) (List.Nodup.of_cons hnodup) hfresh
      (Nat.lt_of_succ_lt_succ hfuel)
    rw [htext, lines?, skipLines_bare hbare]
    split
    · next heq => simp at heq
    · rw [line?_bare hbare hreads, insert_atRoot (hnew l (by simp))]
      simp [hnext]

/-- The lines of a document are all at its root, the latest first. -/
theorem document?_valid {lines : List Line} (hvalid : ∀ l ∈ lines, l.Valid)
    (hnodup : (lines.map Line.key).Nodup) :
    (document? (lines.flatMap Line.chars)).map Definitions.root =
      some (lines.map fun l => (l.key, l.datum)).reverse := by
  have hlength : lines.length ≤ (lines.flatMap Line.chars).length := by
    rw [List.length_flatMap, ← List.length_map (f := fun l => l.chars.length)]
    refine List.length_le_sum_of_one_le _ fun n hn => ?_
    obtain ⟨l, -, rfl⟩ := List.mem_map.mp hn
    rw [Line.chars, List.length_append, List.length_cons]
    omega
  have h : lines? _ (atRoot []) [] _ = _ :=
    lines?_valid hvalid hnodup (by simp) (Nat.lt_succ_of_le hlength)
  have hmark (rest : List Char) : lines.flatMap Line.chars ≠ '\uFEFF' :: rest := by
    cases lines with
    | nil => simp
    | cons l lines =>
      rw [List.flatMap_cons, Line.chars, List.append_assoc]
      exact (hvalid l (by simp)).bare.ne_cons (by decide) _ _
  unfold document?
  split
  · next heq => exact absurd heq (hmark _)
  · change (lines? _ (atRoot []) [] _).map _ = _
    rw [h, Option.map_some, root_atRoot, List.append_nil]

end Toolpath.Toml
