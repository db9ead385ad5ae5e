import Toolpath.Proofs.Text.Blank
import Toolpath.Text.UpperCase

/-! # Upper case once and for all

Raising the case of a text a second time changes nothing, and blanks and digits are not changed at
all. The code points in the tables, and those to which the tables lead, are taken as the bits of two
numbers. These have no bit in common.
-/
namespace Toolpath

theorem toNat_ofNat {n : Nat} (h : n < 0xD800 ∨ (0xE000 ≤ n ∧ n < 0x110000)) :
    (Char.ofNat n).toNat = n := by
  have hvalid : n.isValidChar := by
    unfold Nat.isValidChar
    omega
  unfold Char.ofNat
  rw [dif_pos hvalid]
  rfl

theorem toUpper_eq_self {c : Char} (h : c.toNat < 0x61 ∨ 0x7A < c.toNat) : c.toUpper = c := by
  unfold Char.toUpper
  apply dif_neg
  rw [UInt32.le_iff_toNat_le, UInt32.le_iff_toNat_le]
  change ¬ (0x61 ≤ c.toNat ∧ c.toNat ≤ 0x7A)
  omega

def bitsOf (ns : List Nat) : Nat := ns.foldr (fun n bits => 1 <<< n ||| bits) 0

theorem testBit_bitsOf {ns : List Nat} {n : Nat} (h : n ∈ ns) : (bitsOf ns).testBit n = true := by
  induction ns with
  | nil => contradiction
  | cons m rest ih =>
    rw [bitsOf, List.foldr_cons, Nat.testBit_or]
    rcases List.mem_cons.mp h with rfl | h
    · simp [Nat.testBit_shiftLeft]
    · rw [← bitsOf, ih h, Bool.or_true]

/-- Sets without a common bit are disjoint. -/
theorem not_mem_of_bitsOf {ns ms : List Nat} (h : bitsOf ns &&& bitsOf ms = 0) {n : Nat}
    (hn : n ∈ ns) : n ∉ ms := by
  intro hm
  have hboth : (bitsOf ns &&& bitsOf ms).testBit n = true := by
    rw [Nat.testBit_and, testBit_bitsOf hn, testBit_bitsOf hm]
    rfl
  rw [h, Nat.zero_testBit] at hboth
  cases hboth

def CaseSpan.codesFrom (s : CaseSpan) (start : Nat) : List Nat :=
  (List.range ((s.last - s.first) / s.stride + 1)).map fun k => start + k * s.stride

def movedCodes : List Nat :=
  upperSpans.flatMap (fun s => s.codesFrom s.first) ++ upperExpansions.map Prod.fst

def raisedCodes : List Nat :=
  upperSpans.flatMap (fun s => s.codesFrom (s.first + s.shift).toNat) ++
    upperExpansions.flatMap Prod.snd

/-- No upper case of the tables is moved again, nor is a blank or a digit. -/
theorem unmoved_bits :
    bitsOf (raisedCodes ++ (blankCodes ++ digitCodes)) &&& bitsOf movedCodes = 0 := by
  decide +kernel

theorem CaseSpan.mem_codesFrom {s : CaseSpan} {n : Nat} (h : s.covers n = true) (start : Nat) :
    start + (n - s.first) ∈ s.codesFrom start := by
  simp only [covers, Bool.and_eq_true, decide_eq_true_eq, beq_iff_eq] at h
  obtain ⟨⟨hfirst, hlast⟩, hstride⟩ := h
  have hmultiple : (n - s.first) / s.stride * s.stride = n - s.first := by
    have := Nat.div_add_mod' (n - s.first) s.stride
    omega
  have hle : (n - s.first) / s.stride ≤ (s.last - s.first) / s.stride :=
    Nat.div_le_div_right (by omega)
  refine List.mem_map.mpr ⟨_, List.mem_range.mpr (Nat.lt_succ_of_le hle), ?_⟩
  rw [hmultiple]

/-- What is in neither table, and is no small letter, is its own upper case. -/
theorem upperOf_eq_self {c : Char} (h : c.toNat ∈ raisedCodes ++ (blankCodes ++ digitCodes))
    (hsmall : c.toNat < 0x61 ∨ 0x7A < c.toNat) : upperOf c = [c] := by
  have hunmoved : c.toNat ∉ movedCodes := not_mem_of_bitsOf unmoved_bits h
  have hfind : upperSpans.find? (·.covers c.toNat) = none := by
    rw [List.find?_eq_none]
    intro s hs hcovers
    have hmem := CaseSpan.mem_codesFrom hcovers s.first
    have hbounds := hcovers
    simp only [CaseSpan.covers, Bool.and_eq_true, decide_eq_true_eq] at hbounds
    rw [Nat.add_sub_cancel' hbounds.1.1] at hmem
    exact hunmoved (List.mem_append_left _ (List.mem_flatMap.mpr ⟨s, hs, hmem⟩))
  have hlookup : upperExpansions.lookup c.toNat = none := by
    rw [List.lookup_eq_none_iff]
    intro e he
    rw [bne_iff_ne]
    intro hcode
    exact hunmoved (List.mem_append_right _ (List.mem_map.mpr ⟨e, he, hcode.symm⟩))
  unfold upperOf
  rw [hfind, hlookup, toUpper_eq_self hsmall]
  exact ite_self _

/-- The tables lead to letters, and to no small ones. -/
theorem raised_range {n : Nat} (h : n ∈ raisedCodes) : 0x41 ≤ n ∧
    (n < 0xD800 ∨ 0xE000 ≤ n ∧ n < 0x110000) ∧ (n < 0x61 ∨ 0x7A < n) := by
  have hall : raisedCodes.all (fun n => Nat.ble 0x41 n &&
      (Nat.blt n 0xD800 || Nat.ble 0xE000 n && Nat.blt n 0x110000) &&
      (Nat.blt n 0x61 || Nat.blt 0x7A n)) = true := by decide +kernel
  have hn := List.all_eq_true.mp hall n h
  simp only [Bool.and_eq_true, Bool.or_eq_true, Nat.ble_eq, Nat.blt_eq] at hn
  exact and_assoc.mp hn

theorem upperOf_ofNat {n : Nat} (h : n ∈ raisedCodes) :
    upperOf (Char.ofNat n) = [Char.ofNat n] ∧ 0x41 ≤ (Char.ofNat n).toNat := by
  obtain ⟨hlow, hvalid, hsmall⟩ := raised_range h
  rw [← toNat_ofNat hvalid] at hlow hsmall h
  exact ⟨upperOf_eq_self (List.mem_append_left _ h) hsmall, hlow⟩

/-- What a span covers is moved as far as its first code point. -/
theorem CaseSpan.mem_raisedCodes {s : CaseSpan} (hs : s ∈ upperSpans) {n : Nat}
    (hn : s.covers n = true) : (n + s.shift).toNat ∈ raisedCodes := by
  have hraised (n : Nat) (hn : s.covers n = true) :
      (s.first + s.shift).toNat + (n - s.first) ∈ raisedCodes :=
    List.mem_append_left _ (List.mem_flatMap.mpr ⟨s, hs, CaseSpan.mem_codesFrom hn _⟩)
  have hbounds := hn
  simp only [covers, Bool.and_eq_true, decide_eq_true_eq] at hbounds
  have hfirst : s.covers s.first = true := by
    simp only [covers, Nat.sub_self, Nat.zero_mod, Bool.and_eq_true, decide_eq_true_eq]
    exact ⟨⟨le_rfl, by omega⟩, rfl⟩
  have hlow := (raised_range (hraised _ hfirst)).1
  have hmove : (s.first + s.shift).toNat + (n - s.first) = (n + s.shift).toNat := by omega
  rw [← hmove]
  exact hraised n hn

theorem upperOf_toUpper_ascii {c : Char} (h : c.toNat < 0x80) :
    upperOf c.toUpper = [c.toUpper] ∧ (c.toUpper = c ∨ 0x41 ≤ c.toUpper.toNat) := by
  have hall : ∀ n < 0x80, upperOf (Char.ofNat n).toUpper = [(Char.ofNat n).toUpper] ∧
      ((Char.ofNat n).toUpper = Char.ofNat n ∨ 0x41 ≤ (Char.ofNat n).toUpper.toNat) := by
    decide +kernel
  have hc := hall _ h
  rwa [Char.ofNat_toNat] at hc

/-- An upper case is its own upper case, and it is a letter if it is another character. -/
theorem mem_upperOf {c d : Char} (h : d ∈ upperOf c) :
    upperOf d = [d] ∧ (d = c ∨ 0x41 ≤ d.toNat) := by
  unfold upperOf at h
  split at h
  next hascii =>
    obtain rfl := List.mem_singleton.mp h
    exact upperOf_toUpper_ascii hascii
  next =>
    split at h
    next s hfind =>
      obtain rfl := List.mem_singleton.mp h
      have hs := List.mem_of_find?_eq_some hfind
      have hcovers := List.find?_some hfind
      exact (upperOf_ofNat (CaseSpan.mem_raisedCodes hs hcovers)).imp_right .inr
    next hfind =>
      split at h
      next codes hlookup =>
        obtain ⟨n, hn, rfl⟩ := List.mem_map.mp h
        obtain ⟨before, after, hexpansions, -⟩ := List.lookup_eq_some_iff.mp hlookup
        have he : (c.toNat, codes) ∈ upperExpansions := by simp [hexpansions]
        have hraised : n ∈ raisedCodes :=
          List.mem_append_right _ (List.mem_flatMap.mpr ⟨_, he, hn⟩)
        exact (upperOf_ofNat hraised).imp_right .inr
      next hlookup =>
        obtain rfl := List.mem_singleton.mp h
        refine ⟨?_, .inl rfl⟩
        unfold upperOf
        rw [if_neg ‹_›, hfind, hlookup]

theorem upper_cons (c : Char) (text : List Char) : upper (c :: text) = upperOf c ++ upper text :=
  List.flatMap_cons

theorem upper_append (before rest : List Char) :
    upper (before ++ rest) = upper before ++ upper rest := List.flatMap_append

/-- A text of characters that are their own upper case is its own upper case. -/
theorem upper_eq_self {text : List Char} (h : ∀ c ∈ text, upperOf c = [c]) : upper text = text := by
  induction text with
  | nil => rfl
  | cons c rest ih =>
    rw [List.forall_mem_cons] at h
    rw [upper_cons, h.1, ih h.2]
    rfl

theorem upper_upper (text : List Char) : upper (upper text) = upper text := by
  apply upper_eq_self
  intro d hd
  obtain ⟨c, -, hc⟩ := List.mem_flatMap.mp hd
  exact (mem_upperOf hc).1

theorem upperOf_toUpper (c : Char) : upperOf c.toUpper = upperOf c := by
  by_cases hc : c.toNat < 0x80
  · rw [(upperOf_toUpper_ascii hc).1, upperOf, if_pos hc]
  · rw [toUpper_eq_self (by omega)]

theorem upper_map_toUpper (text : List Char) : upper (text.map Char.toUpper) = upper text := by
  induction text with
  | nil => rfl
  | cons c rest ih => rw [List.map_cons, upper_cons, upper_cons, upperOf_toUpper, ih]

theorem upperOf_of_isBlank {c : Char} (h : isBlank c = true) : upperOf c = [c] := by
  have hcode := toNat_mem_blankCodes h
  have hall : ∀ n ∈ blankCodes, n < 0x61 ∨ 0x7A < n := by decide
  exact upperOf_eq_self (List.mem_append_right _ (List.mem_append_left _ hcode)) (hall _ hcode)

theorem AllBlank.upper {text : List Char} (h : AllBlank text) : upper text = text :=
  upper_eq_self fun c hc => upperOf_of_isBlank (h c hc)

theorem upperOf_of_isDecimal {c : Char} (h : isDecimal c = true) : upperOf c = [c] := by
  have hcode := toNat_mem_digitCodes h
  have hrange := toNat_of_isDecimal h
  exact upperOf_eq_self (List.mem_append_right _ (List.mem_append_right _ hcode)) (by omega)

end Toolpath
