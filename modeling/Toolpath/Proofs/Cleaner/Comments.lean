import Toolpath.Cleaner
import Toolpath.Proofs.Text.UpperCase

/-! # Outside of comments

What is outside of the comments of a text is told piece by piece: of the text before only the number
of its open parentheses matters, and whether a semicolon has ended the line. Characters that are no
marks of a comment stay or go together.
-/
namespace Toolpath

def isMark (c : Char) : Bool := c = ';' || c = '(' || c = ')'

theorem isMark_of_isBlank {c : Char} (h : isBlank c = true) : isMark c = false :=
  forall_isBlank (P := fun c => isMark c = false) (by decide) h

theorem isMark_of_isDecimal {c : Char} (h : isDecimal c = true) : isMark c = false := by
  have hdigit := (toNat_of_isDecimal h).1
  have hmark : ∀ m : Char, m.toNat < 0x30 → c ≠ m := by
    rintro m hm rfl
    omega
  simp only [isMark, Bool.or_eq_false_iff, decide_eq_false_iff_not]
  refine ⟨⟨?_, hmark '(' (by decide)⟩, hmark ')' (by decide)⟩
  rintro rfl
  revert h
  decide

namespace Cleaner

/-- The number of open parentheses behind a text, unless a semicolon outside of them ends the line
in it. -/
def openBehind (depth : Nat) : List Char → Option Nat
  | [] => some depth
  | c :: rest =>
    if c = ';' ∧ depth = 0 then none
    else if c = '(' then openBehind (depth + 1) rest
    else if c = ')' then openBehind (depth - 1) rest
    else openBehind depth rest

theorem outsideComments_append (depth : Nat) (text behind : List Char) :
    outsideComments depth (text ++ behind) =
      outsideComments depth text ++ (openBehind depth text).elim [] (outsideComments · behind) := by
  fun_induction outsideComments depth text <;> simp_all [outsideComments, openBehind]

theorem outsideComments_plain (depth : Nat) {before : List Char}
    (h : ∀ c ∈ before, isMark c = false) (rest : List Char) :
    outsideComments depth (before ++ rest) =
      (if depth = 0 then before else []) ++ outsideComments depth rest := by
  induction before with
  | nil => simp
  | cons c before ih =>
    obtain ⟨hc, hbefore⟩ := List.forall_mem_cons.mp h
    simp only [isMark, Bool.or_eq_false_iff, decide_eq_false_iff_not] at hc
    obtain ⟨⟨hremark, hopen⟩, hclose⟩ := hc
    rw [List.cons_append, outsideComments, ih hbefore]
    by_cases hd : depth = 0
    · subst hd
      simp [hremark, hopen, ih hbefore]
    · simp [hremark, hopen, hclose, hd]

/-- Nothing that begins a comment is left outside of them, and only a space is new. -/
theorem mem_outsideComments {depth : Nat} {text : List Char} :
    ∀ c ∈ outsideComments depth text, (c ≠ '(' ∧ c ≠ ';') ∧ (c = ' ' ∨ c ∈ text) := by
  fun_induction outsideComments depth text
  case case1 | case2 => exact List.forall_mem_nil _
  case case3 ih | case5 ih | case7 ih =>
    intro c hc
    exact (ih c hc).imp_right (Or.imp_right (List.mem_cons_of_mem _))
  case case4 ih =>
    intro c hc
    rcases List.mem_cons.mp hc with rfl | hc
    · exact ⟨by decide, .inl rfl⟩
    · exact (ih c hc).imp_right (Or.imp_right (List.mem_cons_of_mem _))
  case case6 hopen hremark _ ih =>
    intro c hc
    rcases List.mem_cons.mp hc with rfl | hc
    · exact ⟨⟨hopen, fun h => hremark ⟨h, rfl⟩⟩, .inr List.mem_cons_self⟩
    · exact (ih c hc).imp_right (Or.imp_right (List.mem_cons_of_mem _))

theorem outsideComments_eq_self {text : List Char} (h : ∀ c ∈ text, c ≠ '(' ∧ c ≠ ';') :
    outsideComments 0 text = text := by
  induction text with
  | nil => rfl
  | cons c rest ih =>
    obtain ⟨⟨hopen, hremark⟩, hrest⟩ := List.forall_mem_cons.mp h
    simp [outsideComments, hopen, hremark, ih hrest]

/-- Blanks around a text stay around what is outside of its comments, unless a comment swallows
those behind it. -/
theorem outsideComments_padded {before behind : List Char} (hbefore : AllBlank before)
    (hbehind : AllBlank behind) (text : List Char) : ∃ rest, AllBlank rest ∧
      outsideComments 0 (before ++ text ++ behind) = before ++ outsideComments 0 text ++ rest := by
  have hfront := outsideComments_plain 0 (fun c hc => isMark_of_isBlank (hbefore c hc)) text
  refine ⟨(openBehind 0 (before ++ text)).elim [] (outsideComments · behind), ?_, ?_⟩
  · cases openBehind 0 (before ++ text) with
    -- Behind a semicolon nothing is left.
    | none => exact allBlank_nil
    | some depth =>
      have hplain := outsideComments_plain depth (fun c hc => isMark_of_isBlank (hbehind c hc)) []
      rw [List.append_nil] at hplain
      rw [Option.elim_some, hplain]
      intro c hc
      have hc : c ∈ behind := by
        split at hc <;> simp_all [outsideComments]
      exact hbehind c hc
  · rw [outsideComments_append, hfront, if_pos rfl]

/-- Where no first part of a text closes the open parentheses, all of it is in comments. -/
theorem outsideComments_eq_nil {depth : Nat} {text : List Char}
    (h : ∀ before, before <+: text → openBehind depth before ≠ some 0) :
    outsideComments depth text = [] := by
  fun_induction outsideComments depth text with
  | case1 => rfl
  | case2 => rfl
  | case3 depth rest _ ih =>
    apply ih
    intro before hbefore
    exact h _ (List.cons_prefix_cons.mpr ⟨rfl, hbefore⟩)
  | case4 c rest _ _ hc _ =>
    obtain ⟨rfl, -⟩ := hc
    exact absurd rfl (h [')'] (List.cons_prefix_cons.mpr ⟨rfl, List.nil_prefix⟩))
  | case5 depth c rest hremark hopen hc _ ih =>
    obtain ⟨rfl, hdepth⟩ := hc
    apply ih
    intro before hbefore
    have := h _ (List.cons_prefix_cons.mpr ⟨rfl, hbefore⟩)
    simpa [openBehind] using this
  | case6 => exact absurd rfl (h [] List.nil_prefix)
  | case7 depth c rest hremark hopen hclose hdepth ih =>
    apply ih
    intro before hbefore
    have := h _ (List.cons_prefix_cons.mpr ⟨rfl, hbefore⟩)
    have hc : c ≠ ')' := fun hc => hclose ⟨hc, by omega⟩
    simpa [openBehind, hdepth, hopen, hc] using this

/-- Whether a text closes all parentheses that a line leaves open, so that the line goes on. -/
def Reopens (line text : List Char) : Prop :=
  ∃ depth before, openBehind 0 line = some depth ∧ 0 < depth ∧ before <+: text ∧
    openBehind depth before = some 0

theorem le_of_openBehind {depth depth' : Nat} {text : List Char} (hclose : ')' ∉ text)
    (h : openBehind depth text = some depth') : depth ≤ depth' := by
  induction text generalizing depth with
  | nil => exact (Option.some_inj.mp h).le
  | cons c rest ih =>
    obtain ⟨hc, hrest⟩ := not_or.mp (mt List.mem_cons.mpr hclose)
    unfold openBehind at h
    rw [if_neg (Ne.symm hc)] at h
    split_ifs at h
    · exact (Nat.le_succ depth).trans (ih hrest h)
    · exact ih hrest h

/-- A remark without closing parentheses can be made behind every line. -/
theorem not_reopens {text : List Char} (h : ')' ∉ text) (line : List Char) :
    ¬ Reopens line text := by
  rintro ⟨depth, before, -, hdepth, hbefore, hzero⟩
  have := le_of_openBehind (fun hmem => h (hbefore.subset hmem)) hzero
  omega

theorem outsideComments_remark {line text : List Char} (h : ¬ Reopens line text) :
    outsideComments 0 (line ++ ';' :: text) = outsideComments 0 line := by
  have hnothing : (openBehind 0 line).elim []
      (outsideComments · (';' :: text)) = [] := by
    rcases hopen : openBehind 0 line with _ | depth
    · rfl
    · rcases Nat.eq_zero_or_pos depth with rfl | hdepth
      · rfl
      · have hclosed : outsideComments depth text = [] := by
          apply outsideComments_eq_nil
          intro before hbefore hzero
          exact h ⟨depth, before, hopen, hdepth, hbefore, hzero⟩
        rw [Option.elim_some, outsideComments]
        simp [hdepth.ne', hclosed]
  rw [outsideComments_append, hnothing, List.append_nil]

theorem isMark_of_mem_upperOf {c d : Char} (hc : isMark c = false) (hd : d ∈ upperOf c) :
    isMark d = false := by
  rcases (mem_upperOf hd).2 with rfl | hletter
  · exact hc
  · have hmark : ∀ m : Char, m.toNat < 0x41 → d ≠ m := by
      rintro m hm rfl
      omega
    simp [isMark, hmark ';' (by decide), hmark '(' (by decide), hmark ')' (by decide)]

/-- Raising the case neither makes a mark nor removes one. -/
theorem outsideComments_upper (depth : Nat) (text : List Char) :
    outsideComments depth (upper text) = upper (outsideComments depth text) := by
  induction text generalizing depth with
  | nil => rfl
  | cons c rest ih =>
    rw [upper_cons]
    -- A mark is its own upper case, and of what is none nothing becomes one.
    by_cases hc : isMark c = true
    · have hself : upperOf c = [c] := by
        simp only [isMark, Bool.or_eq_true, decide_eq_true_eq] at hc
        rcases hc with (rfl | rfl) | rfl <;> rfl
      have hspace : upperOf ' ' = [' '] := rfl
      rw [hself, List.singleton_append, outsideComments, outsideComments]
      simp only [ih]
      split_ifs <;> simp [upper_cons, hself, hspace]
      rfl
    · have hplain := Bool.eq_false_iff.mpr hc
      have hraised :=
        outsideComments_plain depth (fun d => isMark_of_mem_upperOf hplain) (upper rest)
      have hlower := outsideComments_plain depth (List.forall_mem_singleton.mpr hplain) rest
      rw [List.singleton_append] at hlower
      rw [hraised, hlower, ih, upper_append]
      split
      · simp [upper]
      · rfl

end Cleaner
end Toolpath
