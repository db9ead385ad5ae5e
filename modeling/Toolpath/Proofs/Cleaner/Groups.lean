import Toolpath.Proofs.Cleaner.Comments

/-! # Groups in parentheses

`Leaves` is the grammar of comments: a group is a text with matched parentheses between two of its
own, a space is left in its place, and an opening parenthesis that no group begins with takes the
rest of the text. The cleaner counts open parentheses instead, and comes to the same.
-/
namespace Toolpath
namespace Cleaner

/-- A text in which every parenthesis has its partner, as the inside of a group is. -/
inductive Matched : List Char → Prop where
  | nil : Matched []
  | plain {c : Char} {rest : List Char} (ne_open : c ≠ '(') (ne_close : c ≠ ')')
      (behind : Matched rest) : Matched (c :: rest)
  | group {inside rest : List Char} (within : Matched inside) (behind : Matched rest) :
      Matched ('(' :: (inside ++ ')' :: rest))

inductive Leaves : List Char → List Char → Prop where
  | nothing : Leaves [] []
  | remark (rest : List Char) : Leaves (';' :: rest) []
  | group {inside rest left : List Char} (within : Matched inside) (behind : Leaves rest left) :
      Leaves ('(' :: (inside ++ ')' :: rest)) (' ' :: left)
  | unclosed {rest : List Char}
      (unclosed : ∀ inside behind, Matched inside → rest ≠ inside ++ ')' :: behind) :
      Leaves ('(' :: rest) []
  | plain {c : Char} {rest left : List Char} (ne_remark : c ≠ ';') (ne_open : c ≠ '(')
      (behind : Leaves rest left) : Leaves (c :: rest) (c :: left)

/-- The inside of a group neither closes the group nor leaves one open in it. -/
theorem Matched.openBehind_append {inside : List Char} (h : Matched inside) (depth : ℕ)
    (behind : List Char) :
    openBehind (depth + 1) (inside ++ behind) = openBehind (depth + 1) behind := by
  induction h generalizing depth behind with
  | nil => rfl
  | plain ne_open ne_close _ ih => simp [openBehind, ne_open, ne_close, ih]
  | group _ _ ih_within ih_behind => simp [openBehind, ih_within, ih_behind]

theorem Matched.outsideComments_append {inside : List Char} (h : Matched inside) (depth : ℕ)
    (behind : List Char) :
    outsideComments (depth + 1) (inside ++ behind) = outsideComments (depth + 1) behind := by
  induction h generalizing depth behind with
  | nil => rfl
  | plain ne_open ne_close _ ih => simp [outsideComments, ne_open, ne_close, ih]
  | group _ _ ih_within ih_behind => simp [outsideComments, ih_within, ih_behind]

/-- A text behind which fewer parentheses are open closes the innermost of those open before it. -/
theorem exists_matched {depth depth' : ℕ} {text : List Char}
    (h : openBehind (depth + 1) text = some depth') (hle : depth' ≤ depth) :
    ∃ inside behind, Matched inside ∧ text = inside ++ ')' :: behind := by
  match text with
  | [] =>
    have := Option.some.inj h
    omega
  | c :: rest =>
    by_cases hopen : c = '('
    · -- The group that begins here is closed first, and what is behind it closes the outer one.
      subst hopen
      have hrest : openBehind (depth + 1 + 1) rest = some depth' := by simpa [openBehind] using h
      obtain ⟨inside, behind, hinside, rfl⟩ := exists_matched hrest (by omega)
      rw [hinside.openBehind_append] at hrest
      have hbehind : openBehind (depth + 1) behind = some depth' := by
        simpa [openBehind] using hrest
      obtain ⟨inside', behind', hinside', rfl⟩ := exists_matched hbehind hle
      exact ⟨'(' :: (inside ++ ')' :: inside'), behind', .group hinside hinside', by simp⟩
    · by_cases hclose : c = ')'
      · exact ⟨[], rest, .nil, by simp [hclose]⟩
      · have hrest : openBehind (depth + 1) rest = some depth' := by
          simpa [openBehind, hopen, hclose] using h
        obtain ⟨inside, behind, hinside, rfl⟩ := exists_matched hrest hle
        exact ⟨c :: inside, behind, .plain hopen hclose hinside, rfl⟩
termination_by text.length

theorem outsideComments_unclosed {rest : List Char}
    (h : ∀ inside behind, Matched inside → rest ≠ inside ++ ')' :: behind) :
    outsideComments 1 rest = [] := by
  apply outsideComments_eq_nil
  rintro before ⟨more, rfl⟩ hzero
  have hclosed : openBehind (0 + 1) before = some 0 := hzero
  obtain ⟨inside, behind, hinside, rfl⟩ := exists_matched hclosed le_rfl
  exact h inside (behind ++ more) hinside (by simp)

theorem leaves_outsideComments (text : List Char) : Leaves text (outsideComments 0 text) := by
  match text with
  | [] => exact .nothing
  | c :: rest =>
    by_cases hremark : c = ';'
    · subst hremark
      exact .remark rest
    · by_cases hopen : c = '('
      · subst hopen
        have hstep : outsideComments 0 ('(' :: rest) = outsideComments 1 rest := rfl
        by_cases hgroup : ∃ inside behind, Matched inside ∧ rest = inside ++ ')' :: behind
        · obtain ⟨inside, behind, hinside, rfl⟩ := hgroup
          rw [hstep, hinside.outsideComments_append 0]
          exact .group hinside (leaves_outsideComments behind)
        · have hunclosed : ∀ inside behind, Matched inside → rest ≠ inside ++ ')' :: behind :=
            fun inside behind hinside hrest => hgroup ⟨inside, behind, hinside, hrest⟩
          rw [hstep, outsideComments_unclosed hunclosed]
          exact .unclosed hunclosed
      · have hstep : outsideComments 0 (c :: rest) = c :: outsideComments 0 rest := by
          simp [outsideComments, hremark, hopen]
        rw [hstep]
        exact .plain hremark hopen (leaves_outsideComments rest)
termination_by text.length

theorem leaves_iff {text left : List Char} : Leaves text left ↔ left = outsideComments 0 text := by
  constructor
  · intro h
    induction h with
    | nothing => rfl
    | remark rest => rfl
    | group within _ ih =>
      change _ = outsideComments 1 _
      rw [within.outsideComments_append 0, ih]
      rfl
    | unclosed unclosed => exact (outsideComments_unclosed unclosed).symm
    | plain ne_remark ne_open _ ih => simp [outsideComments, ne_remark, ne_open, ← ih]
  · rintro rfl
    exact leaves_outsideComments text

/-- Cleaning leaves what the grammar of comments leaves, trimmed, and drops the line if that is
blank. No comment begins in the result, so cleaning it again changes nothing. -/
theorem comment_clean (text : List Char) : ∃ left, (∀ other, Leaves text other ↔ other = left) ∧
    (comment.clean text = none ↔ AllBlank left) ∧
    ∀ result, (comment.clean text = some result ↔ Trimmed left result) ∧
      (comment.clean text = some result →
        '(' ∉ result ∧ ';' ∉ result ∧ comment.clean result = some result) := by
  refine ⟨outsideComments 0 text, fun other => leaves_iff, trim?_eq_none_iff _, fun result => ?_⟩
  refine ⟨trim?_eq_some_iff_trimmed, fun h => ?_⟩
  obtain ⟨hresult, hne⟩ := (trim?_eq_some _).mp h
  have hmarks : ∀ c ∈ result, c ≠ '(' ∧ c ≠ ';' := by
    rw [hresult]
    intro c hc
    exact (mem_outsideComments c (mem_of_mem_trim hc)).1
  refine ⟨fun hc => (hmarks _ hc).1 rfl, fun hc => (hmarks _ hc).2 rfl, ?_⟩
  have htrimmed := trim?_eq_some_iff_trimmed.mp h
  change trim? (outsideComments 0 result) = some result
  rw [outsideComments_eq_self hmarks, trim?_eq_some_iff_trimmed]
  exact { htrimmed with padded := ⟨[], [], allBlank_nil, allBlank_nil, by simp⟩ }

example : comment.clean "X1(A;(B))Y2)(C;D".toList = some "X1 Y2)".toList := by decide

end Cleaner
end Toolpath
