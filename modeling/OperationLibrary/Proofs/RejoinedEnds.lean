import OperationLibrary.Proofs.ModuleCode

/-!
Comment ends that come back. The body of a comment is a text without its comment ends, but what
stood around them moves together: an asterisk, comment ends and a slash in a row become a comment
end again. Nothing else does, and the margins of further lines make no comment end either.
-/

namespace OperationLibrary

open SourceText

/-! ### Where comments end -/

def commentEnd : List Char := ['*', '/']

theorem unclosed_cons_iff {c : Char} {text : List Char} :
    Unclosed (c :: text) ↔ ¬ commentEnd <+: c :: text ∧ Unclosed text := by
  rw [Unclosed, List.isChain_cons, ← Unclosed]
  refine and_congr_left fun _ => ?_
  rw [commentEnd, List.cons_prefix_cons]
  cases text with
  | nil => simp
  | cons d text => simp [List.cons_prefix_cons, eq_comm]

theorem unclosed_iff_not_infix {text : List Char} : Unclosed text ↔ ¬ commentEnd <:+: text := by
  induction text with
  | nil => simp [Unclosed, commentEnd]
  | cons c text ih => rw [unclosed_cons_iff, List.infix_cons_iff, not_or, ih]

/-- A comment with these characters inside goes up to its own end, whatever stands behind it. -/
def EndsItself (inside : List Char) : Prop :=
  ∀ rest, behindCommentEnd (inside ++ (commentEnd ++ rest)) = rest

theorem behindCommentEnd_cons {c : Char} {text : List Char} (h : ¬ commentEnd <+: c :: text) :
    behindCommentEnd (c :: text) = behindCommentEnd text := by
  rw [behindCommentEnd]
  rintro rest rfl rfl
  exact h ⟨rest, rfl⟩

theorem endsItself_iff_unclosed {inside : List Char} : EndsItself inside ↔ Unclosed inside := by
  refine ⟨fun h => ?_, fun h rest => behindCommentEnd_append h rest⟩
  have hends := h []
  clear h
  induction inside with
  | nil => exact List.IsChain.nil
  | cons c inside ih =>
      by_cases hend : commentEnd <+: c :: inside
      · -- what stands behind an earlier end is longer than what should be left
        obtain ⟨more, hmore⟩ := hend
        rw [← hmore, List.append_assoc] at hends
        have hlength := congrArg List.length hends
        simp [commentEnd, behindCommentEnd] at hlength
      · have hfront : ¬ commentEnd <+: c :: (inside ++ commentEnd) := by
          cases inside with
          | nil => simp [commentEnd]
          | cons d inside => simpa [commentEnd, List.cons_prefix_cons] using hend
        rw [List.append_nil, List.cons_append, behindCommentEnd_cons hfront] at hends
        exact unclosed_cons_iff.mpr ⟨hend, ih (by rwa [List.append_nil])⟩

/-! ### Dropping comment ends -/

/-- Some comment ends in a row. -/
def endsInRow (n : Nat) : List Char :=
  (List.replicate n commentEnd).flatten

theorem endsInRow_succ (n : Nat) : endsInRow (n + 1) = '*' :: '/' :: endsInRow n := by
  rw [endsInRow, List.replicate_succ, List.flatten_cons]
  rfl

/-- An asterisk, comment ends and a slash stand in a row somewhere in the text. -/
def RejoinsEnd (text : List Char) : Prop :=
  ∃ n, '*' :: (endsInRow (n + 1) ++ ['/']) <:+: text

/-- A slash comes to the front if there are only comment ends in front of it. -/
theorem head?_dropCommentEnds_eq_slash {text : List Char} :
    (dropCommentEnds text).head? = some '/' ↔ ∃ n, endsInRow n ++ ['/'] <+: text := by
  fun_induction dropCommentEnds text with
  | case1 rest ih =>
      rw [ih]
      constructor
      · rintro ⟨n, hn⟩
        refine ⟨n + 1, ?_⟩
        rw [endsInRow_succ]
        exact List.cons_prefix_cons.mpr ⟨rfl, List.cons_prefix_cons.mpr ⟨rfl, hn⟩⟩
      · rintro ⟨n, hn⟩
        cases n with
        | zero => simp [endsInRow] at hn
        | succ n =>
            rw [endsInRow_succ] at hn
            exact ⟨n, (List.cons_prefix_cons.mp (List.cons_prefix_cons.mp hn).2).2⟩
  | case2 c rest hplain ih =>
      rw [List.head?_cons, Option.some.injEq]
      constructor
      · rintro rfl
        exact ⟨0, rest, rfl⟩
      · rintro ⟨n, hn⟩
        cases n with
        | zero => exact (List.cons_prefix_cons.mp hn).1.symm
        | succ n =>
            rw [endsInRow_succ] at hn
            -- a comment end in front would have been dropped
            obtain ⟨rfl, more, hmore⟩ := List.cons_prefix_cons.mp hn
            exact (hplain _ rfl hmore.symm).elim
  | case3 => simp [endsInRow]

theorem rejoinsEnd_cons_iff {c : Char} {text : List Char} :
    RejoinsEnd (c :: text) ↔
      (c = '*' ∧ ∃ n, endsInRow (n + 1) ++ ['/'] <+: text) ∨ RejoinsEnd text := by
  simp only [RejoinsEnd, List.infix_cons_iff, List.cons_prefix_cons, exists_or, eq_comm (a := c),
    exists_and_left]

/-- Dropping comment ends leaves one exactly where one is put together by it. -/
theorem commentEnd_infix_dropCommentEnds_iff {text : List Char} :
    commentEnd <:+: dropCommentEnds text ↔ RejoinsEnd text := by
  fun_induction dropCommentEnds text with
  | case1 rest ih =>
      have hslash : ∀ n, ¬ endsInRow (n + 1) ++ ['/'] <+: '/' :: rest := fun n h => by
        simp [endsInRow_succ, List.cons_prefix_cons] at h
      simp [ih, rejoinsEnd_cons_iff, hslash]
  | case2 c rest hplain ih =>
      have hfront : ['/'] <+: dropCommentEnds rest ↔ (dropCommentEnds rest).head? = some '/' := by
        rw [List.head?_eq_some_iff]
        exact exists_congr fun _ => eq_comm
      rw [List.infix_cons_iff, ih, rejoinsEnd_cons_iff, commentEnd, List.cons_prefix_cons, hfront,
        head?_dropCommentEnds_eq_slash, eq_comm]
      refine or_congr_left (and_congr_right fun hc => ⟨fun ⟨n, hn⟩ => ?_, fun ⟨n, hn⟩ => ⟨_, hn⟩⟩)
      cases n with
      | zero =>
          obtain ⟨more, hmore⟩ := hn
          exact (hplain more hc hmore.symm).elim
      | succ n => exact ⟨n, hn⟩
  | case3 => simp [RejoinsEnd, commentEnd]

/-! ### Further lines -/

/-- The text with a margin in front of every further line. -/
def withMargins (text : List Char) : List Char :=
  text.flatMap fun c => if c = '\n' then ['\n', ' ', '*', ' '] else [c]

theorem toList_commentBody (text : String) :
    (commentBody text).toList = withMargins (dropCommentEnds text.toList) :=
  String.toList_ofList

theorem head?_withMargins (text : List Char) : (withMargins text).head? = text.head? := by
  cases text with
  | nil => rfl
  | cons c text =>
      rw [withMargins, List.flatMap_cons]
      split
      case isTrue h => rw [h]; rfl
      case isFalse => rfl

/-- The asterisks of margins have blanks behind them. -/
theorem unclosed_withMargins {text : List Char} : Unclosed (withMargins text) ↔ Unclosed text := by
  induction text with
  | nil => rfl
  | cons c text ih =>
      have hhead := head?_withMargins text
      unfold Unclosed at ih ⊢
      rw [withMargins, List.flatMap_cons, ← withMargins, List.isChain_cons, ← ih, ← hhead]
      split
      case isTrue h => simp [h, List.isChain_cons]
      case isFalse h => rw [List.singleton_append, List.isChain_cons]

/-- **What is left of comment ends.** The body of a comment for a text has a comment end in it if
and only if an asterisk, comment ends and a slash stand in a row in the text. -/
theorem unclosed_commentBody_iff {text : String} :
    Unclosed (commentBody text).toList ↔ ¬ RejoinsEnd text.toList := by
  rw [toList_commentBody, unclosed_withMargins, unclosed_iff_not_infix,
    commentEnd_infix_dropCommentEnds_iff]

end OperationLibrary
