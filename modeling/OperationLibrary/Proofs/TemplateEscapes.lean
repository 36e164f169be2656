import Mathlib.Logic.Function.Basic
import OperationLibrary.Proofs.TemplateLiteral

/-!
Escapes in template literals. A text that is escaped for a literal has nothing in it that ends the
literal or opens a substitution, whatever backslashes, quotes, dollar signs and braces it is made
of. Reading the literal gives the text back, so no two texts have the same literal.
-/

namespace OperationLibrary.SourceText

/-! ### Escaped places -/

/-- Whether a backslash that is not escaped itself stands at the end of the text, so that what
follows is escaped. -/
def escapesNext (text : List Char) : Bool :=
  text.foldl (fun escaped c => !escaped && c == '\\') false

theorem escapesNext_cons {c : Char} (h : c ≠ '\\') (text : List Char) :
    escapesNext (c :: text) = escapesNext text := by
  have hplain : (c == '\\') = false := beq_false_of_ne h
  rw [escapesNext, List.foldl_cons, hplain]
  rfl

theorem escapesNext_escape (c : Char) (text : List Char) :
    escapesNext ('\\' :: c :: text) = escapesNext text := rfl

/-- What ends a template literal or opens a substitution in it, unless it is escaped. -/
def templateMarks : List (List Char) :=
  [['\x60'], ['$', '\x7b']]

/-- The characters stand in a template literal as a whole: the marks in them are escaped, and the
quote behind them is not. -/
structure IsTemplateBody (body : List Char) : Prop where
  marks_escaped : ∀ mark ∈ templateMarks, ∀ before, before ++ mark <+: body →
    escapesNext before = true
  closing_active : escapesNext body = false

theorem no_mark_in_front {mark body : List Char} {c : Char} (hmark : mark ∈ templateMarks)
    (hquote : c ≠ '\x60') (hopening : c = '$' → '\x7b' ∉ body.head?) : ¬ mark <+: c :: body := by
  rintro ⟨after, hbody⟩
  simp only [templateMarks, List.mem_cons, List.not_mem_nil, or_false] at hmark
  rcases hmark with rfl | rfl
  · exact hquote (List.cons.inj hbody).1.symm
  · obtain ⟨hc, rfl⟩ := List.cons.inj hbody
    exact hopening hc.symm rfl

theorem IsTemplateBody.nil : IsTemplateBody [] where
  marks_escaped mark hmark before hbefore := by
    obtain ⟨-, rfl⟩ := List.append_eq_nil_iff.mp (List.prefix_nil.mp hbefore)
    simp [templateMarks] at hmark
  closing_active := rfl

/-- A character that stands for itself, in front of a body. -/
theorem IsTemplateBody.cons {body : List Char} (h : IsTemplateBody body) {c : Char}
    (hslash : c ≠ '\\') (hquote : c ≠ '\x60') (hopening : c = '$' → '\x7b' ∉ body.head?) :
    IsTemplateBody (c :: body) where
  marks_escaped mark hmark before hbefore := by
    cases before with
    | nil => exact absurd hbefore (no_mark_in_front hmark hquote hopening)
    | cons d before =>
        rw [List.cons_append] at hbefore
        obtain ⟨rfl, hrest⟩ := List.cons_prefix_cons.mp hbefore
        rw [escapesNext_cons hslash]
        exact h.marks_escaped mark hmark before hrest
  closing_active := by rw [escapesNext_cons hslash, h.closing_active]

/-- An escape in front of a body hides the character that it escapes. -/
theorem IsTemplateBody.escape {body : List Char} (h : IsTemplateBody body) (c : Char) :
    IsTemplateBody ('\\' :: c :: body) where
  marks_escaped mark hmark before hbefore := by
    match before with
    | [] => exact absurd hbefore (no_mark_in_front hmark (by decide) (by simp))
    | [d] =>
        rw [List.cons_append] at hbefore
        rw [(List.cons_prefix_cons.mp hbefore).1]
        rfl
    | d :: e :: before =>
        rw [List.cons_append, List.cons_append] at hbefore
        obtain ⟨hd, hbefore⟩ := List.cons_prefix_cons.mp hbefore
        obtain ⟨rfl, hrest⟩ := List.cons_prefix_cons.mp hbefore
        rw [hd, escapesNext_escape]
        exact h.marks_escaped mark hmark before hrest
  closing_active := h.closing_active

theorem isTemplateBody_templateLiteral (text : List Char) :
    IsTemplateBody (templateLiteral text) := by
  fun_induction templateLiteral text with
  | case1 => exact .nil
  | case2 rest ih | case3 rest ih => exact ih.escape _
  | case4 rest ih => exact (ih.cons (by decide) (by decide) (by simp)).escape '$'
  | case5 c rest hslash hquote hopening ih =>
      refine ih.cons hslash hquote ?_
      rintro rfl hbrace
      obtain ⟨more, hmore⟩ := List.head?_eq_some_iff.mp hbrace
      obtain ⟨others, hothers, -⟩ := templateLiteral_eq_cons (by decide) hmore
      exact hopening others rfl hothers

/-! ### Replacements -/

/-- The text with other characters in place of every occurrence of a pattern, from the left on. -/
def replaceAll (pattern others : List Char) : List Char → List Char
  | [] => []
  | c :: rest =>
    if pattern <+: c :: rest then
      others ++ replaceAll pattern others (rest.drop (pattern.length - 1))
    else c :: replaceAll pattern others rest
termination_by text => text.length

theorem replaceAll_append {pattern : List Char} (h : pattern ≠ []) (others rest : List Char) :
    replaceAll pattern others (pattern ++ rest) = others ++ replaceAll pattern others rest := by
  obtain ⟨c, pattern, rfl⟩ := List.exists_cons_of_ne_nil h
  rw [List.cons_append, replaceAll, if_pos ⟨rest, rfl⟩]
  simp

theorem replaceAll_cons {pattern : List Char} {c : Char} {rest : List Char}
    (h : ¬ pattern <+: c :: rest) (others : List Char) :
    replaceAll pattern others (c :: rest) = c :: replaceAll pattern others rest := by
  rw [replaceAll, if_neg h]

/-- Replacing a single character. -/
theorem replaceAll_singleton (d : Char) (others : List Char) (c : Char) (rest : List Char) :
    replaceAll [d] others (c :: rest) =
      (if c = d then others else [c]) ++ replaceAll [d] others rest := by
  split
  case isTrue h =>
    subst h
    exact replaceAll_append (by simp) others rest
  case isFalse h =>
    exact replaceAll_cons (by simpa using Ne.symm h) others

/-- The text after three replacements, each of which meets what the one before it has made. -/
def replaceMarks (text : List Char) : List Char :=
  let slashesEscaped := replaceAll ['\\'] ['\\', '\\'] text
  let quotesEscaped := replaceAll ['\x60'] ['\\', '\x60'] slashesEscaped
  replaceAll ['$', '\x7b'] ['\\', '$', '\x7b'] quotesEscaped

/-- Escaping in one pass makes what the three replacements make. -/
theorem templateLiteral_eq_replaceMarks (text : List Char) :
    templateLiteral text = replaceMarks text := by
  unfold replaceMarks
  have hopen : ∀ rest, replaceAll ['$', '\x7b'] ['\\', '$', '\x7b'] ('$' :: '\x7b' :: rest) =
      '\\' :: '$' :: '\x7b' :: replaceAll ['$', '\x7b'] ['\\', '$', '\x7b'] rest :=
    fun rest => replaceAll_append (by simp) _ rest
  fun_induction templateLiteral text with
  | case1 => simp [replaceAll]
  | case2 rest ih | case3 rest ih => simp [replaceAll_singleton, replaceAll_cons, ih]
  | case4 rest ih => simp [replaceAll_singleton, hopen, ih]
  | case5 c rest hslash hquote hopening ih =>
      let earlier := replaceAll ['\x60'] ['\\', '\x60'] (replaceAll ['\\'] ['\\', '\\'] rest)
      have hplain : ¬ ['$', '\x7b'] <+: c :: earlier := by
        rintro ⟨more, hfront⟩
        obtain ⟨rfl, hmore⟩ := List.cons.inj hfront
        -- the third replacement leaves a brace in front, so that the literal has one there as well
        have hbrace : templateLiteral rest =
            '\x7b' :: replaceAll ['$', '\x7b'] ['\\', '$', '\x7b'] more := by
          rw [ih, ← replaceAll_cons (by simp)]
          exact congrArg _ hmore.symm
        obtain ⟨others, hothers, -⟩ := templateLiteral_eq_cons (by decide) hbrace
        exact hopening others rfl hothers
      have hc : c ≠ '\\' ∧ c ≠ '\x60' := ⟨hslash, hquote⟩
      dsimp only
      rw [replaceAll_singleton, if_neg hc.1, List.singleton_append, replaceAll_singleton,
        if_neg hc.2, List.singleton_append, replaceAll_cons hplain, ih]

/-! ### What is escaped -/

/-- The text with its escapes taken away. -/
def unescaped : List Char → List Char
  | '\\' :: c :: rest => c :: unescaped rest
  | c :: rest => c :: unescaped rest
  | [] => []

theorem unescaped_cons {c : Char} (h : c ≠ '\\') (rest : List Char) :
    unescaped (c :: rest) = c :: unescaped rest := by
  rw [unescaped]
  simp [h]

/-- Line ends of all kinds included, escapes can be taken away again. -/
theorem unescaped_templateLiteral (text : List Char) : unescaped (templateLiteral text) = text := by
  fun_induction templateLiteral text with
  | case1 => rfl
  | case2 rest ih | case3 rest ih => rw [unescaped, ih]
  | case4 rest ih => rw [unescaped, unescaped_cons (by decide), ih]
  | case5 c rest hslash hquote hopening ih => rw [unescaped_cons hslash, ih]

theorem templateLiteralText_injective : Function.Injective templateLiteralText := by
  intro text other h
  have hliterals := String.ofList_injective h
  rw [← String.toList_inj, ← unescaped_templateLiteral text.toList, hliterals,
    unescaped_templateLiteral]

/-- **Texts in template literals are kept as they are.** A text is escaped by replacing its
backslashes, quotes and openings of substitutions. In the result every quote and every opening of a
substitution is escaped, and the quote behind it is not. So if there are no carriage returns in the
text, reading the literal ends at that quote and gives the text. No two texts have the same
literal. -/
theorem template_literals_lossless :
    (∀ text : String,
      (templateLiteralText text).toList = replaceMarks text.toList ∧
        IsTemplateBody (templateLiteralText text).toList) ∧
    (∀ text : String, '\r' ∉ text.toList → ∀ after,
      readTemplate ((templateLiteralText text).toList ++ '\x60' :: after) =
        some (text.toList, after)) ∧
    Function.Injective templateLiteralText := by
  refine ⟨fun text => ?_, fun text hreturn after => ?_, templateLiteralText_injective⟩
  · rw [templateLiteralText, String.toList_ofList]
    exact ⟨templateLiteral_eq_replaceMarks _, isTemplateBody_templateLiteral _⟩
  · rw [templateLiteralText, String.toList_ofList]
    exact readTemplate_templateLiteral _ _ hreturn

/-- A text of backslashes, a quote, dollar signs and braces. -/
def mixedMarks : String := "\\$\x7ba\x7d$$\x7b`\\\\`\\"

/-- The text is read back from its literal, which stands in front of more code. -/
theorem mixedMarks_read :
    '\r' ∉ mixedMarks.toList ∧
      readTemplate ((templateLiteralText mixedMarks).toList ++ '\x60' :: [',', '\n']) =
        some (mixedMarks.toList, [',', '\n']) :=
  ⟨by decide, template_literals_lossless.2.1 mixedMarks (by decide) _⟩

end OperationLibrary.SourceText
