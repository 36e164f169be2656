import OperationLibrary.Library.SourceText
import OperationLibrary.Text.Lines

/-!
Template literals and blank lines. A text that is escaped for a template literal is what the literal
stands for, and ends where the literal ends. Shrinking runs of line feeds does not see escapes, so
it makes of the literal for a text the literal for the shrunk text; it leaves a text alone exactly
if no three line feeds are in a row in it.
-/

namespace OperationLibrary

open SourceText Text

/-! ### Reading a template literal -/

namespace SourceText

/-- The characters a template literal may have behind a backslash for themselves. -/
def isTemplateEscape (c : Char) : Bool :=
  c == '\\' || c == '\x60' || c == '$'

/-- Reads a template literal whose opening quote is gone: the text it stands for, and what follows
the closing quote. Substitutions are not read, and neither are carriage returns, which do not stand
for themselves. -/
def readTemplate : List Char → Option (List Char × List Char)
  | [] => none
  | '\x60' :: rest => some ([], rest)
  | '$' :: '\x7b' :: _ => none
  | '\\' :: c :: rest =>
    if isTemplateEscape c then (readTemplate rest).map fun (text, after) => (c :: text, after)
    else none
  | '\r' :: _ => none
  | c :: rest => (readTemplate rest).map fun (text, after) => (c :: text, after)

/-- A character with no part in the syntax of template literals stands for itself. -/
theorem readTemplate_cons {c : Char} {rest : List Char} (hquote : c ≠ '\x60') (hslash : c ≠ '\\')
    (hreturn : c ≠ '\r') (hdollar : ∀ more, c = '$' → rest ≠ '\x7b' :: more) :
    readTemplate (c :: rest) = (readTemplate rest).map fun (text, after) => (c :: text, after) := by
  rw [readTemplate] <;> simp_all

theorem readTemplate_escape {c : Char} (h : isTemplateEscape c = true) (rest : List Char) :
    readTemplate ('\\' :: c :: rest) =
      (readTemplate rest).map fun (text, after) => (c :: text, after) := by
  rw [readTemplate, if_pos h]

/-- Escapes start with a backslash, and everything else stands where it stood. -/
theorem templateLiteral_eq_cons {text rest : List Char} {c : Char} (hslash : c ≠ '\\')
    (h : templateLiteral text = c :: rest) :
    ∃ more, text = c :: more ∧ rest = templateLiteral more := by
  revert h
  fun_cases templateLiteral text with
  | case1 => simp
  | case2 | case3 | case4 => simp [hslash.symm]
  | case5 d more => rintro ⟨⟩; exact ⟨more, rfl, rfl⟩

/-- The literal for a text stands for the text. -/
theorem readTemplate_templateLiteral (text rest : List Char) (hreturn : '\r' ∉ text) :
    readTemplate (templateLiteral text ++ '\x60' :: rest) = some (text, rest) := by
  fun_induction templateLiteral text with
  | case1 => rw [List.nil_append, readTemplate]
  | case2 text ih =>
      rw [List.cons_append, List.cons_append, readTemplate_escape rfl, ih (by simp_all)]
      rfl
  | case3 text ih =>
      rw [List.cons_append, List.cons_append, readTemplate_escape rfl, ih (by simp_all)]
      rfl
  | case4 text ih =>
      -- the brace behind the escaped dollar sign stands for itself
      rw [List.cons_append, List.cons_append, readTemplate_escape rfl, List.cons_append,
        readTemplate_cons (by decide) (by decide) (by decide) (by simp), ih (by simp_all)]
      rfl
  | case5 c text hslash hquote hdollar ih =>
      rw [List.mem_cons, not_or] at hreturn
      rw [List.cons_append, readTemplate_cons (by simpa using hquote) (by simpa using hslash)
        (Ne.symm hreturn.1) ?_, ih hreturn.2]
      · rfl
      · intro more hc hopen
        cases htext : templateLiteral text with
        | nil => simp [htext] at hopen
        | cons d others =>
            obtain ⟨rfl, -⟩ := List.cons.inj (htext ▸ hopen)
            obtain ⟨rest, hrest, -⟩ := templateLiteral_eq_cons (by decide) htext
            exact hdollar rest hc hrest

end SourceText

/-! ### Runs of line feeds -/

namespace Text

/-- Three line feeds in a row. -/
def tripleFeed : List Char := ['\n', '\n', '\n']

theorem collapseBlankLines_cons {c : Char} {rest : List Char}
    (h : ¬ tripleFeed <+: c :: rest) :
    collapseBlankLines (c :: rest) = c :: collapseBlankLines rest := by
  rw [collapseBlankLines]
  rintro more rfl rfl
  exact h ⟨more, rfl⟩

theorem collapseBlankLines_triple (rest : List Char) :
    collapseBlankLines (tripleFeed ++ rest) = collapseBlankLines ('\n' :: '\n' :: rest) := by
  rw [tripleFeed, List.cons_append, List.cons_append, List.cons_append, List.nil_append,
    collapseBlankLines]

/-- Texts shrink by cases on the run in front of them. -/
theorem collapseBlankLines_induction {P : List Char → Prop} (nil : P [])
    (triple : ∀ rest, P ('\n' :: '\n' :: rest) → P (tripleFeed ++ rest))
    (cons : ∀ c rest, ¬ tripleFeed <+: c :: rest → P rest → P (c :: rest)) (text : List Char) :
    P text := by
  fun_induction collapseBlankLines text with
  | case1 rest ih => exact triple rest ih
  | case2 c rest hrun ih =>
      refine cons c rest ?_ ih
      rintro ⟨more, hmore⟩
      obtain ⟨rfl, rfl⟩ := List.cons.inj hmore
      exact hrun more rfl rfl
  | case3 => exact nil

/-- A character that is no line feed parts the runs before it from those behind it. -/
theorem collapseBlankLines_append_cons {c : Char} (hc : c ≠ '\n') (before after : List Char) :
    collapseBlankLines (before ++ c :: after) =
      collapseBlankLines before ++ c :: collapseBlankLines after := by
  induction before using collapseBlankLines_induction with
  | nil =>
      rw [List.nil_append, collapseBlankLines_cons]
      · rfl
      · rintro ⟨more, hmore⟩
        exact hc (List.cons.inj hmore).1.symm
  | triple rest ih =>
      rw [List.append_assoc, collapseBlankLines_triple, collapseBlankLines_triple]
      exact ih
  | cons d rest hrun ih =>
      rw [List.cons_append, collapseBlankLines_cons, collapseBlankLines_cons hrun, ih]
      · rfl
      · -- the character stands in the way of a run that would reach over it
        rintro ⟨more, hmore⟩
        match rest with
        | [] => exact hc (by simp [tripleFeed] at hmore; exact hmore.2.1.symm)
        | [e] => exact hc (by simp [tripleFeed] at hmore; exact hmore.2.2.1.symm)
        | e :: f :: rest =>
            refine hrun ⟨rest, ?_⟩
            simp only [tripleFeed, List.cons_append, List.cons.injEq, List.nil_append] at hmore ⊢
            exact ⟨hmore.1, hmore.2.1, hmore.2.2.1, trivial⟩

theorem mem_of_mem_collapseBlankLines {c : Char} {text : List Char}
    (h : c ∈ collapseBlankLines text) : c ∈ text := by
  induction text using collapseBlankLines_induction with
  | nil => exact h
  | triple rest ih =>
      rw [collapseBlankLines_triple] at h
      exact List.mem_cons_of_mem _ (ih h)
  | cons d rest hrun ih =>
      rw [collapseBlankLines_cons hrun] at h
      rcases List.mem_cons.mp h with rfl | h
      · exact List.mem_cons_self
      · exact List.mem_cons_of_mem _ (ih h)

theorem length_collapseBlankLines_le (text : List Char) :
    (collapseBlankLines text).length ≤ text.length := by
  induction text using collapseBlankLines_induction with
  | nil => exact Nat.le_refl _
  | triple rest ih =>
      rw [collapseBlankLines_triple]
      exact Nat.le_trans ih (Nat.le_succ _)
  | cons c rest hrun ih =>
      rw [collapseBlankLines_cons hrun]
      exact Nat.succ_le_succ ih

theorem collapseBlankLines_cons_of_ne {c : Char} (hc : c ≠ '\n') (rest : List Char) :
    collapseBlankLines (c :: rest) = c :: collapseBlankLines rest :=
  collapseBlankLines_append_cons hc [] rest

/-- A stretch between two characters that are no line feeds is shrunk on its own. -/
theorem collapseBlankLines_append_enclosed {first last : Char} (hfirst : first ≠ '\n')
    (hlast : last ≠ '\n') (before inner after : List Char) :
    collapseBlankLines (before ++ (first :: inner ++ [last]) ++ after) =
      collapseBlankLines before ++ collapseBlankLines (first :: inner ++ [last]) ++
        collapseBlankLines after := by
  simp only [List.append_assoc, List.cons_append, List.nil_append]
  rw [collapseBlankLines_append_cons hfirst, collapseBlankLines_append_cons hlast,
    collapseBlankLines_cons_of_ne hfirst, collapseBlankLines_append_cons hlast]
  simp only [List.append_assoc, List.cons_append, collapseBlankLines, List.nil_append]

theorem head?_collapseBlankLines (text : List Char) :
    (collapseBlankLines text).head? = text.head? := by
  induction text using collapseBlankLines_induction with
  | nil => rfl
  | triple rest ih =>
      rw [collapseBlankLines_triple]
      exact ih
  | cons c rest hrun _ => rw [collapseBlankLines_cons hrun, List.head?_cons, List.head?_cons]

theorem eq_feed_cons_of_collapseBlankLines {text rest : List Char}
    (h : collapseBlankLines text = '\n' :: rest) : ∃ more, text = '\n' :: more := by
  have hhead := head?_collapseBlankLines text
  rw [h, List.head?_cons, eq_comm, List.head?_eq_some_iff] at hhead
  exact hhead

/-- A text stays as it is exactly if no three line feeds are in a row in it. -/
theorem collapseBlankLines_eq_self_iff (text : List Char) :
    collapseBlankLines text = text ↔ ¬ tripleFeed <:+: text := by
  induction text using collapseBlankLines_induction with
  | nil => simp [collapseBlankLines, tripleFeed]
  | triple rest _ =>
      refine iff_of_false (fun hsame => ?_) (not_not_intro (List.prefix_append _ _).isInfix)
      have hlength := congrArg List.length hsame
      rw [collapseBlankLines_triple] at hlength
      have hle := length_collapseBlankLines_le ('\n' :: '\n' :: rest)
      simp [tripleFeed] at hlength hle
      omega
  | cons c rest hrun ih =>
      rw [collapseBlankLines_cons hrun, List.cons_inj_right, ih, List.infix_cons_iff]
      simp [hrun]

/-- No three line feeds are in a row once runs have been shrunk. -/
theorem not_tripleFeed_infix_collapseBlankLines (text : List Char) :
    ¬ tripleFeed <:+: collapseBlankLines text := by
  induction text using collapseBlankLines_induction with
  | nil => simp [collapseBlankLines, tripleFeed]
  | triple rest ih =>
      rw [collapseBlankLines_triple]
      exact ih
  | cons c rest hrun ih =>
      rw [collapseBlankLines_cons hrun, List.infix_cons_iff, not_or]
      refine ⟨?_, ih⟩
      rintro ⟨more, hmore⟩
      obtain ⟨rfl, hshrunk⟩ := List.cons.inj hmore
      obtain ⟨second, rfl⟩ := eq_feed_cons_of_collapseBlankLines hshrunk.symm
      by_cases hlong : tripleFeed <+: '\n' :: second
      · obtain ⟨others, hothers⟩ := hlong
        rw [← hothers] at hrun
        exact hrun ⟨'\n' :: others, rfl⟩
      · rw [collapseBlankLines_cons hlong] at hshrunk
        obtain ⟨third, rfl⟩ := eq_feed_cons_of_collapseBlankLines (List.cons.inj hshrunk).2.symm
        exact hrun ⟨third, rfl⟩

end Text

namespace SourceText

theorem map_consChar_eq_some {c : Char} {read : Option (List Char × List Char)}
    {text rest : List Char}
    (h : (read.map fun (text, after) => (c :: text, after)) = some (text, rest)) :
    ∃ inner, text = c :: inner ∧ read = some (inner, rest) := by
  obtain ⟨⟨inner, after⟩, hread, hpair⟩ := Option.map_eq_some_iff.mp h
  obtain ⟨rfl, rfl⟩ := Prod.mk.inj hpair
  exact ⟨inner, rfl, hread⟩

/-- A line feed that a literal stands for is written as one. -/
theorem readTemplate_eq_feed_cons {source text rest : List Char}
    (h : readTemplate source = some ('\n' :: text, rest)) :
    ∃ more, source = '\n' :: more ∧ readTemplate more = some (text, rest) := by
  revert h
  fun_cases readTemplate source with
  | case1 | case2 | case3 | case5 | case6 => simp
  | case4 c more hescape =>
      intro h
      obtain ⟨inner, htext, -⟩ := map_consChar_eq_some h
      obtain ⟨rfl, -⟩ := List.cons.inj htext
      exact absurd hescape (by decide)
  | case7 c more =>
      intro h
      obtain ⟨inner, htext, hmore⟩ := map_consChar_eq_some h
      obtain ⟨rfl, rfl⟩ := List.cons.inj htext
      exact ⟨more, rfl, hmore⟩

/-- Line feeds in a row that a literal stands for are in a row in the literal. -/
theorem tripleFeed_infix_of_readTemplate {source text rest : List Char}
    (h : readTemplate source = some (text, rest)) (hrun : tripleFeed <:+: text) :
    tripleFeed <:+: source := by
  fun_induction readTemplate source generalizing text with
  | case1 | case3 | case5 | case6 => simp at h
  | case2 more =>
      obtain ⟨rfl, -⟩ := Prod.mk.inj (Option.some.inj h)
      simp [tripleFeed] at hrun
  | case4 c more hescape ih =>
      obtain ⟨inner, rfl, hmore⟩ := map_consChar_eq_some h
      rcases List.infix_cons_iff.mp hrun with ⟨others, hothers⟩ | hinner
      · obtain ⟨rfl, -⟩ := List.cons.inj hothers
        exact absurd hescape (by decide)
      · exact (ih hmore hinner).trans (List.suffix_append ['\\', c] more).isInfix
  | case7 c more _ _ _ _ ih =>
      obtain ⟨inner, rfl, hmore⟩ := map_consChar_eq_some h
      rcases List.infix_cons_iff.mp hrun with ⟨others, hothers⟩ | hinner
      · -- the run is at the front, so the next two characters are line feeds as well
        obtain ⟨rfl, rfl⟩ := List.cons.inj hothers
        obtain ⟨third, rfl, hthird⟩ := readTemplate_eq_feed_cons hmore
        obtain ⟨rest, rfl, -⟩ := readTemplate_eq_feed_cons hthird
        exact ⟨[], rest, rfl⟩
      · exact (ih hmore hinner).trans (List.suffix_cons c more).isInfix

theorem templateLiteral_brace (text : List Char) :
    templateLiteral ('\x7b' :: text) = '\x7b' :: templateLiteral text := by
  rw [templateLiteral] <;> simp

/-- Escaping moves no line feed, so it does not matter which comes first. -/
theorem collapseBlankLines_templateLiteral (text : List Char) :
    collapseBlankLines (templateLiteral text) = templateLiteral (collapseBlankLines text) := by
  induction text using collapseBlankLines_induction with
  | nil => rfl
  | triple rest ih =>
      rw [collapseBlankLines_triple, ← ih]
      exact collapseBlankLines_triple _
  | cons c rest hrun ih =>
      rw [collapseBlankLines_cons hrun]
      by_cases hslash : c = '\\'
      · subst hslash
        rw [templateLiteral, templateLiteral, ← ih, collapseBlankLines_cons_of_ne (by decide),
          collapseBlankLines_cons_of_ne (by decide)]
      by_cases hquote : c = '\x60'
      · subst hquote
        rw [templateLiteral, templateLiteral, ← ih, collapseBlankLines_cons_of_ne (by decide),
          collapseBlankLines_cons_of_ne (by decide)]
      by_cases hdollar : ∃ more, c = '$' ∧ rest = '\x7b' :: more
      · obtain ⟨more, rfl, rfl⟩ := hdollar
        have hmore : collapseBlankLines (templateLiteral more) =
            templateLiteral (collapseBlankLines more) := by
          rw [templateLiteral_brace, collapseBlankLines_cons_of_ne (by decide),
            collapseBlankLines_cons_of_ne (by decide), templateLiteral_brace] at ih
          exact (List.cons.inj ih).2
        rw [templateLiteral, collapseBlankLines_cons_of_ne (by decide),
          collapseBlankLines_cons_of_ne (by decide), collapseBlankLines_cons_of_ne (by decide),
          hmore, collapseBlankLines_cons_of_ne (by decide), templateLiteral]
      · have hopen : ∀ more, c = '$' → rest ≠ '\x7b' :: more :=
          fun more hc hmore => hdollar ⟨more, hc, hmore⟩
        have hopen' : ∀ more, c = '$' → collapseBlankLines rest ≠ '\x7b' :: more := by
          intro more hc hmore
          have hhead := head?_collapseBlankLines rest
          rw [hmore, List.head?_cons, eq_comm, List.head?_eq_some_iff] at hhead
          exact hdollar ⟨hhead.choose, hc, hhead.choose_spec⟩
        rw [templateLiteral.eq_5 c rest hslash hquote hopen,
          templateLiteral.eq_5 c _ hslash hquote hopen', ← ih, collapseBlankLines_cons]
        -- a run in the literal is a run in the text
        rintro ⟨more, hrest⟩
        obtain ⟨rfl, hsecond⟩ := List.cons.inj hrest
        obtain ⟨second, rfl, hthird⟩ := templateLiteral_eq_cons (by decide) hsecond.symm
        obtain ⟨third, rfl, -⟩ := templateLiteral_eq_cons (by decide) hthird.symm
        exact hrun ⟨third, rfl⟩

end SourceText

end OperationLibrary
