import OperationLibrary.Proofs.Lexemes
import OperationLibrary.Proofs.TrimmedText

/-!
Lines of block strings. The value of a block does not depend on how far the block is indented, nor
on blank lines at its ends, so that a text that is written as a block comes back without the blank
lines at its ends and without the indentation that its lines share.
-/

namespace OperationLibrary.Syntax.BlockString

open Text (sourceLines consLine)

/-! ### Lines -/

theorem sourceLines_feed (text : List Char) : sourceLines ('\n' :: text) = [] :: sourceLines text :=
  rfl

theorem sourceLines_cons {c : Char} (hfeed : c ≠ '\n') (hreturn : c ≠ '\r') (text : List Char) :
    sourceLines (c :: text) = consLine c (sourceLines text) := by
  simp [sourceLines, hfeed, hreturn]

theorem sourceLines_ne_nil (text : List Char) : sourceLines text ≠ [] := by
  fun_induction sourceLines text with
  | case1 => simp
  | case2 rest ih => simp
  | case3 c rest _ h ih => simp
  | case4 c rest _ h ih =>
      obtain ⟨first, later, hlines⟩ := List.exists_cons_of_ne_nil ih
      simp [hlines, consLine]

/-- A text that is one line. -/
def Unbroken (line : List Char) : Prop :=
  '\n' ∉ line ∧ '\r' ∉ line

theorem consLine_eq_modifyHead {lines : List (List Char)} (h : lines ≠ []) (c : Char) :
    consLine c lines = lines.modifyHead (c :: ·) := by
  obtain ⟨first, later, rfl⟩ := List.exists_cons_of_ne_nil h
  rfl

theorem sourceLines_append {line : List Char} (h : Unbroken line) (text : List Char) :
    sourceLines (line ++ text) = (sourceLines text).modifyHead (line ++ ·) := by
  induction line with
  | nil => cases hlines : sourceLines text <;> simp [hlines]
  | cons c line ih =>
      simp only [Unbroken, List.mem_cons, not_or] at h
      rw [List.cons_append, sourceLines_cons (Ne.symm h.1.1) (Ne.symm h.2.1),
        consLine_eq_modifyHead (sourceLines_ne_nil _), ih ⟨h.1.2, h.2.2⟩,
        List.modifyHead_modifyHead]
      rfl

theorem sourceLines_unbroken {line : List Char} (h : Unbroken line) :
    sourceLines line = [line] := by
  have hlines := sourceLines_append h []
  rwa [List.append_nil, sourceLines, List.modifyHead_cons, List.append_nil] at hlines

/-- A line feed behind a text ends its last line. -/
theorem sourceLines_append_feed {text : List Char} (h : '\r' ∉ text) (more : List Char) :
    sourceLines (text ++ '\n' :: more) = sourceLines text ++ sourceLines more := by
  induction text with
  | nil => rfl
  | cons c text ih =>
      rw [List.mem_cons, not_or] at h
      by_cases hfeed : c = '\n'
      · subst hfeed
        rw [List.cons_append, sourceLines_feed, sourceLines_feed, ih h.2, List.cons_append]
      · obtain ⟨first, later, hlines⟩ := List.exists_cons_of_ne_nil (sourceLines_ne_nil text)
        rw [List.cons_append, sourceLines_cons hfeed (Ne.symm h.1),
          sourceLines_cons hfeed (Ne.symm h.1), ih h.2, hlines]
        rfl

/-- A text with a line feed has more than one line. -/
theorem one_lt_length_sourceLines {text : List Char} (hfeed : '\n' ∈ text) (h : '\r' ∉ text) :
    1 < (sourceLines text).length := by
  obtain ⟨front, rest, rfl⟩ := List.append_of_mem hfeed
  have hfront : '\r' ∉ front := fun hmem => h (List.mem_append_left _ hmem)
  rw [sourceLines_append_feed hfront, List.length_append]
  have hpos := List.length_pos_iff.mpr (sourceLines_ne_nil front)
  have hpos' := List.length_pos_iff.mpr (sourceLines_ne_nil rest)
  omega

/-- A margin in front of all lines but the first. -/
def indentLater (margin : Nat) : List (List Char) → List (List Char)
  | [] => []
  | first :: later => first :: later.map (List.replicate margin ' ' ++ ·)

theorem unbroken_replicate (margin : Nat) : Unbroken (List.replicate margin ' ') := by
  simp [Unbroken]

theorem sourceLines_shifted {text : List Char} (h : '\r' ∉ text) (margin : Nat) :
    sourceLines (shifted margin text) = indentLater margin (sourceLines text) := by
  induction text with
  | nil => rfl
  | cons c text ih =>
      rw [List.mem_cons, not_or] at h
      obtain ⟨first, later, hlines⟩ := List.exists_cons_of_ne_nil (sourceLines_ne_nil text)
      have ih := ih h.2
      rw [hlines, indentLater] at ih
      by_cases hfeed : c = '\n'
      · subst hfeed
        rw [shifted_feed, sourceLines_feed, sourceLines_feed,
          sourceLines_append (unbroken_replicate margin), ih, hlines]
        rfl
      · rw [shifted_cons hfeed, sourceLines_cons hfeed (Ne.symm h.1),
          sourceLines_cons hfeed (Ne.symm h.1), ih, hlines]
        rfl

/-! ### Blank lines and indentation -/

theorem isBlankLine_replicate_append (margin : Nat) (line : List Char) :
    isBlankLine (List.replicate margin ' ' ++ line) = isBlankLine line := by
  simp [isBlankLine, isIndent]

theorem leadingIndent_replicate_append (margin : Nat) (line : List Char) :
    leadingIndent (List.replicate margin ' ' ++ line) = margin + leadingIndent line := by
  have hblank : ∀ c ∈ List.replicate margin ' ', isIndent c = true := by simp [isIndent]
  rw [leadingIndent, List.takeWhile_append_of_pos hblank, List.length_append, List.length_replicate]
  rfl

/-- Blank lines say nothing about the indentation. -/
theorem commonIndent_of_blank {later : List (List Char)}
    (h : ∀ line ∈ later, isBlankLine line = true) : commonIndent later = 0 := by
  have hnone : later.filter (fun line => !isBlankLine line) = [] := by
    simpa [List.filter_eq_nil_iff] using h
  rw [commonIndent, hnone]
  rfl

/-- The indentation that all lines share is that of one of them. -/
theorem commonIndent_eq_iff {later : List (List Char)}
    (h : ∃ line ∈ later, isBlankLine line = false) (n : Nat) :
    commonIndent later = n ↔
      (∃ line ∈ later, isBlankLine line = false ∧ leadingIndent line = n) ∧
        ∀ line ∈ later, isBlankLine line = false → n ≤ leadingIndent line := by
  have hiff : ((later.filter fun line => !isBlankLine line).map leadingIndent).min? = some n ↔
      (∃ line ∈ later, isBlankLine line = false ∧ leadingIndent line = n) ∧
        ∀ line ∈ later, isBlankLine line = false → n ≤ leadingIndent line := by
    simp only [List.min?_eq_some_iff, List.mem_map, List.mem_filter, Bool.not_eq_true',
      and_assoc, forall_exists_index, and_imp]
    exact and_congr_right fun _ => ⟨fun h line hmem hline => h _ line hmem hline rfl,
      fun h _ line hmem hline heq => heq ▸ h line hmem hline⟩
  rw [← hiff, commonIndent]
  obtain ⟨line, hmem, hline⟩ := h
  cases hmin : ((later.filter fun line => !isBlankLine line).map leadingIndent).min? with
  | none => simp_all [List.min?_eq_none_iff]
  | some k => simp

theorem dropBlankLines_cons {line : List Char} (h : isBlankLine line = true)
    (lines : List (List Char)) : dropBlankLines (line :: lines) = dropBlankLines lines := by
  rw [dropBlankLines, List.dropWhile_cons_of_pos h]
  rfl

/-- Blank lines at the end make no difference. -/
theorem dropBlankLines_append {lines more : List (List Char)}
    (h : ∀ line ∈ more, isBlankLine line = true) :
    dropBlankLines (lines ++ more) = dropBlankLines lines := by
  have hmore : more.dropWhile isBlankLine = [] := List.dropWhile_eq_nil_iff.mpr h
  rw [dropBlankLines, List.dropWhile_append, hmore]
  split
  · rename_i hlines
    rw [dropBlankLines, List.isEmpty_iff.mp hlines]
  · rw [dropBlankLines, Text.dropEndWhile, List.reverse_append,
      List.dropWhile_append_of_pos (by simpa using h)]
    rfl

/-- Neither the first nor the last line is blank. -/
def Trimmed (lines : List (List Char)) : Prop :=
  (∀ line ∈ lines.head?, isBlankLine line = false) ∧
    ∀ line ∈ lines.getLast?, isBlankLine line = false

theorem trimmed_dropBlankLines (lines : List (List Char)) : Trimmed (dropBlankLines lines) := by
  have hfront := List.head?_dropWhile_not isBlankLine lines
  have hprefix : dropBlankLines lines <+: lines.dropWhile isBlankLine :=
    Text.dropEndWhile_prefix _ _
  have hend := List.rdropWhile_last_not isBlankLine (lines.dropWhile isBlankLine)
  rw [← Text.dropEndWhile_eq_rdropWhile, ← dropBlankLines] at hend
  refine ⟨fun line hline => ?_, fun line hline => ?_⟩
  · have hhead : (lines.dropWhile isBlankLine).head? = some line := by
      obtain ⟨more, hmore⟩ := hprefix
      rw [← hmore, List.head?_append, Option.mem_def.mp hline]
      rfl
    rwa [hhead] at hfront
  · have hne : dropBlankLines lines ≠ [] := by rintro hnil; simp [hnil] at hline
    have hlast : (dropBlankLines lines).getLast hne = line := by
      rw [List.getLast?_eq_some_getLast hne] at hline
      exact Option.some.inj hline
    rw [← hlast]
    exact Bool.eq_false_iff.mpr (hend hne)

theorem dropBlankLines_eq_self_iff (lines : List (List Char)) :
    dropBlankLines lines = lines ↔ Trimmed lines := by
  refine ⟨fun h => h ▸ trimmed_dropBlankLines lines, fun ⟨hfirst, hlast⟩ => ?_⟩
  have hfront : lines.dropWhile isBlankLine = lines := by
    cases lines with
    | nil => rfl
    | cons line lines => rw [List.dropWhile_cons_of_neg (by simp [hfirst line rfl])]
  rw [dropBlankLines, hfront, Text.dropEndWhile_eq_self hlast]

/-! ### Margins -/

theorem dedentLines_of_blank (first : List Char) {later : List (List Char)}
    (h : ∀ line ∈ later, isBlankLine line = true) :
    dedentLines (first :: later) = dropBlankLines [first] := by
  rw [dedentLines, commonIndent_of_blank h]
  simp only [List.drop_zero, List.map_id_fun', id]
  have hrest : first :: later = [first] ++ later := rfl
  rw [hrest, dropBlankLines_append h]

theorem commonIndent_margin (margin : Nat) {later : List (List Char)}
    (h : ∃ line ∈ later, isBlankLine line = false) :
    commonIndent (later.map (List.replicate margin ' ' ++ ·)) = margin + commonIndent later := by
  obtain ⟨⟨least, hleast, hblank, hindent⟩, hall⟩ := (commonIndent_eq_iff h _).mp rfl
  rw [commonIndent_eq_iff]
  · refine ⟨⟨_, List.mem_map_of_mem hleast, ?_, ?_⟩, ?_⟩
    · rwa [isBlankLine_replicate_append]
    · rw [leadingIndent_replicate_append, hindent]
    · simp only [List.mem_map, forall_exists_index, and_imp, forall_apply_eq_imp_iff₂,
        isBlankLine_replicate_append, leadingIndent_replicate_append]
      exact fun line hmem hline => Nat.add_le_add_left (hall line hmem hline) margin
  · exact ⟨_, List.mem_map_of_mem hleast, by rwa [isBlankLine_replicate_append]⟩

/-- A margin that all later lines share is not part of the value. -/
theorem dedentLines_indentLater (margin : Nat) (lines : List (List Char)) :
    dedentLines (indentLater margin lines) = dedentLines lines := by
  cases lines with
  | nil => rfl
  | cons first later =>
      rw [indentLater]
      by_cases hblank : ∀ line ∈ later, isBlankLine line = true
      · -- no later line counts, so that the margin is not even cut off
        rw [dedentLines_of_blank first hblank, dedentLines_of_blank first]
        simpa [isBlankLine_replicate_append] using hblank
      · simp only [not_forall, Bool.not_eq_true, exists_prop] at hblank
        rw [dedentLines, dedentLines, commonIndent_margin margin hblank, List.map_map]
        congr 3
        funext line
        simp [List.drop_append]

/-- A blank line at the end is not part of the value. -/
theorem dedentLines_append_blank (first : List Char) (later : List (List Char)) :
    dedentLines (first :: (later ++ [[]])) = dedentLines (first :: later) := by
  have hindent : commonIndent (later ++ [[]]) = commonIndent later := by
    simp [commonIndent, isBlankLine]
  rw [dedentLines, dedentLines, hindent, List.map_append, ← List.cons_append]
  exact dropBlankLines_append (by simp [isBlankLine])

/-- The value that is read where a block of this value was printed. -/
def reread (value : List Char) : List Char :=
  valueOfLines (if '\n' ∈ value then [] :: sourceLines value else [value])

/-! ### Values of blocks -/

theorem unbroken_of_mem_sourceLines {text line : List Char} (h : line ∈ sourceLines text) :
    Unbroken line := by
  fun_induction sourceLines text generalizing line with
  | case1 =>
      obtain rfl := List.mem_singleton.mp h
      simp [Unbroken]
  | case2 rest ih =>
      obtain rfl | h := List.mem_cons.mp h
      · simp [Unbroken]
      · exact ih h
  | case3 c rest _ hend ih =>
      obtain rfl | h := List.mem_cons.mp h
      · simp [Unbroken]
      · exact ih h
  | case4 c rest _ hend ih =>
      obtain ⟨first, later, hlines⟩ := List.exists_cons_of_ne_nil (sourceLines_ne_nil rest)
      rw [hlines] at h ih
      obtain rfl | h := List.mem_cons.mp h
      · have hfirst := ih List.mem_cons_self
        simp only [not_or] at hend
        simp [Unbroken, hfirst.1, hfirst.2, Ne.symm hend.1, Ne.symm hend.2]
      · exact ih (List.mem_cons_of_mem _ h)

/-- Lines that are put together with line feeds come apart again. -/
theorem sourceLines_intercalate {lines : List (List Char)} (hne : lines ≠ [])
    (h : ∀ line ∈ lines, Unbroken line) : sourceLines (['\n'].intercalate lines) = lines := by
  induction lines with
  | nil => contradiction
  | cons line lines ih =>
      have hline := h line List.mem_cons_self
      cases lines with
      | nil => rw [List.intercalate_singleton, sourceLines_unbroken hline]
      | cons next lines =>
          have ih := ih (List.cons_ne_nil _ _) fun other hother =>
            h other (List.mem_cons_of_mem _ hother)
          rw [List.intercalate_cons_cons, List.append_assoc, List.singleton_append,
            sourceLines_append_feed hline.2, sourceLines_unbroken hline, ih]
          rfl

theorem intercalate_sourceLines {text : List Char} (h : '\r' ∉ text) :
    ['\n'].intercalate (sourceLines text) = text := by
  induction text with
  | nil => rfl
  | cons c text ih =>
      rw [List.mem_cons, not_or] at h
      have ih := ih h.2
      obtain ⟨first, later, hlines⟩ := List.exists_cons_of_ne_nil (sourceLines_ne_nil text)
      by_cases hfeed : c = '\n'
      · subst hfeed
        rw [sourceLines_feed, hlines, List.intercalate_cons_cons, ← hlines, ih]
        rfl
      · rw [sourceLines_cons hfeed (Ne.symm h.1), hlines, consLine, ← ih, hlines]
        cases later with
        | nil => rw [List.intercalate_singleton, List.intercalate_singleton]
        | cons next later => rw [List.intercalate_cons_cons, List.intercalate_cons_cons]; rfl

theorem not_mem_intercalate {c : Char} {gap : List Char} {parts : List (List Char)}
    (hgap : c ∉ gap) (h : ∀ part ∈ parts, c ∉ part) : c ∉ gap.intercalate parts := by
  induction parts with
  | nil => simp
  | cons part parts ih =>
      have hpart := h part List.mem_cons_self
      have ih := ih fun other hother => h other (List.mem_cons_of_mem _ hother)
      cases parts with
      | nil => rwa [List.intercalate_singleton]
      | cons next parts => rw [List.intercalate_cons_cons]; simp [hgap, hpart, ih]

theorem return_not_mem_intercalate {lines : List (List Char)} (h : ∀ line ∈ lines, Unbroken line) :
    '\r' ∉ ['\n'].intercalate lines :=
  not_mem_intercalate (by decide) fun line hline => (h line hline).2

/-- A line without its own indentation. -/
theorem leadingIndent_drop (line : List Char) :
    leadingIndent (line.drop (leadingIndent line)) = 0 ∧
      isBlankLine (line.drop (leadingIndent line)) = isBlankLine line := by
  induction line with
  | nil => exact ⟨rfl, rfl⟩
  | cons c line ih =>
      by_cases h : isIndent c = true
      · have hindent : leadingIndent (c :: line) = leadingIndent line + 1 := by
          simp [leadingIndent, h]
        have hblank : isBlankLine (c :: line) = isBlankLine line := by simp [isBlankLine, h]
        rwa [hindent, List.drop_succ_cons, hblank]
      · have hindent : leadingIndent (c :: line) = 0 := by simp [leadingIndent, h]
        rw [hindent, List.drop_zero]
        exact ⟨hindent, rfl⟩

theorem mem_dropBlankLines {lines : List (List Char)} {line : List Char} (hmem : line ∈ lines)
    (hline : isBlankLine line = false) : line ∈ dropBlankLines lines := by
  have hfront : line ∈ lines.dropWhile isBlankLine := by
    rw [← List.takeWhile_append_dropWhile (p := isBlankLine) (l := lines)] at hmem
    refine (List.mem_append.mp hmem).resolve_left fun htaken => ?_
    simp [List.mem_takeWhile_imp htaken] at hline
  rw [← List.rdropWhile_append_rtakeWhile (p := isBlankLine)
    (l := lines.dropWhile isBlankLine)] at hfront
  rw [dropBlankLines, Text.dropEndWhile_eq_rdropWhile]
  refine (List.mem_append.mp hfront).resolve_right fun htaken => ?_
  simp [List.mem_rtakeWhile_imp htaken] at hline

theorem dropBlankLines_sublist (lines : List (List Char)) : (dropBlankLines lines).Sublist lines :=
  (Text.dropEndWhile_prefix _ _).sublist.trans (List.dropWhile_sublist _)

/-- Several lines of a value share no indentation. -/
theorem commonIndent_dedentLines {lines : List (List Char)} (h : 1 < (dedentLines lines).length) :
    commonIndent (dedentLines lines) = 0 := by
  cases lines with
  | nil => rfl
  | cons first later =>
      have hmany : ∃ line ∈ later, isBlankLine line = false := by
        by_contra hnone
        simp only [not_exists, not_and, Bool.not_eq_false] at hnone
        rw [dedentLines_of_blank first hnone] at h
        exact absurd ((dropBlankLines_sublist [first]).length_le) (by simpa using h)
      -- the line that the indentation was taken from is left without any
      obtain ⟨⟨least, hleast, hblank, hindent⟩, -⟩ := (commonIndent_eq_iff hmany _).mp rfl
      obtain ⟨hzero, hkept⟩ := leadingIndent_drop least
      rw [hindent] at hzero hkept
      have hmem : least.drop (commonIndent later) ∈ dedentLines (first :: later) :=
        mem_dropBlankLines (List.mem_cons_of_mem _ (List.mem_map_of_mem hleast))
          (hkept.trans hblank)
      rw [commonIndent_eq_iff ⟨_, hmem, hkept.trans hblank⟩]
      exact ⟨⟨_, hmem, hkept.trans hblank, hzero⟩, fun _ _ _ => Nat.zero_le _⟩

theorem trimmed_dedentLines (lines : List (List Char)) : Trimmed (dedentLines lines) := by
  cases lines with
  | nil => simp [dedentLines, Trimmed]
  | cons first later => exact trimmed_dropBlankLines _

theorem Unbroken.drop {line : List Char} (h : Unbroken line) (n : Nat) : Unbroken (line.drop n) :=
  ⟨fun hmem => h.1 (List.mem_of_mem_drop hmem), fun hmem => h.2 (List.mem_of_mem_drop hmem)⟩

theorem unbroken_dedentLines {lines : List (List Char)} (h : ∀ line ∈ lines, Unbroken line) :
    ∀ line ∈ dedentLines lines, Unbroken line := by
  cases lines with
  | nil => exact fun line hline => nomatch hline
  | cons first later =>
      intro line hline
      obtain rfl | hlater := List.mem_cons.mp ((dropBlankLines_sublist _).subset hline)
      · exact h line List.mem_cons_self
      · obtain ⟨source, hsource, rfl⟩ := List.mem_map.mp hlater
        exact (h source (List.mem_cons_of_mem _ hsource)).drop _

theorem feed_mem_intercalate {lines : List (List Char)} (h : 1 < lines.length) :
    '\n' ∈ ['\n'].intercalate lines := by
  match lines, h with
  | first :: next :: later, _ => simp [List.intercalate_cons_cons]

/-- What a text comes back as, by its lines. -/
theorem reread_intercalate {lines : List (List Char)} (h : ∀ line ∈ lines, Unbroken line)
    (hmany : 1 < lines.length) :
    reread (['\n'].intercalate lines) =
      ['\n'].intercalate (dropBlankLines (lines.map (·.drop (commonIndent lines)))) := by
  have hne : lines ≠ [] := List.ne_nil_of_length_pos (by omega)
  rw [reread, if_pos (feed_mem_intercalate hmany), sourceLines_intercalate hne h, valueOfLines,
    dedentLines, dropBlankLines_cons rfl]

/-- Lines stay what they are without their blank ends and their indentation if and only if they have
neither. -/
theorem dropBlankLines_map_drop_eq_self_iff {lines : List (List Char)} (hne : lines ≠ []) :
    dropBlankLines (lines.map (·.drop (commonIndent lines))) = lines ↔
      Trimmed lines ∧ commonIndent lines = 0 := by
  constructor
  · intro hsame
    have htrimmed : Trimmed lines := hsame ▸ trimmed_dropBlankLines _
    -- as many lines are left as there were, so that none was dropped
    have hlines : lines.map (·.drop (commonIndent lines)) = lines := by
      have hsub := dropBlankLines_sublist (lines.map (·.drop (commonIndent lines)))
      rw [hsame] at hsub
      exact (hsub.eq_of_length (by simp)).symm
    have hexists : ∃ line ∈ lines, isBlankLine line = false := by
      obtain ⟨first, later, rfl⟩ := List.exists_cons_of_ne_nil hne
      exact ⟨first, List.mem_cons_self, htrimmed.1 first rfl⟩
    obtain ⟨⟨least, hleast, -, hindent⟩, -⟩ := (commonIndent_eq_iff hexists _).mp rfl
    have hkept : least.drop (commonIndent lines) = least :=
      List.map_inj_left.mp (hlines.trans (List.map_id lines).symm) least hleast
    have hzero := (leadingIndent_drop least).1
    rw [hindent, hkept, hindent] at hzero
    exact ⟨htrimmed, hzero⟩
  · rintro ⟨htrimmed, hindent⟩
    rw [hindent]
    simp only [List.drop_zero, List.map_id_fun', id]
    exact (dropBlankLines_eq_self_iff _).mpr htrimmed

theorem reread_intercalate_eq_self_iff {lines : List (List Char)}
    (h : ∀ line ∈ lines, Unbroken line) (hmany : 1 < lines.length) :
    reread (['\n'].intercalate lines) = ['\n'].intercalate lines ↔
      Trimmed lines ∧ commonIndent lines = 0 := by
  have hne : lines ≠ [] := List.ne_nil_of_length_pos (by omega)
  rw [reread_intercalate h hmany, ← dropBlankLines_map_drop_eq_self_iff hne]
  refine ⟨fun hsame => ?_, fun hsame => by rw [hsame]⟩
  have hplain : ∀ line ∈ dropBlankLines (lines.map (·.drop (commonIndent lines))),
      Unbroken line := by
    intro line hline
    obtain ⟨source, hsource, rfl⟩ := List.mem_map.mp ((dropBlankLines_sublist _).subset hline)
    exact (h source hsource).drop _
  have hleft : dropBlankLines (lines.map (·.drop (commonIndent lines))) ≠ [] := by
    intro hnil
    rw [hnil] at hsame
    exact List.ne_nil_of_mem (feed_mem_intercalate hmany) hsame.symm
  have hlines := congrArg sourceLines hsame
  rwa [sourceLines_intercalate hleft hplain, sourceLines_intercalate hne h] at hlines

/-- The value of a block stays what it is when it is written as a block again. -/
theorem reread_valueOfLines {lines : List (List Char)} (h : ∀ line ∈ lines, Unbroken line) :
    reread (valueOfLines lines) = valueOfLines lines := by
  have htrimmed := trimmed_dedentLines lines
  have hunbroken := unbroken_dedentLines h
  have hindent : 1 < (dedentLines lines).length → commonIndent (dedentLines lines) = 0 :=
    commonIndent_dedentLines
  rw [valueOfLines]
  generalize dedentLines lines = value at htrimmed hunbroken hindent
  match value with
  | [] => rfl
  | [line] =>
      have hfeed : '\n' ∉ line := (hunbroken line List.mem_cons_self).1
      have hkept : dropBlankLines [line] = [line] := (dropBlankLines_eq_self_iff _).mpr htrimmed
      rw [List.intercalate_singleton, reread, if_neg hfeed, valueOfLines, dedentLines,
        List.map_nil, hkept, List.intercalate_singleton]
  | first :: next :: later =>
      exact (reread_intercalate_eq_self_iff hunbroken (by simp)).mpr ⟨htrimmed, hindent (by simp)⟩

/-- A value that a block gives back as it is: its first and its last line are not blank, and some
line is not indented. -/
structure Kept (value : List Char) : Prop where
  return_not_mem : '\r' ∉ value
  trimmed : Trimmed (sourceLines value)
  commonIndent_eq_zero : commonIndent (sourceLines value) = 0

/-- A text of several lines comes back as it is if and only if a block keeps it. -/
theorem kept_iff {value : List Char} (hfeed : '\n' ∈ value) :
    Kept value ↔ '\r' ∉ value ∧ reread value = value := by
  have hiff : '\r' ∉ value → (reread value = value ↔
      Trimmed (sourceLines value) ∧ commonIndent (sourceLines value) = 0) := by
    intro hreturn
    have hlines := reread_intercalate_eq_self_iff (fun _ => unbroken_of_mem_sourceLines)
      (one_lt_length_sourceLines hfeed hreturn)
    rwa [intercalate_sourceLines hreturn] at hlines
  constructor
  · rintro ⟨hreturn, htrimmed, hindent⟩
    exact ⟨hreturn, (hiff hreturn).mpr ⟨htrimmed, hindent⟩⟩
  · rintro ⟨hreturn, hsame⟩
    obtain ⟨htrimmed, hindent⟩ := (hiff hreturn).mp hsame
    exact ⟨hreturn, htrimmed, hindent⟩

end OperationLibrary.Syntax.BlockString
