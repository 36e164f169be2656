import OperationLibrary.Proofs.QueryText

/-!
Texts in generated files. A text without line feeds that stands in a line stands in the file that
the lines are made into: blank lines are shrunk around it, and banners come in front of it.
-/

namespace OperationLibrary

open Text

/-- The text is somewhere in the file. -/
def OutputFile.Shows (file : OutputFile) (text : String) : Prop :=
  text.toList <:+: file.contents.toList

instance (file : OutputFile) (text : String) : Decidable (file.Shows text) :=
  inferInstanceAs (Decidable (_ <:+: _))

/-- The text is somewhere in one of the lines. -/
def LinesShow (lines : List String) (text : String) : Prop :=
  ∃ line ∈ lines, text.toList <:+: line.toList

theorem linesShow_of_mem {lines : List String} {line text : String} (hmem : line ∈ lines)
    (before after : String) (h : line = before ++ text ++ after) : LinesShow lines text :=
  ⟨line, hmem, before.toList, after.toList, by simp [h]⟩

theorem LinesShow.mono {lines others : List String} {text : String} (h : LinesShow lines text)
    (hsubset : lines ⊆ others) : LinesShow others text :=
  h.imp fun _ hline => hline.imp_left (hsubset ·)

/-- Shrinking takes line feeds only. -/
theorem infix_collapseBlankLines {part text : List Char} (hplain : '\n' ∉ part)
    (h : part <:+: text) : part <:+: collapseBlankLines text := by
  obtain ⟨before, after, rfl⟩ := h
  -- behind the first character of the part, shrinking starts anew
  have hpart : ∀ after, collapseBlankLines (part ++ after) = part ++ collapseBlankLines after := by
    induction part with
    | nil => exact fun _ => rfl
    | cons c part ih =>
        rw [List.mem_cons, not_or] at hplain
        intro after
        rw [List.cons_append, collapseBlankLines_cons_of_ne (Ne.symm hplain.1), ih hplain.2]
        rfl
  cases part with
  | nil => exact List.nil_infix
  | cons c part =>
      have hc : c ≠ '\n' := fun h => hplain (h ▸ List.mem_cons_self)
      have hwhole : collapseBlankLines (before ++ c :: part ++ after) =
          collapseBlankLines before ++ c :: part ++ collapseBlankLines after := by
        rw [List.append_assoc, List.cons_append, collapseBlankLines_append_cons hc,
          ← collapseBlankLines_cons_of_ne hc, ← List.cons_append, hpart, List.append_assoc]
      exact ⟨_, _, hwhole.symm⟩

theorem Hooks.suffix_finish (hooks : Hooks) (contents : String) :
    contents.toList <:+ (hooks.finish contents).toList := by
  rw [Hooks.finish]
  induction hooks.banners generalizing contents with
  | nil => exact List.suffix_refl _
  | cons banner banners ih =>
      have hbelow : contents.toList <:+ (banner.apply contents).toList := by
        rw [Banner.apply, String.toList_append]
        exact List.suffix_append _ _
      exact hbelow.trans (ih (banner.apply contents))

theorem LinesShow.infix_linesText {lines : List String} {text : String} (h : LinesShow lines text) :
    text.toList <:+: (linesText lines).toList := by
  obtain ⟨line, hmem, htext⟩ := h
  have hline : line.toList ++ ['\n'] <:+: lines.flatMap fun line => line.toList ++ ['\n'] :=
    List.infix_of_mem_flatten (List.mem_map_of_mem hmem)
  rw [toList_linesText]
  exact (htext.trans (List.prefix_append _ _).isInfix).trans hline

theorem Generator.contents_file {generator : Generator} (hbuiltIn : generator.overrides = [])
    (template : String) (name : List String) (language : HandlerLanguage) (lines : List String) :
    (generator.file template name language lines).contents =
      generator.hooks.finish (String.ofList (collapseBlankLines (linesText lines).toList)) := by
  rw [Generator.file, finishFile, hbuiltIn]
  rfl

/-- What stands in a line of a built-in file stands in the file. -/
theorem Generator.shows_file {generator : Generator} (hbuiltIn : generator.overrides = [])
    (template : String) (name : List String) (language : HandlerLanguage) {lines : List String}
    {text : String} (h : LinesShow lines text) (hplain : '\n' ∉ text.toList) :
    (generator.file template name language lines).Shows text := by
  have hlines : text.toList <:+: collapseBlankLines (linesText lines).toList :=
    infix_collapseBlankLines hplain h.infix_linesText
  rw [OutputFile.Shows, generator.contents_file hbuiltIn]
  refine List.IsInfix.trans ?_ (generator.hooks.suffix_finish _).isInfix
  rwa [String.toList_ofList]

end OperationLibrary
