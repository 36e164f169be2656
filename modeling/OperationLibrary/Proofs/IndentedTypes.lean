import OperationLibrary.Proofs.CommentText
import OperationLibrary.Text.Fill

/-!
Types at a level. A level is a margin in front of every line but the first: the lines of a comment,
the entries of an object and its closing brace start with the margin of their level, and nothing
else starts a line. So a type is printed alike wherever it is nested, a margin further in for every
object around it.
-/

namespace OperationLibrary

open Syntax (shifted shifted_append shifted_feed shifted_of_not_mem)
open Syntax.BlockString (not_mem_intercalate)
open Text (blanks proseLines isLineBoundary trimBlankEnd)

/-! ### Lines a margin further in -/

theorem margin_append (level more : Nat) : margin level ++ margin more = margin (level + more) := by
  rw [margin, margin, List.replicate_append_replicate, margin, Nat.mul_add]

theorem feed_not_mem_margin (level : Nat) : '\n' ∉ margin level := fun h =>
  absurd (eq_of_mem_margin h) (by decide)

/-- The second text is the first with each of its lines a margin further in. Both texts are made of
whole lines, so that the margin of the line behind them is left over. -/
def MovedIn (level : Nat) (text other : List Char) : Prop :=
  margin level ++ shifted (2 * level) text = other ++ margin level

namespace MovedIn

variable {level : Nat} {text other more others : List Char}

theorem nil (level : Nat) : MovedIn level [] [] := by
  rw [MovedIn, Syntax.shifted_nil, List.append_nil, List.nil_append]

theorem append (h : MovedIn level text other) (hmore : MovedIn level more others) :
    MovedIn level (text ++ more) (other ++ others) := by
  calc margin level ++ shifted (2 * level) (text ++ more)
      = other ++ (margin level ++ shifted (2 * level) more) := by
        rw [shifted_append, ← List.append_assoc, h, List.append_assoc]
    _ = other ++ others ++ margin level := by rw [hmore, List.append_assoc]

/-- A text that ends in a line feed is made of whole lines. -/
theorem ended (level : Nat) (text : List Char) :
    MovedIn level (text ++ ['\n']) (margin level ++ shifted (2 * level) text ++ ['\n']) := by
  have hfeed : shifted (2 * level) ['\n'] = '\n' :: margin level := by
    rw [shifted_feed, Syntax.shifted_nil, List.append_nil, margin]
  rw [MovedIn, shifted_append, hfeed]
  simp

theorem line {line : List Char} (h : '\n' ∉ line) (level inner : Nat) :
    MovedIn level (margin inner ++ line ++ ['\n']) (margin (level + inner) ++ line ++ ['\n']) := by
  have hwhole : '\n' ∉ margin inner ++ line :=
    List.not_mem_append (feed_not_mem_margin inner) h
  have hended := ended level (margin inner ++ line)
  rwa [shifted_of_not_mem hwhole, ← List.append_assoc, margin_append] at hended

theorem flatMap {lines : List (List Char)} {write rewrite : List Char → List Char}
    (h : ∀ line ∈ lines, MovedIn level (write line) (rewrite line)) :
    MovedIn level (lines.flatMap write) (lines.flatMap rewrite) := by
  induction lines with
  | nil => exact nil level
  | cons line lines ih =>
      rw [List.flatMap_cons, List.flatMap_cons]
      exact (h line List.mem_cons_self).append
        (ih fun other hother => h other (List.mem_cons_of_mem _ hother))

end MovedIn

/-! ### Comments -/

/-- A line of prose has no line end of any kind in it. -/
theorem isLineBoundary_eq_false {text line : List Char} (h : line ∈ proseLines text) :
    ∀ c ∈ line, isLineBoundary c = false := by
  fun_induction proseLines text generalizing line with
  | case1 => cases h
  | case2 rest ih =>
      rcases List.mem_cons.mp h with rfl | h
      · simp
      · exact ih h
  | case3 c rest _ hboundary ih =>
      rcases List.mem_cons.mp h with rfl | h
      · simp
      · exact ih h
  | case4 c rest _ hboundary ih =>
      have hc : isLineBoundary c = false := by simpa using hboundary
      cases hlines : proseLines rest with
      | nil =>
          rw [hlines, Text.consLine] at h
          rw [List.mem_singleton.mp h]
          simpa using hc
      | cons first lines =>
          rw [hlines] at h ih
          rcases List.mem_cons.mp h with rfl | h
          · exact List.forall_mem_cons.mpr ⟨hc, ih List.mem_cons_self⟩
          · exact ih (List.mem_cons_of_mem _ h)

theorem feed_not_mem_of_mem_proseLines {text line : List Char} (h : line ∈ proseLines text) :
    '\n' ∉ line := fun hfeed =>
  absurd (isLineBoundary_eq_false h '\n' hfeed) (by decide)

/-- Blanks are cut off behind the asterisk of a line, so its margin stays. -/
theorem trimBlankEnd_commentLine (level : Nat) (line : List Char) :
    trimBlankEnd (margin level ++ [' ', '*', ' '] ++ line) =
      margin level ++ ' ' :: '*' :: trimBlankEnd (' ' :: line) := by
  have hwhole : margin level ++ [' ', '*', ' '] ++ line =
      (margin level ++ [' ']) ++ '*' :: ' ' :: line := by simp
  rw [hwhole, trimBlankEnd, Text.dropEndWhile_append_cons (by decide), trimBlankEnd]
  simp

/-- A comment moves in with the entry behind it, whatever it says. -/
theorem movedIn_docComment (description : Option String) (level inner : Nat) :
    MovedIn level (docComment description (margin inner))
      (docComment description (margin (level + inner))) := by
  cases description with
  | none => exact .nil level
  | some description =>
      rw [docComment, docComment]
      split
      · exact .nil level
      · have hfirst : '\n' ∉ ['/', '*', '*'] := by decide
        have hopening : MovedIn level (margin inner ++ ['/', '*', '*', '\n'])
            (margin (level + inner) ++ ['/', '*', '*', '\n']) := by
          simpa using MovedIn.line hfirst level inner
        have hlast : '\n' ∉ [' ', '*', '/'] := by decide
        have hclosing : MovedIn level (margin inner ++ [' ', '*', '/', '\n'])
            (margin (level + inner) ++ [' ', '*', '/', '\n']) := by
          simpa using MovedIn.line hlast level inner
        have hbody : MovedIn level
            ((proseLines (escapeCommentEnd description.toList)).flatMap fun line =>
              trimBlankEnd (margin inner ++ [' ', '*', ' '] ++ line) ++ ['\n'])
            ((proseLines (escapeCommentEnd description.toList)).flatMap fun line =>
              trimBlankEnd (margin (level + inner) ++ [' ', '*', ' '] ++ line) ++ ['\n']) := by
          apply MovedIn.flatMap
          intro line hline
          -- trimming a line only takes characters away
          have hfeed : '\n' ∉ ' ' :: '*' :: trimBlankEnd (' ' :: line) := by
            intro hmem
            have hkept : '\n' ∈ ' ' :: '*' :: ' ' :: line :=
              List.Sublist.mem hmem
                (((Text.dropEndWhile_prefix _ _).sublist.cons_cons _).cons_cons _)
            simp only [List.mem_cons, Char.reduceEq, false_or] at hkept
            exact feed_not_mem_of_mem_proseLines hline hkept
          rw [trimBlankEnd_commentLine, trimBlankEnd_commentLine]
          exact .line hfeed level inner
        rw [List.append_assoc _ (margin inner), List.append_assoc _ (margin (level + inner))]
        exact (hopening.append hbody).append hclosing

/-! ### Shapes -/

mutual

/-- No scalar, no value of a choice and no name of an entry has a line feed in it. Descriptions may
have any. -/
def Shape.OnOneLine : Shape → Prop
  | .scalar type _ => '\n' ∉ type.toList
  | .enum values _ => ∀ value ∈ values, '\n' ∉ value.toList
  | .list item _ => item.OnOneLine
  | .object entries _ => EntriesOnOneLine entries

def EntriesOnOneLine : List (Entry Shape) → Prop
  | [] => True
  | ⟨name, type, _, _⟩ :: rest => '\n' ∉ name.toList ∧ type.OnOneLine ∧ EntriesOnOneLine rest

end

theorem feed_not_mem_propertyName {name : String} (h : '\n' ∉ name.toList) :
    '\n' ∉ propertyName name := by
  rw [propertyName]
  split
  · exact h
  · intro hmem
    simp only [List.cons_append, List.mem_cons, Char.reduceEq, List.mem_append, List.mem_flatMap,
      List.not_mem_nil, or_false, false_or] at hmem
    obtain ⟨c, hc, hmem⟩ := hmem
    obtain rfl : '\n' = c := by
      split at hmem <;> simpa using hmem
    exact h hc

theorem feed_not_mem_enumText {values : List String} (h : ∀ value ∈ values, '\n' ∉ value.toList) :
    '\n' ∉ enumText values := by
  rw [enumText]
  split
  · decide
  · have hparts : ∀ part ∈ values.map fun value => '"' :: value.toList ++ ['"'], '\n' ∉ part := by
      intro part hpart
      obtain ⟨value, hvalue, rfl⟩ := List.mem_map.mp hpart
      simpa using h value hvalue
    exact not_mem_intercalate (by decide) hparts

theorem Shape.print_object {entries : List (Entry Shape)} (h : entries ≠ [])
    (description : Option Explanation) (level : Nat) :
    (Shape.object entries description).print level =
      ['\x7b', '\n'] ++ printEntries (level + 1) entries ++ margin level ++ ['\x7d'] := by
  cases entries with
  | nil => exact absurd rfl h
  | cons entry entries => rfl

mutual

/-- A type at a higher level is the type with its later lines further in. -/
theorem shifted_print (shape : Shape) (h : shape.OnOneLine) (level inner : Nat) :
    shifted (2 * level) (shape.print inner) = shape.print (level + inner) := by
  match shape with
  | .scalar type description => exact shifted_of_not_mem h _
  | .enum values description => exact shifted_of_not_mem (feed_not_mem_enumText h) _
  | .list item description =>
      have hitem := shifted_print item h level inner
      have hopening : '\n' ∉ "Array<".toList := by decide
      show shifted (2 * level) ("Array<".toList ++ item.print inner ++ ['>']) =
        "Array<".toList ++ item.print (level + inner) ++ ['>']
      rw [shifted_append, shifted_append, shifted_of_not_mem hopening, hitem,
        shifted_of_not_mem (by decide)]
  | .object [] description =>
      have htext : '\n' ∉ emptyObjectText.toList := by decide
      exact shifted_of_not_mem htext _
  | .object (entry :: entries) description =>
      have hentries := movedIn_printEntries (entry :: entries) h level (inner + 1)
      have hclosing : '\n' ∉ margin inner ++ ['\x7d'] :=
        List.not_mem_append (feed_not_mem_margin inner) (by decide)
      have hopening : shifted (2 * level) ['\x7b', '\n'] = ['\x7b', '\n'] ++ margin level := by
        simp [shifted, margin]
      have hentry : entry :: entries ≠ [] := List.cons_ne_nil _ _
      rw [Shape.print_object hentry, Shape.print_object hentry]
      -- the margin behind the opening brace is the one that the entries hand on to the closing
      -- brace
      calc shifted (2 * level) (['\x7b', '\n'] ++ printEntries (inner + 1) (entry :: entries) ++
            margin inner ++ ['\x7d'])
          = ['\x7b', '\n'] ++ (margin level ++
              shifted (2 * level) (printEntries (inner + 1) (entry :: entries))) ++
                (margin inner ++ ['\x7d']) := by
            rw [List.append_assoc _ (margin inner), shifted_append, shifted_append,
              shifted_of_not_mem hclosing, hopening]
            simp
        _ = ['\x7b', '\n'] ++ printEntries (level + inner + 1) (entry :: entries) ++
              (margin level ++ (margin inner ++ ['\x7d'])) := by
            rw [hentries]
            simp [Nat.add_assoc]
        _ = _ := by
            rw [← List.append_assoc (margin level), margin_append]
            simp

theorem movedIn_printEntries (entries : List (Entry Shape)) (h : EntriesOnOneLine entries)
    (level inner : Nat) :
    MovedIn level (printEntries inner entries) (printEntries (level + inner) entries) := by
  match entries with
  | [] => exact .nil level
  | ⟨name, type, nullable, description⟩ :: entries =>
      obtain ⟨hname, htype, hentries⟩ := h
      have hmark : '\n' ∉ margin inner ++ propertyName name ++
          ((if nullable then ['?'] else []) ++ [':', ' ']) := by
        refine List.not_mem_append (List.not_mem_append (feed_not_mem_margin inner)
          (feed_not_mem_propertyName hname)) ?_
        cases nullable <;> decide
      have hentry := MovedIn.ended level (margin inner ++ propertyName name ++
        ((if nullable then ['?'] else []) ++ [':', ' ']) ++ type.print inner ++ [';'])
      rw [shifted_append, shifted_append, shifted_of_not_mem hmark, shifted_print type htype,
        shifted_of_not_mem (by decide)] at hentry
      have hall := (movedIn_docComment (description.map Explanation.words) level inner).append
        (hentry.append (movedIn_printEntries entries hentries level inner))
      simpa [printEntries, ← margin_append] using hall

end

/-! ### Nested types -/

theorem printEntries_append (level : Nat) (front rest : List (Entry Shape)) :
    printEntries level (front ++ rest) = printEntries level front ++ printEntries level rest := by
  induction front with
  | nil => rfl
  | cons entry front ih =>
      rw [List.cons_append, printEntries, printEntries, ih]
      simp

/-- A list or an object directly around a shape. -/
inductive Shape.Frame where
  | list (description : Option Explanation)
  | object (front : List (Entry Shape)) (name : String) (nullable : Bool)
      (said : Option Explanation) (rest : List (Entry Shape)) (description : Option Explanation)

namespace Shape

/-- The list or object with the shape in its place. -/
def Frame.around (frame : Frame) (shape : Shape) : Shape :=
  match frame with
  | .list description => .list shape description
  | .object front name nullable said rest description =>
    .object (front ++ ⟨name, shape, nullable, said⟩ :: rest) description

/-- How many levels further in a shape is: one for every object around it. -/
def levels : List Frame → Nat
  | [] => 0
  | .list _ :: frames => levels frames
  | .object .. :: frames => levels frames + 1

/-- The shape inside lists and objects, of which the first is the outermost. -/
def within (frames : List Frame) (shape : Shape) : Shape :=
  frames.foldr Frame.around shape

theorem levels_cons (frame : Frame) (frames : List Frame) :
    levels (frame :: frames) = levels [frame] + levels frames := by
  cases frame with
  | list description => simp [levels]
  | object front name nullable said rest description => simp [levels, Nat.add_comm]

theorem Frame.exists_print_around (frame : Frame) (level : Nat) :
    ∃ before after, ∀ shape : Shape,
      (frame.around shape).print level =
        before ++ shape.print (level + levels [frame]) ++ after := by
  cases frame with
  | list description => exact ⟨"Array<".toList, ['>'], fun _ => rfl⟩
  | object front name nullable said rest description =>
      refine ⟨['\x7b', '\n'] ++ printEntries (level + 1) front ++
          docComment (said.map Explanation.words) (margin (level + 1)) ++ margin (level + 1) ++
          propertyName name ++ (if nullable then ['?'] else []) ++ [':', ' '],
        [';', '\n'] ++ printEntries (level + 1) rest ++ margin level ++ ['\x7d'], fun shape => ?_⟩
      have hentries : front ++ ⟨name, shape, nullable, said⟩ :: rest ≠ [] := by simp
      have hprint := print_object hentries description level
      rw [printEntries_append, printEntries] at hprint
      refine hprint.trans ?_
      simp [levels]

/-- What is printed around a nested shape does not depend on it. -/
theorem exists_print_within (frames : List Frame) (level : Nat) :
    ∃ before after, ∀ shape : Shape,
      (shape.within frames).print level =
        before ++ shape.print (level + levels frames) ++ after := by
  induction frames generalizing level with
  | nil => exact ⟨[], [], fun shape => by simp [within, levels]⟩
  | cons frame frames ih =>
      obtain ⟨outerBefore, outerAfter, houter⟩ := frame.exists_print_around level
      obtain ⟨before, after, hinner⟩ := ih (level + levels [frame])
      refine ⟨outerBefore ++ before, after ++ outerAfter, fun shape => ?_⟩
      have hshape : shape.within (frame :: frames) = frame.around (shape.within frames) := rfl
      rw [hshape, houter, hinner, levels_cons frame frames, Nat.add_assoc]
      simp

end Shape

theorem Shape.OnOneLine.print_eq {shape : Shape} (h : shape.OnOneLine) (level : Nat) :
    String.ofList (shape.print level) =
      Text.indentAfterNewlines (blanks (2 * level)) (shape.text 0) := by
  have hprint := shifted_print shape h level 0
  rw [Nat.add_zero] at hprint
  rw [Text.indentAfterNewlines, Shape.text, String.toList_ofList, blanks, String.toList_ofList,
    ← hprint]
  rfl

/-- **A level only indents.** A type at a level is the type at the outermost one, with two blanks
for every level behind each of its line feeds. And wherever a type is nested, it is printed like
that, at the level of the objects around it; the text before and behind it is the same for all
types that may stand there. -/
theorem level_only_indents :
    (∀ (shape : Shape) (level : Nat), shape.OnOneLine →
      shape.text level = Text.indentAfterNewlines (blanks (2 * level)) (shape.text 0)) ∧
    ∀ (frames : List Shape.Frame) (level : Nat), ∃ before after : String,
      ∀ shape : Shape, shape.OnOneLine →
        (shape.within frames).text level =
          before ++ Text.indentAfterNewlines
            (blanks (2 * (level + Shape.levels frames))) (shape.text 0) ++
            after := by
  refine ⟨fun shape level h => h.print_eq level, fun frames level => ?_⟩
  obtain ⟨before, after, hprint⟩ := Shape.exists_print_within frames level
  refine ⟨String.ofList before, String.ofList after, fun shape h => ?_⟩
  rw [Shape.text, hprint, String.ofList_append, String.ofList_append, h.print_eq]

namespace DescribedTags

/-- Its comment has lines that end in three ways, and a blank one. -/
def tag : Shape :=
  .object [⟨"id", .scalar "string" none, false, some (.text "one \r\n\ntwo\u2028three")⟩] none

def frames : List Shape.Frame :=
  [.object [] "tags" true (some (.text "all of them")) [] none, .list none]

theorem tag_onOneLine : tag.OnOneLine := by
  have hname : '\n' ∉ "id".toList := by decide
  have htype : '\n' ∉ "string".toList := by decide
  exact ⟨hname, htype, trivial⟩

/-- The tag keeps its text inside a list of tags. -/
theorem tag_indented :
    tag.OnOneLine ∧
      tag.text 0 = "\x7b\n  /**\n   * one\n   *\n   * two\n   * three\n   */\n  id: string;\n\x7d" ∧
      tag.text 1 = Text.indentAfterNewlines (blanks 2) (tag.text 0) ∧
      ∃ before after, (tag.within frames).text 1 =
        before ++ Text.indentAfterNewlines (blanks 4) (tag.text 0) ++ after := by
  obtain ⟨hlevel, hnested⟩ := level_only_indents
  obtain ⟨before, after, htext⟩ := hnested frames 1
  exact ⟨tag_onOneLine, by decide, hlevel tag 1 tag_onOneLine, before, after,
    htext tag tag_onOneLine⟩

end DescribedTags

end OperationLibrary
