import OperationLibrary.Proofs.FunctionNames
import OperationLibrary.Proofs.ModuleCode
import OperationLibrary.Proofs.ShapeReading

/-!
Printed types as code. A type is written where a line is in progress. It leaves that line as the
front of a line, and every further line that it takes is indented or closes an object, so that none
of them starts a statement. The comments in a type end where they should, whatever they say.
-/

namespace OperationLibrary

open Syntax (IsName isNameContinue isNameContinue_of_mem)

/-! ### Names in code -/

/-- What is needed of the characters in names. -/
structure IsNameCharacter (c : Char) : Prop where
  plain : isPlainCode c = true
  quoted : c ≠ '"' ∧ c ≠ '\\' ∧ isLineEnd c = false
  identifier : isIdentifierPart c = true
  upperCase : (Text.upperCase c).all isNameContinue = true

theorem isNameCharacter_of_isNameContinue {c : Char} (h : isNameContinue c = true) :
    IsNameCharacter c := by
  have hall := of_isNameContinue h
    (P := fun c => isPlainCode c = true ∧ (c ≠ '"' ∧ c ≠ '\\' ∧ isLineEnd c = false) ∧
      isIdentifierPart c = true ∧ (Text.upperCase c).all isNameContinue = true) (by decide)
  exact ⟨hall.1, hall.2.1, hall.2.2.1, hall.2.2.2⟩

/-- Names stand in code as they are. -/
theorem ReadsCode.name {name : String} (h : ∀ c ∈ name.toList, isNameContinue c = true) :
    ReadsCode name.toList name.toList :=
  .plain (List.all_eq_true.mpr fun c hc => (isNameCharacter_of_isNameContinue (h c hc)).plain)

theorem ReadsCode.quotedName {name : String} (h : ∀ c ∈ name.toList, isNameContinue c = true) :
    ReadsCode ('"' :: (name.toList ++ ['"'])) ['"', '"'] :=
  .quoted (.inr rfl) fun c hc => (isNameCharacter_of_isNameContinue (h c hc)).quoted

theorem readsCode_margin (level : Nat) : ReadsCode (margin level) (margin level) :=
  .plain (List.all_eq_true.mpr fun _ hc => eq_of_mem_margin hc ▸ rfl)

/-! ### Lines of a type -/

/-- The line is indented, or it starts by closing what an earlier line opened. -/
def IsInner (line : List Char) : Prop :=
  ∃ c ∈ line.head?, c = ' ' ∨ c = '\x7d' ∨ c = ')'

theorem IsInner.append {line : List Char} (h : IsInner line) (more : List Char) :
    IsInner (line ++ more) := by
  obtain ⟨c, hc, hinner⟩ := h
  obtain ⟨rest, rfl⟩ := List.head?_eq_some_iff.mp hc
  exact ⟨c, rfl, hinner⟩

/-- A type that is written behind `line` goes on with this line or takes inner ones. -/
def GoesOn (line other : List Char) : Prop :=
  line <+: other ∨ IsInner other

theorem GoesOn.append {line other : List Char} (h : GoesOn line other) (more : List Char) :
    GoesOn line (other ++ more) :=
  h.imp (·.trans (List.prefix_append _ _)) (·.append more)

theorem GoesOn.of_append {line more other : List Char} (h : GoesOn (line ++ more) other) :
    GoesOn line other :=
  h.imp_left (List.prefix_append _ _).trans

theorem GoesOn.isInner {line other : List Char} (h : GoesOn line other) (hline : IsInner line) :
    IsInner other := by
  rcases h with ⟨more, rfl⟩ | h
  · exact hline.append more
  · exact h

/-- The text of a type, which can be written behind any line. -/
def ReadsType (text : List Char) : Prop :=
  ∀ line lines, ∃ last found,
    CodeReader.run ⟨.code, line, lines⟩ text = ⟨.code, last, lines ++ found⟩ ∧
      GoesOn line last ∧ ∀ other ∈ found, GoesOn line other

/-- Lines inside of a type. -/
def ReadsInner (text : List Char) : Prop :=
  ∀ lines, ∃ found, CodeReader.run ⟨.code, [], lines⟩ text = ⟨.code, [], lines ++ found⟩ ∧
    ∀ other ∈ found, IsInner other

theorem ReadsCode.readsType {text code : List Char} (h : ReadsCode text code) :
    ReadsType text := by
  intro line lines
  exact ⟨line ++ code, [], by rw [h, List.append_nil], .inl (List.prefix_append _ _), by simp⟩

theorem ReadsType.between {before text after opening closing : List Char} (h : ReadsType text)
    (hbefore : ReadsCode before opening) (hafter : ReadsCode after closing) :
    ReadsType (before ++ text ++ after) := by
  intro line lines
  obtain ⟨last, found, hrun, hlast, hfound⟩ := h (line ++ opening) lines
  refine ⟨last ++ closing, found, ?_, hlast.of_append.append closing,
    fun other hother => (hfound other hother).of_append⟩
  rw [CodeReader.run_append, CodeReader.run_append, hbefore, hrun, hafter]

theorem ReadsInner.append {text more : List Char} (h : ReadsInner text) (hmore : ReadsInner more) :
    ReadsInner (text ++ more) := by
  intro lines
  obtain ⟨found, hrun, hfound⟩ := h lines
  obtain ⟨others, hothers, hinner⟩ := hmore (lines ++ found)
  refine ⟨found ++ others, ?_, fun other hother => ?_⟩
  · rw [CodeReader.run_append, hrun, hothers, List.append_assoc]
  · exact (List.mem_append.mp hother).elim (hfound other) (hinner other)

theorem CodeReader.run_feed {line : List Char} {c : Char} (hc : c ∈ line) (hne : c ≠ ' ')
    (lines : List (List Char)) :
    CodeReader.run ⟨.code, line, lines⟩ ['\n'] = ⟨.code, [], lines ++ [line]⟩ := by
  have hcode : line.all (· == ' ') = false := by
    rw [Bool.eq_false_iff]
    intro hall
    exact hne (by simpa using List.all_eq_true.mp hall c hc)
  have hend : CodeReader.run ⟨.code, line, lines⟩ ['\n'] =
      CodeReader.endLine ⟨.code, line, lines⟩ := rfl
  rw [hend, CodeReader.endLine, hcode]
  rfl

/-- A type at the end of a line. -/
theorem ReadsType.readsLines {before text opening : List Char} (h : ReadsType text)
    (hbefore : ReadsCode before opening) :
    ∃ found, ReadsLines (before ++ text ++ [';', '\n']) found ∧
      ∀ other ∈ found, GoesOn opening other := by
  obtain ⟨last, found, hrun, hlast, hfound⟩ := h opening []
  have hsemicolon : ReadsCode [';'] [';'] := .char rfl
  refine ⟨found ++ [last ++ [';']], .of_run ?_, fun other hother => ?_⟩
  · rw [List.append_cons, CodeReader.run_append, CodeReader.run_append, CodeReader.run_append,
      hbefore, List.nil_append, hrun, hsemicolon,
      CodeReader.run_feed (List.mem_append_right _ List.mem_cons_self) (by decide),
      List.nil_append]
  · rcases List.mem_append.mp hother with hother | hother
    · exact hfound other hother
    · obtain rfl := List.mem_singleton.mp hother
      exact hlast.append _

/-- A type at the end of an inner line. -/
theorem ReadsType.entry {before text opening : List Char} (h : ReadsType text)
    (hbefore : ReadsCode before opening) (hinner : IsInner opening) :
    ReadsInner (before ++ text ++ [';', '\n']) := by
  obtain ⟨found, hread, hfound⟩ := h.readsLines hbefore
  intro lines
  exact ⟨found, hread lines, fun other hother => (hfound other hother).isInner hinner⟩

theorem ReadsLines.readsInner {text : List Char} (h : ReadsLines text []) : ReadsInner text := by
  intro lines
  exact ⟨[], h lines, by simp⟩

/-- An object is a brace, its entries, and a brace. -/
theorem ReadsInner.object {text : List Char} (h : ReadsInner text) (level : Nat) :
    ReadsType (['\x7b', '\n'] ++ text ++ margin level ++ ['\x7d']) := by
  intro line lines
  have hopen : ReadsCode ['\x7b'] ['\x7b'] := .char rfl
  have hclose : ReadsCode (margin level ++ ['\x7d']) (margin level ++ ['\x7d']) :=
    (readsCode_margin level).append (.char rfl)
  obtain ⟨found, hrun, hfound⟩ := h (lines ++ [line ++ ['\x7b']])
  refine ⟨margin level ++ ['\x7d'], (line ++ ['\x7b']) :: found, ?_, .inr ?_, ?_⟩
  · have hbrace : '\x7b' ∈ line ++ ['\x7b'] := List.mem_append_right _ List.mem_cons_self
    show CodeReader.run _ ((['\x7b'] ++ ['\n']) ++ text ++ margin level ++ ['\x7d']) = _
    rw [List.append_assoc]
    simp only [CodeReader.run_append _ _ (margin level ++ _), CodeReader.run_append _ _ text,
      CodeReader.run_append _ _ ['\n']]
    rw [hopen, CodeReader.run_feed hbrace (by decide), hrun, hclose, List.append_assoc]
    rfl
  · cases level with
    | zero => exact ⟨'\x7d', rfl, .inr (.inl rfl)⟩
    | succ level => exact ⟨' ', rfl, .inl rfl⟩
  · intro other hother
    rcases List.mem_cons.mp hother with rfl | hother
    · exact .inl (List.prefix_append _ _)
    · exact .inr (hfound other hother)

/-! ### Printed shapes -/

mutual

/-- Scalars are complete within a line, entries and values of a choice are names. -/
def Shape.Legible : Shape → Prop
  | .scalar type _ => ∃ code, ReadsCode type.toList code
  | .enum values _ => ∀ value ∈ values, IsName value
  | .list item _ => item.Legible
  | .object entries _ => EntriesLegible entries

def EntriesLegible : List (Entry Shape) → Prop
  | [] => True
  | ⟨name, type, _, _⟩ :: rest => IsName name ∧ type.Legible ∧ EntriesLegible rest

end

theorem exists_readsCode_enumText {values : List String} (h : ∀ value ∈ values, IsName value) :
    ∃ code, ReadsCode (enumText values) code := by
  cases values with
  | nil => exact ⟨_, .literal rfl⟩
  | cons value values =>
      induction values generalizing value with
      | nil =>
          have hvalue := ReadsCode.quotedName (isNameContinue_of_mem (h value List.mem_cons_self))
          exact ⟨_, by simpa [enumText] using hvalue⟩
      | cons next values ih =>
          have hvalue := ReadsCode.quotedName (isNameContinue_of_mem (h value List.mem_cons_self))
          obtain ⟨code, hcode⟩ := ih next fun other hother =>
            h other (List.mem_cons_of_mem _ hother)
          have htext : enumText (value :: next :: values) =
              '"' :: (value.toList ++ ['"']) ++ ([' ', '|', ' '] ++ enumText (next :: values)) := by
            simp [enumText, List.intercalate_cons_cons]
          have hbar : ReadsCode [' ', '|', ' '] [' ', '|', ' '] := .plain rfl
          rw [htext]
          exact ⟨_, hvalue.append (hbar.append hcode)⟩

theorem readsLines_docComment (description : Option String) (level : Nat) :
    ReadsLines (docComment description (margin level)) [] := by
  cases description with
  | none => exact .nil
  | some description =>
      cases htext : description.isEmpty with
      | true =>
          rw [docComment, htext]
          exact .nil
      | false =>
          obtain ⟨inside, hinside, hcomment⟩ := docComment_eq_append htext level
          have hwhole : docComment (some description) (margin level) =
              margin level ++ '/' :: '*' :: (inside ++ ['*', '/']) ++ ['\n'] := by
            rw [hcomment]
            simp
          rw [hwhole]
          refine ((readsCode_margin level).append (.comment hinside)).blankLine ?_
          rw [List.append_nil, List.all_eq_true]
          exact fun c hc => by simp [eq_of_mem_margin hc]

theorem readsType_emptyObject : ReadsType emptyObjectText.toList := by
  have htext : emptyObjectText.toList = '/' :: '*' :: ("* No fields found ".toList ++ ['*', '/']) ++
      " Record<string, unknown>".toList := by
    simp only [emptyObjectText, toList_literal]
    rfl
  have hinside : Unclosed "* No fields found ".toList := by
    simp only [toList_literal]
    simp [Unclosed]
  rw [htext]
  exact ((ReadsCode.comment hinside).append (.literal rfl)).readsType

mutual

/-- A printed type can be written behind any line. -/
theorem Shape.Legible.readsType {shape : Shape} (h : shape.Legible) (level : Nat) :
    ReadsType (shape.print level) := by
  match shape with
  | .scalar type description =>
      obtain ⟨code, hcode⟩ := h
      exact hcode.readsType
  | .enum values description =>
      obtain ⟨code, hcode⟩ := exists_readsCode_enumText h
      exact hcode.readsType
  | .list item description =>
      have hitem : item.Legible := h
      exact ReadsType.between (Shape.Legible.readsType hitem level) (.literal rfl) (.char rfl)
  | .object [] description => exact readsType_emptyObject
  | .object (entry :: entries) description =>
      exact ReadsInner.object (readsInner_printEntries (entry :: entries) h level) level

theorem readsInner_printEntries (entries : List (Entry Shape)) (h : EntriesLegible entries)
    (level : Nat) : ReadsInner (printEntries (level + 1) entries) := by
  match entries with
  | [] => exact ReadsLines.readsInner .nil
  | ⟨name, type, nullable, description⟩ :: entries =>
      obtain ⟨hname, htype, hentries⟩ := h
      have hmark : ReadsCode ((if nullable then ['?'] else []) ++ [':', ' '])
          ((if nullable then ['?'] else []) ++ [':', ' ']) := by
        cases nullable <;> exact .plain rfl
      have hfront := (readsCode_margin (level + 1)).append
        ((ReadsCode.name (isNameContinue_of_mem hname)).append hmark)
      have hinner : IsInner (margin (level + 1) ++ (name.toList ++
          ((if nullable then ['?'] else []) ++ [':', ' ']))) := ⟨' ', rfl, .inl rfl⟩
      have hentry := ReadsType.entry (Shape.Legible.readsType htype (level + 1)) hfront hinner
      have hall := (readsLines_docComment (description.map Explanation.words)
        (level + 1)).readsInner.append
          (hentry.append (readsInner_printEntries entries hentries level))
      simpa only [printEntries, propertyName_of_isName hname, List.append_assoc] using hall

end

end OperationLibrary
