import OperationLibrary.Proofs.BlockText
import OperationLibrary.Proofs.StringLexemes
import OperationLibrary.Proofs.StringText

/-!
The lexemes of printed definitions. Whatever is broken into lines and however far in it stands, a
printed definition consists of its lexemes, with the value in each block that is read back from it.
-/

namespace OperationLibrary.Syntax

open Layout
open BlockString (reread)

/-! ### Gaps -/

/-- Characters that mean nothing between tokens, at least one. -/
def IsGap (gap : List Char) : Prop :=
  gap ≠ [] ∧ ∀ c ∈ gap, isIgnored c = true

theorem isSeparator_of_isIgnored {c : Char} (h : isIgnored c = true) : isSeparator c = true := by
  simp only [isIgnored, Bool.or_eq_true, beq_iff_eq] at h
  obtain ((((rfl | rfl) | rfl) | rfl) | rfl) | rfl := h <;> decide

theorem IsGap.closed {gap : List Char} (h : IsGap gap) : Closed gap [] := by
  have hall := h.2
  clear h
  induction gap with
  | nil => exact Closed.nil
  | cons c gap ih =>
      exact (closed_ignored (hall c List.mem_cons_self)).append
        (ih fun d hd => hall d (List.mem_cons_of_mem _ hd))

theorem IsGap.opens {gap : List Char} (h : IsGap gap) (more : List Char) : Opens (gap ++ more) := by
  obtain ⟨c, gap, rfl⟩ := List.exists_cons_of_ne_nil h.1
  exact Opens.cons (isSeparator_of_isIgnored (h.2 c List.mem_cons_self)) _

theorem Writes.gap {text gap more : List Char} {found others : List Lexeme}
    (h : Writes text found) (hgap : IsGap gap) (hmore : Writes more others) :
    Writes (text ++ (gap ++ more)) (found ++ others) :=
  h.append (hgap.closed.append_writes hmore) (hgap.opens more)

theorem Writes.shifted {text : List Char} {found : List Lexeme} (h : Writes text found) (n : Nat) :
    Writes (shifted n text) found := by
  intro margin rest hrest
  rw [shifted_shifted]
  exact h (margin + n) rest hrest

/-- A text writes its lexemes and no others. -/
theorem Writes.unique {text : List Char} {found others : List Lexeme} (h : Writes text found)
    (hothers : Writes text others) : found = others := by
  have hend : Separated [] := fun c hc => nomatch hc
  have hsame := (h 0 [] hend).symm.trans (hothers 0 [] hend)
  exact List.append_cancel_right hsame

theorem Writes.eq_nil {found : List Lexeme} (h : Writes [] found) : found = [] :=
  h.unique Closed.nil.writes

theorem isGap_blank : IsGap " ".toList := by simp [IsGap, isIgnored]

theorem isGap_comma : IsGap ", ".toList := by simp [IsGap, isIgnored]

theorem isGap_feed : IsGap "\n".toList := by simp [IsGap, isIgnored]

/-! ### Layout -/

section

variable {α : Type} {print : α → String} {lexemes : α → List Lexeme} {items : List α}

theorem writes_intercalate {gap : String} (hgap : IsGap gap.toList)
    (h : ∀ a ∈ items, Writes (print a).toList (lexemes a)) :
    Writes (gap.intercalate (items.map print)).toList (items.flatMap lexemes) := by
  rw [String.toList_intercalate]
  induction items with
  | nil => exact Closed.nil.writes
  | cons first others ih =>
      have hfirst := h first List.mem_cons_self
      have ih := ih fun a ha => h a (List.mem_cons_of_mem _ ha)
      cases others with
      | nil => simpa using hfirst
      | cons second others =>
          rw [List.flatMap_cons]
          simp only [List.map_cons, List.intercalate_cons_cons, List.append_assoc] at ih ⊢
          exact hfirst.gap hgap ih

/-- Parts of a line; those that are empty are left out. -/
theorem writes_joinNonEmpty {parts : List String} {founds : List (List Lexeme)}
    (h : List.Forall₂ (fun part found => Writes part.toList found) parts founds) :
    Writes (joinNonEmpty " " parts).toList founds.flatten := by
  have hkept : ∃ kept : List (String × List Lexeme),
      parts.filter (fun part => !part.isEmpty) = kept.map Prod.fst ∧
        founds.flatten = kept.flatMap Prod.snd ∧ ∀ part ∈ kept, Writes part.1.toList part.2 := by
    induction h with
    | nil => exact ⟨[], rfl, rfl, fun part hpart => nomatch hpart⟩
    | @cons part found parts founds hpart _ ih =>
        obtain ⟨kept, hfilter, hflatten, hkept⟩ := ih
        by_cases hempty : part.isEmpty = true
        -- an empty part has no lexemes that could be missing
        · rw [String.isEmpty_iff.mp hempty] at hpart
          refine ⟨kept, ?_, ?_, hkept⟩
          · rw [List.filter_cons_of_neg (by simp [hempty]), hfilter]
          · rw [List.flatten_cons, hpart.eq_nil, hflatten, List.nil_append]
        · refine ⟨(part, found) :: kept, ?_, ?_, List.forall_mem_cons.mpr ⟨hpart, hkept⟩⟩
          · rw [List.filter_cons_of_pos (by simpa using hempty), hfilter, List.map_cons]
          · rw [List.flatten_cons, hflatten, List.flatMap_cons]
  obtain ⟨kept, hfilter, hflatten, hkept⟩ := hkept
  rw [joinNonEmpty, hfilter, hflatten]
  exact writes_intercalate isGap_blank hkept

theorem writes_indent {text : String} {found : List Lexeme} (h : Writes text.toList found) :
    Writes (indent text).toList found := by
  rw [indent]
  split
  · rename_i hempty
    rw [String.isEmpty_iff] at hempty
    rwa [hempty] at h
  · rw [String.toList_append, Text.indentAfterNewlines, String.toList_ofList]
    have hgap : IsGap Layout.margin.toList := by simp [IsGap, Layout.margin, isIgnored]
    exact hgap.closed.append_writes (h.shifted 2)

theorem closed_block (h : ∀ a ∈ items, Writes (print a).toList (lexemes a)) :
    Closed (block (items.map print)).toList
      (.punctuator .braceOpen :: (items.flatMap lexemes ++ [.punctuator .braceClose])) := by
  have hclose : Closed ['\n', '\x7d'] [.punctuator .braceClose] :=
    (closed_ignored rfl).append (closed_mark rfl)
  have hopen : Closed ['\x7b', '\n'] [.punctuator .braceOpen] :=
    (closed_mark rfl).append (closed_ignored rfl)
  rw [block]
  split
  · rename_i hempty
    obtain rfl : items = [] := by simpa using hempty
    exact (closed_mark rfl).append (closed_mark rfl)
  · have hitems := writes_indent (writes_intercalate isGap_feed h)
    rw [String.toList_append, String.toList_append]
    exact (hopen.append_writes hitems).append_closed hclose rfl

/-- Items between parentheses, if there are any. -/
theorem closed_enclose {before text after : String}
    (hbefore : Closed before.toList [.punctuator .parenOpen])
    (htext : Writes text.toList (items.flatMap lexemes)) (hitems : items = [] → text = "")
    (hlexemes : ∀ a ∈ items, lexemes a ≠ []) {c : Char} {more : List Char}
    (hafter : after.toList = c :: more) (hc : isSeparator c = true)
    (hclose : Closed after.toList [.punctuator .parenClose]) :
    Closed (enclose before text after).toList
      (enclosedLexemes .parenOpen .parenClose lexemes items) := by
  rw [enclose]
  split
  · rename_i hempty
    rw [String.isEmpty_iff.mp hempty] at htext
    have hnone : items = [] := by
      have hnil := List.flatMap_eq_nil_iff.mp htext.eq_nil
      exact List.eq_nil_iff_forall_not_mem.mpr fun a ha => hlexemes a ha (hnil a ha)
    subst hnone
    exact Closed.nil
  · rename_i hsome
    have hne : items ≠ [] := fun hnone => hsome (String.isEmpty_iff.mpr (hitems hnone))
    rw [enclosedLexemes, if_neg (by simpa using hne), String.toList_append, String.toList_append,
      hafter]
    rw [hafter] at hclose
    exact (hbefore.append_writes htext).append_closed hclose hc

theorem opens_enclose {before text after : String} {c : Char} {more : List Char}
    (hbefore : before.toList = c :: more) (hc : isSeparator c = true) :
    Opens (enclose before text after).toList := by
  rw [enclose]
  split
  · exact fun d hd => nomatch hd
  · rw [String.toList_append, String.toList_append, hbefore]
    exact Opens.cons hc _

/-- Arguments and variables on one line. -/
theorem closed_enclose_line (h : ∀ a ∈ items, Writes (print a).toList (lexemes a))
    (hlexemes : ∀ a ∈ items, lexemes a ≠ []) :
    Closed (enclose "(" (", ".intercalate (items.map print)) ")").toList
      (enclosedLexemes .parenOpen .parenClose lexemes items) :=
  closed_enclose (closed_mark rfl) (writes_intercalate isGap_comma h)
    (by rintro rfl; rfl) hlexemes rfl rfl (closed_mark rfl)

/-- Arguments and variables on lines of their own, indented or not. -/
theorem closed_enclose_lines (layout : String → String)
    (h : ∀ a ∈ items, Writes (print a).toList (lexemes a)) (hlexemes : ∀ a ∈ items, lexemes a ≠ [])
    (hlayout : ∀ {text : String} {found : List Lexeme}, Writes text.toList found →
      Writes (layout text).toList found) (hempty : layout "" = "") :
    Closed (enclose "(\n" (layout ("\n".intercalate (items.map print))) "\n)").toList
      (enclosedLexemes .parenOpen .parenClose lexemes items) :=
  closed_enclose ((closed_mark rfl).append (closed_ignored rfl) : Closed ['(', '\n'] _)
    (hlayout (writes_intercalate isGap_feed h)) (by rintro rfl; exact hempty) hlexemes rfl rfl
    ((closed_ignored rfl).append (closed_mark rfl) : Closed ['\n', ')'] _)

end

/-! ### Values -/

/-- A block can hold the string: there is no carriage return in it. -/
def Description.Printable (literal : Description) : Prop :=
  literal.block = true → '\r' ∉ literal.text.toList

/-- The string that is read where this one was printed. -/
def Description.reread (literal : Description) : Description :=
  if literal.block then ⟨String.ofList (BlockString.reread literal.text.toList), true⟩ else literal

theorem writes_printString {text : String} {block : Bool}
    (h : Description.Printable ⟨text, block⟩) :
    Writes (printString text block).toList [(Description.reread ⟨text, block⟩).lexeme] := by
  cases block with
  | true =>
      have hclosed := BlockString.closed_print (h rfl)
      rw [← String.toList_ofList (l := BlockString.print text.toList)] at hclosed
      exact hclosed.writes
  | false => exact writes_quote text

theorem printItems_eq_map (items : List Value) : printItems items = items.map Value.print := by
  induction items with
  | nil => rfl
  | cons item items ih => rw [printItems, ih, List.map_cons]

theorem printFields_eq_map (fields : List (String × Value)) :
    printFields fields = fields.map fun field => field.1 ++ ": " ++ field.2.print := by
  induction fields with
  | nil => rfl
  | cons field fields ih => rw [printFields, ih, List.map_cons]

theorem closed_printList {α : Type} {print : α → String} {lexemes : α → List Lexeme}
    {items : List α} (h : ∀ a ∈ items, Writes (print a).toList (lexemes a)) :
    Closed (printList (items.map print)).toList
      (.punctuator .bracketOpen :: (items.flatMap lexemes ++ [.punctuator .bracketClose])) := by
  have hopen : Closed ['[', '\n'] [.punctuator .bracketOpen] :=
    (closed_mark rfl).append (closed_ignored rfl)
  have hclose : Closed ['\n', ']'] [.punctuator .bracketClose] :=
    (closed_ignored rfl).append (closed_mark rfl)
  have hbracket : Closed [']'] [.punctuator .bracketClose] := closed_mark rfl
  rw [printList]
  split
  · rw [String.toList_append, String.toList_append]
    exact (hopen.append_writes (writes_indent (writes_intercalate isGap_feed h))).append_closed
      hclose rfl
  · rw [String.toList_append, String.toList_append]
    exact (Closed.append_writes (closed_mark rfl) (writes_intercalate isGap_comma h)).append_closed
      hbracket rfl

theorem closed_printObject {α : Type} {print : α → String} {lexemes : α → List Lexeme}
    {items : List α} (h : ∀ a ∈ items, Writes (print a).toList (lexemes a)) :
    Closed (printObject (items.map print)).toList
      (.punctuator .braceOpen :: (items.flatMap lexemes ++ [.punctuator .braceClose])) := by
  have hopen : Closed ['\x7b', ' '] [.punctuator .braceOpen] :=
    (closed_mark rfl).append (closed_ignored rfl)
  have hclose : Closed [' ', '\x7d'] [.punctuator .braceClose] :=
    (closed_ignored rfl).append (closed_mark rfl)
  rw [printObject]
  split
  · exact closed_block h
  · rw [String.toList_append, String.toList_append]
    exact (hopen.append_writes (writes_intercalate isGap_comma h)).append_closed hclose rfl

/-- A name, a colon and a value. -/
theorem writes_named {name : String} (hname : IsName name) {text : String} {found : List Lexeme}
    (h : Writes text.toList found) :
    Writes (name ++ ": " ++ text).toList (.name name :: .punctuator .colon :: found) := by
  have hcolon : Closed [':', ' '] [.punctuator .colon] :=
    (closed_mark rfl).append (closed_ignored rfl)
  rw [String.toList_append, String.toList_append]
  exact (hname.writes.append_closed hcolon rfl).append_writes h

theorem Value.Fits.writes {constant : Bool} {room : Nat} {value : Value}
    (h : value.Fits Description.Printable constant room) :
    Writes value.print.toList (value.mapStrings Description.reread).lexemes := by
  induction h with
  | «variable» hconstant hname =>
      simp only [Value.mapStrings, Value.lexemes, Value.print, String.toList_append]
      exact Closed.append_writes (closed_mark rfl) hname.writes
  | int hdigits | float hdigits =>
      simp only [Value.mapStrings, Value.lexemes, Value.print]
      simpa [numberLexeme] using hdigits.writes
  | string hliteral =>
      rw [Value.mapStrings, Value.lexemes, Value.print]
      exact writes_printString hliteral
  | boolean value =>
      simp only [Value.mapStrings, Value.lexemes, Value.print]
      cases value with
      | true => exact (show IsName "true" by decide).writes
      | false => exact (show IsName "false" by decide).writes
  | null =>
      simp only [Value.mapStrings, Value.lexemes, Value.print]
      exact IsName.writes (by decide)
  | enum hname hreserved =>
      simp only [Value.mapStrings, Value.lexemes, Value.print]
      exact hname.writes
  | list hitems ih =>
      rw [Value.mapStrings, Value.lexemes, Value.print, printItems_eq_map, List.flatMap_map]
      exact (closed_printList ih).writes
  | object hnames hvalues ih =>
      rw [Value.mapStrings, Value.lexemes, Value.print, printFields_eq_map, List.flatMap_map]
      exact (closed_printObject fun field hfield =>
        writes_named (hnames field hfield) (ih field hfield)).writes

/-! ### Arguments, directives and types -/

section

variable {constant : Bool} {room : Nat}

theorem Argument.Fits.writes {argument : Argument}
    (h : argument.Fits Description.Printable constant room) :
    Writes argument.print.toList (argument.mapStrings Description.reread).lexemes :=
  writes_named h.name h.value.writes

/-- A name with arguments behind it, all on one line. -/
theorem writes_call {name : List Char} {found : List Lexeme} {arguments : List Argument}
    (hname : Writes name found)
    (h : ∀ argument ∈ arguments, argument.Fits Description.Printable constant room) :
    Writes (name ++ (enclose "(" (", ".intercalate (arguments.map Argument.print)) ")").toList)
      (found ++ argumentLexemes (arguments.map (Argument.mapStrings Description.reread))) := by
  rw [argumentLexemes, enclosedLexemes_map]
  have hclosed := closed_enclose_line (fun argument hargument => (h argument hargument).writes)
    fun argument _ => List.cons_ne_nil _ _
  exact hname.append hclosed.writes (opens_enclose rfl rfl)

theorem Directive.Fits.writes {directive : Directive}
    (h : directive.Fits Description.Printable constant room) :
    Writes directive.print.toList (directive.mapStrings Description.reread).lexemes := by
  rw [Directive.print, String.toList_append, String.toList_append]
  exact writes_call (Closed.append_writes (closed_mark rfl) h.name.writes) h.arguments

theorem writes_directives {directives : List Directive}
    (h : ∀ directive ∈ directives, directive.Fits Description.Printable constant room) :
    Writes (printDirectives directives).toList
      (directiveLexemes (directives.map (Directive.mapStrings Description.reread))) := by
  rw [directiveLexemes, List.flatMap_map]
  exact writes_intercalate isGap_blank fun directive hdirective => (h directive hdirective).writes

end

theorem TypeRef.Fits.writes {room : Nat} {type : TypeRef} (h : type.Fits room) :
    Writes type.print.toList type.lexemes := by
  induction h with
  | named hname => exact hname.writes
  | list hitem ih =>
      rw [TypeRef.print, TypeRef.lexemes, String.toList_append, String.toList_append]
      exact ((Closed.append_writes (closed_mark rfl) ih).append_closed (closed_mark rfl) rfl).writes
  | nonNull hinner hnull ih =>
      rw [TypeRef.print, TypeRef.lexemes, String.toList_append]
      exact (ih.append_closed (closed_mark rfl) rfl).writes

/-! ### Selections -/

/-- What is behind a blank, if there is anything. -/
theorem writes_enclose_blank {text : String} {found : List Lexeme} (h : Writes text.toList found) :
    Writes (enclose " " text "").toList found := by
  rw [enclose]
  split
  · rename_i hempty
    rwa [String.isEmpty_iff.mp hempty] at h
  · rw [String.toList_append, String.toList_append]
    have hmore := (closed_ignored rfl : Closed [' '] []).append_writes h
    rwa [← List.append_nil (_ ++ text.toList)] at hmore

/-- What is in front of a blank and more, if there is anything. -/
theorem writes_enclosed_before {text : String} {more : List Char} {found others : List Lexeme}
    (h : Writes text.toList found) (hmore : Writes more others) :
    Writes ((enclose "" text " ").toList ++ more) (found ++ others) := by
  rw [enclose]
  split
  · rename_i hempty
    rw [String.isEmpty_iff.mp hempty] at h
    rw [h.eq_nil]
    exact hmore
  · rw [String.toList_append, String.toList_append, List.append_assoc]
    exact h.gap isGap_blank hmore

theorem FieldHead.Fits.writes_call {room : Nat} {head : FieldHead}
    (h : head.Fits Description.Printable room) :
    Writes (printFieldCall head).toList
      (((head.aliasName.map fun name => [.name name, .punctuator .colon]).getD [] : List Lexeme) ++
        .name head.name ::
          argumentLexemes (head.arguments.map (Argument.mapStrings Description.reread))) := by
  have hname : Writes ((head.aliasName.map (· ++ ": ")).getD "" ++ head.name).toList
      (((head.aliasName.map fun name => [.name name, .punctuator .colon]).getD [] : List Lexeme) ++
        [.name head.name]) := by
    rw [String.toList_append]
    cases haliased : head.aliasName with
    | none => exact h.name.writes
    | some name =>
        have hcolon : Closed [':', ' '] [.punctuator .colon] :=
          (closed_mark rfl).append (closed_ignored rfl)
        have hclosed := (h.aliasName name haliased).writes.append_closed hcolon rfl
        rw [Option.map_some, Option.getD_some, String.toList_append]
        exact hclosed.append_writes h.name.writes
  rw [List.append_cons]
  simp only [printFieldCall]
  split
  · have hclosed := closed_enclose_lines indent
      (fun argument hargument => (h.arguments argument hargument).writes)
      (fun argument _ => List.cons_ne_nil _ _) writes_indent rfl
    rw [String.toList_append, argumentLexemes, enclosedLexemes_map]
    exact hname.append hclosed.writes (opens_enclose rfl rfl)
  · rw [String.toList_append]
    exact Syntax.writes_call hname h.arguments

theorem printSelections_eq_map (selections : List Selection) :
    printSelections selections = selections.map Selection.print := by
  induction selections with
  | nil => rfl
  | cons selection selections ih => rw [printSelections, ih, List.map_cons]

theorem writes_block {selections : List Selection}
    (h : ∀ selection ∈ selections, Writes selection.print.toList
      (selection.mapStrings Description.reread).lexemes) :
    Writes (block (printSelections selections)).toList
      (selectionLexemes (selections.map (Selection.mapStrings Description.reread))) := by
  rw [printSelections_eq_map, selectionLexemes, List.flatMap_map]
  exact (closed_block h).writes

theorem Selection.Fits.writes {room : Nat} {selection : Selection}
    (h : selection.Fits Description.Printable room) :
    Writes selection.print.toList (selection.mapStrings Description.reread).lexemes := by
  induction h with
  | leaf hhead =>
      have hwrites := writes_joinNonEmpty
        (.cons hhead.writes_call (.cons (writes_directives hhead.directives)
          (.cons (a := "") Closed.nil.writes .nil)))
      simpa only [Selection.print, Selection.mapStrings, Selection.lexemes, FieldHead.lexemes,
        FieldHead.mapStrings, List.flatten_cons, List.flatten_nil, List.append_nil,
        List.append_assoc, List.cons_append] using hwrites
  | field hhead hselections ih =>
      have hwrites := writes_joinNonEmpty (.cons hhead.writes_call
        (.cons (writes_directives hhead.directives) (.cons (writes_block ih) .nil)))
      simpa only [Selection.print, Selection.mapStrings, Selection.lexemes, FieldHead.lexemes,
        FieldHead.mapStrings, selectionLexemes, List.flatten_cons, List.flatten_nil,
        List.append_nil, List.append_assoc, List.cons_append] using hwrites
  | @spread room fragment directives hname hon hdirectives =>
      have hblank := writes_enclose_blank (writes_directives hdirectives)
      have hopens : Opens (enclose " " (printDirectives directives) "").toList :=
        opens_enclose rfl rfl
      rw [Selection.print, String.toList_append, String.toList_append, Selection.mapStrings,
        Selection.lexemes]
      exact (closed_ellipsis.append_writes hname.writes).append hblank hopens
  | @inline room condition directives selections hcondition hdirectives hselections ih =>
      have hon : Writes ((condition.map ("on " ++ ·)).getD "").toList
          (conditionLexemes condition) := by
        cases condition with
        | none => exact Closed.nil.writes
        | some name =>
            have hon : IsName "on" := by decide
            have hcondition := hon.writes.gap isGap_blank (hcondition name rfl).writes
            rwa [← String.toList_append, ← String.toList_append, ← String.append_assoc]
              at hcondition
      have hwrites := writes_joinNonEmpty (.cons (a := "...") closed_ellipsis.writes
        (.cons hon (.cons (writes_directives hdirectives) (.cons (writes_block ih) .nil))))
      simpa only [Selection.print, Selection.mapStrings, Selection.lexemes, selectionLexemes,
        List.flatten_cons, List.flatten_nil, List.append_nil, List.append_assoc,
        List.cons_append, List.nil_append] using hwrites

/-! ### Definitions -/

/-- A description is on lines of its own. -/
theorem closed_description {description : Option Description}
    (h : ∀ literal ∈ description, literal.Printable) :
    Closed ((description.map (·.print ++ "\n")).getD "").toList
      (descriptionLexemes (description.map Description.reread)) := by
  cases description with
  | none => exact Closed.nil
  | some literal =>
      have hliteral : Writes literal.print.toList [literal.reread.lexeme] :=
        writes_printString (h literal rfl)
      rw [Option.map_some, Option.getD_some, String.toList_append]
      exact hliteral.append_closed (closed_ignored rfl) rfl

theorem VariableDefinition.Fits.writes {definition : VariableDefinition}
    (h : definition.Fits Description.Printable) :
    Writes definition.print.toList (definition.mapStrings Description.reread).lexemes := by
  obtain ⟨description, name, type, default, directives⟩ := definition
  have hcolon : Closed [':', ' '] [.punctuator .colon] :=
    (closed_mark rfl).append (closed_ignored rfl)
  have hequals : Closed [' ', '=', ' '] [.punctuator .equals] :=
    (closed_ignored rfl).append ((closed_mark rfl).append (closed_ignored rfl))
  have hname : Closed ("$" ++ name ++ ": ").toList
      [.punctuator .dollar, .name name, .punctuator .colon] := by
    rw [String.toList_append, String.toList_append]
    exact (Closed.append_writes (closed_mark rfl) h.name.writes).append_closed hcolon rfl
  have hdefault : Writes ((default.map (" = " ++ ·.print)).getD "").toList
      (((default.map (Value.mapStrings Description.reread)).map
        fun value => .punctuator .equals :: value.lexemes).getD []) := by
    cases default with
    | none => exact Closed.nil.writes
    | some value =>
        rw [Option.map_some, Option.getD_some, String.toList_append]
        exact hequals.append_writes (h.default value rfl).writes
  -- the type ends where the default opens
  have hopens : Opens ((default.map (" = " ++ ·.print)).getD "").toList := by
    cases default with
    | none => exact fun c hc => nomatch hc
    | some value =>
        rw [Option.map_some, Option.getD_some, String.toList_append]
        exact Opens.cons rfl _
  have hdirectives := writes_enclose_blank (writes_directives h.directives)
  have hwrites := ((closed_description h.description).append hname).append_writes
    ((h.type.writes.append hdefault hopens).append hdirectives (opens_enclose rfl rfl))
  simpa only [VariableDefinition.print, VariableDefinition.mapStrings, VariableDefinition.lexemes,
    String.toList_append, List.append_assoc, List.cons_append, List.nil_append] using hwrites

theorem closed_variables {definitions : List VariableDefinition}
    (h : ∀ definition ∈ definitions, definition.Fits Description.Printable) :
    Closed (printVariables definitions).toList
      (enclosedLexemes .parenOpen .parenClose VariableDefinition.lexemes
        (definitions.map (VariableDefinition.mapStrings Description.reread))) := by
  have hwrites : ∀ definition ∈ definitions, Writes definition.print.toList
      (definition.mapStrings Description.reread).lexemes :=
    fun definition hdefinition => (h definition hdefinition).writes
  have hlexemes : ∀ definition ∈ definitions,
      (definition.mapStrings Description.reread).lexemes ≠ [] :=
    fun definition _ => by simp [VariableDefinition.lexemes]
  rw [enclosedLexemes_map]
  simp only [printVariables]
  split
  · exact closed_enclose_lines id hwrites hlexemes id rfl
  · exact closed_enclose_line hwrites hlexemes

theorem opens_variables {definitions : List VariableDefinition} :
    Opens (printVariables definitions).toList := by
  simp only [printVariables]
  split
  · exact opens_enclose rfl rfl
  · exact opens_enclose rfl rfl

/-- An operation is its selections alone if there is only a keyword in front of them. -/
theorem Operation.isShort_iff (operation : Operation) :
    operation.isShort = true ↔ operation.headLexemes = [.name "query"] := by
  obtain ⟨description, kind, name, variableDefinitions, directives, selections⟩ := operation
  have hkind : kind = .query ↔ kind.keyword = "query" := by
    cases kind <;> simp [OperationKind.keyword]
  have hvariables : variableDefinitions = [] ↔ enclosedLexemes .parenOpen .parenClose
      VariableDefinition.lexemes variableDefinitions = [] := by
    cases variableDefinitions <;> simp [enclosedLexemes]
  have hdirectives : directives = [] ↔ directiveLexemes directives = [] := by
    cases directives <;> simp [directiveLexemes, Directive.lexemes]
  cases description with
  | none =>
      simp [isShort, headLexemes, descriptionLexemes, hkind, hvariables, hdirectives, and_assoc]
  | some literal =>
      have hliteral : literal.lexeme ≠ .name "query" := by
        rw [Description.lexeme]
        split <;> simp
      simp [isShort, headLexemes, descriptionLexemes, hliteral]

theorem OperationKind.isName_keyword (kind : OperationKind) : IsName kind.keyword := by
  cases kind <;> decide

/-- What is printed in front of the selections, and left out where it is only a keyword. -/
theorem Operation.Fits.exists_head {operation : Operation}
    (h : operation.Fits Description.Printable) :
    ∃ head : String,
      operation.print = (if head == "query" then "" else head ++ " ") ++
          block (printSelections operation.selections) ∧
        Writes head.toList (operation.mapStrings Description.reread).headLexemes ∧
        (operation.isShort = true → head = "query") := by
  refine ⟨_, rfl, ?_, fun hshort => ?_⟩
  · have hvariables := closed_variables h.variableDefinitions
    have hname : Writes ((operation.name.getD "") ++
          printVariables operation.variableDefinitions).toList
        ((operation.name.map Lexeme.name).toList ++
          enclosedLexemes .parenOpen .parenClose VariableDefinition.lexemes
            (operation.variableDefinitions.map
              (VariableDefinition.mapStrings Description.reread))) := by
      rw [String.toList_append]
      cases hnamed : operation.name with
      | none => exact hvariables.writes
      | some name => exact (h.name name hnamed).writes.append hvariables.writes opens_variables
    have hjoined := writes_joinNonEmpty (.cons operation.kind.isName_keyword.writes
      (.cons hname (.cons (writes_directives h.directives) .nil)))
    have hhead := (closed_description h.description).append_writes hjoined
    rw [String.toList_append]
    simpa only [Operation.headLexemes, Operation.mapStrings, List.flatten_cons, List.flatten_nil,
      List.append_nil, List.append_assoc, List.cons_append, List.nil_append] using hhead
  · obtain ⟨description, kind, name, variableDefinitions, directives, selections⟩ := operation
    simp only [Operation.isShort, Bool.and_eq_true, Option.isNone_iff_eq_none, decide_eq_true_eq,
      List.isEmpty_iff] at hshort
    obtain ⟨⟨⟨⟨rfl, rfl⟩, rfl⟩, rfl⟩, rfl⟩ := hshort
    rfl

theorem Operation.Fits.writes {operation : Operation}
    (h : operation.Fits Description.Printable) :
    Writes operation.print.toList (operation.mapStrings Description.reread).lexemes := by
  have hselections : Writes (block (printSelections operation.selections)).toList
      (selectionLexemes (operation.mapStrings Description.reread).selections) :=
    writes_block fun selection hselection => (h.selections selection hselection).writes
  obtain ⟨head, hprint, hhead, hquery⟩ := h.exists_head
  rw [hprint, Operation.lexemes, String.toList_append]
  by_cases hshort : (operation.mapStrings Description.reread).isShort = true
  · obtain rfl := hquery (by rwa [Operation.isShort_mapStrings] at hshort)
    rw [if_pos hshort]
    exact hselections
  · have hne : head ≠ "query" := by
      -- a head that is only the keyword has only one lexeme
      rintro rfl
      have hword : IsName "query" := by decide
      exact hshort ((Operation.isShort_iff _).mpr (hhead.unique hword.writes))
    rw [if_neg hshort, if_neg (by simpa using hne), String.toList_append, List.append_assoc]
    exact hhead.gap isGap_blank hselections

theorem Fragment.Fits.writes {fragment : Fragment} (h : fragment.Fits Description.Printable) :
    Writes fragment.print.toList (fragment.mapStrings Description.reread).lexemes := by
  have hfragment : IsName "fragment" := by decide
  have hon : IsName "on" := by decide
  have hselections : Writes (block (printSelections fragment.selections)).toList
      (selectionLexemes (fragment.mapStrings Description.reread).selections) :=
    writes_block fun selection hselection => (h.selections selection hselection).writes
  have hbody := writes_enclosed_before (writes_directives h.directives) hselections
  have hcondition := h.condition.writes.gap isGap_blank hbody
  have hname := h.name.writes.gap isGap_blank (hon.writes.gap isGap_blank hcondition)
  have hwrites := (closed_description h.description).append_writes
    (hfragment.writes.gap isGap_blank hname)
  have hbefore : "fragment ".toList = "fragment".toList ++ " ".toList := rfl
  have hbetween : " on ".toList = " ".toList ++ ("on".toList ++ " ".toList) := rfl
  simpa only [Fragment.print, Fragment.lexemes, Fragment.mapStrings, String.toList_append, hbefore,
    hbetween, List.append_assoc, List.cons_append, List.nil_append] using hwrites

theorem Executable.Fits.writes {executable : Executable}
    (h : executable.Fits Description.Printable) :
    Writes executable.print.toList (executable.mapStrings Description.reread).lexemes := by
  cases executable with
  | operation operation => exact Operation.Fits.writes h
  | fragment fragment => exact Fragment.Fits.writes h

end OperationLibrary.Syntax
