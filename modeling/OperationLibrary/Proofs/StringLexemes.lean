import Mathlib.Data.List.Basic
import OperationLibrary.Proofs.StringLiterals

/-!
The strings among the lexemes of a definition. A string of a definition is one whose lexeme is
among those of the definition; what the grammar asks of strings and what is known of such lexemes go
together.
-/

namespace OperationLibrary.Syntax

variable {p q : Description → Prop} {f : Description → Description}

/-! ### Lexemes of strings -/

/-- The lexeme of a string after a change, any other one as it is. -/
def Lexeme.mapString (f : Description → Description) : Lexeme → Lexeme
  | .string text => (f ⟨text, false⟩).lexeme
  | .blockString text => (f ⟨text, true⟩).lexeme
  | other => other

@[simp] theorem Description.mapString_lexeme (literal : Description) :
    literal.lexeme.mapString f = (f literal).lexeme := by
  obtain ⟨text, _ | _⟩ := literal <;> rfl

/-! ### Lexemes of changed strings -/

theorem enclosedLexemes_map {α β : Type} (openMark close : Punctuator)
    (lexemes : β → List Lexeme) (f : α → β) (items : List α) :
    enclosedLexemes openMark close lexemes (items.map f) =
      enclosedLexemes openMark close (fun a => lexemes (f a)) items := by
  rw [enclosedLexemes, enclosedLexemes, List.isEmpty_map, List.flatMap_map]

theorem map_enclosedLexemes {α : Type} (openMark close : Punctuator) (lexemes : α → List Lexeme)
    (items : List α) :
    (enclosedLexemes openMark close lexemes items).map (Lexeme.mapString f) =
      enclosedLexemes openMark close (fun a => (lexemes a).map (Lexeme.mapString f)) items := by
  cases items <;> simp [enclosedLexemes, Lexeme.mapString, List.map_flatMap]

theorem Value.lexemes_mapStrings (value : Value) :
    (value.mapStrings f).lexemes = value.lexemes.map (Lexeme.mapString f) := by
  fun_induction Value.mapStrings f value with
  | case1 text block => simp [Value.lexemes]
  | case2 items ih =>
      simp [Value.lexemes, List.flatMap_map, List.map_flatMap, Lexeme.mapString,
        List.flatMap_congr ih]
  | case3 fields ih =>
      have hfields : ∀ field ∈ fields,
          (.name field.1 :: .punctuator .colon :: (field.2.mapStrings f).lexemes : List Lexeme) =
            .name field.1 :: .punctuator .colon :: field.2.lexemes.map (Lexeme.mapString f) :=
        fun field hfield => by rw [ih field hfield]
      simp [Value.lexemes, List.flatMap_map, List.map_flatMap, Lexeme.mapString,
        List.flatMap_congr hfields]
  | case4 value hstring hlist hobject =>
      cases value with
      | string text block => exact (hstring text block rfl).elim
      | list items => exact (hlist items rfl).elim
      | object fields => exact (hobject fields rfl).elim
      | _ => simp [Value.lexemes, Lexeme.mapString]

theorem argumentLexemes_mapStrings (arguments : List Argument) :
    argumentLexemes (arguments.map (Argument.mapStrings f)) =
      (argumentLexemes arguments).map (Lexeme.mapString f) := by
  simp [argumentLexemes, enclosedLexemes_map, map_enclosedLexemes, Argument.lexemes,
    Argument.mapStrings, Value.lexemes_mapStrings, Lexeme.mapString]

theorem directiveLexemes_mapStrings (directives : List Directive) :
    directiveLexemes (directives.map (Directive.mapStrings f)) =
      (directiveLexemes directives).map (Lexeme.mapString f) := by
  simp [directiveLexemes, List.flatMap_map, List.map_flatMap, Directive.lexemes,
    Directive.mapStrings, argumentLexemes_mapStrings, Lexeme.mapString]

theorem FieldHead.lexemes_mapStrings (head : FieldHead) :
    (head.mapStrings f).lexemes = head.lexemes.map (Lexeme.mapString f) := by
  cases haliased : head.aliasName <;>
    simp [FieldHead.lexemes, FieldHead.mapStrings, haliased, argumentLexemes_mapStrings,
      directiveLexemes_mapStrings, Lexeme.mapString]

theorem Selection.lexemes_mapStrings (selection : Selection) :
    (selection.mapStrings f).lexemes = selection.lexemes.map (Lexeme.mapString f) := by
  fun_induction Selection.mapStrings f selection with
  | case1 head => rw [Selection.lexemes, Selection.lexemes, FieldHead.lexemes_mapStrings]
  | case2 head selections ih =>
      simp [Selection.lexemes, FieldHead.lexemes_mapStrings, List.flatMap_map, List.map_flatMap,
        Lexeme.mapString, List.flatMap_congr ih]
  | case3 fragment directives =>
      simp [Selection.lexemes, directiveLexemes_mapStrings, Lexeme.mapString]
  | case4 condition directives selections ih =>
      cases condition <;>
        simp [Selection.lexemes, directiveLexemes_mapStrings, conditionLexemes, List.flatMap_map,
          List.map_flatMap, Lexeme.mapString, List.flatMap_congr ih]

theorem selectionLexemes_mapStrings (selections : List Selection) :
    selectionLexemes (selections.map (Selection.mapStrings f)) =
      (selectionLexemes selections).map (Lexeme.mapString f) := by
  simp [selectionLexemes, List.flatMap_map, List.map_flatMap, Selection.lexemes_mapStrings,
    Lexeme.mapString]

theorem descriptionLexemes_map (description : Option Description) :
    descriptionLexemes (description.map f) =
      (descriptionLexemes description).map (Lexeme.mapString f) := by
  cases description <;> simp [descriptionLexemes]

theorem TypeRef.map_lexemes (type : TypeRef) :
    type.lexemes.map (Lexeme.mapString f) = type.lexemes := by
  induction type with
  | named name => rfl
  | list item ih => simp [lexemes, Lexeme.mapString, ih]
  | nonNull inner ih => simp [lexemes, Lexeme.mapString, ih]

theorem VariableDefinition.lexemes_mapStrings (definition : VariableDefinition) :
    (definition.mapStrings f).lexemes = definition.lexemes.map (Lexeme.mapString f) := by
  cases hdefault : definition.default <;>
    simp [VariableDefinition.lexemes, VariableDefinition.mapStrings, hdefault,
      descriptionLexemes_map, directiveLexemes_mapStrings, TypeRef.map_lexemes,
      Value.lexemes_mapStrings, Lexeme.mapString]

theorem Operation.headLexemes_mapStrings (operation : Operation) :
    (operation.mapStrings f).headLexemes = operation.headLexemes.map (Lexeme.mapString f) := by
  cases hname : operation.name <;>
    simp [Operation.headLexemes, Operation.mapStrings, hname, descriptionLexemes_map,
      enclosedLexemes_map, map_enclosedLexemes, VariableDefinition.lexemes_mapStrings,
      directiveLexemes_mapStrings, Lexeme.mapString]

theorem Executable.lexemes_mapStrings (executable : Executable) :
    (executable.mapStrings f).lexemes = executable.lexemes.map (Lexeme.mapString f) := by
  cases executable with
  | operation operation =>
      rw [Executable.mapStrings, Executable.lexemes, Executable.lexemes, Operation.lexemes,
        Operation.lexemes, Operation.isShort_mapStrings]
      split
      · exact selectionLexemes_mapStrings _
      · rw [List.map_append, Operation.headLexemes_mapStrings]
        exact congrArg _ (selectionLexemes_mapStrings _)
  | fragment fragment =>
      simp [Executable.mapStrings, Executable.lexemes, Fragment.lexemes, Fragment.mapStrings,
        descriptionLexemes_map, directiveLexemes_mapStrings, selectionLexemes_mapStrings,
        Lexeme.mapString]

/-! ### Where the strings of a definition are -/

section

variable {literal : Description}

theorem mem_enclosedLexemes {α : Type} {openMark close : Punctuator} {lexemes : α → List Lexeme}
    {items : List α} :
    literal.lexeme ∈ enclosedLexemes openMark close lexemes items ↔
      ∃ a ∈ items, literal.lexeme ∈ lexemes a := by
  cases items <;> simp [enclosedLexemes]

theorem Value.mem_lexemes_list {items : List Value} :
    literal.lexeme ∈ (Value.list items).lexemes ↔
      ∃ item ∈ items, literal.lexeme ∈ item.lexemes := by
  simp [Value.lexemes]

theorem Value.mem_lexemes_object {fields : List (String × Value)} :
    literal.lexeme ∈ (Value.object fields).lexemes ↔
      ∃ field ∈ fields, literal.lexeme ∈ field.2.lexemes := by
  simp [Value.lexemes]

theorem mem_argumentLexemes {arguments : List Argument} :
    literal.lexeme ∈ argumentLexemes arguments ↔
      ∃ argument ∈ arguments, literal.lexeme ∈ argument.value.lexemes := by
  simp [argumentLexemes, mem_enclosedLexemes, Argument.lexemes]

theorem mem_directiveLexemes {directives : List Directive} :
    literal.lexeme ∈ directiveLexemes directives ↔
      ∃ directive ∈ directives, literal.lexeme ∈ argumentLexemes directive.arguments := by
  simp [directiveLexemes, Directive.lexemes]

theorem FieldHead.mem_lexemes {head : FieldHead} :
    literal.lexeme ∈ head.lexemes ↔ literal.lexeme ∈ argumentLexemes head.arguments ∨
      literal.lexeme ∈ directiveLexemes head.directives := by
  cases haliased : head.aliasName <;> simp [FieldHead.lexemes, haliased]

theorem mem_selectionLexemes {selections : List Selection} :
    literal.lexeme ∈ selectionLexemes selections ↔
      ∃ selection ∈ selections, literal.lexeme ∈ selection.lexemes := by
  simp [selectionLexemes]

theorem Selection.mem_lexemes_field {head : FieldHead} {selections : List Selection} :
    literal.lexeme ∈ (Selection.field head (some selections)).lexemes ↔
      literal.lexeme ∈ head.lexemes ∨ literal.lexeme ∈ selectionLexemes selections := by
  rw [Selection.lexemes, List.mem_append, selectionLexemes]

theorem Selection.mem_lexemes_spread {fragment : String} {directives : List Directive} :
    literal.lexeme ∈ (Selection.spread fragment directives).lexemes ↔
      literal.lexeme ∈ directiveLexemes directives := by
  simp [Selection.lexemes]

theorem Selection.mem_lexemes_inline {condition : Option String} {directives : List Directive}
    {selections : List Selection} :
    literal.lexeme ∈ (Selection.inline condition directives selections).lexemes ↔
      literal.lexeme ∈ directiveLexemes directives ∨
        literal.lexeme ∈ selectionLexemes selections := by
  cases condition <;> simp [Selection.lexemes, conditionLexemes, selectionLexemes]

theorem mem_descriptionLexemes {description : Option Description} :
    literal.lexeme ∈ descriptionLexemes description ↔ literal ∈ description := by
  cases description <;> simp [descriptionLexemes, eq_comm]

theorem TypeRef.lexeme_not_mem (type : TypeRef) : literal.lexeme ∉ type.lexemes := by
  induction type with
  | named name => simp [lexemes]
  | list item ih => simp [lexemes, ih]
  | nonNull inner ih => simp [lexemes, ih]

theorem VariableDefinition.mem_lexemes {definition : VariableDefinition} :
    literal.lexeme ∈ definition.lexemes ↔ literal ∈ definition.description ∨
      (∃ value ∈ definition.default, literal.lexeme ∈ value.lexemes) ∨
        literal.lexeme ∈ directiveLexemes definition.directives := by
  cases hdefault : definition.default <;>
    simp [VariableDefinition.lexemes, hdefault, mem_descriptionLexemes, TypeRef.lexeme_not_mem]

theorem Operation.mem_headLexemes {operation : Operation} :
    literal.lexeme ∈ operation.headLexemes ↔ literal ∈ operation.description ∨
      (∃ definition ∈ operation.variableDefinitions, literal.lexeme ∈ definition.lexemes) ∨
        literal.lexeme ∈ directiveLexemes operation.directives := by
  cases hname : operation.name <;>
    simp [Operation.headLexemes, hname, mem_descriptionLexemes, mem_enclosedLexemes]

/-- A short operation has no string in front of its selections. -/
theorem Operation.mem_lexemes {operation : Operation} :
    literal.lexeme ∈ operation.lexemes ↔ literal.lexeme ∈ operation.headLexemes ∨
      literal.lexeme ∈ selectionLexemes operation.selections := by
  rw [Operation.lexemes]
  split
  · rename_i hshort
    simp only [Operation.isShort, Bool.and_eq_true, Option.isNone_iff_eq_none,
      List.isEmpty_iff] at hshort
    obtain ⟨⟨⟨⟨hdescription, -⟩, -⟩, hvariables⟩, hdirectives⟩ := hshort
    simp [mem_headLexemes, hdescription, hvariables, hdirectives, directiveLexemes]
  · exact List.mem_append

theorem Fragment.mem_lexemes {fragment : Fragment} :
    literal.lexeme ∈ fragment.lexemes ↔ literal ∈ fragment.description ∨
      literal.lexeme ∈ directiveLexemes fragment.directives ∨
        literal.lexeme ∈ selectionLexemes fragment.selections := by
  simp [Fragment.lexemes, mem_descriptionLexemes]

end

/-! ### What the grammar asks of strings

A definition that fits with `p` fits with more, if more is known of each string in its lexemes; and
`p` is known of each of them. -/

section

variable {constant : Bool} {room : Nat} {literal : Description}

theorem Value.Fits.and {value : Value} (h : value.Fits p constant room)
    (hq : ∀ literal : Description, literal.lexeme ∈ value.lexemes → q literal) :
    value.Fits (fun literal => p literal ∧ q literal) constant room := by
  induction h with
  | «variable» hconstant hname => exact .variable hconstant hname
  | int hdigits => exact .int hdigits
  | float hdigits => exact .float hdigits
  | string hliteral =>
      rw [Value.lexemes] at hq
      exact .string ⟨hliteral, hq _ List.mem_cons_self⟩
  | boolean value => exact .boolean value
  | null => exact .null
  | enum hname hreserved => exact .enum hname hreserved
  | list hitems ih =>
      exact .list fun item hitem => ih item hitem fun literal hl =>
        hq literal (Value.mem_lexemes_list.mpr ⟨item, hitem, hl⟩)
  | object hnames hvalues ih =>
      exact .object hnames fun field hfield => ih field hfield fun literal hl =>
        hq literal (Value.mem_lexemes_object.mpr ⟨field, hfield, hl⟩)

theorem Value.Fits.of_mem {value : Value} (h : value.Fits p constant room)
    (hl : literal.lexeme ∈ value.lexemes) : p literal := by
  induction h with
  | string hliteral =>
      rw [Value.lexemes, List.mem_singleton, Description.lexeme_inj] at hl
      rwa [hl]
  | list hitems ih =>
      obtain ⟨item, hitem, hl⟩ := Value.mem_lexemes_list.mp hl
      exact ih item hitem hl
  | object hnames hvalues ih =>
      obtain ⟨field, hfield, hl⟩ := Value.mem_lexemes_object.mp hl
      exact ih field hfield hl
  | _ => simp [Value.lexemes] at hl

theorem arguments_and {arguments : List Argument}
    (h : ∀ argument ∈ arguments, argument.Fits p constant room)
    (hq : ∀ literal : Description, literal.lexeme ∈ argumentLexemes arguments → q literal) :
    ∀ argument ∈ arguments, argument.Fits (fun literal => p literal ∧ q literal) constant room :=
  fun argument hargument => ⟨(h argument hargument).name,
    (h argument hargument).value.and fun literal hl =>
      hq literal (mem_argumentLexemes.mpr ⟨argument, hargument, hl⟩)⟩

theorem arguments_of_mem {arguments : List Argument}
    (h : ∀ argument ∈ arguments, argument.Fits p constant room)
    (hl : literal.lexeme ∈ argumentLexemes arguments) : p literal := by
  obtain ⟨argument, hargument, hl⟩ := mem_argumentLexemes.mp hl
  exact (h argument hargument).value.of_mem hl

theorem directives_and {directives : List Directive}
    (h : ∀ directive ∈ directives, directive.Fits p constant room)
    (hq : ∀ literal : Description, literal.lexeme ∈ directiveLexemes directives → q literal) :
    ∀ directive ∈ directives,
      directive.Fits (fun literal => p literal ∧ q literal) constant room :=
  fun directive hdirective => ⟨(h directive hdirective).name,
    arguments_and (h directive hdirective).arguments fun literal hl =>
      hq literal (mem_directiveLexemes.mpr ⟨directive, hdirective, hl⟩)⟩

theorem directives_of_mem {directives : List Directive}
    (h : ∀ directive ∈ directives, directive.Fits p constant room)
    (hl : literal.lexeme ∈ directiveLexemes directives) : p literal := by
  obtain ⟨directive, hdirective, hl⟩ := mem_directiveLexemes.mp hl
  exact arguments_of_mem (h directive hdirective).arguments hl

theorem FieldHead.Fits.and {head : FieldHead} (h : head.Fits p room)
    (hq : ∀ literal : Description, literal.lexeme ∈ head.lexemes → q literal) :
    head.Fits (fun literal => p literal ∧ q literal) room :=
  ⟨h.aliasName, h.name,
    arguments_and h.arguments fun literal hl => hq literal (FieldHead.mem_lexemes.mpr (.inl hl)),
    directives_and h.directives fun literal hl => hq literal (FieldHead.mem_lexemes.mpr (.inr hl))⟩

theorem FieldHead.Fits.of_mem {head : FieldHead} (h : head.Fits p room)
    (hl : literal.lexeme ∈ head.lexemes) : p literal :=
  (FieldHead.mem_lexemes.mp hl).elim (arguments_of_mem h.arguments) (directives_of_mem h.directives)

theorem Selection.Fits.and {selection : Selection} (h : selection.Fits p room)
    (hq : ∀ literal : Description, literal.lexeme ∈ selection.lexemes → q literal) :
    selection.Fits (fun literal => p literal ∧ q literal) room := by
  induction h with
  | leaf hhead =>
      rw [Selection.lexemes] at hq
      exact .leaf (hhead.and hq)
  | field hhead hselections ih =>
      replace hq := fun literal hl => hq literal (Selection.mem_lexemes_field.mpr hl)
      exact .field (hhead.and fun literal hl => hq literal (.inl hl))
        fun selection hselection => ih selection hselection fun literal hl =>
          hq literal (.inr (mem_selectionLexemes.mpr ⟨selection, hselection, hl⟩))
  | spread hname hon hdirectives =>
      exact .spread hname hon (directives_and hdirectives fun literal hl =>
        hq literal (Selection.mem_lexemes_spread.mpr hl))
  | inline hcondition hdirectives hselections ih =>
      replace hq := fun literal hl => hq literal (Selection.mem_lexemes_inline.mpr hl)
      exact .inline hcondition (directives_and hdirectives fun literal hl => hq literal (.inl hl))
        fun selection hselection => ih selection hselection fun literal hl =>
          hq literal (.inr (mem_selectionLexemes.mpr ⟨selection, hselection, hl⟩))

theorem Selection.Fits.of_mem {selection : Selection} (h : selection.Fits p room)
    (hl : literal.lexeme ∈ selection.lexemes) : p literal := by
  induction h with
  | leaf hhead =>
      rw [Selection.lexemes] at hl
      exact hhead.of_mem hl
  | field hhead hselections ih =>
      rcases Selection.mem_lexemes_field.mp hl with hl | hl
      · exact hhead.of_mem hl
      · obtain ⟨selection, hselection, hl⟩ := mem_selectionLexemes.mp hl
        exact ih selection hselection hl
  | spread hname hon hdirectives =>
      exact directives_of_mem hdirectives (Selection.mem_lexemes_spread.mp hl)
  | inline hcondition hdirectives hselections ih =>
      rcases Selection.mem_lexemes_inline.mp hl with hl | hl
      · exact directives_of_mem hdirectives hl
      · obtain ⟨selection, hselection, hl⟩ := mem_selectionLexemes.mp hl
        exact ih selection hselection hl

theorem SelectionsFit.and {selections : List Selection} (h : SelectionsFit p room selections)
    (hq : ∀ literal : Description, literal.lexeme ∈ selectionLexemes selections → q literal) :
    SelectionsFit (fun literal => p literal ∧ q literal) room selections := by
  cases room with
  | zero => exact h.elim
  | succ room =>
      exact fun selection hselection => (h selection hselection).and fun literal hl =>
        hq literal (mem_selectionLexemes.mpr ⟨selection, hselection, hl⟩)

theorem SelectionsFit.of_mem {selections : List Selection} (h : SelectionsFit p room selections)
    (hl : literal.lexeme ∈ selectionLexemes selections) : p literal := by
  cases room with
  | zero => exact h.elim
  | succ room =>
      obtain ⟨selection, hselection, hl⟩ := mem_selectionLexemes.mp hl
      exact (h selection hselection).of_mem hl

end

section

variable {literal : Description}

theorem VariableDefinition.Fits.and {definition : VariableDefinition} (h : definition.Fits p)
    (hq : ∀ literal : Description, literal.lexeme ∈ definition.lexemes → q literal) :
    definition.Fits fun literal => p literal ∧ q literal := by
  replace hq := fun literal hl => hq literal (VariableDefinition.mem_lexemes.mpr hl)
  exact ⟨fun literal hl => ⟨h.description literal hl, hq literal (.inl hl)⟩, h.name, h.type,
    fun value hvalue => (h.default value hvalue).and fun literal hl =>
      hq literal (.inr (.inl ⟨value, hvalue, hl⟩)),
    directives_and h.directives fun literal hl => hq literal (.inr (.inr hl))⟩

theorem VariableDefinition.Fits.of_mem {definition : VariableDefinition} (h : definition.Fits p)
    (hl : literal.lexeme ∈ definition.lexemes) : p literal := by
  obtain hl | ⟨value, hvalue, hl⟩ | hl := VariableDefinition.mem_lexemes.mp hl
  · exact h.description literal hl
  · exact (h.default value hvalue).of_mem hl
  · exact directives_of_mem h.directives hl

theorem Operation.Fits.and {operation : Operation} (h : operation.Fits p)
    (hq : ∀ literal : Description, literal.lexeme ∈ operation.lexemes → q literal) :
    operation.Fits fun literal => p literal ∧ q literal := by
  replace hq := fun literal hl => hq literal (Operation.mem_lexemes.mpr hl)
  have hhead := fun literal hl => hq literal (.inl (Operation.mem_headLexemes.mpr hl))
  exact ⟨fun literal hl => ⟨h.description literal hl, hhead literal (.inl hl)⟩, h.name,
    fun definition hdefinition => (h.variableDefinitions definition hdefinition).and
      fun literal hl => hhead literal (.inr (.inl ⟨definition, hdefinition, hl⟩)),
    directives_and h.directives fun literal hl => hhead literal (.inr (.inr hl)),
    h.selections.and fun literal hl => hq literal (.inr hl)⟩

theorem Operation.Fits.of_mem {operation : Operation} (h : operation.Fits p)
    (hl : literal.lexeme ∈ operation.lexemes) : p literal := by
  rcases Operation.mem_lexemes.mp hl with hhead | hl
  · obtain hl | ⟨definition, hdefinition, hl⟩ | hl := Operation.mem_headLexemes.mp hhead
    · exact h.description literal hl
    · exact (h.variableDefinitions definition hdefinition).of_mem hl
    · exact directives_of_mem h.directives hl
  · exact h.selections.of_mem hl

theorem Fragment.Fits.and {fragment : Fragment} (h : fragment.Fits p)
    (hq : ∀ literal : Description, literal.lexeme ∈ fragment.lexemes → q literal) :
    fragment.Fits fun literal => p literal ∧ q literal := by
  replace hq := fun literal hl => hq literal (Fragment.mem_lexemes.mpr hl)
  exact ⟨fun literal hl => ⟨h.description literal hl, hq literal (.inl hl)⟩, h.name, h.not_on,
    h.condition, directives_and h.directives fun literal hl => hq literal (.inr (.inl hl)),
    h.selections.and fun literal hl => hq literal (.inr (.inr hl))⟩

theorem Fragment.Fits.of_mem {fragment : Fragment} (h : fragment.Fits p)
    (hl : literal.lexeme ∈ fragment.lexemes) : p literal := by
  rcases Fragment.mem_lexemes.mp hl with hl | hl | hl
  · exact h.description literal hl
  · exact directives_of_mem h.directives hl
  · exact h.selections.of_mem hl

theorem Executable.Fits.and {executable : Executable} (h : executable.Fits p)
    (hq : ∀ literal : Description, literal.lexeme ∈ executable.lexemes → q literal) :
    executable.Fits fun literal => p literal ∧ q literal := by
  cases executable with
  | operation operation => exact Operation.Fits.and h hq
  | fragment fragment => exact Fragment.Fits.and h hq

theorem Executable.Fits.of_mem {executable : Executable} (h : executable.Fits p)
    (hl : literal.lexeme ∈ executable.lexemes) : p literal := by
  cases executable with
  | operation operation => exact Operation.Fits.of_mem h hl
  | fragment fragment => exact Fragment.Fits.of_mem h hl

end

end OperationLibrary.Syntax
