import OperationLibrary.Document.Normal
import OperationLibrary.Proofs.Grammar

/-!
The strings of a definition. Changing each of them leaves everything else as it is; the canonical
form of a definition changes its strings of several lines, and nothing else.
-/

namespace OperationLibrary.Syntax

variable {p q : Description → Prop} {f : Description → Description}

/-! ### Changing strings -/

def Value.mapStrings (f : Description → Description) : Value → Value
  | .string text block => .string (f ⟨text, block⟩).text (f ⟨text, block⟩).block
  | .list items => .list (items.map (Value.mapStrings f))
  | .object fields => .object (fields.map fun field => (field.1, field.2.mapStrings f))
  | other => other
decreasing_by
  · have hitem := List.sizeOf_lt_of_mem ‹_ ∈ items›
    simp only [Value.list.sizeOf_spec]
    omega
  · have hfield := Value.sizeOf_field_lt ‹_ ∈ fields›
    simp only [Value.object.sizeOf_spec]
    omega

def Argument.mapStrings (f : Description → Description) (argument : Argument) : Argument :=
  { argument with value := argument.value.mapStrings f }

def Directive.mapStrings (f : Description → Description) (directive : Directive) : Directive :=
  { directive with arguments := directive.arguments.map (Argument.mapStrings f) }

def FieldHead.mapStrings (f : Description → Description) (head : FieldHead) : FieldHead :=
  { head with
    arguments := head.arguments.map (Argument.mapStrings f)
    directives := head.directives.map (Directive.mapStrings f) }

def Selection.mapStrings (f : Description → Description) : Selection → Selection
  | .field head none => .field (head.mapStrings f) none
  | .field head (some selections) =>
    .field (head.mapStrings f) (some (selections.map (Selection.mapStrings f)))
  | .spread fragment directives => .spread fragment (directives.map (Directive.mapStrings f))
  | .inline condition directives selections =>
    .inline condition (directives.map (Directive.mapStrings f))
      (selections.map (Selection.mapStrings f))

def VariableDefinition.mapStrings (f : Description → Description)
    (definition : VariableDefinition) : VariableDefinition :=
  { definition with
    description := definition.description.map f
    default := definition.default.map (Value.mapStrings f)
    directives := definition.directives.map (Directive.mapStrings f) }

def Operation.mapStrings (f : Description → Description) (operation : Operation) : Operation :=
  { operation with
    description := operation.description.map f
    variableDefinitions := operation.variableDefinitions.map (VariableDefinition.mapStrings f)
    directives := operation.directives.map (Directive.mapStrings f)
    selections := operation.selections.map (Selection.mapStrings f) }

theorem Operation.isShort_mapStrings (operation : Operation) (f : Description → Description) :
    (operation.mapStrings f).isShort = operation.isShort := by
  rw [Operation.isShort, Operation.isShort]
  simp only [Operation.mapStrings, Option.isNone_map, List.isEmpty_map]
  rfl

def Fragment.mapStrings (f : Description → Description) (fragment : Fragment) : Fragment :=
  { fragment with
    description := fragment.description.map f
    directives := fragment.directives.map (Directive.mapStrings f)
    selections := fragment.selections.map (Selection.mapStrings f) }

def Executable.mapStrings (f : Description → Description) : Executable → Executable
  | .operation o => .operation (o.mapStrings f)
  | .fragment d => .fragment (d.mapStrings f)

/-! ### Strings left as they are -/

theorem Value.mapStrings_id (value : Value) : value.mapStrings id = value := by
  fun_induction Value.mapStrings id value with
  | case1 text block => rfl
  | case2 items ih => rw [List.map_congr_left ih, List.map_id']
  | case3 fields ih =>
      congr 1
      refine (List.map_congr_left fun field hfield => ?_).trans (List.map_id' fields)
      rw [ih field hfield]
  | case4 value => rfl

theorem Argument.mapStrings_id : Argument.mapStrings id = id := by
  funext argument
  rw [Argument.mapStrings, Value.mapStrings_id]
  rfl

theorem Directive.mapStrings_id : Directive.mapStrings id = id := by
  funext directive
  rw [Directive.mapStrings, Argument.mapStrings_id, List.map_id]
  rfl

theorem FieldHead.mapStrings_id : FieldHead.mapStrings id = id := by
  funext head
  rw [FieldHead.mapStrings, Argument.mapStrings_id, Directive.mapStrings_id, List.map_id,
    List.map_id]
  rfl

theorem Selection.mapStrings_id (selection : Selection) : selection.mapStrings id = selection := by
  fun_induction Selection.mapStrings id selection with
  | case1 head => rw [FieldHead.mapStrings_id]; rfl
  | case2 head selections ih =>
      rw [FieldHead.mapStrings_id, List.map_congr_left ih, List.map_id']
      rfl
  | case3 fragment directives => rw [Directive.mapStrings_id, List.map_id]
  | case4 condition directives selections ih =>
      rw [Directive.mapStrings_id, List.map_congr_left ih, List.map_id, List.map_id']

theorem VariableDefinition.mapStrings_id : VariableDefinition.mapStrings id = id := by
  funext definition
  rw [VariableDefinition.mapStrings, Directive.mapStrings_id, funext Value.mapStrings_id,
    List.map_id, Option.map_id_fun', Option.map_id]
  rfl

theorem Executable.mapStrings_id (executable : Executable) :
    executable.mapStrings id = executable := by
  cases executable with
  | operation operation =>
      rw [Executable.mapStrings, Operation.mapStrings, VariableDefinition.mapStrings_id,
        Directive.mapStrings_id, funext Selection.mapStrings_id]
      simp
  | fragment fragment =>
      rw [Executable.mapStrings, Fragment.mapStrings, Directive.mapStrings_id,
        funext Selection.mapStrings_id]
      simp

/-! ### Strings changed twice -/

section

variable (g f : Description → Description)

theorem Value.mapStrings_mapStrings (value : Value) :
    (value.mapStrings f).mapStrings g = value.mapStrings (g ∘ f) := by
  fun_induction Value.mapStrings f value with
  | case1 text block => simp [Value.mapStrings]
  | case2 items ih =>
      rw [Value.mapStrings, Value.mapStrings, List.map_map]
      exact congrArg Value.list (List.map_congr_left ih)
  | case3 fields ih =>
      rw [Value.mapStrings, Value.mapStrings, List.map_map]
      refine congrArg Value.object (List.map_congr_left fun field hfield => ?_)
      exact congrArg (Prod.mk field.1) (ih field hfield)
  | case4 value hstring hlist hobject =>
      cases value with
      | string text block => exact (hstring text block rfl).elim
      | list items => exact (hlist items rfl).elim
      | object fields => exact (hobject fields rfl).elim
      | _ => simp [Value.mapStrings]

theorem Argument.mapStrings_comp :
    Argument.mapStrings g ∘ Argument.mapStrings f = Argument.mapStrings (g ∘ f) := by
  funext argument
  simp [Argument.mapStrings, Value.mapStrings_mapStrings]

theorem Directive.mapStrings_comp :
    Directive.mapStrings g ∘ Directive.mapStrings f = Directive.mapStrings (g ∘ f) := by
  funext directive
  simp [Directive.mapStrings, Argument.mapStrings_comp]

theorem FieldHead.mapStrings_mapStrings (head : FieldHead) :
    (head.mapStrings f).mapStrings g = head.mapStrings (g ∘ f) := by
  simp [FieldHead.mapStrings, Argument.mapStrings_comp, Directive.mapStrings_comp]

theorem Selection.mapStrings_mapStrings (selection : Selection) :
    (selection.mapStrings f).mapStrings g = selection.mapStrings (g ∘ f) := by
  fun_induction Selection.mapStrings f selection with
  | case1 head => simp only [Selection.mapStrings, FieldHead.mapStrings_mapStrings]
  | case2 head selections ih =>
      simp only [Selection.mapStrings, FieldHead.mapStrings_mapStrings, List.map_map]
      exact congrArg _ (congrArg some (List.map_congr_left ih))
  | case3 fragment directives =>
      simp only [Selection.mapStrings, List.map_map, Directive.mapStrings_comp]
  | case4 condition directives selections ih =>
      simp only [Selection.mapStrings, List.map_map, Directive.mapStrings_comp]
      exact congrArg _ (List.map_congr_left ih)

theorem VariableDefinition.mapStrings_comp :
    VariableDefinition.mapStrings g ∘ VariableDefinition.mapStrings f =
      VariableDefinition.mapStrings (g ∘ f) := by
  have hvalue : Value.mapStrings g ∘ Value.mapStrings f = Value.mapStrings (g ∘ f) :=
    funext (Value.mapStrings_mapStrings g f)
  funext definition
  simp [VariableDefinition.mapStrings, Directive.mapStrings_comp, hvalue]

theorem Executable.mapStrings_mapStrings (executable : Executable) :
    (executable.mapStrings f).mapStrings g = executable.mapStrings (g ∘ f) := by
  have hselection : Selection.mapStrings g ∘ Selection.mapStrings f =
      Selection.mapStrings (g ∘ f) := funext (Selection.mapStrings_mapStrings g f)
  cases executable with
  | operation operation =>
      simp [Executable.mapStrings, Operation.mapStrings, VariableDefinition.mapStrings_comp,
        Directive.mapStrings_comp, hselection]
  | fragment fragment =>
      simp [Executable.mapStrings, Fragment.mapStrings, Directive.mapStrings_comp, hselection]

end

/-! ### Blocks -/

theorem blockStringsItems_eq_map (items : List Value) :
    blockStringsItems items = items.map Value.blockStrings := by
  induction items with
  | nil => rfl
  | cons item items ih => rw [blockStringsItems, ih, List.map_cons]

theorem blockStringsFields_eq_map (fields : List (String × Value)) :
    blockStringsFields fields = fields.map fun field => (field.1, field.2.blockStrings) := by
  induction fields with
  | nil => rfl
  | cons field fields ih => rw [blockStringsFields, ih, List.map_cons]

theorem Value.blockStrings_eq (value : Value) :
    value.blockStrings = value.mapStrings Description.blockString := by
  fun_induction Value.mapStrings Description.blockString value with
  | case1 text block => rfl
  | case2 items ih => rw [Value.blockStrings, blockStringsItems_eq_map, List.map_congr_left ih]
  | case3 fields ih =>
      rw [Value.blockStrings, blockStringsFields_eq_map]
      congr 1
      exact List.map_congr_left fun field hfield => by rw [ih field hfield]
  | case4 value hstring hlist hobject =>
      cases value with
      | string text block => exact (hstring text block rfl).elim
      | list items => exact (hlist items rfl).elim
      | object fields => exact (hobject fields rfl).elim
      | _ => rfl

theorem Argument.blockStrings_eq :
    Argument.blockStrings = Argument.mapStrings Description.blockString := by
  funext argument
  rw [Argument.blockStrings, Argument.mapStrings, Value.blockStrings_eq]

theorem Directive.blockStrings_eq :
    Directive.blockStrings = Directive.mapStrings Description.blockString := by
  funext directive
  rw [Directive.blockStrings, Directive.mapStrings, Argument.blockStrings_eq]

theorem FieldHead.blockStrings_eq :
    FieldHead.blockStrings = FieldHead.mapStrings Description.blockString := by
  funext head
  rw [FieldHead.blockStrings, FieldHead.mapStrings, Argument.blockStrings_eq,
    Directive.blockStrings_eq]

theorem blockStringsSelections_eq_map (selections : List Selection) :
    blockStringsSelections selections = selections.map Selection.blockStrings := by
  induction selections with
  | nil => rfl
  | cons selection selections ih => rw [blockStringsSelections, ih, List.map_cons]

theorem Selection.blockStrings_eq :
    Selection.blockStrings = Selection.mapStrings Description.blockString := by
  funext selection
  fun_induction Selection.mapStrings Description.blockString selection with
  | case1 head => rw [Selection.blockStrings, FieldHead.blockStrings_eq]
  | case2 head selections ih =>
      rw [Selection.blockStrings, FieldHead.blockStrings_eq, blockStringsSelections_eq_map,
        List.map_congr_left ih]
  | case3 fragment directives => rw [Selection.blockStrings, Directive.blockStrings_eq]
  | case4 condition directives selections ih =>
      rw [Selection.blockStrings, Directive.blockStrings_eq, blockStringsSelections_eq_map,
        List.map_congr_left ih]

theorem VariableDefinition.blockStrings_eq :
    VariableDefinition.blockStrings = VariableDefinition.mapStrings Description.blockString := by
  funext definition
  rw [VariableDefinition.blockStrings, VariableDefinition.mapStrings, Directive.blockStrings_eq,
    funext Value.blockStrings_eq]

theorem Executable.blockStrings_eq (executable : Executable) :
    executable.blockStrings = executable.mapStrings Description.blockString := by
  cases executable with
  | operation operation =>
      rw [Executable.blockStrings, Executable.mapStrings, Operation.blockStrings,
        Operation.mapStrings, VariableDefinition.blockStrings_eq, Directive.blockStrings_eq,
        blockStringsSelections_eq_map, Selection.blockStrings_eq]
  | fragment fragment =>
      rw [Executable.blockStrings, Executable.mapStrings, Fragment.blockStrings,
        Fragment.mapStrings, Directive.blockStrings_eq, blockStringsSelections_eq_map,
        Selection.blockStrings_eq]

/-! ### Changed strings in the grammar -/

section

variable {constant : Bool} {room : Nat}

theorem Value.Fits.mapStrings {value : Value} (h : value.Fits p constant room)
    (hf : ∀ literal, p literal → q (f literal)) : (value.mapStrings f).Fits q constant room := by
  induction h with
  | «variable» hconstant hname => simpa [Value.mapStrings] using .variable hconstant hname
  | int hdigits => simpa [Value.mapStrings] using .int hdigits
  | float hdigits => simpa [Value.mapStrings] using .float hdigits
  | string hliteral => simpa [Value.mapStrings] using .string (hf _ hliteral)
  | boolean value => simpa [Value.mapStrings] using .boolean value
  | null => simpa [Value.mapStrings] using .null
  | enum hname hreserved => simpa [Value.mapStrings] using .enum hname hreserved
  | list hitems ih =>
      rw [Value.mapStrings]
      exact .list (List.forall_mem_map.mpr ih)
  | object hnames hvalues ih =>
      rw [Value.mapStrings]
      exact .object (List.forall_mem_map.mpr hnames) (List.forall_mem_map.mpr ih)

theorem Argument.Fits.mapStrings {argument : Argument} (h : argument.Fits p constant room)
    (hf : ∀ literal, p literal → q (f literal)) : (argument.mapStrings f).Fits q constant room :=
  ⟨h.name, h.value.mapStrings hf⟩

theorem Directive.Fits.mapStrings {directive : Directive} (h : directive.Fits p constant room)
    (hf : ∀ literal, p literal → q (f literal)) : (directive.mapStrings f).Fits q constant room :=
  ⟨h.name, List.forall_mem_map.mpr fun argument hargument =>
    (h.arguments argument hargument).mapStrings hf⟩

theorem directives_mapStrings {directives : List Directive}
    (h : ∀ directive ∈ directives, directive.Fits p constant room)
    (hf : ∀ literal, p literal → q (f literal)) :
    ∀ directive ∈ directives.map (Directive.mapStrings f), directive.Fits q constant room :=
  List.forall_mem_map.mpr fun directive hdirective => (h directive hdirective).mapStrings hf

theorem FieldHead.Fits.mapStrings {head : FieldHead} (h : head.Fits p room)
    (hf : ∀ literal, p literal → q (f literal)) : (head.mapStrings f).Fits q room :=
  ⟨h.aliasName, h.name, List.forall_mem_map.mpr fun argument hargument =>
    (h.arguments argument hargument).mapStrings hf, directives_mapStrings h.directives hf⟩

theorem Selection.Fits.mapStrings {selection : Selection} (h : selection.Fits p room)
    (hf : ∀ literal, p literal → q (f literal)) : (selection.mapStrings f).Fits q room := by
  induction h with
  | leaf hhead => rw [Selection.mapStrings]; exact .leaf (hhead.mapStrings hf)
  | field hhead hselections ih =>
      rw [Selection.mapStrings]
      exact .field (hhead.mapStrings hf) (List.forall_mem_map.mpr ih)
  | spread hname hon hdirectives =>
      rw [Selection.mapStrings]
      exact .spread hname hon (directives_mapStrings hdirectives hf)
  | inline hcondition hdirectives hselections ih =>
      rw [Selection.mapStrings]
      exact .inline hcondition (directives_mapStrings hdirectives hf) (List.forall_mem_map.mpr ih)

theorem SelectionsFit.mapStrings {selections : List Selection} (h : SelectionsFit p room selections)
    (hf : ∀ literal, p literal → q (f literal)) :
    SelectionsFit q room (selections.map (Selection.mapStrings f)) := by
  cases room with
  | zero => exact h.elim
  | succ room =>
      exact List.forall_mem_map.mpr fun selection hselection =>
        (h selection hselection).mapStrings hf

end

theorem description_mapStrings {description : Option Description}
    (h : ∀ literal ∈ description, p literal) (hf : ∀ literal, p literal → q (f literal)) :
    ∀ literal ∈ description.map f, q literal := by
  cases description with
  | none => exact fun literal hliteral => nomatch hliteral
  | some description => exact fun literal hliteral => Option.some.inj hliteral ▸ hf _ (h _ rfl)

theorem VariableDefinition.Fits.mapStrings {definition : VariableDefinition}
    (h : definition.Fits p) (hf : ∀ literal, p literal → q (f literal)) :
    (definition.mapStrings f).Fits q := by
  obtain ⟨description, name, type, default, directives⟩ := definition
  refine ⟨description_mapStrings h.description hf, h.name, h.type, ?_,
    directives_mapStrings h.directives hf⟩
  cases default with
  | none => exact fun value hvalue => nomatch hvalue
  | some value =>
      exact fun changed hchanged => Option.some.inj hchanged ▸ (h.default value rfl).mapStrings hf

theorem Executable.Fits.mapStrings {executable : Executable} (h : executable.Fits p)
    (hf : ∀ literal, p literal → q (f literal)) : (executable.mapStrings f).Fits q := by
  cases executable with
  | operation operation =>
      have h : operation.Fits p := h
      exact ⟨description_mapStrings h.description hf, h.name,
        List.forall_mem_map.mpr fun definition hdefinition =>
          (h.variableDefinitions definition hdefinition).mapStrings hf,
        directives_mapStrings h.directives hf, h.selections.mapStrings hf⟩
  | fragment fragment =>
      have h : fragment.Fits p := h
      exact ⟨description_mapStrings h.description hf, h.name, h.not_on, h.condition,
        directives_mapStrings h.directives hf, h.selections.mapStrings hf⟩

theorem Executable.Fits.mono {executable : Executable} (h : executable.Fits p)
    (hpq : ∀ literal, p literal → q literal) : executable.Fits q := by
  rw [← executable.mapStrings_id]
  exact h.mapStrings hpq

end OperationLibrary.Syntax
