import OperationLibrary.Proofs.VariableFaults

/-!
What a variable is described as. It takes over the description of what it is bound to, if all that
it is bound to says one thing, and no description otherwise. What is said about a variable is a set,
so the order in which an operation is written makes no difference to it.
-/

namespace OperationLibrary

open Syntax

/-! ### One explanation for all -/

/-- The explanation is among these, and the others are the same. -/
def IsAgreed (said : Set Explanation) (explanation : Explanation) : Prop :=
  explanation ∈ said ∧ ∀ other ∈ said, other.same explanation

namespace Explanation

theorem same_refl (explanation : Explanation) : explanation.same explanation := by
  cases explanation <;> simp [same]

theorem same_of_same {left right common : Explanation} (hleft : left.same common)
    (hright : right.same common) : left.same right := by
  cases left <;> cases right <;> cases common <;> simp_all [same]

/-- Words are the same only as themselves. -/
theorem same_text {explanation : Explanation} {words : String} :
    explanation.same (.text words) ↔ explanation = .text words := by
  cases explanation <;> simp [same]

end Explanation

theorem isAgreed_text_iff {said : Set Explanation} {words : String} :
    IsAgreed said (.text words) ↔ said = {.text words} := by
  simp only [IsAgreed, Explanation.same_text]
  exact Set.eq_singleton_iff_unique_mem.symm

theorem eraseDupsBy_eq_nil {explanations : List Explanation}
    (h : explanations.eraseDupsBy Explanation.same = []) : explanations = [] := by
  cases explanations with
  | nil => rfl
  | cons first rest =>
    rw [List.eraseDupsBy_cons] at h
    contradiction

theorem eraseDupsBy_eq_singleton {explanations : List Explanation} {explanation : Explanation}
    (h : explanations.eraseDupsBy Explanation.same = [explanation]) :
    IsAgreed {other | other ∈ explanations} explanation := by
  cases explanations with
  | nil => contradiction
  | cons first rest =>
    rw [List.eraseDupsBy_cons, List.cons.injEq] at h
    obtain ⟨rfl, hrest⟩ := h
    refine ⟨List.mem_cons_self, fun other hother => ?_⟩
    rcases List.mem_cons.mp hother with rfl | hother
    · exact other.same_refl
    · have hsame := List.filter_eq_nil_iff.mp (eraseDupsBy_eq_nil hrest) other hother
      simpa using hsame

theorem exists_eraseDupsBy_eq_singleton {explanations : List Explanation}
    {explanation : Explanation} (h : IsAgreed {other | other ∈ explanations} explanation) :
    ∃ first, explanations.eraseDupsBy Explanation.same = [first] := by
  obtain ⟨hmem, hsame⟩ := h
  cases explanations with
  | nil => cases hmem
  | cons first rest =>
    -- what is the same as one explanation is the same as the first one
    have hrest : rest.filter (fun other => decide (other.same first = false)) = [] := by
      refine List.filter_eq_nil_iff.mpr fun other hother => ?_
      have hother := Explanation.same_of_same (hsame other (List.mem_cons_of_mem _ hother))
        (hsame first List.mem_cons_self)
      simp [hother]
    exact ⟨first, by rw [List.eraseDupsBy_cons, hrest]; rfl⟩

/-! ### What is said about a variable -/

section

variable {schema : Schema} {scalars : ScalarTable} {operation other : Operation} {name : String}

/-- What the bindings say about a variable, apart from what is said twice. -/
def allSaid (bindings : List VariableBinding) (name : String) : List Explanation :=
  ((bindings.filter (·.name == name)).filterMap VariableBinding.description).filter
    Explanation.saysSomething

theorem mem_allSaid {said : Explanation} :
    said ∈ allSaid (variableBindings schema operation) name ↔
      said ∈ saidAbout schema (ArgumentOwner.consulted schema) operation name := by
  rw [allSaid, List.mem_filter, List.mem_filterMap]
  refine and_congr_left fun _ => Iff.trans ?_ mem_variableBindings
  constructor
  · rintro ⟨⟨found, description⟩, hmem, rfl⟩
    obtain ⟨hfound, hname⟩ := List.mem_filter.mp hmem
    obtain rfl : found = name := eq_of_beq hname
    exact hfound
  · intro hmem
    exact ⟨_, List.mem_filter.mpr ⟨hmem, beq_self_eq_true name⟩, rfl⟩

theorem setOf_mem_allSaid :
    {said | said ∈ allSaid (variableBindings schema operation) name} =
      saidAbout schema (ArgumentOwner.consulted schema) operation name :=
  Set.ext fun _ => mem_allSaid

/-- A description that a variable has is what all that is said about it comes to. -/
theorem isAgreed_of_bindingDescription {explanation : Explanation}
    (h : bindingDescription (variableBindings schema operation) name = some explanation) :
    IsAgreed (saidAbout schema (ArgumentOwner.consulted schema) operation name) explanation := by
  rw [bindingDescription] at h
  split at h
  case h_1 description hdescriptions =>
    obtain rfl := Option.some.inj h
    rw [← setOf_mem_allSaid]
    exact eraseDupsBy_eq_singleton hdescriptions
  case h_2 => contradiction

/-- A variable about which one thing is said has a description. -/
theorem bindingDescription_ne_none {explanation : Explanation}
    (h : IsAgreed (saidAbout schema (ArgumentOwner.consulted schema) operation name) explanation) :
    bindingDescription (variableBindings schema operation) name ≠ none := by
  rw [← setOf_mem_allSaid] at h
  obtain ⟨first, hfirst⟩ := exists_eraseDupsBy_eq_singleton h
  have hdescriptions : descriptionsOf (variableBindings schema operation) name = [first] := hfirst
  rw [bindingDescription, hdescriptions]
  exact Option.some_ne_none first

theorem bindingDescription_eq_none_iff :
    bindingDescription (variableBindings schema operation) name = none ↔ ¬ ∃ explanation,
      IsAgreed (saidAbout schema (ArgumentOwner.consulted schema) operation name) explanation := by
  constructor
  · rintro hnone ⟨explanation, hagreed⟩
    exact bindingDescription_ne_none hagreed hnone
  · intro hdisputed
    refine Option.eq_none_iff_forall_ne_some.mpr fun explanation hsome => ?_
    exact hdisputed ⟨explanation, isAgreed_of_bindingDescription hsome⟩

theorem bindingDescription_eq_text_iff {words : String} :
    bindingDescription (variableBindings schema operation) name = some (.text words) ↔
      saidAbout schema (ArgumentOwner.consulted schema) operation name = {.text words} := by
  constructor
  · exact fun h => isAgreed_text_iff.mp (isAgreed_of_bindingDescription h)
  · intro h
    obtain ⟨explanation, hsome⟩ :=
      Option.ne_none_iff_exists'.mp (bindingDescription_ne_none (isAgreed_text_iff.mpr h))
    have hmem := (isAgreed_of_bindingDescription hsome).1
    rw [h] at hmem
    rw [hsome, Set.mem_singleton_iff.mp hmem]

/-! ### The shape of the variables -/

theorem Entry.foldl_set_of_nodup {entries others : List (Entry Shape)}
    (h : ((entries ++ others).map Entry.name).Nodup) :
    others.foldl Entry.set entries = entries ++ others := by
  induction others generalizing entries with
  | nil => rw [List.foldl_nil, List.append_nil]
  | cons entry others ih =>
    have hfresh : entries.any (·.name == entry.name) = false := by
      rw [List.map_append, List.nodup_append] at h
      refine List.any_eq_false.mpr fun known hknown hname => ?_
      exact h.2.2 _ (List.mem_map_of_mem hknown) _ List.mem_cons_self (eq_of_beq hname)
    rw [List.foldl_cons, Entry.set, hfresh, if_neg Bool.false_ne_true, ih, List.append_assoc]
    · rfl
    · rwa [List.append_assoc]

/-- The entry that a declaration makes, where the type is known. -/
def declaredVariable? (schema : Schema) (scalars : ScalarTable)
    (describe : String → Option Explanation) (declared : String × TypeRef) :
    Option (Entry Shape) :=
  if schema.resolves declared.2 then
    some ⟨declared.1, (shapeOfType schema scalars declared.2).value, !declared.2.isNonNull,
      describe declared.1⟩
  else none

theorem value_variablesShape (operation : Operation) :
    (variablesShape schema scalars operation).value =
      .object (((declaredTypes operation).filterMap
        (declaredVariable? schema scalars
          (bindingDescription (variableBindings schema operation)))).foldl Entry.set []) none := by
  have hentry : ∀ definition, (variableEntry schema scalars operation
      (variableBindings schema operation) definition).value = declaredVariable? schema scalars
        (bindingDescription (variableBindings schema operation))
        (definition.name, definition.type) := by
    intro definition
    rw [variableEntry, declaredVariable?]
    split <;> rfl
  rw [variablesShape, Projection.value_bind, Projection.value_bind, Projection.value_mapM,
    Projection.value_pure, declaredTypes, List.filterMap_map, List.filterMap_map]
  simp only [hentry, Function.comp_def, id]

/-- The entry for a declared variable: its name, whether it may be left out, the full shape of its
type, and the one thing that is said about it, if there is one. -/
structure IsVariableEntry (schema : Schema) (scalars : ScalarTable) (operation : Operation)
    (definition : VariableDefinition) (entry : Entry Shape) : Prop where
  name : entry.name = definition.name
  nullable : entry.nullable = !definition.type.isNonNull
  type : entry.type = (shapeOfType schema scalars definition.type).value
  described : ∀ words, entry.description = some (.text words) ↔
    saidAbout schema (ArgumentOwner.consulted schema) operation definition.name = {.text words}
  agreed : ∀ explanation, entry.description = some explanation →
    IsAgreed (saidAbout schema (ArgumentOwner.consulted schema) operation definition.name)
      explanation
  disputed : entry.description = none ↔ ¬ ∃ explanation,
    IsAgreed (saidAbout schema (ArgumentOwner.consulted schema) operation definition.name)
      explanation

theorem forall₂_declaredVariable? (definitions : List VariableDefinition) :
    List.Forall₂ (IsVariableEntry schema scalars operation)
      (definitions.filter fun d => schema.resolves d.type)
      ((definitions.map fun d => (d.name, d.type)).filterMap (declaredVariable? schema scalars
        (bindingDescription (variableBindings schema operation)))) := by
  induction definitions with
  | nil => exact .nil
  | cons definition rest ih =>
    rw [List.map_cons, List.filter_cons, List.filterMap_cons, declaredVariable?]
    split
    · exact .cons ⟨rfl, rfl, rfl, fun _ => bindingDescription_eq_text_iff,
        fun _ => isAgreed_of_bindingDescription, bindingDescription_eq_none_iff⟩ ih
    · exact ih

theorem nodup_declaredVariable? {describe : String → Option Explanation}
    {declared : List (String × TypeRef)} (h : (declared.map Prod.fst).Nodup) :
    ((declared.filterMap (declaredVariable? schema scalars describe)).map Entry.name).Nodup := by
  have hnames : (declared.filterMap (declaredVariable? schema scalars describe)).map Entry.name =
      (declared.filter fun d => schema.resolves d.2).map Prod.fst := by
    rw [List.map_filterMap, ← List.filterMap_eq_filter, List.map_filterMap]
    refine List.filterMap_congr fun d _ => ?_
    rw [declaredVariable?, Option.guard]
    split <;> rfl
  rw [hnames]
  exact h.sublist (List.filter_sublist.map _)

/-! ### Other orders -/

/-- What is said about a variable does not depend on the order in which the operation is written. -/
theorem OperationReordered.saidAbout_eq (h : OperationReordered operation other) (name : String) :
    saidAbout schema (ArgumentOwner.consulted schema) other name =
      saidAbout schema (ArgumentOwner.consulted schema) operation name := by
  have hbindings : (variableBindings schema operation).Perm (variableBindings schema other) :=
    h.usages_perm.filterMap _
  ext said
  refine and_congr_left fun _ => ?_
  rw [← mem_variableBindings, ← mem_variableBindings, hbindings.mem_iff]

/-- Where all is said in words, what is said determines the description. -/
theorem bindingDescription_congr (hwords : SaidInWords schema operation)
    (hsaid : saidAbout schema (ArgumentOwner.consulted schema) other name =
      saidAbout schema (ArgumentOwner.consulted schema) operation name) :
    bindingDescription (variableBindings schema other) name =
      bindingDescription (variableBindings schema operation) name := by
  cases hdescription : bindingDescription (variableBindings schema operation) name with
  | none =>
    rw [bindingDescription_eq_none_iff] at hdescription ⊢
    rwa [hsaid]
  | some explanation =>
    -- other explanations than words may be the same and yet not equal
    obtain ⟨words, rfl⟩ := hwords name _ (isAgreed_of_bindingDescription hdescription).1
    rw [bindingDescription_eq_text_iff] at hdescription ⊢
    rw [hsaid, hdescription]

theorem OperationReordered.value_variablesShape (h : OperationReordered operation other)
    (hwords : SaidInWords schema operation) :
    (variablesShape schema scalars other).value =
      (variablesShape schema scalars operation).value := by
  have hdescriptions : bindingDescription (variableBindings schema other) =
      bindingDescription (variableBindings schema operation) :=
    funext fun name => bindingDescription_congr hwords (h.saidAbout_eq name)
  rw [OperationLibrary.value_variablesShape, OperationLibrary.value_variablesShape,
    h.declaredTypes_eq, hdescriptions]

theorem OperationReordered.fault_variablesShape (h : OperationReordered operation other) :
    (variablesShape schema scalars other).fault = none ↔
      (variablesShape schema scalars operation).fault = none := by
  have hnames : other.variableDefinitions.map VariableDefinition.name =
      operation.variableDefinitions.map VariableDefinition.name := by
    rw [← map_fst_declaredTypes, ← map_fst_declaredTypes, h.declaredTypes_eq]
  rw [fault_variablesShape_eq_none_iff, fault_variablesShape_eq_none_iff, h.declaredTypes_eq,
    hnames]
  refine and_congr_left fun _ => ?_
  constructor
  · exact fun hother usage husage => hother usage (h.usages_perm.mem_iff.mp husage)
  · exact fun hoperation usage husage => hoperation usage (h.usages_perm.mem_iff.mpr husage)

/-- Steps of reordering change nothing about the shape of the variables. -/
theorem variablesShape_of_reordered (hwords : SaidInWords schema operation)
    (h : Relation.ReflTransGen OperationReordered operation other) :
    (variablesShape schema scalars other).value =
        (variablesShape schema scalars operation).value ∧
      ((variablesShape schema scalars other).fault = none ↔
        (variablesShape schema scalars operation).fault = none) := by
  have hall : SaidInWords schema other ∧ (variablesShape schema scalars other).value =
      (variablesShape schema scalars operation).value ∧
      ((variablesShape schema scalars other).fault = none ↔
        (variablesShape schema scalars operation).fault = none) := by
    induction h with
    | refl => exact ⟨hwords, rfl, Iff.rfl⟩
    | tail _ hstep ih =>
      obtain ⟨hwords, hvalue, hfault⟩ := ih
      refine ⟨fun name said hsaid => hwords name said ?_, ?_, ?_⟩
      · rwa [← hstep.saidAbout_eq name]
      · rw [hstep.value_variablesShape hwords, hvalue]
      · rw [hstep.fault_variablesShape, hfault]
  exact hall.2

/-- Variables of different names make an entry each. -/
theorem exists_variableEntries
    (hnodup : (operation.variableDefinitions.map VariableDefinition.name).Nodup) :
    ∃ entries, (variablesShape schema scalars operation).value = .object entries none ∧
      List.Forall₂ (IsVariableEntry schema scalars operation)
        (operation.variableDefinitions.filter fun d => schema.resolves d.type) entries := by
  refine ⟨(declaredTypes operation).filterMap (declaredVariable? schema scalars
    (bindingDescription (variableBindings schema operation))), ?_, forall₂_declaredVariable? _⟩
  rw [← map_fst_declaredTypes] at hnodup
  rw [value_variablesShape, Entry.foldl_set_of_nodup (nodup_declaredVariable? hnodup),
    List.nil_append]

end

/-- **Variables are described by what they are bound to.** The shape of the variables of an
operation has an entry for each declared variable of a known type, in the order in which they are
declared. A variable is described in the words that are said by all that it is bound to, in any
value at any depth, and in no words where different things or nothing is said. The arguments of a
directive that the schema does not know count as those of the field around it; where it knows all of
them, what is said is what the schema declares. Nothing is a fault unless an enum is flawed, and
writing the selections, arguments and fields of input objects in another order makes no
difference. -/
theorem variables_described_by_bindings (schema : Schema) (scalars : ScalarTable)
    (operation : Operation)
    (hnodup : (operation.variableDefinitions.map VariableDefinition.name).Nodup) :
    (∃ entries, (variablesShape schema scalars operation).value = .object entries none ∧
      List.Forall₂ (IsVariableEntry schema scalars operation)
        (operation.variableDefinitions.filter fun d => schema.resolves d.type) entries) ∧
    ((∀ directive around argument,
        OperationWrites schema operation (.directive directive around) argument →
          (schema.directive? directive).isSome) →
      ∀ name, saidAbout schema (ArgumentOwner.consulted schema) operation name =
        saidAbout schema (ArgumentOwner.declared schema) operation name) ∧
    (SaidInWords schema operation →
      ((∀ type ∈ schema.types, type.valuesFlaw? = none) →
        (variablesShape schema scalars operation).fault = none) ∧
      ∀ other, Relation.ReflTransGen OperationReordered operation other →
        (variablesShape schema scalars other).value =
            (variablesShape schema scalars operation).value ∧
          ((variablesShape schema scalars other).fault = none ↔
            (variablesShape schema scalars operation).fault = none)) := by
  refine ⟨exists_variableEntries hnodup, fun hknown name => ?_, fun hwords => ⟨fun hflawless => ?_,
    fun other hother => ?_⟩⟩
  · exact Set.ext fun said => and_congr_left fun _ => operationBinds_consulted_iff hknown
  · exact fault_variablesShape hflawless hwords
  · exact variablesShape_of_reordered hwords hother

namespace PagedQuery

/-- People are found by a part of their name, so many at a time. -/
def schema : Schema :=
  ⟨[⟨"Query", none, .object [] [⟨"people", none,
        [⟨"first", some (.text "page size"), .named "Int"⟩, ⟨"filter", none, .named "Filter"⟩],
        .named "String"⟩]⟩,
      ⟨"Filter", none, .input [⟨"name", some (.text "part of a name"), .named "String"⟩,
        ⟨"any", none, .list (.named "Filter")⟩]⟩, .scalar "Int", .scalar "String"],
    some "Query", none, none, [⟨"limit", [⟨"to", none, .named "Int"⟩]⟩]⟩

/-- Asks for people, with these arguments and directives. -/
def operation (arguments : List Argument) (directives : List Directive) : Operation :=
  ⟨none, .query, some "People", [⟨none, "size", .nonNull (.named "Int"), none, []⟩,
    ⟨none, "part", .named "String", none, []⟩], [],
    [.field ⟨none, "people", arguments, directives⟩ none]⟩

def size : Argument := ⟨"first", .variable "size"⟩

/-- The part of a name is inside an object in a list in an object. -/
def filter : Argument :=
  ⟨"filter", .object [("any", .list [.object [("name", .variable "part")]])]⟩

def limit : Directive := ⟨"limit", [⟨"to", .variable "size"⟩]⟩

theorem variableBindings_operation :
    variableBindings schema (operation [size, filter] [limit]) =
      [⟨"size", some (.text "page size")⟩, ⟨"part", some (.text "part of a name")⟩,
        ⟨"size", none⟩] := rfl

theorem saidInWords : SaidInWords schema (operation [size, filter] [limit]) := by
  rintro name said ⟨hbinds, -⟩
  have hmem := mem_variableBindings.mpr hbinds
  rw [variableBindings_operation] at hmem
  simp only [List.mem_cons, VariableBinding.mk.injEq, Option.some.injEq, List.not_mem_nil] at hmem
  rcases hmem with ⟨-, rfl⟩ | ⟨-, rfl⟩ | ⟨-, h⟩ | h
  · exact ⟨_, rfl⟩
  · exact ⟨_, rfl⟩
  · contradiction
  · contradiction

/-- The schema knows the only directive. -/
theorem knows_directive {directive : String} {around : Option OutputField} {argument : Argument}
    (h : OperationWrites schema (operation [size, filter] [limit]) (.directive directive around)
      argument) : (schema.directive? directive).isSome := by
  cases h with
  | definition hmem hwritten =>
    obtain ⟨written, hwritten, -, -⟩ := hwritten
    simp only [operation, List.mem_cons, List.not_mem_nil, or_false] at hmem
    rcases hmem with rfl | rfl <;> exact absurd hwritten List.not_mem_nil
  | directive hwritten =>
    obtain ⟨written, hwritten, -, -⟩ := hwritten
    exact absurd hwritten List.not_mem_nil
  | selection hmem hwritten =>
    obtain rfl := List.mem_singleton.mp hmem
    cases hwritten with
    | fieldDirective hwritten =>
      obtain ⟨written, hwritten, howner, -⟩ := hwritten
      obtain rfl := List.mem_singleton.mp hwritten
      cases howner
      rfl

/-- The variables take over what is said about an argument and about a field deep in another one,
whichever of the arguments comes first. -/
theorem people_variables :
    ((operation [size, filter] [limit]).variableDefinitions.map VariableDefinition.name).Nodup ∧
      (∃ entries, (variablesShape schema .standard (operation [size, filter] [limit])).value =
          .object entries none ∧
        List.Forall₂ (IsVariableEntry schema .standard (operation [size, filter] [limit]))
          (operation [size, filter] [limit]).variableDefinitions entries) ∧
      saidAbout schema (ArgumentOwner.declared schema) (operation [size, filter] [limit]) "part" =
        {.text "part of a name"} ∧
      (variablesShape schema .standard (operation [size, filter] [limit])).fault = none ∧
      (variablesShape schema .standard (operation [filter, size] [limit])).value =
        (variablesShape schema .standard (operation [size, filter] [limit])).value := by
  have hnodup : ((operation [size, filter] [limit]).variableDefinitions.map
      VariableDefinition.name).Nodup := by decide
  obtain ⟨hentries, hdeclared, hlaws⟩ :=
    variables_described_by_bindings schema .standard (operation [size, filter] [limit]) hnodup
  obtain ⟨hfault, hreordered⟩ := hlaws saidInWords
  refine ⟨hnodup, hentries, ?_, hfault (by decide), (hreordered _ (.single ?_)).1⟩
  · rw [← hdeclared (fun _ _ _ => knows_directive), ← bindingDescription_eq_text_iff,
      variableBindings_operation]
    rfl
  · exact .selections (@SelectionsReordered.fieldArguments [] [] ⟨none, "people", [size, filter],
      [limit]⟩ [filter, size] none (.order (.swap _ _ _)))

end PagedQuery

namespace UnknownDirective

/-- The only thing that the schema describes is an argument of the field. -/
def schema : Schema :=
  ⟨[⟨"Query", none, .object [] [⟨"a", none, [⟨"n", some (.text "page size"), .named "Int"⟩],
      .named "String"⟩]⟩, .scalar "Int", .scalar "String"], some "Query", none, none, []⟩

/-- The variable is written in a directive only, and the schema does not know the directive. -/
def operation : Operation :=
  ⟨none, .query, some "Q", [⟨none, "x", .named "Int", none, []⟩], [],
    [.field ⟨none, "a", [], [⟨"other", [⟨"n", .variable "x"⟩]⟩]⟩ none]⟩

/-- The variable is bound to nothing that the schema declares, and yet it is described as the
argument that the field around the directive has under the same name. -/
theorem described_as_argument_of_field :
    saidAbout schema (ArgumentOwner.declared schema) operation "x" = ∅ ∧
      (variablesShape schema .standard operation).value =
        .object [⟨"x", .scalar "number" none, true, some (.text "page size")⟩] none := by
  refine ⟨Set.eq_empty_of_forall_notMem ?_, by with_unfolding_all rfl⟩
  rintro said ⟨hbinds, -⟩
  cases hbinds with
  | default hmem hdefault _ =>
    obtain rfl := List.mem_singleton.mp hmem
    contradiction
  | argument hwritten hbinds =>
    cases hwritten with
    | definition hmem hwritten =>
      obtain ⟨directive, hdirective, -, -⟩ := hwritten
      obtain rfl := List.mem_singleton.mp hmem
      exact absurd hdirective List.not_mem_nil
    | directive hwritten =>
      obtain ⟨directive, hdirective, -, -⟩ := hwritten
      exact absurd hdirective List.not_mem_nil
    | selection hmem hwritten =>
      obtain rfl := List.mem_singleton.mp hmem
      cases hwritten with
      | argument hargument => exact absurd hargument List.not_mem_nil
      | fieldDirective hwritten =>
        -- the directive is not known, so nothing is declared for it
        obtain ⟨directive, hdirective, rfl, -⟩ := hwritten
        obtain rfl := List.mem_singleton.mp hdirective
        obtain ⟨input, hinput, -⟩ := hbinds
        contradiction

end UnknownDirective

end OperationLibrary
