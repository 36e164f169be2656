import Mathlib.Tactic.TFAE
import OperationLibrary.Proofs.AnnotatedText
import OperationLibrary.Proofs.FragmentClosure
import OperationLibrary.Proofs.QueryText
import OperationLibrary.Proofs.SelfContained

/-!
Tooling directives in persistable texts. Directives stand at five kinds of nodes: definitions,
variables, fields, spreads and inline fragments. A definition is what is left of it without its
directives together with the directives of its nodes in the order of the text, and taking off
tooling directives is stated in terms of both. The text of an operation is read as the operation
without tooling directives and the fragments that it leads to as they stand in the document, so the
text is free of tooling directives if and only if these fragments are.
-/

namespace OperationLibrary

open Syntax

namespace Syntax

/-! ### Directives of all nodes -/

section

variable (f : List Directive → List Directive)

def FieldHead.mapDirectives (head : FieldHead) : FieldHead :=
  { head with directives := f head.directives }

def Selection.mapDirectives : Selection → Selection
  | .field head none => .field (head.mapDirectives f) none
  | .field head (some selections) =>
    .field (head.mapDirectives f) (some (selections.map Selection.mapDirectives))
  | .spread fragment directives => .spread fragment (f directives)
  | .inline condition directives selections =>
    .inline condition (f directives) (selections.map Selection.mapDirectives)

def VariableDefinition.mapDirectives (definition : VariableDefinition) : VariableDefinition :=
  { definition with directives := f definition.directives }

/-- Changes the directives of each node and nothing else. -/
def Executable.mapDirectives : Executable → Executable
  | .operation o => .operation
    { o with
      variableDefinitions := o.variableDefinitions.map (VariableDefinition.mapDirectives f)
      directives := f o.directives
      selections := o.selections.map (Selection.mapDirectives f) }
  | .fragment d => .fragment
    { d with
      directives := f d.directives
      selections := d.selections.map (Selection.mapDirectives f) }

end

/-- The directives of the selection and of those inside it, node by node. -/
def Selection.directiveLists : Selection → List (List Directive)
  | .field head none => [head.directives]
  | .field head (some selections) => head.directives :: selections.flatMap Selection.directiveLists
  | .spread _ directives => [directives]
  | .inline _ directives selections => directives :: selections.flatMap Selection.directiveLists

/-- The directives of all nodes of the definition, node by node. -/
def Executable.directiveLists : Executable → List (List Directive)
  | .operation o =>
    o.directives :: (o.variableDefinitions.map VariableDefinition.directives ++
      o.selections.flatMap Selection.directiveLists)
  | .fragment d => d.directives :: d.selections.flatMap Selection.directiveLists

/-- The selection without any directives. -/
def Selection.bare (selection : Selection) : Selection :=
  selection.mapDirectives fun _ => []

/-- The definition without any directives. -/
def Executable.bare (definition : Executable) : Executable :=
  definition.mapDirectives fun _ => []

section

variable (f g : List Directive → List Directive)

theorem Selection.mapDirectives_mapDirectives (selection : Selection) :
    (selection.mapDirectives f).mapDirectives g = selection.mapDirectives (g ∘ f) := by
  fun_induction Selection.mapDirectives f selection with
  | case1 head => simp [Selection.mapDirectives, FieldHead.mapDirectives]
  | case2 head selections ih =>
      simp only [Selection.mapDirectives, List.map_map]
      exact congrArg (Selection.field _) (congrArg some (List.map_congr_left ih))
  | case3 fragment directives => simp [Selection.mapDirectives]
  | case4 condition directives selections ih =>
      simp only [Selection.mapDirectives, List.map_map]
      exact congrArg (Selection.inline condition _) (List.map_congr_left ih)

theorem Executable.mapDirectives_mapDirectives (definition : Executable) :
    (definition.mapDirectives f).mapDirectives g = definition.mapDirectives (g ∘ f) := by
  have hselections : Selection.mapDirectives g ∘ Selection.mapDirectives f =
      Selection.mapDirectives (g ∘ f) := funext (Selection.mapDirectives_mapDirectives f g)
  have hvariables : VariableDefinition.mapDirectives g ∘ VariableDefinition.mapDirectives f =
      VariableDefinition.mapDirectives (g ∘ f) := rfl
  cases definition <;> simp [Executable.mapDirectives, hselections, hvariables]

theorem Selection.directiveLists_mapDirectives (selection : Selection) :
    (selection.mapDirectives f).directiveLists = selection.directiveLists.map f := by
  fun_induction Selection.mapDirectives f selection with
  | case1 head => simp [Selection.directiveLists, FieldHead.mapDirectives]
  | case2 head selections ih =>
      simp only [Selection.directiveLists, FieldHead.mapDirectives, List.map_cons,
        List.flatMap_map, List.map_flatMap]
      exact congrArg _ (List.flatMap_congr ih)
  | case3 fragment directives => simp [Selection.directiveLists]
  | case4 condition directives selections ih =>
      simp only [Selection.directiveLists, List.map_cons, List.flatMap_map, List.map_flatMap]
      exact congrArg _ (List.flatMap_congr ih)

theorem Executable.directiveLists_mapDirectives (definition : Executable) :
    (definition.mapDirectives f).directiveLists = definition.directiveLists.map f := by
  cases definition with
  | operation operation =>
      simp [Executable.mapDirectives, Executable.directiveLists, VariableDefinition.mapDirectives,
        List.flatMap_map, List.map_flatMap, Selection.directiveLists_mapDirectives]
  | fragment fragment =>
      simp [Executable.mapDirectives, Executable.directiveLists, List.flatMap_map,
        List.map_flatMap, Selection.directiveLists_mapDirectives]

@[simp] theorem Executable.bare_mapDirectives (definition : Executable) :
    (definition.mapDirectives f).bare = definition.bare :=
  Executable.mapDirectives_mapDirectives f _ definition

end

/-! ### A definition from its parts -/

/-- Nodes that are alike without their directives have equally many nodes in them. -/
theorem Selection.length_directiveLists_of_bare {selection other : Selection}
    (h : selection.bare = other.bare) :
    selection.directiveLists.length = other.directiveLists.length := by
  have hbare := congrArg (fun s => s.directiveLists.length) h
  simpa [Selection.bare, Selection.directiveLists_mapDirectives] using hbare

/-- A list is known from two views of its elements, a part of each and a list for each, if the part
of an element tells how long its list is. -/
theorem eq_of_map_of_flatMap {α β γ : Type} {part : α → β} {listed : α → List γ} {xs ys : List α}
    (hlength : ∀ x y, part x = part y → (listed x).length = (listed y).length)
    (hinj : ∀ x ∈ xs, ∀ y, part x = part y → listed x = listed y → x = y)
    (hparts : xs.map part = ys.map part) (hlists : xs.flatMap listed = ys.flatMap listed) :
    xs = ys := by
  induction xs generalizing ys with
  | nil => simpa using hparts.symm
  | cons x xs ih =>
      cases ys with
      | nil => cases hparts
      | cons y ys =>
          obtain ⟨hfirst, hrest⟩ := List.cons.inj hparts
          rw [List.flatMap_cons, List.flatMap_cons] at hlists
          obtain ⟨hhead, htail⟩ := List.append_inj hlists (hlength x y hfirst)
          rw [hinj x List.mem_cons_self y hfirst hhead,
            ih (fun z hz => hinj z (List.mem_cons_of_mem _ hz)) hrest htail]

theorem FieldHead.eq_of_directives {head other : FieldHead}
    (hbare : head.mapDirectives (fun _ => []) = other.mapDirectives fun _ => [])
    (hdirectives : head.directives = other.directives) : head = other := by
  obtain ⟨aliasName, name, arguments, directives⟩ := head
  simp_all [FieldHead.mapDirectives]

theorem Selection.eq_of_directives {selection other : Selection}
    (hbare : selection.bare = other.bare)
    (hlists : selection.directiveLists = other.directiveLists) : selection = other := by
  -- selections that are the same without directives have the same constructor
  fun_induction Selection.directiveLists selection generalizing other with
  | case1 head =>
      cases other with
      | field otherHead inner =>
          cases inner with
          | none =>
              simp only [Selection.bare, Selection.mapDirectives, Selection.field.injEq] at hbare
              rw [FieldHead.eq_of_directives hbare.1 (by simpa [directiveLists] using hlists)]
          | some inner => simp [Selection.bare, Selection.mapDirectives] at hbare
      | spread => simp [Selection.bare, Selection.mapDirectives] at hbare
      | «inline» => simp [Selection.bare, Selection.mapDirectives] at hbare
  | case2 head selections ih =>
      cases other with
      | field otherHead inner =>
          cases inner with
          | none => simp [Selection.bare, Selection.mapDirectives] at hbare
          | some inner =>
              simp only [Selection.bare, Selection.mapDirectives, Selection.field.injEq,
                Option.some.injEq] at hbare
              simp only [directiveLists, List.cons.injEq] at hlists
              rw [FieldHead.eq_of_directives hbare.1 hlists.1,
                eq_of_map_of_flatMap (fun _ _ => length_directiveLists_of_bare)
                  (fun s hs t => ih s hs) hbare.2 hlists.2]
      | spread => simp [Selection.bare, Selection.mapDirectives] at hbare
      | «inline» => simp [Selection.bare, Selection.mapDirectives] at hbare
  | case3 fragment directives =>
      cases other with
      | field otherHead inner =>
          cases inner <;> simp [Selection.bare, Selection.mapDirectives] at hbare
      | spread otherFragment otherDirectives =>
          simp_all [Selection.bare, Selection.mapDirectives, directiveLists]
      | «inline» => simp [Selection.bare, Selection.mapDirectives] at hbare
  | case4 condition directives selections ih =>
      cases other with
      | field otherHead inner =>
          cases inner <;> simp [Selection.bare, Selection.mapDirectives] at hbare
      | spread => simp [Selection.bare, Selection.mapDirectives] at hbare
      | «inline» otherCondition otherDirectives inner =>
          simp only [Selection.bare, Selection.mapDirectives, Selection.inline.injEq] at hbare
          simp only [directiveLists, List.cons.injEq] at hlists
          rw [hbare.1, hlists.1, eq_of_map_of_flatMap (fun _ _ => length_directiveLists_of_bare)
            (fun s hs t => ih s hs) hbare.2.2 hlists.2]

theorem VariableDefinition.eq_of_directives {definition other : VariableDefinition}
    (hbare : definition.mapDirectives (fun _ => []) = other.mapDirectives fun _ => [])
    (hdirectives : [definition.directives] = [other.directives]) : definition = other := by
  obtain ⟨description, name, type, default, directives⟩ := definition
  simp_all [VariableDefinition.mapDirectives]

/-- A definition is known from what is left without directives and the directives of its nodes. -/
theorem Executable.eq_of_directives {definition other : Executable}
    (hbare : definition.bare = other.bare)
    (hlists : definition.directiveLists = other.directiveLists) : definition = other := by
  have hselections {xs ys : List Selection} (hparts : xs.map Selection.bare = ys.map Selection.bare)
      (hsame : xs.flatMap Selection.directiveLists = ys.flatMap Selection.directiveLists) :
      xs = ys :=
    eq_of_map_of_flatMap (fun _ _ => Selection.length_directiveLists_of_bare)
      (fun _ _ _ => Selection.eq_of_directives) hparts hsame
  cases definition with
  | operation operation =>
      cases other with
      | operation other =>
          obtain ⟨description, kind, name, definitions, directives, selections⟩ := operation
          obtain ⟨_, _, _, otherDefinitions, _, _⟩ := other
          simp only [Executable.bare, Executable.mapDirectives, Executable.operation.injEq,
            Operation.mk.injEq] at hbare
          obtain ⟨rfl, rfl, rfl, hdefinitions, -, hinner⟩ := hbare
          simp only [Executable.directiveLists, List.cons.injEq] at hlists
          -- as many variables on both sides, so their directives end at the same place
          have hcount : (definitions.map VariableDefinition.directives).length =
              (otherDefinitions.map VariableDefinition.directives).length := by
            simpa using congrArg List.length hdefinitions
          obtain ⟨hvariables, hinnerLists⟩ := List.append_inj hlists.2 hcount
          rw [List.map_eq_flatMap, List.map_eq_flatMap] at hvariables
          have hsame : definitions = otherDefinitions :=
            eq_of_map_of_flatMap (fun _ _ _ => rfl)
              (fun _ _ _ => VariableDefinition.eq_of_directives) hdefinitions hvariables
          simp only [hlists.1, hsame, hselections hinner hinnerLists]
      | fragment other => simp [Executable.bare, Executable.mapDirectives] at hbare
  | fragment fragment =>
      cases other with
      | operation other => simp [Executable.bare, Executable.mapDirectives] at hbare
      | fragment other =>
          obtain ⟨description, name, condition, directives, selections⟩ := fragment
          simp only [Executable.bare, Executable.mapDirectives, Executable.fragment.injEq,
            Fragment.mk.injEq] at hbare
          obtain ⟨rfl, rfl, rfl, -, hinner⟩ := hbare
          simp only [Executable.directiveLists, List.cons.injEq] at hlists
          simp only [hlists.1, hselections hinner hlists.2]

/-! ### Fewer directives in the grammar -/

section

variable {p : Description → Prop} {f : List Directive → List Directive} {room : Nat}

theorem FieldHead.Fits.mapDirectives {head : FieldHead} (h : head.Fits p room)
    (hf : ∀ directives, f directives ⊆ directives) : (head.mapDirectives f).Fits p room :=
  ⟨h.aliasName, h.name, h.arguments, fun directive hmem =>
    h.directives directive (hf _ hmem)⟩

theorem Selection.Fits.mapDirectives {selection : Selection} (h : selection.Fits p room)
    (hf : ∀ directives, f directives ⊆ directives) : (selection.mapDirectives f).Fits p room := by
  induction h with
  | leaf hhead =>
      rw [Selection.mapDirectives]
      exact .leaf (hhead.mapDirectives hf)
  | field hhead hselections ih =>
      rw [Selection.mapDirectives]
      exact .field (hhead.mapDirectives hf) (List.forall_mem_map.mpr ih)
  | spread hname hon hdirectives =>
      rw [Selection.mapDirectives]
      exact .spread hname hon fun directive hmem => hdirectives directive (hf _ hmem)
  | inline hcondition hdirectives hselections ih =>
      rw [Selection.mapDirectives]
      exact .inline hcondition (fun directive hmem => hdirectives directive (hf _ hmem))
        (List.forall_mem_map.mpr ih)

theorem SelectionsFit.mapDirectives {selections : List Selection}
    (h : SelectionsFit p room selections) (hf : ∀ directives, f directives ⊆ directives) :
    SelectionsFit p room (selections.map (Selection.mapDirectives f)) := by
  cases room with
  | zero => exact h.elim
  | succ room =>
      exact List.forall_mem_map.mpr fun selection hselection =>
        (h selection hselection).mapDirectives hf

theorem VariableDefinition.Fits.mapDirectives {definition : VariableDefinition}
    (h : definition.Fits p) (hf : ∀ directives, f directives ⊆ directives) :
    (definition.mapDirectives f).Fits p :=
  ⟨h.description, h.name, h.type, h.default, fun directive hmem =>
    h.directives directive (hf _ hmem)⟩

/-- Definitions with fewer directives are of the grammar as well. -/
theorem Executable.Fits.mapDirectives {definition : Executable} (h : definition.Fits p)
    (hf : ∀ directives, f directives ⊆ directives) : (definition.mapDirectives f).Fits p := by
  cases definition with
  | operation operation =>
      have h : operation.Fits p := h
      exact ⟨h.description, h.name, List.forall_mem_map.mpr fun definition hdefinition =>
          (h.variableDefinitions definition hdefinition).mapDirectives hf,
        fun directive hmem => h.directives directive (hf _ hmem), h.selections.mapDirectives hf⟩
  | fragment fragment =>
      have h : fragment.Fits p := h
      exact ⟨h.description, h.name, h.not_on, h.condition,
        fun directive hmem => h.directives directive (hf _ hmem), h.selections.mapDirectives hf⟩

end

end Syntax

/-! ### Definitions without tooling directives -/

/-- The tooling directives are taken off every node of the source; everything else is as it is
there, other directives and their order included. -/
structure StrippedOf (stripped source : Executable) : Prop where
  bare : stripped.bare = source.bare
  directiveLists : stripped.directiveLists = source.directiveLists.map withoutTooling

/-- No node of the definition has a tooling directive. -/
def ToolingFree (definition : Executable) : Prop :=
  ∀ directives ∈ definition.directiveLists, ∀ directive ∈ directives,
    isTooling directive = false

theorem strippedOf_mapDirectives (source : Executable) :
    StrippedOf (source.mapDirectives withoutTooling) source :=
  ⟨source.bare_mapDirectives _, source.directiveLists_mapDirectives _⟩

/-- There is one way to take tooling directives off a definition. -/
theorem strippedOf_iff {stripped source : Executable} :
    StrippedOf stripped source ↔ stripped = source.mapDirectives withoutTooling := by
  constructor
  · intro h
    have hmapped := strippedOf_mapDirectives source
    exact Executable.eq_of_directives (h.bare.trans hmapped.bare.symm)
      (h.directiveLists.trans hmapped.directiveLists.symm)
  · rintro rfl
    exact strippedOf_mapDirectives source

theorem StrippedOf.toolingFree {stripped source : Executable} (h : StrippedOf stripped source) :
    ToolingFree stripped := by
  intro directives hmem directive hdirective
  rw [h.directiveLists] at hmem
  obtain ⟨all, -, rfl⟩ := List.mem_map.mp hmem
  simpa using (List.mem_filter.mp hdirective).2

theorem strippedOf_self_iff {definition : Executable} :
    StrippedOf definition definition ↔ ToolingFree definition := by
  refine ⟨StrippedOf.toolingFree, fun hfree => ⟨rfl, ?_⟩⟩
  refine ((List.map_congr_left fun directives hmem => ?_).trans (List.map_id _)).symm
  exact List.filter_eq_self.mpr fun directive hdirective => by
    simp [hfree directives hmem directive hdirective]

theorem stripToolingAll_eq_map (selections : List Selection) :
    stripToolingAll selections = selections.map Selection.stripTooling := by
  induction selections with
  | nil => rfl
  | cons selection selections ih => rw [stripToolingAll, ih, List.map_cons]

theorem Syntax.Selection.stripTooling_eq (selection : Selection) :
    selection.stripTooling = selection.mapDirectives withoutTooling := by
  fun_induction Selection.mapDirectives withoutTooling selection with
  | case1 head => rfl
  | case2 head selections ih =>
      rw [Selection.stripTooling, stripToolingAll_eq_map, List.map_congr_left ih]
      rfl
  | case3 fragment directives => rfl
  | case4 condition directives selections ih =>
      rw [Selection.stripTooling, stripToolingAll_eq_map, List.map_congr_left ih]

theorem Syntax.Operation.stripTooling_eq (operation : Operation) :
    .operation operation.stripTooling =
      (Executable.operation operation).mapDirectives withoutTooling := by
  rw [Operation.stripTooling, stripToolingAll_eq_map, funext Selection.stripTooling_eq]
  rfl

theorem withoutTooling_subset (directives : List Directive) :
    withoutTooling directives ⊆ directives :=
  List.filter_sublist.subset

/-! ### Reading persistable texts -/

/-- Definitions that were read are read again from their texts, with a blank line between each two
of them. -/
theorem parse_intercalate_print {definitions : List Executable} (hne : definitions ≠ [])
    (h : ∀ d ∈ definitions, d.Fits Description.Settled) :
    Document.parse ("\n\n".intercalate (definitions.map Executable.print)) =
      .ok (definitions.map Definition.executable) := by
  have hgap : IsGap "\n\n".toList := by simp [IsGap, isIgnored]
  have hwrites := writes_intercalate hgap fun d hd =>
    ((h d hd).mono fun _ hsettled => hsettled.printable).writes
  have hread := hwrites 0 [] (by simp [Separated])
  rw [shifted_zero, List.append_nil, lexemes_nil,
    List.flatMap_congr fun d hd => lexemes_reread (h d hd)] at hread
  exact parse_of_lexemes hne h hread

section

variable {source : String} {document : Document} {operation : Operation}

theorem mem_fragments_persistableOperation {fragment : Fragment} :
    fragment ∈ (persistableOperation document operation).value.fragments ↔
      Reaches document.lastFragments operation.selections fragment :=
  (fragments_persistableOperation_perm document operation).mem_iff.trans mem_neededFragments_iff

theorem fragment_mem_executables {fragment : Fragment}
    (h : Reaches document.lastFragments operation.selections fragment) :
    .fragment fragment ∈ document.executables := by
  have hmem : fragment ∈ document.fragments.reverse := FragmentTable.mem_of_get? h.get?_eq
  obtain ⟨d, hd, hfragment⟩ := List.mem_filterMap.mp (List.mem_reverse.mp hmem)
  cases d with
  | operation other => cases hfragment
  | fragment other => exact Option.some.inj hfragment ▸ hd

/-- The persistable text of an operation is read as what is printed into it. -/
theorem parse_persistableText (hparse : Document.parse source = .ok document)
    (hmem : .operation operation ∈ document.executables) :
    Document.parse (persistableOperation document operation).value.text =
      .ok (persistedDefinitions document operation) := by
  have hread : ∀ d ∈ document.executables, d.Fits Description.Settled := fun d hd =>
    fits_of_parse hparse _ (executable_mem hd)
  have hfits : ∀ d ∈ .operation operation.stripTooling ::
      (persistableOperation document operation).value.fragments.map Executable.fragment,
        d.Fits Description.Settled := by
    refine List.forall_mem_cons.mpr ⟨?_, List.forall_mem_map.mpr fun fragment hfragment => ?_⟩
    · rw [operation.stripTooling_eq]
      exact (hread _ hmem).mapDirectives withoutTooling_subset
    · exact hread _ (fragment_mem_executables (mem_fragments_persistableOperation.mp hfragment))
  have hprint := parse_intercalate_print (List.cons_ne_nil _ _) hfits
  rw [List.map_cons, List.map_map] at hprint
  exact hprint

/-- **Fragments bring their tooling directives.** The persistable text of an operation that was read
is the text of the operation with the tooling directives taken off every node, followed by the texts
of the fragments that it leads to, and it is read as these definitions. Every definition in it is
its source without tooling directives, and none of them has a tooling directive, if and only if no
fragment that the operation leads to has one. The function of the operation has this text in every
library of the document. -/
theorem persistableText_toolingFree_iff (hparse : Document.parse source = .ok document)
    (hmem : .operation operation ∈ document.executables) :
    let persistable := (persistableOperation document operation).value
    let sources := .operation operation :: persistable.fragments.map Executable.fragment
    ∃ stripped, StrippedOf (.operation stripped) (.operation operation) ∧
      let printed := .operation stripped :: persistable.fragments.map Executable.fragment
      persistable.text = "\n\n".intercalate (printed.map Executable.print) ∧
      Document.parse persistable.text = .ok (printed.map Definition.executable) ∧
      (∀ fragment, fragment ∈ persistable.fragments ↔
        Reaches document.lastFragments operation.selections fragment) ∧
      [List.Forall₂ StrippedOf printed sources, ∀ d ∈ printed, ToolingFree d,
        ∀ fragment, Reaches document.lastFragments operation.selections fragment →
          ToolingFree (.fragment fragment)].TFAE ∧
      ∀ (generator : Generator) (library : Library),
        (generator.library document).value = .ok library →
          ∀ function ∈ library.functions, function.source.operation = operation →
            function.body = SourceText.templateLiteralText persistable.text := by
  intro persistable sources
  have hstripped : StrippedOf (.operation operation.stripTooling) (.operation operation) :=
    strippedOf_iff.mpr operation.stripTooling_eq
  refine ⟨operation.stripTooling, hstripped, ?_, parse_persistableText hparse hmem,
    fun _ => mem_fragments_persistableOperation, ?tfae, ?functions⟩
  · rw [List.map_cons, List.map_map]
    rfl
  case tfae =>
    tfae_have 1 → 2 := fun hall =>
      ((List.forall₂_and_left _ _).mp (hall.imp fun _ _ h => ⟨h.toolingFree, h⟩)).1
    tfae_have 2 → 3 := fun hfree fragment hreach =>
      hfree _ (List.mem_cons_of_mem _
        (List.mem_map_of_mem (mem_fragments_persistableOperation.mpr hreach)))
    tfae_have 3 → 1 := by
      intro hfree
      refine .cons hstripped (List.forall₂_same.mpr ?_)
      refine List.forall_mem_map.mpr fun fragment hfragment => strippedOf_self_iff.mpr ?_
      exact hfree fragment (mem_fragments_persistableOperation.mp hfragment)
    tfae_finish
  case functions =>
    intro generator library hlibrary function hfunction hsource
    obtain ⟨id, entry, hentry, hmade⟩ := Generator.exists_annotation_of_mem hlibrary hfunction
    obtain ⟨tag, -, -, hannotated⟩ := exists_of_mem_functions hentry
    obtain ⟨rfl, hcarries⟩ := of_libraryFunction? hmade
    rw [hcarries, hannotated, hsource]
    rfl

end

namespace TaggedFragment

def fragment (directives : List Directive) : Fragment :=
  ⟨none, "F", "Query", directives, [.field ⟨none, "a", [], []⟩ none]⟩

/-- Spreads the fragment; the spread and the operation have these directives. -/
def operation (directives : List Directive) : Operation :=
  ⟨none, .query, some "Q", [], directives, [.spread "F" directives]⟩

def document (own others : List Directive) : Document :=
  [.executable (.operation (operation own)), .executable (.fragment (fragment others))]

def tooling : Directive := ⟨"netlify", [⟨"id", .string "f" false⟩]⟩

/-- A directive that is not for tools. -/
def other : Directive := ⟨"c", []⟩

/-- What the documents are read from, one without and one with a directive for tools at the
fragment. -/
def plainSource : String :=
  "query Q @netlify(id: \"f\") @c \x7b ...F @netlify(id: \"f\") @c \x7d " ++
    "fragment F on Query @c \x7b a \x7d"

def taggedSource : String :=
  "query Q \x7b ...F \x7d fragment F on Query @netlify(id: \"f\") \x7b a \x7d"

theorem parse_plainSource :
    Document.parse plainSource = .ok (document [tooling, other] [other]) := by
  decide +kernel

theorem parse_taggedSource : Document.parse taggedSource = .ok (document [] [tooling]) := by
  decide +kernel

theorem neededFragments_eq (own others : List Directive) :
    (neededFragments (document own others).lastFragments (operation own)).value =
      [fragment others] := by
  have htable : (document own others).lastFragments = [fragment others] := rfl
  simp [neededFragments, htable, reachAtOnce_cons, reachAtOnce, FragmentTable.get?, spreadNames,
    Selection.spreads, operation, fragment]

/-- The fragment is all that the operation leads to. -/
theorem reaches_iff_eq {own others : List Directive} {found : Fragment} :
    Reaches (document own others).lastFragments (operation own).selections found ↔
      found = fragment others := by
  have hneeded : (neededFragments (document own others).lastFragments (operation own)).value =
      [fragment others] := neededFragments_eq own others
  rw [← mem_neededFragments_iff, hneeded, List.mem_singleton]

/-- Without tooling directives at the fragment there are none in the text. -/
theorem plain_text_toolingFree :
    Document.parse plainSource = .ok (document [tooling, other] [other]) ∧
      .operation (operation [tooling, other]) ∈ (document [tooling, other] [other]).executables ∧
      ∃ printed : List Executable,
        Document.parse (persistableOperation (document [tooling, other] [other])
          (operation [tooling, other])).value.text = .ok (printed.map Definition.executable) ∧
        ∀ d ∈ printed, ToolingFree d := by
  have hmem : .operation (operation [tooling, other]) ∈
      (document [tooling, other] [other]).executables := List.mem_cons_self
  obtain ⟨stripped, -, -, hread, -, htfae, -⟩ :=
    persistableText_toolingFree_iff parse_plainSource hmem
  refine ⟨parse_plainSource, hmem, _, hread, (htfae.out 1 2).mpr ?_⟩
  intro found hfound
  rw [reaches_iff_eq.mp hfound]
  simp [ToolingFree, Executable.directiveLists, Selection.directiveLists, fragment, other,
    isTooling, annotationDirective, cacheDirective]

/-- The text of the operation with the directive of the fragment in it. -/
def taggedText : String :=
  "query Q \x7b\n  ...F\n\x7d\n\nfragment F on Query @netlify(id: \"f\") \x7b\n  a\n\x7d"

theorem persistableText_tagged :
    (persistableOperation (document [] [tooling]) (operation [])).value.text = taggedText := by
  have hneeded : (neededFragments (document [] [tooling]).lastFragments (operation [])).value =
      [fragment [tooling]] := neededFragments_eq [] [tooling]
  have hparts : (persistableOperation (document [] [tooling]) (operation [])).value.text =
      "\n\n".intercalate ((operation []).stripTooling.print :: (sortByName Fragment.name
        (neededFragments (document [] [tooling]).lastFragments (operation [])).value).map
          Fragment.print) := rfl
  rw [hparts, hneeded, sortByName, List.mergeSort_singleton]
  decide

theorem parse_taggedText :
    Document.parse taggedText =
      .ok [.executable (.operation (operation [])),
        .executable (.fragment (fragment [tooling]))] := by
  decide +kernel

/-- The fragment is printed with its directive for tools, so what is printed is not a definition of
the document without tooling directives. -/
theorem tagged_text_keeps_directive :
    Document.parse taggedSource = .ok (document [] [tooling]) ∧
      .operation (operation []) ∈ (document [] [tooling]).executables ∧
      (persistableOperation (document [] [tooling]) (operation [])).value.text = taggedText ∧
      Document.parse taggedText =
        .ok [.executable (.operation (operation [])),
          .executable (.fragment (fragment [tooling]))] ∧
      ∀ source, ¬ StrippedOf (.fragment (fragment [tooling])) source := by
  refine ⟨parse_taggedSource, List.mem_cons_self, persistableText_tagged, parse_taggedText, ?_⟩
  intro source hstripped
  have hfirst := hstripped.toolingFree [tooling] List.mem_cons_self tooling List.mem_cons_self
  exact absurd hfirst (by decide)

end TaggedFragment

end OperationLibrary
