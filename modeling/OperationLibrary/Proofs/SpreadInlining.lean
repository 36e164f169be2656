import OperationLibrary.Proofs.FullShape
import OperationLibrary.Proofs.SelectionProjection
import OperationLibrary.Proofs.SelfContained

/-!
Spreading a fragment means writing its selections in place. Selections without spreads are derived
from selections with them by a relation, which follows the fragments as deep as they go; where no
fragment leads back to itself there is such a form, and it has the projection of the selections it
was derived from, without any fragment at hand.
-/

namespace OperationLibrary

open Syntax

/-! ### Projections that come to the same -/

/-- Two projections have the same value and the same fault. What they report on the way to it may
differ. -/
structure Projection.SameOutcome {α : Type} (x y : Projection α) : Prop where
  value : x.value = y.value
  fault : x.fault = y.fault

open Projection (SameOutcome)

/-! ### Inlined selections -/

/-- The second selections are the first ones with the selections of known fragments in the place
of their spreads, at every depth, and without spreads of unknown fragments. -/
inductive Inlines (table : FragmentTable) : List Selection → List Selection → Prop
  | nil : Inlines table [] []
  | leaf {head : FieldHead} {rest others : List Selection} (behind : Inlines table rest others) :
      Inlines table (.field head none :: rest) (.field head none :: others)
  | field {head : FieldHead} {inner inlined rest others : List Selection}
      (within : Inlines table inner inlined) (behind : Inlines table rest others) :
      Inlines table (.field head (some inner) :: rest) (.field head (some inlined) :: others)
  | inline {condition : Option String} {directives : List Directive}
      {inner inlined rest others : List Selection} (within : Inlines table inner inlined)
      (behind : Inlines table rest others) :
      Inlines table (.inline condition directives inner :: rest)
        (.inline condition directives inlined :: others)
  | known {name : String} {directives : List Directive} {fragment : Fragment}
      {inlined rest others : List Selection} (found : table.get? name = some fragment)
      (within : Inlines table fragment.selections inlined) (behind : Inlines table rest others) :
      Inlines table (.spread name directives :: rest)
        (.inline (some fragment.condition) directives inlined :: others)
  | unknown {name : String} {directives : List Directive} {rest others : List Selection}
      (missing : table.get? name = none) (behind : Inlines table rest others) :
      Inlines table (.spread name directives :: rest) others

/-- Inlined selections spread nothing. -/
theorem Inlines.spreadNames_eq_nil {table : FragmentTable} {selections inlined : List Selection}
    (h : Inlines table selections inlined) : spreadNames inlined = [] := by
  induction h with
  | nil => rw [spreadNames]
  | leaf _ ih => rw [spreadNames, Selection.spreads, ih, List.append_nil]
  | field _ _ ihWithin ih => rw [spreadNames, Selection.spreads, ihWithin, ih, List.append_nil]
  | inline _ _ ihWithin ih => rw [spreadNames, Selection.spreads, ihWithin, ih, List.append_nil]
  | known _ _ _ ihWithin ih => rw [spreadNames, Selection.spreads, ihWithin, ih, List.append_nil]
  | unknown _ _ ih => exact ih

/-! ### Fragments that are not open -/

/-- The selections lead to none of the names. -/
def LeadsToNone (table : FragmentTable) (names : List String) (selections : List Selection) :
    Prop :=
  ∀ name ∈ names, ¬ Mentions table selections name

section

variable {table : FragmentTable} {names : List String} {selections others : List Selection}

theorem LeadsToNone.mono (h : LeadsToNone table names others)
    (hsub : ∀ name ∈ spreadNames selections, name ∈ spreadNames others) :
    LeadsToNone table names selections :=
  fun name hname hmentions => h name hname (hmentions.mono hsub)

/-- A fragment that does not lead back to itself does not lead to its own name. -/
theorem FragmentTable.Acyclic.leadsToNone (hacyclic : table.Acyclic) {name : String}
    {fragment : Fragment} (found : table.get? name = some fragment) :
    LeadsToNone table [name] fragment.selections := by
  intro other hother hmentions
  rw [List.mem_singleton.mp hother] at hmentions
  rcases hmentions with hspread | ⟨inner, hinner, hspread⟩
  · exact hacyclic name fragment found (.direct hspread found)
  · exact hacyclic name fragment found (.through hinner hspread found)

/-- A spread is never inside its own fragment, and inside the fragment it leads to nothing that is
open around it. -/
theorem LeadsToNone.enter (hacyclic : table.Acyclic) {name : String} {fragment : Fragment}
    (found : table.get? name = some fragment) (hspread : name ∈ spreadNames selections)
    (h : LeadsToNone table names selections) :
    name ∉ names ∧ LeadsToNone table (name :: names) fragment.selections := by
  refine ⟨fun hmem => h name hmem (.inl hspread), fun other hother hmentions => ?_⟩
  rcases List.mem_cons.mp hother with rfl | hother
  · exact hacyclic.leadsToNone found other (List.mem_singleton_self other) hmentions
  · exact h other hother (hmentions.of_fragment (.direct hspread found))

end

/-- Without cycles all spreads can be followed to their end. -/
theorem exists_inlines {table : FragmentTable} (hacyclic : table.Acyclic) (names : List String)
    (selections : List Selection) (h : LeadsToNone table names selections) :
    ∃ inlined, Inlines table selections inlined := by
  cases selections with
  | nil => exact ⟨[], .nil⟩
  | cons selection rest =>
      obtain ⟨others, hothers⟩ :=
        exists_inlines hacyclic names rest (h.mono (by simp +contextual [spreadNames]))
      cases selection with
      | field head inner =>
          cases inner with
          | none => exact ⟨_, .leaf hothers⟩
          | some inner =>
              obtain ⟨inlined, hinlined⟩ := exists_inlines hacyclic names inner
                (h.mono (by simp +contextual [spreadNames, Selection.spreads]))
              exact ⟨_, .field hinlined hothers⟩
      | inline condition directives inner =>
          obtain ⟨inlined, hinlined⟩ := exists_inlines hacyclic names inner
            (h.mono (by simp +contextual [spreadNames, Selection.spreads]))
          exact ⟨_, .inline hinlined hothers⟩
      | spread name directives =>
          cases found : table.get? name with
          | none => exact ⟨_, .unknown found hothers⟩
          | some fragment =>
              -- without cycles the fragment does not lead to its own name again
              obtain ⟨hfresh, hwithin⟩ :=
                h.enter hacyclic found (by simp [spreadNames, Selection.spreads])
              obtain ⟨inlined, hinlined⟩ :=
                exists_inlines hacyclic (name :: names) fragment.selections hwithin
              exact ⟨_, .known found hinlined hothers⟩
termination_by (table.unseen names, sizeOf selections)
decreasing_by
  all_goals subst_vars
  all_goals first
    | exact Prod.Lex.left _ _ (FragmentTable.unseen_cons_lt found hfresh)
    | exact Prod.Lex.right _ (by
        simp only [List.cons.sizeOf_spec, Selection.field.sizeOf_spec, Option.some.sizeOf_spec,
          Selection.inline.sizeOf_spec]
        omega)

/-! ### The projection of inlined selections -/

/-- The context without any fragment. -/
def SelectionContext.withoutFragments (context : SelectionContext) : SelectionContext :=
  { context with fragments := [] }

section

variable {context : SelectionContext} {names seen : List String}

/-- Sub-selections with the same contributions to every type make the same shape. -/
theorem selectedCore_withoutFragments {inner inlined : List Selection}
    (h : ∀ type, (contributions context names type inner).Agrees
      (contributions context.withoutFragments seen type inlined)) (name : String) :
    (selectedCore context names (some inner) name).Agrees
      (selectedCore context.withoutFragments seen (some inlined) name) := by
  have hschema : context.withoutFragments.schema = context.schema := rfl
  have hscalars : context.withoutFragments.scalars = context.scalars := rfl
  simp only [selectedCore, hschema, hscalars]
  cases context.schema.get? name with
  | none => exact .refl _
  | some type =>
      by_cases hcomposite : type.isComposite = true
      · simp only [hcomposite, if_true]
        exact (h type).bind (.refl _)
      · simp only [hcomposite]
        exact .refl _

/-- A field contributes what the shape at the core of its type says. -/
theorem contribution_field_withoutFragments {inner inlined : Option (List Selection)}
    (h : ∀ name, (selectedCore context names inner name).Agrees
      (selectedCore context.withoutFragments seen inlined name)) (parent : NamedType)
    (head : FieldHead) :
    (contribution context names parent (.field head inner)).Agrees
      (contribution context.withoutFragments seen parent (.field head inlined)) := by
  cases hinternal : isInternal head.name with
  | true =>
      rw [contribution_internal _ _ _ _ hinternal, contribution_internal _ _ _ _ hinternal]
      exact .refl _
  | false =>
      rw [contribution_field _ _ _ _ hinternal, contribution_field _ _ _ _ hinternal]
      refine (Projection.Agrees.refl _).bind ?_
      split
      · exact .refl _
      · exact (throughWrappers_agrees (h _) 0).bind (.refl _)

theorem contributions_cons_withoutFragments {parent : NamedType} {selection inlined : Selection}
    {rest others : List Selection}
    (hfirst : (contribution context names parent selection).Agrees
      (contribution context.withoutFragments seen parent inlined))
    (hrest : (contributions context names parent rest).Agrees
      (contributions context.withoutFragments seen parent others)) :
    (contributions context names parent (selection :: rest)).Agrees
      (contributions context.withoutFragments seen parent (inlined :: others)) := by
  rw [contributions, contributions]
  exact hfirst.bind (hrest.bind (.refl _))

end

/-- **Inlining changes no contribution.** Inside fragments that the selections do not lead back to,
inlined selections contribute the same entries without any fragment at hand. -/
theorem contributions_inlined {context : SelectionContext} (hacyclic : context.fragments.Acyclic)
    {selections inlined : List Selection} (h : Inlines context.fragments selections inlined)
    (seen names : List String) (parent : NamedType)
    (hnames : LeadsToNone context.fragments names selections) :
    (contributions context names parent selections).Agrees
      (contributions context.withoutFragments seen parent inlined) := by
  induction h generalizing names parent with
  | nil =>
      rw [contributions, contributions]
      exact .refl _
  | leaf _ ih =>
      refine contributions_cons_withoutFragments ?_
        (ih names parent (hnames.mono (by simp +contextual [spreadNames])))
      exact contribution_field_withoutFragments (fun _ => ⟨rfl, rfl⟩) parent _
  | field _ _ ihWithin ih =>
      refine contributions_cons_withoutFragments ?_
        (ih names parent (hnames.mono (by simp +contextual [spreadNames])))
      have hwithin := fun type => ihWithin names type
        (hnames.mono (by simp +contextual [spreadNames, Selection.spreads]))
      exact contribution_field_withoutFragments (selectedCore_withoutFragments hwithin) parent _
  | @inline condition directives inner inlined rest others _ _ ihWithin ih =>
      refine contributions_cons_withoutFragments ?_
        (ih names parent (hnames.mono (by simp +contextual [spreadNames])))
      have hwithin := fun type => ihWithin names type
        (hnames.mono (by simp +contextual [spreadNames, Selection.spreads]))
      cases condition with
      | none =>
          rw [contribution_group, contribution_group]
          exact (hwithin parent).map _
      | some name =>
          simp only [contribution_inline, SelectionContext.withoutFragments]
          cases context.schema.get? name with
          | none => exact .refl _
          | some type => exact (hwithin type).map _
  | @known name directives fragment inlined rest others found _ _ ihWithin ih =>
      refine contributions_cons_withoutFragments ?_
        (ih names parent (hnames.mono (by simp +contextual [spreadNames])))
      obtain ⟨hfresh, hwithin⟩ :=
        hnames.enter hacyclic found (by simp [spreadNames, Selection.spreads])
      simp only [contribution_spread, contribution_inline, found, hfresh, if_false,
        SelectionContext.withoutFragments]
      cases context.schema.get? fragment.condition with
      -- the two say in different words that the condition is unknown
      | none => exact ⟨rfl, rfl⟩
      | some type => exact (ihWithin (name :: names) type hwithin).map _
  | @unknown name directives rest others missing _ ih =>
      have hrest := ih names parent (hnames.mono (by simp +contextual [spreadNames]))
      -- such a spread is reported and contributes nothing
      simp only [contributions, contribution_spread, missing]
      exact ⟨hrest.1, by simpa using hrest.2⟩

/-! ### Responses -/

/-- The definition with other selections. -/
def Syntax.Executable.withSelections (definition : Executable) (selections : List Selection) :
    Executable :=
  match definition with
  | .operation o => .operation { o with selections }
  | .fragment f => .fragment { f with selections }

/-- What holds for selections on every root holds for the definition around them. -/
theorem responseShape_withSelections {context : SelectionContext}
    {definition : Executable} {selections : List Selection}
    (h : ∀ root,
      (contributions context definition.fragmentName?.toList root definition.selections).Agrees
        (contributions context.withoutFragments definition.fragmentName?.toList root
          selections)) :
    (responseShape context definition).Agrees
      (responseShape context.withoutFragments (definition.withSelections selections)) := by
  have hroot : rootType? context.withoutFragments.schema (definition.withSelections selections) =
      rootType? context.schema definition := by
    cases definition <;> rfl
  have hname : (definition.withSelections selections).fragmentName? =
      definition.fragmentName? := by
    cases definition <;> rfl
  have hselections : (definition.withSelections selections).selections = selections := by
    cases definition <;> rfl
  refine Projection.Agrees.map _ ?_
  cases hfound : rootType? context.schema definition with
  | none =>
      -- only the warnings differ, by the names in them
      rw [dataShape_of_no_root _ hfound, dataShape_of_no_root _ (hroot.trans hfound)]
      exact ⟨by simp, by simp⟩
  | some root =>
      rw [dataShape_of_root _ hfound, dataShape_of_root _ (hroot.trans hfound), hname, hselections]
      exact ((h root).map _).map _

/-- **Spreads mean inlining.** In a table without cycles of spreads, the selections of an operation
or of an entry of the table have an inlined form, which spreads nothing; and with that form in the
place of its selections, a definition has the response that it has with the table, though no
fragment is at hand. -/
theorem responseShape_inlined (context : SelectionContext) (definition : Executable)
    (hacyclic : context.fragments.Acyclic)
    (hentry : ∀ fragment, definition.fragment? = some fragment →
      context.fragments.get? fragment.name = some fragment) :
    (∃ inlined, Inlines context.fragments definition.selections inlined) ∧
      ∀ inlined, Inlines context.fragments definition.selections inlined →
        spreadNames inlined = [] ∧
          SameOutcome (responseShape context definition)
            (responseShape context.withoutFragments (definition.withSelections inlined)) := by
  have hnames : LeadsToNone context.fragments definition.fragmentName?.toList
      definition.selections := by
    cases definition with
    | operation o => simp [LeadsToNone, Executable.fragmentName?]
    | fragment f => exact hacyclic.leadsToNone (hentry f rfl)
  refine ⟨exists_inlines hacyclic _ _ hnames, fun inlined hinlined => ?_⟩
  obtain ⟨hvalue, hfault⟩ := responseShape_withSelections fun root =>
    contributions_inlined hacyclic hinlined _ _ root hnames
  exact ⟨hinlined.spreadNames_eq_nil, hvalue, hfault⟩

/-! ### A table without cycles -/

/-- Where every fragment spreads names of lower rank only, no fragment leads back to itself. -/
theorem FragmentTable.acyclic_of_rank {table : FragmentTable} (rank : String → Nat)
    (h : ∀ fragment ∈ table, ∀ name ∈ spreadNames fragment.selections,
      rank name < rank fragment.name) : table.Acyclic := by
  have hlower : ∀ fragment ∈ table, ∀ inner, Reaches table fragment.selections inner →
      rank inner.name < rank fragment.name := by
    intro fragment hmem inner hreach
    induction hreach with
    | direct hspread found =>
        rw [FragmentTable.name_of_get? found]
        exact h fragment hmem _ hspread
    | through hreach hspread found ih =>
        rw [FragmentTable.name_of_get? found]
        exact Nat.lt_trans (h _ (FragmentTable.mem_of_get? hreach.get?_eq) _ hspread) ih
  intro name fragment found hreach
  exact Nat.lt_irrefl _ (hlower fragment (FragmentTable.mem_of_get? found) fragment hreach)

namespace NestedFragments

def leaf (name : String) : Selection :=
  .field ⟨none, name, [], []⟩ none

/-- Its type condition does not resolve. -/
def lost : Fragment :=
  ⟨none, "Lost", "Nowhere", [], [leaf "name"]⟩

/-- Spreads a fragment whose condition does not resolve, and one that nobody knows. -/
def person : Fragment :=
  ⟨none, "Person", "User", [], [leaf "id", .spread "Lost" [], .spread "Missing" []]⟩

/-- Spreads a fragment twice, one time below a field. -/
def friends : Fragment :=
  ⟨none, "Friends", "User", [],
    [.field ⟨none, "friend", [], []⟩ (some [.spread "Person" [], leaf "name"]),
      .spread "Person" []]⟩

def schema : Schema :=
  ⟨[⟨"User", none, .object []
      [⟨"id", none, [], .nonNull (.named "ID")⟩, ⟨"name", none, [], .named "String"⟩,
        ⟨"friend", none, [], .named "User"⟩]⟩, .scalar "ID", .scalar "String"],
    none, none, none, []⟩

def context : SelectionContext :=
  ⟨schema, [person, friends, lost], .standard⟩

/-- The selections of a person, written in place. -/
def inlinedPerson : Selection :=
  .inline (some "User") [] [leaf "id", .inline (some "Nowhere") [] [leaf "name"]]

def inlined : List Selection :=
  [.field ⟨none, "friend", [], []⟩ (some [inlinedPerson, leaf "name"]), inlinedPerson]

theorem acyclic : context.fragments.Acyclic := by
  refine FragmentTable.acyclic_of_rank
    (fun name => if name = "Friends" then 2 else if name = "Person" then 1 else 0) ?_
  decide

theorem inlines_friends : Inlines context.fragments friends.selections inlined := by
  have hlost : Inlines context.fragments lost.selections [leaf "name"] := .leaf .nil
  have hperson : Inlines context.fragments person.selections
      [leaf "id", .inline (some "Nowhere") [] [leaf "name"]] :=
    .leaf (.known rfl hlost (.unknown rfl .nil))
  exact .field (.known rfl hperson (.leaf .nil)) (.known rfl hperson .nil)

/-- The fragment of friends projects as it does with the fragments that it spreads. -/
theorem friends_inlined :
    context.fragments.Acyclic ∧ context.fragments.get? friends.name = some friends ∧
      Inlines context.fragments friends.selections inlined ∧ spreadNames inlined = [] ∧
        SameOutcome (responseShape context (.fragment friends))
          (responseShape context.withoutFragments
            (.fragment { friends with selections := inlined })) := by
  have hentry : context.fragments.get? friends.name = some friends := rfl
  have h := responseShape_inlined context (.fragment friends) acyclic fun fragment hsome =>
    Option.some.inj hsome ▸ hentry
  exact ⟨acyclic, hentry, inlines_friends, h.2 inlined inlines_friends⟩

end NestedFragments

end OperationLibrary
