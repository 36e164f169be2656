import Mathlib.Data.List.ReduceOption
import Mathlib.Tactic.Tauto
import OperationLibrary.Proofs.FullShape
import OperationLibrary.Proofs.SelectionCalls

/-!
Fragments that spread one another. However a table leads from fragment to fragment, a chain of
nested calls opens each fragment at most once, since a call knows what is open around it. A spread
that is cut for this adds nothing; and as calls know the open fragments as a set, spreads of one
fragment inside the same ones are opened each time, with the same entries.
-/

namespace OperationLibrary

open Syntax

/-! ### Chains of calls -/

/-- Calls that are nested in one another, with what each of them opens. -/
inductive CallChain (context : SelectionContext) :
    SelectionCall → List (Option String) → SelectionCall → Prop
  | nil (call : SelectionCall) : CallChain context call [] call
  | cons {outer call inner : SelectionCall} {opened : Option String} {later : List (Option String)}
      (first : Calls context outer opened call) (rest : CallChain context call later inner) :
      CallChain context outer (opened :: later) inner

section

variable {context : SelectionContext} {outer inner : SelectionCall}

/-- A call opens at most one fragment, and this one is not open around it. -/
theorem Calls.expanding_eq {opened : Option String} (h : Calls context outer opened inner) :
    inner.expanding = opened.toList ++ outer.expanding ∧
      ∀ name ∈ opened, name ∉ outer.expanding := by
  cases h with
  | spread mem found fresh resolved =>
      refine ⟨rfl, fun name hname => ?_⟩
      obtain rfl := Option.some.inj hname
      exact fresh
  | field | group | inline | output | list | nonNull | core => exact ⟨rfl, by simp⟩

namespace CallChain

variable {opened : List (Option String)}

theorem length_add_rank_le (h : CallChain context outer opened inner) :
    opened.length + context.rank inner ≤ context.rank outer := by
  induction h with
  | nil call => simp
  | cons first rest ih =>
      have hfirst := first.rank_lt
      rw [List.length_cons]
      omega

/-- What is open at the end of a chain was open before it or is opened on the way. -/
theorem mem_expanding_iff (h : CallChain context outer opened inner) (name : String) :
    name ∈ inner.expanding ↔ name ∈ opened.reduceOption ∨ name ∈ outer.expanding := by
  induction h with
  | nil call => simp
  | @cons outer call inner opened later first rest ih =>
      rw [ih, first.expanding_eq.1]
      cases opened with
      | none => simp
      | some other =>
          simp only [Option.toList_some, List.cons_append, List.nil_append, List.mem_cons,
            List.reduceOption_cons_of_some]
          tauto

/-- Along a chain nothing is opened that is open already. -/
theorem fresh (h : CallChain context outer opened inner) :
    opened.reduceOption.Nodup ∧ ∀ name ∈ opened.reduceOption, name ∉ outer.expanding := by
  induction h with
  | nil call => simp
  | @cons outer call inner opened later first rest ih =>
      obtain ⟨hnodup, hlater⟩ := ih
      obtain ⟨hexpanding, hfresh⟩ := first.expanding_eq
      rw [hexpanding] at hlater
      cases opened with
      | none =>
          rw [List.reduceOption_cons_of_none]
          exact ⟨hnodup, hlater⟩
      | some name =>
          have hname : name ∉ later.reduceOption := fun hmem => hlater name hmem (by simp)
          rw [List.reduceOption_cons_of_some]
          refine ⟨List.nodup_cons.mpr ⟨hname, hnodup⟩, fun other hother => ?_⟩
          rcases List.mem_cons.mp hother with rfl | hother
          · exact hfresh other rfl
          · exact fun hmem => hlater other hother (by simp [hmem])

end CallChain

end

/-! ### Spreads that are cut -/

section

variable (context : SelectionContext) {expanding : List String} (parent : NamedType)
  {name : String} (directives : List Directive)

theorem contribution_cut (hseen : name ∈ expanding) :
    (contribution context expanding parent (.spread name directives)).Agrees (pure []) := by
  rw [contribution_spread]
  cases context.fragments.get? name with
  | none => exact ⟨rfl, rfl⟩
  | some fragment =>
      simp only [hseen, if_true]
      exact ⟨rfl, rfl⟩

/-- Selections make the same object without a spread of an open fragment. -/
theorem selectedEntries_cut (hseen : name ∈ expanding) (front rest : List Selection) :
    (selectedEntries context expanding parent (front ++ .spread name directives :: rest)).Agrees
      (selectedEntries context expanding parent (front ++ rest)) := by
  have hcontributions :
      (contributions context expanding parent (front ++ .spread name directives :: rest)).Agrees
        (contributions context expanding parent (front ++ rest)) := by
    induction front with
    | nil =>
        obtain ⟨hvalue, hfault⟩ := contribution_cut context parent directives hseen
        rw [List.nil_append, List.nil_append, contributions]
        constructor
        · simp [hvalue]
        · simp [hfault]
    | cons selection front ih =>
        rw [List.cons_append, List.cons_append, contributions, contributions]
        exact (Projection.Agrees.refl _).bind (ih.bind (.refl _))
  exact hcontributions.map _

end

/-! ### The set of open fragments -/

/-- **Open fragments count as a set.** The order in which they were opened makes no difference. -/
theorem contribution_congr_expanding (context : SelectionContext) {expanding others : List String}
    (h : ∀ name, name ∈ others ↔ name ∈ expanding) (parent : NamedType) (selection : Selection) :
    contribution context others parent selection =
      contribution context expanding parent selection := by
  refine (contribution.mutual_induct context
    (fun expanding parent selection => ∀ others : List String,
      (∀ name, name ∈ others ↔ name ∈ expanding) →
        contribution context others parent selection =
          contribution context expanding parent selection)
    (fun expanding parent selections => ∀ others : List String,
      (∀ name, name ∈ others ↔ name ∈ expanding) →
        contributions context others parent selections =
          contributions context expanding parent selections)
    ?internal ?field ?group ?unresolved ?inline ?unknown ?seen ?unconditioned ?spread ?nil
    ?cons).1 expanding parent selection others h
  case internal =>
    intro expanding parent head inner hinternal others _
    rw [contribution_internal _ _ _ _ hinternal, contribution_internal _ _ _ _ hinternal]
  case field =>
    intro expanding parent head inner hordinary ih others hsame
    have hcore : selectedCore context others inner = selectedCore context expanding inner := by
      funext name
      cases inner with
      | none => rfl
      | some selections => simp only [selectedCore, fun type => ih type others hsame]
    rw [contribution_field _ _ _ _ (by simpa using hordinary),
      contribution_field _ _ _ _ (by simpa using hordinary), hcore]
  case group =>
    intro expanding parent directives selections ih others hsame
    rw [contribution_group, contribution_group, ih others hsame]
  case unresolved =>
    intro expanding parent directives selections name hnone others _
    simp only [contribution_inline, hnone]
  case inline =>
    intro expanding parent directives selections name type hsome ih others hsame
    simp only [contribution_inline, hsome, ih others hsame]
  case unknown =>
    intro expanding parent name directives hnone others _
    simp only [contribution_spread, hnone]
  case seen =>
    intro expanding parent name directives fragment hsome hseen others hsame
    simp only [contribution_spread, hsome, hsame, hseen, if_true]
  case unconditioned =>
    intro expanding parent name directives fragment hsome hfresh hnone others hsame
    simp only [contribution_spread, hsome, hsame, hfresh, if_false, hnone]
  case spread =>
    intro expanding parent name directives fragment hsome hfresh type htype ih others hsame
    have hinner : ∀ other, other ∈ name :: others ↔ other ∈ name :: expanding := by
      intro other
      rw [List.mem_cons, List.mem_cons, hsame]
    simp only [contribution_spread, hsome, hsame, hfresh, if_false, htype, ih _ hinner]
  case nil =>
    intro expanding parent others _
    rw [contributions, contributions]
  case cons =>
    intro expanding parent selection rest ihFirst ihRest others hsame
    rw [contributions, contributions, ihFirst others hsame, ihRest others hsame]

/-- A fragment that is not open adds the entries of its selections, which are the same inside other
lists of the same open fragments. -/
theorem contribution_opened (context : SelectionContext) {expanding others : List String}
    (h : ∀ name, name ∈ others ↔ name ∈ expanding) {name : String} {fragment : Fragment}
    {type : NamedType} (found : context.fragments.get? name = some fragment)
    (fresh : name ∉ expanding) (resolved : context.schema.get? fragment.condition = some type)
    (parent : NamedType) (directives : List Directive) :
    contribution context others parent (.spread name directives) =
      optionalUnder parent type <$>
        context.answer (.selections (name :: expanding) type fragment.selections) := by
  rw [contribution_congr_expanding context h, contribution_spread, found]
  simp only [fresh, if_false, resolved]
  exact (optionalUnder_selectedEntries ..).symm

/-! ### Definitions -/

/-- The call that a definition starts with. A fragment is open from the start. -/
def rootCall (definition : Executable) (root : NamedType) : SelectionCall :=
  .selections definition.fragmentName?.toList root definition.selections

theorem responseShape_of_root (context : SelectionContext) {definition : Executable}
    {root : NamedType} (h : rootType? context.schema definition = some root) :
    responseShape context definition =
      (fun entries => answerShape (if entries.isEmpty then .any else .object entries none)) <$>
        context.answer (rootCall definition root) := by
  rw [responseShape, dataShape_of_root context h, Functor.map_map]
  rfl

/-- **The projection ends on cyclic fragments.** Calls cannot be nested without end: a call asks for
calls of the relation only, which is well-founded, and as many rounds of calls as its rank says give
the projection, whatever deeper calls would say; the data in the response of a definition is what
its first call gives. A chain of nested calls opens each fragment at most once, and none that is
open around it, so that a fragment never opens itself. A spread of an open fragment adds nothing to
the selections around it. Any other spread is opened where it stands, and branches inside the same
open fragments get the same entries from it. -/
theorem cyclic_fragments_end (context : SelectionContext) :
    (WellFounded fun inner outer => ∃ opened, Calls context outer opened inner) ∧
    (∀ (call : SelectionCall) (f g : (call : SelectionCall) → Projection call.Answer),
      (∀ opened inner, Calls context call opened inner → f inner = g inner) →
        context.step f call = context.step g call) ∧
    (∀ (call : SelectionCall) (others : (call : SelectionCall) → Projection call.Answer)
      (rounds : Nat), context.rank call < rounds →
        context.unrolled others rounds call = context.answer call) ∧
    (∀ (definition : Executable) (root : NamedType),
      rootType? context.schema definition = some root →
        responseShape context definition =
          (fun entries => answerShape (if entries.isEmpty then .any else .object entries none)) <$>
            context.answer (rootCall definition root) ∧
        ∀ opened inner, CallChain context (rootCall definition root) opened inner →
          ∀ name ∈ definition.fragmentName?, name ∉ opened.reduceOption) ∧
    (∀ (outer inner : SelectionCall) (opened : List (Option String)),
      CallChain context outer opened inner →
        opened.length + context.rank inner ≤ context.rank outer ∧
        opened.reduceOption.Nodup ∧ (∀ name ∈ opened.reduceOption, name ∉ outer.expanding) ∧
        ∀ name, name ∈ inner.expanding ↔ name ∈ opened.reduceOption ∨ name ∈ outer.expanding) ∧
    (∀ (expanding : List String) (name : String), name ∈ expanding →
      ∀ (parent : NamedType) (directives : List Directive) (front rest : List Selection),
        (selectedEntries context expanding parent (front ++ .spread name directives :: rest)).Agrees
          (selectedEntries context expanding parent (front ++ rest))) ∧
    ∀ (expanding : List String) (name : String) (fragment : Fragment) (type : NamedType),
      context.fragments.get? name = some fragment → name ∉ expanding →
      context.schema.get? fragment.condition = some type →
      ∀ others : List String, (∀ other, other ∈ others ↔ other ∈ expanding) →
        ∀ (parent : NamedType) (selections : List Selection) (directives : List Directive),
          .spread name directives ∈ selections →
            Calls context (.selections others parent selections) (some name)
              (.selections (name :: others) type fragment.selections) ∧
            contribution context others parent (.spread name directives) =
              optionalUnder parent type <$>
                context.answer (.selections (name :: expanding) type fragment.selections) := by
  refine ⟨wellFounded_calls context, fun call f g h => SelectionContext.step_congr h,
    fun call others rounds h => context.unrolled_eq_answer others h, ?root, ?chain, ?cut, ?opened⟩
  case root =>
    intro definition root hroot
    refine ⟨responseShape_of_root context hroot, fun opened inner hchain name hname hmem => ?_⟩
    have hopen : name ∈ (rootCall definition root).expanding := Option.mem_toList.mpr hname
    exact hchain.fresh.2 name hmem hopen
  case chain =>
    intro outer inner opened hchain
    obtain ⟨hnodup, hfresh⟩ := hchain.fresh
    exact ⟨hchain.length_add_rank_le, hnodup, hfresh, hchain.mem_expanding_iff⟩
  case cut =>
    intro expanding name hseen parent directives front rest
    exact selectedEntries_cut context parent directives hseen front rest
  case opened =>
    intro expanding name fragment type hfound hfresh hresolved others hsame parent selections
      directives hmem
    have hothers : name ∉ others := fun hother => hfresh ((hsame name).mp hother)
    exact ⟨.spread hmem hfound hothers hresolved,
      contribution_opened context hsame hfound hfresh hresolved parent directives⟩

namespace FriendsOfFriends

def leaf : Selection := .field ⟨none, "id", [], []⟩ none

/-- Spreads the friends twice, one time below a field. -/
def person : Fragment :=
  ⟨none, "Person", "User", [],
    [.field ⟨none, "friend", [], []⟩ (some [.spread "Friends" []]), .spread "Friends" []]⟩

/-- Spreads itself, and the person again. -/
def friends : Fragment :=
  ⟨none, "Friends", "User", [], [.spread "Friends" [], leaf,
    .field ⟨some "other", "friend", [], []⟩ (some [.spread "Person" [], leaf])]⟩

def user : NamedType :=
  ⟨"User", none, .object []
    [⟨"id", none, [], .nonNull (.named "ID")⟩, ⟨"friend", none, [], .named "User"⟩]⟩

def context : SelectionContext :=
  ⟨⟨[user, .scalar "ID"], none, none, none, []⟩, [person, friends], .standard⟩

def idEntry : Entry Shape :=
  ⟨"id", .scalar "string" none, false, none⟩

def friendEntries : List (Entry Shape) :=
  [idEntry, ⟨"other", .object [idEntry] none, true, none⟩]

/-- Answers where nobody asks. -/
def unasked : (call : SelectionCall) → Projection call.Answer
  | .selections .. | .field .. => pure []
  | .output .. => pure .any

/-- The friends below a friend of the person. -/
def friendsOfFriend : SelectionCall :=
  .selections ["Friends", "Person"] user friends.selections

/-- Down to the friends there is a field, its type, its selections and the spread in them. -/
theorem chain_to_friends :
    CallChain context (rootCall (.fragment person) user) [none, none, none, some "Friends"]
      friendsOfFriend := by
  have hordinary : isInternal "friend" = false := by simp [isInternal]
  have hfield : (selectedField user "friend").value =
      some ⟨"friend", none, [], .named "User"⟩ := rfl
  have hcore : Calls context (.output ["Person"] (.named "User") (some [.spread "Friends" []]) 0)
      none (.selections ["Person"] user [.spread "Friends" []]) := .core rfl rfl
  have hspread : Calls context (.selections ["Person"] user [.spread "Friends" []])
      (some "Friends") friendsOfFriend :=
    .spread List.mem_cons_self rfl (by decide) rfl
  exact .cons (.field List.mem_cons_self) (.cons (.output hordinary hfield)
    (.cons hcore (.cons hspread (.nil _))))

/-- The person gets the same entries of friends in two places, where the person and the friends
themselves are not opened again. -/
theorem friends_opened_twice :
    rootType? context.schema (.fragment person) = some user ∧
      context.rank (rootCall (.fragment person) user) < 101 ∧
      (responseShape context (.fragment person)).value = answerShape
        (.object (⟨"friend", .object friendEntries none, true, none⟩ :: friendEntries) none) ∧
      CallChain context (rootCall (.fragment person) user) [none, none, none, some "Friends"]
        friendsOfFriend ∧
      [none, none, none, some "Friends"].reduceOption.Nodup ∧
      "Person" ∉ [none, none, none, some "Friends"].reduceOption ∧
      "Person" ∈ friendsOfFriend.expanding ∧
      (selectedEntries context ["Friends", "Person"] user friends.selections).Agrees
        (selectedEntries context ["Friends", "Person"] user friends.selections.tail) ∧
      contribution context ["Person"] user (.spread "Friends" []) =
        optionalUnder user user <$> context.answer friendsOfFriend := by
  obtain ⟨-, -, hunrolled, hroot, hchain, hcut, hopened⟩ := cyclic_fragments_end context
  have hroottype : rootType? context.schema (.fragment person) = some user := rfl
  have hrank : context.rank (rootCall (.fragment person) user) < 101 := by decide
  have hresponse : (responseShape context (.fragment person)).value = answerShape
      (.object (⟨"friend", .object friendEntries none, true, none⟩ :: friendEntries) none) := by
    have hentries : (context.unrolled unasked 101 (rootCall (.fragment person) user)).value =
        ⟨"friend", .object friendEntries none, true, none⟩ :: friendEntries := by
      with_unfolding_all rfl
    rw [(hroot (.fragment person) user hroottype).1, Projection.value_map,
      ← hunrolled _ unasked 101 hrank, hentries]
    rfl
  obtain ⟨-, hnodup, hfresh, hexpanding⟩ := hchain _ _ _ chain_to_friends
  have hperson := (hroot (.fragment person) user hroottype).2 _ _ chain_to_friends "Person" rfl
  have hfound : context.fragments.get? "Friends" = some friends := rfl
  refine ⟨hroottype, hrank, hresponse, chain_to_friends, hnodup, hperson, ?_, ?_, ?_⟩
  · exact (hexpanding "Person").mpr (.inr List.mem_cons_self)
  · exact hcut ["Friends", "Person"] "Friends" List.mem_cons_self user [] [] friends.selections.tail
  · exact (hopened ["Person"] "Friends" friends user hfound (by decide) rfl ["Person"]
      (fun _ => Iff.rfl) user person.selections []
      (List.mem_cons_of_mem _ List.mem_cons_self)).2

end FriendsOfFriends

end OperationLibrary
