import OperationLibrary.Proofs.CycleWarnings

/-!
The order of a graph keeps to the order of the document. Whatever is put out inside the turn of a
definition is one of its own dependencies, also where the dependencies of a dependency are followed,
and a turn that is not inside another one begins when everything in front of it is out. So a
definition passes another one only if something that stands no later than this one depends on it.
-/

namespace OperationLibrary

open Syntax

/-! ### What the dependencies of a dependency are -/

/-- What selections lead to is gathered from them, except for the fragment that `own` stands for and
what that fragment leads to. -/
theorem Gathers.mem_or_own {table : FragmentTable} {own : Option String} {result : List Fragment}
    {selections : List Selection} {fragment : Fragment}
    (h : Gathers table own [] (spreadNames selections) result)
    (hreach : Reaches table selections fragment) :
    fragment ∈ result ∨ ∃ skipped, own = some skipped.name ∧
      table.get? skipped.name = some skipped ∧
        (skipped = fragment ∨ Reaches table skipped.selections fragment) := by
  obtain ⟨-, -, hclosed, -, hpending⟩ :=
    h.spec (by simp [FromTable]) (by simp) (by simp [ClosedUpTo])
  induction hreach with
  | @direct name fragment spread found =>
      have hname := FragmentTable.name_of_get? found
      by_cases hown : own = some name
      · exact .inr ⟨fragment, hname.symm ▸ hown, hname.symm ▸ found, .inl rfl⟩
      · exact .inl (hpending name spread hown fragment found)
  | @through inner name fragment reached spread found ih =>
      have hname := FragmentTable.name_of_get? found
      rcases ih with hinner | ⟨skipped, hown, hget, hleads⟩
      · rcases hclosed inner hinner name spread fragment found with hmem | hown
        · exact .inl hmem
        · have hown : own = some name := by simpa using hown
          exact .inr ⟨fragment, hname.symm ▸ hown, hname.symm ▸ found, .inl rfl⟩
      · refine .inr ⟨skipped, hown, hget, .inr ?_⟩
        rcases hleads with rfl | hleads
        · exact .direct spread found
        · exact .through hleads spread found

/-- The first fragment of a name stands no later than any other one. -/
theorem fragmentPlace_le {values : List (String × Json)} {definitions : List Executable}
    {place first : Nat} {fragment : Fragment}
    (hat : definitions[place]? = some (.fragment fragment))
    (hfirst : fragmentPlace (recordsOf values definitions) fragment.name = some first) :
    first ≤ place := by
  by_contra hlater
  obtain ⟨_, -, hbefore⟩ := List.findIdx?_eq_some_iff_getElem.mp hfirst
  have hplace := (List.getElem?_eq_some_iff.mp hat).2
  apply hbefore place (Nat.lt_of_not_le hlater)
  simp [hplace, OperationRecord.ofDefinition, OperationRecord.isFragment, Executable.kind,
    Executable.nameOrKind, Executable.name?]

/-- Dependencies of dependencies are dependencies, the definition itself apart, and apart from what
leads through an earlier fragment of the same name. -/
def NearlyTransitive (records : List OperationRecord) : Prop :=
  ∀ root top place, top ∈ dependencyPlaces records root → place ∈ dependencyPlaces records top →
    place ∈ dependencyPlaces records root ∨ place = root ∨
      ∃ earlier < root, place = earlier ∨ place ∈ dependencyPlaces records earlier

theorem nearlyTransitive_recordsOf (values : List (String × Json))
    (definitions : List Executable) : NearlyTransitive (recordsOf values definitions) := by
  intro root top place htop hplace
  obtain ⟨definition, hat⟩ : ∃ definition, definitions[root]? = some definition := by
    cases hat : definitions[root]? with
    | none => simp [dependencyPlaces, hat] at htop
    | some definition => exact ⟨definition, rfl⟩
  obtain ⟨inner, hinner, -, hfirst⟩ := leadsToFirst_of_mem_dependencyPlaces hat htop
  obtain ⟨fragment, hfragment, hfound, hnext⟩ := leadsToFirst_of_mem_dependencyPlaces hinner hplace
  have hrecord : (recordsOf values definitions)[root]? =
      some (.ofDefinition (firstFragments definitions) values definition) := by
    rw [List.getElem?_map, hat]
    rfl
  have hgathers := gathers_reachByLevel (firstFragments definitions) definition.fragmentName? []
    (spreadNames definition.selections)
  -- only what leads through a fragment of the own name may be left out
  rcases hgathers.mem_or_own (hfirst.trans hnext) with hmem | ⟨skipped, hown, hget, hleads⟩
  · exact .inl ((mem_dependencyPlaces hrecord).mpr ⟨fragment, hmem, hfound⟩)
  obtain ⟨earlier, hearlier, hskipped⟩ := fragmentPlace_of_get? _ values hget
  have hle : earlier ≤ root := by
    cases definition with
    | operation o => cases hown
    | fragment own =>
        obtain hname : own.name = skipped.name := Option.some.inj hown
        exact fragmentPlace_le hat (hname ▸ hearlier)
  have hplaces : place = earlier ∨ place ∈ dependencyPlaces (recordsOf values definitions)
      earlier := by
    by_cases hsame : skipped = fragment
    · subst hsame
      exact .inl (Option.some.inj (hfound.symm.trans hearlier))
    · exact .inr (mem_dependencyPlaces_of_reaches values hskipped hget
        (hleads.resolve_left hsame) hsame hfound)
  rcases Nat.lt_or_eq_of_le hle with hlt | rfl
  · exact .inr (.inr ⟨earlier, hlt, hplaces⟩)
  · exact hplaces.elim (fun hsame => .inr (.inl hsame)) .inl

/-! ### The invariant of the order -/

/-- One place may be out before another one: it stands in front of it, or something that stands no
later than the other one depends on it. -/
def MayPass (records : List OperationRecord) (place other : Nat) : Prop :=
  place < other ∨ ∃ dependent ≤ other, place ∈ dependencyPlaces records dependent

namespace OrderWalk

variable {records : List OperationRecord} {walk later : OrderWalk}

/-- What holds of the order at any time of the walk. -/
structure InOrder (records : List OperationRecord) (walk : OrderWalk) : Prop where
  closed : ∀ place ∈ walk.emitted, ∀ target ∈ dependencyPlaces records place, walk.Begins target
  /-- When the outermost turn began everything in front of it was out, and the turns inside it are
  those of its dependencies. -/
  outermost : ∀ root, walk.active.getLast? = some root →
    (∀ before < root, before ∈ walk.emitted) ∧
      ∀ place ∈ walk.active, place = root ∨ place ∈ dependencyPlaces records root
  ahead : ∀ place ∈ walk.emitted, ∀ waiting, waiting ∉ walk.emitted →
    MayPass records place waiting
  ordered : walk.emitted.Pairwise (MayPass records)

theorem inOrder_start (records : List OperationRecord) : OrderWalk.start.InOrder records :=
  ⟨by simp [start], by simp [start], by simp [start], by simp [start]⟩

/-- Opening a turn keeps the order if the outermost turn keeps its properties. -/
theorem InOrder.opening (h : walk.InOrder records) {place : Nat}
    (houtermost : ∀ root, (place :: walk.active).getLast? = some root →
      (∀ before < root, before ∈ walk.emitted) ∧
        ∀ inner ∈ place :: walk.active, inner = root ∨ inner ∈ dependencyPlaces records root) :
    (walk.opening records place).InOrder records where
  closed := by
    rw [emitted_opening]
    intro other hother target htarget
    refine (h.closed other hother target htarget).imp (fun hout => ?_) fun hopen => ?_
    · rwa [emitted_opening]
    · rw [active_opening]
      exact List.mem_cons_of_mem _ hopen
  outermost := by
    rw [active_opening, emitted_opening]
    exact houtermost
  ahead := by
    rw [emitted_opening]
    exact h.ahead
  ordered := by
    rw [emitted_opening]
    exact h.ordered

/-- One step keeps the order. -/
theorem Step.inOrder (hdependencies : NearlyTransitive records)
    (hstep : Step records walk later) (h : walk.InOrder records) : later.InOrder records := by
  cases hstep with
  | @root place idle inside fresh earlier =>
      apply h.opening
      intro root hroot
      obtain rfl : place = root := by simpa [idle] using hroot
      exact ⟨earlier, fun inner hinner => .inl (by simpa [idle] using hinner)⟩
  | @enter top place outer turn edge waiting fresh =>
      apply h.opening
      intro root hroot
      have hlast : walk.active.getLast? = some root := by
        rwa [turn, List.getLast?_cons_cons, ← turn] at hroot
      obtain ⟨hbefore, hinside⟩ := h.outermost root hlast
      refine ⟨hbefore, fun inner hinner => ?_⟩
      rcases List.mem_cons.mp hinner with rfl | hinner
      swap
      · exact hinside inner hinner
      rcases hinside top (by simp [turn]) with rfl | htop
      · exact .inr edge
      -- an earlier fragment of the name of the root is out, so what it leads to had its turn
      rcases hdependencies root top inner htop edge with hedge | hroot | ⟨own, hown, hplace⟩
      · exact .inr hedge
      · exact .inl hroot
      · have hout := hbefore own hown
        rcases hplace with rfl | hplace
        · exact absurd hout fresh
        · exact ((h.closed own hout inner hplace).elim fresh waiting).elim
  | report => exact ⟨h.closed, h.outermost, h.ahead, h.ordered⟩
  | @finish top outer turn fresh handled begun =>
      obtain ⟨root, hlast⟩ : ∃ root, walk.active.getLast? = some root :=
        ⟨_, List.getLast?_eq_some_getLast (by simp [turn])⟩
      obtain ⟨hbefore, hinside⟩ := h.outermost root hlast
      have hstill : ∀ target, walk.Begins target →
          target ∈ walk.emitted ++ [top] ∨ target ∈ outer := by
        rintro target (hout | hopen)
        · exact .inl (List.mem_append_left _ hout)
        · rcases List.mem_cons.mp (turn ▸ hopen) with rfl | hopen
          · exact .inl (by simp)
          · exact .inr hopen
      refine ⟨fun place hplace target htarget => hstill target ?_, fun other hother => ?_,
        fun place hplace waiting hwaiting => ?_, ?_⟩
      · rcases List.mem_append.mp hplace with hold | hnew
        · exact h.closed place hold target htarget
        · exact begun target (List.mem_singleton.mp hnew ▸ htarget)
      · have hsame : walk.active.getLast? = some other := by
          cases outer with
          | nil => exact nomatch hother
          | cons next outer => rwa [turn, List.getLast?_cons_cons]
        obtain ⟨hout, hopen⟩ := h.outermost other hsame
        exact ⟨fun before hlt => List.mem_append_left _ (hout before hlt),
          fun place hplace => hopen place (turn ▸ List.mem_cons_of_mem _ hplace)⟩
      · rw [List.mem_append, not_or] at hwaiting
        rcases List.mem_append.mp hplace with hold | hnew
        · exact h.ahead place hold waiting hwaiting.1
        obtain rfl := List.mem_singleton.mp hnew
        have hroot : root ≤ waiting := by
          by_contra hlt
          exact hwaiting.1 (hbefore waiting (Nat.lt_of_not_le hlt))
        rcases hinside place (by simp [turn]) with rfl | hedge
        · have hne : place ≠ waiting := fun hsame => hwaiting.2 (by simp [hsame])
          exact .inl (Nat.lt_of_le_of_ne hroot hne)
        · exact .inr ⟨root, hroot, hedge⟩
      · refine List.pairwise_append.mpr ⟨h.ordered, by simp, fun place hplace other hother => ?_⟩
        obtain rfl := List.mem_singleton.mp hother
        exact h.ahead place hplace other fresh

end OrderWalk

theorem orderWalk_inOrder {records : List OperationRecord}
    (hdependencies : NearlyTransitive records) : (orderWalk records).InOrder records :=
  orderWalk_induction (OrderWalk.inOrder_start records) fun _ _ hstep h =>
    hstep.inOrder hdependencies h

/-- What is out before something else may pass it. -/
theorem mayPass_of_idxOf_lt {records : List OperationRecord}
    (hdependencies : NearlyTransitive records) {place other : Nat} (hother : other < records.length)
    (hlt : (orderWalk records).emitted.idxOf place < (orderWalk records).emitted.idxOf other) :
    MayPass records place other := by
  have hmem : other ∈ (orderWalk records).emitted := (orderWalk_sound records).2 other hother
  have hlast := List.idxOf_lt_length_iff.mpr hmem
  have hpair := List.pairwise_iff_getElem.mp (orderWalk_inOrder hdependencies).ordered _ _
    (hlt.trans hlast) hlast hlt
  rwa [List.getElem_idxOf, List.getElem_idxOf] at hpair

/-! ### Documents -/

/-- The definition at a place is a fragment, and no fragment in front of it has its name. -/
def FirstFragmentAt (definitions : List Executable) (place : Nat) (fragment : Fragment) : Prop :=
  definitions[place]? = some (.fragment fragment) ∧
    ∀ before < place, ∀ other, definitions[before]? = some (.fragment other) →
      other.name ≠ fragment.name

/-- Dependencies are first fragments of their names. -/
theorem exists_dependency_of_mem {values : List (String × Json)} {definitions : List Executable}
    {dependent place : Nat}
    (h : place ∈ dependencyPlaces (recordsOf values definitions) dependent) :
    ∃ fragment, FirstFragmentAt definitions place fragment ∧
      ∃ record, (recordsOf values definitions)[dependent]? = some record ∧
        fragment ∈ record.dependencies := by
  cases hrecord : (recordsOf values definitions)[dependent]? with
  | none => simp [dependencyPlaces, hrecord] at h
  | some record =>
      obtain ⟨definition, -, rfl⟩ := List.mem_map.mp (List.mem_of_getElem? hrecord)
      obtain ⟨fragment, hfragment, hplace⟩ := (mem_dependencyPlaces hrecord).mp h
      obtain ⟨place', hplace', hat⟩ := fragmentPlace_of_get? (firstFragments definitions) values
        (reaches_of_mem_fragmentDependencies hfragment).1.get?_eq
      obtain rfl : place' = place := Option.some.inj (hplace'.symm.trans hplace)
      refine ⟨fragment, ⟨hat, fun before hlt other hother hname => ?_⟩, _, rfl, hfragment⟩
      exact Nat.not_le_of_lt hlt (fragmentPlace_le hother (hname ▸ hplace))

/-- The definitions of a graph keep to the order of the document: operations, and fragments that are
not the first ones of their names, stay behind everything in front of them, and whatever passes a
definition is a dependency of this one or of one in front of it. -/
def OperationGraph.KeepsOrder (graph : OperationGraph) (values : List (String × Json))
    (definitions : List Executable) : Prop :=
  graph.source = recordsOf values definitions ∧
    ∃ places : List Nat, places.Perm (List.range definitions.length) ∧
      graph.ordered = places.filterMap (graph.source[·]?) ∧
      (∀ place < definitions.length, (∀ fragment, ¬ FirstFragmentAt definitions place fragment) →
        ∀ before < place, places.idxOf before < places.idxOf place) ∧
      (∀ place < definitions.length, ∀ before < place,
        places.idxOf place < places.idxOf before →
          ∃ fragment, FirstFragmentAt definitions place fragment ∧
            ∃ dependent ≤ before, ∃ record, graph.source[dependent]? = some record ∧
              fragment ∈ record.dependencies) ∧
      ((∀ definition ∈ definitions, ∀ name, ¬ Spreads name definition.selections) →
        graph.ordered = graph.source)

theorem filterMap_range_getElem? {α : Type} (xs : List α) :
    (List.range xs.length).filterMap (xs[·]?) = xs := by
  induction xs with
  | nil => rfl
  | cons x rest ih =>
      have hfirst : (x :: rest)[0]? = some x := rfl
      rw [List.length_cons, List.range_succ_eq_map, List.filterMap_cons_some hfirst,
        List.filterMap_map]
      exact congrArg (x :: ·) ih

/-- Where nothing is spread nothing has dependencies. -/
theorem dependencyPlaces_of_no_spreads (values : List (String × Json))
    {definitions : List Executable}
    (hnone : ∀ definition ∈ definitions, ∀ name, ¬ Spreads name definition.selections)
    (place : Nat) : dependencyPlaces (recordsOf values definitions) place = [] := by
  cases hrecord : (recordsOf values definitions)[place]? with
  | none => simp [dependencyPlaces, hrecord]
  | some record =>
      obtain ⟨definition, hdefinition, rfl⟩ := List.mem_map.mp (List.mem_of_getElem? hrecord)
      have hspreads : spreadNames definition.selections = [] := by
        refine List.eq_nil_iff_forall_not_mem.mpr fun name hname => ?_
        exact hnone definition hdefinition name (mem_spreadNames_iff.mp hname)
      simp [dependencyPlaces, hrecord, OperationRecord.ofDefinition, fragmentDependencies,
        hspreads, reachByLevel]

/-- Either the graph has the property, or a name repeats where that is refused. -/
def HoldsOrRefused (strict : Bool) (definitions : List Executable) (P : OperationGraph → Prop) :
    Except DuplicateName OperationGraph → Prop
  | .error again => strict = true ∧ again.name ∈ repeatedNames [] (givenNames definitions)
  | .ok graph => P graph

theorem holdsOrRefused_resolveGraph {topic : Topic} {strict : Bool} {values : List (String × Json)}
    {definitions : List Executable} {P : OperationGraph → Prop}
    (h : P ⟨definitions, recordsOf values definitions,
      (orderRecords (recordsOf values definitions)).value⟩) :
    HoldsOrRefused strict definitions P (resolveGraph topic strict values definitions).value := by
  cases strict with
  | false => simpa [resolveGraph, HoldsOrRefused] using h
  | true =>
      cases hagain : repeatedNames [] (givenNames definitions) with
      | nil => simpa [resolveGraph, HoldsOrRefused, hagain] using h
      | cons name rest => simp [resolveGraph, HoldsOrRefused, hagain]

/-- The records of any document are put into an order that keeps to the one of the document. -/
theorem orderRecords_keepsOrder (values : List (String × Json)) (definitions : List Executable) :
    OperationGraph.KeepsOrder
      ⟨definitions, recordsOf values definitions,
        (orderRecords (recordsOf values definitions)).value⟩
      values definitions := by
  set records := recordsOf values definitions with hrecords
  have hlength : records.length = definitions.length := by simp [hrecords]
  have hperm := orderWalk_emitted_perm records
  -- one only passes another as a dependency of what stands no later
  have hpass : ∀ place < definitions.length, ∀ before < place,
      (orderWalk records).emitted.idxOf place < (orderWalk records).emitted.idxOf before →
        ∃ dependent ≤ before, place ∈ dependencyPlaces records dependent := by
    intro place hplace before hbefore hlt
    have hmay := mayPass_of_idxOf_lt (nearlyTransitive_recordsOf values definitions)
      (hlength ▸ hbefore.trans hplace) hlt
    exact hmay.resolve_left (Nat.not_lt_of_lt hbefore)
  refine ⟨rfl, (orderWalk records).emitted, hlength ▸ hperm, rfl, ?_, ?_, ?_⟩
  · intro place hplace hnone before hbefore
    by_contra hle
    have hmem : before ∈ (orderWalk records).emitted :=
      (orderWalk_sound records).2 before (hlength ▸ hbefore.trans hplace)
    have hne : (orderWalk records).emitted.idxOf place ≠ (orderWalk records).emitted.idxOf before :=
      fun hsame => hbefore.ne ((List.idxOf_inj hmem).mp hsame.symm)
    obtain ⟨dependent, -, hedge⟩ := hpass place hplace before hbefore
      (Nat.lt_of_le_of_ne (Nat.le_of_not_lt hle) hne)
    obtain ⟨fragment, hfirst, -⟩ := exists_dependency_of_mem hedge
    exact hnone fragment hfirst
  · intro place hplace before hbefore hlt
    obtain ⟨dependent, hle, hedge⟩ := hpass place hplace before hbefore hlt
    obtain ⟨fragment, hfirst, hlisted⟩ := exists_dependency_of_mem hedge
    exact ⟨fragment, hfirst, dependent, hle, hlisted⟩
  · intro hnone
    have hsorted : (orderWalk records).emitted.Pairwise (· < ·) := by
      have hinOrder := orderWalk_inOrder (nearlyTransitive_recordsOf values definitions)
      refine hinOrder.ordered.imp fun {place other} hmay => ?_
      refine hmay.resolve_right ?_
      rintro ⟨dependent, -, hedge⟩
      rw [dependencyPlaces_of_no_spreads values hnone] at hedge
      exact nomatch hedge
    have hsame : (orderWalk records).emitted = List.range records.length :=
      hperm.eq_of_pairwise (fun _ _ _ _ hlt hgt => absurd hgt (lt_asymm hlt)) hsorted
        List.pairwise_lt_range
    change (orderWalk records).emitted.filterMap (records[·]?) = records
    rw [hsame, filterMap_range_getElem?]

/-- **The order is stable.** The graph of any definitions, and the graph of any text with any memo,
keeps to the order of the document: nothing passes a definition unless this one, or one in front of
it, depends on it, and without spreads nothing moves. Only a strict graph is refused, and only for a
name that repeats. -/
theorem graph_order_stable {κ : Type} [DecidableEq κ] (topic : Topic) (strict : Bool)
    (values : List (String × Json)) :
    (∀ definitions : List Executable, HoldsOrRefused strict definitions
      (OperationGraph.KeepsOrder · values definitions)
        (resolveGraph topic strict values definitions).value) ∧
    ∀ (memo : DocumentMemo κ) (text : String),
      let definitions := (memo.definitions topic text).value.1
      HoldsOrRefused strict definitions (OperationGraph.KeepsOrder · values definitions)
        (buildGraph topic strict memo values text).value.1 := by
  have hresolve : ∀ definitions : List Executable, HoldsOrRefused strict definitions
      (OperationGraph.KeepsOrder · values definitions)
        (resolveGraph topic strict values definitions).value := fun definitions =>
    holdsOrRefused_resolveGraph (orderRecords_keepsOrder values definitions)
  exact ⟨hresolve, fun memo text => hresolve (memo.definitions topic text).value.1⟩

end OperationLibrary
