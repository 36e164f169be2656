import Mathlib.Data.List.Pairwise
import OperationLibrary.Proofs.ComputedEquality
import OperationLibrary.Proofs.FragmentClosure
import OperationLibrary.Proofs.OrderSteps

/-!
What the warnings about cycles say. Among fragments with different names every warning names two
fragments that lead to each other, and of any two such fragments the walk names one with the other:
the one that is out first was out while the other one, which it depends on, was not. So each cycle
is reported by a warning of its own, and without cycles there is none.
-/

namespace OperationLibrary

open Syntax

/-! ### The invariant of the warnings -/

namespace OrderWalk

variable {records : List OperationRecord} {walk later : OrderWalk} {place target top : Nat}
  {outer : List Nat}

/-- What the notices of the walk tell at any time. -/
structure Tells (records : List OperationRecord) (walk : OrderWalk) : Prop where
  /-- Every open turn was entered from the ones around it. -/
  nested : walk.active.Pairwise fun inner outer => LeadsTo records outer inner
  genuine : ∀ notice ∈ walk.notices, ∃ place target,
    notice = cycleWarning .order (displayNameAt records place) (displayNameAt records target) ∧
      (place = target ∧ (records[place]?).any spreadsItself ∨
        target ∈ dependencyPlaces records place ∧ LeadsTo records target place)
  selves : ∀ place, place ∈ walk.active ∨ place ∈ walk.emitted →
    (records[place]?).any spreadsItself → walk.Warns records place place
  handled : ∀ place ∈ walk.emitted, ∀ target ∈ dependencyPlaces records place,
    walk.Handles records place target
  ordered : walk.emitted.Pairwise fun earlier later =>
    later ∈ dependencyPlaces records earlier → walk.Warns records earlier later

theorem tells_start (records : List OperationRecord) : OrderWalk.start.Tells records :=
  ⟨by simp [start], by simp [start], by simp [start], by simp [start], by simp [start]⟩

theorem mem_notices_opening {notice : Notice} :
    notice ∈ (walk.opening records place).notices ↔
      notice ∈ walk.notices ∨ (records[place]?).any spreadsItself ∧
        notice = cycleWarning .order (displayNameAt records place)
          (displayNameAt records place) := by
  unfold opening
  by_cases hself : (records[place]?).any spreadsItself
  · rw [if_pos hself]
    simp [hself, report, cycleWarning]
  · rw [if_neg hself]
    simp [hself]

/-- The open turns lead to the innermost one. -/
theorem Tells.leadsTo_top (h : walk.Tells records) (turn : walk.active = top :: outer)
    {active : Nat} (hactive : active ∈ walk.active) :
    active = top ∨ LeadsTo records active top := by
  have hnested := h.nested
  rw [turn] at hactive hnested
  exact (List.mem_cons.mp hactive).imp_right ((List.pairwise_cons.mp hnested).1 active)

theorem Tells.opening (h : walk.Tells records)
    (hpath : ∀ active ∈ walk.active, LeadsTo records active place) :
    (walk.opening records place).Tells records where
  nested := by
    rw [active_opening]
    exact List.pairwise_cons.mpr ⟨hpath, h.nested⟩
  genuine notice hnotice := by
    rcases mem_notices_opening.mp hnotice with hold | ⟨hself, rfl⟩
    · exact h.genuine notice hold
    · exact ⟨place, place, rfl, .inl ⟨rfl, hself⟩⟩
  selves other hother hself := by
    rw [active_opening, emitted_opening, List.mem_cons, or_assoc] at hother
    rcases hother with rfl | hother
    · exact mem_notices_opening.mpr (.inr ⟨hself, rfl⟩)
    · exact notices_subset_opening (h.selves other hother hself)
  handled other hother target htarget := by
    rw [emitted_opening] at hother
    exact (h.handled other hother target htarget).imp (fun hout => emitted_opening.symm ▸ hout)
      fun hwarns => notices_subset_opening hwarns
  ordered := by
    rw [emitted_opening]
    exact h.ordered.imp fun hordered hedge => notices_subset_opening (hordered hedge)

/-- One step keeps what the notices tell. -/
theorem Step.tells (hstep : Step records walk later) (h : walk.Tells records) :
    later.Tells records := by
  cases hstep with
  | root idle inside fresh earlier => exact h.opening (by simp [idle])
  | enter turn edge waiting fresh =>
      exact h.opening fun active hactive => leadsTo_of_edge (h.leadsTo_top turn hactive) edge
  | @report top target outer turn edge opened =>
      have hgrows : walk.notices ⊆
          (walk.report (displayNameAt records top) (displayNameAt records target)).notices :=
        List.subset_append_left _ _
      refine ⟨h.nested, fun notice hnotice => ?_, fun place hplace hself => ?_,
        fun place hplace other hother => ?_, ?_⟩
      · rcases List.mem_append.mp hnotice with hold | hnew
        · exact h.genuine notice hold
        · refine ⟨top, target, List.mem_singleton.mp hnew, .inr ⟨edge, ?_⟩⟩
          rcases h.leadsTo_top turn opened with rfl | hlead
          · exact .single edge
          · exact hlead
      · exact hgrows (h.selves place hplace hself)
      · exact (h.handled place hplace other hother).imp_right fun hwarns => hgrows hwarns
      · exact h.ordered.imp fun hordered hedge => hgrows (hordered hedge)
  | @finish top outer turn fresh handled begun =>
      have hnested := h.nested
      rw [turn, List.pairwise_cons] at hnested
      refine ⟨hnested.2, h.genuine, fun place hplace hself => ?_, ?_, ?_⟩
      · refine h.selves place ?_ hself
        rcases hplace with hopen | hout
        · exact .inl (turn ▸ List.mem_cons_of_mem _ hopen)
        · rcases List.mem_append.mp hout with hout | hlast
          · exact .inr hout
          · exact .inl (turn ▸ List.mem_singleton.mp hlast ▸ List.mem_cons_self)
      · intro place hplace target htarget
        refine Or.imp_left (List.mem_append_left [top]) ?_
        rcases List.mem_append.mp hplace with hold | hlast
        · exact h.handled place hold target htarget
        · obtain rfl := List.mem_singleton.mp hlast
          exact handled target htarget
      · -- whatever depends on `top` and is out already was out before `top`, so it was reported
        refine List.pairwise_append.mpr ⟨h.ordered, by simp, ?_⟩
        intro place hplace last hlast hedge
        obtain rfl := List.mem_singleton.mp hlast
        exact (h.handled place hplace last hedge).resolve_left fresh

end OrderWalk

theorem orderWalk_tells (records : List OperationRecord) : (orderWalk records).Tells records :=
  orderWalk_induction (OrderWalk.tells_start records) fun _ _ hstep h => hstep.tells h

theorem lt_of_mem_dependencyPlaces {records : List OperationRecord} {place target : Nat}
    (h : target ∈ dependencyPlaces records place) : target < records.length := by
  cases hrecord : records[place]? with
  | none => simp [dependencyPlaces, hrecord] at h
  | some record =>
      obtain ⟨dependency, -, hplace⟩ := (mem_dependencyPlaces hrecord).mp h
      exact fragmentPlace_lt hplace

/-- Of two definitions that depend on each other one is reported with the other. -/
theorem orderWalk_warns {records : List OperationRecord} {place target : Nat} (hne : place ≠ target)
    (htarget : target ∈ dependencyPlaces records place)
    (hback : place ∈ dependencyPlaces records target) :
    (orderWalk records).Warns records place target ∨
      (orderWalk records).Warns records target place := by
  let Named : Nat → Nat → Prop := fun place target =>
    target ∈ dependencyPlaces records place → place ∈ dependencyPlaces records target →
      (orderWalk records).Warns records place target ∨
        (orderWalk records).Warns records target place
  have : Std.Symm Named := ⟨fun _ _ h htarget hback => (h hback htarget).symm⟩
  have hpairs : (orderWalk records).emitted.Pairwise Named :=
    (orderWalk_tells records).ordered.imp fun hordered htarget _ => .inl (hordered htarget)
  have hout := (orderWalk_sound records).2
  exact hpairs.forall (hout place (lt_of_mem_dependencyPlaces hback))
    (hout target (lt_of_mem_dependencyPlaces htarget)) hne htarget hback

/-! ### Fragments at their places -/

/-- No two fragments have the same name. -/
def DistinctFragments (definitions : List Executable) : Prop :=
  ((firstFragments definitions).map Fragment.name).Nodup

instance (definitions : List Executable) : Decidable (DistinctFragments definitions) :=
  inferInstanceAs (Decidable (List.Nodup _))

section

variable (values : List (String × Json)) {definitions : List Executable} {fragment next : Fragment}
  {place target : Nat}

theorem displayNameAt_of_fragment (hat : definitions[place]? = some (.fragment fragment)) :
    displayNameAt (recordsOf values definitions) place = fragment.name := by
  simp [displayNameAt, hat, OperationRecord.ofDefinition, Executable.displayName, Executable.name?]

theorem spreadsItself_at (hat : definitions[place]? = some (.fragment fragment)) :
    ((recordsOf values definitions)[place]?).any spreadsItself = true ↔
      fragment.name ∈ spreadNames fragment.selections := by
  simp [hat, OperationRecord.ofDefinition, spreadsItself, OperationRecord.isFragment,
    Executable.kind, Executable.nameOrKind, Executable.name?, Executable.selections]

theorem exists_fragment_of_spreadsItself
    (hself : ((recordsOf values definitions)[place]?).any spreadsItself = true) :
    ∃ fragment, definitions[place]? = some (.fragment fragment) := by
  cases hat : definitions[place]? with
  | none => simp [hat] at hself
  | some definition =>
      cases definition with
      | fragment f => exact ⟨f, rfl⟩
      | operation o =>
          simp [hat, OperationRecord.ofDefinition, spreadsItself, OperationRecord.isFragment,
            Executable.kind] at hself

/-- A fragment that is reached from another one is among its dependencies. -/
theorem mem_dependencyPlaces_of_reaches
    (hat : definitions[place]? = some (.fragment fragment))
    (hown : (firstFragments definitions).get? fragment.name = some fragment)
    (hreach : Reaches (firstFragments definitions) fragment.selections next)
    (hne : fragment ≠ next)
    (htarget : fragmentPlace (recordsOf values definitions) next.name = some target) :
    target ∈ dependencyPlaces (recordsOf values definitions) place := by
  have hrecord : (recordsOf values definitions)[place]? =
      some (.ofDefinition (firstFragments definitions) values (.fragment fragment)) := by
    rw [List.getElem?_map, hat]
    rfl
  refine (mem_dependencyPlaces hrecord).mpr ⟨next, ?_, htarget⟩
  exact (mem_fragmentDependencies_iff
    (show (firstFragments definitions).HasOwn (.fragment fragment) from hown)).mpr
      ⟨hreach, fun hsame => hne (Executable.fragment.inj hsame)⟩

end

/-! ### What is reported of a document -/

/-- Spreads lead from each of the fragments to the other one, so that there is a cycle through both;
it may pass a fragment more than once. -/
def OnCommonCycle (table : FragmentTable) (fragment other : Fragment) : Prop :=
  Reaches table fragment.selections other ∧ Reaches table other.selections fragment

/-- Spreads lead from a fragment back to itself without leaving `members`. -/
def ContainsCycle (table : FragmentTable) (members : Set Fragment) : Prop :=
  ∃ fragment, Relation.TransGen (fun inner next =>
    inner ∈ members ∧ next ∈ members ∧ SpreadsTo table inner.selections next) fragment fragment

/-- The notice says that there is a cycle. -/
def Notice.IsCycleWarning (notice : Notice) : Prop :=
  "The operation graph has a cycle".toList <+: notice.text.toList

/-- The notices report the cycles of the fragments, and nothing else as a cycle. -/
structure ReportsCycles (topic : Topic) (table : FragmentTable) (notices : List Notice) : Prop where
  silent_iff : (∀ notice ∈ notices, ¬ notice.IsCycleWarning) ↔ table.Acyclic
  genuine : ∀ notice ∈ notices, notice.IsCycleWarning → ∃ fragment other,
    OnCommonCycle table fragment other ∧ notice = cycleWarning topic fragment.name other.name
  /-- Of two fragments on a common cycle one is named with the other. -/
  paired : ∀ fragment other, OnCommonCycle table fragment other → fragment ≠ other →
    cycleWarning topic fragment.name other.name ∈ notices ∨
      cycleWarning topic other.name fragment.name ∈ notices
  /-- Fragments among which there is a cycle are named by a warning of their own. -/
  covered : ∀ members : Set Fragment, ContainsCycle table members →
    ∃ fragment ∈ members, ∃ other ∈ members,
      cycleWarning topic fragment.name other.name ∈ notices

theorem isCycleWarning_cycleWarning (topic : Topic) (dependent target : String) :
    (cycleWarning topic dependent target).IsCycleWarning := by
  simp only [Notice.IsCycleWarning, cycleWarning, String.toList_append, List.append_assoc]
  exact (show "The operation graph has a cycle".toList <+:
    "The operation graph has a cycle: ".toList by decide).trans (List.prefix_append _ _)

section

variable (values : List (String × Json)) {definitions : List Executable}

/-- The walk names fragments that lead to each other. -/
theorem genuine_of_mem_notices (hdistinct : DistinctFragments definitions) {notice : Notice}
    (h : notice ∈ (orderWalk (recordsOf values definitions)).notices) :
    ∃ fragment other, OnCommonCycle (firstFragments definitions) fragment other ∧
      notice = cycleWarning .order fragment.name other.name := by
  obtain ⟨place, target, rfl, hcause⟩ := (orderWalk_tells _).genuine notice h
  rcases hcause with ⟨rfl, hself⟩ | ⟨hedge, hlead⟩
  · obtain ⟨fragment, hat⟩ := exists_fragment_of_spreadsItself values hself
    have hmem : fragment ∈ firstFragments definitions :=
      List.mem_filterMap.mpr ⟨_, List.mem_of_getElem? hat, rfl⟩
    have hreach : Reaches (firstFragments definitions) fragment.selections fragment :=
      .direct ((spreadsItself_at values hat).mp hself) (FragmentTable.get?_of_mem hdistinct hmem)
    exact ⟨fragment, fragment, ⟨hreach, hreach⟩, by rw [displayNameAt_of_fragment values hat]⟩
  · obtain ⟨definition, hat⟩ : ∃ definition, definitions[place]? = some definition := by
      cases hat : definitions[place]? with
      | none => simp [dependencyPlaces, hat] at hedge
      | some definition => exact ⟨definition, rfl⟩
    obtain ⟨other, hother, -, hreach⟩ := leadsToFirst_of_mem_dependencyPlaces hat hedge
    obtain ⟨fragment, hfragment, -, hback⟩ := hlead.leadsToFirst hother
    obtain rfl : definition = .fragment fragment := Option.some.inj (hat.symm.trans hfragment)
    exact ⟨fragment, other, ⟨hreach, hback⟩, by
      rw [displayNameAt_of_fragment values hat, displayNameAt_of_fragment values hother]⟩

theorem named_of_onCommonCycle {fragment other : Fragment}
    (h : OnCommonCycle (firstFragments definitions) fragment other) (hne : fragment ≠ other) :
    cycleWarning .order fragment.name other.name ∈
        (orderWalk (recordsOf values definitions)).notices ∨
      cycleWarning .order other.name fragment.name ∈
        (orderWalk (recordsOf values definitions)).notices := by
  obtain ⟨place, hplace, hat⟩ := fragmentPlace_of_get? (firstFragments definitions) values
    h.2.get?_eq
  obtain ⟨target, htarget, hother⟩ := fragmentPlace_of_get? (firstFragments definitions) values
    h.1.get?_eq
  have hplaces : place ≠ target := by
    rintro rfl
    exact hne (Executable.fragment.inj (Option.some.inj (hat.symm.trans hother)))
  have hwarns := orderWalk_warns hplaces
    (mem_dependencyPlaces_of_reaches values hat h.2.get?_eq h.1 hne htarget)
    (mem_dependencyPlaces_of_reaches values hother h.1.get?_eq h.2 hne.symm hplace)
  simpa only [OrderWalk.Warns, displayNameAt_of_fragment values hat,
    displayNameAt_of_fragment values hother] using hwarns

theorem named_of_spreadsTo {fragment : Fragment}
    (h : SpreadsTo (firstFragments definitions) fragment.selections fragment) :
    cycleWarning .order fragment.name fragment.name ∈
      (orderWalk (recordsOf values definitions)).notices := by
  obtain ⟨name, hspreads, hget⟩ := h
  obtain rfl := FragmentTable.name_of_get? hget
  obtain ⟨place, hplace, hat⟩ := fragmentPlace_of_get? (firstFragments definitions) values hget
  have hout := (orderWalk_sound (recordsOf values definitions)).2 place (fragmentPlace_lt hplace)
  have hwarns := (orderWalk_tells _).selves place (.inr hout)
    ((spreadsItself_at values hat).mpr (mem_spreadNames_iff.mpr hspreads))
  simpa only [OrderWalk.Warns, displayNameAt_of_fragment values hat] using hwarns

/-- A cycle inside `members` begins with a spread of its own fragment, or with one of another
fragment that leads back. -/
theorem ContainsCycle.cases {table : FragmentTable} {members : Set Fragment}
    (h : ContainsCycle table members) :
    ∃ fragment ∈ members, ∃ next ∈ members, SpreadsTo table fragment.selections next ∧
      (fragment ≠ next → OnCommonCycle table fragment next) := by
  obtain ⟨fragment, hcycle⟩ := h
  obtain ⟨next, ⟨hfragment, hnext, hspreads⟩, hback⟩ := Relation.TransGen.head'_iff.mp hcycle
  refine ⟨fragment, hfragment, next, hnext, hspreads, fun hne => ⟨?_, ?_⟩⟩
  · exact reaches_iff_transGen.mpr (.single hspreads)
  · have hwalk : Relation.ReflTransGen
        (fun inner next => SpreadsTo table inner.selections next) next fragment :=
      Relation.ReflTransGen.mono (fun _ _ hstep => hstep.2.2) _ _ hback
    have hlead := (Relation.reflTransGen_iff_eq_or_transGen.mp hwalk).resolve_left hne
    exact reaches_iff_transGen.mpr hlead

theorem containsCycle_univ {table : FragmentTable} {fragment : Fragment}
    (h : Reaches table fragment.selections fragment) : ContainsCycle table Set.univ :=
  ⟨fragment, Relation.TransGen.mono (fun _ _ hstep => ⟨trivial, trivial, hstep⟩) _ _
    (reaches_iff_transGen.mp h)⟩

/-- Where there is a cycle among some fragments, the walk names two of these. -/
theorem exists_named_of_containsCycle {members : Set Fragment}
    (h : ContainsCycle (firstFragments definitions) members) :
    ∃ fragment ∈ members, ∃ other ∈ members, cycleWarning .order fragment.name other.name ∈
      (orderWalk (recordsOf values definitions)).notices := by
  obtain ⟨fragment, hfragment, next, hnext, hspreads, hcommon⟩ := h.cases
  by_cases hsame : fragment = next
  · subst hsame
    exact ⟨fragment, hfragment, fragment, hfragment, named_of_spreadsTo values hspreads⟩
  · rcases named_of_onCommonCycle values (hcommon hsame) hsame with hnamed | hnamed
    · exact ⟨fragment, hfragment, next, hnext, hnamed⟩
    · exact ⟨next, hnext, fragment, hfragment, hnamed⟩

end

/-- The notices of the walk report the cycles, whatever else is reported in front of them. -/
theorem reportsCycles_of_walk (topic : Topic) (values : List (String × Json))
    {definitions : List Executable} (hdistinct : DistinctFragments definitions)
    {front : List Notice} (hfront : ∀ notice ∈ front, ¬ notice.IsCycleWarning) :
    ReportsCycles topic (firstFragments definitions)
      (front ++ (orderWalk (recordsOf values definitions)).notices.map
        fun notice => { notice with topic := topic }) := by
  set notices := front ++ (orderWalk (recordsOf values definitions)).notices.map
    fun notice => { notice with topic := topic } with hnotices
  have hkept : ∀ {dependent target : String}, cycleWarning .order dependent target ∈
      (orderWalk (recordsOf values definitions)).notices →
        cycleWarning topic dependent target ∈ notices := fun h =>
    List.mem_append_right _ (List.mem_map.mpr ⟨_, h, rfl⟩)
  have hgenuine : ∀ notice ∈ notices, notice.IsCycleWarning → ∃ fragment other,
      OnCommonCycle (firstFragments definitions) fragment other ∧
        notice = cycleWarning topic fragment.name other.name := by
    intro notice hnotice hcycle
    rcases List.mem_append.mp hnotice with hmem | hmem
    · exact absurd hcycle (hfront notice hmem)
    · obtain ⟨known, hknown, rfl⟩ := List.mem_map.mp hmem
      obtain ⟨fragment, other, hcommon, rfl⟩ := genuine_of_mem_notices values hdistinct hknown
      exact ⟨fragment, other, hcommon, rfl⟩
  have hcovered : ∀ members : Set Fragment, ContainsCycle (firstFragments definitions) members →
      ∃ fragment ∈ members, ∃ other ∈ members,
        cycleWarning topic fragment.name other.name ∈ notices := by
    intro members hcycle
    obtain ⟨fragment, hfragment, other, hother, hnamed⟩ :=
      exists_named_of_containsCycle values hcycle
    exact ⟨fragment, hfragment, other, hother, hkept hnamed⟩
  refine ⟨⟨fun hsilent => ?_, fun hacyclic => ?_⟩, hgenuine, ?_, hcovered⟩
  · -- a fragment that leads back to itself is a cycle among all fragments
    intro name fragment _ hreach
    obtain ⟨first, -, second, -, hmem⟩ := hcovered Set.univ (containsCycle_univ hreach)
    exact hsilent _ hmem (isCycleWarning_cycleWarning topic first.name second.name)
  · intro notice hnotice hcycle
    obtain ⟨fragment, other, ⟨hlead, hback⟩, -⟩ := hgenuine notice hnotice hcycle
    exact hacyclic fragment.name fragment hback.get?_eq (hlead.trans hback)
  · intro fragment other hcommon hne
    exact (named_of_onCommonCycle values hcommon hne).imp hkept hkept

/-! ### The notices of a graph -/

theorem not_isCycleWarning {notice : Notice} (h : notice.text.toList.head? ≠ some 'T') :
    ¬ notice.IsCycleWarning := by
  rintro ⟨rest, hrest⟩
  rw [← hrest] at h
  exact h rfl

theorem not_isCycleWarning_of_mem_definitions {κ : Type} [DecidableEq κ] {topic : Topic}
    {memo : DocumentMemo κ} {text : String} {notice : Notice}
    (h : notice ∈ (memo.definitions topic text).notices) : ¬ notice.IsCycleWarning := by
  unfold DocumentMemo.definitions readDefinitions at h
  split at h
  · exact nomatch h
  · split at h
    · exact nomatch h
    · obtain rfl : notice = ⟨.warning, topic, _⟩ := by simpa [Logged.warn, Logged.note] using h
      exact not_isCycleWarning (by simp)

/-- A graph that is not refused comes with the notices of the walk, behind those about names. -/
theorem resolveGraph_eq_ok (topic : Topic) (values : List (String × Json)) {strict : Bool}
    {definitions : List Executable}
    (h : strict = true → repeatedNames [] (givenNames definitions) = []) :
    ∃ graph duplicates, (∀ notice ∈ duplicates, ¬ notice.IsCycleWarning) ∧
      resolveGraph topic strict values definitions =
        ⟨.ok graph, duplicates ++ (orderWalk (recordsOf values definitions)).notices.map
          fun notice => { notice with topic := topic }⟩ := by
  have hfront : ∀ names : List String, ∀ notice ∈ names.map fun name =>
      (⟨.warning, topic, "Duplicate definition name " ++ name ++
        ", dependencies resolve to the first one"⟩ : Notice), ¬ notice.IsCycleWarning := by
    intro names notice hnotice
    obtain ⟨name, -, rfl⟩ := List.mem_map.mp hnotice
    exact not_isCycleWarning (by simp)
  refine ⟨⟨definitions, recordsOf values definitions,
    (orderRecords (recordsOf values definitions)).value⟩, _,
    hfront (repeatedNames [] (givenNames definitions)), ?_⟩
  cases strict with
  | false => rfl
  | true => simp only [resolveGraph, h rfl]; rfl

/-- **Warnings about cycles are exact.** Where fragments have different names and the graph is not
refused, there is no warning about a cycle exactly if no fragment leads back to itself, every such
warning names two fragments on a common cycle, and wherever there is a cycle among some fragments a
warning names two of these. This holds of any definitions, and of any text with any memo. -/
theorem cycle_warnings_exact {κ : Type} [DecidableEq κ] (topic : Topic) (strict : Bool)
    (values : List (String × Json)) :
    (∀ definitions : List Executable, DistinctFragments definitions →
      (strict = true → repeatedNames [] (givenNames definitions) = []) →
        ∃ graph, (resolveGraph topic strict values definitions).value = .ok graph ∧
          ReportsCycles topic (firstFragments definitions)
            (resolveGraph topic strict values definitions).notices) ∧
    ∀ (memo : DocumentMemo κ) (text : String),
      let definitions := (memo.definitions topic text).value.1
      DistinctFragments definitions →
      (strict = true → repeatedNames [] (givenNames definitions) = []) →
        ∃ graph, (buildGraph topic strict memo values text).value.1 = .ok graph ∧
          ReportsCycles topic (firstFragments definitions)
            (buildGraph topic strict memo values text).notices := by
  constructor
  · intro definitions hdistinct hkept
    obtain ⟨graph, duplicates, hfront, heq⟩ := resolveGraph_eq_ok topic values hkept
    rw [heq]
    exact ⟨graph, rfl, reportsCycles_of_walk topic values hdistinct hfront⟩
  · intro memo text definitions hdistinct hkept
    obtain ⟨graph, duplicates, hfront, heq⟩ := resolveGraph_eq_ok topic values hkept
    have hnotices : (buildGraph topic strict memo values text).notices =
        (memo.definitions topic text).notices ++
          (resolveGraph topic strict values definitions).notices := by
      simp [buildGraph, definitions]
    refine ⟨graph, congrArg Logged.value heq, ?_⟩
    rw [hnotices, heq, ← List.append_assoc]
    refine reportsCycles_of_walk topic values hdistinct fun notice hnotice => ?_
    rcases List.mem_append.mp hnotice with hread | hduplicate
    · exact not_isCycleWarning_of_mem_definitions hread
    · exact hfront notice hduplicate

namespace CyclicFragments

def definitions : List Executable := [.fragment name, .fragment person, .fragment friends]

/-- A text of the fragment that spreads itself. -/
def source : String := "fragment Name on User \x7b ...Name \x7d"

def memo : DocumentMemo String := Memo.empty id 1

theorem definitions_source : (memo.definitions .order source).value.1 = [.fragment name] := by
  decide +kernel

/-- What the walk needs of a record: its dependencies are given here. -/
def record (fragment : Fragment) (dependencies : List Fragment) : OperationRecord :=
  { OperationRecord.ofDefinition [] [] (.fragment fragment) with dependencies := dependencies }

theorem recordsOf_definitions :
    recordsOf [] definitions =
      [record name [], record person [friends, name], record friends [person, name]] := by
  have hname : fragmentDependencies table (.fragment name) = [] := by
    simp [fragmentDependencies, reachByLevel_cons, reachByLevel, spreadNames, Selection.spreads,
      Executable.fragmentName?, Executable.selections, name]
  have hfriends : fragmentDependencies table (.fragment friends) = [person, name] := by
    simp [fragmentDependencies, reachByLevel_cons, reachByLevel, FragmentTable.get?, spreadNames,
      Selection.spreads, Executable.fragmentName?, Executable.selections, table, person, friends,
      name, leaf]
  rw [recordsOf, show firstFragments definitions = table from rfl]
  simp only [definitions, List.map_cons, List.map_nil, OperationRecord.ofDefinition, hname,
    fragmentDependencies_person, hfriends]
  rfl

/-- The fragment that spreads itself and the two that lead to each other are reported. -/
theorem cycles_reported :
    DistinctFragments definitions ∧ repeatedNames [] (givenNames definitions) = [] ∧
      (∃ graph, (resolveGraph .order true [] definitions).value = .ok graph ∧
        ReportsCycles .order (firstFragments definitions)
          (resolveGraph .order true [] definitions).notices) ∧
      (orderWalk (recordsOf [] definitions)).notices =
        [cycleWarning .order "Name" "Name", cycleWarning .order "Friends" "Person"] ∧
      (∃ graph, (buildGraph .order false memo [] source).value.1 = .ok graph ∧
        ReportsCycles .order [name] (buildGraph .order false memo [] source).notices) := by
  have hdistinct : DistinctFragments definitions := by decide
  have hunique : repeatedNames [] (givenNames definitions) = [] := by decide
  have hsource : DistinctFragments (memo.definitions .order source).value.1 := by
    rw [definitions_source]
    decide
  have hname : firstFragments (memo.definitions .order source).value.1 = [name] := by
    rw [definitions_source]
    rfl
  refine ⟨hdistinct, hunique, ?_, by rw [recordsOf_definitions]; decide, ?_⟩
  · exact (cycle_warnings_exact (κ := String) .order true []).1 definitions hdistinct
      fun _ => hunique
  · rw [← hname]
    exact (cycle_warnings_exact .order false []).2 memo source hsource nofun

end CyclicFragments

end OperationLibrary
