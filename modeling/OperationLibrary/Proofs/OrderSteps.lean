import OperationLibrary.Proofs.DependencyOrder

/-!
The walk behind the order of a graph, step by step. A step opens a turn, reports a dependency whose
turn is open, or closes the turn that was opened last. The whole walk is a row of such steps, so
what every step keeps holds of it.
-/

namespace OperationLibrary

open Syntax

/-! ### Steps -/

/-- The warning that one definition closes a cycle with another one. -/
def cycleWarning (topic : Topic) (dependent target : String) : Notice :=
  ⟨.warning, topic, "The operation graph has a cycle: " ++ dependent ++ " -> " ++ target⟩

namespace OrderWalk

variable {records : List OperationRecord}

/-- The walk has reported that `place` closes a cycle with `target`. -/
def Warns (records : List OperationRecord) (walk : OrderWalk) (place target : Nat) : Prop :=
  cycleWarning .order (displayNameAt records place) (displayNameAt records target) ∈ walk.notices

/-- The target is out, or the walk has reported a cycle. -/
def Handles (records : List OperationRecord) (walk : OrderWalk) (place target : Nat) : Prop :=
  target ∈ walk.emitted ∨ walk.Warns records place target

/-- The target has had its turn, or its turn is open. -/
def Begins (walk : OrderWalk) (target : Nat) : Prop :=
  target ∈ walk.emitted ∨ target ∈ walk.active

/-- What one step of the walk can do. -/
inductive Step (records : List OperationRecord) : OrderWalk → OrderWalk → Prop
  /-- Where no turn is open, the first place that is not out takes its turn. -/
  | root {walk : OrderWalk} {place : Nat} (idle : walk.active = [])
      (inside : place < records.length) (fresh : place ∉ walk.emitted)
      (earlier : ∀ before < place, before ∈ walk.emitted) :
      Step records walk (walk.opening records place)
  /-- A dependency that has not had a turn takes it inside the turn of its dependent. -/
  | enter {walk : OrderWalk} {top place : Nat} {outer : List Nat}
      (turn : walk.active = top :: outer) (edge : place ∈ dependencyPlaces records top)
      (waiting : place ∉ walk.active) (fresh : place ∉ walk.emitted) :
      Step records walk (walk.opening records place)
  /-- A dependency whose turn is open is reported. -/
  | report {walk : OrderWalk} {top target : Nat} {outer : List Nat}
      (turn : walk.active = top :: outer) (edge : target ∈ dependencyPlaces records top)
      (opened : target ∈ walk.active) :
      Step records walk (walk.report (displayNameAt records top) (displayNameAt records target))
  /-- A turn whose dependencies are all out or reported, and none of them still waiting, ends, and
  its definition is out. -/
  | finish {walk : OrderWalk} {top : Nat} {outer : List Nat} (turn : walk.active = top :: outer)
      (fresh : top ∉ walk.emitted)
      (handled : ∀ target ∈ dependencyPlaces records top, walk.Handles records top target)
      (begun : ∀ target ∈ dependencyPlaces records top, walk.Begins target) :
      Step records walk { walk with active := outer, emitted := walk.emitted ++ [top] }

abbrev Steps (records : List OperationRecord) : OrderWalk → OrderWalk → Prop :=
  Relation.ReflTransGen (Step records)

variable {walk later : OrderWalk} {place target : Nat}

theorem notices_subset_opening : walk.notices ⊆ (walk.opening records place).notices := by
  unfold opening
  split
  · exact List.subset_append_left _ _
  · exact List.Subset.refl _

/-- Nothing that was reported or put out is taken back. -/
theorem Step.grows (h : Step records walk later) :
    walk.emitted ⊆ later.emitted ∧ walk.notices ⊆ later.notices := by
  cases h with
  | root => exact ⟨by simp, notices_subset_opening⟩
  | enter => exact ⟨by simp, notices_subset_opening⟩
  | report => exact ⟨List.Subset.refl _, List.subset_append_left _ _⟩
  | finish => exact ⟨List.subset_append_left _ _, List.Subset.refl _⟩

theorem Steps.grows (h : Steps records walk later) :
    walk.emitted ⊆ later.emitted ∧ walk.notices ⊆ later.notices := by
  induction h with
  | refl => exact ⟨List.Subset.refl _, List.Subset.refl _⟩
  | tail _ hstep ih =>
      exact ⟨List.Subset.trans ih.1 hstep.grows.1, List.Subset.trans ih.2 hstep.grows.2⟩

theorem Begins.extends {target : Nat} (h : walk.Begins target) (hext : walk.Extends later) :
    later.Begins target :=
  h.imp (hext.emitted_subset target) fun hopen => hext.active_eq ▸ hopen

theorem Handles.mono (h : walk.Handles records place target) (hsteps : Steps records walk later) :
    later.Handles records place target :=
  h.imp (fun hout => hsteps.grows.1 hout) (fun hwarns => hsteps.grows.2 hwarns)

end OrderWalk

/-! ### Turns are made of steps -/

/-- From its opening on, a turn is a row of steps. -/
def TurnsInSteps (records : List OperationRecord) (turn : OrderWalk → Nat → OrderWalk)
    (room : Nat) : Prop :=
  ∀ (walk : OrderWalk) (place : Nat), walk.Sound records → place < records.length →
    place ∉ walk.active → place ∉ walk.emitted →
    records.length ≤ walk.active.length + room →
    (∀ active ∈ walk.active, LeadsTo records active place) →
    OrderWalk.Steps records (walk.opening records place) (turn walk place)

section

variable {records : List OperationRecord} {room place : Nat} {turn : OrderWalk → Nat → OrderWalk}
  {record : OperationRecord} {outer : List Nat}

theorem followDependency_steps (hturn : TurnsSoundly records turn room)
    (hsteps : TurnsInSteps records turn room) (hrecord : records[place]? = some record)
    {dependency : Fragment} (hdependency : dependency ∈ record.dependencies) {walk : OrderWalk}
    (hsound : walk.Sound records) (hroom : records.length ≤ walk.active.length + room)
    (hpath : ∀ active ∈ walk.active, active = place ∨ LeadsTo records active place)
    (hactive : walk.active = place :: outer) :
    let next := followDependency records turn record walk dependency
    OrderWalk.Steps records walk next ∧
      ∀ target, fragmentPlace records dependency.name = some target →
        next.Handles records place target ∧ next.Begins target := by
  dsimp only
  rcases followDependency_cases records turn record walk dependency with
    ⟨hnone, hnext⟩ | ⟨target, hplace, hcases⟩
  · rw [hnext, hnone]
    exact ⟨.refl, by simp⟩
  have hedge : target ∈ dependencyPlaces records place :=
    (mem_dependencyPlaces hrecord).mpr ⟨dependency, hdependency, hplace⟩
  rcases hcases with ⟨hout, hnext⟩ | ⟨-, hopen, hnext⟩ | ⟨hout, hopen, hnext⟩
  · rw [hnext, hplace]
    refine ⟨.refl, ?_⟩
    rintro other ⟨rfl⟩
    exact ⟨.inl hout, .inl hout⟩
  · have hname : record.displayName = displayNameAt records place := by
      simp [displayNameAt, hrecord]
    rw [hnext, hplace, hname]
    refine ⟨.single (.report hactive hedge hopen), ?_⟩
    rintro other ⟨rfl⟩
    exact ⟨.inr (List.mem_append_right _ (List.mem_singleton.mpr rfl)), .inr hopen⟩
  · have hleads : ∀ active ∈ walk.active, LeadsTo records active target := fun active hmem =>
      leadsTo_of_edge (hpath active hmem) hedge
    have hlt := fragmentPlace_lt hplace
    rw [hnext, hplace]
    refine ⟨(hsteps walk target hsound hlt hopen hout hroom hleads).head
      (.enter hactive hedge hopen hout), ?_⟩
    rintro other ⟨rfl⟩
    have hdone := (hturn walk target hsound hlt hopen hout hroom hleads).2.2
    exact ⟨.inl hdone, .inl hdone⟩

theorem followDependencies_steps (hturn : TurnsSoundly records turn room)
    (hsteps : TurnsInSteps records turn room) (hrecord : records[place]? = some record)
    (dependencies : List Fragment) (hdependencies : ∀ f ∈ dependencies, f ∈ record.dependencies)
    (walk : OrderWalk) (hsound : walk.Sound records)
    (hroom : records.length ≤ walk.active.length + room)
    (hpath : ∀ active ∈ walk.active, active = place ∨ LeadsTo records active place)
    (hactive : walk.active = place :: outer) :
    let after := dependencies.foldl (followDependency records turn record) walk
    OrderWalk.Steps records walk after ∧
      ∀ dependency ∈ dependencies, ∀ target,
        fragmentPlace records dependency.name = some target →
          after.Handles records place target ∧ after.Begins target := by
  induction dependencies generalizing walk with
  | nil => exact ⟨.refl, by simp⟩
  | cons dependency rest ih =>
      have hdependency := hdependencies dependency List.mem_cons_self
      obtain ⟨hfirst, hdone⟩ := followDependency_steps hturn hsteps hrecord hdependency hsound
        hroom hpath hactive
      obtain ⟨hsound', hext, -⟩ := followDependency_sound hturn hrecord hdependency hsound hroom
        hpath
      have hdependencies' : ∀ f ∈ rest, f ∈ record.dependencies := fun f hf =>
        hdependencies f (List.mem_cons_of_mem _ hf)
      have hroom' := hext.active_eq.symm ▸ hroom
      have hpath' := hext.active_eq.symm ▸ hpath
      obtain ⟨-, hextRest, -⟩ := followDependencies_sound hturn hrecord rest hdependencies'
        (followDependency records turn record walk dependency) hsound' hroom' hpath'
      obtain ⟨hrest, hothers⟩ := ih hdependencies'
        (followDependency records turn record walk dependency) hsound' hroom' hpath'
        (hext.active_eq.trans hactive)
      refine ⟨hfirst.trans hrest, fun other hother target htarget => ?_⟩
      rcases List.mem_cons.mp hother with rfl | hother
      · exact ⟨(hdone target htarget).1.mono hrest, (hdone target htarget).2.extends hextRest⟩
      · exact hothers other hother target htarget

end

theorem takeTurn_steps (records : List OperationRecord) (room : Nat) :
    TurnsInSteps records (takeTurn records room) room := by
  induction room with
  | zero =>
      intro walk place hsound hplace hfresh _ hroom _
      have := hsound.active_length_lt hplace hfresh
      omega
  | succ room ih =>
      intro walk place hsound hplace hfresh hnew hroom hpath
      have hrecord : records[place]? = some records[place] := List.getElem?_eq_getElem hplace
      have hroom' : records.length ≤ (walk.opening records place).active.length + room := by
        rw [OrderWalk.active_opening, List.length_cons]
        omega
      have hpath' : ∀ active ∈ (walk.opening records place).active,
          active = place ∨ LeadsTo records active place := by
        rw [OrderWalk.active_opening]
        intro active h
        exact (List.mem_cons.mp h).imp_right (hpath active)
      obtain ⟨h₁, h₂, -⟩ := followDependencies_sound (takeTurn_sound records room) hrecord
        records[place].dependencies (fun _ h => h) _ (hsound.opening hplace hfresh hnew) hroom'
        hpath'
      obtain ⟨hsteps, hhandled⟩ := followDependencies_steps (takeTurn_sound records room) ih hrecord
        records[place].dependencies (fun _ h => h) _ (hsound.opening hplace hfresh hnew) hroom'
        hpath' OrderWalk.active_opening
      rw [takeTurn_succ hrecord]
      set after := records[place].dependencies.foldl
        (followDependency records (takeTurn records room) records[place])
        (walk.opening records place)
      have hactive : after.active = place :: walk.active :=
        h₂.active_eq.trans OrderWalk.active_opening
      dsimp only
      rw [h₁.filter_active hactive]
      have hdone : ∀ target ∈ dependencyPlaces records place,
          after.Handles records place target ∧ after.Begins target := by
        intro target htarget
        obtain ⟨dependency, hmem, hfound⟩ := (mem_dependencyPlaces hrecord).mp htarget
        exact hhandled dependency hmem target hfound
      exact hsteps.tail (.finish hactive (h₁.disjoint place (by simp [hactive]))
        (fun target htarget => (hdone target htarget).1)
        fun target htarget => (hdone target htarget).2)

/-- The whole walk is a row of steps. -/
theorem orderWalk_steps (records : List OperationRecord) :
    OrderWalk.Steps records .start (orderWalk records) := by
  have hupTo : ∀ count ≤ records.length,
      OrderWalk.Steps records .start (walkUpTo records count) := by
    intro count hcount
    induction count with
    | zero => exact .refl
    | succ count ih =>
        obtain ⟨hsound, hidle, hearlier⟩ := walkUpTo_sound (Nat.le_of_succ_le hcount)
        have hsteps := ih (Nat.le_of_succ_le hcount)
        rw [walkUpTo_succ]
        split
        case isTrue hout => exact hsteps
        case isFalse hnew =>
          have hturn := takeTurn_steps records records.length _ count hsound hcount
            (by simp [hidle]) hnew (by simp) (by simp [hidle])
          exact (hsteps.tail (.root hidle hcount hnew hearlier)).trans hturn
  exact hupTo records.length (Nat.le_refl _)

/-- What holds at the start and passes along steps holds at the end. -/
theorem orderWalk_induction {records : List OperationRecord} {P : OrderWalk → Prop}
    (hstart : P .start)
    (hstep : ∀ walk later, OrderWalk.Step records walk later → P walk → P later) :
    P (orderWalk records) := by
  have hrun : ∀ walk, OrderWalk.Steps records .start walk → P walk := by
    intro walk hsteps
    induction hsteps with
    | refl => exact hstart
    | tail _ hlast ih => exact hstep _ _ hlast ih
  exact hrun _ (orderWalk_steps records)

end OperationLibrary
