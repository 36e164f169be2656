import Mathlib.Data.List.Perm.Subperm
import Mathlib.Logic.Relation
import OperationLibrary.Document.Graph
import OperationLibrary.Proofs.Reachability

/-!
The order of a graph. The walk behind it puts out every place once. A dependency of a definition
is out before the definition is, except where the turn of the dependency had begun already: then
the definition was entered from inside that turn, so the two lie on a common cycle.
-/

namespace OperationLibrary

open Syntax

/-! ### Places -/

/-- The places of the fragments that the definition at `place` depends on. -/
def dependencyPlaces (records : List OperationRecord) (place : Nat) : List Nat :=
  match records[place]? with
  | none => []
  | some record => record.dependencies.filterMap fun f => fragmentPlace records f.name

/-- Dependencies lead from one place to another. -/
abbrev LeadsTo (records : List OperationRecord) : Nat → Nat → Prop :=
  Relation.TransGen fun place target => target ∈ dependencyPlaces records place

theorem mem_dependencyPlaces {records : List OperationRecord} {place target : Nat}
    {record : OperationRecord} (hrecord : records[place]? = some record) :
    target ∈ dependencyPlaces records place ↔
      ∃ dependency ∈ record.dependencies,
        fragmentPlace records dependency.name = some target := by
  simp [dependencyPlaces, hrecord]

theorem fragmentPlace_lt {records : List OperationRecord} {name : String} {place : Nat}
    (h : fragmentPlace records name = some place) : place < records.length :=
  (List.findIdx?_eq_some_iff_findIdx_eq.mp h).1

/-- What leads to a definition leads to its dependencies. -/
theorem leadsTo_of_edge {records : List OperationRecord} {place target active : Nat}
    (hpath : active = place ∨ LeadsTo records active place)
    (hedge : target ∈ dependencyPlaces records place) : LeadsTo records active target := by
  rcases hpath with rfl | h
  · exact .single hedge
  · exact h.tail hedge

/-! ### The invariant of the walk -/

/-- Everything a definition of `emitted` depends on stands in front of it, or leads to it. -/
def Justified (records : List OperationRecord) (emitted : List Nat) : Prop :=
  ∀ before place after, emitted = before ++ place :: after →
    ∀ target ∈ dependencyPlaces records place, target ∈ before ∨ LeadsTo records target place

theorem Justified.concat {records : List OperationRecord} {emitted : List Nat} {place : Nat}
    (h : Justified records emitted)
    (hplace : ∀ target ∈ dependencyPlaces records place,
      target ∈ emitted ∨ LeadsTo records target place) :
    Justified records (emitted ++ [place]) := by
  intro before last after hsplit target htarget
  rcases List.eq_nil_or_concat after with rfl | ⟨init, final, rfl⟩
  · obtain ⟨rfl, hlast⟩ := List.append_inj' hsplit rfl
    obtain rfl : place = last := by simpa using hlast
    exact hplace target htarget
  · have hsplit' : emitted ++ [place] = (before ++ last :: init) ++ [final] := by
      simpa using hsplit
    obtain ⟨hinit, -⟩ := List.append_inj' hsplit' rfl
    exact h before last init hinit target htarget

/-- What holds of the walk at any time. -/
structure OrderWalk.Sound (records : List OperationRecord) (walk : OrderWalk) : Prop where
  active_nodup : walk.active.Nodup
  active_lt : ∀ place ∈ walk.active, place < records.length
  emitted_nodup : walk.emitted.Nodup
  emitted_lt : ∀ place ∈ walk.emitted, place < records.length
  disjoint : ∀ place ∈ walk.active, place ∉ walk.emitted
  justified : Justified records walk.emitted

/-- What a part of the walk keeps: the same turns are open after it, and what was out before it
is out after it. -/
structure OrderWalk.Extends (walk later : OrderWalk) : Prop where
  active_eq : later.active = walk.active
  emitted_subset : ∀ place ∈ walk.emitted, place ∈ later.emitted

namespace OrderWalk

variable {records : List OperationRecord} {walk later : OrderWalk}

theorem Extends.refl (walk : OrderWalk) : walk.Extends walk :=
  ⟨rfl, fun _ h => h⟩

theorem Extends.trans {last : OrderWalk} (h₁ : walk.Extends later) (h₂ : later.Extends last) :
    walk.Extends last :=
  ⟨h₂.active_eq.trans h₁.active_eq, fun place h =>
    h₂.emitted_subset place (h₁.emitted_subset place h)⟩

@[simp] theorem active_report (walk : OrderWalk) (dependent target : String) :
    (walk.report dependent target).active = walk.active := rfl

@[simp] theorem emitted_report (walk : OrderWalk) (dependent target : String) :
    (walk.report dependent target).emitted = walk.emitted := rfl

/-- Only the places count for the invariant. -/
theorem Sound.congr (h : walk.Sound records) (hactive : later.active = walk.active)
    (hemitted : later.emitted = walk.emitted) : later.Sound records where
  active_nodup := hactive ▸ h.active_nodup
  active_lt := hactive ▸ h.active_lt
  emitted_nodup := hemitted ▸ h.emitted_nodup
  emitted_lt := hemitted ▸ h.emitted_lt
  disjoint := by
    rw [hactive, hemitted]
    exact h.disjoint
  justified := hemitted ▸ h.justified

/-- There are at most as many open turns as definitions, and one less while a definition waits. -/
theorem Sound.active_length_lt (h : walk.Sound records) {place : Nat}
    (hplace : place < records.length) (hfresh : place ∉ walk.active) :
    walk.active.length < records.length := by
  have hnodup : (place :: walk.active).Nodup := List.nodup_cons.mpr ⟨hfresh, h.active_nodup⟩
  have hsubset : place :: walk.active ⊆ List.range records.length := by
    intro other hother
    rcases List.mem_cons.mp hother with rfl | hother
    · exact List.mem_range.mpr hplace
    · exact List.mem_range.mpr (h.active_lt other hother)
  have hlength := (List.subperm_of_subset hnodup hsubset).length_le
  rwa [List.length_cons, List.length_range] at hlength

/-- Opens the turn of a definition. -/
theorem Sound.opened (h : walk.Sound records) {place : Nat} (hplace : place < records.length)
    (hfresh : place ∉ walk.active) (hnew : place ∉ walk.emitted) :
    Sound records { walk with active := place :: walk.active } where
  active_nodup := List.nodup_cons.mpr ⟨hfresh, h.active_nodup⟩
  active_lt := by simpa using ⟨hplace, h.active_lt⟩
  emitted_nodup := h.emitted_nodup
  emitted_lt := h.emitted_lt
  disjoint := by simpa using ⟨hnew, h.disjoint⟩
  justified := h.justified

theorem Sound.filter_active (h : walk.Sound records) {place : Nat} {active : List Nat}
    (hactive : walk.active = place :: active) : walk.active.filter (· != place) = active := by
  have hnodup := h.active_nodup
  rw [hactive, List.nodup_cons] at hnodup
  rw [hactive, List.filter_cons_of_neg (by simp), List.filter_eq_self]
  intro other hother
  have hne : other ≠ place := fun hsame => hnodup.1 (hsame ▸ hother)
  simpa using hne

/-- Closes the turn that was opened last and puts its definition out. -/
theorem Sound.closed {place : Nat} {active : List Nat} (h : walk.Sound records)
    (hactive : walk.active = place :: active)
    (hplace : ∀ target ∈ dependencyPlaces records place,
      target ∈ walk.emitted ∨ LeadsTo records target place) :
    Sound records { walk with
      active := walk.active.filter (· != place), emitted := walk.emitted ++ [place] } := by
  have hmem : place ∈ walk.active := by simp [hactive]
  refine ⟨?_, ?_, ?_, ?_, ?_, h.justified.concat hplace⟩
  · exact h.active_nodup.filter _
  · intro other hother
    exact h.active_lt other (List.mem_of_mem_filter hother)
  · refine List.nodup_append.mpr ⟨h.emitted_nodup, by simp, fun other hother last hlast => ?_⟩
    rw [List.mem_singleton.mp hlast]
    exact fun hsame => h.disjoint place hmem (hsame ▸ hother)
  · intro other hother
    rcases List.mem_append.mp hother with hother | hother
    · exact h.emitted_lt other hother
    · exact List.mem_singleton.mp hother ▸ h.active_lt place hmem
  · intro other hother
    have hkept := List.mem_filter.mp hother
    simpa using ⟨h.disjoint other hkept.1, by simpa using hkept.2⟩

end OrderWalk

/-! ### One turn -/

/-- What the definition at a place is called in warnings. -/
def displayNameAt (records : List OperationRecord) (place : Nat) : String :=
  ((records[place]?).map (·.displayName)).getD ""

/-- What the turn of `dependent` does about one dependency. -/
def followDependency (records : List OperationRecord) (turn : OrderWalk → Nat → OrderWalk)
    (dependent : OperationRecord) (walk : OrderWalk) (dependency : Fragment) : OrderWalk :=
  match fragmentPlace records dependency.name with
  | none => walk
  | some target =>
    if walk.emitted.contains target then walk
    else if walk.active.contains target then
      walk.report dependent.displayName (((records[target]?).map (·.displayName)).getD "")
    else turn walk target

/-- A name that no fragment answers and a fragment that is out are passed over, a fragment whose
turn is open is reported, and any other one takes its turn. -/
theorem followDependency_cases (records : List OperationRecord)
    (turn : OrderWalk → Nat → OrderWalk) (dependent : OperationRecord) (walk : OrderWalk)
    (dependency : Fragment) :
    let next := followDependency records turn dependent walk dependency
    (fragmentPlace records dependency.name = none ∧ next = walk) ∨
      ∃ target, fragmentPlace records dependency.name = some target ∧
        (target ∈ walk.emitted ∧ next = walk ∨
          target ∉ walk.emitted ∧ target ∈ walk.active ∧
            next = walk.report dependent.displayName (displayNameAt records target) ∨
          target ∉ walk.emitted ∧ target ∉ walk.active ∧ next = turn walk target) := by
  simp only [followDependency]
  cases fragmentPlace records dependency.name with
  | none => exact .inl ⟨rfl, rfl⟩
  | some target =>
      refine .inr ⟨target, rfl, ?_⟩
      by_cases hout : target ∈ walk.emitted
      · exact .inl ⟨hout, by simp [hout]⟩
      · by_cases hopen : target ∈ walk.active
        · exact .inr (.inl ⟨hout, hopen, by simp [hout, hopen, displayNameAt]⟩)
        · exact .inr (.inr ⟨hout, hopen, by simp [hout, hopen]⟩)

/-- The walk when the turn of the definition at `place` has just begun: a spread of its own fragment
is reported. -/
def OrderWalk.opening (records : List OperationRecord) (walk : OrderWalk) (place : Nat) :
    OrderWalk :=
  let opened := { walk with active := place :: walk.active }
  if (records[place]?).any spreadsItself then
    opened.report (displayNameAt records place) (displayNameAt records place)
  else opened

namespace OrderWalk

variable {records : List OperationRecord} {walk : OrderWalk} {place : Nat}

@[simp] theorem active_opening : (walk.opening records place).active = place :: walk.active := by
  unfold opening
  split <;> rfl

@[simp] theorem emitted_opening : (walk.opening records place).emitted = walk.emitted := by
  unfold opening
  split <;> rfl

theorem Sound.opening (h : walk.Sound records) (hplace : place < records.length)
    (hfresh : place ∉ walk.active) (hnew : place ∉ walk.emitted) :
    (walk.opening records place).Sound records :=
  (h.opened hplace hfresh hnew).congr active_opening emitted_opening

end OrderWalk

/-- A turn opens, follows the dependencies and puts its definition out. -/
theorem takeTurn_succ {records : List OperationRecord} {place : Nat} {record : OperationRecord}
    (hrecord : records[place]? = some record) (room : Nat) (walk : OrderWalk) :
    takeTurn records (room + 1) walk place =
      let after := record.dependencies.foldl
        (followDependency records (takeTurn records room) record) (walk.opening records place)
      { after with
        active := after.active.filter (· != place)
        emitted := after.emitted ++ [place] } := by
  rw [takeTurn, OrderWalk.opening, displayNameAt, hrecord]
  rfl

/-- What a turn is for: it can be taken from any sound walk whose open turns all lead to it. -/
def TurnsSoundly (records : List OperationRecord) (turn : OrderWalk → Nat → OrderWalk)
    (room : Nat) : Prop :=
  ∀ (walk : OrderWalk) (place : Nat), walk.Sound records → place < records.length →
    place ∉ walk.active → place ∉ walk.emitted →
    records.length ≤ walk.active.length + room →
    (∀ active ∈ walk.active, LeadsTo records active place) →
    (turn walk place).Sound records ∧ walk.Extends (turn walk place) ∧
      place ∈ (turn walk place).emitted

/-- One dependency is out afterwards, or its turn is open and leads to the definition. -/
theorem followDependency_sound {records : List OperationRecord} {room place : Nat}
    {turn : OrderWalk → Nat → OrderWalk} (hturn : TurnsSoundly records turn room)
    {record : OperationRecord} (hrecord : records[place]? = some record)
    {dependency : Fragment} (hdependency : dependency ∈ record.dependencies)
    {walk : OrderWalk} (hsound : walk.Sound records)
    (hroom : records.length ≤ walk.active.length + room)
    (hpath : ∀ active ∈ walk.active, active = place ∨ LeadsTo records active place) :
    let next := followDependency records turn record walk dependency
    next.Sound records ∧ walk.Extends next ∧
      ∀ target, fragmentPlace records dependency.name = some target →
        target ∈ next.emitted ∨ LeadsTo records target place := by
  rcases followDependency_cases records turn record walk dependency with
    ⟨hnone, hnext⟩ | ⟨target, hplace, hcases⟩
  · dsimp only
    rw [hnext]
    exact ⟨hsound, .refl walk, by simp [hnone]⟩
  have hedge : target ∈ dependencyPlaces records place :=
    (mem_dependencyPlaces hrecord).mpr ⟨dependency, hdependency, hplace⟩
  rcases hcases with ⟨hout, hnext⟩ | ⟨-, hopen, hnext⟩ | ⟨hout, hopen, hnext⟩
  · dsimp only
    rw [hnext, hplace]
    refine ⟨hsound, .refl walk, ?_⟩
    rintro other ⟨rfl⟩
    exact .inl hout
  · dsimp only
    rw [hnext, hplace]
    refine ⟨hsound.congr rfl rfl, ⟨rfl, fun _ h => h⟩, ?_⟩
    rintro other ⟨rfl⟩
    -- an open turn is the one of the definition itself, or leads to it
    rcases hpath target hopen with rfl | h
    · exact .inr (.single hedge)
    · exact .inr h
  · obtain ⟨h₁, h₂, h₃⟩ := hturn walk target hsound (fragmentPlace_lt hplace) hopen hout hroom
      fun active hactive => leadsTo_of_edge (hpath active hactive) hedge
    dsimp only
    rw [hnext, hplace]
    refine ⟨h₁, h₂, ?_⟩
    rintro other ⟨rfl⟩
    exact .inl h₃

/-- Following dependencies leaves each of them out already, or on the way to the definition. -/
theorem followDependencies_sound {records : List OperationRecord} {room place : Nat}
    {turn : OrderWalk → Nat → OrderWalk} (hturn : TurnsSoundly records turn room)
    {record : OperationRecord} (hrecord : records[place]? = some record)
    (dependencies : List Fragment) (hdependencies : ∀ f ∈ dependencies, f ∈ record.dependencies)
    (walk : OrderWalk) (hsound : walk.Sound records)
    (hroom : records.length ≤ walk.active.length + room)
    (hpath : ∀ active ∈ walk.active, active = place ∨ LeadsTo records active place) :
    let after := dependencies.foldl (followDependency records turn record) walk
    after.Sound records ∧ walk.Extends after ∧
      ∀ dependency ∈ dependencies, ∀ target,
        fragmentPlace records dependency.name = some target →
          target ∈ after.emitted ∨ LeadsTo records target place := by
  induction dependencies generalizing walk with
  | nil => exact ⟨hsound, .refl walk, by simp⟩
  | cons dependency rest ih =>
      obtain ⟨hsound', hext, hdone⟩ := followDependency_sound hturn hrecord
        (hdependencies dependency List.mem_cons_self) hsound hroom hpath
      obtain ⟨h₁, h₂, h₃⟩ := ih (fun f hf => hdependencies f (List.mem_cons_of_mem _ hf))
        (followDependency records turn record walk dependency) hsound'
        (by rw [hext.active_eq]; exact hroom) (by rw [hext.active_eq]; exact hpath)
      refine ⟨h₁, hext.trans h₂, fun other hother target htarget => ?_⟩
      rcases List.mem_cons.mp hother with rfl | hother
      · exact (hdone target htarget).imp_left (h₂.emitted_subset target)
      · exact h₃ other hother target htarget

/-- Turns are sound as deep as there is room for them, and there is room for every turn that can
still begin. -/
theorem takeTurn_sound (records : List OperationRecord) (room : Nat) :
    TurnsSoundly records (takeTurn records room) room := by
  induction room with
  | zero =>
      intro walk place hsound hplace hfresh _ hroom _
      -- without room all places would have an open turn, this one too
      have := hsound.active_length_lt hplace hfresh
      omega
  | succ room ih =>
      intro walk place hsound hplace hfresh hnew hroom hpath
      have hrecord : records[place]? = some records[place] := List.getElem?_eq_getElem hplace
      rw [takeTurn_succ hrecord]
      obtain ⟨h₁, h₂, h₃⟩ := followDependencies_sound ih hrecord records[place].dependencies
        (fun _ h => h) (walk.opening records place) (hsound.opening hplace hfresh hnew)
        (by rw [OrderWalk.active_opening, List.length_cons]; omega)
        (by
          rw [OrderWalk.active_opening]
          intro active h
          exact (List.mem_cons.mp h).imp_right (hpath active))
      set after := records[place].dependencies.foldl
        (followDependency records (takeTurn records room) records[place])
        (walk.opening records place)
      have hactive : after.active = place :: walk.active :=
        h₂.active_eq.trans OrderWalk.active_opening
      have hclosed := h₁.closed hactive (fun target htarget => by
        obtain ⟨dependency, hmem, hfound⟩ := (mem_dependencyPlaces hrecord).mp htarget
        exact h₃ dependency hmem target hfound)
      refine ⟨hclosed, ⟨h₁.filter_active hactive, fun other hother => ?_⟩, by simp⟩
      exact List.mem_append_left _
        (h₂.emitted_subset other (OrderWalk.emitted_opening.symm ▸ hother))

/-! ### The whole walk -/

/-- The walk through the first `count` places of the document. -/
def walkUpTo (records : List OperationRecord) (count : Nat) : OrderWalk :=
  (List.range count).foldl (fun walk place =>
    if walk.emitted.contains place then walk else takeTurn records records.length walk place)
    .start

theorem walkUpTo_succ (records : List OperationRecord) (count : Nat) :
    walkUpTo records (count + 1) =
      if count ∈ (walkUpTo records count).emitted then walkUpTo records count
      else takeTurn records records.length (walkUpTo records count) count := by
  simp [walkUpTo, List.range_succ]

/-- Between the turns of the outer walk no turn is open. -/
theorem walkUpTo_sound {records : List OperationRecord} {count : Nat}
    (hcount : count ≤ records.length) :
    (walkUpTo records count).Sound records ∧ (walkUpTo records count).active = [] ∧
      ∀ place < count, place ∈ (walkUpTo records count).emitted := by
  induction count with
  | zero =>
      refine ⟨⟨?_, ?_, ?_, ?_, ?_, ?_⟩, rfl, by simp⟩ <;>
        simp [walkUpTo, OrderWalk.start, Justified]
  | succ count ih =>
      obtain ⟨hsound, hidle, hearlier⟩ := ih (Nat.le_of_succ_le hcount)
      rw [walkUpTo_succ]
      split
      case isTrue hout =>
        exact ⟨hsound, hidle, Nat.forall_lt_succ_right.mpr ⟨hearlier, hout⟩⟩
      case isFalse hnew =>
        obtain ⟨hsound', hext, hout⟩ := takeTurn_sound records records.length _ count hsound
          hcount (by simp [hidle]) hnew (by simp) (by simp [hidle])
        refine ⟨hsound', hext.active_eq.trans hidle, Nat.forall_lt_succ_right.mpr ⟨?_, hout⟩⟩
        exact fun place hplace => hext.emitted_subset place (hearlier place hplace)

theorem orderWalk_sound (records : List OperationRecord) :
    (orderWalk records).Sound records ∧
      ∀ place < records.length, place ∈ (orderWalk records).emitted :=
  ⟨(walkUpTo_sound (Nat.le_refl _)).1, (walkUpTo_sound (Nat.le_refl _)).2.2⟩

/-- Every place is put out once. -/
theorem orderWalk_emitted_perm (records : List OperationRecord) :
    (orderWalk records).emitted.Perm (List.range records.length) := by
  obtain ⟨hsound, hall⟩ := orderWalk_sound records
  refine (List.perm_ext_iff_of_nodup hsound.emitted_nodup List.nodup_range).mpr fun place => ?_
  rw [List.mem_range]
  exact ⟨hsound.emitted_lt place, hall place⟩

/-- A dependency stands in front of its dependent, or leads to it. -/
theorem orderWalk_justified (records : List OperationRecord) {place target : Nat}
    (hplace : place < records.length) (htarget : target ∈ dependencyPlaces records place) :
    (orderWalk records).emitted.idxOf target < (orderWalk records).emitted.idxOf place ∨
      LeadsTo records target place := by
  obtain ⟨hsound, hall⟩ := orderWalk_sound records
  obtain ⟨before, after, hsplit, hbefore⟩ := List.eq_append_cons_of_mem (hall place hplace)
  refine (hsound.justified before place after hsplit target htarget).imp_left fun hmem => ?_
  rw [hsplit, List.idxOf_append_of_mem hmem, List.idxOf_append_of_notMem hbefore,
    List.idxOf_cons_self]
  exact List.idxOf_lt_length_iff.mpr hmem

/-! ### Documents -/

section

variable {definitions : List Executable} {name : String} {fragment : Fragment}

/-- The fragment that a name stands for has its place in the document. -/
theorem fragmentPlace_of_get? (table : FragmentTable) (values : List (String × Json))
    (h : FragmentTable.get? (definitions.filterMap Executable.fragment?) name = some fragment) :
    ∃ place, fragmentPlace (definitions.map (OperationRecord.ofDefinition table values)) name =
        some place ∧ definitions[place]? = some (.fragment fragment) := by
  induction definitions with
  | nil => simp [FragmentTable.get?] at h
  | cons first rest ih =>
      cases first with
      | operation o =>
          -- no name stands for an operation, so the place is one behind it
          obtain ⟨place, hplace, hat⟩ := ih h
          refine ⟨place + 1, ?_, by simpa using hat⟩
          rw [fragmentPlace] at hplace ⊢
          rw [List.map_cons, List.findIdx?_cons, hplace]
          rfl
      | fragment f =>
          change List.find? (·.name == name) (f :: rest.filterMap Executable.fragment?) = _ at h
          by_cases hname : f.name = name
          · have hsame : f = fragment := by simpa [hname] using h
            refine ⟨0, ?_, by simp [hsame]⟩
            rw [fragmentPlace, List.map_cons, List.findIdx?_cons, if_pos]
            simp [OperationRecord.ofDefinition, OperationRecord.isFragment, Executable.kind,
              Executable.nameOrKind, Executable.name?, hname]
          · rw [List.find?_cons_of_neg (by simpa using hname)] at h
            obtain ⟨place, hplace, hat⟩ := ih h
            refine ⟨place + 1, ?_, by simpa using hat⟩
            rw [fragmentPlace] at hplace ⊢
            rw [List.map_cons, List.findIdx?_cons, if_neg, hplace]
            · rfl
            · simp [OperationRecord.ofDefinition, Executable.nameOrKind, Executable.name?, hname]

end

/-- The fragments of a document by name, the first of a name counting. -/
abbrev firstFragments (definitions : List Executable) : FragmentTable :=
  definitions.filterMap Executable.fragment?

/-- The records of a document. -/
abbrev recordsOf (values : List (String × Json)) (definitions : List Executable) :
    List OperationRecord :=
  definitions.map (OperationRecord.ofDefinition (firstFragments definitions) values)

/-- The definition at `place` is the first fragment of its name, and `selections` lead to it. -/
def LeadsToFirst (values : List (String × Json)) (definitions : List Executable)
    (selections : List Selection) (place : Nat) : Prop :=
  ∃ fragment, definitions[place]? = some (.fragment fragment) ∧
    fragmentPlace (recordsOf values definitions) fragment.name = some place ∧
    Reaches (firstFragments definitions) selections fragment

section

variable {values : List (String × Json)} {definitions : List Executable}

theorem leadsToFirst_of_reaches {selections : List Selection} {fragment : Fragment} {place : Nat}
    (h : Reaches (firstFragments definitions) selections fragment)
    (hplace : fragmentPlace (recordsOf values definitions) fragment.name = some place) :
    LeadsToFirst values definitions selections place := by
  obtain ⟨place', hplace', hat⟩ := fragmentPlace_of_get? _ values h.get?_eq
  obtain rfl : place' = place := Option.some.inj (hplace'.symm.trans hplace)
  exact ⟨fragment, hat, hplace, h⟩

/-- One dependency leads to the first fragment of its name. -/
theorem leadsToFirst_of_mem_dependencyPlaces {place target : Nat} {definition : Executable}
    (hat : definitions[place]? = some definition)
    (h : target ∈ dependencyPlaces (recordsOf values definitions) place) :
    LeadsToFirst values definitions definition.selections target := by
  have hrecord : (recordsOf values definitions)[place]? =
      some (.ofDefinition (firstFragments definitions) values definition) := by
    rw [List.getElem?_map, hat]
    rfl
  obtain ⟨dependency, hmem, hplace⟩ := (mem_dependencyPlaces hrecord).mp h
  exact leadsToFirst_of_reaches (reaches_of_mem_fragmentDependencies hmem).1 hplace

/-- Dependencies in a row follow spreads in a row. -/
theorem LeadsTo.leadsToFirst {place target : Nat}
    (h : LeadsTo (recordsOf values definitions) place target) {definition : Executable}
    (hat : definitions[place]? = some definition) :
    LeadsToFirst values definitions definition.selections target := by
  induction h with
  | single h => exact leadsToFirst_of_mem_dependencyPlaces hat h
  | tail _ hlast ih =>
      obtain ⟨inner, hinner, -, hreach⟩ := ih
      obtain ⟨fragment, hfragment, hplace, hstep⟩ :=
        leadsToFirst_of_mem_dependencyPlaces hinner hlast
      exact ⟨fragment, hfragment, hplace, hreach.trans hstep⟩

end

/-- The definitions of a graph stand in dependency order: every place of the document once, and
the first fragment of the name of a dependency in front of the dependent, unless the dependent is
such a fragment itself and the dependency leads back to it. -/
def OperationGraph.DependenciesFirst (graph : OperationGraph) (values : List (String × Json))
    (definitions : List Executable) : Prop :=
  graph.source = recordsOf values definitions ∧
    ∃ places : List Nat, places.Perm (List.range definitions.length) ∧
      graph.ordered = places.filterMap (graph.source[·]?) ∧
      ∀ dependent record, graph.source[dependent]? = some record →
        ∀ dependency ∈ record.dependencies, ∃ target,
          definitions[target]? = some (.fragment dependency) ∧
          fragmentPlace graph.source dependency.name = some target ∧
          (places.idxOf target < places.idxOf dependent ∨
            LeadsToFirst values definitions dependency.selections dependent) ∧
          ((firstFragments definitions).Acyclic →
            places.idxOf target < places.idxOf dependent)

/-- Either a graph in dependency order, or a name that repeats where that is refused. -/
def OrderedOrRefused (strict : Bool) (values : List (String × Json))
    (definitions : List Executable) : Except DuplicateName OperationGraph → Prop
  | .error again => strict = true ∧ again.name ∈ repeatedNames [] (givenNames definitions)
  | .ok graph => graph.DependenciesFirst values definitions

/-- The records of any document are put into dependency order. -/
theorem orderRecords_dependenciesFirst (values : List (String × Json))
    (definitions : List Executable) :
    OperationGraph.DependenciesFirst
      ⟨definitions, recordsOf values definitions,
        (orderRecords (recordsOf values definitions)).value⟩
      values definitions := by
  set records := recordsOf values definitions with hrecords
  have hlength : records.length = definitions.length := by simp [hrecords]
  refine ⟨rfl, (orderWalk records).emitted, hlength ▸ orderWalk_emitted_perm records, rfl, ?_⟩
  intro dependent record hrecord dependency hdependency
  obtain ⟨definition, hat, rfl⟩ : ∃ definition, definitions[dependent]? = some definition ∧
      .ofDefinition (firstFragments definitions) values definition = record := by
    simpa [hrecords] using hrecord
  obtain ⟨hreach, hother⟩ := reaches_of_mem_fragmentDependencies hdependency
  obtain ⟨target, hplace, htarget⟩ := fragmentPlace_of_get? (firstFragments definitions) values
    hreach.get?_eq
  have hedge : target ∈ dependencyPlaces records dependent :=
    (mem_dependencyPlaces hrecord).mpr ⟨dependency, hdependency, hplace⟩
  have hlt : dependent < records.length := (List.getElem?_eq_some_iff.mp hrecord).1
  have hjust : (orderWalk records).emitted.idxOf target <
      (orderWalk records).emitted.idxOf dependent ∨
      LeadsToFirst values definitions dependency.selections dependent :=
    (orderWalk_justified records hlt hedge).imp_right fun h => h.leadsToFirst htarget
  refine ⟨target, htarget, hplace, hjust, fun hacyclic => hjust.resolve_right ?_⟩
  -- a dependency that leads back to its dependent closes a cycle through both
  rintro ⟨fragment, hfragment, -, hback⟩
  obtain rfl : Executable.fragment fragment = definition := by
    simpa [hat] using hfragment.symm
  exact hacyclic fragment.name fragment hback.get?_eq (hreach.trans hback)

/-- **Dependencies come first.** The graph of any definitions, and the graph of any text with any
memo, holds every definition once and in dependency order, whatever cycles the fragments form and
whatever names repeat; only a strict graph is refused, and only for a name that repeats. -/
theorem graph_dependencies_first {κ : Type} [DecidableEq κ] (topic : Topic) (strict : Bool)
    (values : List (String × Json)) :
    (∀ definitions : List Executable, OrderedOrRefused strict values definitions
      (resolveGraph topic strict values definitions).value) ∧
    ∀ (memo : DocumentMemo κ) (text : String),
      OrderedOrRefused strict values (memo.definitions topic text).value.1
        (buildGraph topic strict memo values text).value.1 := by
  have hresolve : ∀ definitions : List Executable, OrderedOrRefused strict values definitions
      (resolveGraph topic strict values definitions).value := by
    intro definitions
    have hordered := orderRecords_dependenciesFirst values definitions
    cases strict with
    | false => simpa [resolveGraph, OrderedOrRefused] using hordered
    | true =>
        cases hagain : repeatedNames [] (givenNames definitions) with
        | nil => simpa [resolveGraph, OrderedOrRefused, hagain] using hordered
        | cons name rest => simp [resolveGraph, OrderedOrRefused, hagain]
  exact ⟨hresolve, fun memo text => hresolve (memo.definitions topic text).value.1⟩

end OperationLibrary
