import OperationLibrary.Document.Record

/-!
The order in which definitions follow the fragments they depend on. The walk goes through the
definitions of the document, and before a definition it puts out the fragments that the definition
depends on and that are not out yet. A dependency whose own turn is not over closes a cycle; it is
reported and left where it is.
-/

namespace OperationLibrary

/-- The definitions whose turn has begun, and those that are out, by their places. -/
structure OrderWalk where
  active : List Nat
  emitted : List Nat
  notices : List Notice

namespace OrderWalk

def start : OrderWalk := ⟨[], [], []⟩

def report (walk : OrderWalk) (dependent target : String) : OrderWalk :=
  { walk with notices := walk.notices ++
      [⟨.warning, .order, "The operation graph has a cycle: " ++ dependent ++ " -> " ++ target⟩] }

end OrderWalk

/-- The place of the first fragment with this name. -/
def fragmentPlace (records : List OperationRecord) (name : String) : Option Nat :=
  records.findIdx? fun record => record.isFragment && record.name == name

/-- Whether a fragment spreads itself directly. -/
def spreadsItself (record : OperationRecord) : Bool :=
  record.isFragment && (spreadNames record.definition.selections).contains record.name

/-- The turn of the definition at `place`, inside which turns may begin `room` deep. Every turn
inside another one is of a definition that is not active, so the number of definitions is room
enough. -/
def takeTurn (records : List OperationRecord) : Nat → OrderWalk → Nat → OrderWalk
  | 0, walk, _ => walk
  | room + 1, walk, place =>
    match records[place]? with
    | none => walk
    | some record =>
      let begun := { walk with active := place :: walk.active }
      let begun :=
        if spreadsItself record then begun.report record.displayName record.displayName else begun
      let after := record.dependencies.foldl (fun (walk : OrderWalk) dependency =>
        match fragmentPlace records dependency.name with
        | none => walk
        | some target =>
          if walk.emitted.contains target then walk
          else if walk.active.contains target then
            walk.report record.displayName (((records[target]?).map (·.displayName)).getD "")
          else takeTurn records room walk target) begun
      { after with
        active := after.active.filter (· != place)
        emitted := after.emitted ++ [place] }

/-- The walk through all definitions in the order of the document. -/
def orderWalk (records : List OperationRecord) : OrderWalk :=
  (List.range records.length).foldl (fun walk place =>
    if walk.emitted.contains place then walk else takeTurn records records.length walk place)
    .start

/-- The records in dependency order, with a warning for every cycle met. -/
def orderRecords (records : List OperationRecord) : Logged (List OperationRecord) :=
  let walk := orderWalk records
  ⟨walk.emitted.filterMap (records[·]?), walk.notices⟩

end OperationLibrary
