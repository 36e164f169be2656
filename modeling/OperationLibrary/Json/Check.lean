import OperationLibrary.Json.Value

/-!
Checks of JSON values against what a reader expects. A check does not stop at the first problem:
it answers with the value, or with everything that is wrong and where it stands.
-/

namespace OperationLibrary

/-- What is wrong with a value. -/
inductive ValueFault where
  | notText
  | notList
  | notChoice
  | notModel
  | notMapping
  | missing
  deriving DecidableEq

/-- A step on the way to a value. -/
inductive PathStep where
  | key (key : String)
  | index (index : Nat)
  deriving DecidableEq

structure ValueProblem where
  path : List PathStep
  fault : ValueFault
  deriving DecidableEq

/-- A value, or everything that is wrong with it. -/
abbrev Checked (α : Type) := Except (List ValueProblem) α

namespace Checked

/-- Puts a step in front of the paths of all problems. -/
def within {α : Type} (step : PathStep) (checked : Checked α) : Checked α :=
  checked.mapError fun problems => problems.map fun p => { p with path := step :: p.path }

/-- Both values, or the problems of both sides one after the other. -/
def both {α β : Type} (left : Checked α) (right : Checked β) : Checked (α × β) :=
  match left, right with
  | .ok a, .ok b => .ok (a, b)
  | .error e, .ok _ => .error e
  | .ok _, .error e => .error e
  | .error e, .error f => .error (e ++ f)

/-- The failure with one problem, at the value itself. -/
def fault {α : Type} (fault : ValueFault) : Checked α :=
  .error [⟨[], fault⟩]

end Checked

namespace Json

def checkText : Json → Checked String
  | string text => .ok text
  | _ => .fault .notText

def checkMapping : Json → Checked (List (String × Json))
  | object members => .ok members
  | _ => .fault .notMapping

/-- All items checked, those from place `n` on. -/
def checkItems {α : Type} (check : Json → Checked α) (n : Nat) : List Json → Checked (List α)
  | [] => .ok []
  | item :: rest =>
    (((check item).within (.index n)).both (checkItems check (n + 1) rest)).map
      fun (first, others) => first :: others

def checkList {α : Type} (check : Json → Checked α) : Json → Checked (List α)
  | array items => checkItems check 0 items
  | _ => .fault .notList

def checkChoice {α : Type} (choices : List (String × α)) (value : Json) : Checked α :=
  match value.string?.bind fun word => choices.lookup word with
  | some choice => .ok choice
  | none => .fault .notChoice

/-- The members of an object that has a shape of its own. -/
def checkModel {α : Type} (check : List (String × Json) → Checked α) : Json → Checked α
  | object members => check members
  | _ => .fault .notModel

/-- The value of a key in either spelling, or what stands for a missing one. The first spelling
comes first. -/
def checkKeyOr {α : Type} (members : List (String × Json)) (short long : String)
    (absent : Checked α) (check : Json → Checked α) : Checked α :=
  match lookup short members, lookup long members with
  | some value, _ => (check value).within (.key short)
  | none, some value => (check value).within (.key long)
  | none, none => absent

/-- The value of a key in either spelling, or the default. -/
def checkKey {α : Type} (members : List (String × Json)) (short long : String) (default : α)
    (check : Json → Checked α) : Checked α :=
  checkKeyOr members short long (.ok default) check

/-- The value of a key in either spelling, which has to be there. -/
def checkRequired {α : Type} (members : List (String × Json)) (short long : String)
    (check : Json → Checked α) : Checked α :=
  checkKeyOr members short long (.error [⟨[.key short], .missing⟩]) check

end Json

end OperationLibrary
