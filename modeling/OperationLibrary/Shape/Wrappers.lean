import OperationLibrary.Shape.Basic
import OperationLibrary.Shape.Projection
import OperationLibrary.Syntax.Ast

/-!
List and non-null wrappers around a type. Lists become lists of shapes; that a value is never null
is said by the entry it belongs to and not by its shape. Walks give up below a fixed number of
wrappers.
-/

namespace OperationLibrary

open Syntax

/-- How many wrappers a walk goes through. -/
def wrapperLimit : Nat := 30

def wrapperWarning : String := "Bailing on potential infinite recursion"

/-- The shape of a type whose core has the shape `core` gives it, where `depth` wrappers have been
gone through already. -/
def throughWrappers (topic : Topic) (core : String → Projection Shape) :
    Nat → TypeRef → Projection Shape
  | _, .named name => core name
  | depth, .list item =>
    if wrapperLimit ≤ depth then do
      Logged.warn topic wrapperWarning
      return .bailedOut
    else do
      let shape ← throughWrappers topic core (depth + 1) item
      return .list shape none
  | depth, .nonNull inner =>
    if wrapperLimit ≤ depth then do
      Logged.warn topic wrapperWarning
      return .bailedOut
    else throughWrappers topic core (depth + 1) inner

namespace Syntax.TypeRef

/-- The number of wrappers around the core of a type. -/
def wrappers : TypeRef → Nat
  | .named _ => 0
  | .list item => item.wrappers + 1
  | .nonNull inner => inner.wrappers + 1

/-- The number of lists around the core of a type. -/
def lists : TypeRef → Nat
  | .named _ => 0
  | .list item => item.lists + 1
  | .nonNull inner => inner.lists

end Syntax.TypeRef

/-- What stands for the number of lists where there are too many wrappers. -/
def unboundedLists : Int := -99

/-- Counts on from `lists` lists among `total` wrappers. -/
def countLists (lists total : Nat) : TypeRef → Logged Int
  | .named _ => pure lists
  | .list item =>
    if wrapperLimit < total + 1 then do
      Logged.warn .types wrapperWarning
      return unboundedLists
    else countLists (lists + 1) (total + 1) item
  | .nonNull inner =>
    if wrapperLimit < total + 1 then do
      Logged.warn .types wrapperWarning
      return unboundedLists
    else countLists lists (total + 1) inner

/-- The number of lists around a type, where it does not have too many wrappers. -/
def listDepth (type : TypeRef) : Logged Int :=
  countLists 0 0 type

end OperationLibrary
