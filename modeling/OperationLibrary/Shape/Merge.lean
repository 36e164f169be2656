import OperationLibrary.Shape.Basic

/-!
Merging shapes that are selected under one name. Objects take the entries of both sides, lists
merge their items, and everything else is what the left side says. An entry may be absent from a
merged object only if both sides let it be absent.
-/

namespace OperationLibrary

/-- The first description that says something. -/
def firstDescription (left right : Option Explanation) : Option Explanation :=
  if left.any Explanation.saysSomething then left else right

mutual

def Shape.merge (left : Shape) : Shape → Shape
  | .object rightEntries rightDescription =>
    match left with
    | .object entries description =>
      .object (mergeEntries entries rightEntries) (firstDescription description rightDescription)
    | other => other
  | .list rightItem _ =>
    match left with
    | .list item _ => .list (item.merge rightItem) none
    | other => other
  | .scalar _ _ => left
  | .enum _ _ => left

/-- Adds entries one by one; one whose name is known is merged with the entry that is there. -/
def mergeEntries (entries : List (Entry Shape)) : List (Entry Shape) → List (Entry Shape)
  | [] => entries
  | ⟨name, type, nullable, description⟩ :: rest =>
    let merged :=
      if entries.any (·.name == name) then
        entries.map fun known =>
          if known.name == name then
            ⟨name, known.type.merge type, known.nullable && nullable,
              firstDescription known.description description⟩
          else known
      else entries ++ [⟨name, type, nullable, description⟩]
    mergeEntries merged rest

end

end OperationLibrary
