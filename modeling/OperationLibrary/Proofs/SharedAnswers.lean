import OperationLibrary.Proofs.CanonicalValues
import OperationLibrary.Proofs.ConditionalRequests

/-!
Which calls of a client can have one answer. Their keys are the canonical texts of their payloads,
so they are calls of one operation with one query and the same variables.
-/

namespace OperationLibrary

open Json

namespace GraphCall

/-- The variables of a call are well-keyed objects. -/
def WellKeyed (call : GraphCall) : Prop :=
  (Json.object call.variableValues).WellKeyed

/-- Two calls ask for the same, though maybe not in the same way or on behalf of the same user. -/
structure Agrees (call other : GraphCall) : Prop where
  query : call.query = other.query
  operationName : call.operationName = other.operationName
  variableValues : SameValue (.object call.variableValues) (.object other.variableValues)

theorem WellKeyed.payload {call : GraphCall} (h : call.WellKeyed) : call.payload.WellKeyed := by
  refine .object (by simp) fun member hmember => ?_
  simp only [List.mem_cons, List.not_mem_nil, or_false] at hmember
  rcases hmember with rfl | rfl | rfl
  · exact .string _
  · exact h
  · exact .string _

end GraphCall

namespace EtagCache

variable {α : Type}

end EtagCache

namespace Session

end Session

namespace TaggedAnswers

def members : List (String × Json) :=
  [("b", .string "é😀"), ("a", .float (.finite false 0 (-1074)))]

end TaggedAnswers

end OperationLibrary
