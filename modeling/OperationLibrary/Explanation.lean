import OperationLibrary.Json.Printer

/-!
What is said about a part of a schema, and about the parts of shapes that are made from it.
Definitions say it in words. A server's answer about itself may hold anything in the place of
words, and that is passed on as it is until something has to be made of it.
-/

namespace OperationLibrary

inductive Explanation where
  | text (text : String)
  | other (value : Json)
  deriving Inhabited

namespace Explanation

/-- Whether anything is said; empty and zero values say nothing. -/
def saysSomething : Explanation → Bool
  | .text said => !said.isEmpty
  | .other value => value.isTruthy

/-- Words, or nothing at all. -/
def isWritable : Explanation → Bool
  | .text _ => true
  | .other value => !value.isTruthy

/-- Lists and objects are not compared with anything. -/
def isComparable : Explanation → Bool
  | .other (.array _) | .other (.object _) => false
  | _ => true

/-- Whether two explanations are the same. -/
def same : Explanation → Explanation → Bool
  | .text left, .text right => left == right
  | .other left, .other right => left.canonicalText == right.canonicalText
  | _, _ => false

/-- The words of an explanation, empty where there are none. -/
def words : Explanation → String
  | .text said => said
  | .other _ => ""

end Explanation

end OperationLibrary
