import OperationLibrary.Syntax.Token.Scanner
import OperationLibrary.Text.Quoted

/-!
Names in schemas. A name starts with a letter or a low line and goes on with letters, digits and
low lines; the values of an enum may not have the names of the other constants.
-/

namespace OperationLibrary

open Syntax

/-- What is wrong with a name. -/
inductive NameFault where
  | empty
  | character (name : String)
  | start (name : String)
  | constant (name : String)
  deriving DecidableEq

def NameFault.message : NameFault → String
  | .empty => "Expected name to be a non-empty string."
  | .character name =>
    "Names must only contain [_a-zA-Z0-9] but " ++ Text.quoted name ++ " does not."
  | .start name => "Names must start with [_a-zA-Z] but " ++ Text.quoted name ++ " does not."
  | .constant name => "Enum values cannot be named: " ++ name ++ "."

/-- What is wrong with a name, if anything. Its start is looked at last. -/
def nameFault? (name : String) : Option NameFault :=
  match name.toList with
  | [] => some .empty
  | first :: rest =>
    if !rest.all isNameContinue then some (.character name)
    else if !isNameStart first then some (.start name)
    else none

/-- What is wrong with the name of an enum value, if anything. -/
def enumValueFault? (name : String) : Option NameFault :=
  (nameFault? name).or
    (if ["true", "false", "null"].contains name then some (.constant name) else none)

end OperationLibrary
