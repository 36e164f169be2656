import OperationLibrary.Schema.Name
import OperationLibrary.Syntax.SyntaxError

/-!
Flaws of schemas: what is wrong with one part of the description of a schema, in words and with
the place in the text where that part stands.
-/

namespace OperationLibrary

open Syntax

/-! ### Arguments of directives -/

inductive ArgumentCause where
  | notText (written : String)
  | null
  | missing
  deriving DecidableEq

/-- Why an argument does not give the text that is asked for. The offset counts the characters in
front of what is wrong; values with parts do not have one. -/
structure ArgumentFault where
  argument : String
  cause : ArgumentCause
  offset : Option Nat
  deriving DecidableEq

def ArgumentFault.message (fault : ArgumentFault) : String :=
  "Argument " ++ Text.quoted fault.argument ++ match fault.cause with
    | .notText written =>
      " has invalid value: String cannot represent a non string value: " ++ written
    | .null => " has invalid value: Expected value of non-null type 'String!' not to be None."
    | .missing => " of required type 'String!' was not provided."

/-! ### Flaws -/

inductive SchemaFlaw where
  /-- A text that cannot be read. -/
  | unreadable (source : String) (error : SyntaxError)
  /-- A directive in the definitions of `source` without a proper argument. -/
  | argument (source : String) (fault : ArgumentFault)
  | name (fault : NameFault)
  /-- A flaw in the fields of a type. -/
  | fields (type : String) (flaw : SchemaFlaw)
  /-- A flaw in the values of an enum. -/
  | values (type : String) (flaw : SchemaFlaw)
  deriving DecidableEq

namespace SchemaFlaw

/-- The place of a flaw and the text it counts in. A flaw in fields or values is reported as one
of the type, which has no place. -/
def place? : SchemaFlaw → Option (String × Location)
  | .unreadable source error => some (source, error.place source)
  | .argument source fault => fault.offset.map fun n => (source, Location.ofOffset source n)
  | .name _ | .fields .. | .values .. => none

/-- A message with its place, where there is one. -/
def reportAt (message : String) : Option (String × Location) → String
  | some (source, place) => place.report source message
  | none => message

/-- The wording of a flaw; one in the fields or values of a type carries the whole report of what
is wrong there. -/
def message : SchemaFlaw → String
  | .unreadable _ error => error.message
  | .argument _ fault => fault.message
  | .name fault => fault.message
  | .fields type flaw => type ++ " fields cannot be resolved. " ++ reportAt flaw.message flaw.place?
  | .values type flaw => type ++ " values cannot be resolved. " ++ reportAt flaw.message flaw.place?

/-- The whole report of a flaw. -/
def report (flaw : SchemaFlaw) : String :=
  reportAt flaw.message flaw.place?

end SchemaFlaw

end OperationLibrary
