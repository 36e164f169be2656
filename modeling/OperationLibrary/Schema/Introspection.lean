import OperationLibrary.Keyed
import OperationLibrary.Schema.Definitions

/-!
The schema in a server's answer about itself. Every type that is referred to has to be among the
listed ones, and types have to fit their places: input types at arguments and input fields, output
types at fields, interfaces among interfaces and objects among the members of a union.
-/

namespace OperationLibrary

open Syntax

/-- Why an answer gives no schema. -/
inductive IntrospectionFault where
  | notAnObject
  | missing (key : String)
  | malformed
  | flawed (flaw : SchemaFlaw)
  deriving DecidableEq

namespace Introspection

abbrev Read (α : Type) := Except IntrospectionFault α

/-! ### Parts of answers -/

/-- The members of an object that something has to be. -/
def members (other : IntrospectionFault) : Json → Read (List (String × Json))
  | .object ms => return ms
  | _ => throw other

/-- The value of a key, `null` where there is none. -/
def valueOr (ms : List (String × Json)) (key : String) : Json :=
  (Json.lookup key ms).getD .null

def required (ms : List (String × Json)) (key : String) : Read Json :=
  match Json.lookup key ms with
  | some value => return value
  | none => throw (.missing key)

/-- The value of a key that may not be `null`. -/
def present (ms : List (String × Json)) (key : String) : Read Json :=
  match valueOr ms key with
  | .null => throw .malformed
  | value => return value

/-- The items of a value that has to be a list; an empty object or text has none. -/
def items : Json → Read (List Json)
  | .array xs => return xs
  | .object [] | .string "" => return []
  | _ => throw .malformed

def explanationIn (ms : List (String × Json)) : Option Explanation :=
  match valueOr ms "description" with
  | .null => none
  | .string text => some (.text text)
  | value => some (.other value)

/-! ### Names -/

/-- The text of a name that `fault?` finds nothing wrong with. -/
def checkName (fault? : String → Option NameFault) : Json → Read String
  | .string name =>
    match fault? name with
    | some fault => throw (.flawed (.name fault))
    | none => return name
  | _ => throw .malformed

/-- Parts of one owner by their names. The name of a part is taken before the part itself is read,
but that it may stand for a part is another matter. -/
def namedParts {α : Type} (part : List (String × Json) → Read α) (entries : Json) :
    Read (List (Json × α)) := do
  (← items entries).mapM fun entry => do
    let ms ← members .malformed entry
    let name ← required ms "name"
    let value ← part ms
    match name with
    | .array _ | .object _ => throw .malformed
    | _ => return (name, value)

/-- The parts under their names, the last one where a name is repeated. -/
def withNames {α : Type} (fault? : String → Option NameFault) (parts : List (Json × α)) :
    Read (List (String × α)) := do
  let named ← parts.mapM fun part => return (← checkName fault? part.1, part.2)
  return Keyed.ofList named

/-! ### References -/

/-- A reference to a type, whose wrappers nest at most `rounds` deep. -/
def typeRef : Nat → Json → Read TypeRef
  | 0, _ => throw .malformed
  | rounds + 1, reference => do
    let ms ← members .notAnObject reference
    match valueOr ms "kind" with
    | .string "LIST" => return .list (← typeRef rounds (← inner ms))
    | .string "NON_NULL" =>
      let nullable ← typeRef rounds (← inner ms)
      if nullable.isNonNull then throw .malformed else return .nonNull nullable
    | _ =>
      match valueOr ms "name" with
      | .string name => if name.isEmpty then throw .malformed else return .named name
      | _ => throw .malformed
where
  inner (ms : List (String × Json)) : Read Json :=
    let value := valueOr ms "ofType"
    if value.isTruthy then return value else throw .malformed

/-- A reference to a type that is listed. -/
def knownRef (listed : List NamedType) (reference : Json) : Read (TypeRef × NamedType) := do
  let type ← typeRef (reference.depth + 1) reference
  match listed.find? (·.name == type.base) with
  | some named => return (type, named)
  | none => throw .malformed

/-- A reference to a listed type itself, without wrappers. -/
def knownName (listed : List NamedType) (fits : NamedType → Bool) (reference : Json) :
    Read String := do
  match ← knownRef listed reference with
  | (.named name, type) => if fits type then return name else throw .malformed
  | _ => throw .malformed

/-! ### Fields and arguments -/

/-- A default value is the text of a constant; its value does not matter here. -/
def checkDefault (ms : List (String × Json)) : Read Unit :=
  match valueOr ms "defaultValue" with
  | .null => return ()
  | .string source =>
    match Value.parseConstant source with
    | .ok _ => return ()
    | .error error => throw (.flawed (.unreadable source error))
  | _ => throw .malformed

def inputPart (listed : List NamedType) (ms : List (String × Json)) :
    Read (String → InputField) := do
  let (type, named) ← knownRef listed (← required ms "type")
  if named.isInput then
    checkDefault ms
    return fun name => ⟨name, explanationIn ms, type⟩
  else throw .malformed

def arguments (listed : List NamedType) (entries : Json) : Read (List InputField) := do
  let parts ← withNames nameFault? (← namedParts (inputPart listed) entries)
  return parts.map fun (name, part) => part name

def outputPart (listed : List NamedType) (ms : List (String × Json)) :
    Read (String → OutputField) := do
  let (type, named) ← knownRef listed (← required ms "type")
  if named.isOutput then
    let arguments ← arguments listed (← present ms "args")
    return fun name => ⟨name, explanationIn ms, arguments, type⟩
  else throw .malformed

/-- The fields of a type. What is wrong inside a field is reported as a flaw of the type, what is
wrong with the name of one as it is. -/
def fields {α : Type} (type : String) (part : List (String × Json) → Read (String → α))
    (entries : Json) : Read (List α) := do
  let parts ← (namedParts part entries).mapError fun
    | .flawed flaw => .flawed (.fields type flaw)
    | _ => .malformed
  return (← withNames nameFault? parts).map fun (name, part) => part name

def isInterface (type : NamedType) : Bool :=
  type.isAbstract && type.outputFields?.isSome

def interfaces (listed : List NamedType) (ms : List (String × Json)) : Read (List String) := do
  match valueOr ms "interfaces", valueOr ms "kind" with
  | .null, .string "INTERFACE" => return []
  | value, _ => (← items value).mapM (knownName listed isInterface)

/-! ### Types -/

/-- The name and kind of a listed type, its parts apart. A scalar, an object or an enum under a
reserved name is what the name stands for; no other kind of type may have such a name. -/
def outline (entry : Json) : Read (String × NamedType) := do
  let ms ← members .malformed entry
  let name ← required ms "name"
  let described := fun (content : TypeContent) => (checkName nameFault? name).map fun name =>
    (⟨name, explanationIn ms, content⟩ : NamedType)
  let type ← match valueOr ms "kind", name.string?.bind reservedType? with
    | .string "SCALAR", some type | .string "OBJECT", some type => pure type
    | .string "SCALAR", none => described .scalar
    | .string "OBJECT", none => described (.object [] [])
    | .string "INTERFACE", none => described (.interface [] [])
    | .string "UNION", none => do
      let _ ← present ms "possibleTypes"
      described (.union [])
    | .string "ENUM", reserved => do
      let entries ← present ms "enumValues"
      match reserved with
      | some type => pure type
      | none => do
        let values ← namedParts (fun _ => return ()) entries
        let type ← described (.enum [] none)
        let values ← withNames enumValueFault? values
        pure { type with content := .enum (values.map Prod.fst) none }
    | .string "INPUT_OBJECT", none => do
      let _ ← present ms "inputFields"
      described (.input [])
    | _, _ => throw .malformed
  return (type.name, type)

/-- A listed type with its parts, which may refer to all types in `listed`. -/
def complete (listed : List NamedType) (entry : Json) (type : NamedType) : Read NamedType := do
  if (reservedType? type.name).isSome then return type
  else
    let ms ← members .malformed entry
    let content ← match type.content with
      | .object .. => do
        let interfaces ← asPart (interfaces listed ms)
        pure (.object interfaces (← outputFields ms))
      | .interface .. => do
        let interfaces ← asPart (interfaces listed ms)
        pure (.interface interfaces (← outputFields ms))
      | .union _ => do
        let entries ← asPart (items (valueOr ms "possibleTypes"))
        pure (.union (← asPart (entries.mapM (knownName listed NamedType.isObject))))
      | .input _ => do
        pure (.input (← fields type.name (inputPart listed) (valueOr ms "inputFields")))
      | other => pure other
    return { type with content }
where
  /-- Every fault in a part makes the type malformed. -/
  asPart {α : Type} (read : Read α) : Read α :=
    read.mapError fun _ => .malformed
  outputFields (ms : List (String × Json)) : Read (List OutputField) :=
    fields type.name (outputPart listed) (valueOr ms "fields")

/-! ### The schema -/

def root (listed : List NamedType) (ms : List (String × Json)) (key : String) :
    Read (Option String) :=
  match valueOr ms key with
  | .null => return none
  | reference => some <$> knownName listed NamedType.isObject reference

/-- The places that a directive names; those of an object are its keys. -/
def locations : Json → Read (List Json)
  | .array xs => return xs
  | .object ms => return ms.map fun m => .string m.1
  | .string text => return text.toList.map fun c => .string c.toString
  | _ => throw .malformed

def isLocation : Json → Bool
  | .string name => directiveLocations.contains name
  | _ => false

def directive (listed : List NamedType) (entry : Json) : Read KnownDirective := do
  let ms ← members .notAnObject entry
  let entries ← present ms "args"
  let places ← present ms "locations"
  let name ← required ms "name"
  let places ← locations places
  let parts ← namedParts (inputPart listed) entries
  let name ← checkName nameFault? name
  if places.all isLocation then
    let parts ← withNames nameFault? parts
    return ⟨name, parts.map fun (name, part) => part name⟩
  else throw .malformed

def directives (listed : List NamedType) (value : Json) : Read (List KnownDirective) := do
  if value.isTruthy then (← directiveItems value).mapM (directive listed) else return []
where
  /-- The keys of an object, and the characters of a text, are no directives either. -/
  directiveItems : Json → Read (List Json)
    | .array xs => return xs
    | .object _ | .string _ => throw .notAnObject
    | _ => throw .malformed

end Introspection

open Introspection in
/-- The schema in an answer, which may be wrapped in `data`. -/
def Schema.ofIntrospection (answer : Json) : Except IntrospectionFault Schema := do
  let outer ← members .notAnObject answer
  let data ← members .malformed ((Json.lookup "data" outer).getD answer)
  let described ← members .malformed (valueOr data "__schema")
  let entries ← items (← required described "types")
  let outlines ← entries.mapM fun entry => do
    let (name, type) ← outline entry
    return (name, (entry, type))
  let unique := (Keyed.ofList outlines).map Prod.snd
  let listed := unique.map Prod.snd
  let query ← root listed described "queryType"
  let mutation ← root listed described "mutationType"
  let subscription ← root listed described "subscriptionType"
  let known ← Introspection.directives listed (valueOr described "directives")
  let types ← unique.mapM fun (entry, type) => complete listed entry type
  let always := ["String", "Boolean"].filter fun name => !(listed.map NamedType.name).contains name
  return {
    types := types ++ always.map .scalar
    query, mutation, subscription
    directives := known }

end OperationLibrary
