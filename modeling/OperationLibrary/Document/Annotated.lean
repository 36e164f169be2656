import OperationLibrary.Decimal.Binary64
import OperationLibrary.Document.Persistable
import OperationLibrary.Keyed
import OperationLibrary.Syntax.TypeSystemParser

/-!
Annotated definitions. A definition is annotated by the directive that gives it an id; a query may
also say how long its answers may be kept. Annotated operations become functions of the library,
annotated fragments become types, and both are kept by their ids.
-/

namespace OperationLibrary

open Syntax

/-! ### Reading directives -/

/-- The first directive with this name. -/
def findDirective (directives : List Directive) (name : String) : Option Directive :=
  directives.find? (·.name == name)

namespace Syntax.Directive

/-- The value of the first argument with this name. -/
def argument? (directive : Directive) (name : String) : Option Value :=
  (directive.arguments.find? (·.name == name)).map Argument.value

def string? (directive : Directive) (name : String) : Option String :=
  match directive.argument? name with
  | some (.string text _) => some text
  | _ => none

def enum? (directive : Directive) (name : String) : Option String :=
  match directive.argument? name with
  | some (.enum value) => some value
  | _ => none

def boolean? (directive : Directive) (name : String) : Option Bool :=
  match directive.argument? name with
  | some (.boolean value) => some value
  | _ => none

end Syntax.Directive

inductive ExecutionStrategy where
  | dynamic
  | persisted
  deriving DecidableEq

def ExecutionStrategy.word : ExecutionStrategy → String
  | .dynamic => "DYNAMIC"
  | .persisted => "PERSISTED"

/-- How a query asks for its answers to be kept. -/
structure CacheStrategy where
  enabled : Bool
  secondsToLive : Decimal.Binary64
  deriving DecidableEq

/-- What the annotation of a definition says. -/
structure Tag where
  id : String
  description : String
  strategy : ExecutionStrategy

/-- Ids for annotations without one, numbered from zero. -/
abbrev IdSupply := Nat → String

/-- The strategy an annotation asks for; words without a meaning are reported. -/
def readStrategy (topic : Topic) : Option String → Logged ExecutionStrategy
  | none => pure .dynamic
  | some "DYNAMIC" => pure .dynamic
  | some "PERSISTED" => pure .persisted
  | some word => do
    Logged.warn topic ("Unknown executionStrategy " ++ word ++ ", falling back to DYNAMIC")
    return .dynamic

/-- The annotation in a directive and the number of the next id to supply. -/
def readTag (topic : Topic) (supply : IdSupply) (next : Nat) (directive : Directive) :
    Logged (Tag × Nat) := do
  let (id, next) := match directive.string? "id" with
    | some id => (id, next)
    | none => (supply next, next + 1)
  let strategy ← readStrategy topic (directive.enum? "executionStrategy")
  return (⟨id, (directive.string? "doc").getD "", strategy⟩, next)

/-- The last lifetime that is written as a number, and the last switch that is a boolean. -/
def readCacheFields (fields : List (String × Value)) : Option Decimal.Binary64 × Bool :=
  fields.foldl (fun (lifetime, enabled) field =>
    match field with
    | ("timeToLiveSeconds", .int digits) | ("timeToLiveSeconds", .float digits) =>
      (some (Decimal.Binary64.ofText digits), enabled)
    | ("enabled", .boolean value) => (lifetime, value)
    | _ => (lifetime, enabled)) (none, false)

/-- The cache settings in the directives of a query, and whether an old answer may stand in for an
error. -/
def readCacheControl (directives : List Directive) : Option CacheStrategy × Bool :=
  match findDirective directives cacheDirective with
  | none => (none, false)
  | some directive =>
    let fallback := (directive.boolean? "fallbackOnError").getD false
    match directive.argument? "cacheStrategy" with
    | some (.object fields) =>
      let (lifetime, enabled) := readCacheFields fields
      (lifetime.map fun seconds => ⟨enabled, seconds⟩, fallback)
    | _ => (none, fallback)

/-! ### Annotated definitions -/

structure AnnotatedOperation where
  tag : Tag
  /-- The name of the operation, or a stand-in for it. -/
  name : String
  operation : Operation
  text : String
  textWithoutTooling : String
  persistableText : String
  cache : Option CacheStrategy
  fallbackOnError : Bool

inductive FetchMethod where
  | get
  | post
  deriving DecidableEq

def FetchMethod.word : FetchMethod → String
  | .get => "GET"
  | .post => "POST"

/-- The method of a word; whatever is not the one is the other. -/
def FetchMethod.ofWord (word : String) : FetchMethod :=
  if word = "GET" then .get else .post

/-- Persisted operations whose answers may be kept are fetched so that they can be. -/
def AnnotatedOperation.fetchMethod (function : AnnotatedOperation) : FetchMethod :=
  if function.tag.strategy = .persisted ∧
      (function.cache.any fun cache => cache.secondsToLive.isPositive) then .get
  else .post

structure AnnotatedFragment where
  tag : Tag
  fragment : Fragment
  text : String
  textWithoutTooling : String

/-- The annotated definitions of a document by their ids. -/
structure Annotations where
  functions : List (String × AnnotatedOperation)
  fragments : List (String × AnnotatedFragment)

/-- The stand-in for the name of an anonymous definition. -/
def unknownName : String := "unknown"

def warnDuplicate (topic : Topic) (what id kept : String) (known : Bool) : Logged Unit :=
  if known then
    Logged.warn topic ("Duplicate " ++ what ++ " id " ++ id ++ ", keeping " ++ kept)
  else pure ()

/-- Adds a definition if it is annotated. A later definition takes the place of an earlier one with
the same id. -/
def Annotations.add (topic : Topic) (supply : IdSupply) (document : Document)
    (state : Annotations × Nat) (definition : Executable) : Logged (Annotations × Nat) := do
  let (found, next) := state
  match findDirective definition.directives annotationDirective with
  | none => return state
  | some directive =>
    let (tag, next) ← readTag topic supply next directive
    let name := definition.name?.getD unknownName
    let without := definition.stripOwnTooling.print
    match definition with
    | .fragment fragment =>
      warnDuplicate topic "fragment" tag.id name
        (Keyed.contains tag.id found.fragments)
      let entry : AnnotatedFragment := ⟨tag, fragment, fragment.print, without⟩
      return ({ found with fragments := Keyed.set tag.id entry found.fragments }, next)
    | .operation operation =>
      let (cache, fallback) :=
        if operation.kind = .query then readCacheControl operation.directives else (none, false)
      warnDuplicate topic "function" tag.id name
        (Keyed.contains tag.id found.functions)
      let persistable ← persistableOperation document operation
      let entry : AnnotatedOperation :=
        ⟨tag, name, operation, operation.print, without, persistable.text, cache, fallback⟩
      return ({ found with functions := Keyed.set tag.id entry found.functions }, next)

/-- The annotated operations and fragments of a document. -/
def extractAnnotations (topic : Topic) (supply : IdSupply) (document : Document) :
    Logged Annotations := do
  let (found, _) ← document.executables.foldlM (Annotations.add topic supply document)
    ((⟨[], []⟩ : Annotations), 0)
  return found

/-- The annotations of a text, none where it cannot be read. -/
def extractAnnotationsOfText (topic : Topic) (supply : IdSupply) (source : String) :
    Logged Annotations :=
  match Document.parse source with
  | .ok document => extractAnnotations topic supply document
  | .error error => do
    Logged.warn topic ("Unable to parse operations document: " ++ error.message)
    return ⟨[], []⟩

/-! ### Names of functions -/

/-- An operation without a name, which no function can be named after. -/
structure MissingName where
  kind : String
  deriving DecidableEq

def MissingName.message (error : MissingName) : String :=
  "Anonymous " ++ error.kind ++ " cannot be turned into a function; give it a name"

/-- What the names of functions start with, by the kind of the operation. -/
def functionPrefix : String → String
  | "query" => "fetch"
  | "mutation" => "execute"
  | "subscription" => "subscribeTo"
  | _ => ""

/-- The name of the function for an operation with a kind and a name. -/
def calledName (kind name : String) : String :=
  functionPrefix kind ++ Text.capitalizeFirst name

/-- The name of the function for an operation that should have a name. -/
def functionName (kind : String) (name : Option String) : Except MissingName String :=
  match name with
  | none | some "" => .error ⟨kind⟩
  | some name => .ok (calledName kind name)

end OperationLibrary
