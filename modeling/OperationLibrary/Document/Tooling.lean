import OperationLibrary.Syntax.Ast

/-!
Tooling directives speak to this library and not to the server. They can be taken off a definition
itself, or off everything inside it as well.
-/

namespace OperationLibrary

open Syntax

def annotationDirective : String := "netlify"

def cacheDirective : String := "netlifyCacheControl"

def isTooling (directive : Directive) : Bool :=
  directive.name == annotationDirective || directive.name == cacheDirective

def withoutTooling (directives : List Directive) : List Directive :=
  directives.filter fun directive => !isTooling directive

/-- The definition without tooling directives of its own. -/
def Syntax.Executable.stripOwnTooling : Executable → Executable
  | .operation o => .operation { o with directives := withoutTooling o.directives }
  | .fragment f => .fragment { f with directives := withoutTooling f.directives }

mutual

/-- The selection without tooling directives at any depth. -/
def Syntax.Selection.stripTooling : Selection → Selection
  | .field head none => .field { head with directives := withoutTooling head.directives } none
  | .field head (some selections) =>
    .field { head with directives := withoutTooling head.directives }
      (some (stripToolingAll selections))
  | .spread fragment directives => .spread fragment (withoutTooling directives)
  | .inline condition directives selections =>
    .inline condition (withoutTooling directives) (stripToolingAll selections)

def stripToolingAll : List Selection → List Selection
  | [] => []
  | selection :: rest => selection.stripTooling :: stripToolingAll rest

end

/-- The operation without tooling directives at any depth. -/
def Syntax.Operation.stripTooling (operation : Operation) : Operation :=
  { operation with
    variableDefinitions := operation.variableDefinitions.map fun v =>
      { v with directives := withoutTooling v.directives }
    directives := withoutTooling operation.directives
    selections := stripToolingAll operation.selections }

end OperationLibrary
