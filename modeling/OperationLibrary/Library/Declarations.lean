import OperationLibrary.Library.Runtime

/-!
The type declarations of a library: types for the answers and variables of its functions, the
functions themselves, and the interface of all functions together.
-/

namespace OperationLibrary.LibraryDeclarations

open LibraryRuntime (descriptionLines eventFunctionName heading)

/-! ### Fixed parts -/

/-- Types that all libraries declare. -/
def commonLines : List String :=
  [
    "",
    "export type NetlifyGraphFunctionOptions = \x7b",
    "  /**",
    "   * The accessToken to use for the request",
    "   */",
    "  accessToken?: string;",
    "  /**",
    "   * The siteId to use for the request",
    "   * @default process.env.SITE_ID",
    "   */",
    "  siteId?: string;",
    "\x7d",
    "",
    "export type WebhookEvent = \x7b",
    "  body: string;",
    "  headers: Record<string, string | null | undefined>;",
    "\x7d;",
    "",
    "export type GraphQLError = \x7b",
    "  \"path\": Array<string | number>;",
    "  \"message\": string;",
    "  \"extensions\": Record<string, unknown>;",
    "\x7d;"
  ]

/-! ### Types and functions -/

/-- The name of the type of the answers to a function. -/
def typeName (function : LibraryFunction) : String :=
  Text.capitalizeFirst function.operationName

/-- The type of a fragment behind a blank line. -/
def typeLines (type : LibraryType) : List String :=
  [
    "",
    "/**",
    " * " ++ SourceText.commentBody type.source.tag.description,
    " */",
    "export type " ++ Text.capitalizeFirst type.source.fragment.name ++ " = " ++ type.signature ++
      ";"
  ]

/-- The event type of a subscription and the function that verifies events. -/
def eventLines (function : LibraryFunction) : List String :=
  let event := typeName function ++ "Event"
  [
    "",
    "export type " ++ event ++ " = " ++ function.answerSignature ++ ";",
    "",
    "/**",
    " * Verify the " ++ function.operationName ++
      " event body is signed securely, and then parse the result.",
    " */",
    "export function " ++ eventFunctionName function ++ "(",
    "  /** A Netlify Handler Event */",
    "  event: WebhookEvent,",
    "  options?: \x7b",
    "    /**",
    "     * Defaults to the value of the NETLIFY_GRAPH_WEBHOOK_SECRET environment variable.",
    "     */",
    "    webhookSecret?: string | null | undefined;",
    "  \x7d",
    "): null | " ++ event ++ ";"
  ]

/-- The type of the variables that a function takes. -/
def variablesType (function : LibraryFunction) : String :=
  if function.hasVariables then typeName function ++ "Input" else "Record<string, never>"

/-- The types of a query or mutation and the function that sends it. -/
def requestLines (function : LibraryFunction) : List String :=
  let type := typeName function
  (if function.hasVariables then
    ["", "export type " ++ type ++ "Input = " ++ function.variablesSignature ++ ";"]
  else []) ++
  [
    "",
    "export type " ++ type ++ " = " ++ function.answerSignature ++ ";",
    ""
  ] ++
  descriptionLines "" function ++
  ["export function " ++ function.name ++ "("] ++
  (if function.hasVariables then []
  else
    [
      "  /**",
      "   * Pass `\x7b\x7d` as no variables are defined for this function.",
      "   */"
    ]) ++
  [
    "  variables: " ++ variablesType function ++ ",",
    "  options?: NetlifyGraphFunctionOptions",
    "): Promise<" ++ type ++ ">;"
  ]

def functionLines (function : LibraryFunction) : List String :=
  if function.isSubscription then eventLines function else requestLines function

/-- The entry of a function in the interface of all functions. -/
def entryLines (function : LibraryFunction) : List String :=
  if function.isSubscription then
    let name := eventFunctionName function
    [
      "  /**",
      "   * Verify the event body is signed securely, and then parse the result.",
      "   */",
      "  " ++ name ++ ": typeof " ++ name ++ ";"
    ]
  else
    descriptionLines "  " function ++
      ["  " ++ function.name ++ ": typeof " ++ function.name ++ ";"]

/-! ### The declarations -/

/-- The lines of the declarations. -/
def lines (functions : List LibraryFunction) (types : List LibraryType) : List String :=
  heading ++ commonLines ++ types.flatMap typeLines ++ functions.flatMap functionLines ++
  [
    "",
    "export interface Functions \x7b"
  ] ++
  functions.flatMap entryLines ++
  [
    "\x7d",
    "",
    "export const functions: Functions;",
    "",
    "export default functions;"
  ]

end OperationLibrary.LibraryDeclarations
