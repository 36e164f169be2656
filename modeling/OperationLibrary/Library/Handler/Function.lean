import OperationLibrary.Library.HandlerOperation
import OperationLibrary.Library.OutputFile

/-!
Handlers that are functions of their own: one that answers requests by calling operations, and one
that takes the events of a subscription.
-/

namespace OperationLibrary.FunctionHandler

/-! ### Requests -/

/-- The value of a variable in a request. -/
def variableLine (options : HandlerOptions) (v : HandlerVariable) : String :=
  if options.postsVariables then
    "  const " ++ v.variableName ++ " = eventBodyJson?." ++ v.name ++ ";"
  else "  const " ++ v.variableName ++ " = " ++ v.fromMember "event.queryStringParameters" ++ ";"

/-- The refusal of requests without a required variable. -/
def requiredLines (operation : HandlerOperation) : List String :=
  if operation.missingCondition.isEmpty then []
  else
    [
      "",
      "  if (" ++ operation.missingCondition ++ ") \x7b",
      "    return \x7b",
      "      statusCode: 422,",
      "      body: JSON.stringify(\x7b",
      "        error: 'You must supply parameters for: " ++ operation.requiredNames ++ "'",
      "      \x7d),",
      "    \x7d;",
      "  \x7d"
    ]

/-- The call of an operation with the variables in front of it. -/
def callLines (options : HandlerOptions) (operation : HandlerOperation) : List String :=
  let name := operation.name
  "" :: operation.parameters.map (variableLine options) ++ requiredLines operation ++
  [
    "",
    "  const \x7b errors: " ++ name ++ "Errors, data: " ++ name ++ "Data \x7d =",
    "    await NetlifyGraph." ++ operation.functionName ++ "(\x7b " ++ operation.callMembers ++
      " \x7d, \x7b accessToken: accessToken \x7d);",
    "",
    "  if (" ++ name ++ "Errors) \x7b",
    "    console.error(JSON.stringify(" ++ name ++ "Errors, null, 2));",
    "  \x7d",
    "",
    "  console.log(JSON.stringify(" ++ name ++ "Data, null, 2));"
  ]

/-- How a client sends the variables. -/
def clientOptionLines (options : HandlerOptions) (operation : HandlerOperation) : List String :=
  if operation.isPost then
    [
      "      method: \"" ++ operation.method ++ "\","
    ] ++
    if options.usesClientAuth then
      [
        "      body: JSON.stringify(\x7b " ++ operation.bodyMembers ++ " \x7d),",
        "      headers: \x7b",
        "        ...netlifyGraphAuth?.authHeaders()",
        "      \x7d"
      ]
    else ["      body: JSON.stringify(\x7b " ++ operation.bodyMembers ++ " \x7d)"]
  else ["      method: \"" ++ operation.method ++ "\""]

/-- A function with which a client calls the handler. -/
def clientLines (options : HandlerOptions) (operation : HandlerOperation) : List String :=
  [
    "async function " ++ operation.functionName ++ "(" ++ options.clientParameters ++ ") \x7b",
    "  const \x7b " ++ operation.variableNames ++ " \x7d = params || \x7b\x7d;",
    "  const resp = await fetch(`/.netlify/functions/" ++ operation.name ++ operation.addressEnd ++
      "`,",
    "    \x7b"
  ] ++
  clientOptionLines options operation ++
  [
    "    \x7d);",
    "",
    "  const text = await resp.text();",
    "",
    "  return JSON.parse(text);",
    "\x7d"
  ]

/-- The lines of the handler in a file of this name. -/
def lines (settings : Settings) (options : HandlerOptions) (filename : String)
    (operations : List HandlerOperation) : List String :=
  let style := settings.moduleStyle
  [
    style.importing "NetlifyGraph" settings.requirePath ++ ";",
    "",
    style.exporting "handler" ++ " = async (event) => \x7b",
    "  // By default, all API calls use no authentication",
    "  let accessToken;",
    "",
    "  //// If you want to use the client's accessToken when making API calls on the user's behalf:",
    "  // accessToken = event.headers[\"authorization\"]?.split(\" \")[1]",
    "",
    "  //// If you want to use the API with your own access token:",
    "  // accessToken = event.netlifyGraphToken",
    "",
    "  const eventBodyJson = JSON.parse(event.body || \"\x7b\x7d\");"
  ] ++
  operations.flatMap (callLines options) ++
  [
    "",
    "  return \x7b",
    "    statusCode: 200,",
    "    body: JSON.stringify(\x7b",
    "      success: true,"
  ] ++
  (operations.flatMap fun operation =>
    [
      "      " ++ operation.name ++ "Errors: " ++ operation.name ++ "Errors,",
      "      " ++ operation.name ++ "Data: " ++ operation.name ++ "Data,"
    ]) ++
  [
    "    \x7d),",
    "    headers: \x7b",
    "      'content-type': 'application/json',",
    "    \x7d,",
    "  \x7d;",
    "\x7d;",
    "",
    "/**",
    " * Client-side invocations:",
    " * Call your Netlify function from the browser (after saving",
    " * the code to `" ++ filename ++ "`) with these helpers:",
    " */",
    "",
    "/**"
  ] ++
  operations.flatMap (clientLines options) ++ ["*/"]

/-! ### Events -/

/-- The lines of the handler for the events of a subscription. -/
def webhookLines (settings : Settings) (name : String) : List String :=
  let style := settings.moduleStyle
  [
    style.importing "NetlifyGraph" settings.requirePath ++ ";",
    "",
    style.exporting "handler" ++ " = async (event, context) => \x7b",
    "  const payload = NetlifyGraph.parseAndVerify" ++ name ++ "Event(event);",
    "",
    "  if (!payload) \x7b",
    "    return \x7b",
    "      statusCode: 412,",
    "      data: JSON.stringify(\x7b",
    "        success: false,",
    "        error: 'Unable to verify payload signature',",
    "      \x7d),",
    "    \x7d;",
    "  \x7d",
    "",
    "  const \x7b errors: " ++ name ++ "Errors, data: " ++ name ++ "Data \x7d = payload;",
    "",
    "  if (" ++ name ++ "Errors) \x7b",
    "    console.error(" ++ name ++ "Errors);",
    "  \x7d",
    "",
    "  console.log(" ++ name ++ "Data);",
    "",
    "  /**",
    "   * If you want to unsubscribe from this webhook",
    "   * in order to stop receiving new events,",
    "   * simply return status 410, e.g.:",
    "   *",
    "   * return \x7b",
    "   *   statusCode: 410,",
    "   *   body: JSON.stringify(null),",
    "   *   headers: \x7b",
    "   *     'content-type': 'application/json',",
    "   *   \x7d,",
    "   * \x7d",
    "   */",
    "",
    "  return \x7b",
    "    statusCode: 200,",
    "    body: JSON.stringify(\x7b",
    "      successfullyProcessedIncomingWebhook: true,",
    "    \x7d),",
    "    headers: \x7b",
    "      'content-type': 'application/json',",
    "    \x7d,",
    "  \x7d;",
    "\x7d;"
  ]

end OperationLibrary.FunctionHandler
