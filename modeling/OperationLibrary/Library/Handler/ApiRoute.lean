import OperationLibrary.Library.HandlerOperation
import OperationLibrary.Library.OutputFile

/-!
Handlers that are routes of an application's interface: one that answers requests by calling
operations, and one that takes the events of a subscription.
-/

namespace OperationLibrary.ApiRoute

/-- The imports and the first line of a route. -/
def openingLines (settings : Settings) : List String :=
  let style := settings.moduleStyle
  let request := settings.typeMark ": NextApiRequest"
  let response := settings.typeMark ": NextApiResponse"
  (if settings.language == .typeScript then
    ["import type \x7b NextApiRequest, NextApiResponse \x7d from \"next\";"]
  else []) ++
  [
    style.importing "NetlifyGraph" settings.requirePath ++ ";",
    "",
    style.exporting "handler" ++ " = async (req" ++ request ++ ", res" ++ response ++ ") => \x7b"
  ]

/-! ### Requests -/

/-- The value of a variable in a request. -/
def variableLine (options : HandlerOptions) (v : HandlerVariable) : String :=
  if options.postsVariables then
    "  const " ++ v.variableName ++ " = eventBodyJson?." ++ v.name ++ ";"
  else "  const " ++ v.variableName ++ " = " ++ v.fromMember "req.query" ++ ";"

/-- The refusal of requests without a required variable. -/
def requiredLines (operation : HandlerOperation) : List String :=
  if operation.missingCondition.isEmpty then []
  else
    [
      "",
      "  if (" ++ operation.missingCondition ++ ") \x7b",
      "    return res.status(422).json(\x7b",
      "      errors: [\"You must supply parameters for: " ++ operation.requiredNames ++ "\"],",
      "    \x7d);",
      "  \x7d"
    ]

/-- The call of an operation with the variables in front of it. -/
def callLines (options : HandlerOptions) (operation : HandlerOperation) : List String :=
  "" :: operation.parameters.map (variableLine options) ++ requiredLines operation ++
  [
    "",
    "  const \x7b errors, data \x7d = await NetlifyGraph." ++ operation.functionName ++ "(\x7b " ++
      operation.callMembers ++ " \x7d, \x7b accessToken: accessToken \x7d);",
    "",
    "  if (errors) \x7b",
    "    console.error(JSON.stringify(errors, null, 2));",
    "  \x7d",
    "",
    "  console.log(JSON.stringify(data, null, 2));"
  ]

/-- How a client sends the variables. -/
def clientOptionLines (options : HandlerOptions) (operation : HandlerOperation) : List String :=
  if operation.isPost then
    [
      "    method: \"" ++ operation.method ++ "\",",
      "    headers: \x7b"
    ] ++
    (if options.usesClientAuth then
      [
        "      \"Content-Type\": \"application/json\",",
        "      ...netlifyGraphAuth?.authHeaders()"
      ]
    else ["      \"Content-Type\": \"application/json\""]) ++
    [
      "    \x7d,",
      "    body: JSON.stringify(\x7b " ++ operation.bodyMembers ++ " \x7d)"
    ]
  else ["    method: \"" ++ operation.method ++ "\""]

/-- A function with which a client calls the route. -/
def clientLines (options : HandlerOptions) (operation : HandlerOperation) : List String :=
  [
    "async function " ++ operation.functionName ++ "(" ++ options.clientParameters ++ ") \x7b",
    "  const \x7b " ++ operation.variableNames ++ " \x7d = params || \x7b\x7d;",
    "  const resp = await fetch(`/api/" ++ operation.name ++ operation.addressEnd ++ "`, \x7b"
  ] ++
  clientOptionLines options operation ++
  [
    "  \x7d);",
    "",
    "  const text = await resp.text();",
    "",
    "  return JSON.parse(text);",
    "\x7d"
  ]

/-- The lines of the route. -/
def lines (settings : Settings) (options : HandlerOptions)
    (operations : List HandlerOperation) : List String :=
  openingLines settings ++
  [
    "  // By default, all API calls use no authentication",
    "  let accessToken = null;",
    "",
    "  //// If you want to use the client's accessToken when making API calls on the user's behalf:",
    "  // accessToken = req.headers[\"authorization\"]?.split(\" \")[1];",
    "",
    "  //// If you want to use the API with your own access token:",
    "  // accessToken = process.env.NETLIFY_GRAPH_TOKEN;",
    "",
    "  const eventBodyJson = req.body || \x7b\x7d;"
  ] ++
  operations.flatMap (callLines options) ++
  [
    "",
    "  res.setHeader(\"Content-Type\", \"application/json\");",
    "",
    "  return res.status(200).json(\x7b",
    "    errors, data",
    "  \x7d);",
    "\x7d;",
    "",
    settings.moduleStyle.exportingDefault "handler" ++ ";",
    "",
    "/**",
    " * Client-side invocations:",
    " * Call your Netlify function from the browser with this helper:",
    " */",
    "",
    "/**"
  ] ++
  operations.flatMap (clientLines options) ++ ["*/"]

/-! ### Events -/

/-- The lines of the route for the events of a subscription. -/
def webhookLines (settings : Settings) (name : String) : List String :=
  let request := settings.typeMark ": NextApiRequest"
  let promise := settings.typeMark ": Promise<string>"
  openingLines settings ++
  [
    "  const reqBody = await extractBody(req);",
    "",
    "  const payload = NetlifyGraph.parseAndVerify" ++ name ++ "Event(\x7b",
    "    headers: \x7b",
    "      \"x-netlify-graph-signature\": req.headers[\"x-netlify-graph-signature\"]" ++
      settings.typeMark " as string",
    "    \x7d,",
    "    body: reqBody,",
    "  \x7d);",
    "",
    "  if (!payload) \x7b",
    "    return res.status(422).json(\x7b",
    "      success: false,",
    "      error: 'Unable to verify payload signature',",
    "    \x7d);",
    "  \x7d",
    "",
    "  const \x7b errors, data \x7d = payload;",
    "",
    "  if (errors) \x7b",
    "    console.error(errors);",
    "  \x7d",
    "",
    "  console.log(data);",
    "",
    "  res.setHeader(\"Content-Type\", \"application/json\");",
    "",
    "  /**",
    "   * If you want to unsubscribe from this webhook",
    "   * in order to stop receiving new events,",
    "   * simply return status 410, e.g.:",
    "   *",
    "   * return res.status(410).json(\x7b\x7d);",
    "   */",
    "",
    "  return res.status(200).json(\x7b",
    "    successfullyProcessedIncomingWebhook: true,",
    "  \x7d);",
    "\x7d;",
    "",
    settings.moduleStyle.exportingDefault "handler" ++ ";",
    "",
    "export const config = \x7b",
    "  api: \x7b",
    "    // We manually parse the body of the request in order to verify",
    "    // that it's signed by Netlify before processing the event.",
    "    bodyParser: false,",
    "  \x7d,",
    "\x7d;",
    "",
    "const extractBody = (req" ++ request ++ ")" ++ promise ++ " => \x7b",
    "  let body = [];",
    "  const promise" ++ promise ++ " = new Promise((resolve, reject) => \x7b",
    "    req",
    "      .on(\"data\", (chunk) => \x7b",
    "        body.push(chunk);",
    "      \x7d)",
    "      .on(\"end\", () => \x7b",
    "        const fullBody = Buffer.concat(body).toString();",
    "        resolve(fullBody);",
    "      \x7d);",
    "  \x7d);",
    "",
    "  return promise;",
    "\x7d;"
  ]

end OperationLibrary.ApiRoute
