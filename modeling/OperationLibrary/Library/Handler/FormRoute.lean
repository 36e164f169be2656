import OperationLibrary.Library.HandlerOperation
import OperationLibrary.Library.OutputFile

/-!
Handlers that are routes with a form: one that calls an operation with what the form holds and
shows the answer, and one that takes the events of a subscription.
-/

namespace OperationLibrary.FormRoute

/-- The first line of the function that acts on requests. -/
def actionLine (settings : Settings) : String :=
  settings.moduleStyle.exporting "action" ++ settings.typeMark ": ActionFunction" ++
    " = async (\x7b context, request \x7d) => \x7b"

/-! ### Requests -/

/-- The refusal of requests without a required variable. -/
def requiredLines (operation : HandlerOperation) : List String :=
  if operation.missingCondition.isEmpty then []
  else
    [
      "",
      "  if (" ++ operation.missingCondition ++ ") \x7b",
      "    return json(\x7b",
      "      errors: [\"You must supply parameters for: " ++ operation.requiredNames ++ "\"],",
      "    \x7d, \x7b status: 422 \x7d);",
      "  \x7d"
    ]

/-- The input of a variable. -/
def inputLines (v : HandlerVariable) : List String :=
  [
    "      <p>",
    "        <label htmlFor=\"" ++ v.name ++ "\">" ++ v.name ++ "</label>",
    "        <input id=\"" ++ v.name ++ "\" name=\"" ++ v.name ++ "\" type=\"text\" />",
    "      </p>"
  ]

/-- The lines of the route. -/
def lines (settings : Settings) (operation : HandlerOperation) : List String :=
  let dataType := settings.typeMark
    (": NetlifyGraph." ++ Text.capitalizeFirst operation.name ++ "[\"data\"]")
  [
    "import \x7b " ++ settings.typeMark "ActionFunction, " ++
      "json, Form, useActionData, useTransition \x7d from \"remix\";",
    "import NetlifyGraph from \"" ++ settings.requirePath ++ "\";",
    "",
    actionLine settings,
    "  const formData = await request.formData();",
    "",
    "  // By default, all API calls use no authentication",
    "  let accessToken;",
    "",
    "  //// If you want to use the API with your own access token:",
    "  // accessToken = context.netlifyGraphToken;",
    ""
  ] ++
  (operation.parameters.map fun v =>
    "  const " ++ v.variableName ++ " = " ++ v.fromCall "formData.get" ++ ";") ++
  requiredLines operation ++
  [
    "",
    "  const \x7b errors, data \x7d = await NetlifyGraph." ++ operation.functionName ++ "(\x7b " ++
      operation.callMembers ++ " \x7d, \x7b accessToken: accessToken \x7d);",
    "",
    "  if (errors) \x7b",
    "    console.error(JSON.stringify(errors, null, 2));",
    "  \x7d",
    "",
    "  return json(\x7b data, errors \x7d);",
    "\x7d;",
    "",
    "export default function handler() \x7b",
    "  const results = useActionData();",
    "  const transition = useTransition();",
    "",
    "  const errors = results?.errors;",
    "  const data" ++ dataType ++ " = results?.data;",
    "",
    "  return (",
    "    <Form method=\"post\">"
  ] ++
  operation.parameters.flatMap inputLines ++
  [
    "      <p>",
    "        <button type=\"submit\">",
    "          \x7btransition.submission ? \"Submitting...\" : \"Run " ++
      operation.record.displayName ++ "\"\x7d",
    "        </button>",
    "      </p>",
    "      \x7berrors ? (<pre className=\"error\">\x7bJSON.stringify(errors, null, 2)\x7d</pre>) : null\x7d",
    "      \x7bdata ? (<pre>\x7bJSON.stringify(data, null, 2)\x7d</pre>) : null\x7d",
    "    </Form>",
    "  );",
    "\x7d"
  ]

/-! ### Events -/

/-- The lines of the route for the events of a subscription. -/
def webhookLines (settings : Settings) (name : String) : List String :=
  [
    "import \x7b " ++ settings.typeMark "ActionFunction, " ++ "json \x7d from \"remix\";",
    "import NetlifyGraph from \"../" ++ settings.requirePath ++ "\";",
    "",
    actionLine settings,
    "  const reqBody = await request.text();",
    "",
    "  const payload = NetlifyGraph.parseAndVerify" ++ name ++ "Event(\x7b",
    "    body: reqBody,",
    "    headers: \x7b",
    "      'x-netlify-graph-signature': context.netlifyGraphSignature",
    "    \x7d,",
    "  \x7d);",
    "",
    "  if (!payload) \x7b",
    "    return json(\x7b",
    "      success: false,",
    "      error: 'Unable to verify payload signature',",
    "    \x7d, \x7b status: 422 \x7d);",
    "  \x7d",
    "",
    "  const \x7b errors, data \x7d = payload;",
    "",
    "  if (errors) \x7b",
    "    console.error(errors);",
    "  \x7d",
    "",
    "  console.log(data);",
    "",
    "  /**",
    "   * If you want to unsubscribe from this webhook",
    "   * in order to stop receiving new events,",
    "   * simply return status 410, e.g.:",
    "   *",
    "   * return json(\x7b\x7d, \x7b status: 410 \x7d);",
    "   */",
    "",
    "  return json(\x7b",
    "    successfullyProcessedIncomingWebhook: true,",
    "  \x7d);",
    "\x7d;"
  ]

end OperationLibrary.FormRoute
