import OperationLibrary.Library.Function
import OperationLibrary.Library.OutputFile

/-!
The runtime of a library: a module with one function for every operation, which sends the text of
the operation and keeps answers that the server gave a tag to. Subscriptions get a function that
verifies and reads the events sent for them, where the runtime can do so.
-/

namespace OperationLibrary.LibraryRuntime

/-! ### Fixed parts -/

/-- The lines at the top of generated modules. -/
def heading : List String :=
  [
    "/* eslint-disable */",
    "// @ts-nocheck",
    "// GENERATED VIA NETLIFY AUTOMATED DEV TOOLS, EDIT WITH CAUTION!"
  ]

/-- A cache that forgets what was used least recently. -/
def cacheLines : List String :=
  [
    "// Basic LRU cache implementation",
    "const makeLRUCache = (max) => \x7b",
    "  return \x7b max: max, cache: new Map() \x7d;",
    "\x7d;",
    "",
    "const oldestCacheKey = (lru) => \x7b",
    "  return lru.cache.keys().next().value;",
    "\x7d;",
    "",
    "// Depend on Map keeping track of insertion order",
    "const getFromCache = (lru, key) => \x7b",
    "  const item = lru.cache.get(key);",
    "  if (item) \x7b",
    "    // Delete key and re-insert so key is now at the end,",
    "    // and now the last to be gc'd.",
    "    lru.cache.delete(key);",
    "    lru.cache.set(key, item);",
    "  \x7d",
    "  return item;",
    "\x7d;",
    "",
    "const setInCache = (lru, key, value) => \x7b",
    "  if (lru.cache.has(key)) \x7b",
    "    lru.cache.delete(key);",
    "  \x7d",
    "  if (lru.cache.size == lru.max) \x7b",
    "    const cacheKey = oldestCacheKey(lru);",
    "",
    "    if (cacheKey) \x7b",
    "      lru.cache.delete(cacheKey);",
    "    \x7d",
    "  \x7d",
    "",
    "  lru.cache.set(key, value);",
    "\x7d;",
    "",
    "// Cache the results of the Netlify Graph API for conditional requests",
    "const cache = makeLRUCache(100);",
    "",
    "const calculateCacheKey = (payload) => \x7b",
    "  return JSON.stringify(payload);",
    "\x7d;",
    ""
  ]

/-- Requests and what is made of their answers. -/
def requestLines : List String :=
  [
    "const netlifyGraphHostWithProtocol =",
    "  process.env.NETLIFY_GRAPH_HOST_WITH_PROTOCOL || 'https://graph.netlify.com';",
    "",
    "const makeNetlifyGraphUrl = (\x7b operationName, siteId \x7d) => \x7b",
    "  return (",
    "    netlifyGraphHostWithProtocol +",
    "    '/graphql?app_id=' +",
    "    siteId +",
    "    '&operationName=' +",
    "    operationName +",
    "    '&schema_id=' +",
    "    schemaId",
    "  );",
    "\x7d;",
    "",
    "const httpFetch = (operationName, siteId, options) => \x7b",
    "  const userHeaders = options.headers || \x7b\x7d;",
    "  const headers = \x7b",
    "    ...userHeaders,",
    "    'Content-Type': 'application/json',",
    "  \x7d;",
    "",
    "  let netlifyGraphUrl = makeNetlifyGraphUrl(\x7b operationName: operationName, siteId: siteId \x7d);",
    "  const reqOptions = \x7b",
    "    method: options.method || 'POST',",
    "    headers: headers,",
    "  \x7d;",
    "",
    "  if (reqOptions.method === 'GET') \x7b",
    "    netlifyGraphUrl = netlifyGraphUrl + '&payload=' + encodeURIComponent(options.body || '');",
    "  \x7d else \x7b",
    "    reqOptions.body = options.body || null;",
    "  \x7d",
    "",
    "  return fetch(netlifyGraphUrl, reqOptions).then((response) => \x7b",
    "    return response.text().then((bodyString) => \x7b",
    "      const headers = \x7b\x7d;",
    "      response.headers.forEach((value, key) => (headers[key] = value));",
    "",
    "      return \x7b",
    "        body: bodyString,",
    "        headers: headers,",
    "        status: response.status,",
    "      \x7d;",
    "    \x7d);",
    "  \x7d);",
    "\x7d;",
    "",
    "const fetchNetlifyGraph = function fetchNetlifyGraph(input) \x7b",
    "  const query = input.query;",
    "  const operationName = input.operationName;",
    "  const variables = input.variables;",
    "",
    "  const options = input.options || \x7b\x7d;",
    "  const accessToken = options.accessToken;",
    "  const siteId = options.siteId || process.env.SITE_ID;",
    "",
    "  const payload = \x7b",
    "    query: query,",
    "    variables: variables,",
    "    operationName: operationName,",
    "  \x7d;",
    "",
    "  const cacheKey = calculateCacheKey(payload);",
    "",
    "  // Check the cache for a previous result",
    "  const cachedResultPair = getFromCache(cache, cacheKey);",
    "",
    "  let conditionalHeaders = \x7b",
    "    'If-None-Match': '',",
    "  \x7d;",
    "  let cachedResultValue;",
    "",
    "  if (cachedResultPair) \x7b",
    "    const [etag, previousResult] = cachedResultPair;",
    "    conditionalHeaders = \x7b",
    "      'If-None-Match': etag,",
    "    \x7d;",
    "    cachedResultValue = previousResult;",
    "  \x7d",
    "",
    "  return httpFetch(operationName, siteId, \x7b",
    "    method: input.fetchStrategy || 'POST',",
    "    headers: \x7b",
    "      ...conditionalHeaders,",
    "      Authorization: accessToken ? 'Bearer ' + accessToken : '',",
    "    \x7d,",
    "    body: JSON.stringify(payload),",
    "  \x7d).then((result) => \x7b",
    "    // Check response headers for a 304 Not Modified",
    "    if (result.status === 304) \x7b",
    "      // Return the cached result",
    "      return cachedResultValue;",
    "    \x7d",
    "",
    "    const resultJson = JSON.parse(result.body);",
    "    if (result.status === 200) \x7b",
    "      // Make a note of the new etag for the given payload",
    "      const etag = result.headers['etag'];",
    "      if (etag) \x7b",
    "        setInCache(cache, cacheKey, [etag, resultJson]);",
    "      \x7d",
    "    \x7d",
    "    return resultJson;",
    "  \x7d);",
    "\x7d;"
  ]

/-- The verification of signed events. -/
def signatureLines : List String :=
  [
    "",
    "const verifySignature = (input) => \x7b",
    "  const secret = input.secret;",
    "  const body = input.body;",
    "  const signature = input.signature;",
    "",
    "  if (!signature) \x7b",
    "    console.error('Missing signature');",
    "    return false;",
    "  \x7d",
    "",
    "  const sig = \x7b\x7d;",
    "  for (const pair of signature.split(',')) \x7b",
    "    const [key, value] = pair.split('=');",
    "    sig[key] = value;",
    "  \x7d",
    "",
    "  if (!sig.t || !sig.hmac_sha256) \x7b",
    "    console.error('Invalid signature header');",
    "    return false;",
    "  \x7d",
    "",
    "  const hash = crypto",
    "    .createHmac('sha256', secret)",
    "    .update(sig.t)",
    "    .update('.')",
    "    .update(body)",
    "    .digest('hex');",
    "",
    "  if (",
    "    hash.length !== sig.hmac_sha256.length ||",
    "    !crypto.timingSafeEqual(Buffer.from(hash, 'hex'), Buffer.from(sig.hmac_sha256, 'hex'))",
    "  ) \x7b",
    "    console.error('Invalid signature');",
    "    return false;",
    "  \x7d",
    "",
    "  const parsedTimestamp = parseInt(sig.t, 10);",
    "  if (Date.now() / 1000 - parsedTimestamp > 300) \x7b",
    "    console.error('Request is too old');",
    "    return false;",
    "  \x7d",
    "",
    "  return true;",
    "\x7d;",
    "",
    "const verifyRequestSignature = (request, options) => \x7b",
    "  const event = request.event;",
    "  const secret = (options && options.webhookSecret) || process.env.NETLIFY_GRAPH_WEBHOOK_SECRET;",
    "  const signature = event.headers['x-netlify-graph-signature'];",
    "  const body = event.body;",
    "",
    "  if (!secret) \x7b",
    "    console.error(",
    "      'NETLIFY_GRAPH_WEBHOOK_SECRET is not set, cannot verify incoming webhook request'",
    "    );",
    "    return false;",
    "  \x7d",
    "",
    "  return verifySignature(\x7b secret, signature, body: body || '' \x7d);",
    "\x7d;"
  ]

/-! ### Functions -/

/-- Whether the runtime can verify events. -/
def verifiesEvents (settings : Settings) : Bool :=
  settings.target == .node

/-- The name of the function for the events of a subscription. -/
def eventFunctionName (function : LibraryFunction) : String :=
  "parseAndVerify" ++ function.operationName ++ "Event"

/-- The comment lines around a description, behind a margin. -/
def descriptionLines (margin : String) (function : LibraryFunction) : List String :=
  [margin ++ "/**", margin ++ " * " ++ SourceText.commentBody function.source.tag.description,
    margin ++ " */"]

/-- The function for the events of a subscription. -/
def eventFunction (style : ModuleStyle) (function : LibraryFunction) : List String :=
  [
    "/**",
    " * Verify the " ++ function.operationName ++
      " event body is signed securely, and then parse the result.",
    " */",
    style.exporting (eventFunctionName function) ++ " = (event, options) => \x7b",
    "  if (!verifyRequestSignature(\x7b event: event \x7d, options)) \x7b",
    "    console.warn(\"Unable to verify signature for " ++ function.operationName ++ "\");",
    "    return null;",
    "  \x7d",
    "",
    "  return JSON.parse(event.body || '\x7b\x7d');",
    "\x7d;"
  ]

/-- The function that sends an operation. -/
def requestFunction (style : ModuleStyle) (function : LibraryFunction) : List String :=
  descriptionLines "" function ++
  [
    style.exporting function.name ++ " = (variables, options) => \x7b",
    "  return fetchNetlifyGraph(\x7b",
    "    query: `" ++ function.body ++ "`,",
    "    operationName: \"" ++ function.operationName ++ "\",",
    "    variables: variables,",
    "    options: options || \x7b\x7d,",
    "    fetchStrategy: \"" ++ function.source.fetchMethod.word ++ "\",",
    "  \x7d);",
    "\x7d;"
  ]

/-- The function of an operation behind a blank line. -/
def functionLines (settings : Settings) (function : LibraryFunction) : List String :=
  "" :: if function.isSubscription then
    if verifiesEvents settings then eventFunction settings.moduleStyle function else []
  else requestFunction settings.moduleStyle function

/-- The entry of a function in the object of all functions. -/
def entryLines (settings : Settings) (function : LibraryFunction) : List String :=
  let exported := settings.moduleStyle.exported
  if function.isSubscription then
    let name := eventFunctionName function
    if verifiesEvents settings then
      [
        "  /**",
        "   * Verify the event body is signed securely, and then parse the result.",
        "   */",
        "  " ++ name ++ ": " ++ exported name ++ ","
      ]
    else []
  else
    descriptionLines "  " function ++
      ["  " ++ function.name ++ ": " ++ exported function.name ++ ","]

/-! ### The module -/

/-- The lines of the runtime. -/
def lines (settings : Settings) (functions : List LibraryFunction) : List String :=
  let style := settings.moduleStyle
  let signed := functions.any LibraryFunction.isSubscription && verifiesEvents settings
  heading ++
  (if signed then ["", style.importing "crypto" "crypto" ++ ";"] else []) ++
  [""] ++ cacheLines ++
  ["const schemaId = '" ++ settings.schemaId ++ "';", ""] ++ requestLines ++
  (if signed then signatureLines else []) ++
  functions.flatMap (functionLines settings) ++
  [
    "",
    "/**",
    " * The generated NetlifyGraph library with your operations",
    " */",
    "const functions = \x7b"
  ] ++
  functions.flatMap (entryLines settings) ++
  ["\x7d;", "", style.exportingDefault "functions" ++ ";"]

end OperationLibrary.LibraryRuntime
