import OperationLibrary.Client.Address
import OperationLibrary.Client.ContentType
import OperationLibrary.Client.Endpoint
import OperationLibrary.Client.EtagCache
import OperationLibrary.Document.Annotated
import OperationLibrary.Json.Check
import OperationLibrary.Json.Encoding
import OperationLibrary.Json.Parser
import OperationLibrary.Json.Printer
import OperationLibrary.Text.Base64

/-!
A client of the graph service. Every call is one request; the answer is kept under its entity tag,
so that a later call with the same payload can ask whether it has changed and be told that it has
not. A session is the state between calls, which is nothing but the cache.
-/

namespace OperationLibrary

/-! ### Calls and their requests -/

/-- A call of an operation. -/
structure GraphCall where
  query : String
  operationName : String
  variableValues : List (String × Json)
  accessToken : String
  method : FetchMethod

namespace GraphCall

/-- A call as it is asked for. Without variables the object of variables is empty, and all that is
no call by its address alone is posted. -/
def ofArguments (query operationName : String) (variableValues : Option (List (String × Json)))
    (accessToken : Option String) (fetchStrategy : String) : GraphCall where
  query
  operationName
  variableValues := variableValues.getD []
  accessToken := accessToken.getD ""
  method := .ofWord fetchStrategy

def payload (call : GraphCall) : Json :=
  .object [("query", .string call.query), ("variables", .object call.variableValues),
    ("operationName", .string call.operationName)]

/-- Calls with one key share their answers. -/
def cacheKey (call : GraphCall) : String :=
  call.payload.canonicalText

def body (call : GraphCall) : String :=
  call.payload.print .spacedAscii

end GraphCall

/-- The address that a call is made at. A call by its address alone carries the payload there. -/
def Endpoint.callAddress (endpoint : Endpoint) (call : GraphCall) : String :=
  let address := endpoint.address call.operationName
  match call.method with
  | .get => address ++ "&payload=" ++ Text.Percent.encode call.body
  | .post => address

/-- A request as it is sent. The names of headers are in lower case. -/
structure HttpRequest where
  method : FetchMethod
  address : Address
  headers : List (String × String)
  body : String
  deriving DecidableEq

namespace HttpRequest

/-- The values of headers are ASCII. -/
def areSendable (headers : List (String × String)) : Bool :=
  headers.all fun header => header.2.toList.all (·.toNat < 0x80)

/-- The header that says who asks: the address does, if it can, and an access token otherwise. -/
def authorization (address : Address) (accessToken : String) : List (String × String) :=
  match if address.isAbsolute then address.credentials else none with
  | some credentials =>
    [("authorization", "Basic " ++ String.ofList (Text.Base64.encode credentials))]
  | none =>
    if accessToken.isEmpty then [] else [("authorization", "Bearer " ++ accessToken)]

end HttpRequest

/-! ### Responses and their results -/

structure HttpResponse where
  status : Nat
  body : String
  headers : List (String × String)
  deriving DecidableEq

namespace HttpResponse

/-- All values of the headers with this name in lower case, empty where there are none. -/
def header (response : HttpResponse) (name : String) : String :=
  ", ".intercalate ((response.headers.filter fun header =>
    header.1.map Char.toLower == name).map Prod.snd)

/-- The entity tag of a response, empty where it has none. -/
def etag (response : HttpResponse) : String :=
  response.header "etag"

/-- The body as a text in the character set that the response names. -/
def text? (response : HttpResponse) : Option String :=
  (ContentType.charset (response.header "content-type")).reread? response.body

end HttpResponse

/-- What a graph answers: data, and errors where there are any. -/
structure GraphResult where
  data : Json
  errors : Option (List (List (String × Json)))

namespace GraphResult

def checkErrors : Json → Checked (Option (List (List (String × Json))))
  | .null => .ok none
  | value => (Json.checkList Json.checkMapping value).map some

def ofJson : Json → Checked GraphResult :=
  Json.checkModel fun members =>
    (Json.checkKey members "errors" "errors" none checkErrors).map fun errors =>
      ⟨(Json.lookup "data" members).getD .null, errors⟩

end GraphResult

/-- Why a call has no result. -/
inductive CallFault where
  | invalidAddress
  | unsendable
  /-- The address leads nowhere by itself. -/
  | relativeAddress
  | status (code : Nat) (body : String)
  /-- The answer to an unexpected status cannot be read in its character set. -/
  | unmarked
  | notText
  | notJson
  | tooManyDigits
  | invalid (problems : List ValueProblem)
  | noRoom
  deriving DecidableEq

/-- The wording of an answer with an unexpected status. -/
def CallFault.statusMessage (code : Nat) : String :=
  "GraphQL request failed with status " ++ toString code

/-- The fault of an answer with an unexpected status. -/
def HttpResponse.fault (response : HttpResponse) : CallFault :=
  match response.text? with
  | some text => .status response.status text
  | none => .unmarked

/-- The result in the body of a response. -/
def GraphResult.parse (body : String) : Except CallFault GraphResult :=
  match Json.decode? body with
  | none => .error .notText
  | some text =>
    match Json.parse text with
    | .error ⟨.tooManyDigits, _⟩ => .error .tooManyDigits
    | .error _ => .error .notJson
    | .ok value => (ofJson value).mapError .invalid

/-! ### Sessions -/

structure Session where
  endpoint : Endpoint
  cache : EtagCache GraphResult

/-- What came of a call: the request where one was sent, its outcome, and the session after it. -/
structure Exchange where
  request : Option HttpRequest
  outcome : Except CallFault GraphResult
  session : Session

namespace Session

def standardCapacity : Nat := 100

/-- Takes a response to a call, for which `known` was kept. -/
def receive (session : Session) (call : GraphCall) (known : Option (EtagCache.Entry GraphResult))
    (response : HttpResponse) : Logged (Except CallFault GraphResult × Session) :=
  if response.status = 304 then
    match known with
    | none => pure (.error (.status 304 "Not Modified without a cached result"), session)
    | some entry => do
      Logged.debug .client ("Using cached result for " ++ call.operationName)
      return (.ok entry.answer, session)
  else if response.status ≠ 200 then
    pure (.error response.fault, session)
  else
    match GraphResult.parse response.body with
    | .error fault => pure (.error fault, session)
    | .ok result =>
      if response.etag.isEmpty then pure (.ok result, session)
      else
        match session.cache.set? call.cacheKey response.etag result with
        | none => pure (.error .noRoom, session)
        | some cache => pure (.ok result, { session with cache := cache })

/-- The request for a call, on the condition that the answer has another tag than `etag`. The
access token has to be one that can be sent even where the address says who asks. -/
def request (session : Session) (call : GraphCall) (etag : String) :
    Except CallFault HttpRequest :=
  match Address.parse? (session.endpoint.callAddress call) with
  | none => .error .invalidAddress
  | some address =>
    let headers := [("content-type", "application/json"), ("if-none-match", etag)]
    if HttpRequest.areSendable (("authorization", call.accessToken) :: headers) then
      .ok {
        method := call.method
        address
        headers := headers ++ HttpRequest.authorization address call.accessToken
        body := match call.method with
          | .get => ""
          | .post => call.body }
    else .error .unsendable

/-- Makes a call, to which the service answers by `respond`. -/
def fetch (session : Session) (call : GraphCall) (respond : HttpRequest → HttpResponse) :
    Logged Exchange :=
  let (known, cache) := session.cache.get call.cacheKey
  let session := { session with cache := cache }
  match session.request call ((known.map (·.etag)).getD "") with
  | .error fault => pure ⟨none, .error fault, session⟩
  | .ok request =>
    if request.address.isAbsolute then do
      let (outcome, session) ← session.receive call known (respond request)
      return ⟨some request, outcome, session⟩
    else pure ⟨some request, .error .relativeAddress, session⟩

end Session

end OperationLibrary
