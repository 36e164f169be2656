import OperationLibrary.Proofs.ConditionalRequests
import OperationLibrary.Proofs.JsonReading
import OperationLibrary.Proofs.PercentText

/-!
What requests carry. The parameters of an address are read back as they were given, whatever
characters they have, also after the address has been brought into its normal form; and a call by
its address alone carries the very payload that it would post.
-/

namespace OperationLibrary

open Text.Percent (written writtenQuery parameters? IsParameterName isEncodingChar)

/-! ### Queries of addresses -/

/-- The parameters of a text that goes on behind a question mark, up to a number sign. -/
def queryParameters? (text : List Char) : Option (List (String × String)) :=
  parameters? (((text.dropWhile (· != '?')).drop 1).takeWhile (· != '#'))

namespace Address

/-- Characters that are in a path or in what stands in front of one. -/
def isBeforeQuery (c : Char) : Bool :=
  c ≠ '?' && c ≠ '#'

theorem dropWhile_dropWhile {p q : Char → Bool} (h : ∀ c, p c = true → q c = true)
    (text : List Char) : (text.dropWhile p).dropWhile q = text.dropWhile q := by
  induction text with
  | nil => rfl
  | cons c text ih =>
      by_cases hc : p c = true
      · rw [List.dropWhile_cons_of_pos hc, List.dropWhile_cons_of_pos (h c hc), ih]
      · rw [List.dropWhile_cons_of_neg hc]

/-- Neither the scheme nor the authority takes anything of the query. -/
theorem dropWhile_splitScheme (text : List Char) :
    (splitScheme text).2.dropWhile isBeforeQuery = text.dropWhile isBeforeQuery := by
  unfold splitScheme
  dsimp only
  split
  · rename_i rest hcolon
    split
    · have hrest : rest.dropWhile isBeforeQuery = (':' :: rest).dropWhile isBeforeQuery := rfl
      rw [hrest, ← hcolon]
      refine dropWhile_dropWhile (fun c hc => ?_) text
      rw [isBeforeQuery, Bool.and_eq_true, decide_eq_true_iff, decide_eq_true_iff]
      constructor <;> (rintro rfl; exact absurd hc (by decide))
    · rfl
  · rfl

theorem dropWhile_splitAuthority (text : List Char) :
    (splitAuthority text).2.dropWhile isBeforeQuery = text.dropWhile isBeforeQuery := by
  unfold splitAuthority
  split
  · exact dropWhile_dropWhile (fun c hc => by simp_all [isBeforeQuery]) _
  · rfl

/-- Where the query of an address comes from. -/
theorem query_of_parse? {text : String} {address : Address} (h : parse? text = some address) :
    address.query =
      let query := (text.toList.dropWhile isBeforeQuery).takeWhile (· ≠ '#')
      if query.isEmpty then none else some (escape unsafeInQuery (query.drop 1)) := by
  rw [← dropWhile_splitScheme, ← dropWhile_splitAuthority]
  unfold parse? at h
  simp only [Option.bind_eq_bind, Option.pure_def] at h
  split at h
  · contradiction
  obtain ⟨host, -, h⟩ := Option.bind_eq_some_iff.mp h
  obtain ⟨port, -, h⟩ := Option.bind_eq_some_iff.mp h
  split at h
  · contradiction
  obtain rfl := Option.some.inj h
  rfl

theorem query_eq_of_parse? {text : String} {front query : List Char} {address : Address}
    (htext : text.toList = front ++ '?' :: query) (hfront : ∀ c ∈ front, isBeforeQuery c = true)
    (hquery : '#' ∉ query) (h : parse? text = some address) :
    address.query = some (escape unsafeInQuery query) := by
  have hbehind : text.toList.dropWhile isBeforeQuery = '?' :: query := by
    rw [htext, List.dropWhile_append_of_pos hfront, List.dropWhile_cons_of_neg (by decide)]
  have hwhole : ('?' :: query).takeWhile (· ≠ '#') = '?' :: query :=
    List.takeWhile_eq_self_iff.mpr fun c hc => by
      rw [decide_eq_true_iff]
      rintro rfl
      exact absurd hc (by simp [hquery])
  rw [query_of_parse? h, hbehind]
  simp only [hwhole]
  rfl

theorem escape_eq_self {others : String} {part : List Char}
    (h : ∀ c ∈ part, isSafe others c = true) : escape others part = part := by
  induction part with
  | nil => rfl
  | cons c part ih =>
      rw [List.forall_mem_cons] at h
      rw [escape, List.flatMap_cons, if_pos h.1, ← escape, ih h.2]
      rfl

end Address

/-! ### Written queries in addresses -/

section

theorem toNat_lt_of_isEncodingChar {c : Char} (h : isEncodingChar c = true) : c.toNat < 128 := by
  rcases (Bool.or_eq_true _ _).mp h with hname | hmark
  · exact Syntax.toNat_lt_of_isNameContinue ((Bool.or_eq_true _ _).mpr (.inl hname))
  · have hmem := of_decide_eq_true hmark
    simp only [List.mem_cons, List.not_mem_nil, or_false] at hmem
    rcases hmem with rfl | rfl | rfl | rfl | rfl | rfl <;> decide

variable {parameters : List (String × String)}
  (h : ∀ parameter ∈ parameters, IsParameterName parameter.1)

include h

/-- No mark of an address is in a written query, and all of it stands for itself there. -/
theorem isSafe_of_mem_writtenQuery {c : Char} (hc : c ∈ writtenQuery parameters) :
    Address.isSafe Address.unsafeInQuery c = true ∧ Address.isBeforeQuery c = true := by
  have hencoding : ∀ n < 128, isEncodingChar (Char.ofNat n) = true →
      Address.isSafe Address.unsafeInQuery (Char.ofNat n) = true ∧
        Address.isBeforeQuery (Char.ofNat n) = true := by
    decide
  rcases Text.Percent.mem_writtenQuery h hc with hmark | rfl | rfl
  · have hsafe := hencoding c.toNat (toNat_lt_of_isEncodingChar hmark)
    rw [Char.ofNat_toNat] at hsafe
    exact hsafe hmark
  · decide
  · decide

theorem numberSign_not_mem_writtenQuery : '#' ∉ writtenQuery parameters := fun hmem =>
  absurd (isSafe_of_mem_writtenQuery h hmem).2 (by decide)

/-- What is written into the query of a text is read there. -/
theorem queryParameters?_append (hne : parameters ≠ []) {front : List Char}
    (hfront : ∀ c ∈ front, c ≠ '?') :
    queryParameters? (front ++ '?' :: writtenQuery parameters) = some parameters := by
  have hpassed : ∀ c ∈ front, (c != '?') = true := fun c hc => bne_iff_ne.mpr (hfront c hc)
  have hwhole : (writtenQuery parameters).takeWhile (· != '#') = writtenQuery parameters :=
    List.takeWhile_eq_self_iff.mpr fun c hc => bne_iff_ne.mpr fun hmark =>
      numberSign_not_mem_writtenQuery h (hmark ▸ hc)
  rw [queryParameters?, List.dropWhile_append_of_pos hpassed,
    List.dropWhile_cons_of_neg (by decide), List.drop_one, List.tail_cons, hwhole,
    Text.Percent.parameters?_writtenQuery h hne]

/-- It is read from the normal form of an address as well. -/
theorem parameters?_of_parse? (hne : parameters ≠ []) {text : String} {front : List Char}
    {address : Address} (htext : text.toList = front ++ '?' :: writtenQuery parameters)
    (hfront : ∀ c ∈ front, Address.isBeforeQuery c = true)
    (hparse : Address.parse? text = some address) :
    address.query.bind parameters? = some parameters := by
  rw [Address.query_eq_of_parse? htext hfront (numberSign_not_mem_writtenQuery h) hparse,
    Address.escape_eq_self fun c hc => (isSafe_of_mem_writtenQuery h hc).1, Option.bind_some,
    Text.Percent.parameters?_writtenQuery h hne]

end

/-! ### Parameters of calls -/

/-- What an address at this endpoint passes on by the parameters that it has behind the host. -/
def Endpoint.Passes (endpoint : Endpoint) (address : String)
    (parameters : List (String × String)) : Prop :=
  ∃ behind, address = endpoint.base ++ behind ∧ queryParameters? behind.toList = some parameters

/-- No query and no fragment starts in the name of the host. -/
def Endpoint.IsPlain (endpoint : Endpoint) : Prop :=
  ∀ c ∈ endpoint.base.toList, c ≠ '?' ∧ c ≠ '#'

/-- What a request passes on by the parameters of its address. -/
def HttpRequest.parameters? (request : HttpRequest) : Option (List (String × String)) :=
  request.address.query.bind Text.Percent.parameters?

namespace Endpoint

/-- What is asked for and on whose behalf. -/
def parameters (endpoint : Endpoint) (operationName : String) : List (String × String) :=
  [("app_id", endpoint.siteId), ("operationName", operationName), ("schema_id", endpoint.schemaId)]

/-- A call by its address alone has the payload among its parameters. -/
def callParameters (endpoint : Endpoint) (call : GraphCall) : List (String × String) :=
  match call.method with
  | .get => endpoint.parameters call.operationName ++ [("payload", call.body)]
  | .post => endpoint.parameters call.operationName

variable (endpoint : Endpoint) (call : GraphCall)

theorem isParameterName_callParameters :
    ∀ parameter ∈ endpoint.callParameters call, IsParameterName parameter.1 := by
  have hplain : ["app_id", "operationName", "schema_id", "payload"].all (fun name =>
      name.toList.all fun c => c.isAlphanum || c == '_') = true := rfl
  have hnames : ∀ name ∈ ["app_id", "operationName", "schema_id", "payload"],
      IsParameterName name := fun name hname =>
    List.all_eq_true.mp (List.all_eq_true.mp hplain name hname)
  intro parameter hmem
  unfold callParameters parameters at hmem
  have hall : parameter.1 ∈ ["app_id", "operationName", "schema_id", "payload"] := by
    split at hmem
    · simp only [List.cons_append, List.nil_append] at hmem
      exact List.mem_map_of_mem (f := Prod.fst) hmem
    · exact List.mem_append_left ["payload"] (List.mem_map_of_mem (f := Prod.fst) hmem)
  exact hnames _ hall

theorem callParameters_ne_nil : endpoint.callParameters call ≠ [] := by
  unfold callParameters
  split <;> simp [parameters]

theorem toList_address (operationName : String) :
    (endpoint.address operationName).toList = endpoint.base.toList ++
      ("/graphql".toList ++ '?' :: writtenQuery (endpoint.parameters operationName)) := by
  have hfirst : "/graphql?app_id=".toList =
      "/graphql".toList ++ '?' :: ("app_id".toList ++ ['=']) := rfl
  have hsecond : "&operationName=".toList = '&' :: ("operationName".toList ++ ['=']) := rfl
  have hthird : "&schema_id=".toList = '&' :: ("schema_id".toList ++ ['=']) := rfl
  simp only [address, String.toList_append, hfirst, hsecond, hthird, parameters, writtenQuery,
    List.map_cons, List.map_nil, List.intercalate_cons_cons, List.intercalate_singleton, written,
    List.append_assoc, List.cons_append, List.nil_append]

theorem toList_callAddress :
    (endpoint.callAddress call).toList = endpoint.base.toList ++
      ("/graphql".toList ++ '?' :: writtenQuery (endpoint.callParameters call)) := by
  have haddress := endpoint.toList_address call.operationName
  cases hmethod : call.method with
  | get =>
      have hlast : "&payload=".toList = '&' :: ("payload".toList ++ ['=']) := rfl
      have hne : endpoint.parameters call.operationName ≠ [] := List.cons_ne_nil _ _
      simp only [callAddress, callParameters, hmethod, String.toList_append, haddress, hlast,
        Text.Percent.writtenQuery_concat hne, written, List.append_assoc, List.cons_append,
        List.nil_append]
  | post => simpa only [callAddress, callParameters, hmethod] using haddress

theorem passes_callAddress :
    endpoint.Passes (endpoint.callAddress call) (endpoint.callParameters call) := by
  refine ⟨String.ofList ("/graphql".toList ++ '?' :: writtenQuery (endpoint.callParameters call)),
    ?_, ?_⟩
  · rw [← String.toList_inj, toList_callAddress, String.toList_append]
    exact congrArg _ String.toList_ofList.symm
  · rw [String.toList_ofList]
    have hpath : "/graphql".toList.all (· != '?') = true := rfl
    exact queryParameters?_append (isParameterName_callParameters endpoint call)
      (callParameters_ne_nil endpoint call) fun c hc =>
        bne_iff_ne.mp (List.all_eq_true.mp hpath c hc)

theorem passes_address (operationName : String) :
    endpoint.Passes (endpoint.address operationName) (endpoint.parameters operationName) :=
  endpoint.passes_callAddress ⟨"", operationName, [], "", .post⟩

end Endpoint

/-! ### Payloads -/

theorem Json.Writable.payload {call : GraphCall}
    (h : (Json.object call.variableValues).Writable) : call.payload.Writable := by
  refine .object (by simp) fun member hmember => ?_
  simp only [List.mem_cons, List.not_mem_nil, or_false] at hmember
  rcases hmember with rfl | rfl | rfl
  · exact .string _
  · exact h
  · exact .string _

/-- The body of a call is read as its payload. -/
theorem GraphCall.parse_body {call : GraphCall}
    (h : (Json.object call.variableValues).Writable) : Json.parse call.body = .ok call.payload :=
  Json.parse_print Json.readable_spacedAscii h.payload

/-! ### Requests that are sent -/

/-- The request is one that a session sends for a call, whatever answers it. -/
def Session.Sends (session : Session) (call : GraphCall) (request : HttpRequest) : Prop :=
  ∃ turn : Turn, turn.call = call ∧ (session.exchange turn).request = some request

namespace Session.Sends

variable {session : Session} {call : GraphCall} {request : HttpRequest}

theorem exists_request (h : session.Sends call request) :
    ∃ etag, (session.look call).request call etag = .ok request := by
  obtain ⟨turn, rfl, hsent⟩ := h
  refine ⟨session.knownTag turn.call, ?_⟩
  cases hrequest : (session.look turn.call).request turn.call (session.knownTag turn.call) with
  | error fault =>
      rw [Session.exchange_of_error hrequest] at hsent
      contradiction
  | ok request =>
      have hsame : (session.exchange turn).request = some request := by
        rw [Session.exchange_of_ok hrequest]
        split <;> rfl
      rw [Option.some.inj (hsame.symm.trans hsent)]

/-- What is sent goes to the address of the call, and only what is posted has a body. -/
theorem address_and_body (h : session.Sends call request) :
    Address.parse? (session.endpoint.callAddress call) = some request.address ∧
      request.body = if call.method = .post then call.body else "" := by
  obtain ⟨etag, hrequest⟩ := h.exists_request
  have hendpoint : (session.look call).endpoint = session.endpoint := rfl
  unfold Session.request at hrequest
  rw [hendpoint] at hrequest
  cases haddress : Address.parse? (session.endpoint.callAddress call) with
  | none =>
      rw [haddress] at hrequest
      contradiction
  | some address =>
      rw [haddress] at hrequest
      dsimp only at hrequest
      split at hrequest
      · obtain rfl := Except.ok.inj hrequest
        refine ⟨rfl, ?_⟩
        cases call.method <;> rfl
      · contradiction

theorem parameters?_eq (h : session.Sends call request) (hplain : session.endpoint.IsPlain) :
    request.parameters? = some (session.endpoint.callParameters call) := by
  have htext := session.endpoint.toList_callAddress call
  rw [← List.append_assoc] at htext
  refine parameters?_of_parse? (Endpoint.isParameterName_callParameters _ call)
    (Endpoint.callParameters_ne_nil _ call) htext (fun c hc => ?_) h.address_and_body.1
  rcases List.mem_append.mp hc with hbase | hpath
  · simpa [Address.isBeforeQuery] using hplain c hbase
  · have hall : "/graphql".toList.all Address.isBeforeQuery = true := rfl
    exact List.all_eq_true.mp hall c hpath

end Session.Sends

/-- **A call by its address carries what it would post.** The address has the site, the operation
and the schema as its parameters, in this order, and nothing else; a call by its address has the
payload behind them, which is the body that the same call posts; and this reads as the query, the
variables and the name. Where the host has no query of its own, the parameters of what is sent are
these as well. No encoded text has a mark that ends a parameter or starts another. -/
theorem get_carries_what_post_sends (session : Session) (query operationName : String)
    (variableValues : Option (List (String × Json))) (accessToken : Option String)
    (hvariables : ∀ members ∈ variableValues, (Json.object members).Writable) :
    let endpoint := session.endpoint
    let get := GraphCall.ofArguments query operationName variableValues accessToken "GET"
    let post := GraphCall.ofArguments query operationName variableValues accessToken "POST"
    let parameters := [("app_id", endpoint.siteId), ("operationName", operationName),
      ("schema_id", endpoint.schemaId)]
    endpoint.Passes (endpoint.address operationName) parameters ∧
      endpoint.callAddress post = endpoint.address operationName ∧
      endpoint.Passes (endpoint.callAddress get) (parameters ++ [("payload", post.body)]) ∧
      Json.parse post.body = .ok (.object [("query", .string query),
        ("variables", .object (variableValues.getD [])), ("operationName", .string operationName)]) ∧
      (∀ request, session.Sends post request → request.body = post.body ∧
        (endpoint.IsPlain → request.parameters? = some parameters)) ∧
      (∀ request, session.Sends get request → request.body = "" ∧
        (endpoint.IsPlain →
          request.parameters? = some (parameters ++ [("payload", post.body)]))) ∧
      ∀ text, ∀ c ∈ (Text.Percent.encode text).toList, c ∉ ['&', ';', '=', '+', '?', '#', ' '] := by
  intro endpoint get post parameters
  have hwritable : (Json.object post.variableValues).Writable := by
    cases variableValues with
    | none => exact .object List.nodup_nil nofun
    | some members => exact hvariables members rfl
  have hget : endpoint.callParameters get = parameters ++ [("payload", post.body)] := rfl
  have hpost : endpoint.callParameters post = parameters := rfl
  refine ⟨endpoint.passes_address operationName, rfl, endpoint.passes_callAddress get,
    GraphCall.parse_body hwritable,
    fun request hsent => ⟨hsent.address_and_body.2, fun hplain => ?_⟩,
    fun request hsent => ⟨hsent.address_and_body.2, fun hplain => ?_⟩, fun text c hc hmark => ?_⟩
  · rw [hsent.parameters?_eq hplain, hpost]
  · rw [hsent.parameters?_eq hplain, hget]
  · have hencoding := Text.Percent.isEncodingChar_of_mem_encode hc
    simp only [List.mem_cons, List.not_mem_nil, or_false] at hmark
    rcases hmark with rfl | rfl | rfl | rfl | rfl | rfl | rfl <;>
      exact absurd hencoding (by decide)

/-! A call with marks of addresses in all that it passes on. -/

namespace MarkedCall

def session : Session :=
  .start ⟨"https://graph.netlify.com/", "site&app_id=2", "schema/é#1"⟩ 0

def variableValues : List (String × Json) :=
  [("name", .string "R&D?"), ("limit", .int (-3)), ("ratio", .float (.finite false (2 ^ 52) (-53)))]

theorem writable_variableValues : (Json.object variableValues).Writable := by
  refine .object (by decide) fun member hmember => ?_
  simp only [variableValues, List.mem_cons, List.not_mem_nil, or_false] at hmember
  rcases hmember with rfl | rfl | rfl
  · exact .string _
  · exact .int (by decide)
  · exact .finite _ ⟨by decide, by decide, by decide, .inl (by decide)⟩

theorem payload_of_marked_call :
    let payload := (GraphCall.ofArguments "\x7b a \x7d" "Q+1" (some variableValues) none "POST").body
    session.endpoint.Passes (session.endpoint.callAddress
      (.ofArguments "\x7b a \x7d" "Q+1" (some variableValues) none "GET"))
        [("app_id", "site&app_id=2"), ("operationName", "Q+1"), ("schema_id", "schema/é#1"),
          ("payload", payload)] ∧
      Json.parse payload = .ok (.object [("query", .string "\x7b a \x7d"),
        ("variables", .object variableValues), ("operationName", .string "Q+1")]) := by
  obtain ⟨-, -, hget, hpayload, -⟩ := get_carries_what_post_sends session "\x7b a \x7d" "Q+1"
    (some variableValues) none fun members hmembers =>
      Option.some.inj hmembers ▸ writable_variableValues
  exact ⟨hget, hpayload⟩

end MarkedCall

end OperationLibrary
