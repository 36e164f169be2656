import Mathlib.Data.List.Induction
import OperationLibrary.Client.Session
import OperationLibrary.Proofs.CacheEntries
import OperationLibrary.Proofs.ComputedEquality

/-!
Conditional requests over whole runs of a client. An answer that is taken from the cache is the one
of the most recent call with the same payload that was answered in full and with a tag, and it is
taken only where the request asked about that tag; calls that fail leave the kept answers alone.
-/

namespace OperationLibrary

/-! ### Runs -/

/-- A call and how the service answers its request. -/
structure Turn where
  call : GraphCall
  respond : HttpRequest → HttpResponse

namespace Session

/-- What comes of one turn. -/
def exchange (session : Session) (turn : Turn) : Exchange :=
  (session.fetch turn.call turn.respond).value

/-- The session after some turns. -/
def after (session : Session) (turns : List Turn) : Session :=
  turns.foldl (fun session turn => (session.exchange turn).session) session

/-- The first session of a client that keeps up to `capacity` answers. -/
def start (endpoint : Endpoint) (capacity : Nat) : Session :=
  ⟨endpoint, .empty capacity⟩

@[simp] theorem after_nil (session : Session) : session.after [] = session := rfl

@[simp] theorem after_concat (session : Session) (turns : List Turn) (turn : Turn) :
    session.after (turns ++ [turn]) = ((session.after turns).exchange turn).session := by
  simp [after]

end Session

/-- The call of a turn has sent a request and has got a response. -/
structure Answered (session : Session) (turn : Turn) (request : HttpRequest)
    (response : HttpResponse) : Prop where
  sent : (session.exchange turn).request = some request
  arrives : request.address.isAbsolute = true
  response_eq : turn.respond request = response

/-- The call of a turn is answered in full and with a tag: this is the entry to be kept. -/
structure Keeps (session : Session) (turn : Turn) (entry : EtagCache.Entry GraphResult) :
    Prop where
  key : turn.call.cacheKey = entry.key
  full : ∃ request response, Answered session turn request response ∧ response.status = 200 ∧
    response.etag = entry.etag ∧ GraphResult.parse response.body = .ok entry.answer
  tagged : entry.etag ≠ ""

/-- Of the calls with the key of an entry that were answered in full and with a tag, the most
recent one got this entry. -/
def MostRecent (session : Session) (turns : List Turn) (entry : EtagCache.Entry GraphResult) :
    Prop :=
  ∃ earlier turn later, turns = earlier ++ turn :: later ∧
    Keeps (session.after earlier) turn entry ∧
      ∀ between next rest, later = between ++ next :: rest →
        ∀ other, Keeps (session.after (earlier ++ turn :: between)) next other →
          other.key ≠ entry.key

theorem MostRecent.of_keeps {session : Session} {turns : List Turn} {turn : Turn}
    {entry : EtagCache.Entry GraphResult} (h : Keeps (session.after turns) turn entry) :
    MostRecent session (turns ++ [turn]) entry :=
  ⟨turns, turn, [], rfl, h, by simp⟩

/-- A turn that gets nothing to be kept under the key changes nothing. -/
theorem MostRecent.concat {session : Session} {turns : List Turn} {turn : Turn}
    {entry : EtagCache.Entry GraphResult} (h : MostRecent session turns entry)
    (hother : ∀ other, Keeps (session.after turns) turn other → other.key ≠ entry.key) :
    MostRecent session (turns ++ [turn]) entry := by
  obtain ⟨earlier, kept, later, rfl, hkeeps, hlater⟩ := h
  refine ⟨earlier, kept, later ++ [turn], by simp, hkeeps, fun between next rest hsplit => ?_⟩
  rcases List.eq_nil_or_concat rest with rfl | ⟨rest, last, rfl⟩
  · obtain ⟨rfl, hnext⟩ := List.append_inj' hsplit rfl
    rw [← List.singleton_inj.mp hnext]
    exact hother
  · rw [List.concat_eq_append, ← List.cons_append, ← List.append_assoc] at hsplit
    exact hlater between next rest (List.append_inj' hsplit rfl).1

/-! ### One turn -/

/-- What a session makes of a response, and the session that it leaves. -/
inductive Received (session : Session) (call : GraphCall)
    (known : Option (EtagCache.Entry GraphResult)) (response : HttpResponse) :
    Except CallFault GraphResult × Session → Prop
  | unknown (unchanged : response.status = 304) (missing : known = none) :
      Received session call known response
        (.error (.status 304 "Not Modified without a cached result"), session)
  | unchanged {entry : EtagCache.Entry GraphResult} (unchanged : response.status = 304)
      (kept : known = some entry) :
      Received session call known response (.ok entry.answer, session)
  | failed (fault : CallFault) (changed : response.status ≠ 304)
      (invalid : response.status = 200 → ∀ answer, GraphResult.parse response.body ≠ .ok answer) :
      Received session call known response (.error fault, session)
  | untagged {answer : GraphResult} (full : response.status = 200)
      (valid : GraphResult.parse response.body = .ok answer) (tag : response.etag = "") :
      Received session call known response (.ok answer, session)
  | noRoom {answer : GraphResult} (full : response.status = 200)
      (refused : session.cache.set? call.cacheKey response.etag answer = none) :
      Received session call known response (.error .noRoom, session)
  | kept {answer : GraphResult} {cache : EtagCache GraphResult} (full : response.status = 200)
      (valid : GraphResult.parse response.body = .ok answer) (tag : response.etag ≠ "")
      (set : session.cache.set? call.cacheKey response.etag answer = some cache) :
      Received session call known response (.ok answer, { session with cache := cache })

namespace Session

theorem received_receive (session : Session) (call : GraphCall)
    (known : Option (EtagCache.Entry GraphResult)) (response : HttpResponse) :
    Received session call known response (session.receive call known response).value := by
  unfold Session.receive
  by_cases hunchanged : response.status = 304
  · rw [if_pos hunchanged]
    cases known with
    | none => exact .unknown hunchanged rfl
    | some entry => exact .unchanged hunchanged rfl
  rw [if_neg hunchanged]
  by_cases hfull : response.status = 200
  · rw [if_neg (not_not_intro hfull)]
    cases hparse : GraphResult.parse response.body with
    | error fault => exact .failed fault hunchanged fun _ answer => by simp [hparse]
    | ok answer =>
        by_cases htag : response.etag = ""
        · simp only [htag]
          exact .untagged hfull hparse htag
        · have hpresent : response.etag.isEmpty = false := by simpa using htag
          simp only [hpresent]
          cases hset : session.cache.set? call.cacheKey response.etag answer with
          | none => exact .noRoom hfull hset
          | some cache => exact .kept hfull hparse htag hset
  · rw [if_pos hfull]
    exact .failed response.fault hunchanged fun h => absurd h hfull

/-- The session after the look at what is kept for a call. -/
def look (session : Session) (call : GraphCall) : Session :=
  { session with cache := (session.cache.get call.cacheKey).2 }

/-- The tag that a request asks about. -/
def knownTag (session : Session) (call : GraphCall) : String :=
  ((session.cache.find? call.cacheKey).map (·.etag)).getD ""

theorem lookup_ifNoneMatch {session : Session} {call : GraphCall} {etag : String}
    {request : HttpRequest} (h : session.request call etag = .ok request) :
    request.headers.lookup "if-none-match" = some etag := by
  unfold Session.request at h
  cases haddress : Address.parse? (session.endpoint.callAddress call) with
  | none => simp [haddress] at h
  | some address =>
      simp only [haddress] at h
      split_ifs at h
      obtain rfl := Except.ok.inj h
      rfl

/-- Of a session, a request depends on the endpoint only. -/
theorem request_congr (endpoint : Endpoint) (cache other : EtagCache GraphResult)
    (call : GraphCall) (etag : String) :
    Session.request ⟨endpoint, cache⟩ call etag = Session.request ⟨endpoint, other⟩ call etag := rfl

/-- A turn asks with the tag that is kept. Without a request it only looks. -/
theorem exchange_of_error {session : Session} {turn : Turn} {fault : CallFault}
    (h : (session.look turn.call).request turn.call (session.knownTag turn.call) = .error fault) :
    session.exchange turn = ⟨none, .error fault, session.look turn.call⟩ := by
  rw [knownTag, ← EtagCache.fst_get, look] at h
  rw [exchange, fetch, look]
  cases hget : session.cache.get turn.call.cacheKey with
  | mk known cache =>
      simp only [hget] at h
      simp only [h]
      rfl

/-- It receives what answers the request. -/
theorem exchange_of_ok {session : Session} {turn : Turn} {request : HttpRequest}
    (h : (session.look turn.call).request turn.call (session.knownTag turn.call) = .ok request) :
    session.exchange turn =
      if request.address.isAbsolute then
        let taken := ((session.look turn.call).receive turn.call
          (session.cache.find? turn.call.cacheKey) (turn.respond request)).value
        ⟨some request, taken.1, taken.2⟩
      else ⟨some request, .error .relativeAddress, session.look turn.call⟩ := by
  rw [knownTag, ← EtagCache.fst_get, look] at h
  rw [exchange, fetch, look, ← EtagCache.fst_get]
  cases hget : session.cache.get turn.call.cacheKey with
  | mk known cache =>
      simp only [hget] at h
      simp only [h]
      cases request.address.isAbsolute <;> simp

/-- A request that can be sent to where it leads is answered. -/
theorem answered_of_request {session : Session} {turn : Turn} {request : HttpRequest}
    (hrequest : (session.look turn.call).request turn.call (session.knownTag turn.call) =
      .ok request) (habsolute : request.address.isAbsolute = true) :
    Answered session turn request (turn.respond request) where
  sent := by simp [exchange_of_ok hrequest, habsolute]
  arrives := habsolute
  response_eq := rfl

/-- A turn either fails before there is an answer, and then has only looked at the cache; or its
request asks about the tag that is kept for it, and its answer is received. -/
theorem exchange_cases (session : Session) (turn : Turn) :
    (∃ request fault, session.exchange turn = ⟨request, .error fault, session.look turn.call⟩ ∧
      ∀ response sent, ¬ Answered session turn sent response) ∨
    ∃ request outcome next, session.exchange turn = ⟨some request, outcome, next⟩ ∧
      Answered session turn request (turn.respond request) ∧
      request.headers.lookup "if-none-match" = some (session.knownTag turn.call) ∧
      Received (session.look turn.call) turn.call (session.cache.find? turn.call.cacheKey)
        (turn.respond request) (outcome, next) := by
  cases hrequest : (session.look turn.call).request turn.call (session.knownTag turn.call) with
  | error fault =>
      have hexchange := exchange_of_error hrequest
      refine .inl ⟨none, fault, hexchange, fun response sent hanswered => ?_⟩
      have hsent := hanswered.sent
      rw [hexchange] at hsent
      contradiction
  | ok request =>
      have hexchange := exchange_of_ok hrequest
      cases habsolute : request.address.isAbsolute with
      | false =>
          simp only [habsolute] at hexchange
          refine .inl ⟨some request, .relativeAddress, hexchange, fun response sent hanswered => ?_⟩
          have hsent := hanswered.sent
          rw [hexchange] at hsent
          have harrives := hanswered.arrives
          rw [← Option.some.inj hsent, habsolute] at harrives
          contradiction
      | true =>
          simp only [habsolute, if_true] at hexchange
          exact .inr ⟨request, _, _, hexchange, answered_of_request hrequest habsolute,
            lookup_ifNoneMatch hrequest, received_receive _ _ _ _⟩

end Session

theorem Answered.unique {session : Session} {turn : Turn} {request other : HttpRequest}
    {response answer : HttpResponse} (h : Answered session turn request response)
    (hother : Answered session turn other answer) : other = request ∧ answer = response := by
  obtain rfl := Option.some.inj (hother.sent.symm.trans h.sent)
  exact ⟨rfl, hother.response_eq.symm.trans h.response_eq⟩

theorem Keeps.unique {session : Session} {turn : Turn} {entry other : EtagCache.Entry GraphResult}
    (h : Keeps session turn entry) (hother : Keeps session turn other) : other = entry := by
  obtain ⟨request, response, hanswered, -, htag, hparse⟩ := h.full
  obtain ⟨sent, answer, hsent, -, htag', hparse'⟩ := hother.full
  obtain ⟨rfl, rfl⟩ := hanswered.unique hsent
  obtain ⟨key, tag, result⟩ := entry
  obtain ⟨key', tag', result'⟩ := other
  obtain rfl : key' = key := hother.key.symm.trans h.key
  obtain rfl : tag' = tag := htag'.symm.trans htag
  obtain rfl : result' = result := Except.ok.inj (hparse'.symm.trans hparse)
  rfl

/-- A response that is kept goes into the cache under the key of its call, and no other response
changes what is kept. -/
theorem exchange_session (session : Session) (turn : Turn)
    (hroom : 0 < session.cache.capacity) :
    ((session.exchange turn).session = session.look turn.call ∧
        ∀ entry, ¬ Keeps session turn entry) ∨
      ∃ entry, Keeps session turn entry ∧ (session.exchange turn).outcome = .ok entry.answer ∧
        (session.look turn.call).cache.set? entry.key entry.etag entry.answer =
          some (session.exchange turn).session.cache := by
  rcases session.exchange_cases turn with ⟨request, fault, hexchange, hunanswered⟩ |
    ⟨request, outcome, next, hexchange, hanswered, -, hreceived⟩
  · refine .inl ⟨by rw [hexchange], fun entry hkeeps => ?_⟩
    obtain ⟨sent, response, hanswered, -⟩ := hkeeps.full
    exact hunanswered response sent hanswered
  rw [hexchange]
  -- what could be kept is what came back for the request that was sent
  have hfull : ∀ entry, Keeps session turn entry →
      (turn.respond request).status = 200 ∧ (turn.respond request).etag = entry.etag ∧
        GraphResult.parse (turn.respond request).body = .ok entry.answer := by
    intro entry hkeeps
    obtain ⟨sent, response, hother, hfull⟩ := hkeeps.full
    rwa [(hanswered.unique hother).2] at hfull
  cases hreceived with
  | unknown hunchanged _ | unchanged hunchanged _ =>
      refine .inl ⟨rfl, fun entry hkeeps => ?_⟩
      have hstatus := (hfull entry hkeeps).1
      omega
  | failed fault _ hinvalid =>
      exact .inl ⟨rfl, fun entry hkeeps =>
        hinvalid (hfull entry hkeeps).1 entry.answer (hfull entry hkeeps).2.2⟩
  | untagged _ _ htag =>
      exact .inl ⟨rfl, fun entry hkeeps =>
        hkeeps.tagged ((hfull entry hkeeps).2.1.symm.trans htag)⟩
  | @noRoom answer _ hrefused =>
      have hcapacity : 0 < (session.look turn.call).cache.capacity := by
        rwa [Session.look, EtagCache.capacity_get]
      obtain ⟨cache, hcache⟩ := EtagCache.exists_set? turn.call.cacheKey
        (turn.respond request).etag answer hcapacity
      simp [hrefused] at hcache
  | @kept answer cache hstatus hvalid htag hset =>
      exact .inr ⟨⟨turn.call.cacheKey, (turn.respond request).etag, answer⟩,
        ⟨rfl, ⟨request, _, hanswered, hstatus, rfl, hvalid⟩, htag⟩, rfl, hset⟩

/-! ### Whole runs -/

/-- What holds of the cache of a client after some turns: it is within the room that the client
has, it has one entry for a key, and every entry is the most recent one that there was to be kept
under its key. -/
structure Faithful (first : Session) (capacity : Nat) (turns : List Turn)
    (cache : EtagCache GraphResult) : Prop where
  room : cache.capacity = capacity
  size : cache.size ≤ capacity
  distinct : cache.Distinct
  recent : ∀ entry ∈ cache.entries, MostRecent first turns entry

/-- One more turn. -/
theorem Faithful.concat {first : Session} {capacity : Nat} {turns : List Turn}
    (h : Faithful first capacity turns (first.after turns).cache) (hroom : 0 < capacity)
    (turn : Turn) :
    Faithful first capacity (turns ++ [turn]) (first.after (turns ++ [turn])).cache := by
  rw [Session.after_concat]
  have hlooked : Faithful first capacity turns ((first.after turns).look turn.call).cache :=
    have hperm := h.distinct.entries_get_perm
    ⟨EtagCache.capacity_get.trans h.room, Nat.le_trans (Nat.le_of_eq hperm.length_eq) h.size,
      h.distinct.get, fun entry hmem => h.recent entry (hperm.mem_iff.mp hmem)⟩
  rcases exchange_session (first.after turns) turn (h.room ▸ hroom) with
    ⟨hsame, hnothing⟩ | ⟨entry, hkeeps, -, hset⟩
  · rw [hsame]
    exact ⟨hlooked.room, hlooked.size, hlooked.distinct, fun entry hmem =>
      (hlooked.recent entry hmem).concat fun other hother => absurd hother (hnothing other)⟩
  · have hcapacity := (EtagCache.capacity_of_set? hset).trans hlooked.room
    have hsize := EtagCache.size_of_set?_le hset (hlooked.room ▸ hlooked.size)
    refine ⟨hcapacity, hcapacity ▸ hsize, hlooked.distinct.set? hset, fun kept hmem => ?_⟩
    rcases EtagCache.mem_of_set? hset hmem with rfl | ⟨hmem, hkey⟩
    · exact .of_keeps hkeeps
    · refine (hlooked.recent kept hmem).concat fun other hother => ?_
      rw [← hother.key, hkeeps.key]
      exact hkey.symm

theorem faithful_after (endpoint : Endpoint) {capacity : Nat} (hroom : 0 < capacity)
    (turns : List Turn) :
    Faithful (.start endpoint capacity) capacity turns
      ((Session.start endpoint capacity).after turns).cache := by
  induction turns using List.reverseRecOn with
  | nil =>
      exact ⟨rfl, Nat.zero_le capacity, EtagCache.distinct_empty capacity,
        by simp [Session.start, EtagCache.empty]⟩
  | append_singleton turns turn ih => exact ih.concat hroom turn

/-- **Conditional requests are safe.** After any turns of a client with room for an answer, a call
that is told that nothing has changed has the answer of the most recent call with its key that was
answered in full and with a tag, and has asked about that tag; it fails exactly if nothing is kept
for its key, and has asked about no tag then. Calls that fail leave what is kept alone, and there is
never more than there is room for. -/
theorem conditional_requests_safe (endpoint : Endpoint) (capacity : Nat) (hroom : 0 < capacity)
    (turns : List Turn) (turn : Turn) :
    let session := (Session.start endpoint capacity).after turns
    let exchange := session.exchange turn
    (∀ request response, Answered session turn request response → response.status = 304 →
      (exchange.outcome = .error (.status 304 "Not Modified without a cached result") ∨
        ∃ entry, MostRecent (.start endpoint capacity) turns entry ∧
          entry.key = turn.call.cacheKey ∧ exchange.outcome = .ok entry.answer ∧
          request.headers.lookup "if-none-match" = some entry.etag) ∧
      ((∃ fault, exchange.outcome = .error fault) ↔
        session.cache.find? turn.call.cacheKey = none) ∧
      (session.cache.find? turn.call.cacheKey = none →
        request.headers.lookup "if-none-match" = some "")) ∧
    (∀ fault, exchange.outcome = .error fault →
      exchange.session.cache.entries.Perm session.cache.entries) ∧
    session.cache.size ≤ capacity := by
  intro session exchange
  have hfaithful := faithful_after endpoint hroom turns
  refine ⟨fun request response hanswered hstatus => ?_, fun fault hfault => ?_, hfaithful.size⟩
  · rcases session.exchange_cases turn with ⟨_, _, -, hunanswered⟩ |
      ⟨sent, outcome, next, hexchange, hsent, htag, hreceived⟩
    · exact absurd hanswered (hunanswered response request)
    obtain ⟨rfl, rfl⟩ := hsent.unique hanswered
    have houtcome : exchange.outcome = outcome := by rw [show exchange = _ from hexchange]
    rw [houtcome, htag, Session.knownTag]
    cases hreceived with
    | unknown _ hmissing => simp [hmissing]
    | @unchanged entry _ hkept =>
        refine ⟨.inr ⟨entry, hfaithful.recent entry (EtagCache.mem_of_find? hkept),
          EtagCache.key_of_find? hkept, rfl, by simp [hkept]⟩, by simp [hkept], by simp [hkept]⟩
    | failed _ hchanged _ => exact absurd hstatus hchanged
    | untagged hfull _ _ | noRoom hfull _ | kept hfull _ _ _ => omega
  · rcases exchange_session session turn (hfaithful.room ▸ hroom) with
      ⟨hsame, -⟩ | ⟨entry, -, houtcome, -⟩
    · rw [hsame]
      exact hfaithful.distinct.entries_get_perm
    · rw [show exchange.outcome = _ from houtcome] at hfault
      contradiction

namespace TaggedAnswers

def endpoint : Endpoint := ⟨"https://graph", "site", "schema"⟩

def call : GraphCall := ⟨"\x7b a \x7d", "A", [], "", .post⟩

/-- A turn that is answered in full, under a tag. -/
def first : Turn := ⟨call, fun _ => ⟨200, "\x7b\"data\":1\x7d", [("ETag", "t1")]⟩⟩

/-- The same call, which is told that nothing has changed. -/
def second : Turn := ⟨call, fun _ => ⟨304, "", []⟩⟩

/-- What is kept of the first turn. -/
def entry : EtagCache.Entry GraphResult := ⟨call.cacheKey, "t1", ⟨.int 1, none⟩⟩

/-- The request for a call that asks about a tag. -/
def request (tag : String) : HttpRequest :=
  ⟨.post, ⟨"https".toList, [], "graph".toList, none, "/graphql".toList,
      some "app_id=site&operationName=A&schema_id=schema".toList, none⟩,
    [("content-type", "application/json"), ("if-none-match", tag)],
    "\x7b\"query\": \"\x7b a \x7d\", \"variables\": \x7b\x7d, \"operationName\": \"A\"\x7d"⟩

theorem request_eq (cache : EtagCache GraphResult) :
    Session.request ⟨endpoint, cache⟩ call "" = .ok (request "") ∧
      Session.request ⟨endpoint, cache⟩ call "t1" = .ok (request "t1") := by
  simp only [Session.request_congr endpoint cache (.empty 0)]
  decide +kernel

theorem parse_body : GraphResult.parse "\x7b\"data\":1\x7d" = .ok ⟨.int 1, none⟩ := by
  have htext : Json.decode? "\x7b\"data\":1\x7d" = some "\x7b\"data\":1\x7d" := by decide +kernel
  have hread : Json.parse "\x7b\"data\":1\x7d" = .ok (.object [("data", .int 1)]) := by
    decide +kernel
  rw [GraphResult.parse, htext]
  simp only [hread]
  rfl

theorem keeps_first : Keeps (.start endpoint 1) first entry where
  key := rfl
  full := ⟨_, _, Session.answered_of_request (request_eq _).1 rfl, rfl, by decide +kernel,
    parse_body⟩
  tagged := by decide

/-- The session after the first turn. -/
theorem after_first : (Session.start endpoint 1).after [first] = ⟨endpoint, 1, [entry]⟩ := by
  have hcache : ((Session.start endpoint 1).after [first]).cache = ⟨1, [entry]⟩ := by
    rcases exchange_session (.start endpoint 1) first (by decide) with ⟨-, hnothing⟩ |
      ⟨kept, hkeeps, -, hset⟩
    · exact absurd keeps_first (hnothing entry)
    · obtain rfl := keeps_first.unique hkeeps
      exact (Option.some.inj hset).symm
  have hendpoint : ((Session.start endpoint 1).after [first]).endpoint = endpoint := by
    decide +kernel
  cases hafter : (Session.start endpoint 1).after [first] with
  | mk host cache =>
      rw [hafter] at hcache hendpoint
      rw [← hcache, ← hendpoint]

/-- The second call asks about the tag that is kept of the first one. -/
theorem request_second :
    (Session.look ⟨endpoint, 1, [entry]⟩ second.call).request second.call
      (Session.knownTag ⟨endpoint, 1, [entry]⟩ second.call) = .ok (request "t1") := by
  have htag : Session.knownTag ⟨endpoint, 1, [entry]⟩ second.call = "t1" := by
    simp [Session.knownTag, EtagCache.find?, entry, second]
  rw [htag]
  exact (request_eq _).2

theorem answered_second :
    Answered ((Session.start endpoint 1).after [first]) second (request "t1") ⟨304, "", []⟩ := by
  rw [after_first]
  exact Session.answered_of_request request_second rfl

/-- The second call has the answer of the first one, and has asked about its tag. -/
theorem second_unchanged :
    0 < 1 ∧ ∃ kept, MostRecent (.start endpoint 1) [first] kept ∧ kept.key = call.cacheKey ∧
      (((Session.start endpoint 1).after [first]).exchange second).outcome = .ok kept.answer ∧
      (request "t1").headers.lookup "if-none-match" = some kept.etag := by
  obtain ⟨houtcome, hfails, -⟩ := (conditional_requests_safe endpoint 1 (by decide) [first]
    second).1 (request "t1") _ answered_second rfl
  refine ⟨by decide, houtcome.resolve_left fun herror => ?_⟩
  have hfind := hfails.mp ⟨_, herror⟩
  rw [after_first] at hfind
  simp [EtagCache.find?, entry, second] at hfind

end TaggedAnswers

end OperationLibrary
