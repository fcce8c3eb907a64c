import PrismHTTP.Kvs.Handlers
import PrismHTTP.Server.ResponseGrammar

/-! Which answers of the key-value stores are well-formed responses.
Half of the reasons end in a line feed of their own, which makes the empty line come before
the headers; and a response that the proxy leaves alone has no status to print.
-/

namespace PrismHTTP.Kvs
open PrismHTTP.Server MemoryBlock Phr

/-- A response as handlers are given it, just initialised or reset. -/
structure Untouched (res : HttpResponse) : Prop where
  head : res.mem.cur = 0 ∧ res.mem.size = responseHeadSize
  body : res.bodyMem.cur = 0 ∧ res.bodyMem.size = responseBodySize
  status : res.status = 0
  headers : res.headers = []

/-- A new response has not been touched. -/
theorem untouched_init (head body : Block) : Untouched (httpResponseInit head body) :=
  ⟨⟨rfl, rfl⟩, ⟨rfl, rfl⟩, rfl, rfl⟩

/-- The handler returned, and the request is handed over or its response is written as one
well-formed response.
-/
def WellAnswered (handled : Option Handled) : Prop :=
  ∃ out, handled = some out
    ∧ (out.res.status ≠ 600 →
      ∃ written, phttpSendHttpRes out.res false = some written ∧ WellFormed out.res written)

/-- What a GET can answer with: a value that fits the body buffer, or none. -/
def GetAnswer.Fits : GetAnswer → Prop
  | .found val => val.length ≤ responseBodySize
  | .notFound => True
  | .failed => False

instance : (got : GetAnswer) → Decidable got.Fits
  | .found _ => inferInstanceAs (Decidable (_ ≤ _))
  | .notFound => inferInstanceAs (Decidable True)
  | .failed => inferInstanceAs (Decidable False)

/-- What a backend can answer without breaking the response: a GET of a key that is not there
or whose value fits the body buffer, and a PUT with a body that is stored.
-/
def Answerable (db : LevelDb) (req : KvsRequest) : Prop :=
  if req.MethodIs "GET" then
    (db.get req.path).Fits
  else
    req.MethodIs "PUT" ∧ req.body ≠ [] ∧ db.put req.path req.body = true

instance (db : LevelDb) (req : KvsRequest) : Decidable (Answerable db req) :=
  inferInstanceAs
    (Decidable
      (if req.MethodIs "GET" then
        (db.get req.path).Fits
      else
        req.MethodIs "PUT" ∧ req.body ≠ [] ∧ db.put req.path req.body = true))

section Exits

variable {res : HttpResponse} {pool : Pool} {calls : List DbCall}

/-- A request handed over is answered elsewhere. -/
theorem wellAnswered_handoff (target : HandoffData)
    : WellAnswered (some ⟨handoffTo res target, pool, calls⟩) :=
  ⟨_, rfl, fun other => absurd rfl other⟩

/-- The head of a response without further headers is short. -/
theorem fresh_of_short (head : res.mem.cur = 0 ∧ res.mem.size = responseHeadSize)
    (low : 100 ≤ res.status.toNat) (high : res.status.toNat ≤ 999)
    (short : res.reason.length ≤ 100) (headers : (res.headers.flatMap HttpField.line).length ≤ 100)
    (body : res.bodyMem.used ≤ responseBodySize)
    : res.Fresh := by
  have server : serverField.line.length = 15 := by decide +kernel
  have name : (literal "Content-Length").length = 14 := by decide +kernel
  have digits : (decimal res.bodyMem.used).length ≤ 7 := by
    rw [decimal, List.length_map, Nat.length_toDigits_le_iff (by decide) (by decide)]
    exact Nat.lt_of_le_of_lt body (by decide)
  have length := res.lengthField.length_line
  simp only [HttpResponse.lengthField, name] at length
  refine ⟨head.1, ?_⟩
  rw [head.2, HttpResponse.head, List.length_append, res.length_statusLine low high]
  simp only [HttpResponse.fields, List.flatMap_cons, List.length_append, server,
    HttpResponse.lengthField, length, responseHeadSize]
  omega

/-- A short answer without further headers is well formed when its reason stays on its line.
-/
theorem wellAnswered_answer (head : res.mem.cur = 0 ∧ res.mem.size = responseHeadSize)
    (headers : res.headers = []) (body : res.bodyMem.used ≤ responseBodySize)
    {status : UInt32} {reason : String} (range : 100 ≤ status.toNat ∧ status.toNat ≤ 999)
    (short : (literal reason).length ≤ 100) (oneLine : OneLine (literal reason))
    : WellAnswered (some ⟨answer res status reason, pool, calls⟩) := by
  have fresh : (answer res status reason).Fresh := by
    refine fresh_of_short head range.1 range.2 short ?_ body
    change (res.headers.flatMap HttpField.line).length ≤ 100
    rw [headers]
    decide
  refine ⟨_, rfl, fun _ => ⟨_, fresh.send, ?_⟩⟩
  refine fresh.wellFormed ?_ range.1 range.2 oneLine ?_ ?_
  · change res.mem.size ≤ 2 ^ 31
    rw [head.2]
    decide
  · change ∀ h ∈ res.headers, h.Readable
    rw [headers]
    intro h member
    cases member
  · change res.headers.length + 2 ≤ HTTP_HEADERS_MAX
    rw [headers]
    decide

/-- A short answer is not well formed when its reason ends its line. -/
theorem not_wellAnswered_lineFeed (head : res.mem.cur = 0 ∧ res.mem.size = responseHeadSize)
    (headers : (res.headers.flatMap HttpField.line).length ≤ 100)
    (body : res.bodyMem.used ≤ responseBodySize) {status : UInt32} {reason : String}
    (text : String) (range : 100 ≤ status.toNat ∧ status.toNat ≤ 599)
    (ends : literal reason = literal text ++ [10]) (oneLine : OneLine (literal text))
    (short : (literal reason).length ≤ 100)
    : ¬ WellAnswered (some ⟨answer res status reason, pool, calls⟩) := by
  rintro ⟨out, handled, formed⟩
  obtain rfl := Option.some.inj handled
  have fresh : (answer res status reason).Fresh :=
    fresh_of_short head range.1 (Nat.le_trans range.2 (by decide)) short headers body
  have other : status ≠ 600 := by
    rintro rfl
    exact absurd range.2 (by decide)
  obtain ⟨written, sent, formed⟩ := formed other
  rw [fresh.send] at sent
  obtain rfl := Option.some.inj sent
  exact not_wellFormed_of_lineFeed oneLine ends _ formed

end Exits

section Answers

variable {res : HttpResponse} (untouched : Untouched res) {pool : Pool} {calls : List DbCall}

include untouched

/-- A response without a body yet. -/
theorem used_le : res.bodyMem.used ≤ responseBodySize := by
  rw [Membuf.used, untouched.body.1]
  exact Nat.zero_le _

/-- A failure's answer, whose reason is given without the line feed it ends in. -/
theorem not_wellAnswered_answer {status : UInt32} {reason : String} (text : String)
    (range : 100 ≤ status.toNat ∧ status.toNat ≤ 599)
    (ends : literal reason = literal text ++ [10]) (oneLine : OneLine (literal text))
    (short : (literal reason).length ≤ 100)
    : ¬ WellAnswered (some ⟨answer res status reason, pool, calls⟩) := by
  refine not_wellAnswered_lineFeed untouched.head ?_ (used_le untouched) text range ends oneLine
    short
  rw [untouched.headers]
  decide

/-- A value that fits the body buffer becomes the body; a larger one overruns the new block. -/
theorem setBody_eq (val : Bytes) (grown : Block)
    : if val.length ≤ responseBodySize then
        ∃ bodyMem, setBody res val grown = some { res with bodyMem := bodyMem }
          ∧ bodyMem.filled = val
      else
        setBody res val grown = none := by
  obtain ⟨cur, size⟩ := untouched.body
  have avail : res.bodyMem.avail = responseBodySize := by rw [Membuf.avail, cur, size]; rfl
  split
  · next fits =>
      have enough : ¬ res.bodyMem.avail < val.length := by omega
      unfold setBody
      rw [if_neg enough, if_pos (size ▸ fits)]
      refine ⟨_, rfl, ?_⟩
      rw [Membuf.consume, dif_pos (show val.length ≤ _ from avail ▸ fits), Option.getD_some]
      change load (store res.bodyMem.mem 0 val) 0 (res.bodyMem.cur + val.length) = val
      rw [cur, Nat.zero_add, load_store_self]
  · next large =>
      have short : res.bodyMem.avail < val.length := by omega
      unfold setBody
      rw [if_pos short]
      -- the new block has the size of what was missing only
      have tooSmall : ¬ val.length
          ≤ (res.bodyMem.grow (val.length - res.bodyMem.avail) grown).size := by
        change ¬ val.length ≤ res.bodyMem.cur + (val.length - res.bodyMem.avail)
        have positive : 0 < responseBodySize := by decide
        omega
      exact if_neg tooSmall

section Methods

variable {nextServer : Bool} {db : LevelDb} {grown : Block} {req : KvsRequest}

/-- A GET is well answered exactly when the store's answer allows it, by cases on this answer.
-/
theorem get_wellAnswered_iff (get : req.MethodIs "GET")
    : WellAnswered (backendHandler nextServer pool db grown req res true)
      ↔ Answerable db req := by
  rw [backendHandler, if_neg (by decide), if_pos get, Answerable, if_pos get]
  dsimp only
  cases db.get req.path with
  | notFound =>
      refine iff_of_true ?_ trivial
      exact wellAnswered_answer untouched.head untouched.headers (used_le untouched) (by decide)
        (by decide +kernel) (by decide +kernel)
  | failed =>
      refine iff_of_false ?_ id
      exact not_wellAnswered_answer untouched "LevelDB GET Failed" (by decide)
        (by decide +kernel) (by decide +kernel) (by decide +kernel)
  | found val =>
      have body := setBody_eq untouched val grown
      dsimp only
      split at body
      · next fits =>
          obtain ⟨bodyMem, set, filled⟩ := body
          have used : bodyMem.used = val.length := by rw [← filled, Membuf.length_filled]; rfl
          rw [set]
          refine iff_of_true ?_ fits
          exact @wellAnswered_answer { res with bodyMem := bodyMem } _ _ untouched.head
            untouched.headers (used ▸ fits) 200 "OK" (by decide) (by decide +kernel)
            (by decide +kernel)
      · next large =>
          -- the copy ran past the block, so there is no response at all
          rw [body]
          refine iff_of_false ?_ large
          rintro ⟨out, overrun, -⟩
          cases overrun

/-- A PUT is well answered exactly when the store's answer allows it, by cases on this answer.
-/
theorem put_wellAnswered_iff (put : req.MethodIs "PUT")
    : WellAnswered (backendHandler nextServer pool db grown req res true)
      ↔ Answerable db req := by
  have notGet := put.put_not_get
  rw [Answerable, if_neg notGet, and_iff_right put]
  by_cases some_body : req.body = []
  · have length : req.body.length = 0 := by rw [some_body]; rfl
    rw [backendHandler, if_neg (by decide), if_neg notGet, if_pos put, if_pos length]
    refine iff_of_false ?_ (fun stored => stored.1 some_body)
    exact not_wellAnswered_answer untouched "PUT need to have body" (by decide)
      (by decide +kernel) (by decide +kernel) (by decide +kernel)
  · rw [backendHandler_put put some_body, and_iff_right some_body]
    cases stored : db.put req.path req.body with
    | false =>
        refine iff_of_false ?_ (by decide)
        exact not_wellAnswered_answer untouched "LevelDB PUT Failed" (by decide)
          (by decide +kernel) (by decide +kernel) (by decide +kernel)
    | true =>
        refine iff_of_true ?_ rfl
        rw [if_neg (by decide)]
        cases nextServer with
        | true => exact wellAnswered_handoff _
        | false =>
            exact wellAnswered_answer untouched.head untouched.headers (used_le untouched)
              (by decide) (by decide +kernel) (by decide +kernel)

/-- Every answer to another method has a reason that ends its line. -/
theorem other_not_wellAnswered (notGet : ¬ req.MethodIs "GET") (notPut : ¬ req.MethodIs "PUT")
    : ¬ WellAnswered (backendHandler nextServer pool db grown req res true) := by
  rw [backendHandler, if_neg (by decide), if_neg notGet, if_neg notPut]
  by_cases delete : req.MethodIs "DELETE"
  · rw [if_pos delete]
    cases db.delete req.path with
    | false =>
        exact not_wellAnswered_answer untouched "LevelDB DELETE Failed" (by decide)
          (by decide +kernel) (by decide +kernel) (by decide +kernel)
    | true =>
        -- the header is added, but the reason has ended the head before it
        have added : httpResponseAddHeader res (literal "Connection") (literal "close")
            = some { res with headers := [⟨literal "Connection", literal "close"⟩] } := by
          rw [httpResponseAddHeader, untouched.headers]
          rfl
        have line : (([⟨literal "Connection", literal "close"⟩] : List HttpField).flatMap
            HttpField.line).length ≤ 100 := by decide +kernel
        simp only [Bool.true_eq_false, if_false, added, Option.map_some]
        exact @not_wellAnswered_lineFeed
          { res with headers := [⟨literal "Connection", literal "close"⟩] } _ _ untouched.head
          line (used_le untouched :) 204 "NoContent\n" "NoContent" (by decide)
          (by decide +kernel) (by decide +kernel) (by decide +kernel)
  · rw [if_neg delete]
    exact not_wellAnswered_answer untouched "Method Not Allowed" (by decide)
      (by decide +kernel) (by decide +kernel) (by decide +kernel)

/-- The backends answer well exactly what they hand over or can answer. -/
theorem backendHandler_wellAnswered_iff (imported : Bool)
    : WellAnswered (backendHandler nextServer pool db grown req res imported)
      ↔ imported = false ∨ Answerable db req := by
  cases imported with
  | false => exact iff_of_true (wellAnswered_handoff _) (Or.inl rfl)
  | true =>
      rw [or_iff_right (show ¬ true = false by decide)]
      by_cases get : req.MethodIs "GET"
      · exact get_wellAnswered_iff untouched get
      · by_cases put : req.MethodIs "PUT"
        · exact put_wellAnswered_iff untouched put
        · refine iff_of_false (other_not_wellAnswered untouched get put) ?_
          rw [Answerable, if_neg get]
          exact fun stored => put stored.1

/-- The proxy hands GET and PUT over, and has no status to print for anything else. -/
theorem proxy_wellAnswered_iff
    : WellAnswered (some (Repl.kvsProxyRequestHandler pool req res))
      ↔ req.MethodIs "GET" ∨ req.MethodIs "PUT" := by
  rw [Repl.kvsProxyRequestHandler]
  by_cases get : req.MethodIs "GET"
  · rw [if_pos get]
    exact iff_of_true (wellAnswered_handoff _) (Or.inl get)
  · rw [if_neg get, or_iff_right get]
    by_cases put : req.MethodIs "PUT"
    · rw [if_pos put]
      exact iff_of_true (wellAnswered_handoff _) put
    · rw [if_neg put]
      refine iff_of_false ?_ put
      rintro ⟨out, handled, formed⟩
      obtain rfl := Option.some.inj handled
      have other : res.status ≠ 600 := by
        rw [untouched.status]
        decide
      obtain ⟨_, -, formed⟩ := formed other
      -- the status is still the zero of `http_response_init`
      have digits := formed.threeDigits.1
      rw [show res.status = 0 from untouched.status] at digits
      exact absurd digits (by decide)

end Methods

end Answers

/-- The backends' responses are well formed exactly for the requests they hand over and for
those they can answer, the proxy's exactly for those it hands over.
-/
theorem responses_wellFormed_iff {res : HttpResponse} (untouched : Untouched res) (pool : Pool)
    (db : LevelDb) (grown : Block) (req : KvsRequest) (imported : Bool)
    : (WellAnswered (Sharded.kvsBackendRequestHandler pool db grown req res imported)
        ↔ imported = false ∨ Answerable db req)
      ∧ (∀ nextServer,
          WellAnswered
            (Repl.kvsBackendRequestHandler nextServer pool db grown req res imported)
          ↔ imported = false ∨ Answerable db req)
      ∧ (WellAnswered (some (Repl.kvsProxyRequestHandler pool req res))
        ↔ req.MethodIs "GET" ∨ req.MethodIs "PUT") :=
  ⟨backendHandler_wellAnswered_iff untouched imported,
    fun _ => backendHandler_wellAnswered_iff untouched imported,
    proxy_wellAnswered_iff untouched⟩

section Sample

/-- A database with one value, whose writing calls succeed. -/
def sampleDb : LevelDb where
  get := fun path => if path = literal "/k" then .found (literal "v") else .notFound
  put := fun _ _ => true
  delete := fun _ => true

def sampleBlock : Block := ⟨0, fun _ => 0⟩

def sampleResponse : HttpResponse := httpResponseInit sampleBlock sampleBlock

/-- A GET whose value is in the store is well answered. -/
theorem responses_wellFormed_iff_sample
    : WellAnswered (Sharded.kvsBackendRequestHandler ⟨0, 1⟩ sampleDb sampleBlock
        ⟨literal "GET /k HTTP/1.1", literal "/k", []⟩ sampleResponse true) :=
  (responses_wellFormed_iff (untouched_init sampleBlock sampleBlock) ⟨0, 1⟩ sampleDb sampleBlock
    ⟨literal "GET /k HTTP/1.1", literal "/k", []⟩ true).1.mpr (Or.inr (by decide +kernel))

/-- The answer to a DELETE is written, and is read back without a header. -/
theorem response_loses_headers
    : let handled := Sharded.kvsBackendRequestHandler ⟨0, 1⟩ sampleDb sampleBlock
        ⟨literal "DELETE /k HTTP/1.1", literal "/k", []⟩ sampleResponse true
      ¬ WellAnswered handled
      ∧ handled.map (·.res.status) = some 204
      ∧ (handled.bind fun out => phttpSendHttpRes out.res false).map
          (fun written => (phrParseResponse HTTP_HEADERS_MAX written 0).2.headers)
        = some [] := by
  refine ⟨?_, by decide +kernel, by decide +kernel⟩
  exact other_not_wellAnswered (untouched_init sampleBlock sampleBlock) (by decide +kernel)
    (by decide +kernel)

end Sample

end PrismHTTP.Kvs
