import PrismHTTP.Server.HttpResponse

/-! The request handlers of the key-value stores.
The sharded and the replicated backend differ in what follows a stored PUT only. The database
is outside: what its calls return is given, and the calls made are part of the result.
-/

namespace PrismHTTP.Kvs
open PrismHTTP.Server MemoryBlock

/-- What the handlers read of a request: the bytes from `method` on, the path and the body. -/
structure KvsRequest where
  method : Bytes
  path : Bytes
  body : Bytes
  deriving DecidableEq

/-- `strncmp` of the method with a literal returns zero. -/
def KvsRequest.MethodIs (req : KvsRequest) (name : String) : Prop :=
  literal name <+: req.method

instance (req : KvsRequest) (name : String) : Decidable (req.MethodIs name) :=
  inferInstanceAs (Decidable (_ <+: _))

inductive GetAnswer where
  | found (val : Bytes)
  | notFound
  | failed
  deriving DecidableEq

/-- `leveldb::DB`: what its calls return, the writing ones whether their status is OK. -/
structure LevelDb where
  get : Bytes → GetAnswer
  put : Bytes → Bytes → Bool
  delete : Bytes → Bool

inductive DbCall where
  | get (path : Bytes)
  | put (path body : Bytes)
  | delete (path : Bytes)
  deriving DecidableEq

/-- Whether the status the database returns for a call is OK. -/
def LevelDb.ok (db : LevelDb) : DbCall → Bool
  | .get path =>
      match db.get path with
      | .found _ => true
      | .notFound | .failed => false
  | .put path body => db.put path body
  | .delete path => db.delete path

/-- A table of connections that are used in turn, and whose turn it is. -/
structure Pool where
  rrFactor : UInt32
  size : UInt32
  deriving DecidableEq

def Pool.next (pool : Pool) : Pool :=
  { pool with rrFactor := if pool.rrFactor + 1 = pool.size then 0 else pool.rrFactor + 1 }

/-- What a handler that returned zero leaves behind. -/
structure Handled where
  res : HttpResponse
  pool : Pool
  calls : List DbCall

def answer (res : HttpResponse) (status : UInt32) (reason : String) : HttpResponse :=
  { res with status := status, reason := literal reason }

/-- Our own status 600 makes the server hand the request over. -/
def handoffTo (res : HttpResponse) (target : HandoffData) : HttpResponse :=
  { answer res 600 "Handoff" with handoffData := some target }

/-- The value copied to the body buffer's begin. The new block is only as large as what was
missing; `none` is `memcpy` past its end, and `membuf_consume`'s error is ignored.
-/
def setBody (res : HttpResponse) (val : Bytes) (grown : Block) : Option HttpResponse :=
  let bodyMem :=
    if res.bodyMem.avail < val.length then
      res.bodyMem.grow (val.length - res.bodyMem.avail) grown
    else
      res.bodyMem
  if val.length ≤ bodyMem.size then
    let copied : Membuf := { bodyMem with mem := store bodyMem.mem 0 val }
    some { res with bodyMem := (copied.consume val.length).getD copied }
  else
    none

/-- The handler of both backends; `nextServer` tells whether there is one to forward PUTs to.
-/
def backendHandler (nextServer : Bool) (pool : Pool) (db : LevelDb) (grown : Block)
    (req : KvsRequest) (res : HttpResponse) (imported : Bool) : Option Handled :=
  if imported = false then
    some ⟨handoffTo res (.entry pool.rrFactor.toNat), pool.next, []⟩
  else if req.MethodIs "GET" then
    let calls := [DbCall.get req.path]
    match db.get req.path with
    | .notFound => some ⟨answer res 404 "Not Found", pool, calls⟩
    | .failed => some ⟨answer res 500 "LevelDB GET Failed\n", pool, calls⟩
    | .found val =>
        (setBody res val grown).map fun res => ⟨answer res 200 "OK", pool, calls⟩
  else if req.MethodIs "PUT" then
    if req.body.length = 0 then
      some ⟨answer res 400 "PUT need to have body\n", pool, []⟩
    else
      let calls := [DbCall.put req.path req.body]
      if db.put req.path req.body = false then
        some ⟨answer res 500 "LevelDB PUT Failed\n", pool, calls⟩
      else if nextServer then
        some ⟨handoffTo res .nextServer, pool, calls⟩
      else
        some ⟨answer res 200 "OK", pool, calls⟩
  else if req.MethodIs "DELETE" then
    let calls := [DbCall.delete req.path]
    if db.delete req.path = false then
      some ⟨answer res 500 "LevelDB DELETE Failed\n", pool, calls⟩
    else
      (httpResponseAddHeader res (literal "Connection") (literal "close")).map fun res =>
        ⟨answer res 204 "NoContent\n", pool, calls⟩
  else
    some ⟨answer res 405 "Method Not Allowed\n", pool, []⟩

namespace Sharded

/-- The backend of `apps/kvs`, which has no next server. -/
def kvsBackendRequestHandler (pool : Pool) (db : LevelDb) (grown : Block) (req : KvsRequest)
    (res : HttpResponse) (imported : Bool) : Option Handled :=
  backendHandler false pool db grown req res imported

end Sharded

namespace Repl

/-- The backend of `apps/kvs-repl`. -/
def kvsBackendRequestHandler (nextServer : Bool) (pool : Pool) (db : LevelDb) (grown : Block)
    (req : KvsRequest) (res : HttpResponse) (imported : Bool) : Option Handled :=
  backendHandler nextServer pool db grown req res imported

/-- The proxy of `apps/kvs-repl`, which leaves the response to other methods alone. -/
def kvsProxyRequestHandler (pool : Pool) (req : KvsRequest) (res : HttpResponse) : Handled :=
  if req.MethodIs "GET" then
    ⟨handoffTo res (.entry pool.rrFactor.toNat), pool.next, []⟩
  else if req.MethodIs "PUT" then
    ⟨handoffTo res (.entry 0), pool, []⟩
  else
    ⟨res, pool, []⟩

end Repl

/-- A PUT that is stored. -/
structure KvsRequest.Stores (req : KvsRequest) : Prop where
  put : req.MethodIs "PUT"
  some_body : req.body ≠ []

/-- The call that stores it. -/
def KvsRequest.putCall (req : KvsRequest) : DbCall := .put req.path req.body

/-- The methods are told apart by their first letters. -/
theorem KvsRequest.MethodIs.put_not_get {req : KvsRequest} (put : req.MethodIs "PUT")
    : ¬ req.MethodIs "GET" := by
  intro get
  have same : literal "PUT" = literal "GET" :=
    (List.prefix_of_prefix_length_le put get (by decide +kernel)).eq_of_length
      (by decide +kernel)
  exact absurd same (by decide +kernel)

/-- An imported PUT with a body is given to the database once, and is then answered with a
failure, forwarded or acknowledged.
-/
theorem backendHandler_put {nextServer : Bool} {pool : Pool} {db : LevelDb} {grown : Block}
    {req : KvsRequest} {res : HttpResponse} (put : req.MethodIs "PUT")
    (some_body : req.body ≠ [])
    : backendHandler nextServer pool db grown req res true
      = some
        ⟨if db.put req.path req.body = false then answer res 500 "LevelDB PUT Failed\n"
          else if nextServer then handoffTo res .nextServer
          else answer res 200 "OK", pool, [.put req.path req.body]⟩ := by
  have length : req.body.length ≠ 0 := fun zero => some_body (List.length_eq_zero_iff.mp zero)
  rw [backendHandler, if_neg (by decide), if_neg put.put_not_get, if_pos put, if_neg length]
  dsimp only
  split
  · rfl
  · split <;> rfl

end PrismHTTP.Kvs
