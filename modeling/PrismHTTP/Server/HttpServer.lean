import PrismHTTP.Server.HttpRequest

/-! Receiving a request, from the event loop's reads to the handler's call.
The header block is parsed again at each read until it is complete; then the body is counted
by the distance between `cur` and the address stored for its start. Until the handler is
called no response is being written, so no other callback touches the request.
-/

namespace PrismHTTP.Server
open MemoryBlock

inductive HttpState where
  /-- `HTTP_PARSING_HEADER` -/
  | parsingHeader
  /-- `HTTP_RECEIVING_BODY` -/
  | receivingBody
  deriving DecidableEq

/-- What a handler reads of a request, through the pointers in it. -/
structure Seen where
  method : Option Bytes
  path : Option Bytes
  minorVersion : Int
  headers : List (Option Bytes × Option Bytes)
  body : Option Bytes
  deriving DecidableEq

def HttpRequest.seen (req : HttpRequest) : Seen where
  method := req.mem.text req.method
  path := req.mem.text req.path
  minorVersion := req.minorVersion
  headers := req.headers.map fun h => (req.mem.text h.name, req.mem.text h.val)
  body := req.mem.text ⟨req.body, req.bodyLen.toNat⟩

/-- A call of `request_handler`, and how many bytes had been received by then. -/
structure Call where
  seen : Seen
  received : Nat
  deriving DecidableEq

/-- `http_client_socket`, with the handler's calls so far. `received` is what the client's
bytes have come to, and influences no step.
-/
structure HttpClientSocket where
  req : HttpRequest
  httpState : HttpState
  calls : List Call
  closed : Bool
  crashed : Bool
  received : Bytes

/-- A connection whose request was just reset; its buffer may have grown before. -/
def HttpClientSocket.fresh (req : HttpRequest) : HttpClientSocket where
  req := httpRequestReset req
  httpState := .parsingHeader
  calls := []
  closed := false
  crashed := false
  received := []

namespace HttpClientSocket

def phttpOnAlloc (hcs : HttpClientSocket) (block : Block) : HttpClientSocket :=
  { hcs with req := { hcs.req with mem := hcs.req.mem.makeRoom block } }

/-- `request_handler` is called. The response it leaves is written later. -/
def callHandler (hcs : HttpClientSocket) : HttpClientSocket :=
  { hcs with calls := hcs.calls ++ [⟨hcs.req.seen, hcs.received.length⟩] }

/-- The bytes between the body's stored address and `cur`, subtracted as `uint64_t`. -/
def bodyReceived (req : HttpRequest) : UInt64 :=
  req.mem.base + .ofNat req.mem.cur - req.body

/-- The case `HTTP_RECEIVING_BODY` of `phttp_on_read`. -/
def receiveBody (hcs : HttpClientSocket) : HttpClientSocket :=
  if bodyReceived hcs.req = hcs.req.bodyLen then
    { hcs with httpState := .parsingHeader }.callHandler
  else if hcs.req.bodyLen < bodyReceived hcs.req then
    { hcs with closed := true }
  else
    hcs

/-- The case `HTTP_PARSING_HEADER`, which falls through to the body. The body's address is
taken behind `prev`, where this read's bytes start.
-/
def parseHeader (phr : PhrParseRequest) (hcs : HttpClientSocket) : HttpClientSocket :=
  let result := httpParseRequest phr hcs.req
  let nparsed := result.1
  let hcs := { hcs with req := result.2 }
  if nparsed = -1 then
    { hcs with closed := true }
  else if nparsed = -2 then
    hcs
  else
    let bodyLen := httpRequestDetermineBodyLen hcs.req
    if bodyLen = 0 then
      hcs.callHandler
    else
      receiveBody
        { hcs with
          req := { hcs.req with
            body := hcs.req.mem.base + .ofNat hcs.req.mem.prev + .ofInt nparsed
            bodyLen := bodyLen }
          httpState := .receivingBody }

/-- `phttp_on_read`, after the event loop has stored the data that `nread` announces. -/
def phttpOnRead (phr : PhrParseRequest) (hcs : HttpClientSocket) (nread : Int)
    : HttpClientSocket :=
  if nread = 0 then
    hcs
  else if nread < 0 then
    { hcs with closed := true }
  else
    match hcs.req.mem.consume nread.toNat with
    | none => { hcs with crashed := true }
    | some mem =>
        let hcs := { hcs with req := { hcs.req with mem := mem } }
        match hcs.httpState with
        | .parsingHeader => parseHeader phr hcs
        | .receivingBody => receiveBody hcs

/-- The connection when `phttp_on_read` is called: there is room, and the data is there. -/
def arrive (hcs : HttpClientSocket) (read : Read) : HttpClientSocket :=
  let offered := hcs.phttpOnAlloc read.block
  { offered with
    req := { offered.req with mem := offered.req.mem.receive read.data }
    received := hcs.received ++ read.data }

/-- A read brings at least one more byte of the request and fits the space offered; no block
is larger than `PTRDIFF_MAX`. What arrives at a closed connection is lost.
-/
def read? (phr : PhrParseRequest) (request : Bytes) (hcs : HttpClientSocket) (read : Read)
    : Option HttpClientSocket :=
  if read.data ≠ [] ∧ hcs.received ++ read.data <+: request then
    if hcs.closed || hcs.crashed then
      some { hcs with received := hcs.received ++ read.data }
    else if read.data.length ≤ (hcs.phttpOnAlloc read.block).req.mem.avail
        ∧ (hcs.phttpOnAlloc read.block).req.mem.size < 2 ^ 63 then
      some (phttpOnRead phr (hcs.arrive read) read.data.length)
    else
      none
  else
    none

end HttpClientSocket

end PrismHTTP.Server
