import PrismHTTP.Handoff.TcpRepair

/-! The importer of a connection's TCP state, over any kernel.
It is one chain of system calls, which are parameters here: it sets the queues' sequence
numbers first, connects, and then sends the queues' contents again. So the same code runs
over the kernel of repair mode and over one that answers in any pattern.
-/

namespace PrismHTTP.Handoff
open StatusCode

def TCPOPT_MSS : UInt32 := 2

def TCPOPT_WINDOW : UInt32 := 3

def TCPOPT_SACK_PERM : UInt32 := 4

def TCPOPT_TIMESTAMP : UInt32 := 8

/-- The options of a message, as `tcp_set_options` lists them. -/
def TCPState.opts (ex : TCPState) : List RepairOpt :=
  [⟨TCPOPT_SACK_PERM, 0⟩, ⟨TCPOPT_WINDOW, ex.sendWscale + (ex.recvWscale <<< 16)⟩,
    ⟨TCPOPT_TIMESTAMP, 0⟩, ⟨TCPOPT_MSS, ex.mss⟩]

/-- A 32-bit value as a signed `int`. -/
def toInt (n : Nat) : Int := if n < 2147483648 then n else n - 4294967296

/-- The importer's system calls, over the states of some kernel. Each returns zero or the
`errno` its caller passes on, but for `send`, which sets it.
-/
structure ImportCalls (σ : Type) where
  setRepair : Bool → Procedure σ
  setRepairQueue : RepairQueue → Procedure σ
  setQueueSeq : UInt32 → Procedure σ
  bind : UInt32 → UInt16 → Procedure σ
  connect : UInt32 → UInt16 → Procedure σ
  setRepairOptions : List RepairOpt → Procedure σ
  setTimestamp : UInt32 → Procedure σ
  setRepairWindow : RepairWindow → Procedure σ
  send : Bytes → σ → Int × σ
  errno : σ → Int

namespace ImportCalls

variable {σ : Type} (calls : ImportCalls σ)

def tcpRepairStart : Procedure σ := calls.setRepair true

def tcpRepairDone : Procedure σ := calls.setRepair false

/-- The loop of `__send_queue`. A chunk that is refused is tried again at half the size, down
to 1024 bytes; reading past the string is undefined.
-/
def sendLoop (buf : Bytes) (len : Nat) (maxChunk : Int) (s : σ) : Option (Int × σ) :=
  let chunk := if toInt len > maxChunk then maxChunk else toInt len
  if chunk < 0 ∨ buf.length < chunk.toNat then
    none
  else
    match calls.send (buf.take chunk.toNat) s with
    | (ret, s) =>
        if ret ≤ 0 then
          if 1024 < maxChunk then
            if len = 0 then some (0, s) else sendLoop buf len (maxChunk / 2) s
          else
            some (calls.errno s, s)
        else if len - ret.toNat = 0 then
          some (0, s)
        else
          sendLoop (buf.drop ret.toNat) (len - ret.toNat) maxChunk s
termination_by len + maxChunk.toNat
decreasing_by all_goals omega

/-- `__send_queue`. -/
def sendChunks (buf : Bytes) (len : UInt32) : Procedure σ :=
  calls.sendLoop buf len.toNat (toInt len.toNat)

def sendQueue (queue : RepairQueue) (buf : Bytes) (len : UInt32) : Procedure σ :=
  andThen (calls.setRepairQueue queue) (calls.sendChunks buf len)

/-- The sent part of the send queue is restored in repair mode, the unsent part outside it. -/
def tcpSetQueue (queue : RepairQueue) (ex : TCPState) : Procedure σ :=
  match queue with
  | .recv =>
      if ex.recvqLen = 0 then done else calls.sendQueue .recv ex.recvq ex.recvqLen.toUInt32
  | .send =>
      let ulen := ex.unsentqLen.toUInt32
      let len := (ex.sendqLen - ulen.toUInt64).toUInt32
      chain [
        if len ≠ 0 then calls.sendQueue .send ex.sendq len else done,
        if ulen ≠ 0 then
          chain [
            must calls.tcpRepairDone,
            calls.sendChunks (ex.sendq.drop len.toNat) ulen,
            must calls.tcpRepairStart
          ]
        else
          done
      ]

def tcpSetSeq (queue : RepairQueue) (ex : TCPState) : Procedure σ :=
  chain [
    calls.setRepairQueue queue,
    calls.setQueueSeq (match queue with | .send => ex.seq | .recv => ex.ack)
  ]

def tcpSetAddr (ex : TCPState) : Procedure σ :=
  chain [
    calls.bind ex.selfAddr ex.selfPort.toUInt16,
    calls.connect ex.peerAddr ex.peerPort.toUInt16
  ]

def tcpSetOptions (ex : TCPState) : Procedure σ :=
  chain [calls.setRepairOptions ex.opts, calls.setTimestamp ex.timestamp]

def tcpSetWindow (ex : TCPState) : Procedure σ :=
  calls.setRepairWindow ⟨ex.sndWl1, ex.sndWnd, ex.maxWindow, ex.rcvWnd, ex.rcvWup⟩

def tcpImport (ex : TCPState) : Procedure σ :=
  andThen calls.tcpRepairStart
    (onError
      (chain [
        calls.tcpSetSeq .send ex,
        calls.tcpSetSeq .recv ex,
        calls.tcpSetAddr ex,
        calls.tcpSetQueue .send ex,
        calls.tcpSetQueue .recv ex,
        calls.tcpSetOptions ex,
        calls.tcpSetWindow ex,
        calls.tcpRepairDone
      ])
      (asserted calls.tcpRepairDone))

end ImportCalls

/-- The calls of the kernel of repair mode. -/
def procCalls : ImportCalls Proc where
  setRepair := setRepair
  setRepairQueue := setRepairQueue
  setQueueSeq := setQueueSeq
  bind := fun addr port =>
    setCall (fun _ => true) fun sock => { sock with selfAddr := addr, selfPort := port }
  connect := connectCall
  setRepairOptions := setRepairOptions
  setTimestamp := fun timestamp =>
    setCall (·.repair) fun sock => { sock with timestamp := timestamp }
  setRepairWindow := fun window =>
    setCall (·.repair) fun sock => { sock with window := window }
  send := send
  errno := (·.errno)

end PrismHTTP.Handoff
