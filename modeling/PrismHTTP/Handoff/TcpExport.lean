import PrismHTTP.Handoff.ImportCalls

/-! Exporting a connection's TCP state, and importing it into a new socket.
Export is one chain of system calls of the kernel of repair mode, and import the importer
over the same kernel.
-/

namespace PrismHTTP.Handoff
open StatusCode

def TCP_ESTABLISHED : UInt8 := 1

def TCP_CLOSE : UInt8 := 7

def TcpSock.tcpInfo (sock : TcpSock) : TcpInfo where
  tcpiState := if sock.established then TCP_ESTABLISHED else TCP_CLOSE
  tcpiSndWscale := sock.sndWscale.castLE (by decide)
  tcpiRcvWscale := sock.rcvWscale.castLE (by decide)

def tcpIsEstablished : Procedure Proc :=
  andThen (syscall (fun _ => true) fun v => { v with info := v.sock.tcpInfo }) fun s =>
    if s.info.tcpiState ≠ TCP_ESTABLISHED then some (EINVAL, s) else some (0, s)

/-- An `int` size, stored into a 64-bit field of the message. -/
def intSize (n : Nat) : UInt64 :=
  if n % 4294967296 < 2147483648 then .ofNat (n % 4294967296)
  else .ofNat (n % 4294967296) - 4294967296

def tcpGetQueueLen : Procedure Proc :=
  chain [
    getCall (fun _ => true) fun sock ex => { ex with sendqLen := intSize sock.sendq.length },
    getCall (fun _ => true) fun sock ex => { ex with unsentqLen := intSize sock.unsent },
    getCall (fun _ => true) fun sock ex => { ex with recvqLen := intSize sock.recvq.length }
  ]

def tcpGetOptions : Procedure Proc :=
  chain [
    syscall (fun _ => true) fun v =>
      { v with
        ex := { v.ex with
          mss := v.sock.mss
          sendWscale := .ofNat v.info.tcpiSndWscale
          recvWscale := .ofNat v.info.tcpiRcvWscale } },
    getCall (fun _ => true) fun sock ex => { ex with timestamp := sock.timestamp }
  ]

def tcpGetWindow : Procedure Proc :=
  getCall (·.repair) fun sock ex =>
    { ex with
      sndWl1 := sock.window.sndWl1
      sndWnd := sock.window.sndWnd
      maxWindow := sock.window.maxWindow
      rcvWnd := sock.window.rcvWnd
      rcvWup := sock.window.rcvWup }

def tcpGetAddr : Procedure Proc :=
  chain [
    getCall (fun _ => true) fun sock ex =>
      { ex with selfAddr := sock.selfAddr, selfPort := sock.selfPort.toUInt32 },
    getCall (fun _ => true) fun sock ex =>
      { ex with peerAddr := sock.peerAddr, peerPort := sock.peerPort.toUInt32 }
  ]

/-- The message with a queue's sequence number. -/
def TCPState.setSeq (ex : TCPState) (qid : RepairQueue) (seq : UInt32) : TCPState :=
  match qid with
  | .send => { ex with seq := seq }
  | .recv => { ex with ack := seq }

def TCPState.queueLen (ex : TCPState) : RepairQueue → UInt64
  | .send => ex.sendqLen
  | .recv => ex.recvqLen

/-- The message with a queue's contents. -/
def TCPState.setQueue (ex : TCPState) (qid : RepairQueue) (buf : Bytes) : TCPState :=
  match qid with
  | .send => { ex with sendq := buf }
  | .recv => { ex with recvq := buf }

/-- Peek at the selected queue: it must hold exactly the bytes counted before. -/
def peekQueue (qid : RepairQueue) : Procedure Proc := fun s =>
  let len := (s.ex.queueLen qid).toNat
  if len = 0 then
    some (0, { s with ex := s.ex.setQueue qid [] })
  else
    match recvPeek (len + 1) s with
    | (none, s) => some (EINVAL, s)
    | (some buf, s) =>
        if buf.length ≠ len then some (EINVAL, s)
        else some (0, { s with ex := s.ex.setQueue qid buf })

def tcpGetQueue (qid : RepairQueue) : Procedure Proc :=
  chain [
    setRepairQueue qid,
    getCall (fun sock => sock.repair && sock.repairQueue.isSome) fun sock ex =>
      ex.setSeq qid sock.queueSeq,
    peekQueue qid
  ]

/-- When the last step fails, the string's own storage is freed, which ends the process. -/
def tcpExport : Procedure Proc := fun s =>
  andThen procCalls.tcpRepairStart
    (onError
      (chain [
        tcpIsEstablished,
        tcpGetQueueLen,
        tcpGetOptions,
        tcpGetWindow,
        tcpGetAddr,
        tcpGetQueue .send,
        onError (tcpGetQueue .recv) fun _ => none
      ])
      (asserted procCalls.tcpRepairDone))
    { s with ex := .clear }

/-- The importer over the kernel of repair mode. -/
def tcpImport (ex : TCPState) : Procedure Proc := procCalls.tcpImport ex

end PrismHTTP.Handoff
