import Mathlib.Data.List.Basic
import PrismHTTP.Library.StatusCode

/-! The kernel's side of TCP repair mode, as the export and import code relies on it.
Getting a queue's sequence number returns the number behind its last byte, setting it on an
unconnected socket sets that counter, and each byte sent into the selected queue advances
it. A call may also be refused, and a send may take fewer bytes than it was given.
-/

namespace PrismHTTP.Handoff
open StatusCode

abbrev Bytes := List UInt8

inductive RepairQueue where
  /-- `TCP_RECV_QUEUE` -/
  | recv
  /-- `TCP_SEND_QUEUE` -/
  | send
  deriving DecidableEq

/-- `struct tcp_repair_window`. -/
structure RepairWindow where
  sndWl1 : UInt32
  sndWnd : UInt32
  maxWindow : UInt32
  rcvWnd : UInt32
  rcvWup : UInt32
  deriving DecidableEq

/-- `struct tcp_repair_opt`. -/
structure RepairOpt where
  optCode : UInt32
  optVal : UInt32

/-- One socket, as its TCP state. The last `unsent` bytes of the send queue were never sent,
and the kernel keeps window scales below 15.
-/
structure TcpSock where
  established : Bool
  repair : Bool
  repairQueue : Option RepairQueue
  writeSeq : UInt32
  rcvNxt : UInt32
  sendq : Bytes
  unsent : Nat
  recvq : Bytes
  selfAddr : UInt32
  selfPort : UInt16
  peerAddr : UInt32
  peerPort : UInt16
  mss : UInt32
  sndWscale : Fin 15
  rcvWscale : Fin 15
  timestamp : UInt32
  window : RepairWindow

/-- The oldest byte not yet acknowledged is the first of the send queue. -/
def TcpSock.sndUna (sock : TcpSock) : UInt32 := sock.writeSeq - UInt32.ofNat sock.sendq.length

/-- Whether a call is granted, and for a send how many bytes it may take at most. A refusal
comes with an `errno` that is not zero.
-/
inductive Answer where
  | granted (limit : Nat)
  | refused (errno : Int) (isError : errno ≠ 0)

/-- `prism::TCPState`. -/
structure TCPState where
  seq : UInt32
  ack : UInt32
  sendq : Bytes
  sendqLen : UInt64
  unsentqLen : UInt64
  recvq : Bytes
  recvqLen : UInt64
  selfAddr : UInt32
  selfPort : UInt32
  peerAddr : UInt32
  peerPort : UInt32
  mss : UInt32
  sendWscale : UInt32
  recvWscale : UInt32
  timestamp : UInt32
  sndWl1 : UInt32
  sndWnd : UInt32
  maxWindow : UInt32
  rcvWnd : UInt32
  rcvWup : UInt32

def TCPState.clear : TCPState :=
  ⟨0, 0, [], 0, 0, [], 0, 0, 0, 0, 0, 0, 0, 0, 0, 0, 0, 0, 0, 0⟩

/-- `struct tcp_info_sub`, as far as it is read. -/
structure TcpInfo where
  tcpiState : UInt8
  tcpiSndWscale : Fin 16
  tcpiRcvWscale : Fin 16

/-- What the two procedures work on: the socket, the message that `ex` points to, and
`tcp_export`'s local `info`.
-/
structure View where
  sock : TcpSock
  ex : TCPState
  info : TcpInfo

/-- The process between two calls, with the answers the kernel is going to give. -/
structure Proc extends View where
  answers : Nat → Answer
  errno : Int

def EPERM : Int := 1

def EINVAL : Int := 22

/-- The process after the kernel gave its next answer. -/
def Proc.answered (s : Proc) : Proc := { s with answers := fun n => s.answers (n + 1) }

/-- The call fails and sets `errno`. -/
def Proc.fail (s : Proc) (errno : Int) : Proc := { s.answered with errno := errno }

/-- A call that the kernel allows in some states only, and its effect. Every caller returns
`errno` when the call fails, so the code returned here is that one.
-/
def syscall (allowed : TcpSock → Bool) (effect : View → View) : Procedure Proc := fun s =>
  match s.answers 0 with
  | .refused errno _ => some (errno, s.fail errno)
  | .granted _ =>
      if allowed s.sock then some (0, { s.answered with toView := effect s.toView })
      else some (EPERM, s.fail EPERM)

/-- A call that changes the socket. -/
def setCall (allowed : TcpSock → Bool) (effect : TcpSock → TcpSock) : Procedure Proc :=
  syscall allowed fun v => { v with sock := effect v.sock }

/-- A call whose result is put into the message. -/
def getCall (allowed : TcpSock → Bool) (result : TcpSock → TCPState → TCPState)
    : Procedure Proc :=
  syscall allowed fun v => { v with ex := result v.sock v.ex }

/-- `TCP_REPAIR`: switching it on deselects the queue. -/
def setRepair (on : Bool) : Procedure Proc :=
  setCall (fun _ => true) fun sock =>
    { sock with
      repair := on
      repairQueue := if on then none else sock.repairQueue }

/-- `TCP_REPAIR_QUEUE`. -/
def setRepairQueue (queue : RepairQueue) : Procedure Proc :=
  setCall (·.repair) fun sock => { sock with repairQueue := some queue }

/-- `TCP_QUEUE_SEQ` on an unconnected socket. -/
def setQueueSeq (seq : UInt32) : Procedure Proc :=
  setCall (fun sock => sock.repair && !sock.established && sock.repairQueue.isSome) fun sock =>
    match sock.repairQueue with
    | some .send => { sock with writeSeq := seq }
    | some .recv => { sock with rcvNxt := seq }
    | none => sock

/-- `TCP_QUEUE_SEQ`: the counter of the selected queue. -/
def TcpSock.queueSeq (sock : TcpSock) : UInt32 :=
  match sock.repairQueue with
  | some .send => sock.writeSeq
  | _ => sock.rcvNxt

/-- What peeking at the selected queue reads. -/
def TcpSock.queued (sock : TcpSock) : Bytes :=
  match sock.repairQueue with
  | some .send => sock.sendq
  | _ => sock.recvq

/-- One of the options that `TCP_REPAIR_OPTIONS` restores. -/
def TcpSock.applyOpt (sock : TcpSock) (opt : RepairOpt) : Option TcpSock :=
  if opt.optCode = 2 then
    some { sock with mss := opt.optVal }
  else if opt.optCode = 3 then
    if h : opt.optVal.toNat % 65536 < 15 ∧ opt.optVal.toNat / 65536 < 15 then
      some { sock with
        sndWscale := ⟨opt.optVal.toNat % 65536, h.1⟩
        rcvWscale := ⟨opt.optVal.toNat / 65536, h.2⟩ }
    else
      none
  else if opt.optVal = 0 then
    some sock
  else
    none

def TcpSock.applyOpts (sock : TcpSock) (opts : List RepairOpt) : Option TcpSock :=
  opts.foldlM TcpSock.applyOpt sock

/-- `TCP_REPAIR_OPTIONS`. -/
def setRepairOptions (opts : List RepairOpt) : Procedure Proc :=
  setCall (fun sock => sock.repair && sock.established && (sock.applyOpts opts).isSome)
    fun sock => (sock.applyOpts opts).getD sock

/-- Connecting in repair mode keeps the counters and exchanges no segment. -/
def connectCall (addr : UInt32) (port : UInt16) : Procedure Proc :=
  setCall (fun sock => sock.repair && !sock.established) fun sock =>
    { sock with
      established := true
      peerAddr := addr
      peerPort := port }

/-- The socket after data were sent into it. In repair mode they go to the selected queue,
and count as sent there; else they wait to be sent.
-/
def TcpSock.append (sock : TcpSock) (data : Bytes) : TcpSock :=
  if sock.repair then
    match sock.repairQueue with
    | some .send =>
        { sock with
          sendq := sock.sendq ++ data
          unsent := 0
          writeSeq := sock.writeSeq + UInt32.ofNat data.length }
    | _ =>
        { sock with
          recvq := sock.recvq ++ data
          rcvNxt := sock.rcvNxt + UInt32.ofNat data.length }
  else
    { sock with
      sendq := sock.sendq ++ data
      unsent := sock.unsent + data.length
      writeSeq := sock.writeSeq + UInt32.ofNat data.length }

def TcpSock.mayAppend (sock : TcpSock) : Bool :=
  sock.established && (!sock.repair || sock.repairQueue.isSome)

/-- `send`: at least one byte is taken when any is given, or the result is -1. -/
def send (data : Bytes) (s : Proc) : Int × Proc :=
  match s.answers 0 with
  | .refused errno _ => (-1, s.fail errno)
  | .granted limit =>
      if s.sock.mayAppend then
        let taken := data.take (max 1 limit)
        (taken.length, { s.answered with sock := s.sock.append taken })
      else
        (-1, s.fail EPERM)

/-- `recv` with `MSG_PEEK`, of the selected queue. -/
def recvPeek (len : Nat) (s : Proc) : Option Bytes × Proc :=
  match s.answers 0 with
  | .refused errno _ => (none, s.fail errno)
  | .granted _ =>
      if s.sock.repair && s.sock.repairQueue.isSome then
        (some (s.sock.queued.take len), s.answered)
      else
        (none, s.fail EPERM)

end PrismHTTP.Handoff
