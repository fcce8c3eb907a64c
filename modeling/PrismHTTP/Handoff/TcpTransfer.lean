import PrismHTTP.Handoff.TcpExport

/-! What a connection's TCP state is after export and import.
The importer gives each queue the sequence number behind its last byte and then sends the
queue's bytes, which advance the counter once more. The counters are right exactly when
there is nothing to send; everything else is restored in any case.
-/

namespace PrismHTTP.Handoff
open StatusCode

/-- Every call from here on is granted; a send still takes only as many bytes as allowed. -/
def Granting (s : Proc) : Prop := ∀ n, ∃ limit, s.answers n = .granted limit

/-- Calls are granted after the next one as well. -/
theorem Granting.answered {s : Proc} (granting : Granting s) : Granting s.answered :=
  fun n => granting (n + 1)

/-- With every call granted the procedure returns zero, and changes what it works on so. -/
abbrev Turns (p : Procedure Proc) (before after : View) : Prop :=
  Takes Granting Proc.toView p before after

/-- A granted call that the socket allows has its effect. -/
theorem syscall_turns {allowed : TcpSock → Bool} {v : View} (effect : View → View)
    (h : allowed v.sock = true)
    : Turns (syscall allowed effect) v (effect v) := by
  rintro s granting rfl
  obtain ⟨limit, granted⟩ := granting 0
  exact ⟨{ s.answered with toView := effect s.toView }, by simp [syscall, granted, h],
    granting.answered, rfl⟩

/-- A granted call that sets something changes the socket only. -/
theorem setCall_turns {allowed : TcpSock → Bool} {v : View} (effect : TcpSock → TcpSock)
    (h : allowed v.sock = true)
    : Turns (setCall allowed effect) v { v with sock := effect v.sock } :=
  syscall_turns _ h

/-- A granted call that reads something changes the message only. -/
theorem getCall_turns {allowed : TcpSock → Bool} {v : View}
    (result : TcpSock → TCPState → TCPState) (h : allowed v.sock = true)
    : Turns (getCall allowed result) v { v with ex := result v.sock v.ex } :=
  syscall_turns _ h

/-- Switching repair mode on forgets the selected queue; switching it off keeps it. -/
theorem setRepair_turns (on : Bool) (v : View)
    : Turns (setRepair on) v
        { v with
          sock := { v.sock with
            repair := on
            repairQueue := if on then none else v.sock.repairQueue } } :=
  setCall_turns _ rfl

/-- A queue can be selected in repair mode. -/
theorem setRepairQueue_turns (queue : RepairQueue) {v : View} (h : v.sock.repair = true)
    : Turns (setRepairQueue queue) v
        { v with sock := { v.sock with repairQueue := some queue } } :=
  setCall_turns _ h

section Appending

/-- Bytes appended in two parts are appended at once, by cases on the mode and the queue. -/
theorem TcpSock.append_append (sock : TcpSock) (early late : Bytes)
    : (sock.append early).append late = sock.append (early ++ late) := by
  rcases on : sock.repair with _ | _
  · simp [TcpSock.append, on, Nat.add_assoc, UInt32.add_assoc]
  · rcases queue : sock.repairQueue with _ | _ | _ <;>
      simp [TcpSock.append, on, queue, UInt32.add_assoc]

/-- Appending does not close the socket to further bytes. -/
theorem TcpSock.mayAppend_append (sock : TcpSock) (data : Bytes)
    : (sock.append data).mayAppend = sock.mayAppend := by
  unfold TcpSock.append
  repeat' split
  all_goals rfl

/-- A granted send appends as many bytes as it is allowed, at least one, and returns their
number.
-/
theorem send_granted {s : Proc} {limit : Nat} (granted : s.answers 0 = .granted limit)
    (ready : s.sock.mayAppend = true) (data : Bytes)
    : send data s
      = (((data.take (max 1 limit)).length : Int),
        { s.answered with sock := s.sock.append (data.take (max 1 limit)) }) := by
  simp [send, granted, ready]

/-- The loop gets every byte of the string into the socket, by induction on what is left. -/
theorem sendLoop_turns {v : View} {buf : Bytes} {len : Nat} {maxChunk : Int}
    (ready : v.sock.mayAppend = true) (some_left : 0 < len) (inside : len ≤ buf.length)
    (small : len < 2147483648) (chunk : (len : Int) ≤ maxChunk)
    : Turns (procCalls.sendLoop buf len maxChunk) v
        { v with sock := v.sock.append (buf.take len) } := by
  -- on the bytes left: the kernel takes at least one of them at each turn
  induction len using Nat.strongRecOn generalizing v buf with
  | ind len ih =>
      rintro s granting rfl
      obtain ⟨limit, granted⟩ := granting 0
      have whole : (if toInt len > maxChunk then maxChunk else toInt len) = len := by
        rw [toInt, if_pos small]
        split <;> omega
      have count : ((buf.take len).take (max 1 limit)).length = min (max 1 limit) len := by
        rw [List.length_take, List.length_take]
        omega
      have send_eq : procCalls.send = send := rfl
      rw [ImportCalls.sendLoop, send_eq]
      simp only [whole, Int.toNat_natCast, send_granted granted ready, count]
      rw [if_neg (by omega), if_neg (by omega)]
      by_cases last : len ≤ max 1 limit
      · rw [if_pos (by omega), List.take_of_length_le (by simp; omega)]
        exact ⟨_, rfl, granting.answered, rfl⟩
      · have taken : min (max 1 limit) len = max 1 limit := by omega
        rw [taken, if_neg (by omega), List.take_take, taken]
        have rest : Turns (procCalls.sendLoop (buf.drop (max 1 limit)) (len - max 1 limit) maxChunk)
            { s.toView with sock := s.sock.append (buf.take (max 1 limit)) } _ :=
          ih (len - max 1 limit) (by omega)
            (by rw [TcpSock.mayAppend_append]; exact ready) (by omega)
            (by rw [List.length_drop]; omega) (by omega) (by omega)
        -- the two appends of the prefix and of the rest are one append of the whole
        obtain ⟨t, ran, granting, seen⟩ :=
          rest { s.answered with sock := s.sock.append (buf.take (max 1 limit)) }
            granting.answered rfl
        refine ⟨t, ran, granting, ?_⟩
        rw [seen, TcpSock.append_append, ← List.take_add,
          Nat.add_sub_cancel' (Nat.le_of_not_le last)]

/-- The chunks append all bytes of the buffer, the loop's maximum being its length. -/
theorem sendChunks_turns (buf : Bytes) (len : UInt32) {v : View}
    (ready : v.sock.mayAppend = true) (some_left : len ≠ 0) (inside : len.toNat ≤ buf.length)
    (small : len.toNat < 2147483648)
    : Turns (procCalls.sendChunks buf len) v
        { v with sock := v.sock.append (buf.take len.toNat) } := by
  have positive : 0 < len.toNat := by
    refine Nat.pos_of_ne_zero fun zero => some_left ?_
    exact UInt32.toNat_inj.mp zero
  refine sendLoop_turns ready positive inside small ?_
  exact Int.le_of_eq (if_pos small).symm

/-- A queue is selected and its bytes are appended to it. -/
theorem sendQueue_turns (queue : RepairQueue) {v : View} {buf : Bytes} {len : UInt32}
    (repair : v.sock.repair = true) (established : v.sock.established = true)
    (some_left : len ≠ 0) (inside : len.toNat ≤ buf.length) (small : len.toNat < 2147483648)
    : Turns (procCalls.sendQueue queue buf len) v
        { v with
          sock := { v.sock with repairQueue := some queue }.append (buf.take len.toNat) } := by
  refine (setRepairQueue_turns queue repair).andThen
    (sendChunks_turns buf len ?_ some_left inside small)
  simp [TcpSock.mayAppend, established]

end Appending

section Import

/-- A message whose lengths are those of its queues, as the exporter leaves it. -/
structure TCPState.Consistent (ex : TCPState) : Prop where
  sendq : ex.sendqLen.toNat = ex.sendq.length
  unsent : ex.unsentqLen.toNat ≤ ex.sendq.length
  recvq : ex.recvqLen.toNat = ex.recvq.length
  sendq_lt : ex.sendq.length < 2147483648
  recvq_lt : ex.recvq.length < 2147483648

/-- The lengths the importer counts in 32 bits are those of the message. -/
theorem TCPState.Consistent.recvLen {ex : TCPState} (consistent : ex.Consistent)
    : ex.recvqLen.toUInt32.toNat = ex.recvq.length := by
  have count := consistent.recvq
  have bound := consistent.recvq_lt
  rw [UInt64.toNat_toUInt32]
  omega

/-- The importer sees no received bytes exactly when the message has none. -/
theorem TCPState.Consistent.recvLen_eq_zero_iff {ex : TCPState} (consistent : ex.Consistent)
    : ex.recvqLen.toUInt32 = 0 ↔ ex.recvqLen = 0 := by
  rw [← UInt32.toNat_inj, consistent.recvLen, ← UInt64.toNat_inj, consistent.recvq]
  rfl

/-- A message that counts no received bytes has none. -/
theorem TCPState.Consistent.recvq_eq_nil {ex : TCPState} (consistent : ex.Consistent)
    (none_left : ex.recvqLen = 0)
    : ex.recvq = [] := by
  have count := consistent.recvq
  rw [none_left] at count
  exact List.length_eq_zero_iff.mp count.symm

/-- The count of unsent bytes keeps its value in 32 bits. -/
theorem TCPState.Consistent.unsentLen {ex : TCPState} (consistent : ex.Consistent)
    : ex.unsentqLen.toUInt32.toNat = ex.unsentqLen.toNat := by
  have part := consistent.unsent
  have bound := consistent.sendq_lt
  rw [UInt64.toNat_toUInt32]
  omega

/-- The count of bytes that were sent is that of the queue without the unsent ones. -/
theorem TCPState.Consistent.sentLen {ex : TCPState} (consistent : ex.Consistent)
    : (ex.sendqLen - ex.unsentqLen.toUInt32.toUInt64).toUInt32.toNat
      = ex.sendq.length - ex.unsentqLen.toNat := by
  have count := consistent.sendq
  have part := consistent.unsent
  have bound := consistent.sendq_lt
  rw [UInt64.toNat_toUInt32, UInt64.toNat_sub, UInt32.toNat_toUInt64, consistent.unsentLen]
  omega

/-- The receive queue is sent again in repair mode, and its counter moves by its length. -/
theorem tcpSetQueue_recv_turns {ex : TCPState} (consistent : ex.Consistent) {v : View}
    (repair : v.sock.repair = true) (established : v.sock.established = true)
    (empty : v.sock.recvq = [])
    : ∃ queue, Turns (procCalls.tcpSetQueue .recv ex) v
        { v with
          sock := { v.sock with
            repairQueue := queue
            recvq := ex.recvq
            rcvNxt := v.sock.rcvNxt + UInt32.ofNat ex.recvq.length } } := by
  have len := consistent.recvLen
  have bound := consistent.recvq_lt
  rw [ImportCalls.tcpSetQueue]
  split
  · next none_left =>
    refine ⟨v.sock.repairQueue, ?_⟩
    rcases v with ⟨⟨⟩, _, _⟩
    obtain rfl := empty
    simpa [consistent.recvq_eq_nil none_left] using Takes.done _
  · next some_left =>
    have nonzero := mt consistent.recvLen_eq_zero_iff.mp some_left
    have sent := sendQueue_turns .recv repair established nonzero (Nat.le_of_eq len)
      (by omega)
    refine ⟨some .recv, ?_⟩
    rw [len, List.take_length] at sent
    simpa [TcpSock.append, repair, empty] using sent

/-- The sent part of the send queue, in repair mode. -/
theorem sentPart_turns (buf : Bytes) (len : UInt32) {v : View}
    (repair : v.sock.repair = true) (established : v.sock.established = true)
    (empty : v.sock.sendq = []) (fresh : v.sock.unsent = 0)
    (inside : len.toNat ≤ buf.length) (small : len.toNat < 2147483648)
    : ∃ queue, Turns (if len ≠ 0 then procCalls.sendQueue .send buf len else done) v
        { v with
          sock := { v.sock with
            repairQueue := queue
            sendq := buf.take len.toNat
            writeSeq := v.sock.writeSeq + len } } := by
  by_cases zero : len = 0
  · refine ⟨v.sock.repairQueue, ?_⟩
    rw [if_neg (not_not.mpr zero), zero]
    rcases v with ⟨⟨⟩, _, _⟩
    obtain rfl := empty
    simpa using Takes.done _
  · refine ⟨some .send, ?_⟩
    rw [if_pos zero]
    have sent := sendQueue_turns .send repair established zero inside small
    simpa [TcpSock.append, repair, empty, fresh, Nat.min_eq_left inside] using sent

/-- The unsent part: repair mode is left for it, and entered again. -/
theorem unsentPart_turns (buf : Bytes) (len : UInt32) {v : View}
    (repair : v.sock.repair = true) (established : v.sock.established = true)
    (fresh : v.sock.unsent = 0) (inside : len.toNat = buf.length)
    (small : len.toNat < 2147483648)
    : ∃ queue,
      Turns
        (if len ≠ 0 then
          chain [
            must procCalls.tcpRepairDone,
            procCalls.sendChunks buf len,
            must procCalls.tcpRepairStart
          ]
        else
          done)
        v
        { v with
          sock := { v.sock with
            repairQueue := queue
            sendq := v.sock.sendq ++ buf
            unsent := len.toNat
            writeSeq := v.sock.writeSeq + len } } := by
  by_cases zero : len = 0
  · have nothing : buf = [] := by
      rw [zero] at inside
      exact List.length_eq_zero_iff.mp inside.symm
    refine ⟨v.sock.repairQueue, ?_⟩
    rw [if_neg (not_not.mpr zero), zero, nothing]
    rcases v with ⟨⟨⟩, _, _⟩
    obtain rfl := fresh
    simpa using Takes.done _
  · refine ⟨none, ?_⟩
    rw [if_pos zero]
    -- unsent bytes are sent as by an ordinary process
    have left : Turns (must procCalls.tcpRepairDone) v _ := (setRepair_turns false v).must
    have sent := sendChunks_turns buf len
      (v := { v with sock := { v.sock with repair := false } })
      (by simpa [TcpSock.mayAppend] using established) zero (Nat.le_of_eq inside) small
    have resumed : Turns (must procCalls.tcpRepairStart) _ _ := (setRepair_turns true
      { v with
        sock := { v.sock with repair := false }.append (buf.take len.toNat) }).must
    have total : UInt32.ofNat buf.length = len := by rw [← inside, UInt32.ofNat_toNat]
    have all := left.chain (sent.chain (resumed.chain (.nil _)))
    simpa [TcpSock.append, repair, fresh, inside, total] using all

/-- The send queue is sent again, the unsent part of it outside repair mode, and its counter
moves by its length.
-/
theorem tcpSetQueue_send_turns {ex : TCPState} (consistent : ex.Consistent) {v : View}
    (repair : v.sock.repair = true) (established : v.sock.established = true)
    (empty : v.sock.sendq = []) (fresh : v.sock.unsent = 0)
    : ∃ queue, Turns (procCalls.tcpSetQueue .send ex) v
        { v with
          sock := { v.sock with
            repairQueue := queue
            sendq := ex.sendq
            unsent := ex.unsentqLen.toNat
            writeSeq := v.sock.writeSeq + UInt32.ofNat ex.sendq.length } } := by
  have part := consistent.unsent
  have bound := consistent.sendq_lt
  have unsent := consistent.unsentLen
  have sent := consistent.sentLen
  rw [ImportCalls.tcpSetQueue]
  generalize ex.unsentqLen.toUInt32 = ulen at unsent sent ⊢
  generalize (ex.sendqLen - ulen.toUInt64).toUInt32 = len at sent ⊢
  -- the bytes sent before go in repair mode, the unsent ones behind them with repair off
  obtain ⟨first, early⟩ := sentPart_turns ex.sendq len repair established
    empty fresh (by omega) (by omega)
  obtain ⟨second, late⟩ := unsentPart_turns (ex.sendq.drop len.toNat) ulen
    (v := { v with
      sock := { v.sock with
        repairQueue := first
        sendq := ex.sendq.take len.toNat
        writeSeq := v.sock.writeSeq + len } })
    repair established fresh (by rw [List.length_drop]; omega) (by omega)
  refine ⟨second, ?_⟩
  have total : len + ulen = UInt32.ofNat ex.sendq.length := by
    apply UInt32.toNat_inj.mp
    rw [UInt32.toNat_add, UInt32.toNat_ofNat']
    omega
  have both := early.chain (late.chain (.nil _))
  simpa [unsent, UInt32.add_assoc, total] using both

/-- The sequence number of a queue is set before the connection is. -/
theorem tcpSetSeq_turns (queue : RepairQueue) (ex : TCPState) {v : View}
    (repair : v.sock.repair = true) (closed : v.sock.established = false)
    : Turns (procCalls.tcpSetSeq queue ex) v
        { v with
          sock :=
            match queue with
            | .send => { v.sock with repairQueue := some .send, writeSeq := ex.seq }
            | .recv => { v.sock with repairQueue := some .recv, rcvNxt := ex.ack } } := by
  have set (queue : RepairQueue) (seq : UInt32) : Turns (setQueueSeq seq)
      { v with sock := { v.sock with repairQueue := some queue } } _ :=
    setCall_turns _ (by simp [repair, closed])
  cases queue with
  | send => exact (setRepairQueue_turns .send repair).chain ((set .send ex.seq).chain (.nil _))
  | recv => exact (setRepairQueue_turns .recv repair).chain ((set .recv ex.ack).chain (.nil _))

/-- Both endpoints are set, and the connection is established without a handshake. -/
theorem tcpSetAddr_turns (ex : TCPState) {v : View}
    (repair : v.sock.repair = true) (closed : v.sock.established = false)
    : Turns (procCalls.tcpSetAddr ex) v
        { v with
          sock := { v.sock with
            established := true
            selfAddr := ex.selfAddr
            selfPort := ex.selfPort.toUInt16
            peerAddr := ex.peerAddr
            peerPort := ex.peerPort.toUInt16 } } := by
  have bound : Turns
      (setCall (fun _ => true) fun sock =>
        { sock with selfAddr := ex.selfAddr, selfPort := ex.selfPort.toUInt16 }) v _ :=
    setCall_turns _ rfl
  have connected : Turns (connectCall ex.peerAddr ex.peerPort.toUInt16)
      { v with
        sock := { v.sock with selfAddr := ex.selfAddr, selfPort := ex.selfPort.toUInt16 } } _ :=
    setCall_turns _ (by simp [repair, closed])
  exact bound.chain (connected.chain (.nil _))

/-- The options restore the segment size and both window scales. -/
theorem applyOpts_opts (sock : TcpSock) {ex : TCPState} {a b : Fin 15}
    (sending : ex.sendWscale.toNat = a) (receiving : ex.recvWscale.toNat = b)
    : sock.applyOpts ex.opts
      = some { sock with mss := ex.mss, sndWscale := a, rcvWscale := b } := by
  -- one word holds both scales, and neither reaches into the other's half
  have scales : (ex.sendWscale + (ex.recvWscale <<< 16)).toNat = a + 65536 * b := by
    have ha := a.isLt
    have hb := b.isLt
    rw [UInt32.toNat_add, UInt32.toNat_shiftLeft, sending, receiving]
    simp [Nat.shiftLeft_eq]
    omega
  have low : (a + 65536 * b : Nat) % 65536 = a := by omega
  have high : (a + 65536 * b : Nat) / 65536 = b := by omega
  simp [TcpSock.applyOpts, TCPState.opts, TcpSock.applyOpt, TCPOPT_SACK_PERM, TCPOPT_WINDOW,
    TCPOPT_TIMESTAMP, TCPOPT_MSS, scales, low, high]

/-- The segment size, both window scales and the timestamp are set. -/
theorem tcpSetOptions_turns {ex : TCPState} {a b : Fin 15} {v : View}
    (sending : ex.sendWscale.toNat = a) (receiving : ex.recvWscale.toNat = b)
    (repair : v.sock.repair = true) (established : v.sock.established = true)
    : Turns (procCalls.tcpSetOptions ex) v
        { v with
          sock := { v.sock with
            mss := ex.mss
            sndWscale := a
            rcvWscale := b
            timestamp := ex.timestamp } } := by
  have opts := applyOpts_opts v.sock sending receiving
  have restored : Turns (setRepairOptions ex.opts) v _ :=
    setCall_turns _ (by simp [repair, established, opts])
  rw [opts] at restored
  have stamped : Turns
      (setCall (·.repair) fun sock => { sock with timestamp := ex.timestamp })
      { v with sock := { v.sock with mss := ex.mss, sndWscale := a, rcvWscale := b } } _ :=
    setCall_turns _ repair
  exact restored.chain (stamped.chain (.nil _))

/-- A new socket: not connected, and nothing in its queues. -/
structure FreshSocket where
  sock : TcpSock
  closed : sock.established = false
  sendq : sock.sendq = []
  unsent : sock.unsent = 0
  recvq : sock.recvq = []

/-- What import makes of a consistent message, whatever the socket was before. -/
def TCPState.imported (ex : TCPState) (queue : Option RepairQueue) (a b : Fin 15) : TcpSock where
  established := true
  repair := false
  repairQueue := queue
  writeSeq := ex.seq + UInt32.ofNat ex.sendq.length
  rcvNxt := ex.ack + UInt32.ofNat ex.recvq.length
  sendq := ex.sendq
  unsent := ex.unsentqLen.toNat
  recvq := ex.recvq
  selfAddr := ex.selfAddr
  selfPort := ex.selfPort.toUInt16
  peerAddr := ex.peerAddr
  peerPort := ex.peerPort.toUInt16
  mss := ex.mss
  sndWscale := a
  rcvWscale := b
  timestamp := ex.timestamp
  window := ⟨ex.sndWl1, ex.sndWnd, ex.maxWindow, ex.rcvWnd, ex.rcvWup⟩

/-- Importing a consistent message into a new socket gives `TCPState.imported`, by chaining
what each of its calls does.
-/
theorem tcpImport_turns {ex : TCPState} (consistent : ex.Consistent) {a b : Fin 15}
    (sending : ex.sendWscale.toNat = a) (receiving : ex.recvWscale.toNat = b)
    (fresh : FreshSocket) (msg : TCPState) (info : TcpInfo)
    : ∃ queue, Turns (tcpImport ex) ⟨fresh.sock, msg, info⟩
        ⟨ex.imported queue a b, msg, info⟩ := by
  obtain ⟨sock, closed, sendq, unsent, recvq⟩ := fresh
  -- one fact for each setter in the source's order, each from the socket the one before it
  -- leaves
  have start := setRepair_turns true ⟨sock, msg, info⟩
  have sendSeq := tcpSetSeq_turns .send ex
    (v := ⟨{ sock with repair := true, repairQueue := none }, msg, info⟩) rfl closed
  have recvSeq := tcpSetSeq_turns .recv ex
    (v := ⟨{ sock with repair := true, repairQueue := some .send, writeSeq := ex.seq },
      msg, info⟩) rfl closed
  have addr := tcpSetAddr_turns ex
    (v := ⟨{ sock with
        repair := true
        repairQueue := some .recv
        writeSeq := ex.seq
        rcvNxt := ex.ack }, msg, info⟩) rfl closed
  -- the two queues may leave the repair queue selected or not, hence `first` and `queue`
  obtain ⟨first, sent⟩ := tcpSetQueue_send_turns consistent
    (v := ⟨{ sock with
        established := true
        repair := true
        repairQueue := some .recv
        writeSeq := ex.seq
        rcvNxt := ex.ack
        selfAddr := ex.selfAddr
        selfPort := ex.selfPort.toUInt16
        peerAddr := ex.peerAddr
        peerPort := ex.peerPort.toUInt16 }, msg, info⟩) rfl rfl sendq unsent
  obtain ⟨queue, received⟩ := tcpSetQueue_recv_turns consistent
    (v := ⟨{ sock with
        established := true
        repair := true
        repairQueue := first
        writeSeq := ex.seq + UInt32.ofNat ex.sendq.length
        rcvNxt := ex.ack
        sendq := ex.sendq
        unsent := ex.unsentqLen.toNat
        selfAddr := ex.selfAddr
        selfPort := ex.selfPort.toUInt16
        peerAddr := ex.peerAddr
        peerPort := ex.peerPort.toUInt16 }, msg, info⟩) rfl rfl recvq
  -- the options bring the window scaling, in the two shifts `a` and `b`
  have options := tcpSetOptions_turns sending receiving
    (v := ⟨{ ex.imported queue sock.sndWscale sock.rcvWscale with
        repair := true
        mss := sock.mss
        timestamp := sock.timestamp
        window := sock.window }, msg, info⟩) rfl rfl
  have window : Turns
      (setCall (·.repair) fun sock =>
        { sock with window := ⟨ex.sndWl1, ex.sndWnd, ex.maxWindow, ex.rcvWnd, ex.rcvWup⟩ })
      ⟨{ ex.imported queue a b with repair := true, window := sock.window }, msg, info⟩
      ⟨{ ex.imported queue a b with repair := true }, msg, info⟩ :=
    setCall_turns _ rfl
  have finish := setRepair_turns false
    ⟨{ ex.imported queue a b with repair := true }, msg, info⟩
  exact ⟨queue, start.andThen (.onError
    (sendSeq.chain (recvSeq.chain (addr.chain (sent.chain (received.chain
      (options.chain (window.chain (finish.chain (.nil _))))))))) _)⟩

end Import

section Export

/-- An established connection outside repair mode. Its unsent bytes are part of the send
queue, and each queue's length is an `int`.
-/
structure Connection where
  sock : TcpSock
  established : sock.established = true
  normal : sock.repair = false
  unsent_le : sock.unsent ≤ sock.sendq.length
  sendq_lt : sock.sendq.length < 2147483648
  recvq_lt : sock.recvq.length < 2147483648

/-- The message that export makes of a socket. -/
def TcpSock.exported (sock : TcpSock) : TCPState where
  seq := sock.writeSeq
  ack := sock.rcvNxt
  sendq := sock.sendq
  sendqLen := intSize sock.sendq.length
  unsentqLen := intSize sock.unsent
  recvq := sock.recvq
  recvqLen := intSize sock.recvq.length
  selfAddr := sock.selfAddr
  selfPort := sock.selfPort.toUInt32
  peerAddr := sock.peerAddr
  peerPort := sock.peerPort.toUInt32
  mss := sock.mss
  sendWscale := .ofNat sock.sndWscale
  recvWscale := .ofNat sock.rcvWscale
  timestamp := sock.timestamp
  sndWl1 := sock.window.sndWl1
  sndWnd := sock.window.sndWnd
  maxWindow := sock.window.maxWindow
  rcvWnd := sock.window.rcvWnd
  rcvWup := sock.window.rcvWup

/-- A size that an `int` can hold is exported as it is. -/
theorem toNat_intSize {n : Nat} (h : n < 2147483648) : (intSize n).toNat = n := by
  rw [intSize, if_pos (by omega), UInt64.toNat_ofNat']
  omega

/-- The message of an established connection counts its own queues. -/
theorem Connection.consistent (conn : Connection) : conn.sock.exported.Consistent where
  sendq := toNat_intSize conn.sendq_lt
  unsent := by
    have h := conn.unsent_le
    have bound := conn.sendq_lt
    exact Nat.le_trans (Nat.le_of_eq (toNat_intSize (by omega))) h
  recvq := toNat_intSize conn.recvq_lt
  sendq_lt := conn.sendq_lt
  recvq_lt := conn.recvq_lt

/-- An established connection is found to be established. -/
theorem tcpIsEstablished_turns {v : View} (established : v.sock.established = true)
    : Turns tcpIsEstablished v { v with info := v.sock.tcpInfo } := by
  refine Takes.andThen (syscall_turns _ rfl) ?_
  rintro s granting seen
  refine ⟨s, ?_, granting, seen⟩
  have state : s.info = v.sock.tcpInfo := congrArg View.info seen
  simp [state, TcpSock.tcpInfo, established]

/-- Peeking at a queue of the length counted before puts its bytes into the message. -/
theorem peekQueue_turns {qid : RepairQueue} {v : View} (repair : v.sock.repair = true)
    (selected : v.sock.repairQueue = some qid)
    (count : (v.ex.queueLen qid).toNat = v.sock.queued.length)
    : Turns (peekQueue qid) v { v with ex := v.ex.setQueue qid v.sock.queued } := by
  rintro s granting rfl
  obtain ⟨limit, granted⟩ := granting 0
  by_cases empty : s.sock.queued.length = 0
  · have nothing := List.length_eq_zero_iff.mp empty
    refine ⟨{ s with ex := s.ex.setQueue qid [] }, ?_, granting, by simp [nothing]⟩
    simp [peekQueue, count, nothing]
  · refine ⟨{ s.answered with ex := s.ex.setQueue qid s.sock.queued }, ?_,
      granting.answered, rfl⟩
    have some_bytes : s.sock.queued ≠ [] := fun nothing => empty (by simp [nothing])
    simp [peekQueue, recvPeek, granted, repair, selected, count, some_bytes]
    rw [List.take_of_length_le (Nat.le_succ _)]
    rfl

/-- The queue is peeked at as a whole, its length being known. -/
theorem tcpGetQueue_turns (qid : RepairQueue) {v : View} (repair : v.sock.repair = true)
    (count : (v.ex.queueLen qid).toNat
      = { v.sock with repairQueue := some qid }.queued.length)
    : Turns (tcpGetQueue qid) v
        { v with
          sock := { v.sock with repairQueue := some qid }
          ex := (v.ex.setSeq qid { v.sock with repairQueue := some qid }.queueSeq).setQueue qid
            { v.sock with repairQueue := some qid }.queued } := by
  have selected := setRepairQueue_turns qid repair
  refine selected.chain (Takes.chain (getCall_turns _ (by simp [repair]))
    (Takes.chain (peekQueue_turns repair rfl ?_) (.nil _)))
  rw [← count]
  cases qid <;> rfl

/-- The exporter learns both lengths of the send queue and that of the receive queue. -/
theorem tcpGetQueueLen_turns (v : View)
    : Turns tcpGetQueueLen v
        { v with
          ex := { v.ex with
            sendqLen := intSize v.sock.sendq.length
            unsentqLen := intSize v.sock.unsent
            recvqLen := intSize v.sock.recvq.length } } :=
  Takes.chain (getCall_turns _ rfl)
    (Takes.chain (getCall_turns _ rfl) (Takes.chain (getCall_turns _ rfl) (.nil _)))

/-- The exporter learns the segment size, the window scales and the timestamp. -/
theorem tcpGetOptions_turns (v : View)
    : Turns tcpGetOptions v
        { v with
          ex := { v.ex with
            mss := v.sock.mss
            sendWscale := .ofNat v.info.tcpiSndWscale
            recvWscale := .ofNat v.info.tcpiRcvWscale
            timestamp := v.sock.timestamp } } :=
  Takes.chain (syscall_turns _ rfl) (Takes.chain (getCall_turns _ rfl) (.nil _))

/-- The exporter learns both endpoints. -/
theorem tcpGetAddr_turns (v : View)
    : Turns tcpGetAddr v
        { v with
          ex := { v.ex with
            selfAddr := v.sock.selfAddr
            selfPort := v.sock.selfPort.toUInt32
            peerAddr := v.sock.peerAddr
            peerPort := v.sock.peerPort.toUInt32 } } :=
  Takes.chain (getCall_turns _ rfl) (Takes.chain (getCall_turns _ rfl) (.nil _))

/-- Export leaves the connection in repair mode, and the message holds all of its state. -/
theorem tcpExport_turns (conn : Connection) (msg : TCPState) (info : TcpInfo)
    : Turns tcpExport ⟨conn.sock, msg, info⟩
        ⟨{ conn.sock with repair := true, repairQueue := some .recv },
          conn.sock.exported, conn.sock.tcpInfo⟩ := by
  obtain ⟨sock, established, -, unsent_le, sendq_lt, recvq_lt⟩ := conn
  have start := setRepair_turns true ⟨sock, .clear, info⟩
  have state := tcpIsEstablished_turns
    (v := ⟨{ sock with repair := true, repairQueue := none }, .clear, info⟩) established
  have lens := tcpGetQueueLen_turns
    ⟨{ sock with repair := true, repairQueue := none }, .clear, sock.tcpInfo⟩
  have options := tcpGetOptions_turns
    ⟨{ sock with repair := true, repairQueue := none },
      { TCPState.clear with
        sendqLen := intSize sock.sendq.length
        unsentqLen := intSize sock.unsent
        recvqLen := intSize sock.recvq.length }, sock.tcpInfo⟩
  have window : Turns tcpGetWindow
      ⟨{ sock with repair := true, repairQueue := none },
        { TCPState.clear with
          sendqLen := intSize sock.sendq.length
          unsentqLen := intSize sock.unsent
          recvqLen := intSize sock.recvq.length
          mss := sock.mss
          sendWscale := .ofNat sock.sndWscale
          recvWscale := .ofNat sock.rcvWscale
          timestamp := sock.timestamp }, sock.tcpInfo⟩ _ :=
    getCall_turns _ rfl
  have addr := tcpGetAddr_turns
    ⟨{ sock with repair := true, repairQueue := none },
      { sock.exported with
        seq := 0
        ack := 0
        sendq := []
        recvq := []
        selfAddr := 0
        selfPort := 0
        peerAddr := 0
        peerPort := 0 }, sock.tcpInfo⟩
  have sendQueue := tcpGetQueue_turns .send
    (v := ⟨{ sock with repair := true, repairQueue := none },
      { sock.exported with seq := 0, ack := 0, sendq := [], recvq := [] }, sock.tcpInfo⟩)
    rfl (toNat_intSize sendq_lt)
  have recvQueue := tcpGetQueue_turns .recv
    (v := ⟨{ sock with repair := true, repairQueue := some .send },
      { sock.exported with ack := 0, recvq := [] }, sock.tcpInfo⟩)
    rfl (toNat_intSize recvq_lt)
  -- the calls one after the other, each from the view the last one left
  have body := start.andThen ((state.chain (lens.chain (options.chain (window.chain
    (addr.chain (sendQueue.chain ((recvQueue.onError fun _ => none).chain (.nil _)))))))).onError
      (asserted procCalls.tcpRepairDone))
  rintro ⟨view, answers, errno⟩ granting rfl
  exact body ⟨⟨sock, .clear, info⟩, answers, errno⟩ granting rfl

end Export

/-- Nothing that the peers can observe of a connection differs. -/
structure Preserved (before after : TcpSock) : Prop where
  established : after.established = true
  normal : after.repair = false
  writeSeq : after.writeSeq = before.writeSeq
  sndUna : after.sndUna = before.sndUna
  rcvNxt : after.rcvNxt = before.rcvNxt
  sendq : after.sendq = before.sendq
  unsent : after.unsent = before.unsent
  recvq : after.recvq = before.recvq
  selfAddr : after.selfAddr = before.selfAddr
  selfPort : after.selfPort = before.selfPort
  peerAddr : after.peerAddr = before.peerAddr
  peerPort : after.peerPort = before.peerPort
  mss : after.mss = before.mss
  sndWscale : after.sndWscale = before.sndWscale
  rcvWscale : after.rcvWscale = before.rcvWscale
  timestamp : after.timestamp = before.timestamp
  window : after.window = before.window

/-- A process whose calls are all granted; each limit says how much a send may take. -/
structure Host where
  ex : TCPState
  info : TcpInfo
  limits : Nat → Nat
  errno : Int

def Host.proc (host : Host) (sock : TcpSock) : Proc where
  sock := sock
  ex := host.ex
  info := host.info
  answers n := .granted (host.limits n)
  errno := host.errno

/-- Export on the connection and import of its message into the new socket both return zero,
and leave the same TCP state.
-/
def Survives (conn : Connection) (fresh : FreshSocket) (exporter importer : Host) : Prop :=
  ∃ s t, tcpExport (exporter.proc conn.sock) = some (0, s)
    ∧ tcpImport s.ex (importer.proc fresh.sock) = some (0, t)
    ∧ Preserved conn.sock t.sock

/-- Both procedures succeed, and the new socket's state is known field by field. -/
theorem transfer_runs (conn : Connection) (fresh : FreshSocket) (exporter importer : Host)
    : ∃ s t queue, tcpExport (exporter.proc conn.sock) = some (0, s)
      ∧ tcpImport s.ex (importer.proc fresh.sock) = some (0, t)
      ∧ t.sock = conn.sock.exported.imported queue conn.sock.sndWscale conn.sock.rcvWscale := by
  obtain ⟨s, exported, -, message⟩ := tcpExport_turns conn exporter.ex exporter.info
    (exporter.proc conn.sock) (fun n => ⟨_, rfl⟩) rfl
  have scales (scale : Fin 15) : (UInt32.ofNat scale).toNat = scale := by
    rw [UInt32.toNat_ofNat']
    omega
  obtain ⟨queue, importing⟩ := tcpImport_turns conn.consistent (scales conn.sock.sndWscale)
    (scales conn.sock.rcvWscale) fresh importer.ex importer.info
  obtain ⟨t, imported, -, result⟩ := importing (importer.proc fresh.sock) (fun n => ⟨_, rfl⟩)
    rfl
  have ex : s.ex = conn.sock.exported := congrArg View.ex message
  exact ⟨s, t, queue, exported, ex ▸ imported, congrArg View.sock result⟩

/-- A counter moved by a queue's length stays where it was only for an empty queue. -/
theorem add_length_eq_self (seq : UInt32) {queue : Bytes} (bound : queue.length < 2147483648)
    : seq + UInt32.ofNat queue.length = seq ↔ queue = [] := by
  constructor
  · intro same
    have sum := congrArg UInt32.toNat same
    have range := seq.toNat_lt
    rw [UInt32.toNat_add, UInt32.toNat_ofNat'] at sum
    exact List.length_eq_zero_iff.mp (by omega)
  · rintro rfl
    simp

/-- A surviving state has counters that the queues' lengths do not move. -/
theorem Survives.counters {conn : Connection} {fresh : FreshSocket} {exporter importer : Host}
    (h : Survives conn fresh exporter importer)
    : conn.sock.writeSeq + UInt32.ofNat conn.sock.sendq.length = conn.sock.writeSeq
      ∧ conn.sock.rcvNxt + UInt32.ofNat conn.sock.recvq.length = conn.sock.rcvNxt := by
  obtain ⟨s, t, queue, exported, imported, result⟩ := transfer_runs conn fresh exporter importer
  obtain ⟨s', t', exported', imported', preserved⟩ := h
  obtain rfl : s = s' := congrArg Prod.snd (Option.some.inj (exported.symm.trans exported'))
  obtain rfl : t = t' := congrArg Prod.snd (Option.some.inj (imported.symm.trans imported'))
  have sending := preserved.writeSeq
  have receiving := preserved.rcvNxt
  rw [result] at sending receiving
  exact ⟨sending, receiving⟩

/-- The TCP state survives exactly when both queues are empty. -/
theorem tcp_state_survives_iff (conn : Connection) (fresh : FreshSocket)
    (exporter importer : Host)
    : Survives conn fresh exporter importer
      ↔ conn.sock.sendq = [] ∧ conn.sock.recvq = [] := by
  constructor
  -- the counters are read with the queues in place and set before the queues are sent again
  · intro survives
    have counters := survives.counters
    exact ⟨(add_length_eq_self _ conn.sendq_lt).mp counters.1,
      (add_length_eq_self _ conn.recvq_lt).mp counters.2⟩
  · rintro ⟨sendq, recvq⟩
    obtain ⟨s, t, queue, exported, imported, result⟩ :=
      transfer_runs conn fresh exporter importer
    have sending := (add_length_eq_self conn.sock.writeSeq conn.sendq_lt).mpr sendq
    have receiving := (add_length_eq_self conn.sock.rcvNxt conn.recvq_lt).mpr recvq
    have unsent : (intSize conn.sock.unsent).toNat = conn.sock.unsent := by
      have part := conn.unsent_le
      have bound := conn.sendq_lt
      exact toNat_intSize (by omega)
    refine ⟨s, t, exported, imported, ?_⟩
    rw [result]
    exact {
      established := rfl
      normal := rfl
      writeSeq := sending
      sndUna := congrArg (· - _) sending
      rcvNxt := receiving
      sendq := rfl
      unsent := unsent
      recvq := rfl
      selfAddr := rfl
      selfPort := UInt16.toUInt16_toUInt32 _
      peerAddr := rfl
      peerPort := UInt16.toUInt16_toUInt32 _
      mss := rfl
      sndWscale := rfl
      rcvWscale := rfl
      timestamp := rfl
      window := rfl
    }

section Sample

/-- Eight bytes in the send queue, the last three unsent, with a counter about to wrap. -/
def sampleSock : TcpSock where
  established := true
  repair := false
  repairQueue := none
  writeSeq := 4294967290
  rcvNxt := 1000
  sendq := [1, 2, 3, 4, 5, 6, 7, 8]
  unsent := 3
  recvq := [9]
  selfAddr := 0x0100000a
  selfPort := 80
  peerAddr := 0x0200000a
  peerPort := 5000
  mss := 1460
  sndWscale := 7
  rcvWscale := 7
  timestamp := 12345
  window := ⟨1000, 65535, 65535, 65535, 1000⟩

def sampleConnection : Connection where
  sock := sampleSock
  established := rfl
  normal := rfl
  unsent_le := by decide
  sendq_lt := by decide
  recvq_lt := by decide

def sampleFresh : FreshSocket where
  sock := { sampleSock with established := false, sendq := [], unsent := 0, recvq := [] }
  closed := rfl
  sendq := rfl
  unsent := rfl
  recvq := rfl

def sampleHost : Host := ⟨.clear, sampleSock.tcpInfo, fun _ => 2, 0⟩

/-- With bytes in the queues, both counters are past the queues' ends after import. -/
theorem tcp_state_lost
    : ¬ ∀ (conn : Connection) (fresh : FreshSocket) (exporter importer : Host),
        Survives conn fresh exporter importer := by
  intro always
  have counters := (always sampleConnection sampleFresh sampleHost sampleHost).counters
  exact absurd counters.1 (by decide)

end Sample

end PrismHTTP.Handoff
