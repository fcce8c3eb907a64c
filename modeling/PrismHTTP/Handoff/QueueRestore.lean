import PrismHTTP.Handoff.ChunkedSend
import PrismHTTP.Handoff.TcpTransfer

/-! Where the importer's bytes arrive, whatever the kernel answers.
Data go to the queue selected last while the socket is in repair mode, and to the send queue
outside it. A finished import has put every byte where it belongs, and a failed one has left
repair mode all the same.
-/

namespace PrismHTTP.Handoff
open StatusCode

/-- A byte in a queue, and whether it came in repair mode. -/
structure Arrival where
  byte : UInt8
  inRepair : Bool
  deriving DecidableEq

/-- The bytes as they arrive in one mode. -/
def arrivals (inRepair : Bool) (data : Bytes) : List Arrival := data.map (⟨·, inRepair⟩)

/-- The queue that data go to. -/
def destination (inRepair : Bool) (selected : Option RepairQueue) : Option RepairQueue :=
  if inRepair then selected else some .send

/-- What came into each queue. -/
structure Arrived where
  send : List Arrival
  recv : List Arrival

def Arrived.add (arrived : Arrived) (queue : RepairQueue) (more : List Arrival) : Arrived :=
  match queue with
  | .send => { arrived with send := arrived.send ++ more }
  | .recv => { arrived with recv := arrived.recv ++ more }

/-- What the sends of a log brought into a queue. -/
def arrivedIn (log : List Sending) (queue : RepairQueue) : List Arrival :=
  (log.filter fun e => destination e.inRepair e.selected = some queue).flatMap fun e =>
    arrivals e.inRepair e.outcome.taken

def Scripted.arrived (s : Scripted) : Arrived where
  send := arrivedIn s.sent .send
  recv := arrivedIn s.sent .recv

/-- One of the first `most` switches after the entry is refused. -/
def Refused (script : Nat → Answer) (most : Nat) : Prop :=
  ∃ n < most, ∃ errno isError, script (n + 1) = .refused errno isError

/-- At most so many switches have been asked for, with the one at the entry. -/
def Scripted.Switched (script : Nat → Answer) (most : Nat) (s : Scripted) : Prop :=
  ∃ used, 1 ≤ used ∧ used ≤ most ∧ s.switches = fun n => script (n + used)

/-- The import so far: what arrived, the mode, and the switches asked for. -/
structure Restoring (script : Nat → Answer) (most : Nat) (arrived : Arrived) (repair : Bool)
    (s : Scripted)
    : Prop where
  arrived : s.arrived = arrived
  repair : s.repair = repair
  switched : s.Switched script most

/-- A failed step leaves the clean-up's switch, unless one before it was refused. -/
def Broken (script : Nat → Answer) (s : Scripted) : Prop :=
  Refused script 3 ∨ s.Switched script 3

/-- A step of the import, which only the refusal of an asserted switch can stop. -/
abbrev Restores (script : Nat → Answer) (pre : Scripted → Prop) (p : Procedure Scripted)
    (post : Scripted → Prop)
    : Prop :=
  Ends (Refused script 3) pre p post (Broken script)

section Sends

variable {s t : Scripted} {log : List Sending}

/-- What a longer record brings to a queue is what its parts bring to it. -/
theorem arrivedIn_append (log later : List Sending) (queue : RepairQueue)
    : arrivedIn (log ++ later) queue = arrivedIn log queue ++ arrivedIn later queue := by
  rw [arrivedIn, List.filter_append, List.flatMap_append]
  rfl

/-- All sends of one loop go to one queue. -/
theorem Scripted.Sends.arrivedIn (sends : s.Sends log t) (queue : RepairQueue)
    : arrivedIn log queue
      = if destination s.repair s.queue = some queue then arrivals s.repair (takenBytes log)
        else [] := by
  have alike : ∀ e ∈ log, destination e.inRepair e.selected = destination s.repair s.queue := by
    intro e member
    obtain ⟨repair, selected⟩ := sends.uniform e member
    rw [repair, selected]
  by_cases goes : destination s.repair s.queue = some queue
  · have all : log.filter (fun e => destination e.inRepair e.selected = some queue) = log := by
      rw [List.filter_eq_self]
      intro e member
      rw [alike e member]
      exact decide_eq_true goes
    have same : log.flatMap (fun e => arrivals e.inRepair e.outcome.taken)
        = log.flatMap fun e => arrivals s.repair e.outcome.taken := by
      apply List.flatMap_congr
      intro e member
      rw [(sends.uniform e member).1]
    rw [if_pos goes, Handoff.arrivedIn, all, same, arrivals, takenBytes, List.map_flatMap]
    rfl
  · have nothing : log.filter (fun e => destination e.inRepair e.selected = some queue) = [] := by
      rw [List.filter_eq_nil_iff]
      intro e member
      rw [alike e member]
      simpa using goes
    rw [if_neg goes, Handoff.arrivedIn, nothing]
    rfl

/-- A run of sends brings the bytes it took to the queue they are destined for. -/
theorem Scripted.Sends.arrived (sends : s.Sends log t) {queue : RepairQueue}
    (goes : destination s.repair s.queue = some queue)
    : t.arrived = s.arrived.add queue (arrivals s.repair (takenBytes log)) := by
  have send := sends.arrivedIn .send
  have recv := sends.arrivedIn .recv
  rw [goes] at send recv
  cases queue with
  | send => simp_all [Scripted.arrived, sends.sent, arrivedIn_append, Arrived.add]
  | recv => simp_all [Scripted.arrived, sends.sent, arrivedIn_append, Arrived.add]

end Sends

section Calls

variable {script : Nat → Answer} {most : Nat} {arrived : Arrived} {repair : Bool}

/-- Calls that fail within the first three switches leave the import broken. -/
theorem Scripted.Switched.broken {s : Scripted} (switched : s.Switched script most)
    (few : most ≤ 3)
    : Broken script s := by
  obtain ⟨used, entered, bound, same⟩ := switched
  exact .inr ⟨used, entered, Nat.le_trans bound few, same⟩

/-- A call that the kernel may refuse either has its effect or ends the import where it stands.
-/
theorem call_ends {effect : Scripted → Scripted} {pre post : Scripted → Prop}
    (effected : ∀ s, pre s → post (effect s.answered))
    (kept : ∀ s, pre s → s.Switched script 3)
    : Restores script pre (Scripted.call effect) post := by
  intro s before
  refine .inr ?_
  rcases answer : s.answers 0 with limit | ⟨errno, isError⟩
  · exact ⟨0, effect s.answered, by simp [Scripted.call, answer], fun _ => effected s before,
      fun some_error => absurd rfl some_error⟩
  · exact ⟨errno, { s.answered with errno := errno }, by simp [Scripted.call, answer],
      fun zero => absurd zero isError, fun _ => .inr (kept s before)⟩

/-- Within the three switches an import is still within them. -/
theorem Restoring.switched_le {s : Scripted} (before : Restoring script most arrived repair s)
    (few : most ≤ 3)
    : s.Switched script 3 := by
  obtain ⟨used, entered, bound, same⟩ := before.switched
  exact ⟨used, entered, Nat.le_trans bound few, same⟩

/-- Most calls leave the queues and the mode alone. -/
theorem plainCall_ends (few : most ≤ 3)
    : Restores script (Restoring script most arrived repair) (Scripted.call id)
        (Restoring script most arrived repair) :=
  call_ends (fun _ before => ⟨before.arrived, before.repair, before.switched⟩)
    fun _ before => before.switched_le few

/-- Selecting a queue succeeds or ends the import. -/
theorem setRepairQueue_ends (queue : RepairQueue) (few : most ≤ 3)
    : Restores script (Restoring script most arrived repair)
        (scriptedCalls.setRepairQueue queue)
        (fun s => Restoring script most arrived repair s ∧ s.queue = some queue) := by
  have select : scriptedCalls.setRepairQueue queue
      = Scripted.call ({ · with queue := some queue }) := rfl
  rw [select]
  exact call_ends (fun _ before => ⟨⟨before.arrived, before.repair, before.switched⟩, rfl⟩)
    fun _ before => before.switched_le few

/-- A switch of the mode fails when the kernel refuses it. -/
theorem setRepair_ends (on : Bool) (few : most ≤ 3)
    : Ends (Refused script 3) (Restoring script most arrived repair)
        (scriptedCalls.setRepair on) (Restoring script (most + 1) arrived on)
        (fun _ => Refused script 3) := by
  rintro s ⟨contents, -, used, entered, bound, same⟩
  refine .inr ?_
  have next : s.switches 0 = script used := by simp only [same, Nat.zero_add]
  rcases answer : s.switches 0 with limit | ⟨errno, isError⟩
  · refine ⟨0, _, by simp only [scriptedCalls, Scripted.setRepair, answer]; rfl, fun _ => ?_,
      fun some_error => absurd rfl some_error⟩
    refine ⟨contents, rfl, used + 1, by omega, by omega, ?_⟩
    funext n
    simp only [same, Nat.add_assoc, Nat.add_comm 1 used]
  · refine ⟨errno, _, by simp only [scriptedCalls, Scripted.setRepair, answer]; rfl,
      fun zero => absurd zero isError, fun _ => ⟨used - 1, by omega, errno, isError, ?_⟩⟩
    rw [Nat.sub_add_cancel entered, ← next, answer]

/-- The chunked sender brings all its bytes to one queue, or fails. -/
theorem sendChunks_ends {buf : Bytes} {len : UInt32} {queue : RepairQueue} (few : most ≤ 3)
    (some_left : len ≠ 0) (small : len.toNat < 2147483648) (inside : len.toNat ≤ buf.length)
    : Restores script
        (fun s => Restoring script most arrived repair s
          ∧ destination repair s.queue = some queue)
        (scriptedCalls.sendChunks buf len)
        (Restoring script most (arrived.add queue (arrivals repair (buf.take len.toNat)))
          repair) := by
  rintro s ⟨⟨rfl, rfl, switched⟩, goes⟩
  obtain ⟨ret, t, log, ran, ends⟩ := sendChunks_loopEnds some_left small inside s
  have kept : t.Switched script most := by
    rw [Scripted.Switched, ends.sends.switches]
    exact switched
  refine .inr ⟨ret, t, ran, fun zero => ?_, fun _ => kept.broken few⟩
  cases ends.concludes with
  | whole all => exact ⟨all ▸ ends.sends.arrived goes, ends.sends.repair, kept⟩
  | refused earlier last errno split failed isError low part => exact absurd zero isError

/-- Sending a queue in repair mode brings all of its bytes there, or ends the import. -/
theorem sendQueue_ends {buf : Bytes} {len : UInt32} (queue : RepairQueue) (few : most ≤ 3)
    (some_left : len ≠ 0) (small : len.toNat < 2147483648) (inside : len.toNat ≤ buf.length)
    : Restores script (Restoring script most arrived true)
        (scriptedCalls.sendQueue queue buf len)
        (Restoring script most (arrived.add queue (arrivals true (buf.take len.toNat)))
          true) := by
  refine (setRepairQueue_ends queue few).andThen ?_
  intro s ⟨before, selected⟩
  exact sendChunks_ends few some_left small inside s ⟨before, selected⟩

/-- Nothing is left to do where nothing arrives. -/
theorem done_ends {data : Bytes} {mode : Bool} {queue : RepairQueue} (nothing : data = [])
    : Restores script (Restoring script most arrived repair) done
        (Restoring script most (arrived.add queue (arrivals mode data)) repair) := by
  have same : arrived.add queue (arrivals mode data) = arrived := by
    rw [nothing]
    cases queue <;> simp [Arrived.add, arrivals]
  rw [same]
  exact .done

/-- The receive queue is filled in repair mode. -/
theorem tcpSetQueue_recv_ends {ex : TCPState} (consistent : ex.Consistent) (few : most ≤ 3)
    : Restores script (Restoring script most arrived true)
        (scriptedCalls.tcpSetQueue .recv ex)
        (Restoring script most (arrived.add .recv (arrivals true ex.recvq)) true) := by
  have len := consistent.recvLen
  have bound := consistent.recvq_lt
  rw [ImportCalls.tcpSetQueue]
  split
  · next none_left => exact done_ends (consistent.recvq_eq_nil none_left)
  · next some_left =>
    have nonzero := mt consistent.recvLen_eq_zero_iff.mp some_left
    have sent := @sendQueue_ends script most arrived ex.recvq ex.recvqLen.toUInt32 .recv few
      nonzero (by omega) (Nat.le_of_eq len)
    rw [len, List.take_length] at sent
    exact sent

/-- The sent part of the send queue, in repair mode. -/
theorem sentPart_ends (buf : Bytes) (len : UInt32) (few : most ≤ 3)
    (inside : len.toNat ≤ buf.length) (small : len.toNat < 2147483648)
    : Restores script (Restoring script most arrived true)
        (if len ≠ 0 then scriptedCalls.sendQueue .send buf len else done)
        (Restoring script most (arrived.add .send (arrivals true (buf.take len.toNat)))
          true) := by
  by_cases zero : len = 0
  · rw [if_neg (not_not.mpr zero)]
    exact done_ends (by rw [zero]; rfl)
  · rw [if_pos zero]
    exact sendQueue_ends .send few zero small inside

/-- Fewer switches than allowed are still allowed when more are. -/
theorem Restoring.more {s : Scripted} {later : Nat}
    (before : Restoring script most arrived repair s)
    (more : most ≤ later)
    : Restoring script later arrived repair s := by
  obtain ⟨used, entered, bound, same⟩ := before.switched
  exact ⟨before.arrived, before.repair, used, entered, Nat.le_trans bound more, same⟩

/-- The unsent part: repair mode is left for it, and entered again, with two switches. -/
theorem unsentPart_ends (buf : Bytes) (len : UInt32) (inside : len.toNat = buf.length)
    (small : len.toNat < 2147483648)
    : Restores script (Restoring script 1 arrived true)
        (if len ≠ 0 then
          chain [
            must scriptedCalls.tcpRepairDone,
            scriptedCalls.sendChunks buf len,
            must scriptedCalls.tcpRepairStart
          ]
        else
          done)
        (Restoring script 3 (arrived.add .send (arrivals false buf)) true) := by
  by_cases zero : len = 0
  · have nothing : buf = [] := by
      rw [zero] at inside
      exact List.length_eq_zero_iff.mp inside.symm
    rw [if_neg (not_not.mpr zero)]
    intro s before
    exact done_ends nothing s (before.more (by omega))
  · have sent : Restores script (Restoring script 2 arrived false)
        (scriptedCalls.sendChunks buf len)
        (Restoring script 2 (arrived.add .send (arrivals false (buf.take len.toNat)))
          false) := by
      intro s before
      exact sendChunks_ends (by omega) zero small (Nat.le_of_eq inside) s ⟨before, rfl⟩
    rw [if_pos zero]
    rw [inside, List.take_length] at sent
    exact (setRepair_ends false (by omega)).must.chain
      (sent.chain ((setRepair_ends true (by omega)).must.chain .nil))

/-- The send queue is restored in two parts, the unsent one outside repair mode: two switches,
each of which may end the import.
-/
theorem tcpSetQueue_send_ends {ex : TCPState} (consistent : ex.Consistent)
    : Restores script (Restoring script 1 arrived true) (scriptedCalls.tcpSetQueue .send ex)
        (Restoring script 3
          ((arrived.add .send
              (arrivals true (ex.sendq.take (ex.sendqLen.toNat - ex.unsentqLen.toNat)))).add .send
            (arrivals false (ex.sendq.drop (ex.sendqLen.toNat - ex.unsentqLen.toNat))))
          true) := by
  have part := consistent.unsent
  have bound := consistent.sendq_lt
  have unsent := consistent.unsentLen
  have first := consistent.sentLen
  rw [consistent.sendq, ImportCalls.tcpSetQueue]
  generalize ex.unsentqLen.toUInt32 = ulen at unsent first ⊢
  generalize (ex.sendqLen - ulen.toUInt64).toUInt32 = len at first ⊢
  have early := @sentPart_ends script 1 arrived ex.sendq len (by omega) (by omega) (by omega)
  have late := @unsentPart_ends script
    (arrived.add .send (arrivals true (ex.sendq.take len.toNat)))
    (ex.sendq.drop len.toNat) ulen (by rw [List.length_drop]; omega) (by omega)
  rw [← first]
  exact early.chain (late.chain .nil)

/-- Setting the sequence number of a queue brings nothing to it. -/
theorem tcpSetSeq_ends (queue : RepairQueue) (ex : TCPState) (few : most ≤ 3)
    : Restores script (Restoring script most arrived true) (scriptedCalls.tcpSetSeq queue ex)
        (Restoring script most arrived true) := by
  have selected : Restores script (Restoring script most arrived true)
      (scriptedCalls.setRepairQueue queue) (Restoring script most arrived true) := by
    intro s before
    rcases setRepairQueue_ends queue few s before with ended | ⟨error, t, ran, success, failure⟩
    · exact .inl ended
    · exact .inr ⟨error, t, ran, fun zero => (success zero).1, failure⟩
  exact selected.chain ((plainCall_ends few).chain .nil)

end Calls

/-- The bytes the queues got from a message, of which the first ones were sent already. -/
def TCPState.arrived (ex : TCPState) (before : Arrived) : Arrived where
  send :=
    before.send
      ++ arrivals true (ex.sendq.take (ex.sendqLen.toNat - ex.unsentqLen.toNat))
      ++ arrivals false (ex.sendq.drop (ex.sendqLen.toNat - ex.unsentqLen.toNat))
  recv := before.recv ++ arrivals true ex.recvq

/-- Inside repair mode the import restores both queues and leaves the mode, or fails. -/
theorem steps_ends {script : Nat → Answer} {ex : TCPState} (consistent : ex.Consistent)
    (before : Arrived)
    : Restores script (Restoring script 1 before true)
        (chain [
          scriptedCalls.tcpSetSeq .send ex,
          scriptedCalls.tcpSetSeq .recv ex,
          scriptedCalls.tcpSetAddr ex,
          scriptedCalls.tcpSetQueue .send ex,
          scriptedCalls.tcpSetQueue .recv ex,
          scriptedCalls.tcpSetOptions ex,
          scriptedCalls.tcpSetWindow ex,
          scriptedCalls.tcpRepairDone
        ])
        (Restoring script 4 (ex.arrived before) false) := by
  have finish {arrived : Arrived}
      : Restores script (Restoring script 3 arrived true) scriptedCalls.tcpRepairDone
          (Restoring script 4 arrived false) :=
    (setRepair_ends false (by omega)).weaken fun _ refused => .inl refused
  have plain {most : Nat} {arrived : Arrived} (few : most ≤ 3)
      : Restores script (Restoring script most arrived true)
          (chain [Scripted.call id, Scripted.call id]) (Restoring script most arrived true) :=
    (plainCall_ends few).chain ((plainCall_ends few).chain .nil)
  exact (tcpSetSeq_ends .send ex (by omega)).chain <|
    (tcpSetSeq_ends .recv ex (by omega)).chain <| (plain (by omega)).chain <|
    (tcpSetQueue_send_ends consistent).chain <|
    (tcpSetQueue_recv_ends consistent (by omega)).chain <| (plain (by omega)).chain <|
    (plainCall_ends (by omega)).chain <| finish.chain .nil

/-- The clean-up leaves repair mode, or its switch is refused, and the process ends. -/
theorem cleanUp_ends {script : Nat → Answer} {s : Scripted} (broken : Broken script s)
    : (asserted scriptedCalls.tcpRepairDone s = none ∧ Refused script 3)
      ∨ ∃ t, asserted scriptedCalls.tcpRepairDone s = some t ∧ t.repair = false := by
  rcases answer : s.switches 0 with limit | ⟨errno, isError⟩
  · refine .inr ⟨{ s with switches := fun n => s.switches (n + 1), repair := false }, ?_, rfl⟩
    simp [asserted, ImportCalls.tcpRepairDone, scriptedCalls, Scripted.setRepair, answer]
  · refine .inl ⟨?_, ?_⟩
    · simp [asserted, ImportCalls.tcpRepairDone, scriptedCalls, Scripted.setRepair, answer,
        isError]
    · rcases broken with refused | ⟨used, entered, few, same⟩
      · exact refused
      · refine ⟨used - 1, by omega, errno, isError, ?_⟩
        rw [Nat.sub_add_cancel entered, ← answer]
        simp only [same, Nat.zero_add]

/-- However the kernel answers: a finished import has brought every byte to its queue in its
mode and left repair mode, and a failed one has left repair mode or never entered it. Neither
comes about only when a switch the import asserts is refused, which is one of the first three
after the entry: the two around the unsent part, and the one of the clean-up.
-/
theorem tcpImport_restores {ex : TCPState} (consistent : ex.Consistent) (s : Scripted)
    : (∀ ret t,
        scriptedCalls.tcpImport ex s = some (ret, t)
        → (ret = 0 → t.arrived = ex.arrived s.arrived ∧ t.repair = false)
          ∧ (ret ≠ 0 → (∃ errno isError, s.switches 0 = .refused errno isError)
            ∨ t.repair = false))
      ∧ ((∀ n < 3, ∃ limit, s.switches (n + 1) = .granted limit)
        → ∃ ret t, scriptedCalls.tcpImport ex s = some (ret, t)) := by
  -- a refused first switch returns before the `err1` clean-up is reached
  rcases answer : s.switches 0 with limit | ⟨errno, isError⟩
  · obtain ⟨u, started, inside⟩ : ∃ u, scriptedCalls.tcpRepairStart s = some (0, u)
        ∧ Restoring s.switches 1 s.arrived true u := by
      refine ⟨{ s with
          switches := fun n => s.switches (n + 1)
          repair := true
          queue := none }, ?_, rfl, rfl, 1, by omega, by omega, rfl⟩
      simp [ImportCalls.tcpRepairStart, scriptedCalls, Scripted.setRepair, answer]
    -- every later step leaves the queue restored so far, and the clean-up switches repair off
    have entered := (steps_ends consistent s.arrived).onError
      (fun _ broken => cleanUp_ends broken) u inside
    rw [ImportCalls.tcpImport, andThen, started, Option.bind_some]
    simp only [↓reduceIte]
    refine ⟨?_, ?_⟩
    · intro ret t returned
      rcases entered with ⟨ended, -⟩ | ⟨ret', t', ran, success, failure⟩
      · rw [ended] at returned
        cases returned
      · obtain ⟨rfl, rfl⟩ := Prod.mk.inj (Option.some.inj (ran.symm.trans returned))
        exact ⟨fun zero => ⟨(success zero).arrived, (success zero).repair⟩,
          fun some_error => .inr (failure some_error)⟩
    · intro granted
      -- an abort means a refused toggle, which `granted` excludes
      rcases entered with ⟨-, n, few, errno, isError, refused⟩ | ⟨ret, t, ran, -⟩
      · obtain ⟨limit, given⟩ := granted n few
        rw [given] at refused
        cases refused
      · exact ⟨ret, t, ran⟩
  · have refused : scriptedCalls.tcpImport ex s
        = some (errno, { s with switches := fun n => s.switches (n + 1), errno := errno }) := by
      simp [ImportCalls.tcpImport, andThen, ImportCalls.tcpRepairStart, scriptedCalls,
        Scripted.setRepair, answer, isError]
    rw [refused]
    refine ⟨?_, fun _ => ⟨_, _, rfl⟩⟩
    intro ret t returned
    obtain ⟨rfl, rfl⟩ := Prod.mk.inj (Option.some.inj returned)
    exact ⟨fun zero => absurd zero isError, fun _ => .inl ⟨errno, isError, rfl⟩⟩

section Sample

/-- A message with two bytes to send, one of them not sent yet, and one byte received. -/
def sampleQueues : TCPState :=
  { TCPState.clear with
    sendq := [1, 2]
    sendqLen := 2
    unsentqLen := 1
    recvq := [3]
    recvqLen := 1 }

/-- A kernel that takes one byte at a time. -/
def samplePatience : Scripted where
  switches := fun _ => .granted 0
  answers := fun _ => .granted 1
  errno := 0
  repair := false
  queue := none
  sent := []

/-- With both queues and the mode as they should be, it returns zero. -/
theorem tcpImport_restores_sample
    : ∃ t,
        scriptedCalls.tcpImport sampleQueues samplePatience = some (0, t)
        ∧ t.arrived = ⟨[⟨1, true⟩, ⟨2, false⟩], [⟨3, true⟩]⟩
        ∧ t.repair = false := by
  have consistent : sampleQueues.Consistent :=
    ⟨by decide, by decide, by decide, by decide, by decide⟩
  obtain ⟨every, some_⟩ := tcpImport_restores consistent samplePatience
  obtain ⟨ret, t, returned⟩ := some_ fun _ _ => ⟨0, rfl⟩
  have zero : (scriptedCalls.tcpImport sampleQueues samplePatience).map Prod.fst = some 0 := by
    decide +kernel
  rw [returned] at zero
  obtain rfl : ret = 0 := Option.some.inj zero
  exact ⟨t, returned, (every 0 t returned).1 rfl⟩

end Sample

end PrismHTTP.Handoff
