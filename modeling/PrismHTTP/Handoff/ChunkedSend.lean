import Mathlib.Data.Nat.Log
import PrismHTTP.Handoff.ImportCalls

/-! The chunked sender against a kernel that answers in any pattern.
A send that is taken leaves less to send, and one that fails halves the chunks, down to 1024
bytes; so the loop ends. What was taken is always a prefix of the buffer, whole exactly when
the loop returns zero.
-/

namespace PrismHTTP.Handoff
open StatusCode

/-- The bytes a send took, or its `errno`. -/
inductive Outcome where
  | took (data : Bytes)
  | failed (errno : Int)

/-- One `send`, with the socket's mode and the queue selected then. -/
structure Sending where
  inRepair : Bool
  selected : Option RepairQueue
  outcome : Outcome

/-- A kernel that answers as it is told, whatever the calls are, and keeps a log of the sends.
Switching repair mode has answers of its own.
-/
structure Scripted where
  switches : Nat → Answer
  answers : Nat → Answer
  errno : Int
  repair : Bool
  queue : Option RepairQueue
  sent : List Sending

namespace Scripted

/-- The kernel after it gave its next answer. -/
def answered (s : Scripted) : Scripted := { s with answers := fun n => s.answers (n + 1) }

def call (effect : Scripted → Scripted) : Procedure Scripted := fun s =>
  match s.answers 0 with
  | .refused errno _ => some (errno, { s.answered with errno := errno })
  | .granted _ => some (0, effect s.answered)

/-- `TCP_REPAIR`: switching it on deselects the queue. -/
def setRepair (on : Bool) : Procedure Scripted := fun s =>
  let t := { s with switches := fun n => s.switches (n + 1) }
  match s.switches 0 with
  | .refused errno _ => some (errno, { t with errno := errno })
  | .granted _ => some (0, { t with repair := on, queue := if on then none else s.queue })

def record (s : Scripted) (outcome : Outcome) : Scripted :=
  { s with sent := s.sent ++ [⟨s.repair, s.queue, outcome⟩] }

/-- A send of some bytes takes at least one of them. -/
def send (data : Bytes) (s : Scripted) : Int × Scripted :=
  match s.answers 0 with
  | .refused errno _ => (-1, { s.answered.record (.failed errno) with errno := errno })
  | .granted limit =>
      let taken := data.take (max 1 limit)
      (taken.length, s.answered.record (.took taken))

end Scripted

def scriptedCalls : ImportCalls Scripted where
  setRepair := Scripted.setRepair
  setRepairQueue := fun queue => Scripted.call ({ · with queue := some queue })
  setQueueSeq := fun _ => Scripted.call id
  bind := fun _ _ => Scripted.call id
  connect := fun _ _ => Scripted.call id
  setRepairOptions := fun _ => Scripted.call id
  setTimestamp := fun _ => Scripted.call id
  setRepairWindow := fun _ => Scripted.call id
  send := Scripted.send
  errno := (·.errno)

def Outcome.taken : Outcome → Bytes
  | .took data => data
  | .failed _ => []

/-- All bytes taken, in order. -/
def takenBytes (log : List Sending) : Bytes := log.flatMap (·.outcome.taken)

/-- `max_chunk` after these sends: each that failed halved it. -/
def chunkLimit (maxChunk : Int) (log : List Sending) : Int :=
  log.foldl
    (fun limit sending =>
      match sending.outcome with
      | .took _ => limit
      | .failed _ => limit / 2)
    maxChunk

/-- Nothing but sends happened, which the log tells. -/
structure Scripted.Sends (before : Scripted) (log : List Sending) (after : Scripted) : Prop where
  sent : after.sent = before.sent ++ log
  repair : after.repair = before.repair
  queue : after.queue = before.queue
  switches : after.switches = before.switches
  uniform : ∀ e ∈ log, e.inRepair = before.repair ∧ e.selected = before.queue

/-- Two runs of sends are one, with both logs. -/
theorem Scripted.Sends.trans {s t u : Scripted} {log later : List Sending} (first : s.Sends log t)
    (second : t.Sends later u)
    : s.Sends (log ++ later) u where
  sent := by rw [second.sent, first.sent, List.append_assoc]
  repair := second.repair.trans first.repair
  queue := second.queue.trans first.queue
  switches := second.switches.trans first.switches
  uniform := by
    intro e member
    rcases List.mem_append.mp member with early | late
    · exact first.uniform e early
    · obtain ⟨repair, queue⟩ := second.uniform e late
      exact ⟨repair.trans first.repair, queue.trans first.queue⟩

/-- What the loop returns of the string it was to send: zero when all of it was taken, or the
`errno` of a send that failed although the chunks were small.
-/
inductive Concludes (buf : Bytes) (maxChunk : Int) (log : List Sending) : Int → Prop
  | whole (all : takenBytes log = buf) : Concludes buf maxChunk log 0
  | refused (earlier : List Sending) (last : Sending) (errno : Int) (split : log = earlier ++ [last])
      (failed : last.outcome = .failed errno) (isError : errno ≠ 0)
      (small : chunkLimit maxChunk earlier ≤ 1024) (part : takenBytes log ≠ buf)
      : Concludes buf maxChunk log errno

/-- A finished loop: its log is short, and what was taken is a prefix of the string. -/
structure LoopEnds (buf : Bytes) (len : Nat) (maxChunk : Int) (before : Scripted) (ret : Int)
    (after : Scripted) (log : List Sending) : Prop where
  sends : before.Sends log after
  calls : log.length ≤ len + Nat.log 2 maxChunk.toNat
  order : takenBytes log <+: buf.take len
  concludes : Concludes (buf.take len) maxChunk log ret

section Loop

variable {buf : Bytes} {len : Nat} {maxChunk : Int} {s : Scripted}

/-- The chunk of one pass is the shorter of what is left and the limit. -/
theorem chunk_eq (small : len < 2147483648) (positive : 0 < maxChunk)
    : ∃ chunk : Nat,
        (if toInt len > maxChunk then maxChunk else toInt len) = chunk
        ∧ chunk = min len maxChunk.toNat := by
  refine ⟨min len maxChunk.toNat, ?_, rfl⟩
  rw [toInt, if_pos small]
  split <;> omega

/-- One pass whose send is refused. -/
theorem sendLoop_refused {errno : Int} {isError : errno ≠ 0}
    (refused : s.answers 0 = .refused errno isError) (some_left : 0 < len)
    (inside : len ≤ buf.length) (small : len < 2147483648) (positive : 0 < maxChunk)
    : scriptedCalls.sendLoop buf len maxChunk s
      = if 1024 < maxChunk then
          scriptedCalls.sendLoop buf len (maxChunk / 2)
            { s.answered.record (.failed errno) with errno := errno }
        else
          some (errno, { s.answered.record (.failed errno) with errno := errno }) := by
  obtain ⟨chunk, chosen, least⟩ := chunk_eq small positive
  rw [ImportCalls.sendLoop]
  simp only [chosen, scriptedCalls, Scripted.send, refused]
  rw [if_neg (by omega), if_pos (by omega), if_neg (Nat.ne_of_gt some_left)]

/-- One pass whose send takes some bytes. -/
theorem sendLoop_granted {limit : Nat} (granted : s.answers 0 = .granted limit)
    (some_left : 0 < len) (inside : len ≤ buf.length) (small : len < 2147483648)
    (positive : 0 < maxChunk)
    : ∃ k, 0 < k ∧ k ≤ len
      ∧ scriptedCalls.sendLoop buf len maxChunk s
        = if len - k = 0 then
            some (0, s.answered.record (.took (buf.take k)))
          else
            scriptedCalls.sendLoop (buf.drop k) (len - k) maxChunk
              (s.answered.record (.took (buf.take k))) := by
  obtain ⟨chunk, chosen, least⟩ := chunk_eq small positive
  refine ⟨min (max 1 limit) chunk, by omega, by omega, ?_⟩
  have taken : (buf.take chunk).take (max 1 limit) = buf.take (min (max 1 limit) chunk) :=
    List.take_take
  have count : (buf.take (min (max 1 limit) chunk)).length = min (max 1 limit) chunk :=
    List.length_take_of_le (by omega)
  rw [ImportCalls.sendLoop]
  simp only [chosen, scriptedCalls, Scripted.send, granted, Int.toNat_natCast, taken, count]
  rw [if_neg (by omega), if_neg (by omega)]

/-- A single send is a run of one. -/
theorem sends_record (s : Scripted) (outcome : Outcome) (errno : Int)
    : s.Sends [⟨s.repair, s.queue, outcome⟩]
        { s.answered.record outcome with errno := errno } where
  sent := rfl
  repair := rfl
  queue := rfl
  switches := rfl
  uniform := by simp

/-- A send before the others leaves the conclusion for the whole string. -/
theorem Concludes.cons {rest whole : Bytes} {log : List Sending} {ret : Int} {e : Sending}
    (h : Concludes rest (chunkLimit maxChunk [e]) log ret) (split : whole = e.outcome.taken ++ rest)
    : Concludes whole maxChunk (e :: log) ret := by
  subst split
  have same (log : List Sending) : takenBytes (e :: log) = e.outcome.taken ++ takenBytes log :=
    List.flatMap_cons
  cases h with
  | whole all => exact .whole (by rw [same, all])
  | refused earlier last _ parts failed isError small part =>
      refine .refused (e :: earlier) last _ (by rw [parts]; rfl) failed isError small ?_
      rw [same]
      exact fun all => part (List.append_cancel_left all)

/-- One send more at the start of a loop that ends. -/
theorem LoopEnds.cons {rest : Bytes} {left : Nat} {ret : Int} {e : Sending} {middle t : Scripted}
    {log : List Sending} (first : s.Sends [e] middle)
    (ends : LoopEnds rest left (chunkLimit maxChunk [e]) middle ret t log)
    (split : buf.take len = e.outcome.taken ++ rest.take left)
    (shorter : left + Nat.log 2 (chunkLimit maxChunk [e]).toNat < len + Nat.log 2 maxChunk.toNat)
    : LoopEnds buf len maxChunk s ret t (e :: log) where
  sends := first.trans ends.sends
  calls := by
    have bound := ends.calls
    rw [List.length_cons]
    omega
  order := by
    rw [split]
    exact (List.prefix_append_right_inj _).mpr ends.order
  concludes := ends.concludes.cons split

/-- The last send takes all that is left. -/
theorem loopEnds_whole (some_left : 0 < len)
    : LoopEnds buf len maxChunk s 0 (s.answered.record (.took (buf.take len)))
        [⟨s.repair, s.queue, .took (buf.take len)⟩] where
  sends := sends_record s (.took (buf.take len)) s.errno
  calls := by
    rw [List.length_singleton]
    omega
  order := by simp [takenBytes, Outcome.taken]
  concludes := .whole (by simp [takenBytes, Outcome.taken])

/-- The last send fails, with something left and the chunks small. -/
theorem loopEnds_refused {errno : Int} (isError : errno ≠ 0) (some_left : 0 < len)
    (inside : len ≤ buf.length) (low : maxChunk ≤ 1024)
    : LoopEnds buf len maxChunk s errno
        { s.answered.record (.failed errno) with errno := errno }
        [⟨s.repair, s.queue, .failed errno⟩] where
  sends := sends_record s (.failed errno) errno
  calls := by
    rw [List.length_singleton]
    omega
  order := List.nil_prefix
  concludes := by
    refine .refused [] _ errno rfl rfl isError low fun all => ?_
    have count := congrArg List.length all
    change 0 = (buf.take len).length at count
    rw [List.length_take] at count
    omega

/-- Halving a chunk of more than 1024 bytes lowers its logarithm. -/
theorem log_half (large : 1024 < maxChunk)
    : Nat.log 2 (maxChunk / 2).toNat < Nat.log 2 maxChunk.toNat := by
  have half : (maxChunk / 2).toNat = maxChunk.toNat / 2 := by omega
  have positive : 0 < Nat.log 2 maxChunk.toNat := Nat.log_pos (by decide) (by omega)
  rw [half, Nat.log_div_base]
  omega

/-- The loop ends, by induction on what is left and the limit together. -/
theorem sendLoop_ends (some_left : 0 < len) (inside : len ≤ buf.length)
    (small : len < 2147483648) (positive : 0 < maxChunk) (s : Scripted)
    : ∃ ret t log,
        scriptedCalls.sendLoop buf len maxChunk s = some (ret, t)
        ∧ LoopEnds buf len maxChunk s ret t log := by
  -- a granted send lowers the length, a refused one halves the chunk: their sum falls either
  -- way
  induction measure : len + maxChunk.toNat using Nat.strongRecOn
    generalizing buf len maxChunk s with
  | ind n ih =>
      rcases answer : s.answers 0 with limit | ⟨errno, isError⟩
      · obtain ⟨k, some_taken, taken_le, pass⟩ :=
          sendLoop_granted answer some_left inside small positive
        rw [pass]
        by_cases last : len - k = 0
        · have all : k = len := by omega
          subst all
          exact ⟨0, _, _, if_pos last, loopEnds_whole some_left⟩
        · have first := sends_record s (.took (buf.take k)) s.errno
          obtain ⟨ret, t, log, ran, ends⟩ :=
            @ih _ (by omega) (buf.drop k) (len - k) maxChunk (by omega)
              (by rw [List.length_drop]; omega) (by omega) positive
              (s.answered.record (.took (buf.take k))) rfl
          refine ⟨ret, t, _, (if_neg last).trans ran, .cons first ends ?_ ?_⟩
          · rw [Outcome.taken, ← List.take_add, Nat.add_sub_cancel' taken_le]
          · change len - k + Nat.log 2 maxChunk.toNat < _
            omega
      -- a refusal ends the loop only once the chunk is down to 1024 bytes
      · rw [sendLoop_refused answer some_left inside small positive]
        by_cases large : 1024 < maxChunk
        · have first := sends_record s (.failed errno) errno
          obtain ⟨ret, t, log, ran, ends⟩ :=
            @ih _ (by omega) buf len (maxChunk / 2) some_left inside small (by omega)
              { s.answered.record (.failed errno) with errno := errno } rfl
          refine ⟨ret, t, _, (if_pos large).trans ran, .cons first ends rfl ?_⟩
          exact Nat.add_lt_add_left (log_half large) len
        · exact ⟨errno, _, _, if_neg large,
            loopEnds_refused isError some_left inside (Int.not_lt.mp large)⟩

/-- The chunks start the loop with the whole buffer, its length being an `int`. -/
theorem sendChunks_loopEnds {len : UInt32} (some_left : len ≠ 0)
    (small : len.toNat < 2147483648) (inside : len.toNat ≤ buf.length) (s : Scripted)
    : ∃ ret t log,
        scriptedCalls.sendChunks buf len s = some (ret, t)
        ∧ LoopEnds buf len.toNat len.toNat s ret t log := by
  have positive : 0 < len.toNat := by
    refine Nat.pos_of_ne_zero fun zero => some_left ?_
    exact UInt32.toNat_inj.mp zero
  have limit : toInt len.toNat = len.toNat := if_pos small
  rw [ImportCalls.sendChunks, limit]
  exact sendLoop_ends positive inside small (by omega) s

end Loop

/-- The sender ends after few sends. At any moment the bytes taken are a prefix of the buffer;
zero is returned exactly when they are all of it, and otherwise the `errno` of the last send,
which failed with the chunks at 1024 bytes or below.
-/
theorem sendChunks_terminates {buf : Bytes} {len : UInt32} (some_left : len ≠ 0)
    (small : len.toNat < 2147483648) (inside : len.toNat ≤ buf.length) (s : Scripted)
    : ∃ ret t log,
        scriptedCalls.sendChunks buf len s = some (ret, t)
        ∧ t.sent = s.sent ++ log
        ∧ log.length ≤ len.toNat + Nat.log 2 len.toNat
        ∧ (∀ n, takenBytes (log.take n) <+: buf.take len.toNat)
        ∧ (ret = 0 ↔ takenBytes log = buf.take len.toNat)
        ∧ (ret ≠ 0 → ∃ earlier last, log = earlier ++ [last]
          ∧ last.outcome = .failed ret ∧ chunkLimit len.toNat earlier ≤ 1024) := by
  obtain ⟨ret, t, log, ran, ends⟩ := sendChunks_loopEnds some_left small inside s
  have order (n : Nat) : takenBytes (log.take n) <+: buf.take len.toNat := by
    have part : takenBytes (log.take n) ++ takenBytes (log.drop n) = takenBytes log := by
      rw [takenBytes, takenBytes, ← List.flatMap_append, List.take_append_drop]
      rfl
    exact List.IsPrefix.trans ⟨_, part⟩ ends.order
  refine ⟨ret, t, log, ran, ends.sends.sent, ends.calls, order, ?_⟩
  cases ends.concludes with
  | whole all => exact ⟨iff_of_true rfl all, fun some_error => absurd rfl some_error⟩
  | refused earlier last errno split failed isError low part =>
      exact ⟨iff_of_false isError part, fun _ => ⟨earlier, last, split, failed, low⟩⟩

section Sample

/-- A kernel that takes a byte at a time, and then is out of memory. -/
def sampleScript : Scripted where
  switches := fun _ => .granted 0
  answers := fun n => if n < 2 then .granted 1 else .refused 12 (by decide)
  errno := 0
  repair := true
  queue := some .recv
  sent := []

/-- Three bytes, of which it takes two. -/
theorem sendChunks_terminates_sample
    : ∃ ret t log,
        scriptedCalls.sendChunks [1, 2, 3] 3 sampleScript = some (ret, t)
        ∧ t.sent = sampleScript.sent ++ log
        ∧ log.length ≤ (3 : UInt32).toNat + Nat.log 2 (3 : UInt32).toNat
        ∧ (∀ n, takenBytes (log.take n) <+: [1, 2, 3].take (3 : UInt32).toNat)
        ∧ (ret = 0 ↔ takenBytes log = [1, 2, 3].take (3 : UInt32).toNat)
        ∧ (ret ≠ 0 → ∃ earlier last, log = earlier ++ [last]
          ∧ last.outcome = .failed ret ∧ chunkLimit (3 : UInt32).toNat earlier ≤ 1024) :=
  sendChunks_terminates (by decide) (by decide) (by decide) sampleScript

end Sample

end PrismHTTP.Handoff
