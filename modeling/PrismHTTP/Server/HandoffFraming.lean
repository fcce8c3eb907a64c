import PrismHTTP.Library.Framing
import PrismHTTP.Library.Transition
import PrismHTTP.Server.HandoffServer

/-! Frames taken from the stream, whatever the cuts.
The reader's test for a whole frame leaves out the four bytes of the length, so a read that
ends one to four bytes before the end of a frame makes it take the frame too early, and the
process does not survive. Every other cut is harmless.
-/

namespace PrismHTTP.Server
open MemoryBlock Framing Transition

variable {M : Type} {pb : Protobuf M}

/-- A length takes four bytes. -/
@[simp] theorem length_htonl (n : Nat) : (htonl n).length = 4 := rfl

/-- A length of 32 bits is read back. -/
theorem ntohl_htonl {n : Nat} (h : n < 2 ^ 32) : ntohl (htonl n) = n := by
  simp only [ntohl, htonl, UInt8.toNat_ofNat']
  omega

/-- Less than eight bytes are padded. -/
theorem padlen_lt (n : Nat) : padlen n < 8 := by
  unfold padlen
  split <;> omega

/-- Only an empty payload makes a frame of less than twelve bytes. -/
theorem le_add_padlen {n : Nat} (h : 0 < n) : 8 ≤ padlen n + n := by
  unfold padlen
  split <;> omega

/-- A message as one of the two writers puts it on the connection. -/
structure Frame (pb : Protobuf M) where
  hoReq : M
  forwarded : Bool
  header : Block
  short : (pb.serializeToString hoReq).length < 2 ^ 32 - 8

namespace Frame

def payload (frame : Frame pb) : Bytes := pb.serializeToString frame.hoReq

def bytes (frame : Frame pb) : Bytes :=
  if frame.forwarded then forwardProtoStates pb frame.hoReq frame.header
  else afterRealClose pb frame.hoReq frame.header

def length (frame : Frame pb) : Nat :=
  4 + padlen frame.payload.length + frame.payload.length

/-- Both writers put a frame the same way: the length, the padding and the payload. -/
theorem bytes_eq (frame : Frame pb)
    : frame.bytes
      = (htonl frame.payload.length
          ++ load frame.header.fresh 4 (padlen frame.payload.length))
        ++ frame.payload := by
  unfold bytes
  split <;> rfl

/-- A frame is as long as its parts. -/
theorem length_bytes (frame : Frame pb) : frame.bytes.length = frame.length := by
  simp [bytes_eq, length, Nat.add_assoc]

end Frame

def stream (frames : List (Frame pb)) : Bytes := frames.flatMap Frame.bytes

/-- The streams of two lists of frames follow each other. -/
theorem stream_append (early late : List (Frame pb))
    : stream (early ++ late) = stream early ++ stream late :=
  List.flatMap_append

/-- The bytes taken do not end in the last four bytes of a frame with a payload. -/
def Safe (frames : List (Frame pb)) (n : Nat) : Prop :=
  ∀ next ∈ (pending Frame.length frames n).head?, next.payload ≠ []
    → residue Frame.length frames n + 4 < next.length

instance (frames : List (Frame pb)) (n : Nat) : Decidable (Safe frames n) := by
  unfold Safe
  infer_instance

/-- The difference of two pointers is that of their offsets, where it is not negative. -/
theorem ptrDiff_le {a b : Nat} (h : b ≤ a) (small : a < 2 ^ 64)
    : (ptrDiff a b).toNat = a - b := by
  simp only [ptrDiff, UInt64.toNat_sub, UInt64.toNat_ofNat']
  omega

/-- A negative difference of two pointers is a very large unsigned one. -/
theorem ptrDiff_lt {a b : Nat} (h : a < b) (small : b < 2 ^ 63)
    : 2 ^ 63 < (ptrDiff a b).toNat := by
  simp only [ptrDiff, UInt64.toNat_sub, UInt64.toNat_ofNat']
  omega

section Turns

variable {buf : Membuf} {s : Scan M} {x : Frame pb} {rest : Bytes} {r : Nat}

/-- Four bytes of a frame are its length. -/
theorem ntohl_load (h : load buf.mem s.cursor r = (x.bytes ++ rest).take r) (long : 4 ≤ r)
    : ntohl (load buf.mem s.cursor 4) = x.payload.length := by
  have short := x.short
  have front : load buf.mem s.cursor 4 = htonl x.payload.length := by
    rw [← take_load buf.mem long, h, List.take_take, Nat.min_eq_left long, Frame.bytes_eq]
    rfl
  rw [front, ntohl_htonl]
  unfold Frame.payload
  omega

/-- The length of the payload with its padding does not wrap around. -/
theorem toNat_need (x : Frame pb)
    : (UInt32.ofNat (x.payload.length + padlen x.payload.length)).toNat
      = x.payload.length + padlen x.payload.length := by
  have short := x.short
  have pad := padlen_lt x.payload.length
  rw [UInt32.toNat_ofNat', Nat.mod_eq_of_lt]
  unfold Frame.payload at *
  omega

/-- With a whole frame in the buffer, its payload is where the loop looks for it. -/
theorem load_payload (h : load buf.mem s.cursor r = (x.bytes ++ rest).take r)
    (whole : x.length ≤ r)
    : load buf.mem (s.cursor + 4 + padlen x.payload.length) x.payload.length
      = x.payload := by
  have all : load buf.mem s.cursor x.length = x.bytes := by
    rw [← take_load buf.mem whole, h, List.take_take, Nat.min_eq_left whole,
      ← Frame.length_bytes, List.take_left]
  rw [Frame.bytes_eq] at all
  have behind := (load_eq_append all).2
  simp only [List.length_append, length_htonl, length_load, Frame.length] at behind
  rwa [← Nat.add_assoc, Nat.add_sub_cancel_left] at behind

variable (small : buf.size < 2 ^ 62)

include small

/-- Nothing behind the cursor: the loop ends. -/
theorem scanFrame_short (inside : s.cursor + r = buf.cur) (short : r < 4)
    : scanFrame pb buf s = .leave s := by
  have extent := buf.cur_le_size
  have diff := ptrDiff_le (a := buf.cur) (b := s.cursor) (by omega) (by omega)
  refine if_pos (UInt64.lt_iff_toNat_lt.mpr ?_)
  rw [diff]
  change _ < 4
  omega

/-- With four bytes behind the cursor the loop goes on. -/
theorem not_lt_four (inside : s.cursor + r = buf.cur) (long : 4 ≤ r)
    : ¬ ptrDiff buf.cur s.cursor < 4 := by
  have extent := buf.cur_le_size
  have diff := ptrDiff_le (a := buf.cur) (b := s.cursor) (by omega) (by omega)
  rw [UInt64.lt_iff_toNat_lt, diff]
  change ¬ _ < 4
  omega

/-- A whole frame is handed off, and the cursor moves behind it. -/
theorem scanFrame_whole (inside : s.cursor + r = buf.cur)
    (h : load buf.mem s.cursor r = (x.bytes ++ rest).take r) (whole : x.length ≤ r)
    : ∃ extent ≤ max s.extent buf.cur,
      scanFrame pb buf s
        = .again { s with
            cursor := s.cursor + x.length
            handoffs := s.handoffs ++ [x.hoReq]
            extent := extent } := by
  have size := buf.cur_le_size
  have long : 4 ≤ r := by unfold Frame.length at whole; omega
  have parsed : pb.parseFromString x.payload = some x.hoReq := pb.parse_serialize _
  refine ⟨max (max s.extent (s.cursor + 4)) (s.cursor + x.length), by omega, ?_⟩
  unfold Frame.length at *
  rw [scanFrame, if_neg (not_lt_four small inside long), if_neg (by omega)]
  simp only [ntohl_load h long, toNat_need, load_payload h whole, parsed]
  rw [if_neg (by omega), if_neg (by omega)]
  simp only [Nat.add_assoc]

/-- The beginning of a frame that is not nearly whole is left for the next read. -/
theorem scanFrame_part (inside : s.cursor + r = buf.cur)
    (h : load buf.mem s.cursor r = (x.bytes ++ rest).take r) (long : 4 ≤ r)
    (short : r + 4 < x.length)
    : ∃ extent ≤ max s.extent buf.cur,
      scanFrame pb buf s = .leave { s with extent := extent } := by
  have size := buf.cur_le_size
  refine ⟨max s.extent (s.cursor + 4), by omega, ?_⟩
  unfold Frame.length at *
  rw [scanFrame, if_neg (not_lt_four small inside long), if_neg (by omega)]
  simp only [ntohl_load h long, toNat_need]
  rw [if_pos (by omega)]

/-- A nearly whole frame is taken too early, unless taking it ends the process. -/
theorem scanFrame_early (inside : s.cursor + r = buf.cur)
    (h : load buf.mem s.cursor r = (x.bytes ++ rest).take r) (long : 4 ≤ r)
    (early : x.length ≤ r + 4)
    : (∃ last, scanFrame pb buf s = .leave last ∧ last.crashed = true)
      ∨ ∃ next, scanFrame pb buf s = .again next
        ∧ next.cursor = s.cursor + x.length := by
  have size := buf.cur_le_size
  unfold Frame.length at *
  rw [scanFrame, if_neg (not_lt_four small inside long), if_neg (by omega)]
  simp only [ntohl_load h long, toNat_need]
  rw [if_neg (by omega)]
  split
  · exact .inl ⟨_, rfl, rfl⟩
  split
  · exact .inl ⟨_, rfl, rfl⟩
  · exact .inr ⟨_, rfl, by simp only; omega⟩

/-- Past `cur` the unsigned test does not stop the loop, but the signed one does. -/
theorem scanFrame_past (past : buf.cur < s.cursor) (near : s.cursor ≤ buf.cur + 4)
    : ∃ last : Scan M, scanFrame pb buf s = .leave last
      ∧ (last.crashed = true ∨ buf.cur < last.cursor) := by
  have size := buf.cur_le_size
  have diff := ptrDiff_lt past (by omega)
  -- `cur - cursor` wraps around to a very large length
  have wraps : ¬ ptrDiff buf.cur s.cursor < 4 := by
    rw [UInt64.lt_iff_toNat_lt]
    change ¬ _ < 4
    omega
  rw [scanFrame, if_neg wraps]
  split
  · exact ⟨_, rfl, .inl rfl⟩
  · simp only
    rw [if_pos (by omega)]
    exact ⟨_, rfl, .inr past⟩

end Turns

/-- The loop ends where one turn does. -/
theorem scan_leave {buf : Membuf} {s last : Scan M} (h : scanFrame pb buf s = .leave last)
    : scan pb buf s = last := by
  rw [scan]
  split
  · next found => exact Turn.leave.inj (found.symm.trans h)
  · next found => cases found.symm.trans h

/-- The loop goes on from where one turn ends. -/
theorem scan_again {buf : Membuf} {s next : Scan M} (h : scanFrame pb buf s = .again next)
    : scan pb buf s = scan pb buf next := by
  rw [scan]
  split
  · next found => cases found.symm.trans h
  · next found => rw [Turn.again.inj (found.symm.trans h)]

/-- Behind a whole frame, the buffer holds the beginning of the later ones. -/
theorem load_behind {buf : Membuf} {cursor r : Nat} {x : Frame pb} {rest : List (Frame pb)}
    (tail : load buf.mem cursor r = (stream (x :: rest)).take r) (whole : x.length ≤ r)
    : load buf.mem (cursor + x.length) (r - x.length)
      = (stream rest).take (r - x.length) := by
  rw [← drop_load buf.mem whole, tail, stream, List.flatMap_cons, List.drop_take,
    ← Frame.length_bytes, List.drop_left]
  rfl

section Loop

variable {buf : Membuf} {frames : List (Frame pb)} {s : Scan M} {r : Nat}
  (small : buf.size < 2 ^ 62) (inside : s.cursor + r = buf.cur)
  (tail : load buf.mem s.cursor r = (stream frames).take r)

include small inside tail

/-- The loop takes exactly the complete frames and stops at the residue, by induction on the
frames still to come.
-/
theorem scan_safe (safe : Safe frames r)
    : ∃ extent ≤ max s.extent buf.cur,
      scan pb buf s
        = { s with
            cursor := buf.cur - residue Frame.length frames r
            handoffs := s.handoffs ++ (complete Frame.length frames r).map Frame.hoReq
            extent := extent } := by
  induction frames generalizing s r with
  | nil =>
      have empty : r = 0 := by simpa [stream] using congrArg List.length tail
      subst empty
      refine ⟨s.extent, by omega, ?_⟩
      rw [scan_leave (scanFrame_short small inside (by omega))]
      simp [residue, complete, ← inside]
  | cons x rest ih =>
      simp only [complete, residue]
      by_cases whole : x.length ≤ r
      · rw [if_pos whole, if_pos whole]
        obtain ⟨extent, low, taken⟩ := scanFrame_whole small inside tail whole
        have later : Safe rest (r - x.length) := by
          simpa only [Safe, pending, residue, if_pos whole] using safe
        have behind := load_behind tail whole
        obtain ⟨highest, bound, done⟩ := ih (s := { s with
            cursor := s.cursor + x.length
            handoffs := s.handoffs ++ [x.hoReq]
            extent := extent }) (by simp only; omega) behind later
        refine ⟨highest, by simp only at bound; omega, ?_⟩
        rw [scan_again taken, done]
        simp
      · rw [if_neg whole, if_neg whole]
        by_cases long : 4 ≤ r
        · have loaded : x.payload ≠ [] := by
            intro nothing
            simp [Frame.length, nothing, padlen] at whole
            omega
          -- a frame left in part is safely short of its end
          have part : r + 4 < x.length := by
            have apart := safe x
            simp only [pending, residue, if_neg whole] at apart
            exact apart rfl loaded
          obtain ⟨extent, low, left⟩ := scanFrame_part small inside tail long part
          refine ⟨extent, low, ?_⟩
          rw [scan_leave left]
          simp [← inside]
        · refine ⟨s.extent, by omega, ?_⟩
          rw [scan_leave (scanFrame_short small inside (by omega))]
          simp [← inside]

/-- Where a frame is nearly whole, the process aborts or the cursor passes `cur`, by
induction on the frames still to come.
-/
theorem scan_unsafe (hazard : ¬ Safe frames r)
    : (scan pb buf s).crashed = true ∨ buf.cur < (scan pb buf s).cursor := by
  induction frames generalizing s r with
  | nil => simp [Safe, pending] at hazard
  | cons x rest ih =>
      by_cases whole : x.length ≤ r
      · obtain ⟨extent, -, taken⟩ := scanFrame_whole small inside tail whole
        have later : ¬ Safe rest (r - x.length) := by
          simpa only [Safe, pending, residue, if_pos whole] using hazard
        rw [scan_again taken]
        exact ih (by simp only; omega) (load_behind tail whole) later
      -- what is not safe about the stream is not safe about its first incomplete frame
      · obtain ⟨loaded, near⟩ : x.payload ≠ [] ∧ x.length ≤ r + 4 := by
          simpa [Safe, pending, residue, if_neg whole] using hazard
        have filled := le_add_padlen (List.length_pos_iff.mpr loaded)
        have long : 4 ≤ r := by unfold Frame.length at near; omega
        rcases scanFrame_early small inside tail long near with
          ⟨last, left, aborted⟩ | ⟨next, taken, past⟩
        · rw [scan_leave left]
          exact .inl aborted
        · obtain ⟨last, left, gone⟩ : ∃ last : Scan M, scanFrame pb buf next = .leave last
              ∧ (last.crashed = true ∨ buf.cur < last.cursor) :=
            scanFrame_past small (by omega) (by omega)
          rw [scan_again taken, scan_leave left]
          exact gone

end Loop

/-- What the messages' senders may expect after some of their bytes: the complete messages
were handed off in order and once each, no byte past `cur` was used, and the buffer holds
exactly the bytes not yet consumed.
-/
structure Framed (frames : List (Frame pb)) (conn : HttpHandoffClientSocket M) : Prop where
  alive : conn.crashed = false
  inside : conn.overread = false
  handoffs :
    conn.handoffs = (complete Frame.length frames conn.received.length).map Frame.hoReq
  unconsumed :
    conn.reqMem.filled
      = conn.received.drop
          (stream (complete Frame.length frames conn.received.length)).length

/-- The read does not end in the last four bytes of a frame with a payload. -/
def SafeCut (frames : List (Frame pb)) (conn : HttpHandoffClientSocket M) (read : Read)
    : Prop :=
  Safe frames (conn.received.length + read.data.length)

instance (frames : List (Frame pb)) (conn : HttpHandoffClientSocket M) (read : Read)
    : Decidable (SafeCut frames conn read) :=
  inferInstanceAs (Decidable (Safe _ _))

/-- What every run keeps: as long as the process lives nothing has gone wrong. -/
structure Sound (frames : List (Frame pb)) (conn : HttpHandoffClientSocket M) : Prop where
  ordered : conn.received <+: stream frames
  small : conn.reqMem.size ≤ 2 ^ 33
  framed : conn.crashed = false → Framed frames conn

/-- Behind the frames complete earlier, the stream so far begins the pending ones. -/
theorem drop_complete {frames : List (Frame pb)} {taken more : Bytes}
    (ordered : taken ++ more <+: stream frames)
    : (taken ++ more).drop (stream (complete Frame.length frames taken.length)).length
      = (stream (pending Frame.length frames taken.length)).take
          (residue Frame.length frames taken.length + more.length) := by
  have whole : complete Frame.length frames taken.length
      ++ pending Frame.length frames taken.length = frames :=
    complete_append_pending frames taken.length
  have count := length_complete Frame.bytes Frame.length_bytes frames taken.length
  rw [← stream] at count
  have split : stream frames
      = stream (complete Frame.length frames taken.length)
        ++ stream (pending Frame.length frames taken.length) := by
    rw [← stream_append, whole]
  rw [List.prefix_iff_eq_take.mp ordered, List.drop_take, split, List.drop_left]
  congr 1
  rw [List.length_append]
  omega

/-- Between two reads the buffer holds the residue of what was received. -/
theorem Framed.cur_eq {frames : List (Frame pb)} {conn : HttpHandoffClientSocket M}
    (framed : Framed frames conn)
    : conn.reqMem.cur = residue Frame.length frames conn.received.length := by
  have count := length_complete Frame.bytes Frame.length_bytes frames conn.received.length
  have held := congrArg List.length framed.unconsumed
  rw [Membuf.length_filled, List.length_drop] at held
  unfold stream at held
  omega

/-- Between two reads the buffer holds less than one frame. -/
theorem Framed.cur_lt {frames : List (Frame pb)} {conn : HttpHandoffClientSocket M}
    (framed : Framed frames conn) (ordered : conn.received <+: stream frames)
    : conn.reqMem.cur < 2 ^ 32 + 16 := by
  cases hp : pending Frame.length frames conn.received.length with
  | nil =>
      have begun := @drop_complete _ _ frames conn.received [] (by simpa using ordered)
      have held := congrArg List.length (framed.unconsumed.trans (by simpa using begun))
      simp only [hp, stream, Membuf.length_filled, List.flatMap_nil, List.take_nil,
        List.length_nil] at held
      omega
  | cons next rest =>
      have short := next.short
      have pad := padlen_lt next.payload.length
      have part := residue_lt hp
      rw [framed.cur_eq]
      unfold Frame.length Frame.payload at *
      omega

section OneRead

variable {frames : List (Frame pb)} {conn : HttpHandoffClientSocket M} {data : Bytes}
  (framed : Framed frames conn) (ordered : conn.received ++ data <+: stream frames)

include framed ordered

/-- What the buffer holds with the new bytes begins the frames pending before them. -/
theorem received_tail
    : conn.reqMem.filled ++ data
      = (stream (pending Frame.length frames conn.received.length)).take
          (conn.reqMem.cur + data.length) := by
  have count := length_complete Frame.bytes Frame.length_bytes frames conn.received.length
  rw [← stream] at count
  rw [framed.cur_eq, ← drop_complete ordered, framed.unconsumed,
    List.drop_append_of_le_length (by omega)]

variable {buf : Membuf} (filled : buf.filled = conn.reqMem.filled ++ data)
  (cur : buf.cur = conn.reqMem.cur + data.length) (small : buf.size < 2 ^ 62)

include filled cur small

/-- At a safe cut `on_read`'s loop hands off exactly the frames the read completes, and
leaves the new residue behind the cursor.
-/
theorem scan_received (safe : Safe frames (conn.received ++ data).length)
    : ∃ last : Scan M,
      scan pb buf ⟨0, conn.handoffs, 0, false⟩ = last
      ∧ last.crashed = false ∧ last.extent ≤ buf.cur ∧ last.cursor ≤ buf.cur
      ∧ last.handoffs
        = (complete Frame.length frames (conn.received ++ data).length).map Frame.hoReq
      ∧ buf.filled.drop last.cursor
        = (conn.received ++ data).drop
            (stream (complete Frame.length frames (conn.received ++ data).length)).length := by
  have n := framed.cur_eq
  rw [List.length_append] at safe ⊢
  rw [Safe, pending_add, residue_add, ← n] at safe
  have tail := received_tail framed ordered
  obtain ⟨extent, bound, result⟩ := scan_safe (s := ⟨0, conn.handoffs, 0, false⟩) small
    (Nat.zero_add _) (by rw [cur, ← tail, ← filled, ← cur]; rfl) (by rw [cur]; exact safe)
  refine ⟨_, result, rfl, by simpa using bound, by simp only; omega, ?_, ?_⟩
  · simp only
    rw [framed.handoffs, complete_add, List.map_append, ← n, cur]
  · have before := length_complete Frame.bytes Frame.length_bytes frames conn.received.length
    have later := length_complete Frame.bytes Frame.length_bytes frames
      (conn.received.length + data.length)
    -- what the scan leaves is the part of the frame that has begun
    have left : residue Frame.length (pending Frame.length frames conn.received.length) buf.cur
        ≤ buf.cur :=
      residue_le _ _
    rw [residue_add, ← n, ← cur] at later
    rw [← stream] at before later
    rw [filled, framed.unconsumed, ← List.drop_append_of_le_length (by omega),
      List.drop_drop]
    congr 1
    simp only
    omega

/-- At any other cut the loop ends the process, or leaves the cursor past `cur`. -/
theorem scan_received_hazard (hazard : ¬ Safe frames (conn.received ++ data).length)
    : (scan pb buf ⟨0, conn.handoffs, 0, false⟩).crashed = true
      ∨ buf.cur < (scan pb buf ⟨0, conn.handoffs, 0, false⟩).cursor := by
  rw [List.length_append, Safe, pending_add, residue_add, ← framed.cur_eq, ← cur] at hazard
  have tail := received_tail framed ordered
  exact scan_unsafe small (Nat.zero_add _) (by rw [cur, ← tail, ← filled, ← cur]; rfl) hazard

end OneRead

/-- The loop ended the process, or `rem` wrapped around. -/
theorem onRead_crashed (conn : HttpHandoffClientSocket M) {buf : Membuf} {n : Nat}
    (positive : 0 < n) (consumed : conn.reqMem.consume n = some buf)
    (gone : (scan pb buf ⟨0, conn.handoffs, 0, false⟩).crashed = true
      ∨ buf.cur < (scan pb buf ⟨0, conn.handoffs, 0, false⟩).cursor)
    : ∃ handoffs overread,
      onRead pb conn n
        = { conn with
            reqMem := buf
            handoffs := handoffs
            overread := overread
            crashed := true } := by
  rw [onRead, if_neg (by omega), if_neg (by omega), Int.toNat_natCast, consumed]
  simp only
  rw [if_pos gone]
  exact ⟨_, _, rfl⟩

/-- The loop ended inside the buffer: the bytes behind its cursor move to the start. -/
theorem onRead_alive (conn : HttpHandoffClientSocket M) {buf : Membuf} {n : Nat}
    {last : Scan M} (positive : 0 < n) (consumed : conn.reqMem.consume n = some buf)
    (result : scan pb buf ⟨0, conn.handoffs, 0, false⟩ = last)
    (lives : last.crashed = false) (inside : last.cursor ≤ buf.cur)
    : ∃ moved : Membuf, moved.filled = buf.filled.drop last.cursor ∧ moved.size = buf.size
      ∧ onRead pb conn n
        = { conn with
            reqMem := moved
            handoffs := last.handoffs
            overread := conn.overread || decide (buf.cur < last.extent) } := by
  obtain ⟨moved, kept, filled, size⟩ := Membuf.consume_moveDown buf inside
  refine ⟨moved, filled, size, ?_⟩
  rw [onRead, if_neg (by omega), if_neg (by omega), Int.toNat_natCast, consumed]
  simp only [result]
  rw [if_neg (by simp [lives, inside]), kept, Option.getD_some]

/-- A read only happens while the process lives. -/
theorem read?_alive {stream : Bytes} {conn after : HttpHandoffClientSocket M} {read : Read}
    (h : conn.read? pb stream read = some after)
    : conn.crashed = false := by
  simp only [HttpHandoffClientSocket.read?] at h
  split at h
  case isTrue guard => exact guard.1
  case isFalse => cases h

/-- A read keeps the bookkeeping, and keeps the framing exactly when its cut is safe. -/
theorem read?_framed {frames : List (Frame pb)} {conn after : HttpHandoffClientSocket M}
    {read : Read} (sound : Sound frames conn) (framed : Framed frames conn)
    (h : conn.read? pb (stream frames) read = some after)
    : Sound frames after ∧ (Framed frames after ↔ SafeCut frames conn read) := by
  simp only [HttpHandoffClientSocket.read?] at h
  split at h
  case isFalse => cases h
  case isTrue guard =>
    obtain ⟨alive, -, nonempty, fits, ordered⟩ := guard
    obtain rfl := Option.some.inj h
    obtain ⟨buf, consumed, filled, cur, -, size, -⟩ := Membuf.consume_receive fits
    have positive := List.length_pos_iff.mpr nonempty
    have room := framed.cur_lt sound.ordered
    have bound : buf.size ≤ 2 ^ 33 :=
      size ▸ Membuf.size_makeRoom_le read.block sound.small (by omega)
    simp only [onAlloc, Membuf.filled_makeRoom, Membuf.makeRoom_cur] at filled cur
    -- a safe cut keeps the framing, any other one ends it
    by_cases safe : Safe frames (conn.received ++ read.data).length
    · obtain ⟨last, result, lives, low, inside, handoffs, unconsumed⟩ :=
        scan_received framed ordered filled cur (by omega) safe
      obtain ⟨moved, held, extent, done⟩ :=
        onRead_alive (conn.arrive read) positive consumed result lives inside
      have kept : Framed frames (onRead pb (conn.arrive read) read.data.length) := by
        rw [done]
        exact {
          alive := alive
          inside := by simpa [HttpHandoffClientSocket.arrive, onAlloc, framed.inside] using low
          handoffs := handoffs
          unconsumed := held.trans unconsumed
        }
      refine ⟨⟨?_, ?_, fun _ => kept⟩, iff_of_true kept ?_⟩
      · rw [done]; exact ordered
      · rw [done]; exact extent ▸ bound
      · simpa [SafeCut] using safe
    · obtain ⟨_, _, done⟩ := onRead_crashed (conn.arrive read) positive consumed
        (scan_received_hazard framed ordered filled cur (by omega) safe)
      rw [done]
      refine ⟨⟨ordered, bound, fun lives => nomatch lives⟩, iff_of_false ?_ ?_⟩
      · intro broken
        exact nomatch broken.alive
      · simpa [SafeCut] using safe

/-- Before the first read nothing is due and nothing is buffered. -/
theorem framed_init (frames : List (Frame pb)) (block : Block)
    : Framed frames (httpHandoffClientSocketInit M block) := by
  have none_yet : complete Frame.length frames 0 = [] := by
    cases frames with
    | nil => rfl
    | cons x rest => exact if_neg (by unfold Frame.length; omega)
  refine ⟨rfl, rfl, ?_, ?_⟩
  · rw [httpHandoffClientSocketInit, List.length_nil, none_yet, List.map_nil]
  · rw [httpHandoffClientSocketInit, List.drop_nil, Membuf.filled_init]

/-- Before the first read nothing has gone wrong. -/
theorem sound_init (frames : List (Frame pb)) (block : Block)
    : Sound frames (httpHandoffClientSocketInit M block) where
  ordered := List.nil_prefix
  small := by
    change 5000000 ≤ 2 ^ 33
    omega
  framed _ := framed_init frames block

/-- When the whole stream has arrived, every message was handed off. -/
theorem Framed.whole {frames : List (Frame pb)} {conn : HttpHandoffClientSocket M}
    (framed : Framed frames conn) (all : conn.received = stream frames)
    : conn.handoffs = frames.map Frame.hoReq ∧ conn.reqMem.filled = [] := by
  have every := complete_all Frame.bytes Frame.length_bytes frames
  rw [← stream] at every
  exact ⟨by rw [framed.handoffs, all, every],
    by rw [framed.unconsumed, all, every, List.drop_length]⟩

/-- Along any run of reads of the stream, whatever the allocator answers, the messages are
handed off as framed in every state exactly when no read ends in the last four bytes of a
frame with a payload.
-/
theorem handoff_framing_iff (frames : List (Frame pb)) (block : Block)
    {path : List (Read × HttpHandoffClientSocket M)}
    (run : Path (Fires fun conn read => conn.read? pb (stream frames) read)
      (httpHandoffClientSocketInit M block) path)
    : EveryState (Framed frames) (httpHandoffClientSocketInit M block) path
      ↔ EveryStep (SafeCut frames) (httpHandoffClientSocketInit M block) path := by
  refine run.everyState_iff_everyStep (I := Sound frames) (sound_init frames block)
    (framed_init frames block) ?_ ?_
  · intro conn read after sound fired
    have framed := sound.framed (read?_alive fired)
    exact (read?_framed sound framed fired).1
  · intro conn read after sound framed fired
    exact (read?_framed sound framed fired).2

section Sample

/-- A handoff request with only the `tls` field set, short enough for one-byte lengths. -/
abbrev TlsOnly := { buf : Bytes // buf ≠ [] ∧ buf.length < 126 }

/-- The wire format of such a request: field 2 of the request holding field 1 of its state,
both length-delimited.
-/
def tlsOnly : Protobuf TlsOnly where
  serializeToString msg :=
    [0x12, UInt8.ofNat (msg.1.length + 2), 0x0a, UInt8.ofNat msg.1.length] ++ msg.1
  parseFromString
    | 0x12 :: outer :: 0x0a :: inner :: buf =>
        if h : outer.toNat = buf.length + 2 ∧ inner.toNat = buf.length
            ∧ buf ≠ [] ∧ buf.length < 126 then
          some ⟨buf, h.2.2⟩
        else
          none
    | _ => none
  parse_serialize := by
    rintro ⟨buf, some_byte, short⟩
    have outer : (UInt8.ofNat (buf.length + 2)).toNat = buf.length + 2 := by
      simp only [UInt8.toNat_ofNat']
      omega
    have inner : (UInt8.ofNat buf.length).toNat = buf.length := by
      simp only [UInt8.toNat_ofNat']
      omega
    exact dif_pos ⟨outer, inner, some_byte, short⟩

/-- Twelve bytes in all: the length, and eight bytes of message. -/
def sampleFrame : Frame tlsOnly where
  hoReq := ⟨[1, 2, 3, 4], by decide⟩
  forwarded := false
  header := ⟨4096, fun _ => 0⟩
  short := by decide

def sampleRead (data : Bytes) : Read := ⟨⟨8192, fun _ => 0⟩, data⟩

def sampleRun (reads : List Read) : List (Read × HttpHandoffClientSocket TlsOnly) :=
  runOf (fun conn read => conn.read? tlsOnly (stream [sampleFrame]) read)
    (httpHandoffClientSocketInit TlsOnly ⟨4096, fun _ => 0⟩) reads

/-- The frame cut behind its fifth byte. -/
theorem handoff_framing_sampleRun
    : EveryState (Framed [sampleFrame])
        (httpHandoffClientSocketInit TlsOnly ⟨4096, fun _ => 0⟩)
        (sampleRun [sampleRead (sampleFrame.bytes.take 5),
          sampleRead (sampleFrame.bytes.drop 5)]) :=
  (handoff_framing_iff [sampleFrame] ⟨4096, fun _ => 0⟩ (runOf_path _ _ _)).mpr
    (by decide +kernel)

/-- Cut four bytes before its end, the frame is handed off with zeros for the missing bytes,
and the process does not survive.
-/
theorem handoff_framing_fails
    : ¬ ∀ (frames : List (Frame tlsOnly)) (block : Block)
        (path : List (Read × HttpHandoffClientSocket TlsOnly)),
        Path (Fires fun conn read => conn.read? tlsOnly (stream frames) read)
          (httpHandoffClientSocketInit TlsOnly block) path
        → EveryState (Framed frames) (httpHandoffClientSocketInit TlsOnly block) path := by
  intro always
  have framed := always [sampleFrame] ⟨4096, fun _ => 0⟩
    (sampleRun [sampleRead (sampleFrame.bytes.take 8)]) (runOf_path _ _ _)
  have lives := framed.final.alive
  revert lives
  decide +kernel

end Sample

end PrismHTTP.Server
