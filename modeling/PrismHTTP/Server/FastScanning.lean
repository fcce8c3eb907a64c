import PrismHTTP.Server.Picohttpparser

/-! The vendored parser's fast scanning.
Where the processor has SSE4.2 the parser skips blocks of 16 bytes, elsewhere it looks for the
end of a line eight bytes at a time. Both read no byte behind the text, and give what a scan
byte by byte gives.
-/

namespace PrismHTTP.Server.Phr

/-- What the parser is compiled for. -/
inductive Build where
  | sse42
  | portable
  deriving DecidableEq

/-- The place a scan comes to, and whether it found a byte there; `none` when it read behind
the end of the text.
-/
abbrev Scan := Option (Cursor × Bool)

section Findchar

/-- `_SIDD_CMP_RANGES`: pairs of a lowest and a highest byte. -/
def inRanges (ranges : List (UInt8 × UInt8)) (c : UInt8) : Bool :=
  ranges.any fun (low, high) => low ≤ c && c ≤ high

/-- The loop over blocks of 16 bytes, with the number of blocks left. -/
def findcharBlocks (ranges : List (UInt8 × UInt8)) (ofs : Nat) (rest : Bytes) : Nat → Scan
  | 0 => some (⟨ofs, rest⟩, false)
  | left + 1 =>
      if rest.length < 16 then
        none
      else
        let r := (rest.take 16).findIdx (inRanges ranges)
        if r ≠ 16 then some (⟨ofs + r, rest.drop r⟩, true)
        else findcharBlocks ranges (ofs + 16) (rest.drop 16) left

/-- `findchar_fast` -/
def findcharFast (build : Build) (ranges : List (UInt8 × UInt8)) (ofs : Nat) (rest : Bytes)
    : Scan :=
  match build with
  | .portable => some (⟨ofs, rest⟩, false)
  | .sse42 => findcharBlocks ranges ofs rest (rest.length / 16)

end Findchar

section Scanners

/-- The scan up to the first byte that may end a token, and then byte by byte. -/
def scanToken (build : Build) (ranges : List (UInt8 × UInt8))
    (slow : Nat → Bytes → Except Int Cursor) (ofs : Nat) (rest : Bytes)
    : Option (Except Int Cursor) :=
  (findcharFast build ranges ofs rest).bind fun (buf, found) =>
    if buf.rest = [] then
      if found then none else some (.error (-2))
    else
      some (slow buf.ofs buf.rest)

/-- `ADVANCE_TOKEN` with its `ranges2`. -/
def advanceTokenOn (build : Build) : Nat → Bytes → Option (Except Int Cursor) :=
  scanToken build [(0, 32), (127, 127)] advanceToken

/-- The header name, with the `ranges1` of `parse_headers`. -/
def headerNameOn (build : Build) : Nat → Bytes → Option (Except Int Cursor) :=
  scanToken build
    [(0, 32), (34, 34), (40, 41), (44, 44), (47, 47), (58, 64), (91, 93), (123, 255)] headerName

/-- `IS_PRINTABLE_ASCII`, whose difference is unsigned. -/
def isPrintableAscii (c : UInt8) : Bool := c - 32 < 95

/-- The loop that looks at eight bytes between two checks of the length; `left` is what is
left of the eight.
-/
def unrolled (ofs left : Nat) : Bytes → Scan
  | [] => if left = 0 then some (⟨ofs, []⟩, false) else none
  | c :: rest =>
      if left = 0 ∧ (c :: rest).length < 8 then some (⟨ofs, c :: rest⟩, false)
      else if isPrintableAscii c then
        unrolled (ofs + 1) ((if left = 0 then 8 else left) - 1) rest
      else if isControl c then some (⟨ofs, c :: rest⟩, true)
      else unrolled (ofs + 1) 0 rest

/-- `FOUND_CTL` -/
def foundCtl (buf : Cursor) : Option (Except Int (Nat × Cursor)) :=
  match buf.rest with
  | [] => none
  | c :: rest =>
      if c = 13 then some ((expectChar 10 ⟨buf.ofs + 1, rest⟩).map (buf.ofs, ·))
      else if c = 10 then some (.ok (buf.ofs, ⟨buf.ofs + 1, rest⟩))
      else some (.error (-1))

/-- `get_token_to_eol`, with the `ranges1` of its SSE4.2 part. -/
def getTokenToEolOn (build : Build) (ofs : Nat) (rest : Bytes)
    : Option (Except Int (Nat × Cursor)) :=
  let scan :=
    match build with
    | .sse42 => findcharFast .sse42 [(0, 8), (10, 31), (127, 127)] ofs rest
    | .portable => unrolled ofs 0 rest
  scan.bind fun (buf, found) =>
    if found then foundCtl buf else some (getTokenToEol buf.ofs buf.rest)

end Scanners

section Agreement

variable {ranges : List (UInt8 × UInt8)} {ofs : Nat} {rest : Bytes}

/-- Where a fast scan of the text may end: behind bytes that are not looked for, and before
one that is if it says so.
-/
def Passed (looked : UInt8 → Bool) (ofs : Nat) (rest : Bytes) (scan : Scan) : Prop :=
  ∃ (passed behind : Bytes) (found : Bool),
    scan = some (⟨ofs + passed.length, behind⟩, found)
    ∧ rest = passed ++ behind
    ∧ (∀ c ∈ passed, looked c = false)
    ∧ (found = true → ∃ c ∈ behind.head?, looked c = true)

/-- The first byte looked for divides a block. -/
theorem exists_findIdx (looked : UInt8 → Bool) (block : Bytes)
    : ∃ passed behind : Bytes,
        block = passed ++ behind ∧ passed.length = block.findIdx looked
        ∧ (∀ c ∈ passed, looked c = false) ∧ (∀ c ∈ behind.head?, looked c = true) := by
  -- on the block, from the byte the comparison looks at first
  induction block with
  | nil => exact ⟨[], [], rfl, rfl, by simp, by simp⟩
  | cons c block ih =>
      rw [List.findIdx_cons]
      cases here : looked c with
      | true => exact ⟨[], c :: block, rfl, rfl, by simp, by simpa using here⟩
      | false =>
          obtain ⟨passed, behind, rfl, length, unseen, first⟩ := ih
          refine ⟨c :: passed, behind, rfl, ?_, List.forall_mem_cons.mpr ⟨here, unseen⟩, first⟩
          rw [List.length_cons, length]
          rfl

/-- The blocks are all inside the text, by induction on their number. -/
theorem findcharBlocks_passed (left : Nat) (inside : 16 * left ≤ rest.length)
    : Passed (inRanges ranges) ofs rest (findcharBlocks ranges ofs rest left) := by
  -- on the whole blocks left
  induction left generalizing ofs rest with
  | zero => exact ⟨[], rest, false, rfl, rfl, by simp, by simp⟩
  | succ left ih =>
      have whole : ¬ rest.length < 16 := by omega
      have length : (rest.take 16).length = 16 := List.length_take_of_le (Nat.not_lt.mp whole)
      obtain ⟨passed, behind, block, index, unseen, first⟩ :=
        exists_findIdx (inRanges ranges) (rest.take 16)
      have text : rest = passed ++ (behind ++ rest.drop 16) := by
        rw [← List.append_assoc, ← block, List.take_append_drop]
      rw [findcharBlocks, if_neg whole, ← index]
      dsimp only
      split
      · next found =>
        rw [block, List.length_append] at length
        have nonempty : behind ≠ [] := by
          rintro rfl
          exact found length
        obtain ⟨c, behind, rfl⟩ := List.exists_cons_of_ne_nil nonempty
        have dropped : rest.drop passed.length = c :: behind ++ rest.drop 16 := by
          nth_rewrite 1 [text]
          exact List.drop_left
        rw [dropped]
        exact ⟨passed, c :: behind ++ rest.drop 16, true, rfl, text, unseen,
          fun _ => ⟨c, rfl, first c rfl⟩⟩
      · next none_found =>
        rw [Decidable.not_not] at none_found
        rw [block, List.length_append] at length
        obtain rfl : behind = [] := List.length_eq_zero_iff.mp (by omega)
        -- nothing in this block: the scan goes on behind it
        have later : Passed (inRanges ranges) (ofs + 16) (rest.drop 16) _ :=
          ih (by rw [List.length_drop]; omega)
        obtain ⟨passed', behind', found, scan, text', unseen', first'⟩ := later
        refine ⟨passed ++ passed', behind', found, ?_, ?_, ?_, first'⟩
        · rw [scan, List.length_append, none_found, Nat.add_assoc]
        · rw [List.append_assoc, ← text']
          exact text
        · intro c member
          rcases List.mem_append.mp member with here | later
          · exact unseen c here
          · exact unseen' c later

/-- The fast search passes only bytes outside the ranges, in either build. -/
theorem findcharFast_passed (build : Build)
    : Passed (inRanges ranges) ofs rest (findcharFast build ranges ofs rest) := by
  cases build with
  | portable => exact ⟨[], rest, false, rfl, rfl, by simp, by simp⟩
  | sse42 => exact findcharBlocks_passed (rest.length / 16) (Nat.mul_div_le ..)

/-- A scan byte by byte may start behind the bytes it would only pass. -/
theorem slow_append {α : Type} {looked : UInt8 → Bool} {slow : Nat → Bytes → Except Int α}
    (passes : ∀ ofs c rest, looked c = false → slow ofs (c :: rest) = slow (ofs + 1) rest)
    {passed : Bytes} (unseen : ∀ c ∈ passed, looked c = false) (ofs : Nat) (behind : Bytes)
    : slow ofs (passed ++ behind) = slow (ofs + passed.length) behind := by
  induction passed generalizing ofs with
  | nil => rfl
  | cons c passed ih =>
      obtain ⟨here, later⟩ := List.forall_mem_cons.mp unseen
      rw [List.cons_append, passes ofs c _ here, ih later, List.length_cons, Nat.add_assoc,
        Nat.add_comm 1]

/-- A token is scanned as byte by byte, for any slow scan that passes the bytes the fast one
does.
-/
theorem scanToken_eq {slow : Nat → Bytes → Except Int Cursor}
    (ends : ∀ ofs, slow ofs [] = .error (-2))
    (passes : ∀ ofs c rest, inRanges ranges c = false → slow ofs (c :: rest) = slow (ofs + 1) rest)
    (build : Build) (ofs : Nat) (rest : Bytes)
    : scanToken build ranges slow ofs rest = some (slow ofs rest) := by
  have fast : Passed (inRanges ranges) ofs rest _ := findcharFast_passed build
  obtain ⟨passed, behind, found, scan, rfl, unseen, first⟩ := fast
  rw [scanToken, scan, slow_append passes unseen, Option.bind_some]
  dsimp only
  split
  · next empty =>
    rw [empty, ends]
    cases found with
    | false => rfl
    | true =>
        obtain ⟨c, member, -⟩ := first rfl
        rw [empty] at member
        cases member
  · rfl

/-- The byte at which the line's token ends is found at its place. -/
theorem foundCtl_eq {c : UInt8} (control : isControl c = true) (ofs : Nat) (rest : Bytes)
    : foundCtl ⟨ofs, c :: rest⟩ = some (getTokenToEol ofs (c :: rest)) := by
  rw [getTokenToEol, if_pos control, foundCtl]
  dsimp only
  split
  · rfl
  · split <;> rfl

/-- The search for the line end passes a byte that is no control character. -/
theorem getTokenToEol_passes (ofs : Nat) (c : UInt8) (rest : Bytes)
    (printable : isControl c = false)
    : getTokenToEol ofs (c :: rest) = getTokenToEol (ofs + 1) rest := by
  rw [getTokenToEol, if_neg (by simp [printable])]

/-- A printable ASCII character is no control character. -/
theorem isControl_of_isPrintableAscii {c : UInt8} (printable : isPrintableAscii c = true)
    : isControl c = false := by
  simp only [isPrintableAscii, decide_eq_true_eq, UInt8.lt_iff_toNat_lt, UInt8.toNat_sub,
    UInt8.reduceToNat] at printable
  have below := c.toNat_lt
  simp only [isControl, Bool.or_eq_false_iff, Bool.and_eq_false_iff, decide_eq_false_iff_not,
    UInt8.lt_iff_toNat_lt, ← UInt8.toNat_inj, UInt8.reduceToNat]
  omega

/-- Eight bytes are there whenever the length was checked; by induction on the text, with what
is left of the eight inside it.
-/
theorem unrolled_passed (left : Nat) (inside : left ≤ rest.length)
    : Passed isControl ofs rest (unrolled ofs left rest) := by
  induction rest generalizing ofs left with
  | nil =>
      obtain rfl := Nat.le_zero.mp inside
      exact ⟨[], [], false, rfl, rfl, by simp, by simp⟩
  | cons c rest ih =>
      -- a printable byte is passed whatever is left of the unrolled round
      have step (left : Nat) (inside : left ≤ rest.length) (printable : isControl c = false)
          : Passed isControl ofs (c :: rest) (unrolled (ofs + 1) left rest) := by
        obtain ⟨passed, behind, found, scan, rfl, unseen, first⟩ := ih left inside
        refine ⟨c :: passed, behind, found, ?_, rfl, List.forall_mem_cons.mpr ⟨printable, unseen⟩,
          first⟩
        rw [scan, List.length_cons, Nat.add_assoc, Nat.add_comm 1]
      rw [unrolled]
      split
      · exact ⟨[], c :: rest, false, rfl, rfl, by simp, by simp⟩
      · next long =>
        split
        · next printable =>
          refine step _ ?_ (isControl_of_isPrintableAscii printable)
          rw [List.length_cons] at inside long
          split <;> omega
        · split
          · next control => exact ⟨[], c :: rest, true, rfl, rfl, by simp, fun _ => ⟨c, rfl, control⟩⟩
          · next other => exact step 0 (Nat.zero_le _) (Bool.eq_false_iff.mpr other)

end Agreement

/-- The ranges leave out bytes that a token goes on with, and those of a line's end are just
the control characters.
-/
theorem unseen_token {c : UInt8} (unseen : inRanges [(0, 32), (127, 127)] c = false)
    : c ≠ 32 ∧ ¬ (c < 32 ∨ c = 127) := by
  simp [inRanges, UInt8.le_iff_toNat_le, UInt8.lt_iff_toNat_lt, ← UInt8.toNat_inj] at *
  omega

/-- What the ranges for header names leave out are the characters of a token. -/
theorem unseen_name {c : UInt8}
    (unseen : inRanges
      [(0, 32), (34, 34), (40, 41), (44, 44), (47, 47), (58, 64), (91, 93), (123, 255)] c = false)
    : c ≠ 58 ∧ tokenChar c = true := by
  have below := c.toNat_lt
  simp [inRanges, tokenChar, UInt8.le_iff_toNat_le, ← UInt8.toNat_inj] at *
  omega

/-- The ranges for the line end are the control characters, byte by byte. -/
theorem inRanges_isControl (c : UInt8)
    : inRanges [(0, 8), (10, 31), (127, 127)] c = isControl c := by
  rw [Bool.eq_iff_iff]
  simp [inRanges, isControl, UInt8.le_iff_toNat_le, UInt8.lt_iff_toNat_lt, ← UInt8.toNat_inj]
  omega

/-- Whatever the parser is compiled for, its scans read no byte behind the text, and their
results are those of a scan byte by byte.
-/
theorem fast_scans_agree (build : Build) (ofs : Nat) (rest : Bytes)
    : advanceTokenOn build ofs rest = some (advanceToken ofs rest)
      ∧ headerNameOn build ofs rest = some (headerName ofs rest)
      ∧ getTokenToEolOn build ofs rest = some (getTokenToEol ofs rest) := by
  refine ⟨scanToken_eq (fun _ => rfl) ?_ build ofs rest,
    scanToken_eq (fun _ => rfl) ?_ build ofs rest, ?_⟩
  · intro ofs c rest unseen
    obtain ⟨notSpace, printable⟩ := unseen_token unseen
    rw [advanceToken, if_neg notSpace, if_neg printable]
  · intro ofs c rest unseen
    obtain ⟨notColon, token⟩ := unseen_name unseen
    rw [headerName, if_neg notColon, if_pos token]
  -- the scan to the line end has an unrolled loop of its own in the portable build
  · have passed : Passed isControl ofs rest (match build with
        | .sse42 => findcharFast .sse42 [(0, 8), (10, 31), (127, 127)] ofs rest
        | .portable => unrolled ofs 0 rest) := by
      cases build with
      | portable => exact unrolled_passed 0 (Nat.zero_le _)
      | sse42 =>
          rw [← funext inRanges_isControl]
          exact findcharFast_passed .sse42
    obtain ⟨passed, behind, found, scan, rfl, unseen, first⟩ := passed
    unfold getTokenToEolOn
    dsimp only
    rw [scan, Option.bind_some, slow_append getTokenToEol_passes unseen]
    dsimp only
    split
    · next control =>
      obtain ⟨c, member, stops⟩ := first control
      rcases behind with _ | ⟨d, behind⟩
      · cases member
      · cases member
        exact foundCtl_eq stops _ behind
    · rfl

end PrismHTTP.Server.Phr
