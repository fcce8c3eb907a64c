import PrismHTTP.Library.Resumption
import PrismHTTP.Server.RequestGrammar

/-! The vendored parser on text that is still growing.
The parser asks for more text with -2, and any other answer is final. A caller that calls it
again with the length it has seen gets the answer of a first call, once the head is there.
-/

namespace PrismHTTP.Server
open Resumption

namespace Phr

/-- The cursor with more text behind it. -/
def Cursor.more (tail : Bytes) (buf : Cursor) : Cursor := ⟨buf.ofs, buf.rest ++ tail⟩

/-- An answer of the parser against the one it gives when more text has come. -/
abbrev Final {α : Type} (more : α → α) : Except Int α → Except Int α → Prop :=
  Resumes (-2) (-1) more

/-- A result is final, with the cursor's longer text. -/
theorem final_ok {α : Type} (more : α → α) (value : α)
    : Final more (.ok value) (.ok (more value)) :=
  .ok value

section Lexemes

variable (tail : Bytes) (buf : Cursor) (ofs : Nat) (rest : Bytes)

/-- An expected character is final, by cases on the text. -/
theorem expectChar_final (ch : UInt8)
    : Final (Cursor.more tail) (expectChar ch buf) (expectChar ch (buf.more tail)) := by
  obtain ⟨ofs, _ | ⟨c, rest⟩⟩ := buf
  · exact .waiting _
  · simp only [expectChar, Cursor.more, List.cons_append]
    split
    · exact final_ok (Cursor.more tail) ⟨ofs + 1, rest⟩
    · exact .malformed

/-- Whether there is a line end is final, by cases on the text. -/
theorem lineEnd?_final
    : Final (Option.map (Cursor.more tail)) (lineEnd? buf) (lineEnd? (buf.more tail)) := by
  obtain ⟨ofs, _ | ⟨c, rest⟩⟩ := buf
  · exact .waiting _
  · simp only [lineEnd?, Cursor.more, List.cons_append]
    split
    · exact (expectChar_final tail ⟨ofs + 1, rest⟩ 10).map fun _ => rfl
    · split
      · exact final_ok (Option.map (Cursor.more tail)) (some ⟨ofs + 1, rest⟩)
      · exact final_ok (Option.map (Cursor.more tail)) none

/-- The end of a token is final, by induction on the text. -/
theorem advanceToken_final
    : Final (Cursor.more tail) (advanceToken ofs rest) (advanceToken ofs (rest ++ tail)) := by
  induction rest generalizing ofs with
  | nil => exact .waiting _
  | cons c rest ih =>
      simp only [advanceToken, List.cons_append]
      split
      · exact final_ok (Cursor.more tail) ⟨ofs, c :: rest⟩
      · split
        · exact .malformed
        · exact ih (ofs + 1)

/-- The end of a line is final, by induction on the text. -/
theorem getTokenToEol_final
    : Final (Prod.map id (Cursor.more tail)) (getTokenToEol ofs rest)
      (getTokenToEol ofs (rest ++ tail)) := by
  -- only the end of the text makes the scan wait
  induction rest generalizing ofs with
  | nil => exact .waiting _
  | cons c rest ih =>
      simp only [getTokenToEol, List.cons_append]
      split
      · split
        · exact (expectChar_final tail ⟨ofs + 1, rest⟩ 10).map fun _ => rfl
        · split
          · exact final_ok (Prod.map id (Cursor.more tail)) (ofs, ⟨ofs + 1, rest⟩)
          · exact .malformed
      · exact ih (ofs + 1)

/-- The version is final once nine bytes are there. -/
theorem parseHttpVersion_final
    : Final (Prod.map id (Cursor.more tail)) (parseHttpVersion ⟨ofs, rest⟩)
      (parseHttpVersion ⟨ofs, rest ++ tail⟩) := by
  rw [parseHttpVersion.eq_def]
  split
  · next long =>
    dsimp only at long
    subst long
    simp only [parseHttpVersion, List.cons_append]
    split
    · simp only [parseInt]
      split
      · exact .malformed
      · exact final_ok (Prod.map id (Cursor.more tail)) (_, ⟨_, _⟩)
    · exact .malformed
  · exact .waiting _

/-- The end of a header name is final, by induction on the text. -/
theorem headerName_final
    : Final (Cursor.more tail) (headerName ofs rest) (headerName ofs (rest ++ tail)) := by
  induction rest generalizing ofs with
  | nil => exact .waiting _
  | cons c rest ih =>
      simp only [headerName, List.cons_append]
      split
      · exact final_ok (Cursor.more tail) ⟨ofs, c :: rest⟩
      · split
        · exact ih (ofs + 1)
        · exact .malformed

/-- The end of blanks is final, by induction on the text. -/
theorem skipBlanks_final
    : Final (Cursor.more tail) (skipBlanks ofs rest) (skipBlanks ofs (rest ++ tail)) := by
  induction rest generalizing ofs with
  | nil => exact .waiting _
  | cons c rest ih =>
      simp only [skipBlanks, List.cons_append]
      split
      · exact ih (ofs + 1)
      · exact final_ok (Cursor.more tail) ⟨ofs, c :: rest⟩

/-- The bytes of CR LF in front of a text. -/
theorem crlf_append : LineEnd.crlf.bytes ++ rest = 13 :: 10 :: rest := rfl

/-- The byte of LF in front of a text. -/
theorem lf_append : LineEnd.lf.bytes ++ rest = 10 :: rest := rfl

/-- The search counts a line end, and succeeds at the second in a row. -/
theorem isComplete_lineEnd (e : LineEnd) (retCnt : Nat)
    : isComplete retCnt (e.bytes ++ rest)
      = if retCnt + 1 = 2 then .ok () else isComplete (retCnt + 1) rest := by
  cases e
  · rw [crlf_append, isComplete.eq_def]
    rfl
  · rw [lf_append, isComplete.eq_def]
    rfl

/-- The search fails at a CR without LF. -/
theorem isComplete_stray {d : UInt8} (other : d ≠ 10) (retCnt : Nat)
    : isComplete retCnt (13 :: d :: rest) = .error (-1) := by
  rw [isComplete.eq_def]
  exact if_pos other

/-- The search starts to count again behind any other byte. -/
theorem isComplete_other {c : UInt8} (other : isLineEnd c = false) (retCnt : Nat)
    : isComplete retCnt (c :: rest) = isComplete 0 rest := by
  simp only [isLineEnd, Bool.or_eq_false_iff, decide_eq_false_iff_not] at other
  rw [isComplete.eq_def]
  dsimp only
  rw [if_neg other.1, if_neg other.2]

/-- The search for an empty line, too, gives final answers. -/
theorem isComplete_final (retCnt : Nat)
    : Final id (isComplete retCnt rest) (isComplete retCnt (rest ++ tail)) := by
  -- on the scan itself: each byte but the last ones is answered the same with more text behind
  -- it
  fun_induction isComplete retCnt rest with
  | case1 | case2 => exact .waiting _
  | case3 _ _ _ other =>
      rw [List.cons_append, List.cons_append, isComplete_stray _ other]
      exact .malformed
  | case4 _ _ _ feed two =>
      obtain rfl := Decidable.not_not.mp feed
      rw [List.cons_append, List.cons_append, ← crlf_append, isComplete_lineEnd, if_pos two]
      exact final_ok id ()
  | case5 _ _ _ feed one ih =>
      obtain rfl := Decidable.not_not.mp feed
      rw [List.cons_append, List.cons_append, ← crlf_append, isComplete_lineEnd, if_neg one]
      exact ih
  | case6 _ _ two =>
      rw [List.cons_append, ← lf_append, isComplete_lineEnd, if_pos two]
      exact final_ok id ()
  | case7 _ _ one _ ih =>
      rw [List.cons_append, ← lf_append, isComplete_lineEnd, if_neg one]
      exact ih
  | case8 _ _ _ cr lf ih =>
      rw [List.cons_append, isComplete_other _ (by simp [isLineEnd, cr, lf])]
      exact ih

end Lexemes

section Headers

variable (tail : Bytes) (first : Bool) (ofs : Nat) (rest : Bytes)

/-- The start of a header is final, by cases on whether it continues the line before. -/
theorem headerStart_final
    : Final (Prod.map id (Cursor.more tail)) (headerStart first ⟨ofs, rest⟩)
      (headerStart first ⟨ofs, rest ++ tail⟩) := by
  rcases rest with _ | ⟨c, rest⟩
  · have waits : headerStart first ⟨ofs, []⟩ = .error (-2) := by
      rw [headerStart, if_neg (by simp)]
      rfl
    rw [waits]
    exact .waiting _
  · by_cases folded : first = false ∧ isBlank c = true
    · have starts (rest : Bytes)
          : headerStart first ⟨ofs, c :: rest⟩ = .ok (⟨none, 0⟩, ⟨ofs, c :: rest⟩) :=
        headerStart_folded folded.1 (by simpa using folded.2)
      rw [List.cons_append, starts, starts]
      exact final_ok (Prod.map id (Cursor.more tail)) (_, ⟨ofs, c :: rest⟩)
    · have named (rest : Bytes)
          : ¬ (first = false ∧ (c :: rest).head?.any isBlank = true) := by
        simpa using folded
      rw [List.cons_append, headerStart, if_neg (named rest), headerStart, if_neg (named _)]
      refine (headerName_final tail ofs (c :: rest)).bind fun colon found => ?_
      obtain ⟨name, behind, -, -, rfl⟩ := headerName_eq_ok.mp found
      change Final _ (if ofs + name.length = ofs then _ else _)
        (if ofs + name.length = ofs then _ else _)
      split
      · exact .malformed
      · refine (skipBlanks_final tail _ behind).bind fun value _ => ?_
        exact final_ok (Prod.map id (Cursor.more tail)) (_, value)

/-- A header is final, its start and its line being so. -/
theorem parseHeader_final
    : Final (Prod.map id (Cursor.more tail)) (parseHeader first ⟨ofs, rest⟩)
      (parseHeader first ⟨ofs, rest ++ tail⟩) := by
  refine (headerStart_final tail first ofs rest).bind fun ⟨name, value⟩ _ => ?_
  refine (getTokenToEol_final tail value.ofs value.rest).bind fun ⟨stop, next⟩ line => ?_
  obtain ⟨token, e, behind, same, -, rfl, rfl⟩ := getTokenToEol_eq_ok.mp line
  simp only [Prod.map, Cursor.more, id, same, Nat.add_sub_cancel_left, List.append_assoc,
    List.take_left]
  exact final_ok (Prod.map id (Cursor.more tail)) (_, ⟨_, behind⟩)

end Headers

section Requests

variable (tail : Bytes)

/-- One stage behind another, with the outputs so far. -/
theorem stage_final {α β : Type} {more : α → α} {before after : Except Int α} {out : β}
    {next next' : α → Except Int Cursor × β} (first : Final more before after)
    (second : ∀ value, before = .ok value
      → ResumesWith (-2) (-1) (Cursor.more tail) (next value) (next' (more value)))
    : ResumesWith (-2) (-1) (Cursor.more tail) (stage before out next)
      (stage after out next') := by
  cases first with
  | ok value => exact second value rfl
  | malformed => exact .malformed out
  | waiting after => exact .waiting out _

/-- The end of the headers is final. -/
theorem ended_final {β : Type} (next : Cursor) (out : β)
    : ResumesWith (-2) (-1) (Cursor.more tail) (.ok next, out) (.ok (next.more tail), out) :=
  .ok next out

/-- The header loop, one stage at a time. -/
theorem parseHeaders_eq_stage (left : Nat) (done : List PhrHeader) (buf : Cursor)
    : parseHeaders left done buf
      = stage (lineEnd? buf) done fun
        | some next => (.ok next, done)
        | none =>
            match left with
            | 0 => (.error (-1), done)
            | left + 1 => stage (parseHeader done.isEmpty buf) done fun (header, next) =>
                parseHeaders left (done ++ [header]) next := by
  rw [parseHeaders.eq_def]
  rcases lineEnd? buf with ret | _ | next
  · rfl
  · cases left <;> rfl
  · rfl

/-- The headers are final, stage by stage and by induction on how many may come. -/
theorem parseHeaders_final (left : Nat) (done : List PhrHeader) (ofs : Nat) (rest : Bytes)
    : ResumesWith (-2) (-1) (Cursor.more tail) (parseHeaders left done ⟨ofs, rest⟩)
      (parseHeaders left done ⟨ofs, rest ++ tail⟩) := by
  -- on the headers there is room for, a stage of the parser at a time
  induction left generalizing done ofs rest with
  | zero =>
      rw [parseHeaders_eq_stage, parseHeaders_eq_stage]
      refine stage_final tail (lineEnd?_final tail ⟨ofs, rest⟩) fun ended _ => ?_
      cases ended with
      | none => exact .malformed done
      | some next => exact ended_final tail next done
  | succ left ih =>
      rw [parseHeaders_eq_stage, parseHeaders_eq_stage]
      refine stage_final tail (lineEnd?_final tail ⟨ofs, rest⟩) fun ended _ => ?_
      cases ended with
      | none =>
          refine stage_final tail (parseHeader_final tail done.isEmpty ofs rest) ?_
          rintro ⟨header, next⟩ -
          exact ih (done ++ [header]) next.ofs next.rest
      | some next => exact ended_final tail next done

/-- What follows the token a cursor stands behind grows like the text. -/
theorem tail_more {ofs : Nat} {rest : Bytes} {space : Cursor}
    (token : advanceToken ofs rest = .ok space)
    : (space.more tail).rest.tail = space.rest.tail ++ tail := by
  obtain ⟨word, behind, -, -, rfl⟩ := advanceToken_eq_ok.mp token
  rfl

/-- The whole request is final, stage by stage. -/
theorem parseRequest_final (text : Bytes)
    : ResumesWith (-2) (-1) (Cursor.more tail) (parseRequest ⟨0, text⟩)
      (parseRequest ⟨0, text ++ tail⟩) := by
  refine stage_final tail (lineEnd?_final tail ⟨0, text⟩) fun begun _ => ?_
  have starts : (begun.map (Cursor.more tail)).getD ⟨0, text ++ tail⟩
      = (begun.getD ⟨0, text⟩).more tail := by
    cases begun <;> rfl
  rw [starts]
  generalize begun.getD ⟨0, text⟩ = start
  refine stage_final tail (advanceToken_final tail start.ofs start.rest) fun method found => ?_
  rw [tail_more tail found]
  refine stage_final tail (advanceToken_final tail (method.ofs + 1) method.rest.tail)
    fun path found => ?_
  rw [tail_more tail found]
  dsimp only [Cursor.more]
  split
  · exact .malformed _
  · refine stage_final tail (parseHttpVersion_final tail (path.ofs + 1) path.rest.tail)
      fun ⟨minorVersion, next⟩ _ => ?_
    refine stage_final tail (lineEnd?_final tail next) fun ended _ => ?_
    cases ended with
    | none => exact .malformed _
    | some next =>
        exact (parseHeaders_final tail HTTP_HEADERS_MAX [] next.ofs next.rest).outputs _

end Requests

section Closing

/-- Text whose carriage returns all belong to line ends, and that ends with an empty line. -/
inductive Closing : Bytes → Prop
  | ended (e f : LineEnd) : Closing (e.bytes ++ f.bytes)
  | byte {c : UInt8} {text : Bytes} (other : isLineEnd c = false) (behind : Closing text)
    : Closing (c :: text)
  | line (e : LineEnd) {text : Bytes} (behind : Closing text) : Closing (e.bytes ++ text)

namespace Closing

variable {text : Bytes}

/-- The empty line is found, whether or not a line end came right before the text. -/
theorem isComplete (closing : Closing text) (tail : Bytes) {retCnt : Nat} (few : retCnt ≤ 1)
    : Phr.isComplete retCnt (text ++ tail) = .ok () := by
  -- the count of line ends is at most one here: a second would have ended the scan
  induction closing generalizing retCnt with
  | ended e f =>
      rw [List.append_assoc, isComplete_lineEnd, isComplete_lineEnd]
      split
      · rfl
      · rw [if_pos (by omega)]
  | byte other behind ih =>
      rw [List.cons_append, isComplete_other _ other]
      exact ih (Nat.zero_le 1)
  | line e behind ih =>
      rw [List.append_assoc, isComplete_lineEnd]
      split
      · rfl
      · exact ih (by omega)

/-- The last four bytes hold the empty line and the line end before it. -/
theorem drop (closing : Closing text) {n : Nat} (four : n + 4 ≤ text.length)
    : Closing (text.drop n) := by
  induction closing generalizing n with
  -- two line ends are four bytes at most, so nothing can have been dropped
  | ended e f =>
      have most : (e.bytes ++ f.bytes).length ≤ 4 := by
        cases e <;> cases f <;> decide
      obtain rfl : n = 0 := by omega
      exact .ended e f
  | byte other behind ih =>
      rcases n with _ | n
      · exact .byte other behind
      · rw [List.drop_succ_cons]
        exact ih (by rw [List.length_cons] at four; omega)
  | @line e text behind ih =>
      rw [List.length_append] at four
      rcases n with _ | n
      · exact .line e behind
      · cases e with
        | lf =>
            change Closing (text.drop n)
            refine ih ?_
            simp only [LineEnd.bytes, List.length_singleton] at four
            omega
        | crlf =>
            -- one byte dropped from a CR LF leaves the LF, a line end of its own
            rcases n with _ | n
            · exact .line .lf behind
            · change Closing (text.drop n)
              refine ih ?_
              simp only [LineEnd.bytes, List.length_cons, List.length_nil] at four
              omega

/-- A word without line ends may stand before a text that closes a head. -/
theorem append {word : Bytes} (other : ∀ c ∈ word, isLineEnd c = false) (closing : Closing text)
    : Closing (word ++ text) := by
  induction word with
  | nil => exact closing
  | cons c word ih =>
      obtain ⟨here, later⟩ := List.forall_mem_cons.mp other
      exact .byte here (ih later)

end Closing

end Closing

end Phr

section Heads

open Phr

/-- A header's label has no line end, by cases on whether it has a name. -/
theorem HeaderLine.label_otherThanLineEnds (line : HeaderLine)
    : ∀ c ∈ line.label, isLineEnd c = false := by
  intro c member
  rw [label] at member
  split at member
  · cases member
  · next name _ =>
    rcases List.mem_append.mp member with token | colon
    · exact isLineEnd_of_tokenChar (name.token c token)
    · rw [List.mem_singleton.mp colon]
      rfl

/-- Behind a line end, header lines and the empty line are closing. -/
theorem closing_lines (lines : List HeaderLine) (e final : LineEnd)
    : Closing (e.bytes ++ (lines.flatMap HeaderLine.bytes ++ final.bytes)) := by
  induction lines generalizing e with
  | nil => exact .ended e final
  | cons line lines ih =>
      have content : ∀ c ∈ line.content, isLineEnd c = false := fun c member =>
        isLineEnd_of_isControl (line.content_oneLine c member)
      have behind := ((ih line.ends).append content).append line.label_otherThanLineEnds
      rw [List.flatMap_cons, HeaderLine.bytes]
      simpa only [List.append_assoc] using Closing.line e behind

namespace RequestHead

variable (head : RequestHead)

/-- A head ends at its first empty line, part by part. -/
theorem closing : Closing head.bytes := by
  have word (w : Word) : ∀ c ∈ w.bytes, isLineEnd c = false := fun c member =>
    isLineEnd_of_isVisible (w.visible c member)
  have version : ∀ c ∈ versionBytes head.minor, isLineEnd c = false := by
    have none_ends : ∀ minor, (versionBytes minor).any isLineEnd = false := by decide
    intro c member
    exact Bool.eq_false_iff.mpr (List.any_eq_false.mp (none_ends head.minor) c member)
  have space : isLineEnd 32 = false := rfl
  have requestLine := closing_lines head.headers head.ends head.final
    |>.append version |> Closing.byte space |>.append (word head.path)
    |> Closing.byte space |>.append (word head.method)
  have same : head.requestLine ++ head.headerLines
      = head.method.bytes ++ 32 :: (head.path.bytes ++ 32 :: (versionBytes head.minor
        ++ (head.ends.bytes ++ (head.headers.flatMap HeaderLine.bytes ++ head.final.bytes)))) := by
    simp [RequestHead.requestLine, headerLines]
  rw [← same] at requestLine
  rw [bytes, before]
  cases head.leading with
  | none => exact requestLine
  | some e => exact .line e requestLine

/-- A head has at least four bytes. -/
theorem length_bytes_pos : 4 ≤ head.bytes.length := by
  simp only [bytes, requestLine, versionBytes, List.length_append, List.length_cons]
  omega

/-- Whoever has seen some of the head finds the empty line of the rest. -/
theorem isComplete_seen {seen : Nat} (part : seen < head.bytes.length) (tail : Bytes)
    : Phr.isComplete 0 ((head.bytes ++ tail).drop (seen - 3)) = .ok () := by
  have four := head.length_bytes_pos
  rw [List.drop_append_of_le_length (by omega)]
  exact (head.closing.drop (by omega)).isComplete tail (Nat.zero_le 1)

/-- A head is parsed as itself, whatever follows it. -/
theorem parse_prefix {text : Bytes} (starts : head.bytes <+: text)
    : ∃ tail, text = head.bytes ++ tail
      ∧ parseRequest ⟨0, text⟩ = (.ok ⟨head.bytes.length, tail⟩, head.parsed) := by
  obtain ⟨tail, rfl⟩ := starts
  exact ⟨tail, rfl, head.parse tail⟩

end RequestHead

/-- The text starts with no head. -/
def Headless (text : Bytes) : Prop := ∀ head : RequestHead, ¬ head.bytes <+: text

/-- What an answer of the parser says about the text it was given. -/
inductive Answers (text : Bytes) : Int × Parsed → Prop
  | accepted (head : RequestHead) (starts : head.bytes <+: text)
    : Answers text ((head.bytes.length : Int), head.parsed)
  | rejected (out : Parsed) (doomed : ∀ more, Headless (text ++ more)) : Answers text (-1, out)
  | waiting (out : Parsed) (headless : Headless text) : Answers text (-2, out)

/-- A head that comes with more text ends in it. -/
theorem Headless.length_lt {seen more : Bytes} {head : RequestHead} (headless : Headless seen)
    (starts : head.bytes <+: seen ++ more)
    : seen.length < head.bytes.length := by
  by_contra short
  exact headless head
    (List.prefix_of_prefix_length_le starts (List.prefix_append ..) (Nat.not_lt.mp short))

/-- A length below `2 ^ 31` is the same signed number. -/
theorem toInt_ofNat {n : Nat} (small : n < 2 ^ 31) : (Int32.ofNat n).toInt = n :=
  Int32.toInt_ofNat_of_lt small

section Calls

variable {text seen : Bytes}

/-- The first call, on text shorter than the int it returns its length in. -/
theorem phrParseRequest_answers (small : text.length < 2 ^ 31)
    : Answers text (phrParseRequest text 0) := by
  simp only [phrParseRequest, phrParse, if_true]
  rcases result : parseRequest ⟨0, text⟩ with ⟨ret | next, out⟩
  · have error : (parseRequest ⟨0, text⟩).1 = .error ret := by rw [result]
    have final (more : Bytes) := (parseRequest_final more text).resumes.error_cases error
    rcases final [] with rfl | ⟨rfl, -⟩
    · refine .waiting out fun head starts => ?_
      obtain ⟨tail, -, parsed⟩ := head.parse_prefix starts
      rw [parsed] at error
      cases error
    · refine .rejected out fun more head starts => ?_
      obtain ⟨tail, -, parsed⟩ := head.parse_prefix starts
      rcases final more with wait | ⟨-, still⟩
      · cases wait
      · rw [parsed] at still
        cases still
  · obtain ⟨head, tail, rfl, rfl, rfl⟩ := exists_head result
    have starts : head.bytes <+: head.bytes ++ tail := List.prefix_append ..
    dsimp only
    rw [toInt_ofNat (Nat.lt_of_le_of_lt starts.length_le small)]
    exact .accepted head starts

/-- A call that gets more text, after what it saw before started with no head. The check for
the empty line fails only where no head is, and is malformed only where none can come.
-/
theorem phrParseRequest_resumed (headless : Headless seen) {segment : Bytes}
    (small : (seen ++ segment).length < 2 ^ 31)
    : Answers (seen ++ segment) (phrParseRequest (seen ++ segment) seen.length) := by
  by_cases fresh : seen.length = 0
  · rw [fresh]
    exact phrParseRequest_answers small
  · have inside : seen.length - 3 ≤ (seen ++ segment).length := by
      rw [List.length_append]
      omega
    -- `is_complete` starts three bytes before the new ones, where the end of the head may have
    -- begun
    have found {more : Bytes} {head : RequestHead} (starts : head.bytes <+: seen ++ segment ++ more)
        : isComplete 0 ((seen ++ segment).drop (seen.length - 3) ++ more) = .ok () := by
      have part := headless.length_lt (List.append_assoc .. ▸ starts)
      obtain ⟨tail, same⟩ := starts
      rw [← List.drop_append_of_le_length inside, ← same]
      exact head.isComplete_seen part tail
    cases complete : isComplete 0 ((seen ++ segment).drop (seen.length - 3)) with
    | ok =>
        have plain := phrParseRequest_answers small
        simp only [phrParseRequest, phrParse, if_true, if_neg fresh, complete] at plain ⊢
        exact plain
    | error ret =>
        simp only [phrParseRequest, phrParse, if_neg fresh, complete]
        have final (more : Bytes) := (isComplete_final more _ 0).error_cases complete
        rcases final [] with rfl | ⟨rfl, -⟩
        · refine .waiting _ fun head starts => ?_
          have ended : isComplete 0 ((seen ++ segment).drop (seen.length - 3) ++ []) = .ok () :=
            found (by rwa [List.append_nil])
          rw [List.append_nil, complete] at ended
          cases ended
        · refine .rejected _ fun more head starts => ?_
          rcases final more with wait | ⟨-, still⟩
          · cases wait
          · rw [found starts] at still
            cases still

/-- The parser accepts exactly the texts that start with a head, and stores the places of
that head's parts.
-/
theorem phrParseRequest_accepts_iff (small : text.length < 2 ^ 31) {n : Int} (accepted : 0 ≤ n)
    {parsed : Parsed}
    : phrParseRequest text 0 = (n, parsed)
      ↔ ∃ head : RequestHead,
          head.bytes <+: text ∧ n = head.bytes.length ∧ parsed = head.parsed := by
  constructor
  · intro answer
    have answers := phrParseRequest_answers small
    rw [answer] at answers
    cases answers with
    | accepted head starts => exact ⟨head, starts, rfl, rfl⟩
    | rejected => cases accepted
    | waiting => cases accepted
  · rintro ⟨head, starts, rfl, rfl⟩
    obtain ⟨tail, -, result⟩ := head.parse_prefix starts
    simp only [phrParseRequest, phrParse, if_true, result]
    rw [toInt_ofNat (Nat.lt_of_le_of_lt starts.length_le small)]

end Calls

section Segments

/-- The calls of the parser on text that comes in segments. Each call gets all the text there
is, and the length of what the call before it got; the last is the first not to ask for more.
-/
def parseSegments (seen : Bytes) : List Bytes → Bytes × Int × Parsed
  | [] => (seen, -2, ⟨⟨none, 0⟩, ⟨none, 0⟩, -1, []⟩)
  | segment :: segments =>
      let result := phrParseRequest (seen ++ segment) seen.length
      if result.1 = -2 then parseSegments (seen ++ segment) segments
      else (seen ++ segment, result)

/-- The text at the last call and its answer. -/
inductive Received (segments : List Bytes) : Bytes × Int × Parsed → Prop
  | waiting (headless : Headless segments.flatten) (out : Parsed)
    : Received segments (segments.flatten, -2, out)
  | answered (before : List Bytes) (segment : Bytes) (after : List Bytes)
    (same : segments = before ++ segment :: after) (headless : Headless before.flatten)
    {answer : Int × Parsed} (final : answer.1 ≠ -2)
    (answers : Answers (before.flatten ++ segment) answer)
    : Received segments (before.flatten ++ segment, answer)

/-- An empty text starts with no head. -/
theorem headless_nil : Headless [] := by
  intro head starts
  have long := head.length_bytes_pos
  rw [List.prefix_nil.mp starts] at long
  cases long

/-- Reads are answered as one text would be: the head is parsed at the read that completes it,
by induction on the reads to come.
-/
theorem parseSegments_received (before segments : List Bytes) (headless : Headless before.flatten)
    (small : (before ++ segments).flatten.length < 2 ^ 31)
    : Received (before ++ segments) (parseSegments before.flatten segments) := by
  -- on the segments to come; `Headless` of what came before carries it through the calls
  induction segments generalizing before with
  | nil =>
      rw [List.append_nil]
      exact .waiting headless _
  | cons segment segments ih =>
      have grown : before.flatten ++ segment = (before ++ [segment]).flatten := by simp
      have regrouped : before ++ segment :: segments = before ++ [segment] ++ segments := by simp
      have part : (before.flatten ++ segment).length < 2 ^ 31 := by
        refine Nat.lt_of_le_of_lt ?_ small
        rw [regrouped, List.flatten_append, ← grown]
        exact (List.prefix_append _ segments.flatten).length_le
      have answers := phrParseRequest_resumed headless part
      rw [parseSegments]
      split
      -- the parser waits, so the text so far has no whole head and the next call may resume
      · next waits =>
        rw [regrouped, grown]
        refine ih (before ++ [segment]) ?_ (regrouped ▸ small)
        rw [← grown]
        generalize phrParseRequest _ _ = answer at answers waits
        cases answers with
        | accepted head => cases waits
        | rejected => cases waits
        | waiting out headless => exact headless
      · next final =>
        exact .answered before segment segments rfl headless final answers

/-- A text starts with one head at most. -/
theorem RequestHead.unique {text : Bytes} {head head' : RequestHead} (starts : head.bytes <+: text)
    (starts' : head'.bytes <+: text)
    : head.bytes.length = head'.bytes.length ∧ head.parsed = head'.parsed := by
  obtain ⟨tail, -, parsed⟩ := head.parse_prefix starts
  obtain ⟨tail', -, parsed'⟩ := head'.parse_prefix starts'
  rw [parsed] at parsed'
  simp only [Prod.mk.injEq, Except.ok.injEq, Cursor.mk.injEq] at parsed'
  exact ⟨parsed'.1.1, parsed'.2⟩

/-- However the text is cut into segments, the calls that skip the text seen before accept it
just when one call on all of it would, with the same result, and at the segment that has the
last byte of the head.
-/
theorem parseSegments_accepts_iff {segments : List Bytes}
    (small : segments.flatten.length < 2 ^ 31) {n : Nat} {parsed : Parsed}
    : (∃ before segment after, segments = before ++ segment :: after
        ∧ before.flatten.length < n ∧ n ≤ (before.flatten ++ segment).length
        ∧ parseSegments [] segments = (before.flatten ++ segment, (n : Int), parsed))
      ↔ phrParseRequest segments.flatten 0 = ((n : Int), parsed) := by
  -- the calls made before the accepting one saw a text without a whole head
  have received := parseSegments_received [] segments headless_nil small
  rw [phrParseRequest_accepts_iff small (Int.natCast_nonneg n)]
  rw [List.nil_append, List.flatten_nil] at received
  constructor
  · rintro ⟨before, segment, after, -, -, -, calls⟩
    rw [calls] at received
    generalize before.flatten ++ segment = seen at received
    generalize answer : ((n : Int), parsed) = result at received
    cases received with
    | waiting => cases answer
    | answered before segment after same headless final answers =>
        cases answers with
        | accepted head starts =>
            cases answer
            refine ⟨head, starts.trans ?_, rfl, rfl⟩
            rw [same, List.flatten_append, List.flatten_cons, ← List.append_assoc]
            exact List.prefix_append ..
        | rejected => cases answer
        | waiting => cases answer
  · rintro ⟨head, starts, ofs, rfl⟩
    obtain rfl := Int.ofNat.inj ofs
    generalize parseSegments [] segments = result at received
    cases received with
    | waiting headless => exact absurd starts (headless head)
    | answered before segment after same headless final answers =>
        have grouped : segments.flatten = before.flatten ++ segment ++ after.flatten := by
          rw [same, List.flatten_append, List.flatten_cons, List.append_assoc]
        rw [grouped] at starts
        -- the head found is the only one the text begins with, so it is the given one
        cases answers with
        | accepted head' starts' =>
            obtain ⟨length, parsed⟩ := RequestHead.unique starts
              (starts'.trans (List.prefix_append _ after.flatten))
            refine ⟨before, segment, after, same, headless.length_lt (List.append_assoc .. ▸ starts),
              ?_, ?_⟩
            · rw [length]
              exact starts'.length_le
            · rw [length, parsed]
        | rejected out doomed => exact absurd starts (doomed _ head)
        | waiting => exact absurd rfl final

/-- A text that starts with no head is not accepted. -/
theorem Headless.refused {text : Bytes} (headless : Headless text)
    : (phrParseRequest text 0).1 < 0 := by
  simp only [phrParseRequest, phrParse, if_true]
  rcases result : parseRequest ⟨0, text⟩ with ⟨ret | next, out⟩
  · have error : (parseRequest ⟨0, text⟩).1 = .error ret := by rw [result]
    rcases (parseRequest_final [] text).resumes.error_cases error with rfl | ⟨rfl, -⟩
    · exact Int.negSucc_lt_zero 1
    · exact Int.negSucc_lt_zero 0
  · obtain ⟨head, tail, rfl, -, -⟩ := exists_head result
    exact absurd (List.prefix_append ..) (headless head)

/-- A request is rejected only when no bytes that may follow make it well-formed. -/
theorem parseSegments_rejects {segments : List Bytes} {seen : Bytes}
    (small : segments.flatten.length < 2 ^ 31) {parsed : Parsed}
    (rejected : parseSegments [] segments = (seen, -1, parsed)) (more : Bytes)
    : (phrParseRequest (seen ++ more) 0).1 < 0 := by
  have received := parseSegments_received [] segments headless_nil small
  rw [List.flatten_nil, rejected] at received
  generalize answer : ((-1 : Int), parsed) = result at received
  cases received with
  | waiting => cases answer
  | answered before segment after same headless final answers =>
      cases answers with
      | accepted head => cases answer
      | rejected out doomed => exact (doomed more).refused
      | waiting => cases answer

end Segments

section Sample

/-- A request cut inside a line end, and a byte of what follows it. -/
def sampleSegments : List Bytes :=
  [[0x47, 0x45, 0x54, 0x20, 0x2f, 0x20, 0x48, 0x54, 0x54, 0x50, 0x2f, 0x31, 0x2e, 0x31, 0x0d],
    [0x0a, 0x41, 0x3a, 0x20, 0x42, 0x0d, 0x0a, 0x20, 0x43, 0x0a, 0x0a, 0x44]]

/-- "GET / HTTP/1.1", a header "A: B" and the line " C" that goes on with it. -/
def sampleFolded : Parsed where
  method := ⟨some 0, 3⟩
  path := ⟨some 4, 1⟩
  minorVersion := 1
  headers := [⟨⟨some 16, 1⟩, ⟨some 19, 1⟩⟩, ⟨⟨none, 0⟩, ⟨some 22, 2⟩⟩]

/-- A request with a folded header is accepted as a head of the grammar. -/
theorem phrParseRequest_accepts_sample
    : ∃ head : RequestHead,
        head.bytes <+: sampleSegments.flatten ∧ (26 : Int) = head.bytes.length
        ∧ sampleFolded = head.parsed :=
  (phrParseRequest_accepts_iff (by decide) (by decide)).mp rfl

/-- Its reads are accepted at the one that brings the last byte of the head. -/
theorem parseSegments_accepts_sample
    : ∃ before segment after, sampleSegments = before ++ segment :: after
        ∧ before.flatten.length < 26 ∧ 26 ≤ (before.flatten ++ segment).length
        ∧ parseSegments [] sampleSegments
          = (before.flatten ++ segment, ((26 : Nat) : Int), sampleFolded) :=
  (parseSegments_accepts_iff (by decide)).mpr rfl

/-- A method that starts with NUL. -/
theorem parseSegments_rejects_sample
    : (phrParseRequest ([0] ++ sampleSegments.flatten) 0).1 < 0 :=
  have rejected : parseSegments [] [[], [0], [0x47]]
      = ([0], -1, ⟨⟨none, 0⟩, ⟨none, 0⟩, -1, []⟩) := rfl
  parseSegments_rejects (by decide) rejected _

end Sample

end Heads

end PrismHTTP.Server
