import PrismHTTP.Server.Picohttpparser

/-! The header names the vendored parser stores.
Its cursor stays in the text it was given, and a name is read up to its colon; so each name
is a string of token bytes inside the text, or the empty one of a folded line.
-/

namespace PrismHTTP.Server

/-- A name of token bytes inside the text; that of a folded line is NULL and empty. -/
structure TokenName (text : Bytes) (s : Slice) : Prop where
  inside : ∀ ofs ∈ s.ofs, ofs + s.len ≤ text.length
  null_len : s.ofs = none → s.len = 0
  token : ∀ c ∈ s.read text, Phr.tokenChar c = true

namespace Phr

/-- The cursor is at its offset in the text. -/
def Cursor.In (text : Bytes) (buf : Cursor) : Prop := buf.rest = text.drop buf.ofs

/-- A stage that succeeds had its first part succeed. -/
theorem ok_of_bind {α β : Type} {result : Except Int α} {next : α → Except Int β} {out : β}
    (h : (do let value ← result; next value) = .ok out)
    : ∃ value, result = .ok value ∧ next value = .ok out := by
  cases result with
  | error ret => cases h
  | ok value => exact ⟨value, rfl, h⟩

/-- A mapped result comes from a result. -/
theorem ok_of_map {α β : Type} {result : Except Int α} {f : α → β} {out : β}
    (h : result.map f = .ok out)
    : ∃ value, result = .ok value ∧ f value = out := by
  cases result with
  | error ret => cases h
  | ok value => exact ⟨value, rfl, Except.ok.inj h⟩

section Advancing

variable {text : Bytes} {buf next : Cursor} {ofs : Nat} {rest : Bytes}

/-- The cursor stays in the text past one byte. -/
theorem Cursor.In.tail (at_place : buf.In text) : Cursor.In text ⟨buf.ofs + 1, buf.rest.tail⟩ := by
  rw [Cursor.In, at_place, List.tail_drop]

/-- The cursor stays in the text past its first byte. -/
theorem Cursor.In.step {c : UInt8} (at_place : Cursor.In text ⟨ofs, c :: rest⟩)
    : Cursor.In text ⟨ofs + 1, rest⟩ :=
  at_place.tail

/-- The cursor stays in the text past any number of bytes. -/
theorem Cursor.In.drop (at_place : buf.In text) (k : Nat)
    : Cursor.In text ⟨buf.ofs + k, buf.rest.drop k⟩ := by
  rw [Cursor.In, at_place, List.drop_drop]

/-- An expected character leaves the cursor in the text. -/
theorem expectChar_in {ch : UInt8} (at_place : buf.In text) (h : expectChar ch buf = .ok next)
    : next.In text := by
  obtain ⟨ofs, _ | ⟨c, rest⟩⟩ := buf
  · cases h
  · simp only [expectChar] at h
    split at h
    · cases h
      exact at_place.step
    · cases h

/-- A line end leaves the cursor in the text, by cases on its first byte. -/
theorem lineEnd?_in (at_place : buf.In text) (h : lineEnd? buf = .ok (some next))
    : next.In text := by
  obtain ⟨ofs, _ | ⟨c, rest⟩⟩ := buf
  · cases h
  · simp only [lineEnd?] at h
    split at h
    · obtain ⟨after, feed, same⟩ := ok_of_map h
      cases same
      exact expectChar_in at_place.step feed
    · split at h
      · cases h
        exact at_place.step
      · cases h

/-- A token leaves the cursor in the text, by induction on the text. -/
theorem advanceToken_in (at_place : Cursor.In text ⟨ofs, rest⟩)
    (h : advanceToken ofs rest = .ok next)
    : next.In text := by
  induction rest generalizing ofs with
  | nil => cases h
  | cons c rest ih =>
      simp only [advanceToken] at h
      split at h
      · cases h
        exact at_place
      · split at h
        · cases h
        · exact ih at_place.step h

/-- The rest of a line leaves the cursor in the text, by induction on the text. -/
theorem getTokenToEol_in {stop : Nat} (at_place : Cursor.In text ⟨ofs, rest⟩)
    (h : getTokenToEol ofs rest = .ok (stop, next))
    : next.In text := by
  induction rest generalizing ofs with
  | nil => cases h
  | cons c rest ih =>
      simp only [getTokenToEol] at h
      split at h
      · split at h
        · obtain ⟨after, feed, same⟩ := ok_of_map h
          cases same
          exact expectChar_in at_place.step feed
        · split at h
          · cases h
            exact at_place.step
          · cases h
      · exact ih at_place.step h

/-- Blanks leave the cursor in the text, by induction on the text. -/
theorem skipBlanks_in (at_place : Cursor.In text ⟨ofs, rest⟩) (h : skipBlanks ofs rest = .ok next)
    : next.In text := by
  induction rest generalizing ofs with
  | nil => cases h
  | cons c rest ih =>
      simp only [skipBlanks] at h
      split at h
      · exact ih at_place.step h
      · cases h
        exact at_place

/-- A digit leaves the cursor in the text. -/
theorem parseInt_in {mul value : Int} (at_place : buf.In text)
    (h : parseInt mul buf = .ok (value, next))
    : next.In text := by
  obtain ⟨ofs, _ | ⟨c, rest⟩⟩ := buf
  · cases h
  · simp only [parseInt] at h
    split at h
    · cases h
    · cases h
      exact at_place.step

/-- The version leaves the cursor in the text, its characters being expected one by one. -/
theorem parseHttpVersion_in {minorVersion : Int} (at_place : buf.In text)
    (h : parseHttpVersion buf = .ok (minorVersion, next))
    : next.In text := by
  rw [parseHttpVersion.eq_def] at h
  split at h
  · next long =>
    split at h
    · have behind := at_place.drop 7
      rw [long] at behind
      exact parseInt_in behind h
    · cases h
  · cases h

/-- A header name ends at the colon, and has token bytes alone. -/
theorem headerName_spec (h : headerName ofs rest = .ok next)
    : ∃ k, next = ⟨ofs + k, rest.drop k⟩ ∧ k ≤ rest.length
      ∧ ∀ c ∈ rest.take k, tokenChar c = true := by
  induction rest generalizing ofs with
  | nil => cases h
  | cons c rest ih =>
      simp only [headerName] at h
      split at h
      · cases h
        exact ⟨0, rfl, Nat.zero_le _, by simp⟩
      · split at h
        · next token =>
          obtain ⟨k, rfl, inside, all⟩ := ih h
          refine ⟨k + 1, ?_, Nat.succ_le_succ inside, ?_⟩
          · rw [List.drop_succ_cons, Nat.add_assoc, Nat.add_comm 1 k]
          · rw [List.take_succ_cons]
            exact List.forall_mem_cons.mpr ⟨token, all⟩
        · cases h

end Advancing

section Names

variable {text : Bytes} {buf next : Cursor} {first : Bool}

/-- The start of a header is a name in the text, or a blank that continues the line before. -/
theorem headerStart_spec {name : Slice} (at_place : buf.In text)
    (h : headerStart first buf = .ok (name, next))
    : TokenName text name ∧ next.In text := by
  rw [headerStart] at h
  split at h
  · cases h
    exact ⟨⟨by simp, fun _ => rfl, by simp [Slice.read]⟩, at_place⟩
  · obtain ⟨colon, found, h⟩ := ok_of_bind h
    obtain ⟨k, rfl, inside, all⟩ := headerName_spec found
    split at h
    · cases h
    · next some_len =>
      change buf.ofs + k ≠ buf.ofs at some_len
      obtain ⟨value, skipped, h⟩ := ok_of_bind h
      cases h
      simp only [Nat.add_sub_cancel_left]
      rw [at_place, List.length_drop] at inside
      refine ⟨{ inside := ?_, null_len := ?_, token := ?_ }, ?_⟩
      · intro ofs found
        cases found
        change buf.ofs + k ≤ text.length
        -- the name is not empty, so it starts inside the text
        omega
      · intro null
        cases null
      · rwa [at_place] at all
      · exact skipBlanks_in (at_place.drop k).tail skipped

/-- A header has a name in the text, and leaves the cursor there. -/
theorem parseHeader_spec {h : PhrHeader} (at_place : buf.In text)
    (parsed : parseHeader first buf = .ok (h, next))
    : TokenName text h.name ∧ next.In text := by
  rw [parseHeader] at parsed
  obtain ⟨⟨name, value⟩, started, parsed⟩ := ok_of_bind parsed
  obtain ⟨token, at_value⟩ := headerStart_spec at_place started
  obtain ⟨⟨stop, after⟩, line, parsed⟩ := ok_of_bind parsed
  cases parsed
  exact ⟨token, getTokenToEol_in at_value line⟩

/-- The loop adds headers with such names to those done, by induction on the room left. -/
theorem parseHeaders_names {left : Nat} {done : List PhrHeader} (at_place : buf.In text)
    (named : ∀ h ∈ done, TokenName text h.name)
    : ∀ h ∈ (parseHeaders left done buf).2, TokenName text h.name := by
  -- on the headers there is room for; `done` grows by one named header at a time
  induction left generalizing done buf with
  | zero =>
      rw [parseHeaders.eq_def]
      split <;> first | exact named | contradiction
  | succ left ih =>
      rw [parseHeaders.eq_def]
      split
      · exact named
      · exact named
      · contradiction
      · next same =>
        cases same
        cases parsed : parseHeader done.isEmpty buf with
        | error ret => exact named
        | ok result =>
            obtain ⟨token, at_next⟩ := parseHeader_spec at_place parsed
            refine ih at_next fun h member => ?_
            rcases List.mem_append.mp member with earlier | own
            · exact named h earlier
            · rw [List.mem_singleton.mp own]
              exact token

/-- What holds of the outputs before a stage and of those after it holds in any case. -/
theorem stage_outputs {α β : Type} {P : β → Prop} {result : Except Int α} {out : β}
    {next : α → Except Int Cursor × β} (before : P out)
    (after : ∀ value, result = .ok value → P (next value).2)
    : P (stage result out next).2 := by
  cases result with
  | error ret => exact before
  | ok value => exact after value rfl

/-- All names among the outputs are such strings. -/
def NamesIn (text : Bytes) (out : Parsed) : Prop := ∀ h ∈ out.headers, TokenName text h.name

/-- Without headers every name is in the text. -/
theorem namesIn_of_none {out : Parsed} (none_yet : out.headers = []) : NamesIn text out := by
  simp [NamesIn, none_yet]

/-- Until the headers are parsed there is none among the outputs. -/
theorem parseRequest_names (text : Bytes) : NamesIn text (parseRequest ⟨0, text⟩).2 := by
  have at_start : Cursor.In text ⟨0, text⟩ := rfl
  refine stage_outputs (P := NamesIn text) (namesIn_of_none rfl) fun begun line => ?_
  have at_method : (begun.getD ⟨0, text⟩).In text := by
    rcases begun with _ | next
    · exact at_start
    · exact lineEnd?_in at_start line
  refine stage_outputs (P := NamesIn text) (namesIn_of_none rfl) fun space method => ?_
  have at_path := (advanceToken_in at_method method).tail
  refine stage_outputs (P := NamesIn text) (namesIn_of_none rfl) fun space path => ?_
  have at_version := (advanceToken_in at_path path).tail
  simp only
  split
  · exact namesIn_of_none rfl
  · refine stage_outputs (P := NamesIn text) (namesIn_of_none rfl) fun version parsed => ?_
    have at_line := parseHttpVersion_in at_version parsed
    refine stage_outputs (P := NamesIn text) (namesIn_of_none rfl) fun ended line => ?_
    rcases ended with _ | next
    · exact namesIn_of_none rfl
    · exact parseHeaders_names (lineEnd?_in at_line line) (by simp)

end Names

end Phr

/-- Each name the parser stores is such a string, also when it ends with an error. -/
theorem phrParseRequest_names (text : Bytes) (lastLen : Nat)
    : Phr.NamesIn text (phrParseRequest text lastLen).2 := by
  rw [phrParseRequest, Phr.phrParse]
  split
  · exact Phr.namesIn_of_none rfl
  · cases ended : (Phr.parseRequest ⟨0, text⟩).1 with
    | error ret =>
        simp only [ended]
        exact Phr.parseRequest_names text
    | ok buf =>
        simp only [ended]
        exact Phr.parseRequest_names text

end PrismHTTP.Server
