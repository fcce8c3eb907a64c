import Mathlib.Data.List.Forall2
import PrismHTTP.Server.Reception
import PrismHTTP.Server.ResumedParsing

/-! What a handler gets of a request head.
Every head is a header block of the vendored parser, so what holds of blocks holds of heads.
The parser's offsets are those of the head's own parts, so the handler sees these.
-/

namespace PrismHTTP.Server
open Phr Transition

section Places

/-- A slice that has a given part of the text, or is NULL. -/
inductive Spells (text : Bytes) : Slice → Bytes → Prop
  | null : Spells text ⟨none, 0⟩ []
  | part (lead part rest : Bytes) (same : text = lead ++ (part ++ rest))
    : Spells text ⟨some lead.length, part.length⟩ part

namespace Spells

variable {text part : Bytes} {s : Slice}

/-- What a slice spells is what is read from it, by cases on whether it is NULL. -/
theorem read (spells : Spells text s part) : s.read text = part := by
  cases spells with
  | null => rfl
  | part lead part rest same =>
      rw [same, Slice.read]
      dsimp only
      rw [List.drop_left, List.take_left]

/-- What a slice spells is inside the text. -/
theorem inside (spells : Spells text s part) : ∀ ofs ∈ s.ofs, ofs + s.len ≤ text.length := by
  cases spells with
  | null =>
      intro ofs member
      cases member
  | part lead part rest same =>
      intro ofs member
      cases member
      rw [same, List.length_append, List.length_append, ← Nat.add_assoc]
      exact Nat.le_add_right ..

/-- A slice is as long as what it spells. -/
theorem len (spells : Spells text s part) : s.len = part.length := by
  cases spells <;> rfl

/-- A slice that is NULL spells nothing. -/
theorem null_len (spells : Spells text s part) (null : s.ofs = none) : s.len = 0 := by
  cases spells with
  | null => rfl
  | part lead part rest same => cases null

end Spells

/-- What the parser takes for a line's value. -/
def HeaderLine.shown (line : HeaderLine) : Bytes :=
  match line.name with
  | none => if line.value = [] then [] else line.gap ++ line.value
  | some _ => line.value

def HeaderLine.nameBytes (line : HeaderLine) : Bytes := (line.name.map HeaderName.bytes).getD []

/-- A blank of the grammar is a space for `strtoll`. -/
theorem isSpace_of_isBlank {c : UInt8} (blank : isBlank c = true) : Strtoll.isSpace c = true := by
  rcases Bool.or_eq_true_iff.mp blank with space | tab
  · rw [of_decide_eq_true space]
    rfl
  · rw [of_decide_eq_true tab]
    rfl

namespace HeaderLine

variable (line : HeaderLine) (ofs : Nat)

/-- Behind the value there is a blank or the line end. -/
theorem behind_value
    : ∃ (t : UInt8) (rest : Bytes),
        line.trail ++ line.ends.bytes = t :: rest ∧ Strtoll.isSpace t = true := by
  rcases blanks : line.trail with _ | ⟨t, trail⟩
  · cases line.ends
    · exact ⟨13, [10], rfl, rfl⟩
    · exact ⟨10, [], rfl, rfl⟩
  · have blank := line.trail_blank t (by rw [blanks]; exact List.mem_cons_self ..)
    exact ⟨t, trail ++ line.ends.bytes, rfl, isSpace_of_isBlank blank⟩

/-- The value's place in its line, where a blank or the line end follows it. -/
theorem bytes_shown
    : ∃ (lead : Bytes) (t : UInt8) (rest : Bytes),
        line.bytes = lead ++ (line.shown ++ t :: rest)
        ∧ Strtoll.isSpace t = true
        ∧ ∀ ofs, (line.place ofs).val = ⟨some (ofs + lead.length), line.shown.length⟩ := by
  obtain ⟨t, rest, behind, space⟩ := line.behind_value
  rcases name : line.name with _ | label
  · by_cases empty : line.value = []
    · obtain ⟨b, gap, starts⟩ := List.exists_cons_of_ne_nil (line.folded_gap name)
      have blank := line.gap_blank b (by rw [starts]; exact List.mem_cons_self ..)
      refine ⟨[], b, gap ++ line.ends.bytes, ?_, isSpace_of_isBlank blank, ?_⟩
      · simp [bytes, label, content, shown, name, empty, line.trail_nil empty, starts]
      · simp [place, shown, name, empty]
    · refine ⟨[], t, rest, ?_, space, ?_⟩
      · simp [bytes, label, content, shown, name, empty, ← behind]
      · simp [place, shown, name, empty]
  · refine ⟨label.bytes ++ [58] ++ line.gap, t, rest, ?_, space, ?_⟩
    · simp [bytes, HeaderLine.label, content, shown, name, ← behind]
    · intro ofs
      simp [place, shown, name, Nat.add_assoc, Nat.add_comm 1]

/-- The name is at the start of its line, unless the line continues another. -/
theorem name_place
    : (line.place ofs).name = ⟨line.name.map fun _ => ofs, line.nameBytes.length⟩ := by
  rcases name : line.name with _ | label
  · simp [place, nameBytes, name]
  · simp [place, nameBytes, name]

/-- A line starts with its name, by cases on whether it has one. -/
theorem nameBytes_prefix : line.nameBytes <+: line.bytes := by
  rcases name : line.name with _ | label
  · simp [nameBytes, name]
  · simp [nameBytes, bytes, HeaderLine.label, name]

end HeaderLine

/-- A header stored at the place of a line of the text. -/
def Placed (text : Bytes) (h : PhrHeader) (line : HeaderLine) : Prop :=
  ∃ lead rest : Bytes, text = lead ++ (line.bytes ++ rest) ∧ h = line.place lead.length

namespace Placed

variable {text : Bytes} {h : PhrHeader} {line : HeaderLine}

/-- The stored name spells the name of its line. -/
theorem name (placed : Placed text h line) : Spells text h.name line.nameBytes := by
  obtain ⟨lead, rest, rfl, rfl⟩ := placed
  obtain ⟨behind, same⟩ := line.nameBytes_prefix
  rw [line.name_place]
  rcases name : line.name with _ | label
  · have empty : line.nameBytes = [] := by simp [HeaderLine.nameBytes, name]
    rw [empty]
    exact .null
  · refine .part lead line.nameBytes (behind ++ rest) ?_
    rw [← same, List.append_assoc]

/-- The stored value spells the value of its line. -/
theorem val (placed : Placed text h line) : Spells text h.val line.shown := by
  obtain ⟨lead, rest, rfl, rfl⟩ := placed
  obtain ⟨before, t, behind, same, -, val⟩ := line.bytes_shown
  rw [val, ← List.length_append]
  refine .part (lead ++ before) line.shown (t :: behind ++ rest) ?_
  rw [same]
  simp

/-- The stored value ends at a blank or at a line end, by `bytes_shown`. -/
theorem val_ends (placed : Placed text h line)
    : ∃ ofs, h.val.ofs = some ofs
      ∧ ∃ t, text[ofs + h.val.len]? = some t ∧ Strtoll.isSpace t = true := by
  obtain ⟨lead, rest, rfl, rfl⟩ := placed
  obtain ⟨before, t, behind, same, space, val⟩ := line.bytes_shown
  refine ⟨lead.length + before.length, by rw [val], t, ?_, space⟩
  have split : lead ++ (line.bytes ++ rest)
      = (lead ++ before ++ line.shown) ++ t :: (behind ++ rest) := by
    rw [same]
    simp
  have place : lead.length + before.length + (line.place lead.length).val.len
      = (lead ++ before ++ line.shown).length := by
    rw [val, List.length_append, List.length_append]
  rw [split, place, List.getElem?_append_right (Nat.le_refl _), Nat.sub_self, List.getElem?_cons_zero]

end Placed

/-- The stored headers are those of the lines, one by one. -/
theorem placed_lines (lines : List HeaderLine) (lead rest : Bytes)
    : List.Forall₂ (Placed (lead ++ (lines.flatMap HeaderLine.bytes ++ rest)))
      (HeaderLine.places lead.length lines) lines := by
  induction lines generalizing lead with
  | nil => exact .nil
  | cons line lines ih =>
      have behind := ih (lead ++ line.bytes)
      rw [List.length_append] at behind
      simp only [List.append_assoc] at behind
      rw [HeaderLine.places, List.flatMap_cons, List.append_assoc]
      exact .cons ⟨lead, _, rfl, rfl⟩ behind

end Places

namespace RequestHead

variable (head : RequestHead)

/-- The parser's headers are stored at the places of the head's lines, by `placed_lines`. -/
theorem placed : List.Forall₂ (Placed head.bytes) head.parsed.headers head.headers := by
  have lines := placed_lines head.headers (head.before ++ head.requestLine) head.final.bytes
  rw [List.length_append] at lines
  change List.Forall₂ _
    (HeaderLine.places (head.before.length + head.requestLine.length) head.headers) _
  simpa only [bytes, headerLines, List.append_assoc] using lines

/-- Every stored header is that of a line. -/
theorem exists_line {h : PhrHeader} (member : h ∈ head.parsed.headers)
    : ∃ line, Placed head.bytes h line := by
  obtain ⟨same, placed⟩ := List.forall₂_iff_get.mp head.placed
  obtain ⟨i, rfl⟩ := List.mem_iff_get.mp member
  exact ⟨_, placed i i.isLt (same ▸ i.isLt)⟩

/-- The stored method spells the head's. -/
theorem spells_method : Spells head.bytes head.parsed.method head.method.bytes := by
  refine .part head.before head.method.bytes
    (32 :: (head.path.bytes ++ 32 :: (versionBytes head.minor ++ head.ends.bytes))
      ++ head.headerLines) ?_
  simp [bytes, requestLine]

/-- The stored path spells the head's. -/
theorem spells_path : Spells head.bytes head.parsed.path head.path.bytes := by
  have place : head.parsed.path
      = ⟨some (head.before ++ (head.method.bytes ++ [32])).length, head.path.bytes.length⟩ := by
    simp [parsed, Nat.add_assoc]
  rw [place]
  refine .part _ head.path.bytes
    (32 :: (versionBytes head.minor ++ head.ends.bytes) ++ head.headerLines) ?_
  simp [bytes, requestLine]

/-- Everything the parser stores spells a part of the head, slice by slice. -/
theorem spells_slices {s : Slice} (member : s ∈ head.parsed.slices)
    : ∃ part, Spells head.bytes s part := by
  simp only [Parsed.slices, List.mem_cons, List.mem_flatMap, List.not_mem_nil, or_false] at member
  rcases member with rfl | rfl | ⟨h, stored, rfl | rfl⟩
  · exact ⟨_, head.spells_method⟩
  · exact ⟨_, head.spells_path⟩
  · obtain ⟨line, placed⟩ := head.exists_line stored
    exact ⟨_, placed.name⟩
  · obtain ⟨line, placed⟩ := head.exists_line stored
    exact ⟨_, placed.val⟩

/-- What stands before the method are line ends. -/
theorem before_lineEnds : ∀ b ∈ head.before, isLineEnd b = true := by
  rw [before]
  cases head.leading with
  | none => simp
  | some e => cases e <;> exact List.all_eq_true.mp rfl

/-- No proper part of a head starts with one. -/
theorem headless_take {n : Nat} (part : n < head.bytes.length) : Headless (head.bytes.take n) := by
  intro other starts
  have length := (RequestHead.unique (starts.trans (List.take_prefix ..)) List.prefix_rfl).1
  have short := starts.length_le
  rw [length, List.length_take] at short
  omega

/-- While the head is coming in, the parser asks for more. -/
theorem incomplete {n lastLen : Nat} (later : lastLen < n) (part : n < head.bytes.length)
    (short : head.bytes.length < 2 ^ 31)
    : (phrParseRequest (head.bytes.take n) lastLen).1 = -2 := by
  have seen : ((head.bytes.take n).take lastLen).length = lastLen := by
    rw [List.length_take, List.length_take]
    omega
  have headless : Headless ((head.bytes.take n).take lastLen) := by
    rw [List.take_take]
    exact head.headless_take (by omega)
  have answers : Answers ((head.bytes.take n).take lastLen ++ (head.bytes.take n).drop lastLen) _ :=
    phrParseRequest_resumed headless (by
      rw [List.take_append_drop, List.length_take]
      omega)
  rw [List.take_append_drop, seen] at answers
  generalize phrParseRequest (head.bytes.take n) lastLen = answer at answers
  cases answers with
  | accepted other starts => exact absurd starts (head.headless_take part other)
  | rejected out doomed =>
      have whole := doomed (head.bytes.drop n) head
      rw [List.take_append_drop] at whole
      exact absurd List.prefix_rfl whole
  | waiting out _ => rfl

/-- Once the head is there, it is parsed whatever follows it. -/
theorem complete (extra : Bytes) {lastLen : Nat} (part : lastLen < head.bytes.length)
    (short : head.bytes.length < 2 ^ 31)
    : phrParseRequest (head.bytes ++ extra) lastLen = ((head.bytes.length : Int), head.parsed) := by
  unfold phrParseRequest phrParse
  rw [head.isComplete_seen part, ite_self, head.parse]
  dsimp only
  rw [toInt_ofNat short]

/-- Every head is a header block of the vendored parser. -/
def block (short : head.bytes.length < 2 ^ 31) : HeaderBlock phrParseRequest where
  bytes := head.bytes
  parsed := head.parsed
  incomplete _ _ later part := head.incomplete later part short
  complete extra _ part := head.complete extra part short
  short := short
  headers_le := by
    rw [head.placed.length_eq]
    exact head.headers_le
  inside s member := (head.spells_slices member).elim fun _ spells => spells.inside
  null_len s member := (head.spells_slices member).elim fun _ spells => spells.null_len
  methodOfs := head.before.length
  method := rfl
  method_pos := List.length_pos_iff.mpr head.method.nonempty
  leading b member := by
    have leads : head.bytes.take head.before.length = head.before := List.take_left
    rw [leads] at member
    exact head.before_lineEnds b member
  method_start b first := by
    obtain ⟨c, word, starts⟩ := List.exists_cons_of_ne_nil head.method.nonempty
    have same : c = b := by
      rw [← Option.some.injEq, ← show head.bytes[head.before.length]? = some b from first, bytes,
        List.getElem?_append_right (Nat.le_refl _), Nat.sub_self, requestLine, starts]
      rfl
    rw [← same]
    exact isLineEnd_of_isVisible (head.method.visible c (by rw [starts]; exact List.mem_cons_self ..))
  values h member := (head.exists_line member).elim fun _ placed => placed.val_ends

end RequestHead

section Delivery

variable {head : RequestHead} (short : head.bytes.length < 2 ^ 31)

/-- The first header line whose name agrees with the given one over the shorter length. -/
def RequestHead.findLine (head : RequestHead) (name : Bytes) : Option HeaderLine :=
  head.headers.find? fun line =>
    let n := min line.nameBytes.length name.length
    line.nameBytes.take n == name.take n

/-- The body length that the server's lookup finds in the head: the number in the first line
whose name agrees with Content-Length over the shorter of the two, and zero without such a line.
-/
def RequestHead.declaredLen (head : RequestHead) : UInt64 :=
  match head.findLine contentLength with
  | none => 0
  | some line => wholeNumber line.shown line.shown.length

/-- What a handler is to see of a head in which the lookup finds no body. -/
def RequestHead.seen (head : RequestHead) : Seen where
  method := some head.method.bytes
  path := some head.path.bytes
  minorVersion := (head.minor : Nat)
  headers := head.headers.map fun line => (some line.nameBytes, some line.shown)
  body := some []

/-- Related lists have related first elements, where the search agrees on them. -/
theorem forall₂_find? {α β : Type} {R : α → β → Prop} {as : List α} {bs : List β}
    (related : List.Forall₂ R as bs) {p : α → Bool} {q : β → Bool}
    (agree : ∀ a b, R a b → p a = q b)
    : (as.find? p = none ∧ bs.find? q = none)
      ∨ ∃ a b, as.find? p = some a ∧ bs.find? q = some b ∧ R a b := by
  induction related with
  | nil => exact .inl ⟨rfl, rfl⟩
  | @cons a b as bs first rest ih =>
      rw [List.find?_cons, List.find?_cons, agree a b first]
      cases q b with
      | true => exact .inr ⟨a, b, rfl, rfl, first⟩
      | false => exact ih

/-- The length the stored headers declare is the one the lines declare. -/
theorem block_declaredLen : (head.block short).declaredLen = head.declaredLen := by
  have agree (h : PhrHeader) (line : HeaderLine) (placed : Placed head.bytes h line)
      : ((h.name.read head.bytes).take (min h.name.len contentLength.length)
          == contentLength.take (min h.name.len contentLength.length))
        = (line.nameBytes.take (min line.nameBytes.length contentLength.length)
          == contentLength.take (min line.nameBytes.length contentLength.length)) := by
    rw [placed.name.read, placed.name.len]
  rw [HeaderBlock.declaredLen, RequestHead.declaredLen]
  rcases forall₂_find? head.placed agree with ⟨absent, absent'⟩ | ⟨h, line, found, found', placed⟩
  · have stored : (head.block short).findHeader contentLength = none := absent
    have written : head.findLine contentLength = none := absent'
    rw [stored, written]
  · have stored : (head.block short).findHeader contentLength = some h := found
    have written : head.findLine contentLength = some line := found'
    rw [stored, written]
    dsimp only
    rw [← placed.val.len]
    exact congrArg (wholeNumber · h.val.len) placed.val.read

/-- The head as a request of its own. -/
def RequestHead.request (bodyless : head.declaredLen = 0) : Request phrParseRequest where
  block := head.block short
  body := []
  body_length := by
    rw [block_declaredLen short, bodyless]
    rfl

/-- What is to be seen of the request are the parts of its head, each spelt by its slice. -/
theorem request_seen (bodyless : head.declaredLen = 0)
    : (head.request short bodyless).seen = head.seen := by
  have headers : (head.request short bodyless).seen.headers = head.seen.headers := by
    have read (h : PhrHeader) (line : HeaderLine) (placed : Placed head.bytes h line)
        : (some (h.name.read head.bytes), some (h.val.read head.bytes))
          = (some line.nameBytes, some line.shown) := by
      rw [placed.name.read, placed.val.read]
    have same : List.Forall₂ (· = ·) (head.parsed.headers.map _) (head.headers.map _) :=
      List.rel_map read head.placed
    rwa [List.forall₂_eq_eq_eq] at same
  have method : (head.request short bodyless).seen.method = head.seen.method :=
    congrArg some head.spells_method.read
  have path : (head.request short bodyless).seen.path = head.seen.path :=
    congrArg some head.spells_path.read
  exact (Seen.mk.injEq ..).mpr ⟨method, path, rfl, headers, rfl⟩

variable {path : List (Read × HttpClientSocket)}

/-- A request without a body is delivered once it has come in, whatever the reads: its delivery
does not depend on where the buffer is.
-/
theorem bodyless_delivered {request : Request phrParseRequest} (empty : request.body = [])
    (req : HttpRequest) (run : Segmented request (.fresh req) path)
    (complete : (final (.fresh req) path).received = request.bytes)
    : Delivered request (final (.fresh req) path) := by
  have parsing := parsing_fresh request req
  cases run with
  | nil =>
      have part := parsing.part
      rw [Transition.final] at complete
      rw [complete, Request.length_bytes] at part
      omega
  | cons first rest =>
      rcases parsing.read? first with ⟨waits, received⟩ | ⟨-, delivered, all⟩ | ⟨loaded, -⟩
      · refine (parsing_final waits ?_ rest complete).mpr empty
        rw [received]
        exact List.append_ne_nil_of_right_ne_nil _ (read?_ordered first).1
      · obtain rfl := path_eq_nil rest all
        exact delivered
      · exact absurd empty loaded

/-- Every well-formed head in which the lookup of Content-Length finds zero is passed to the
handler once, when its last byte has come, with the parts it was made of; however it is cut into
reads. By seeing the head as a request without a body, which any segmentation delivers.
-/
theorem head_delivered (short : head.bytes.length < 2 ^ 31) (bodyless : head.declaredLen = 0)
    (req : HttpRequest)
    (run : Path (Fires fun hcs read => hcs.read? phrParseRequest head.bytes read) (.fresh req)
      path)
    (complete : (final (.fresh req) path).received = head.bytes)
    : (final (.fresh req) path).calls = [⟨head.seen, head.bytes.length⟩]
      ∧ (final (.fresh req) path).closed = false
      ∧ (final (.fresh req) path).crashed = false := by
  have request : head.bytes = (head.request short bodyless).bytes := (List.append_nil _).symm
  rw [request] at complete
  simp only [request] at run
  have delivered : Delivered (head.request short bodyless) _ :=
    bodyless_delivered rfl req run complete
  have calls := delivered.called
  rw [request_seen, ← request] at calls
  exact ⟨calls, delivered.isOpen, delivered.alive⟩

/-- "A: B" -/
def sampleLine : HeaderLine where
  name := some ⟨[0x41], List.cons_ne_nil _ _, List.all_eq_true.mp rfl⟩
  gap := [32]
  value := [0x42]
  trail := []
  ends := .lf
  gap_blank := List.all_eq_true.mp rfl
  folded_gap absent := by cases absent
  oneLine := by simp [OneLine, isControl]
  value_starts := by simp [isBlank]
  value_ends := by simp [isBlank]
  trail_blank := by simp
  trail_nil _ := rfl

/-- "GET / HTTP/1.1" and the header "A: B". -/
def sampleHead : RequestHead where
  leading := none
  method := ⟨[0x47, 0x45, 0x54], List.cons_ne_nil _ _, List.all_eq_true.mp rfl⟩
  path := ⟨[0x2f], List.cons_ne_nil _ _, List.all_eq_true.mp rfl⟩
  minor := 1
  ends := .crlf
  headers := [sampleLine]
  final := .crlf
  headers_le := by decide
  first_named := by simp [sampleLine]

/-- The head in two reads. -/
def sampleReads : List (Read × HttpClientSocket) :=
  runOf (fun hcs read => hcs.read? phrParseRequest sampleHead.bytes read) (.fresh sampleReq)
    [⟨⟨8192, fun _ => 0⟩, sampleHead.bytes.take 15⟩,
      ⟨⟨8192, fun _ => 0⟩, sampleHead.bytes.drop 15⟩]

/-- The handler is called once with the parts of the head, and the connection stays open. -/
theorem head_delivered_sample
    : (final (.fresh sampleReq) sampleReads).calls
        = [⟨⟨some [0x47, 0x45, 0x54], some [0x2f], 1, [(some [0x41], some [0x42])], some []⟩, 23⟩]
      ∧ (final (.fresh sampleReq) sampleReads).closed = false
      ∧ (final (.fresh sampleReq) sampleReads).crashed = false :=
  head_delivered (by decide) rfl sampleReq (runOf_path _ _ _) (by decide +kernel)

end Delivery

end PrismHTTP.Server
