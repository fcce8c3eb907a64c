import Mathlib.Data.List.Find
import PrismHTTP.Library.Strtoll
import PrismHTTP.Server.Membuf

/-! The HTTP request, with its strings as pointers into the receive buffer.
Parsing stores absolute addresses, so what a string reads depends on where the buffer's
block is when it is read.
-/

namespace PrismHTTP.Server
open MemoryBlock

/-- A string the parser found, by its offset in the text; `none` is NULL. -/
structure Slice where
  ofs : Option Nat
  len : Nat
  deriving DecidableEq

/-- `struct phr_header`. -/
structure PhrHeader where
  name : Slice
  val : Slice
  deriving DecidableEq

/-- The output parameters of `phr_parse_request`. -/
structure Parsed where
  method : Slice
  path : Slice
  minorVersion : Int
  headers : List PhrHeader

/-- `phr_parse_request`, given the text and the length of the text it saw before: the number
of bytes parsed, -2 for an incomplete request or -1 for an error.
-/
abbrev PhrParseRequest := Bytes → Nat → Int × Parsed

/-- A pointer and a length. -/
structure Text where
  ptr : UInt64
  len : Nat

def Text.null : Text := ⟨0, 0⟩

structure HttpHeader where
  name : Text
  val : Text

/-- `struct http_request`, with the first `nheaders` headers. -/
structure HttpRequest where
  mem : Membuf
  minorVersion : Int
  method : Text
  path : Text
  headers : List HttpHeader
  body : UInt64
  bodyLen : UInt64

def HTTP_HEADERS_MAX : Nat := 16

def httpRequestReset (req : HttpRequest) : HttpRequest where
  mem := req.mem.reset
  minorVersion := 0
  method := .null
  path := .null
  headers := .replicate HTTP_HEADERS_MAX ⟨.null, .null⟩
  body := 0
  bodyLen := 0

namespace Membuf

/-- The offset a pointer has from the block's present address. -/
def offset (buf : Membuf) (ptr : UInt64) : Nat := (ptr - buf.base).toNat

/-- What a string reads; nothing can be said of one outside the block. -/
def text (buf : Membuf) (t : Text) : Option Bytes :=
  if t.len = 0 then some []
  else if buf.offset t.ptr + t.len ≤ buf.size then some (load buf.mem (buf.offset t.ptr) t.len)
  else none

/-- The bytes from a pointer to the block's end. -/
def behind (buf : Membuf) (ptr : UInt64) : Bytes :=
  load buf.mem (buf.offset ptr) (buf.size - buf.offset ptr)

end Membuf

def Slice.at (s : Slice) (base : UInt64) : Text where
  ptr := match s.ofs with
    | none => 0
    | some ofs => base + .ofNat ofs
  len := s.len

/-- The request after the parser stored its results, as pointers into the buffer. -/
def HttpRequest.store (req : HttpRequest) (parsed : Parsed) : HttpRequest :=
  { req with
    minorVersion := parsed.minorVersion
    method := parsed.method.at req.mem.base
    path := parsed.path.at req.mem.base
    headers := parsed.headers.map fun h => ⟨h.name.at req.mem.base, h.val.at req.mem.base⟩ }

/-- The text is everything in the buffer, and the bytes before `prev` were seen before. -/
def httpParseRequest (phr : PhrParseRequest) (req : HttpRequest) : Int × HttpRequest :=
  let result := phr req.mem.filled req.mem.prev
  (result.1, req.store result.2)

/-- The comparison is `strncmp` over the shorter of the two lengths. -/
def httpRequestFindHeader (req : HttpRequest) (name : Bytes) : Option HttpHeader :=
  req.headers.find? fun h =>
    let n := min h.name.len name.length
    req.mem.text ⟨h.name.ptr, n⟩ == some (name.take n)

/-- "Content-Length" -/
def contentLength : Bytes :=
  [0x43, 0x6f, 0x6e, 0x74, 0x65, 0x6e, 0x74, 0x2d, 0x4c, 0x65, 0x6e, 0x67, 0x74, 0x68]

/-- The number at the start of the text, if it ends right at the value's end. -/
def wholeNumber (text : Bytes) (len : Nat) : UInt64 :=
  if (Strtoll.strtoll text).2 ≠ len then 0 else UInt64.ofInt (Strtoll.strtoll text).1

def httpRequestDetermineBodyLen (req : HttpRequest) : UInt64 :=
  match httpRequestFindHeader req contentLength with
  | none => 0
  | some h => wholeNumber (req.mem.behind h.val.ptr) h.val.len

/-- An address in the buffer is as far from its start as it was put. -/
theorem offset_at (buf : Membuf) {ofs : Nat} (small : ofs < 2 ^ 64)
    : buf.offset (buf.base + UInt64.ofNat ofs) = ofs := by
  rw [Membuf.offset, UInt64.add_comm, UInt64.add_sub_cancel, UInt64.toNat_ofNat']
  omega

/-- The number read from a value depends only on the value, when a space follows it. -/
theorem wholeNumber_append {v : Bytes} {t : UInt8} (space : Strtoll.isSpace t = true)
    (rest : Bytes)
    : wholeNumber (v ++ t :: rest) v.length = wholeNumber v v.length := by
  by_cases blank : v.dropWhile Strtoll.isSpace = []
  · have alone : wholeNumber v v.length = 0 := by
      have nothing : Strtoll.strtoll v = (0, 0) :=
        if_pos (by simp [Strtoll.reading, blank, Strtoll.splitSign, Strtoll.splitBase])
      rw [wholeNumber, nothing]
      split <;> rfl
    rw [alone, wholeNumber]
    rcases Strtoll.strtoll_blank space blank rest with nothing | later
    · rw [nothing]
      split <;> rfl
    · exact if_pos (by omega)
  · have same : Strtoll.strtoll (v ++ t :: rest) = Strtoll.strtoll v := by
      simp only [Strtoll.strtoll, Strtoll.reading_append space blank rest]
    rw [wholeNumber, wholeNumber, same]

def Parsed.slices (parsed : Parsed) : List Slice :=
  parsed.method :: parsed.path :: parsed.headers.flatMap fun h => [h.name, h.val]

/-- The name and the value of a header are among the slices of the request. -/
theorem mem_slices {parsed : Parsed} {h : PhrHeader} (member : h ∈ parsed.headers)
    : h.name ∈ parsed.slices ∧ h.val ∈ parsed.slices := by
  simp only [Parsed.slices, List.mem_cons, List.mem_flatMap]
  exact ⟨.inr (.inr ⟨h, member, .inl rfl⟩), .inr (.inr ⟨h, member, .inr (.inl rfl)⟩)⟩

def isLineEnd (b : UInt8) : Bool := b = 13 || b = 10

/-- A well-formed header block, as the parser treats it: no proper prefix is complete, and
the whole block is parsed the same way whatever follows it. All strings lie inside; before
the method there can only be line ends, and each value ends before a space or a line end.
-/
structure HeaderBlock (phr : PhrParseRequest) where
  bytes : Bytes
  parsed : Parsed
  incomplete : ∀ n lastLen, lastLen < n → n < bytes.length → (phr (bytes.take n) lastLen).1 = -2
  complete : ∀ extra lastLen, lastLen < bytes.length
    → phr (bytes ++ extra) lastLen = ((bytes.length : Int), parsed)
  short : bytes.length < 2 ^ 31
  headers_le : parsed.headers.length ≤ HTTP_HEADERS_MAX
  inside : ∀ s ∈ parsed.slices, ∀ ofs ∈ s.ofs, ofs + s.len ≤ bytes.length
  null_len : ∀ s ∈ parsed.slices, s.ofs = none → s.len = 0
  methodOfs : Nat
  method : parsed.method.ofs = some methodOfs
  method_pos : 0 < parsed.method.len
  leading : ∀ b ∈ bytes.take methodOfs, isLineEnd b = true
  method_start : ∀ b ∈ bytes[methodOfs]?, isLineEnd b = false
  values : ∀ h ∈ parsed.headers, ∃ ofs, h.val.ofs = some ofs
    ∧ ∃ t, bytes[ofs + h.val.len]? = some t ∧ Strtoll.isSpace t = true

/-- A string's bytes in the text it was found in. -/
def Slice.read (s : Slice) (bytes : Bytes) : Bytes :=
  match s.ofs with
  | none => []
  | some ofs => (bytes.drop ofs).take s.len

/-- What is read from a slice is as long as the slice. -/
theorem HeaderBlock.length_read {phr : PhrParseRequest} (block : HeaderBlock phr) {s : Slice}
    (member : s ∈ block.parsed.slices)
    : (s.read block.bytes).length = s.len := by
  cases found : s.ofs with
  | none => simp [Slice.read, found, block.null_len s member found]
  | some ofs =>
      have inside := block.inside s member ofs found
      simp only [Slice.read, found, List.length_take, List.length_drop]
      omega

section Reading

variable {phr : PhrParseRequest} (block : HeaderBlock phr) {buf : Membuf} {rest : Bytes}
  (filled : buf.filled = block.bytes ++ rest)

include filled

/-- The header block is in the used part of the buffer. -/
theorem length_le_cur : block.bytes.length ≤ buf.cur := by
  have lengths := congrArg List.length filled
  simp only [Membuf.length_filled, List.length_append] at lengths
  omega

/-- A buffer that starts with the block has its bytes where the parser found them. -/
theorem load_block {ofs len : Nat} (inside : ofs + len ≤ block.bytes.length)
    : load buf.mem ofs len = (block.bytes.drop ofs).take len := by
  have used := length_le_cur block filled
  have whole := congrArg (fun text : Bytes => (text.drop ofs).take len) filled
  simp only [Membuf.filled] at whole
  rw [drop_load _ (by omega), take_load _ (by omega), Nat.zero_add,
    List.drop_append_of_le_length (by omega), List.take_append_of_le_length (by simp; omega)]
    at whole
  exact whole

/-- Read through the block's present address, a string has the bytes it was found with, and
so has each prefix of it.
-/
theorem text_prefix {s : Slice} (member : s ∈ block.parsed.slices) {n : Nat} (h : n ≤ s.len)
    : buf.text ⟨(s.at buf.base).ptr, n⟩ = some ((s.read block.bytes).take n) := by
  have used := length_le_cur block filled
  have extent := buf.cur_le_size
  have short := block.short
  cases found : s.ofs with
  | none =>
      have empty : n = 0 := Nat.le_zero.mp (block.null_len s member found ▸ h)
      simp [Membuf.text, empty]
  | some ofs =>
      have inside := block.inside s member ofs found
      simp only [Membuf.text, Slice.at, Slice.read, found,
        offset_at buf (show ofs < 2 ^ 64 by omega), List.take_take, Nat.min_eq_left h]
      split
      · next empty => simp [empty]
      · rw [if_pos (by omega), load_block block filled (by omega)]

/-- A slice stored at the buffer's address is read back from there. -/
theorem text_at {s : Slice} (member : s ∈ block.parsed.slices)
    : buf.text (s.at buf.base) = some (s.read block.bytes) := by
  have whole := text_prefix block filled member (Nat.le_refl s.len)
  rwa [List.take_of_length_le (Nat.le_of_eq (block.length_read member))] at whole

/-- The first header whose name agrees with the given one over the shorter length. -/
def HeaderBlock.findHeader (block : HeaderBlock phr) (name : Bytes) : Option PhrHeader :=
  block.parsed.headers.find? fun h =>
    let n := min h.name.len name.length
    (h.name.read block.bytes).take n == name.take n

/-- The body length the block declares, by its own bytes. -/
def HeaderBlock.declaredLen (block : HeaderBlock phr) : UInt64 :=
  match block.findHeader contentLength with
  | none => 0
  | some h => wholeNumber (h.val.read block.bytes) h.val.len

/-- The lookup among the stored headers finds the one that the lookup among the parsed ones
does, name by name.
-/
theorem findHeader_at (req : HttpRequest) (mem : req.mem = buf) (name : Bytes)
    : httpRequestFindHeader (req.store block.parsed) name
      = (block.findHeader name).map fun h => ⟨h.name.at buf.base, h.val.at buf.base⟩ := by
  subst mem
  rw [httpRequestFindHeader, HttpRequest.store, List.find?_map, HeaderBlock.findHeader]
  congr 1
  apply List.find?_congr
  intro h member
  have read := text_prefix block filled (mem_slices member).1
    (Nat.min_le_left h.name.len name.length)
  simp only [Function.comp_apply]
  rw [show (h.name.at req.mem.base).len = h.name.len from rfl, read]
  rfl

/-- Whatever follows the block in the buffer, the length found is the declared one. -/
theorem determineBodyLen_at (req : HttpRequest) (mem : req.mem = buf)
    : httpRequestDetermineBodyLen (req.store block.parsed) = block.declaredLen := by
  rw [httpRequestDetermineBodyLen, findHeader_at block filled req mem,
    HeaderBlock.declaredLen]
  cases found : block.findHeader contentLength with
  | none => rfl
  | some h =>
      obtain ⟨ofs, start, t, stop, space⟩ := block.values h (List.mem_of_find?_eq_some found)
      have inside := (List.getElem?_eq_some_iff.mp stop).1
      have used := length_le_cur block filled
      have extent := buf.cur_le_size
      have short := block.short
      have value : h.val.read block.bytes = (block.bytes.drop ofs).take h.val.len := by
        rw [Slice.read, start]
      have count : (h.val.read block.bytes).length = h.val.len := by
        rw [value, List.length_take, List.length_drop]
        omega
      -- the number is read in place, so it is the byte behind the value that ends it
      have ended : load buf.mem ofs (h.val.len + 1) = h.val.read block.bytes ++ [t] := by
        rw [load_block block filled (by omega), List.take_add_one, ← value, List.getElem?_drop,
          stop]
        rfl
      have text : buf.behind (h.val.at buf.base).ptr
          = h.val.read block.bytes
            ++ t :: load buf.mem (ofs + (h.val.len + 1)) (buf.size - ofs - (h.val.len + 1)) := by
        have split : buf.size - ofs = (h.val.len + 1) + (buf.size - ofs - (h.val.len + 1)) := by
          omega
        simp only [Membuf.behind, Slice.at, start, offset_at buf (show ofs < 2 ^ 64 by omega)]
        rw [split, load_add, ended, ← split, List.append_assoc, List.singleton_append]
      simp only [Option.map_some]
      subst mem
      change wholeNumber (req.mem.behind (h.val.at req.mem.base).ptr) h.val.len = _
      rw [text, ← count]
      exact (wholeNumber_append space _)

end Reading

end PrismHTTP.Server
