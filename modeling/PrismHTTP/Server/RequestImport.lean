import PrismHTTP.Server.RequestTransfer

/-! What the importer makes of any message from the wire.
It checks nothing: the counts, the offsets and the lengths are used as they come. So the
request is in bounds exactly when the message was.
-/

namespace PrismHTTP.Server
open MemoryBlock

/-- A string of a message, by its offset and its length in the message's bytes. -/
structure Place where
  ofs : UInt64
  len : UInt64

/-- The strings of a message, with those of the headers it counts. -/
def HTTPReq.places (ex : HTTPReq) : List Place :=
  ⟨ex.methodOfs, ex.methodLen⟩ :: ⟨ex.pathOfs, ex.pathLen⟩ :: ⟨ex.bodyOfs, ex.bodyLen⟩
  :: (ex.headers.take ex.nheaders.toNat).flatMap fun h =>
      [⟨h.nameOfs, h.nameLen⟩, ⟨h.valOfs, h.valLen⟩]

/-- The message fits a fresh buffer and counts no more headers than it has and than the
request has room for; each string that is not empty ends inside its bytes, without wrapping.
-/
structure HTTPReq.WellFormed (ex : HTTPReq) : Prop where
  fits : ex.buf.length ≤ requestBufferSize
  counted : ex.nheaders.toNat ≤ HTTP_HEADERS_MAX
  present : ex.nheaders.toNat ≤ ex.headers.length
  inside
    : ∀ place ∈ ex.places, place.len ≠ 0 → place.ofs.toNat + place.len.toNat ≤ ex.buf.length

/-- The request has the message's bytes in its buffer, no header that is not there, and all
its strings inside those bytes.
-/
structure InBounds (ex : HTTPReq) (after : HttpRequest) : Prop where
  bytes : after.mem.filled = ex.buf
  headers_le : after.headers.length ≤ HTTP_HEADERS_MAX
  headers_present : after.headers.length ≤ ex.headers.length
  inside
    : ∀ t ∈ after.texts, t.len ≠ 0 → after.mem.offset t.ptr + t.len ≤ ex.buf.length

/-- A string of the message, as an address and a length in the request. -/
def Place.at (place : Place) (base : UInt64) : Text := ⟨base + place.ofs, place.len.toNat⟩

/-- An address in the buffer has the offset it was made from, however large. -/
theorem offset_place (place : Place) (mem : Membuf)
    : mem.offset (place.at mem.base).ptr = place.ofs.toNat := by
  rw [Membuf.offset, Place.at, UInt64.add_comm, UInt64.add_sub_cancel]

/-- A string has no length exactly when its place has none. -/
theorem len_place_ne_zero_iff (place : Place) (base : UInt64)
    : (place.at base).len ≠ 0 ↔ place.len ≠ 0 := by
  rw [Ne, Ne, ← UInt64.toNat_inj]
  rfl

section Strings

variable {ex : HTTPReq} {mem : Membuf}

/-- The body is at its place, or it is empty and NULL. -/
theorem bodyText_imported
    : (ex.imported mem).bodyText = Place.at ⟨ex.bodyOfs, ex.bodyLen⟩ mem.base
      ∨ (ex.bodyLen = 0 ∧ (ex.imported mem).bodyText.len = 0) := by
  by_cases empty : ex.bodyLen = 0
  · refine .inr ⟨empty, ?_⟩
    simp only [HttpRequest.bodyText, HTTPReq.imported, empty]
    rfl
  · refine .inl ?_
    simp only [HttpRequest.bodyText, HTTPReq.imported, if_neg empty]
    rfl

/-- The other strings of the request are those of the message. -/
theorem texts_imported
    : ∃ method path lines,
        (ex.imported mem).texts = method :: path :: (ex.imported mem).bodyText :: lines
        ∧ method = Place.at ⟨ex.methodOfs, ex.methodLen⟩ mem.base
        ∧ path = Place.at ⟨ex.pathOfs, ex.pathLen⟩ mem.base
        ∧ lines
          = ((ex.headers.take ex.nheaders.toNat).flatMap fun h =>
              [(⟨h.nameOfs, h.nameLen⟩ : Place), ⟨h.valOfs, h.valLen⟩]).map
                (Place.at · mem.base) := by
  refine ⟨_, _, _, rfl, rfl, rfl, ?_⟩
  simp only [HTTPReq.imported, List.flatMap_map, List.map_flatMap]
  rfl

/-- The imported strings are inside the buffer exactly when the places of the message are,
string by string.
-/
theorem inside_iff (bound : Nat)
    : (∀ t ∈ (ex.imported mem).texts, t.len ≠ 0 → mem.offset t.ptr + t.len ≤ bound)
      ↔ ∀ place ∈ ex.places,
          place.len ≠ 0 → place.ofs.toNat + place.len.toNat ≤ bound := by
  have one (place : Place)
      : ((place.at mem.base).len ≠ 0
          → mem.offset (place.at mem.base).ptr + (place.at mem.base).len ≤ bound)
        ↔ (place.len ≠ 0 → place.ofs.toNat + place.len.toNat ≤ bound) := by
    rw [len_place_ne_zero_iff, offset_place]
    rfl
  obtain ⟨method, path, lines, texts, rfl, rfl, rfl⟩ := @texts_imported ex mem
  simp only [texts, HTTPReq.places, List.forall_mem_cons, List.forall_mem_map, one]
  refine and_congr_right' (and_congr_right' (and_congr_left' ?_))
  rcases @bodyText_imported ex mem with placed | ⟨empty, none_len⟩
  · rw [placed]
    exact one _
  · exact iff_of_true (fun some_len => absurd none_len some_len)
      (fun some_len => absurd empty some_len)

end Strings

/-- Import of a message into a fresh request ends with a request in bounds exactly when the
message is well formed; it has no other way to end than to run out of bounds.
-/
theorem import_inBounds_iff (ex : HTTPReq) (block grown : Block)
    : (∃ after,
        httpRequestImport (httpRequestInit block) ex grown = some after ∧ InBounds ex after)
      ↔ ex.WellFormed := by
  constructor
  · rintro ⟨after, imported, bounds⟩
    have fits := fits_of_imported imported
    obtain ⟨⟨counted, present⟩, mem, -, rfl⟩ := httpRequestImport_eq_some_iff.mp imported
    exact ⟨fits, counted, present, (inside_iff _).mp bounds.inside⟩
  · rintro ⟨fits, counted, present, inside⟩
    have enough : ex.buf.length ≤ (httpRequestInit block).mem.avail := fits
    have kept : (httpRequestInit block).mem.roomFor ex.buf.length grown
        = (httpRequestInit block).mem := if_neg (Nat.not_lt_of_le enough)
    obtain ⟨mem, consumed, filled, -⟩ := Membuf.consume_receive enough
    have count : ((ex.headers.take ex.nheaders.toNat).map (HTTPHeader.at · mem.base)).length
        = ex.nheaders.toNat := by
      rw [List.length_map, List.length_take, Nat.min_eq_left present]
    refine ⟨ex.imported mem, httpRequestImport_eq_some_iff.mpr ⟨⟨counted, present⟩, mem, ?_, rfl⟩,
      ?_⟩
    · rw [kept]
      exact consumed
    · exact {
        bytes := filled
        headers_le := Nat.le_trans (Nat.le_of_eq count) counted
        headers_present := Nat.le_trans (Nat.le_of_eq count) present
        inside := (inside_iff _).mpr inside
      }

section Sample

/-- A message of seventeen headers, all of them present and empty. -/
def sampleManyHeaders : HTTPReq where
  buf := []
  minorVersion := 1
  methodOfs := 0
  methodLen := 0
  pathOfs := 0
  pathLen := 0
  bodyOfs := 0
  bodyLen := 0
  nheaders := 17
  headers := .replicate 17 ⟨0, 0, 0, 0⟩

/-- The loop writes behind the last slot. Adding a header to a response is an error there. -/
theorem import_outOfBounds
    : ¬ ∃ after,
      httpRequestImport (httpRequestInit ⟨65536, fun _ => 0⟩) sampleManyHeaders
        ⟨0, fun _ => 0⟩ = some after := by
  rintro ⟨after, imported⟩
  obtain ⟨⟨counted, -⟩, -⟩ := httpRequestImport_eq_some_iff.mp imported
  revert counted
  decide

end Sample

end PrismHTTP.Server
