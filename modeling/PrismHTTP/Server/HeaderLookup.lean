import PrismHTTP.Server.ParsedNames

/-! Finding a header by its name.
The names are compared over the shorter of their lengths, so a header is also taken when its
name is only the start of the wanted one, or goes on behind it. The lookup is exact exactly
when a header with the name itself comes before each such header.
-/

namespace PrismHTTP.Server
open MemoryBlock

/-- A wide search finds what a strict one finds exactly when the first thing it takes is
strict, by induction on the list.
-/
theorem find?_eq_find?_iff {α : Type} {wide strict : α → Bool} {l : List α}
    (implied : ∀ a ∈ l, strict a = true → wide a = true)
    : l.find? wide = l.find? strict
      ↔ ∀ before a after, l = before ++ a :: after → wide a = true → strict a = false
          → ∃ b ∈ before, strict b = true := by
  induction l with
  | nil => simp
  | cons head l ih =>
      have later := ih fun a member => implied a (List.mem_cons_of_mem _ member)
      rcases exact_head : strict head with _ | _
      · rcases wide_head : wide head with _ | _
        -- the head plays no part
        · rw [List.find?_cons_of_neg (by simp [wide_head]),
            List.find?_cons_of_neg (by simp [exact_head]), later]
          constructor
          · rintro inner (_ | ⟨b, before⟩) a after split taken loose
            · cases split
              exact absurd taken (by simp [wide_head])
            · cases split
              obtain ⟨c, member, found⟩ := inner before a after rfl taken loose
              exact ⟨c, List.mem_cons_of_mem _ member, found⟩
          · rintro outer before a after rfl taken loose
            obtain ⟨c, member, found⟩ := outer (head :: before) a after rfl taken loose
            rcases List.mem_cons.mp member with rfl | member
            · exact absurd found (by simp [exact_head])
            · exact ⟨c, member, found⟩
        -- the head is taken and is wrong
        · rw [List.find?_cons_of_pos wide_head, List.find?_cons_of_neg (by simp [exact_head])]
          refine iff_of_false ?_ ?_
          · intro same
            have found := List.find?_some same.symm
            exact absurd found (by simp [exact_head])
          · intro outer
            obtain ⟨c, member, -⟩ := outer [] head l rfl wide_head exact_head
            exact absurd member (by simp)
      · rw [List.find?_cons_of_pos (implied head (List.mem_cons_self ..) exact_head),
          List.find?_cons_of_pos exact_head]
        refine iff_of_true rfl ?_
        rintro (_ | ⟨b, before⟩) a after split taken loose
        · cases split
          exact absurd loose (by simp [exact_head])
        · cases split
          exact ⟨head, List.mem_cons_self .., exact_head⟩

/-- Whether `strncmp` is zero over `n` bytes; behind a NUL in both it compares no more. -/
def strncmpEq : Nat → Bytes → Bytes → Bool
  | 0, _, _ => true
  | n + 1, c :: s, d :: t => c = d && (c = 0 || strncmpEq n s t)
  -- both strings have all the bytes compared
  | _ + 1, s, t => s == t

/-- Without a NUL in one of them all `n` bytes are compared. -/
theorem strncmpEq_eq {n : Nat} {s t : Bytes} (nulFree : ∀ c ∈ s, c ≠ 0)
    : strncmpEq n s t = (s.take n == t.take n) := by
  induction n generalizing s t with
  | zero => rfl
  | succ n ih =>
      rcases s with _ | ⟨c, s⟩
      · cases t <;> rfl
      · rcases t with _ | ⟨d, t⟩
        · rfl
        · obtain ⟨some_byte, later⟩ := List.forall_mem_cons.mp nulFree
          rw [strncmpEq, ih later, decide_eq_false some_byte, Bool.false_or,
            List.take_succ_cons, List.take_succ_cons, List.cons_beq_cons]
          rfl

section Names

variable {buf : Membuf} {t : Text} {n : Bytes}

/-- A string read from the buffer is as long as it was stored. -/
theorem Membuf.length_text (read : buf.text t = some n) : n.length = t.len := by
  rw [Membuf.text] at read
  split at read
  · next empty =>
    cases read
    exact empty.symm
  · split at read
    · cases read
      exact length_load ..
    · cases read

/-- A string that can be read has all its prefixes readable. -/
theorem Membuf.text_take (read : buf.text t = some n) {k : Nat} (h : k ≤ t.len)
    : buf.text ⟨t.ptr, k⟩ = some (n.take k) := by
  rw [Membuf.text] at read ⊢
  by_cases none_left : k = 0
  · rw [if_pos none_left, none_left, List.take_zero]
  · rw [if_neg (by omega)] at read
    rw [if_neg none_left]
    split at read
    · next inside =>
      cases read
      rw [if_pos (show buf.offset t.ptr + k ≤ buf.size by omega), take_load _ h]
    · cases read

end Names

/-- Every header's name can be read. -/
def HttpRequest.Named (req : HttpRequest) : Prop :=
  ∀ h ∈ req.headers, ∃ n, req.mem.text h.name = some n

/-- Another name that agrees with the wanted one as far as the shorter of them goes: it is
only the start of it, and may be empty, or has it as its start.
-/
def Resembles (n name : Bytes) : Prop := n ≠ name ∧ (n <+: name ∨ name <+: n)

/-- The first header whose name is the wanted one. -/
def HttpRequest.headerNamed (req : HttpRequest) (name : Bytes) : Option HttpHeader :=
  req.headers.find? fun h => req.mem.text h.name == some name

/-- The names of a parsed request can be read, and have token bytes alone. -/
theorem parsed_names (req : HttpRequest) (small : req.mem.cur < 2 ^ 64)
    : ∀ h ∈ (httpParseRequest phrParseRequest req).2.headers,
        ∃ n, req.mem.text h.name = some n ∧ ∀ c ∈ n, Phr.tokenChar c = true := by
  intro h member
  simp only [httpParseRequest, HttpRequest.store, List.mem_map] at member
  obtain ⟨header, stored, rfl⟩ := member
  obtain ⟨inside, null_len, token⟩ := phrParseRequest_names _ _ header stored
  have extent := req.mem.cur_le_size
  rcases place : header.name.ofs with _ | ofs
  · refine ⟨[], if_pos (null_len place), by simp⟩
  · have bound := inside ofs place
    rw [Membuf.length_filled] at bound
    have bytes : header.name.read req.mem.filled = load req.mem.mem ofs header.name.len := by
      simp only [Slice.read, place, Membuf.filled]
      rw [drop_load _ (by omega), take_load _ (by omega), Nat.zero_add]
    rw [bytes] at token
    simp only [Membuf.text, Slice.at, place,
      offset_at req.mem (show ofs < 2 ^ 64 by omega)]
    split
    · exact ⟨[], rfl, by simp⟩
    · exact ⟨_, if_pos (by omega), token⟩

/-- Every header of a parsed request has a name that can be read, by `parsed_names`. -/
theorem parsed_named (req : HttpRequest) (small : req.mem.cur < 2 ^ 64)
    : (httpParseRequest phrParseRequest req).2.Named := by
  intro h member
  obtain ⟨n, read, -⟩ := parsed_names req small h member
  exact ⟨n, read⟩

section Lookup

variable {req : HttpRequest} {name : Bytes}

/-- Two strings agree over the shorter length exactly when one starts with the other. -/
theorem take_min_eq_iff {s t : Bytes}
    : s.take (min s.length t.length) = t.take (min s.length t.length)
      ↔ s <+: t ∨ t <+: s := by
  rcases Nat.le_total s.length t.length with shorter | shorter
  · rw [Nat.min_eq_left shorter, List.take_length, List.prefix_iff_eq_take]
    constructor
    · exact .inl
    · rintro (same | other)
      · exact same
      · have whole := other.eq_of_length (Nat.le_antisymm other.length_le shorter)
        rw [whole, List.take_length]
  · rw [Nat.min_eq_right shorter, List.take_length, eq_comm, ← List.prefix_iff_eq_take]
    constructor
    · exact .inr
    · rintro (other | same)
      · have whole := other.eq_of_length (Nat.le_antisymm other.length_le shorter)
        exact whole ▸ List.prefix_refl _
      · exact same

/-- The test of the lookup, for a header with this name. -/
theorem compared_iff {h : HttpHeader} {n : Bytes} (read : req.mem.text h.name = some n)
    : (req.mem.text ⟨h.name.ptr, min h.name.len name.length⟩
        == some (name.take (min h.name.len name.length))) = true
      ↔ n <+: name ∨ name <+: n := by
  rw [Membuf.text_take read (Nat.min_le_left ..), ← Membuf.length_text read, beq_iff_eq,
    Option.some.injEq, take_min_eq_iff]

/-- On names of a parsed request the test is that of `strncmp`: there is no NUL in them. -/
theorem findHeader_strncmp (small : req.mem.cur < 2 ^ 64)
    : httpRequestFindHeader (httpParseRequest phrParseRequest req).2 name
      = (httpParseRequest phrParseRequest req).2.headers.find? fun h =>
          (req.mem.text h.name).any (strncmpEq (min h.name.len name.length) · name) := by
  apply List.find?_congr
  intro h member
  obtain ⟨n, read, token⟩ := parsed_names req small h member
  have nulFree : ∀ c ∈ n, c ≠ 0 := by
    rintro c found rfl
    exact absurd (token 0 found) (by decide)
  have part := Membuf.text_take read (Nat.min_le_left h.name.len name.length)
  change (req.mem.text ⟨h.name.ptr, _⟩ == _) = _
  rw [part, read, Option.any_some, strncmpEq_eq nulFree]
  rfl

/-- The lookup is exact exactly when, before each header whose name only resembles the wanted
one, there is a header with that name.
-/
theorem findHeader_exact_iff (named : req.Named) (name : Bytes)
    : httpRequestFindHeader req name = req.headerNamed name
      ↔ ∀ before h after n,
          req.headers = before ++ h :: after
          → req.mem.text h.name = some n
          → Resembles n name
          → ∃ e ∈ before, req.mem.text e.name = some name := by
  have exact_implied (h : HttpHeader) (_ : h ∈ req.headers)
      (found : (req.mem.text h.name == some name) = true)
      : (req.mem.text ⟨h.name.ptr, min h.name.len name.length⟩
          == some (name.take (min h.name.len name.length))) = true :=
    (compared_iff (beq_iff_eq.mp found)).mpr (.inl (List.prefix_refl _))
  refine (find?_eq_find?_iff exact_implied).trans ?_
  constructor
  · rintro only_exact before h after n split read ⟨other, agree⟩
    obtain ⟨e, member, found⟩ :=
      only_exact before h after split ((compared_iff read).mpr agree) (by simp [read, other])
    exact ⟨e, member, beq_iff_eq.mp found⟩
  · intro shadowed before h after split taken loose
    obtain ⟨n, read⟩ := named h (by simp [split])
    have other : n ≠ name := by
      rintro rfl
      exact absurd loose (by simp [read])
    obtain ⟨e, member, found⟩ :=
      shadowed before h after n split read ⟨other, (compared_iff read).mp taken⟩
    exact ⟨e, member, beq_iff_eq.mpr found⟩

end Lookup

section Sample

/-- "GET / HTTP/1.1" with the one header "Content: 5". -/
def sampleShortNameBytes : Bytes :=
  [0x47, 0x45, 0x54, 0x20, 0x2f, 0x20, 0x48, 0x54, 0x54, 0x50, 0x2f, 0x31, 0x2e, 0x31, 0x0a,
    0x43, 0x6f, 0x6e, 0x74, 0x65, 0x6e, 0x74, 0x3a, 0x20, 0x35, 0x0a, 0x0a]

/-- A connection's request after a text came in, before it is parsed. -/
def receivedText (text : Bytes) : HttpRequest where
  mem := {
    base := 4096
    mem := fun i => text.getD i 0
    size := text.length
    prev := 0
    cur := text.length
    prev_le_cur := Nat.zero_le _
    cur_le_size := Nat.le_refl _
  }
  minorVersion := 0
  method := .null
  path := .null
  headers := []
  body := 0
  bodyLen := 0

def sampleShortName : HttpRequest := receivedText sampleShortNameBytes

/-- The lookup for Content-Length in a parsed request is exact just when no other name gets in
its way.
-/
theorem findHeader_exact_sample
    : httpRequestFindHeader (httpParseRequest phrParseRequest sampleShortName).2 contentLength
        = (httpParseRequest phrParseRequest sampleShortName).2.headerNamed contentLength
      ↔ ∀ before h after n,
          (httpParseRequest phrParseRequest sampleShortName).2.headers = before ++ h :: after
          → sampleShortName.mem.text h.name = some n
          → Resembles n contentLength
          → ∃ e ∈ before, sampleShortName.mem.text e.name = some contentLength :=
  findHeader_exact_iff (parsed_named sampleShortName (by decide)) contentLength

/-- The request is parsed whole, has no Content-Length, and yet one is found. -/
theorem findHeader_inexact
    : (httpParseRequest phrParseRequest sampleShortName).1 = 27
      ∧ httpRequestFindHeader (httpParseRequest phrParseRequest sampleShortName).2 contentLength
        ≠ (httpParseRequest phrParseRequest sampleShortName).2.headerNamed contentLength := by
  refine ⟨by decide +kernel, fun same => ?_⟩
  have found := congrArg Option.isSome same
  revert found
  decide +kernel

end Sample

end PrismHTTP.Server
