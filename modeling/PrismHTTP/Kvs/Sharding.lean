import PrismHTTP.Kvs.Jenkins

/-! The sharding proxy with the backends it was started with.
Their number is what the list of backends has entries, but the handler asserts that the slot
it picks is one of the first five. So each path is served exactly when there are at most five
backends: with more there is always a path that hashes to the sixth.
-/

namespace PrismHTTP.Kvs
open ByteLayout

/-- The parts of a string between the delimiters. -/
def split (str : Bytes) (del : UInt8) : List Bytes :=
  let parts : List Bytes × Bytes :=
    str.foldl
      (fun (result, subStr) c =>
        if c = del then (result ++ [subStr], []) else (result, subStr ++ [c]))
      ([], [])
  parts.1 ++ [parts.2]

/-- `http_server_handoff_data_t`, as far as it is configured. -/
structure BackendData where
  addr : UInt32
  port : UInt32
  deriving DecidableEq

/-- What the proxy calls at its start. The last two say whether memory is there and whether
the connection is under way.
-/
structure Libraries where
  inetAddr : Bytes → UInt32
  atoi : Bytes → Int32
  calloc : Nat → Bool
  startConnect : BackendData → Bool

def htons (port : UInt16) : UInt16 := (port <<< 8) ||| (port >>> 8)

def CONN_POOL_SIZE : UInt32 := 1

/-- The proxy's globals. -/
structure KvsProxy where
  nbackends : UInt32
  backends : List BackendData

/-- One backend of the list: without a colon there is no second part to read. -/
def Libraries.connectTo (libs : Libraries) (workerid : UInt32) (entry : Bytes)
    : Option BackendData :=
  match split entry 58 with
  | addr :: port :: _ =>
      let hoData : BackendData :=
        { addr := libs.inetAddr addr
          port := (htons ((libs.atoi port).toUInt32 + workerid).toUInt16).toUInt32 }
      if libs.startConnect hoData then some hoData else none
  | _ => none

/-- `none` is a failed assertion or an entry that cannot be read. The pool has one connection
for each backend, so the outer loop runs once.
-/
def startConnectToBackends (libs : Libraries) (besArg : Bytes) (workerid : UInt32)
    : Option KvsProxy :=
  let bes := split besArg 44
  let nbackends := UInt32.ofNat bes.length * CONN_POOL_SIZE
  if libs.calloc nbackends.toNat then
    ((bes.take nbackends.toNat).mapM (libs.connectTo workerid)).map (⟨nbackends, ·⟩)
  else
    none

/-- The handler with the proxy's globals; the remainder by zero ends the process, too. -/
def KvsProxy.requestHandler (proxy : KvsProxy) (m : Memory) (path pathLen : Nat)
    : Option ProxyAnswer :=
  if proxy.nbackends = 0 then none else kvsProxyRequestHandler m path pathLen proxy.nbackends

/-- The path `/9UhOSq1eP9T`. -/
def fifthPath : Bytes := [47, 57, 85, 104, 79, 83, 113, 49, 101, 80, 57, 84]

/-- It hashes to five, which no number of backends above five reduces. -/
theorem jenkinsBytes_fifthPath : jenkinsBytes fifthPath 0 = 5 := by decide +kernel

section Sharding

variable {libs : Libraries} {besArg : Bytes} {workerid : UInt32} {proxy : KvsProxy}

/-- The number of backends is that of the entries, as a 32-bit one. -/
theorem nbackends_eq (accepted : startConnectToBackends libs besArg workerid = some proxy)
    : proxy.nbackends.toNat = (split besArg 44).length % 2 ^ 32 := by
  simp only [startConnectToBackends] at accepted
  split at accepted
  · obtain ⟨backends, -, rfl⟩ := Option.map_eq_some_iff.mp accepted
    have single : CONN_POOL_SIZE.toNat = 1 := rfl
    rw [UInt32.toNat_mul, UInt32.toNat_ofNat', single]
    omega
  · cases accepted

/-- What the handler does, by the slot that the hash picks. -/
theorem requestHandler_eq (proxy : KvsProxy) (m : Memory) (path pathLen : Nat)
    : proxy.requestHandler m path pathLen
      = if proxy.nbackends ≠ 0 ∧ jenkinsHash m path pathLen 0 % proxy.nbackends ≤ 4 then
          some ⟨600, "Handoff", jenkinsHash m path pathLen 0 % proxy.nbackends⟩
        else
          none := by
  rw [KvsProxy.requestHandler, kvsProxyRequestHandler]
  by_cases none_there : proxy.nbackends = 0
  · rw [if_pos none_there, if_neg fun some_there => some_there.1 none_there]
  · rw [if_neg none_there]
    by_cases low : jenkinsHash m path pathLen 0 % proxy.nbackends ≤ 4
    · simp [none_there, low]
    · simp [low]

/-- Every path is handed to a backend of the list exactly when the list has at most five. -/
theorem sharding_never_aborts_iff
    (accepted : startConnectToBackends libs besArg workerid = some proxy)
    : (∀ m path pathLen,
        ∃ answer, proxy.requestHandler m path pathLen = some answer
          ∧ answer.handoffData.toNat < (split besArg 44).length)
      ↔ 1 ≤ (split besArg 44).length % 2 ^ 32 ∧ (split besArg 44).length % 2 ^ 32 ≤ 5 := by
  have count := nbackends_eq accepted
  have most := Nat.mod_le (split besArg 44).length (2 ^ 32)
  rw [← count] at most ⊢
  constructor
  · intro served
    obtain ⟨answer, answered, -⟩ := served (fun a => fifthPath.getD a 0) 0 12
    have hash : jenkinsHash (fun a => fifthPath.getD a 0) 0 12 0 = 5 :=
      (jenkinsHash_eq_bytes ..).trans jenkinsBytes_fifthPath
    rw [requestHandler_eq, hash] at answered
    split at answered
    · next passed =>
      obtain ⟨some_there, low⟩ := passed
      rw [Ne, ← UInt32.toNat_inj] at some_there
      rw [UInt32.le_iff_toNat_le, UInt32.toNat_mod] at low
      change 5 % proxy.nbackends.toNat ≤ 4 at low
      refine ⟨Nat.one_le_iff_ne_zero.mpr some_there, Nat.not_lt.mp fun more => ?_⟩
      rw [Nat.mod_eq_of_lt more] at low
      contradiction
    · cases answered
  · rintro ⟨least, few⟩ m path pathLen
    have slot : (jenkinsHash m path pathLen 0 % proxy.nbackends).toNat < proxy.nbackends.toNat := by
      rw [UInt32.toNat_mod]
      exact Nat.mod_lt _ least
    have answered : proxy.requestHandler m path pathLen
        = some ⟨600, "Handoff", jenkinsHash m path pathLen 0 % proxy.nbackends⟩ := by
      rw [requestHandler_eq, if_pos]
      refine ⟨?_, ?_⟩
      · rintro none_there
        rw [none_there] at least
        contradiction
      · rw [UInt32.le_iff_toNat_le]
        change _ ≤ 4
        omega
    exact ⟨_, answered, by simp only; omega⟩

end Sharding

section Sample

/-- Libraries that know one address and one port, and never fail. -/
def sampleLibraries : Libraries where
  inetAddr := fun s => if s = [49, 48, 46, 48, 46, 48, 46, 49] then 0x0100000a else 0xffffffff
  atoi := fun s => if s = [56, 48] then 80 else 0
  calloc := fun _ => true
  startConnect := fun _ => true

/-- "10.0.0.1:80" -/
def sampleBackend : Bytes := [49, 48, 46, 48, 46, 48, 46, 49, 58, 56, 48]

/-- A list of this backend, six times. -/
def sampleSixBackends : Bytes :=
  sampleBackend ++ (List.replicate 5 (44 :: sampleBackend)).flatten

/-- The proxy of six backends. -/
def sampleProxy : KvsProxy where
  nbackends := 6
  backends := .replicate 6 ⟨0x0100000a, 0x5000⟩

/-- The equivalence at six backends, where neither side holds. -/
theorem sharding_sample
    : (∀ m path pathLen,
        ∃ answer, sampleProxy.requestHandler m path pathLen = some answer
          ∧ answer.handoffData.toNat < (split sampleSixBackends 44).length)
      ↔ 1 ≤ (split sampleSixBackends 44).length % 2 ^ 32
        ∧ (split sampleSixBackends 44).length % 2 ^ 32 ≤ 5 :=
  @sharding_never_aborts_iff sampleLibraries sampleSixBackends 0 sampleProxy rfl

/-- The six are accepted, and a request for this path fails the assertion. -/
theorem sharding_aborts
    : startConnectToBackends sampleLibraries sampleSixBackends 0 = some sampleProxy
      ∧ sampleProxy.requestHandler (fun a => fifthPath.getD a 0) 0 12 = none := by
  refine ⟨rfl, ?_⟩
  decide +kernel

end Sample

end PrismHTTP.Kvs
