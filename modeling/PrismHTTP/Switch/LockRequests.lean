import PrismHTTP.Switch.LockedFlows

/-! The lock flag under the requests that are about it.
LOCK, UNLOCK and the unlocking CHOWN negate the flag they find instead of storing the one
they name, where ADD stores it. A repeated request undoes the one before.
-/

namespace PrismHTTP.Switch

/-- The flag a request names, given the flag it finds; ADD and DELETE are about more. -/
def PswReq.namedFlag : PswReq → UInt8 → Option UInt8
  | .lock _, _ => some 1
  | .unlock _, _ => some 0
  | .chown req, found => some (if req.unlock ≠ 0 then 0 else found)
  | .add _, _ | .delete _, _ => none

/-- A CHOWN that is not to unlock. -/
def PswReq.KeepsLock : PswReq → Prop
  | .chown req => req.unlock = 0
  | _ => False

instance : (req : PswReq) → Decidable req.KeepsLock
  | .chown req => inferInstanceAs (Decidable (req.unlock = 0))
  | .add _ | .delete _ | .lock _ | .unlock _ => inferInstanceAs (Decidable False)

/-- The rule is there afterwards, with that flag. -/
def FlagAfter (prism : PrismTable) (key : PrismKey) (flag : UInt8) : Prop :=
  ∃ val, prism.lookup key = some val ∧ val.locked = flag

/-- What the request makes of a rule's flag. -/
def PswReq.setFlag (req : PswReq) (found : UInt8) : UInt8 :=
  match req with
  | .lock _ => if found = 0 then 1 else 0
  | .unlock _ => if found = 1 then 0 else 1
  | .chown req => if req.unlock ≠ 0 then (if found = 1 then 0 else 1) else found
  | .add _ | .delete _ => found

section OneRequest

variable {req : PswReq} {flag found : UInt8} (named : req.namedFlag found = some flag)
  (bit : found = 0 ∨ found = 1)

include named

/-- The request finds a rule and stores one with its owner and the computed flag. -/
theorem PswReq.onRule_flag {val : PrismValue} (here : val.locked = found)
    : ∃ new, req.onRule (some val) = .ok (some new)
      ∧ new.locked = req.setFlag found
      ∧ (req.KeepsLock → req.onRule (some new) = .ok (some new)) := by
  subst here
  cases req with
  | add _ | delete _ => cases named
  | lock _ | unlock _ => exact ⟨_, rfl, rfl, False.elim⟩
  | chown req =>
      refine ⟨_, rfl, rfl, fun keeps => ?_⟩
      have kept : req.unlock = 0 := keeps
      simp [PswReq.onRule, kept]

include bit

/-- The computed flag is the other one, unless the request is not about it. -/
theorem PswReq.setFlag_eq_iff : req.setFlag found = flag ↔ req.KeepsLock ∨ found ≠ flag := by
  cases req with
  | add _ | delete _ => cases named
  | lock _ | unlock _ =>
      obtain rfl := Option.some.inj named
      rcases bit with rfl | rfl <;> simp [setFlag, KeepsLock]
  | chown req =>
      obtain rfl := Option.some.inj named
      by_cases kept : req.unlock = 0
      · simp [setFlag, KeepsLock, kept]
      · rcases bit with rfl | rfl <;> simp [setFlag, KeepsLock, kept]

/-- A request repeated leaves the flag exactly when it keeps the lock, request by request. -/
theorem PswReq.setFlag_setFlag_iff
    : req.setFlag (req.setFlag found) = req.setFlag found ↔ req.KeepsLock := by
  cases req with
  | add _ | delete _ => cases named
  | lock _ | unlock _ => rcases bit with rfl | rfl <;> simp [setFlag, KeepsLock]
  | chown req =>
      by_cases kept : req.unlock = 0
      · simp [setFlag, KeepsLock, kept]
      · rcases bit with rfl | rfl <;> simp [setFlag, KeepsLock, kept]

end OneRequest

section Table

variable {req : PswReq} {prism : PrismTable} {val new : PrismValue}

/-- A request that stores a rule under a present key changes the table in that place only. -/
theorem PswReq.execute_lookup (present : prism.lookup req.key = some val)
    (acts : req.onRule (some val) = .ok (some new)) (notAdd : ∀ add, req ≠ .add add)
    (key : PrismKey)
    : (req.execute prism).1.lookup key
      = if key = req.key then some new else prism.lookup key := by
  have feasible : req.Feasible prism := by
    cases req with
    | add add => exact absurd rfl (notAdd add)
    | delete _ | chown _ | lock _ | unlock _ => exact Option.isSome_of_eq_some present
  obtain ⟨-, stored, did, lookups⟩ := feasible.execute
  rw [present, acts] at did
  obtain rfl := Except.ok.inj did
  exact lookups key

/-- After the request the rule has the computed flag. -/
theorem PswReq.execute_flag {flag : UInt8} (named : req.namedFlag val.locked = some flag)
    (present : prism.lookup req.key = some val)
    : ∃ new, (∀ key, (req.execute prism).1.lookup key
        = if key = req.key then some new else prism.lookup key)
      ∧ new.locked = req.setFlag val.locked
      ∧ (req.KeepsLock → req.onRule (some new) = .ok (some new)) := by
  obtain ⟨new, acts, locked, again⟩ := req.onRule_flag named rfl
  refine ⟨new, req.execute_lookup present acts ?_, locked, again⟩
  rintro add rfl
  cases named

end Table

/-- A frame with a LOCK, UNLOCK or CHOWN of a present rule leaves the rule with the flag the
request names exactly when it found the other one; and a second such frame leaves the table
alone exactly when the request is a CHOWN that is not to unlock, which is the only one to keep
the flag.
-/
theorem lockRequest_iff (conf : Config) (st : SwitchState) (bits : LockBits st.prism)
    (req : PswReq) (val : PrismValue) (flag : UInt8)
    (present : st.prism.lookup req.key = some val)
    (named : req.namedFlag val.locked = some flag)
    (md again : XdpMd) (carried : configReq conf md.frame = some req)
    (repeated : configReq conf again.frame = some req)
    : (FlagAfter (valeLookup conf st md).state.prism req.key flag
        ↔ req.KeepsLock ∨ val.locked ≠ flag)
      ∧ ((valeLookup conf (valeLookup conf st md).state again).state.prism
          = (valeLookup conf st md).state.prism
        ↔ req.KeepsLock) := by
  have bit := bits req.key val present
  have once := valeLookup_prism conf st md
  have twice := valeLookup_prism conf (valeLookup conf st md).state again
  rw [carried] at once
  rw [repeated] at twice
  dsimp only at once twice
  rw [once] at twice
  obtain ⟨new, lookups, locked, keeps⟩ := req.execute_flag named present
  have found : (req.execute st.prism).1.lookup req.key = some new := by
    rw [lookups, if_pos rfl]
  constructor
  · rw [once, FlagAfter, ← req.setFlag_eq_iff named bit, ← locked, found]
    simp
  · rw [once, twice]
    -- the rule is still there, so the repeated request acts on it too
    have renamed : ∃ flag, req.namedFlag new.locked = some flag := by
      cases req with
      | add _ | delete _ => cases named
      | lock _ | unlock _ | chown _ => exact ⟨_, rfl⟩
    obtain ⟨flag', renamed⟩ := renamed
    obtain ⟨last, relookups, relocked, -⟩ := req.execute_flag renamed found
    constructor
    · intro same
      -- an unchanged table has an unchanged flag
      have there := relookups req.key
      rw [same, found, if_pos rfl] at there
      obtain rfl := Option.some.inj there
      rw [locked] at relocked
      exact (req.setFlag_setFlag_iff named bit).mp relocked.symm
    · intro kept
      ext1 key
      rw [req.execute_lookup found (keeps kept) (by rintro add rfl; cases named)]
      split
      · next here => rw [here, found]
      · rfl

/-- The request to lock the sample rule. -/
def sampleLock : PswReq := .lock { status := 0, peerAddr := 0x0200000a, peerPort := 0x901f }

def sampleLockDatagram : XdpMd := ⟨bareDatagram ⟨1, 2⟩ ⟨3, 4⟩ sampleLock.store, 1⟩

/-- A LOCK of an unlocked rule locks it. -/
theorem lockRequest_iff_sample
    : FlagAfter (valeLookup ⟨1, 2⟩ sampleRules sampleLockDatagram).state.prism
        sampleLock.key 1 := by
  have carried := configReq_bareDatagram ⟨1, 2⟩ ⟨3, 4⟩ sampleLock
  have bits : LockBits sampleRules.prism :=
    @LockBits.execute .empty (.add sampleAdd) (fun _ _ found => by simp at found) (Or.inl rfl)
  refine (lockRequest_iff ⟨1, 2⟩ sampleRules bits sampleLock sampleAdd.rule 1 rfl rfl
    sampleLockDatagram sampleLockDatagram carried carried).1.mpr ?_
  exact Or.inr (by decide)

/-- A second LOCK of the sample rule is executed and unlocks it. -/
theorem lockRequest_unlocks
    : let locked := (valeLookup ⟨1, 2⟩ sampleRules sampleLockDatagram).state
      configReq ⟨1, 2⟩ sampleLockDatagram.frame = some sampleLock
      ∧ FlagAfter locked.prism sampleLock.key 1
      ∧ (sampleLock.execute locked.prism).2 = 0
      ∧ FlagAfter (valeLookup ⟨1, 2⟩ locked sampleLockDatagram).state.prism sampleLock.key 0 := by
  have carried : configReq ⟨1, 2⟩ sampleLockDatagram.frame = some sampleLock :=
    configReq_bareDatagram ⟨1, 2⟩ ⟨3, 4⟩ sampleLock
  have once := valeLookup_prism ⟨1, 2⟩ sampleRules sampleLockDatagram
  have twice := valeLookup_prism ⟨1, 2⟩ (valeLookup ⟨1, 2⟩ sampleRules sampleLockDatagram).state
    sampleLockDatagram
  rw [carried] at once twice
  dsimp only at once twice ⊢
  refine ⟨carried, ?_, ?_, ?_⟩
  · rw [once]
    exact ⟨_, rfl, rfl⟩
  · rw [once]
    rfl
  · rw [twice, once]
    exact ⟨_, rfl, rfl⟩

end PrismHTTP.Switch
