import PrismHTTP.Switch.RequestExecution

/-! What each request does to the rules, as seen through table lookups.
A request either succeeds, replacing or removing the one rule under its key, or is refused
with a positive error number and changes nothing.
-/

namespace PrismHTTP.Switch

/-- The table states in which the requested change is made: a new key with room left for an
ADD, a present key for everything else.
-/
def PswReq.Feasible (req : PswReq) (prism : PrismTable) : Prop :=
  match req with
  | .add _ => prism.lookup req.key = none ∧ ¬ prism.Full
  | _ => (prism.lookup req.key).isSome

instance (req : PswReq) (prism : PrismTable) : Decidable (req.Feasible prism) := by
  unfold PswReq.Feasible
  cases req <;> infer_instance

/-- A feasible request finds a rule it can act on. -/
theorem PswReq.Feasible.onRule_ok {req : PswReq} {prism : PrismTable}
    (h : req.Feasible prism)
    : ∃ stored, req.onRule (prism.lookup req.key) = .ok stored := by
  cases req with
  | add req =>
      rw [h.1]
      exact ⟨_, rfl⟩
  | delete req | chown req | lock req | unlock req =>
      obtain ⟨val, found⟩ := Option.isSome_iff_exists.mp h
      rw [found]
      exact ⟨_, rfl⟩

/-- A feasible request returns zero and changes the rule under its own key only. -/
theorem PswReq.Feasible.execute {req : PswReq} {prism : PrismTable}
    (h : req.Feasible prism)
    : (req.execute prism).2 = 0
      ∧ ∃ stored,
          req.onRule (prism.lookup req.key) = .ok stored
          ∧ ∀ key,
              (req.execute prism).1.lookup key
              = if key = req.key then stored else prism.lookup key := by
  obtain ⟨stored, acts⟩ := h.onRule_ok
  cases stored with
  | some val =>
      have fits : (prism.update req.key val).isSome := by
        rw [BoundedMap.update_isSome]
        cases req with
        | add req => exact Or.inr h.2
        | delete req | chown req | lock req | unlock req => exact Or.inl h
      obtain ⟨updated, did⟩ := Option.isSome_iff_exists.mp fits
      simp only [PswReq.execute, acts, mapUpdate, did, true_and]
      exact ⟨some val, rfl, BoundedMap.lookup_update did⟩
  | none =>
      have present : (prism.lookup req.key).isSome := by
        cases found : prism.lookup req.key with
        | some val => rfl
        | none => cases req <;> simp [onRule, found] at acts
      obtain ⟨deleted, did⟩ := Option.isSome_iff_exists.mp (BoundedMap.delete_isSome.mpr present)
      simp only [PswReq.execute, acts, mapDelete, did, true_and]
      exact ⟨none, rfl, BoundedMap.lookup_delete did⟩

/-- The positive error number of a refused request. -/
def PswReq.refusal (req : PswReq) (prism : PrismTable) : Int :=
  match req with
  | .add _ => if (prism.lookup req.key).isSome then eexist else e2big
  | _ => enoent

/-- A refusal is a positive error number, request by request. -/
theorem PswReq.refusal_pos (req : PswReq) (prism : PrismTable)
    : 0 < req.refusal prism := by
  unfold refusal eexist e2big enoent
  split
  · split <;> decide
  · decide

/-- An infeasible request leaves the table as it was and returns its negated error number. -/
theorem PswReq.execute_refused {req : PswReq} {prism : PrismTable}
    (h : ¬ req.Feasible prism)
    : req.execute prism = (prism, -req.refusal prism) := by
  unfold PswReq.execute PswReq.refusal
  cases found : prism.lookup req.key with
  | none =>
      cases req with
      | add req =>
          have full : prism.Full := by
            by_contra room
            exact h ⟨found, room⟩
          simp [onRule, mapUpdate, BoundedMap.update_full found full]
      | delete req | chown req | lock req | unlock req => simp [onRule]
  | some val =>
      cases req with
      | add req => simp [onRule]
      | delete req | chown req | lock req | unlock req =>
          exact absurd (by simp [Feasible, found]) h

/-- A request returns zero exactly when the table admits it. -/
theorem PswReq.execute_result_zero_iff {req : PswReq} {prism : PrismTable}
    : (req.execute prism).2 = 0 ↔ req.Feasible prism := by
  constructor
  · intro zero
    by_contra infeasible
    rw [execute_refused infeasible] at zero
    have positive := req.refusal_pos prism
    simp only at zero
    omega
  · exact fun h => h.execute.1

/-- A request returns zero or a negative error number. -/
theorem PswReq.execute_nonpos (req : PswReq) (prism : PrismTable)
    : (req.execute prism).2 ≤ 0 := by
  by_cases feasible : req.Feasible prism
  · rw [feasible.execute.1]
  · have positive := req.refusal_pos prism
    rw [execute_refused feasible]
    simp only
    omega

/-- Rules under other keys survive every request. -/
theorem PswReq.execute_lookup_ne {req : PswReq} {prism : PrismTable} {key : PrismKey}
    (other : key ≠ req.key)
    : (req.execute prism).1.lookup key = prism.lookup key := by
  by_cases feasible : req.Feasible prism
  · obtain ⟨-, stored, -, lookups⟩ := feasible.execute
    rw [lookups, if_neg other]
  · rw [execute_refused feasible]

/-- The rule under a request's key afterwards: what the request makes of the rule it found,
or that rule itself when it is refused.
-/
theorem PswReq.execute_lookup_key (req : PswReq) (prism : PrismTable)
    : (∃ stored,
        req.Feasible prism
        ∧ req.onRule (prism.lookup req.key) = .ok stored
        ∧ (req.execute prism).1.lookup req.key = stored)
      ∨ (¬ req.Feasible prism
        ∧ (req.execute prism).1.lookup req.key = prism.lookup req.key) := by
  by_cases feasible : req.Feasible prism
  · obtain ⟨-, stored, acts, lookups⟩ := feasible.execute
    exact Or.inl ⟨stored, feasible, acts, by rw [lookups, if_pos rfl]⟩
  · exact Or.inr ⟨feasible, by rw [execute_refused feasible]⟩

/-- The server a rule directs its peer's segments to. -/
structure Owner where
  addr : UInt32
  port : UInt16
  mac : Mac
  deriving DecidableEq

def PrismValue.owner (val : PrismValue) : Owner := ⟨val.ownerAddr, val.ownerPort, val.ownerMac⟩

def PswAddReq.owner (req : PswAddReq) : Owner := ⟨req.ownerAddr, req.ownerPort, req.ownerMac⟩

def PswChownReq.owner (req : PswChownReq) : Owner :=
  ⟨req.ownerAddr, req.ownerPort, req.ownerMac⟩

/-- The owner after a request made its change: only CHOWN names a new one. -/
def PswReq.newOwner (req : PswReq) (owner : Owner) : Owner :=
  match req with
  | .chown req => req.owner
  | _ => owner

/-- A stored rule is a new one from ADD, or the old one with its virtual endpoint kept, the
owner a CHOWN names and a lock field that is kept or a bit.
-/
theorem PswReq.onRule_stored {req : PswReq} {found : Option PrismValue} {new : PrismValue}
    (h : req.onRule found = .ok (some new))
    : (∃ add, req = .add add ∧ found = none ∧ new = add.rule)
      ∨ ∃ old,
          found = some old
          ∧ new.virtualAddr = old.virtualAddr
          ∧ new.virtualPort = old.virtualPort
          ∧ new.owner = req.newOwner old.owner
          ∧ (new.locked = old.locked ∨ new.locked = 0 ∨ new.locked = 1) := by
  -- the three toggles store one of the two bits whatever they find
  have bit {p : Prop} [Decidable p] (a b : UInt8)
      : (if p then a else b) = a ∨ (if p then a else b) = b := by
    split
    · exact Or.inl rfl
    · exact Or.inr rfl
  cases found with
  | none =>
      cases req with
      | add req =>
          obtain rfl : req.rule = new := by simpa [onRule] using h
          exact Or.inl ⟨req, rfl, rfl, rfl⟩
      | delete req | chown req | lock req | unlock req => simp [onRule] at h
  | some old =>
      refine Or.inr ⟨old, rfl, ?_⟩
      cases req with
      | add req | delete req => simp [onRule] at h
      | chown req =>
          simp only [onRule, Except.ok.injEq, Option.some.injEq] at h
          subst h
          refine ⟨rfl, rfl, rfl, ?_⟩
          by_cases unlock : req.unlock = 0
          · exact Or.inl (by simp [unlock])
          · exact Or.inr (by simpa [unlock] using bit 0 1)
      | lock req =>
          simp only [onRule, Except.ok.injEq, Option.some.injEq] at h
          subst h
          exact ⟨rfl, rfl, rfl, Or.inr (bit 1 0).symm⟩
      | unlock req =>
          simp only [onRule, Except.ok.injEq, Option.some.injEq] at h
          subst h
          exact ⟨rfl, rfl, rfl, Or.inr (bit 0 1)⟩

end PrismHTTP.Switch
