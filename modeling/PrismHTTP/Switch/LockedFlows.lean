import PrismHTTP.Switch.FlowRewrite
import PrismHTTP.Switch.RuleEffects
import PrismHTTP.Switch.Datagram
import PrismHTTP.Library.Transition

/-! Segments of a locked flow are dropped in both directions.
The two lookups test the lock field differently, which agrees only because every reachable
rule holds 0 or 1 there.
-/

namespace PrismHTTP.Switch
open ByteLayout Transition

/-- The lock field of a new rule as the repository's clients encode it. -/
def PswReq.EncodesLock : PswReq → Prop
  | .add req => req.lock = 0 ∨ req.lock = 1
  | _ => True

/-- One frame through the switch, whose control request, if any, encodes its lock field. -/
def EncodedStep (conf : Config) (st : SwitchState) (md : XdpMd) (after : SwitchState) : Prop :=
  (∀ req, configReq conf md.frame = some req → req.EncodesLock)
  ∧ after = (valeLookup conf st md).state

/-- The states the switch reaches from empty tables by such frames. -/
def ReachedEncoded (conf : Config) (st : SwitchState) : Prop :=
  Reachable (· = .empty) (EncodedStep conf) st

/-- Every rule's lock field is a bit. -/
def LockBits (prism : PrismTable) : Prop :=
  ∀ key val, prism.lookup key = some val → val.locked = 0 ∨ val.locked = 1

/-- Requests keep lock fields bits: ADD by its encoding, the others by what they store. -/
theorem LockBits.execute {prism : PrismTable} {req : PswReq} (bits : LockBits prism)
    (encoded : req.EncodesLock)
    : LockBits (req.execute prism).1 := by
  intro key val found
  by_cases own : key = req.key
  · subst own
    rcases req.execute_lookup_key prism with ⟨stored, -, acts, now⟩ | ⟨-, same⟩
    · rw [now] at found
      subst found
      rcases PswReq.onRule_stored acts with ⟨add, rfl, -, rfl⟩ | ⟨old, was, -, -, -, lock⟩
      · exact encoded
      · rcases lock with kept | bit
        · rw [kept]
          exact bits _ _ was
        · exact bit
    · rw [same] at found
      exact bits _ _ found
  · rw [PswReq.execute_lookup_ne own] at found
    exact bits _ _ found

/-- Lock fields are bits in every reachable table, by induction on the frames. -/
theorem ReachedEncoded.lockBits {conf : Config} {st : SwitchState}
    (reached : ReachedEncoded conf st)
    : LockBits st.prism := by
  refine @Reachable.invariant _ _ _ _ (fun st => LockBits st.prism) st reached ?_ ?_
  · rintro st rfl key val found
    simp [SwitchState.empty] at found
  · rintro st md after bits ⟨encoded, rfl⟩
    rw [valeLookup_prism]
    cases carried : configReq conf md.frame with
    | none => exact bits
    | some req => exact bits.execute (encoded req carried)

/-- The table holds a locked rule for the key. -/
def LockedRule (prism : PrismTable) (key : PrismKey) : Prop :=
  ∃ val, prism.lookup key = some val ∧ val.locked ≠ 0

/-- The flow of a segment is locked: by the rule for its destination or, when there is none,
by the rule for its source.
-/
def LockedFlow (prism : PrismTable) (f : Frame) : Prop :=
  LockedRule prism (dstKey f)
  ∨ (prism.lookup (dstKey f) = none ∧ LockedRule prism (srcKey f))

/-- A segment of a locked flow is dropped and leaves no trace; every other segment reaches
the learning switch, whose decision is returned.
-/
theorem locked_flow_silent {conf : Config} {st : SwitchState} (md : XdpMd)
    (reached : ReachedEncoded conf st) (tcp : ParsesTcp md.frame)
    : (LockedFlow st.prism md.frame
        → valeLookup conf st md = ⟨valeBpfDrop, md.frame, st⟩)
      ∧ (¬ LockedFlow st.prism md.frame
        → ∃ ctx,
            valeLookupParse conf st md = .gotoL2 ctx
            ∧ (valeLookup conf st md).port = (l2Lookup ctx).dport) := by
  have bits := reached.lockBits
  refine ⟨?_, ?_⟩
  · rintro (⟨val, found, locked⟩ | ⟨absent, val, found, locked⟩)
    · simp [valeLookup, valeLookupParse_rules tcp, found, locked, PacketCtx.verdict,
        PacketCtx.pastTcp, PacketCtx.init]
    -- the source's rule is tested for one, so the bound on the lock byte is needed here
    · have one : val.locked = 1 := (bits _ _ found).resolve_left locked
      simp [valeLookup, valeLookupParse_rules tcp, absent, found, one, PacketCtx.verdict,
        PacketCtx.pastTcp, PacketCtx.init]
  · intro open_
    have reaches : ∃ ctx, valeLookupParse conf st md = .gotoL2 ctx := by
      rw [valeLookupParse_rules tcp]
      cases out : st.prism.lookup (dstKey md.frame) with
      | some val =>
          have zero : val.locked = 0 := by
            by_contra locked
            exact open_ (Or.inl ⟨val, out, locked⟩)
          simp [zero]
      | none =>
          cases into : st.prism.lookup (srcKey md.frame) with
          | some val =>
              have zero : val.locked = 0 := by
                by_contra locked
                exact open_ (Or.inr ⟨out, val, into, locked⟩)
              simp [zero]
          | none => simp
    obtain ⟨ctx, reaches⟩ := reaches
    refine ⟨ctx, reaches, ?_⟩
    rw [valeLookup, reaches]
    rfl

/-- The datagram that registers the sample rule with its lock set. -/
def sampleLockedAdd : XdpMd where
  frame := bareDatagram ⟨1, 2⟩ ⟨3, 4⟩ (PswReq.add { sampleAdd with lock := 1 }).store
  ingressIfindex := 1

/-- A segment of the flow is dropped after an ADD that locks its rule. -/
theorem locked_flow_silent_sampleSegment
    : let st := (valeLookup ⟨1, 2⟩ .empty sampleLockedAdd).state
      LockedFlow st.prism sampleSegment
      ∧ valeLookup ⟨1, 2⟩ st ⟨sampleSegment, 1⟩ = ⟨valeBpfDrop, sampleSegment, st⟩ := by
  have encoded : EncodedStep ⟨1, 2⟩ .empty sampleLockedAdd
      (valeLookup ⟨1, 2⟩ .empty sampleLockedAdd).state := by
    refine ⟨?_, rfl⟩
    intro req carried
    rw [sampleLockedAdd, configReq_bareDatagram] at carried
    obtain rfl := Option.some.inj carried
    exact Or.inr rfl
  have locked : LockedFlow (valeLookup ⟨1, 2⟩ .empty sampleLockedAdd).state.prism
      sampleSegment := by
    refine Or.inr ⟨by decide, _, rfl, by decide⟩
  have reached : ReachedEncoded ⟨1, 2⟩ (valeLookup ⟨1, 2⟩ .empty sampleLockedAdd).state :=
    .next (.start rfl) encoded
  exact ⟨locked, (locked_flow_silent ⟨sampleSegment, 1⟩ reached (by decide)).1 locked⟩

end PrismHTTP.Switch
