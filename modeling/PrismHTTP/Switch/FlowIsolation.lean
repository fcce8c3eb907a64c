import PrismHTTP.Switch.FlowRewrite
import PrismHTTP.Switch.RuleEffects

/-! Which frames a rule reaches.
Rules are kept by the client's endpoint alone, so a rule reaches every segment that goes to
that endpoint and every segment that comes from it towards a destination without a rule, and
no other.
-/

namespace PrismHTTP.Switch

/-- The rule for a key is the one that decides a frame, if the table has it. -/
def Reaches (prism : PrismTable) (key : PrismKey) (f : Frame) : Prop :=
  dstKey f = key ∨ (srcKey f = key ∧ prism.lookup (dstKey f) = none)

instance (prism : PrismTable) (key : PrismKey) (f : Frame) : Decidable (Reaches prism key f) :=
  inferInstanceAs (Decidable (_ ∨ _))

/-- The tables differ at one key at most. -/
def SameExcept (key : PrismKey) (prism other : PrismTable) : Prop :=
  ∀ k, k ≠ key → other.lookup k = prism.lookup k

/-- The frame goes into the L2 decision as it came. -/
def ReachesL2 (conf : Config) (st : SwitchState) (md : XdpMd) : Prop :=
  ∃ ctx, valeLookupParse conf st md = .gotoL2 ctx ∧ ctx.frame = md.frame

section Frames

variable {conf : Config} {st : SwitchState} {md : XdpMd} (tcp : ParsesTcp md.frame)

include tcp

/-- A frame without a rule that reaches it goes into the L2 decision as it came. -/
theorem reachesL2_of_unreached
    (unreached : ∀ key val, st.prism.lookup key = some val → ¬ Reaches st.prism key md.frame)
    : ReachesL2 conf st md := by
  have out : st.prism.lookup (dstKey md.frame) = none := by
    cases found : st.prism.lookup (dstKey md.frame) with
    | none => rfl
    | some val => exact absurd (Or.inl rfl) (unreached _ val found)
  have into : st.prism.lookup (srcKey md.frame) = none := by
    cases found : st.prism.lookup (srcKey md.frame) with
    | none => rfl
    | some val => exact absurd (Or.inr ⟨rfl, out⟩) (unreached _ val found)
  refine ⟨.pastTcp st md, ?_, rfl⟩
  rw [valeLookupParse_rules tcp, out, into]

omit tcp in
/-- The L2 decision does not read the rules. -/
theorem l2Lookup_setPrism (ctx : PacketCtx) (other : PrismTable)
    : l2Lookup { ctx with prism := other } = { l2Lookup ctx with prism := other } := by
  unfold l2Lookup
  dsimp only
  repeat' split
  all_goals rfl

omit tcp in
/-- Nor does the verdict on its result. -/
theorem l2Verdict_setPrism (ctx : PacketCtx) (other : PrismTable)
    : (let ctx := l2Lookup { ctx with prism := other }; ctx.verdict ctx.dport)
      = (let ctx := l2Lookup ctx
        { ctx.verdict ctx.dport with state := ⟨other, ctx.l2⟩ }) := by
  rw [l2Lookup_setPrism]
  rfl

/-- The rule for a key is seen by the frames it reaches only: whatever that key's entry is,
every other frame has the same verdict.
-/
theorem valeLookup_sameExcept {key : PrismKey} {other : PrismTable}
    (same : SameExcept key st.prism other) (unreached : ¬ Reaches st.prism key md.frame)
    : valeLookup conf ⟨other, st.l2⟩ md
      = ⟨(valeLookup conf st md).port, (valeLookup conf st md).frame,
          ⟨other, (valeLookup conf st md).state.l2⟩⟩ := by
  -- both lookups are for keys at which the tables agree
  have notDst : dstKey md.frame ≠ key := fun goes => unreached (Or.inl goes)
  have out := same _ notDst
  rw [valeLookup, valeLookup, valeLookupParse_rules tcp, valeLookupParse_rules tcp]
  dsimp only
  rw [out]
  cases found : st.prism.lookup (dstKey md.frame) with
  | some val =>
      by_cases locked : val.locked = 0
      · simp only [locked, ne_eq, not_true_eq_false, ↓reduceIte]
        exact l2Verdict_setPrism
          { PacketCtx.pastTcp st md with frame := outRewrite md.frame val, matched := true } other
      · simp only [locked, ne_eq, not_false_eq_true, ↓reduceIte]
        rfl
  | none =>
      have notSrc : srcKey md.frame ≠ key := fun comes => unreached (Or.inr ⟨comes, found⟩)
      dsimp only
      rw [same _ notSrc]
      cases st.prism.lookup (srcKey md.frame) with
      | some val =>
          by_cases locked : val.locked = 1
          · simp only [locked, ↓reduceIte]
            rfl
          · simp only [locked, ↓reduceIte]
            exact l2Verdict_setPrism
              { PacketCtx.pastTcp st md with frame := inRewrite md.frame val, matched := true }
              other
      | none => exact l2Verdict_setPrism (.pastTcp st md) other

end Frames

/-- A frame is rewritten or dropped on account of a rule only when it goes to the rule's key,
or comes from it towards a destination without a rule: without such a rule it goes into the
L2 decision as it came, and the entry of any key that does not reach it makes no difference.
-/
theorem rule_touches_own_endpoint (conf : Config) (st : SwitchState) (md : XdpMd)
    (tcp : ParsesTcp md.frame)
    : ((∀ key val, st.prism.lookup key = some val → ¬ Reaches st.prism key md.frame)
        → ReachesL2 conf st md)
      ∧ ∀ key other,
          SameExcept key st.prism other
          → ¬ Reaches st.prism key md.frame
          → valeLookup conf ⟨other, st.l2⟩ md
            = ⟨(valeLookup conf st md).port, (valeLookup conf st md).frame,
                ⟨other, (valeLookup conf st md).state.l2⟩⟩ :=
  ⟨reachesL2_of_unreached tcp, fun _ _ => valeLookup_sameExcept tcp⟩

/-- A two-byte segment from the sample peer to another server, 10.0.0.9:443. -/
def sampleElsewhere : Frame :=
  [2, 0, 0, 0, 0, 9, 2, 0, 0, 0, 0, 1, 8, 0,
    69, 0, 0, 42, 0, 1, 0, 0, 64, 6, 102, 195, 10, 0, 0, 2, 10, 0, 0, 9,
    31, 144, 1, 187, 0, 0, 0, 1, 0, 0, 0, 2, 80, 16, 1, 0, 17, 17, 0, 0,
    104, 105]

/-- The answer from that server. -/
def sampleAnswer : Frame :=
  [2, 0, 0, 0, 0, 1, 2, 0, 0, 0, 0, 9, 8, 0,
    69, 0, 0, 42, 0, 1, 0, 0, 64, 6, 102, 195, 10, 0, 0, 9, 10, 0, 0, 2,
    1, 187, 31, 144, 0, 0, 0, 2, 0, 0, 0, 3, 80, 16, 1, 0, 17, 15, 0, 0,
    104, 105]

/-- The rule of another client, on port 8081 of the same host. -/
def sampleOtherAdd : PswAddReq := { sampleAdd with peerPort := 0x911f }

/-- A segment between other endpoints is forwarded as if the rule were not there. -/
theorem rule_touches_own_endpoint_sample
    : ReachesL2 ⟨1, 2⟩ .empty ⟨sampleElsewhere, 1⟩
      ∧ (valeLookup ⟨1, 2⟩ ⟨((PswReq.add sampleOtherAdd).execute .empty).1, .empty⟩
          ⟨sampleElsewhere, 1⟩).frame
        = (valeLookup ⟨1, 2⟩ .empty ⟨sampleElsewhere, 1⟩).frame := by
  have touches := rule_touches_own_endpoint ⟨1, 2⟩ .empty ⟨sampleElsewhere, 1⟩ (by decide)
  refine ⟨touches.1 (fun _ _ found => by simp [SwitchState.empty] at found), ?_⟩
  have same : SameExcept (PswReq.add sampleOtherAdd).key .empty
      ((PswReq.add sampleOtherAdd).execute .empty).1 :=
    fun _ other => PswReq.execute_lookup_ne other
  exact (congrArg Verdict.frame (touches.2 _ _ same (by decide)) :)

/-- The sample rule, for a connection to 10.0.0.1:80 that 10.0.0.3:8090 owns, rewrites the
same client's segments to another server and that server's answers.
-/
theorem rule_touches_other_flow
    : let rule := sampleAdd.rule
      (ParsesTcp sampleElsewhere
        ∧ srcKey sampleElsewhere = (PswReq.add sampleAdd).key
        ∧ ipDst sampleElsewhere ≠ rule.virtualAddr
        ∧ (valeLookup ⟨1, 2⟩ sampleRules ⟨sampleElsewhere, 1⟩).frame ≠ sampleElsewhere)
      ∧ ParsesTcp sampleAnswer
      ∧ dstKey sampleAnswer = (PswReq.add sampleAdd).key
      ∧ ipSrc sampleAnswer ≠ rule.ownerAddr
      ∧ (valeLookup ⟨1, 2⟩ sampleRules ⟨sampleAnswer, 1⟩).frame ≠ sampleAnswer := by
  decide +kernel

end PrismHTTP.Switch
