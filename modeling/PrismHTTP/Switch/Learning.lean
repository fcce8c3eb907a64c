import PrismHTTP.Library.LastRecord
import PrismHTTP.Library.Transition
import PrismHTTP.Switch.FlowRewrite
import PrismHTTP.Switch.ReplyStatus

/-! The L2 stage sends frames to the port their station was last heard on.
A frame to a group address leaves the stage before its source is learned, so a station that
moves and is heard only by such frames is still looked for at its old port.
-/

namespace PrismHTTP.Switch
open ByteLayout LastRecord Transition

/-- A multicast address or the broadcast address. -/
def IsGroup (mac : Mac) : Prop := mac[0] &&& 1 ≠ 0

instance (mac : Mac) : Decidable (IsGroup mac) := inferInstanceAs (Decidable (_ ≠ _))

/-- A destination is a group address just when its first byte is odd. -/
theorem isGroup_ethDst {f : Frame} : IsGroup (ethDst f) ↔ get8 f 0 &&& 1 ≠ 0 := by
  simp [IsGroup, ethDst, getRun]

/-- Frames to group addresses are flooded, and nothing is learned from them. -/
theorem l2Lookup_group {ctx : PacketCtx} (group : IsGroup (ethDst ctx.frame))
    : l2Lookup ctx = { ctx with dport := valeBpfBroadcast } :=
  if_pos (isGroup_ethDst.mp group)

/-- Other frames put their source at their ingress port, as long as the table has room, and
go where the table then has their destination.
-/
theorem l2Lookup_unicast {ctx : PacketCtx} (unicast : ¬ IsGroup (ethDst ctx.frame))
    (room : ¬ ctx.l2.Full)
    : ∃ l2 : L2Table,
        l2Lookup ctx
          = { ctx with l2, dport := (l2.lookup (ethDst ctx.frame)).getD valeBpfBroadcast }
        ∧ ∀ mac, l2.lookup mac
          = if mac = ethSrc ctx.frame then some ctx.sport else ctx.l2.lookup mac := by
  have fits : (ctx.l2.update (ethSrc ctx.frame) ctx.sport).isSome :=
    BoundedMap.update_isSome.mpr (.inr room)
  obtain ⟨learned, did⟩ := Option.isSome_iff_exists.mp fits
  have lookups := BoundedMap.lookup_update did
  have ports : ¬ get8 ctx.frame 0 &&& 1 ≠ 0 := isGroup_ethDst.not.mp unicast
  cases known : ctx.l2.lookup (ethSrc ctx.frame) with
  | none =>
      refine ⟨learned, ?_, lookups⟩
      simp only [l2Lookup, if_neg ports, known, mapUpdate, did, ne_eq, not_true_eq_false,
        ↓reduceIte]
      cases learned.lookup (ethDst ctx.frame) <;> rfl
  | some port =>
      by_cases here : port = ctx.sport
      · refine ⟨ctx.l2, ?_, ?_⟩
        · simp only [l2Lookup, if_neg ports, known, here, ne_eq, not_true_eq_false,
            ↓reduceIte]
          cases ctx.l2.lookup (ethDst ctx.frame) <;> rfl
        · intro mac
          split
          · next own => rw [own, known, here]
          · rfl
      · refine ⟨learned, ?_, lookups⟩
        simp only [l2Lookup, if_neg ports, known, here, mapUpdate, did, ne_eq,
          not_true_eq_false, not_false_eq_true, ↓reduceIte]
        cases learned.lookup (ethDst ctx.frame) <;> rfl

/-! ## Up to the L2 stage -/

/-- A control request changes neither the learned stations nor the port it came from. -/
theorem configureSwitch_ports (ctx : PacketCtx)
    : (configureSwitch ctx).l2 = ctx.l2 ∧ (configureSwitch ctx).sport = ctx.sport := by
  unfold configureSwitch
  split
  case isTrue => exact ⟨rfl, rfl⟩
  case isFalse =>
    cases decoded : decodeReq ctx.frame ctx.cur with
    | some req => simp [configHandleReq_decoded decoded]
    | none =>
        rcases configHandleReq_undecoded decoded with unknown | ⟨type, -, ran⟩
        · simp [unknown]
        · simp [ran]

/-- Nothing before the L2 stage touches its table or the ingress port. -/
theorem valeLookupParse_ports (conf : Config) (st : SwitchState) (md : XdpMd)
    : (valeLookupParse conf st md).ctx.l2 = st.l2
      ∧ (valeLookupParse conf st md).ctx.sport = md.ingressIfindex := by
  by_cases config : ParsesConfig conf md.frame
  · rw [valeLookupParse_config config, configLookup_ctx]
    exact configureSwitch_ports _
  · by_cases tcp : ParsesTcp md.frame
    · rw [valeLookupParse_rules tcp]
      dsimp only
      repeat' split
      all_goals exact ⟨rfl, rfl⟩
    · rcases valeLookupParse_other config tcp st with ⟨cur, jumps⟩ | ⟨-, drops⟩
      · rw [jumps]
        exact ⟨rfl, rfl⟩
      · rw [drops]
        exact ⟨rfl, rfl⟩

/-- The frame that reaches the L2 stage, as the rules have rewritten it. -/
def l2Frame (conf : Config) (st : SwitchState) (md : XdpMd) : Option Frame :=
  match valeLookupParse conf st md with
  | .gotoL2 ctx => some ctx.frame
  | .ret _ _ => none

/-- A frame that reaches the stage is decided there by the table as it was. -/
theorem l2Frame_some {conf : Config} {st : SwitchState} {md : XdpMd} {f : Frame}
    (reaches : l2Frame conf st md = some f)
    : ∃ ctx : PacketCtx,
        ctx.frame = f
        ∧ ctx.l2 = st.l2
        ∧ ctx.sport = md.ingressIfindex
        ∧ valeLookup conf st md = (l2Lookup ctx).verdict (l2Lookup ctx).dport := by
  have ports := valeLookupParse_ports conf st md
  unfold l2Frame at reaches
  cases parsed : valeLookupParse conf st md with
  | ret port ctx =>
      rw [parsed] at reaches
      contradiction
  | gotoL2 ctx =>
      rw [parsed] at reaches ports
      exact ⟨ctx, Option.some.inj reaches, ports.1, ports.2, by rw [valeLookup, parsed]⟩

/-- A frame that does not reach it leaves the table alone. -/
theorem l2Frame_none {conf : Config} {st : SwitchState} {md : XdpMd}
    (stays : l2Frame conf st md = none)
    : (valeLookup conf st md).state.l2 = st.l2 := by
  have ports := valeLookupParse_ports conf st md
  unfold l2Frame at stays
  cases parsed : valeLookupParse conf st md with
  | gotoL2 ctx =>
      rw [parsed] at stays
      contradiction
  | ret port ctx =>
      rw [parsed] at ports
      rw [valeLookup, parsed]
      exact ports.1

/-! ## Runs, with the stations heard -/

/-- The switch, with the source and the ingress port of every frame its L2 stage forwarded. -/
structure Heard where
  st : SwitchState
  heard : List (Mac × UInt32)

def Heard.next (conf : Config) (s : Heard) (md : XdpMd) : Heard where
  st := (valeLookup conf s.st md).state
  heard :=
    s.heard
    ++ ((l2Frame conf s.st md).map fun f => (ethSrc f, md.ingressIfindex)).toList

/-- One frame through the switch, with room in the L2 table before and after it. -/
def RoomyStep (conf : Config) (s : Heard) (md : XdpMd) (after : Heard) : Prop :=
  ¬ s.st.l2.Full ∧ ¬ after.st.l2.Full ∧ after = s.next conf md

/-- The port a frame to this address has to leave by: where the station was last heard, or
everywhere when it never was.
-/
def stationPort (heard : List (Mac × UInt32)) (mac : Mac) : UInt32 :=
  (last heard mac).getD valeBpfBroadcast

/-- Whatever frame comes next, if it reaches the L2 stage with a unicast destination it leaves
by that station's port. A frame that a station sends is heard before it is delivered.
-/
def FollowsStations (conf : Config) (s : Heard) : Prop :=
  ∀ md f,
    l2Frame conf s.st md = some f
    → ¬ IsGroup (ethDst f)
    → (valeLookup conf s.st md).port = stationPort (s.next conf md).heard (ethDst f)

/-- A frame that reaches the L2 stage with a group destination comes from a station that the
table already has at the frame's ingress port.
-/
def GroupFromKnown (conf : Config) (s : Heard) (md : XdpMd) : Prop :=
  ∀ f,
    l2Frame conf s.st md = some f
    → IsGroup (ethDst f)
    → ¬ IsGroup (ethSrc f)
    → (s.st.l2.lookup (ethSrc f)).getD valeBpfBroadcast = md.ingressIfindex

/-- The table answers for every station the port it was last heard on. -/
structure Learned (s : Heard) : Prop where
  room : ¬ s.st.l2.Full
  stations
    : ∀ mac,
        ¬ IsGroup mac
        → (s.st.l2.lookup mac).getD valeBpfBroadcast = stationPort s.heard mac

section Steps

variable {conf : Config} {s after : Heard} {md : XdpMd} {f : Frame}

/-- A frame that reaches learning is heard last. -/
theorem heard_next (reaches : l2Frame conf s.st md = some f)
    : (s.next conf md).heard = s.heard ++ [(ethSrc f, md.ingressIfindex)] := by
  simp [Heard.next, reaches]

/-- A frame that reaches learning moves its source to its port and no other station. -/
theorem stationPort_next (reaches : l2Frame conf s.st md = some f) (mac : Mac)
    : stationPort (s.next conf md).heard mac
      = if mac = ethSrc f then md.ingressIfindex else stationPort s.heard mac := by
  rw [heard_next reaches, stationPort, last_append]
  split <;> rfl

/-- A frame to a unicast address leaves the table right, and leaves by its answer. -/
theorem Learned.unicast (learned : Learned s) (reaches : l2Frame conf s.st md = some f)
    (unicast : ¬ IsGroup (ethDst f))
    : (∀ mac,
        ¬ IsGroup mac
        → ((s.next conf md).st.l2.lookup mac).getD valeBpfBroadcast
          = stationPort (s.next conf md).heard mac)
      ∧ (valeLookup conf s.st md).port
        = ((s.next conf md).st.l2.lookup (ethDst f)).getD valeBpfBroadcast := by
  obtain ⟨ctx, rfl, table, port, verdict⟩ := l2Frame_some reaches
  obtain ⟨l2, decided, lookups⟩ := l2Lookup_unicast unicast (table ▸ learned.room)
  have stored : (s.next conf md).st.l2 = l2 := by
    rw [Heard.next, verdict, decided]
    rfl
  refine ⟨?_, ?_⟩
  · intro mac individual
    rw [stored, lookups, stationPort_next reaches, port, table]
    split
    · rfl
    · exact learned.stations mac individual
  · rw [stored, verdict, decided]
    rfl

/-- A frame to a group address leaves the table as it was. -/
theorem l2_group (reaches : l2Frame conf s.st md = some f) (group : IsGroup (ethDst f))
    : (s.next conf md).st.l2 = s.st.l2 := by
  obtain ⟨ctx, rfl, table, -, verdict⟩ := l2Frame_some reaches
  rw [Heard.next, verdict, l2Lookup_group group]
  exact table

/-- A table that has learned what was heard follows the stations. -/
theorem Learned.follows (learned : Learned s) : FollowsStations conf s := by
  intro md f reaches unicast
  obtain ⟨stations, port⟩ := learned.unicast reaches unicast
  rw [port]
  exact stations _ unicast

/-- Group frames from known stations are the only ones the table need not learn from. -/
theorem Learned.next (learned : Learned s) (known : GroupFromKnown conf s md)
    (room : ¬ (s.next conf md).st.l2.Full)
    : Learned (s.next conf md) := by
  refine ⟨room, ?_⟩
  intro mac individual
  cases reaches : l2Frame conf s.st md with
  | none =>
      have table : (s.next conf md).st.l2 = s.st.l2 := l2Frame_none reaches
      have heard : (s.next conf md).heard = s.heard := by simp [Heard.next, reaches]
      rw [table, heard]
      exact learned.stations mac individual
  | some f =>
      by_cases group : IsGroup (ethDst f)
      · rw [l2_group reaches group, stationPort_next reaches]
        split
        · next own =>
          subst own
          exact known f reaches group individual
        · exact learned.stations mac individual
      · exact (learned.unicast reaches group).1 mac individual

end Steps

/-! ## A frame that shows where a station is looked for -/

/-- The shortest frame to a station, sent from the broadcast address and not IPv4. -/
def probe (mac : Mac) : XdpMd where
  frame := mac.toList ++ (List.replicate 6 255 ++ [0, 0])
  ingressIfindex := 0

/-- A frame that is not IPv4 reaches the L2 stage as it came. -/
theorem l2Frame_notIp {md : XdpMd} (long : sizeofEth ≤ md.frame.length)
    (other : bpfNtohs (ethType md.frame) ≠ ethPIp) (conf : Config) (st : SwitchState)
    : l2Frame conf st md = some md.frame := by
  have whole : ¬ ¬ (PacketCtx.init st md).cur + sizeofEth ≤ md.frame.length := fun fails =>
    fails ((Nat.zero_add _).symm ▸ long)
  rw [l2Frame, valeLookupParse, if_neg whole, if_pos other]
  rfl

/-- A probe reaches learning: it is no frame of a flow or a control request. -/
theorem probe_reaches (conf : Config) (st : SwitchState) (mac : Mac)
    : l2Frame conf st (probe mac) = some (probe mac).frame := by
  have type : ethType (probe mac).frame = 0 := by
    have size : mac.toList.length = 6 := mac.length_toList
    rw [ethType, probe, get16_append _ (by omega), size, get16_append _ (by decide)]
    rfl
  refine l2Frame_notIp ?_ ?_ conf st
  · simp [probe, sizeofEth]
  · rw [type]
    decide

/-- A probe is sent to the station it looks for. -/
theorem ethDst_probe (mac : Mac) : ethDst (probe mac).frame = mac := getRun_toList mac _

/-- The source of a probe is a group address, so it is not learned. -/
theorem isGroup_ethSrc_probe (mac : Mac) : IsGroup (ethSrc (probe mac).frame) := by
  have size : mac.toList.length = 6 := mac.length_toList
  rw [ethSrc, probe, getRun_append _ (by omega), size]
  decide

/-- Where a state follows the stations, the table answers for each of them. -/
theorem FollowsStations.answers {conf : Config} {s : Heard} (follows : FollowsStations conf s)
    (room : ¬ s.st.l2.Full) {mac : Mac} (individual : ¬ IsGroup mac)
    : (s.st.l2.lookup mac).getD valeBpfBroadcast = stationPort s.heard mac := by
  have reaches := probe_reaches conf s.st mac
  have dst := ethDst_probe mac
  have other : mac ≠ ethSrc (probe mac).frame := fun same =>
    individual (same ▸ isGroup_ethSrc_probe mac)
  have port := follows (probe mac) _ reaches (dst.symm ▸ individual)
  obtain ⟨ctx, frame, table, -, verdict⟩ := l2Frame_some reaches
  have unicast : ¬ IsGroup (ethDst ctx.frame) := by rwa [frame, dst]
  obtain ⟨l2, decided, lookups⟩ := l2Lookup_unicast unicast (table ▸ room)
  rw [dst, stationPort_next reaches, if_neg other, verdict, decided] at port
  rw [← port, ← table]
  change _ = (l2.lookup (ethDst ctx.frame)).getD valeBpfBroadcast
  rw [frame, dst, lookups, frame, if_neg other]

/-- In every run in which the L2 table never fills up, every state sends each frame to the
port its station was last heard on exactly when no frame to a group address comes from a
station that the table does not have at that frame's port.
-/
theorem l2_follows_stations_iff (conf : Config) (prism : PrismTable)
    (path : List (XdpMd × Heard)) (run : Path (RoomyStep conf) ⟨⟨prism, .empty⟩, []⟩ path)
    : EveryState (FollowsStations conf) ⟨⟨prism, .empty⟩, []⟩ path
      ↔ EveryStep (GroupFromKnown conf) ⟨⟨prism, .empty⟩, []⟩ path := by
  have start : Learned ⟨⟨prism, .empty⟩, []⟩ :=
    ⟨BoundedMap.not_full_empty (by decide), fun mac _ => by simp [stationPort]⟩
  refine run.everyState_iff_of_spoiled start (fun _ learned => learned.follows) ?_ ?_
  · rintro s md after learned known ⟨-, room, rfl⟩
    exact learned.next known room
  · rintro s md after learned unknown ⟨-, room, rfl⟩ follows
    refine unknown fun f reaches group individual => ?_
    -- the state after the frame answers for its station, by the table that learned nothing
    have answer := follows.answers room individual
    rwa [l2_group reaches group, stationPort_next reaches, if_pos rfl] at answer

section Sample

/-- A frame from the station 02:..:01 to the given address. -/
def sampleFrom1 (dst : Bytes) (port : UInt32) : XdpMd :=
  ⟨dst ++ [2, 0, 0, 0, 0, 1, 0, 0], port⟩

/-- The example's frames reach learning: they are no frames of a flow or a control request. -/
theorem sampleFrom1_reaches {dst : Bytes} (size : dst.length = 6) (port : UInt32)
    (conf : Config) (st : SwitchState)
    : l2Frame conf st (sampleFrom1 dst port) = some (sampleFrom1 dst port).frame := by
  have type : ethType (sampleFrom1 dst port).frame = 0 := by
    rw [ethType, sampleFrom1, get16_append _ (by omega), size]
    rfl
  refine l2Frame_notIp ?_ ?_ conf st
  · simp [sampleFrom1, size, sizeofEth]
  · rw [type]
    decide

/-- The station sends to another one by port 1, then announces itself by the given port. -/
def sampleAnnounce (port : UInt32) : List (XdpMd × Heard) :=
  let first := sampleFrom1 [2, 0, 0, 0, 0, 2] 1
  let second := sampleFrom1 [255, 255, 255, 255, 255, 255] port
  let heard := Heard.next ⟨1, 2⟩ ⟨.empty, []⟩ first
  [(first, heard), (second, heard.next ⟨1, 2⟩ second)]

/-- The frames of the example are a run in which the table has room. -/
theorem sampleAnnounce_run (port : UInt32)
    : Path (RoomyStep ⟨1, 2⟩) ⟨⟨.empty, .empty⟩, []⟩ (sampleAnnounce port) := by
  have group : IsGroup (ethDst (sampleFrom1 [255, 255, 255, 255, 255, 255] port).frame) := by
    rw [isGroup_ethDst]
    exact (by decide : (255 : UInt8) &&& 1 ≠ 0)
  refine .cons ⟨by decide, by decide, rfl⟩ (.cons ⟨by decide, ?_, rfl⟩ (.nil _))
  rw [l2_group (sampleFrom1_reaches rfl port _ _) group]
  decide

/-- A station that stays where it is may announce itself. -/
theorem l2_follows_stations_sample
    : EveryState (FollowsStations ⟨1, 2⟩) ⟨⟨.empty, .empty⟩, []⟩ (sampleAnnounce 1) := by
  refine (l2_follows_stations_iff ⟨1, 2⟩ .empty _ (sampleAnnounce_run 1)).mpr
    ⟨?_, ?_, trivial⟩
  · intro f reaches group
    rw [sampleFrom1_reaches rfl] at reaches
    obtain rfl := Option.some.inj reaches
    exact absurd group (by decide)
  · intro f reaches _ _
    rw [sampleFrom1_reaches rfl] at reaches
    obtain rfl := Option.some.inj reaches
    decide

/-- After a station announced its move to port 2 by a broadcast, frames to it still leave by
port 1.
-/
theorem l2_forgets_announced_move
    : ¬ ∀ (conf : Config) (prism : PrismTable) (path : List (XdpMd × Heard)),
        Path (RoomyStep conf) ⟨⟨prism, .empty⟩, []⟩ path
        → EveryState (FollowsStations conf) ⟨⟨prism, .empty⟩, []⟩ path := by
  intro always
  have follows := (always ⟨1, 2⟩ .empty _ (sampleAnnounce_run 2)).final
  have port := @FollowsStations.answers ⟨1, 2⟩ _ follows (by decide) #v[2, 0, 0, 0, 0, 1]
    (by decide)
  exact absurd port (by decide)

end Sample

end PrismHTTP.Switch
