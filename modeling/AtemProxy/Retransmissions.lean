import AtemProxy.EndpointRuns
import AtemProxy.PacketStamps

/-!
# Retransmission is complete and faithful

Only the timer of the oldest packet is checked, and then the whole window is
sent again. That suffices because the times of transmission are sorted along
the window: a repetition gives all of them the same time, and new packets
get the time of the poll that sends them. A repeated datagram is the stored
one with a flag patched into its first two bytes, which hold the length too.
-/

namespace AtemProxy.Retransmissions

open BigEndian PacketCodec ReliableTransport ReliableWindow SenderLedgers PacketStamps EndpointRuns

/-- The datagram is marked as a repetition. -/
def isRepeat (bytes : Bytes) : Bool :=
  match decodePacket bytes with
  | .error _ => false
  | .ok (header,_) => header.flags.isRetransmit

/-- The datagram is the first transmission of a reliable packet. -/
def isFirst (bytes : Bytes) : Bool :=
  match decodePacket bytes with
  | .error _ => false
  | .ok (header,_) => header.flags.ackRequest && !header.flags.isRetransmit

/-- The datagram repeats the original: header and payload are the same, and
the mark is added. -/
def RepeatOf (original repeated : Bytes) : Prop :=
  ∃ header payload,decodePacket original=.ok (header,payload) ∧
    header.flags.isRetransmit=false ∧
    decodePacket repeated=
      .ok ({header with flags := {header.flags with isRetransmit := true}},payload)

/-- The bytes were encoded as a first transmission. -/
def Original (bytes : Bytes) : Prop :=
  ∃ header payload,header.flags={ackRequest := true} ∧ bytes=encodePacket header payload

/-- An original is a first transmission and no repetition. -/
theorem Original.marks {bytes : Bytes} (h : Original bytes) :
    isFirst bytes=true ∧ isRepeat bytes=false := by
  obtain ⟨header,payload,hflags,rfl⟩ := h
  unfold isFirst isRepeat
  rw [decodePacket_encodePacket]
  dsimp only
  rw [hflags]
  exact ⟨rfl,rfl⟩

/-- Patching an original repeats it. -/
theorem Original.repeatOf {bytes : Bytes} (h : Original bytes) :
    RepeatOf bytes (PacketCodec.patchRetransmit bytes) := by
  obtain ⟨header,payload,hflags,rfl⟩ := h
  refine ⟨_,_,decodePacket_encodePacket header payload,?_,?_⟩
  · dsimp only
    rw [hflags]
  · rw [patchRetransmit_encodePacket,decodePacket_encodePacket]

/-- A repetition is no first transmission. -/
theorem RepeatOf.marks {original repeated : Bytes} (h : RepeatOf original repeated) :
    isFirst repeated=false ∧ isRepeat repeated=true := by
  obtain ⟨header,payload,_,_,hdecode⟩ := h
  unfold isFirst isRepeat
  rw [hdecode]
  exact ⟨Bool.and_false _,rfl⟩

/-- A phase of a poll at the given time that appends new packets: the added
entries are the first transmissions among its datagrams, and none of these is
a repetition. -/
structure Appends (now : Instant) (ep : ReliableEndpoint)
    (result : ReliableEndpoint×List Bytes) : Prop where
  /-- The configuration stays. -/
  config : result.1.config=ep.config
  /-- Added packets. -/
  adds : ∃ added : List InFlightEntry,result.1.inFlight=ep.inFlight++added ∧
    (∀ entry∈added,entry.sentAt=now ∧ Original entry.bytes) ∧
    result.2.filter isFirst=added.map InFlightEntry.bytes
  /-- Nothing is repeated. -/
  fresh : ∀ bytes∈result.2,isRepeat bytes=false

/-- Changes outside the window and the configuration. -/
theorem Appends.of_core {now : Instant} {ep ep' : ReliableEndpoint} (hw : ep'.inFlight=ep.inFlight)
    (hc : ep'.config=ep.config) : Appends now ep (ep',[]) where
  config := hc
  adds := ⟨[],by rw [hw,List.append_nil],fun _ h => absurd h List.not_mem_nil,rfl⟩
  fresh _ h := absurd h List.not_mem_nil

/-- Phases append one after the other. -/
theorem Appends.trans {now : Instant} {ep : ReliableEndpoint}
    {first second : ReliableEndpoint×List Bytes} (h : Appends now ep first)
    (h' : Appends now first.1 second) : Appends now ep (second.1,first.2++second.2) where
  config := h'.config.trans h.config
  adds := by
    obtain ⟨added,hadded,horiginal,hfirst⟩ := h.adds
    obtain ⟨added',hadded',horiginal',hfirst'⟩ := h'.adds
    refine ⟨added++added',?_,?_,?_⟩
    · rw [hadded',hadded,List.append_assoc]
    · intro entry hm
      rcases List.mem_append.mp hm with hm | hm
      · exact horiginal entry hm
      · exact horiginal' entry hm
    · rw [List.filter_append,hfirst,hfirst',List.map_append]
  fresh bytes hm := by
    rcases List.mem_append.mp hm with hm | hm
    · exact h.fresh bytes hm
    · exact h'.fresh bytes hm

/-- A transmission appends its packet. -/
theorem sendReliable_appends (ep : ReliableEndpoint) (payload : Bytes) (now : Instant) :
    Appends now ep ((ep.sendReliable payload now).1,[(ep.sendReliable payload now).2]) := by
  have horiginal : Original (ep.sendReliable payload now).2 := ⟨_,payload,rfl,rfl⟩
  refine ⟨rfl,⟨_,rfl,?_,?_⟩,?_⟩
  · intro entry hm
    rw [List.mem_singleton.mp hm]
    exact ⟨rfl,horiginal⟩
  · exact List.filter_cons_of_pos horiginal.marks.1
  · intro bytes hm
    rw [List.mem_singleton.mp hm]
    exact horiginal.marks.2

/-- Phases of a poll append. -/
theorem phaseRule_appends (now : Instant) : PhaseRule (Appends now) where
  refl _ := Appends.of_core rfl rfl
  fields h _ _ := ⟨h.config,h.adds,h.fresh⟩
  trans := Appends.trans

/-- An acknowledgement is neither a reliable packet nor a repetition. -/
theorem ackPhase_appends (ep : ReliableEndpoint) (now elapsedAt ackAt : Instant) :
    Appends now ep (ep.ackPhase elapsedAt ackAt) := by
  unfold ReliableEndpoint.ackPhase ReliableEndpoint.buildAckPacket
  split
  · split
    · exact Appends.of_core rfl rfl
    · rename_i ackId _
      have hack : isFirst (encodePacket (ReliableEndpoint.ackHeader ep.sessionId ackId) [])=false ∧
          isRepeat (encodePacket (ReliableEndpoint.ackHeader ep.sessionId ackId) [])=false := by
        unfold isFirst isRepeat
        rw [decodePacket_encodePacket]
        exact ⟨rfl,rfl⟩
      refine ⟨rfl,⟨[],(List.append_nil _).symm,fun _ h => absurd h List.not_mem_nil,?_⟩,?_⟩
      · exact List.filter_cons_of_neg (by rw [hack.1]; exact Bool.false_ne_true)
      · intro bytes hm
        dsimp only at hm
        rw [Option.toList_some,List.mem_singleton] at hm
        rw [hm]
        exact hack.2
  · exact Appends.of_core rfl rfl

/-- Everything that a poll does after its repetitions appends. -/
theorem pollOutbound_appends (ep : ReliableEndpoint) (now elapsedAt ackAt : Instant) :
    ∃ later,(ep.pollOutbound now elapsedAt ackAt).2=(ep.retransmitPhase now).2++later ∧
      Appends now (ep.retransmitPhase now).1 ((ep.pollOutbound now elapsedAt ackAt).1,later) :=
  (phaseRule_appends now).poll (fun ep payload _ => sendReliable_appends ep payload now)
    (fun ep => ackPhase_appends ep now elapsedAt ackAt) ep

/-- The packet was last sent long enough ago. -/
def Due (ep : ReliableEndpoint) (now : Instant) (entry : InFlightEntry) : Prop :=
  ep.config.retransmitAfter≤now-entry.sentAt

/-- Times are sorted along the window and not later than the last poll, and the
window holds the latest first transmissions in order. -/
structure Paced (last : Instant) (ep : ReliableEndpoint) (firsts : List Bytes) : Prop where
  /-- Older packets were not sent later. -/
  sorted : (ep.inFlight.map InFlightEntry.sentAt).Pairwise (·≤·)
  /-- Nothing was sent after the last poll. -/
  past : ∀ entry∈ep.inFlight,entry.sentAt ≤ last
  /-- The stored bytes are those of a first transmission. -/
  original : ∀ entry∈ep.inFlight,Original entry.bytes
  /-- The stored datagrams are the latest first transmissions. -/
  stored : ep.inFlight.map InFlightEntry.bytes<:+firsts

/-- Time may pass. -/
theorem Paced.mono {last now : Instant} {ep : ReliableEndpoint} {firsts : List Bytes}
    (h : Paced last ep firsts) (hle : last ≤ now) : Paced now ep firsts :=
  {h with past := fun entry hm => (h.past entry hm).trans hle}

/-- The oldest packet is due as soon as any packet is. -/
theorem Paced.stale_of_due {last now : Instant} {ep : ReliableEndpoint} {firsts : List Bytes}
    (h : Paced last ep firsts) {entry : InFlightEntry} (hm : entry∈ep.inFlight)
    (hdue : Due ep now entry) : Stale ep now := by
  have hsorted := h.sorted
  cases hw : ep.inFlight with
  | nil =>
    rw [hw] at hm
    exact absurd hm List.not_mem_nil
  | cons oldest others =>
    rw [hw,List.map_cons,List.pairwise_cons] at hsorted
    refine ⟨oldest,by rw [hw]; rfl,?_⟩
    rw [hw] at hm
    rcases List.mem_cons.mp hm with rfl | hm
    · exact hdue
    · have hle : oldest.sentAt ≤ entry.sentAt := hsorted.1 entry.sentAt (List.mem_map_of_mem hm)
      exact hdue.trans (Nat.sub_le_sub_left hle now)

/-- A stale window is sent again as a whole. -/
theorem retransmitPhase_of_stale {ep : ReliableEndpoint} {now : Instant} (h : Stale ep now) :
    ep.retransmitPhase now=
      ({ep with inFlight := ep.inFlight.map (fun entry => {entry with sentAt := now})},
        ep.inFlight.map (fun entry => PacketCodec.patchRetransmit entry.bytes)) := by
  obtain ⟨oldest,holdest,hage⟩ := h
  obtain ⟨others,hw⟩ := List.head?_eq_some_iff.mp holdest
  unfold ReliableEndpoint.retransmitPhase
  rw [hw]
  exact if_pos hage

/-- Otherwise nothing is sent again. -/
theorem retransmitPhase_of_not_stale {ep : ReliableEndpoint} {now : Instant}
    (h : ¬Stale ep now) : ep.retransmitPhase now=(ep,[]) := by
  unfold ReliableEndpoint.retransmitPhase
  cases hw : ep.inFlight with
  | nil => rfl
  | cons oldest others => exact if_neg (fun hage => h ⟨oldest,by rw [hw]; rfl,hage⟩)

/-- After the repetitions no packet in flight is due. -/
theorem Paced.repeated {last now : Instant} {ep : ReliableEndpoint} {firsts : List Bytes}
    (h : Paced last ep firsts) (hle : last ≤ now) (hafter : 0<ep.config.retransmitAfter) :
    Paced now (ep.retransmitPhase now).1 firsts ∧
      ∀ entry∈(ep.retransmitPhase now).1.inFlight,now-entry.sentAt<ep.config.retransmitAfter := by
  by_cases hs : Stale ep now
  · rw [retransmitPhase_of_stale hs]
    refine ⟨⟨?_,?_,?_,?_⟩,?_⟩
    · rw [List.map_map]
      apply List.pairwise_map.mpr
      exact List.pairwise_of_forall (fun _ _ => Nat.le_refl now)
    · intro entry hm
      obtain ⟨_,_,rfl⟩ := List.mem_map.mp hm
      exact Nat.le_refl now
    · intro entry hm
      obtain ⟨old,hold,rfl⟩ := List.mem_map.mp hm
      exact h.original old hold
    · rw [List.map_map]
      exact h.stored
    · intro entry hm
      obtain ⟨_,_,rfl⟩ := List.mem_map.mp hm
      rw [Nat.sub_self]
      exact hafter
  · rw [retransmitPhase_of_not_stale hs]
    refine ⟨h.mono hle,?_⟩
    intro entry hm
    by_contra hdue
    exact hs (h.stale_of_due hm (Nat.le_of_not_lt hdue))

/-- Appended packets are the newest, and they are not due. -/
theorem Paced.appended {now : Instant} {ep : ReliableEndpoint} {firsts : List Bytes}
    (h : Paced now ep firsts) {result : ReliableEndpoint×List Bytes} (ha : Appends now ep result) :
    Paced now result.1 (firsts++result.2.filter isFirst) := by
  obtain ⟨added,hadded,horiginal,hfirst⟩ := ha.adds
  constructor
  · rw [hadded,List.map_append]
    refine List.pairwise_append.mpr ⟨h.sorted,?_,?_⟩
    · apply List.pairwise_map.mpr
      apply List.pairwise_of_forall_mem_list
      intro a hma b hmb
      rw [(horiginal a hma).1,(horiginal b hmb).1]
    · intro a hma b hmb
      obtain ⟨old,hold,rfl⟩ := List.mem_map.mp hma
      obtain ⟨new,hnew,rfl⟩ := List.mem_map.mp hmb
      rw [(horiginal new hnew).1]
      exact h.past old hold
  · intro entry hm
    rw [hadded] at hm
    rcases List.mem_append.mp hm with hm | hm
    · exact h.past entry hm
    · exact Nat.le_of_eq (horiginal entry hm).1
  · intro entry hm
    rw [hadded] at hm
    rcases List.mem_append.mp hm with hm | hm
    · exact h.original entry hm
    · exact (horiginal entry hm).2
  · obtain ⟨front,hfront⟩ := h.stored
    refine ⟨front,?_⟩
    rw [hadded,hfirst,List.map_append,←List.append_assoc,hfront]

/-- What a poll does with the packets that are due. -/
structure Complete (ep : ReliableEndpoint) (now : Instant)
    (result : ReliableEndpoint×List Bytes) : Prop where
  /-- Nothing in flight is due any more. -/
  timely : ∀ entry∈result.1.inFlight,now-entry.sentAt<ep.config.retransmitAfter
  /-- The datagrams are repetitions, followed by others that are none, and the
  reliable ones among these are one for each new packet. If a packet is due, every
  packet in flight is repeated once and in order, and otherwise no packet is; the
  packets in flight stay there, and only the new ones join them. -/
  repeated : ∃ repeats later added,result.2=repeats++later ∧
    (∀ bytes∈later,isRepeat bytes=false) ∧
    later.filter isFirst=added.map InFlightEntry.bytes ∧
    ((∃ entry∈ep.inFlight,Due ep now entry) →
      List.Forall₂ (fun entry bytes => RepeatOf entry.bytes bytes) ep.inFlight repeats ∧
      result.1.inFlight=ep.inFlight.map (fun entry => {entry with sentAt := now})++added) ∧
    ((∀ entry∈ep.inFlight,¬Due ep now entry) →
      repeats=[] ∧ result.1.inFlight=ep.inFlight++added)

/-- The repetitions of a poll, and the window that they leave. -/
theorem Paced.repeats {last now : Instant} {ep : ReliableEndpoint} {firsts : List Bytes}
    (h : Paced last ep firsts) :
    ((∃ entry∈ep.inFlight,Due ep now entry) →
      List.Forall₂ (fun entry bytes => RepeatOf entry.bytes bytes) ep.inFlight
        (ep.retransmitPhase now).2 ∧
      (ep.retransmitPhase now).1.inFlight=
        ep.inFlight.map (fun entry => {entry with sentAt := now})) ∧
    ((∀ entry∈ep.inFlight,¬Due ep now entry) →
      (ep.retransmitPhase now).2=[] ∧ (ep.retransmitPhase now).1.inFlight=ep.inFlight) := by
  constructor
  · rintro ⟨entry,hm,hdue⟩
    rw [retransmitPhase_of_stale (h.stale_of_due hm hdue)]
    refine ⟨?_,rfl⟩
    dsimp only
    rw [List.forall₂_map_right_iff,List.forall₂_same]
    exact fun other hother => (h.original other hother).repeatOf
  · intro hnone
    have hs : ¬Stale ep now := by
      rintro ⟨oldest,holdest,hage⟩
      exact hnone oldest (List.mem_of_head? holdest) hage
    rw [retransmitPhase_of_not_stale hs]
    exact ⟨rfl,rfl⟩

/-- No repetition is a first transmission. -/
theorem Paced.filter_repeats {last now : Instant} {ep : ReliableEndpoint} {firsts : List Bytes}
    (h : Paced last ep firsts) : (ep.retransmitPhase now).2.filter isFirst=[] := by
  by_cases hs : Stale ep now
  · rw [retransmitPhase_of_stale hs]
    apply List.filter_eq_nil_iff.mpr
    intro bytes hm
    obtain ⟨entry,hentry,rfl⟩ := List.mem_map.mp hm
    rw [(h.original entry hentry).repeatOf.marks.1]
    exact Bool.false_ne_true
  · rw [retransmitPhase_of_not_stale hs]
    rfl

/-- A poll keeps the times sorted and is complete. -/
theorem Paced.poll {last now : Instant} {ep : ReliableEndpoint} {firsts : List Bytes}
    (h : Paced last ep firsts) (hle : last ≤ now) (hafter : 0<ep.config.retransmitAfter)
    (elapsedAt ackAt : Instant) :
    Paced now (ep.pollOutbound now elapsedAt ackAt).1
        (firsts++(ep.pollOutbound now elapsedAt ackAt).2.filter isFirst) ∧
      Complete ep now (ep.pollOutbound now elapsedAt ackAt) := by
  obtain ⟨later,hout,happends⟩ := pollOutbound_appends ep now elapsedAt ackAt
  obtain ⟨hpaced,htimely⟩ := h.repeated hle hafter
  have hlater : (ep.pollOutbound now elapsedAt ackAt).2.filter isFirst=later.filter isFirst := by
    rw [hout,List.filter_append,h.filter_repeats,List.nil_append]
  obtain ⟨added,hadded,horiginal,hfirst⟩ := happends.adds
  dsimp only at hadded
  obtain ⟨hstale,hquiet⟩ := h.repeats
  rw [hlater]
  refine ⟨hpaced.appended happends,?_,_,later,added,hout,happends.fresh,hfirst,?_,?_⟩
  · intro entry hm
    rw [hadded] at hm
    rcases List.mem_append.mp hm with hm | hm
    · exact htimely entry hm
    · rw [(horiginal entry hm).1,Nat.sub_self]
      exact hafter
  · intro hdue
    obtain ⟨hrepeats,hwindow⟩ := hstale hdue
    exact ⟨hrepeats,by rw [hadded,hwindow]⟩
  · intro hnone
    obtain ⟨hrepeats,hwindow⟩ := hquiet hnone
    exact ⟨hrepeats,by rw [hadded,hwindow]⟩

/-- Time of a poll. -/
def pollTime? : EndpointCall → Option Instant
  | .pollOutbound now _ _ => some now
  | _ => none

/-- Times of the polls among the calls. -/
def pollTimes (calls : List EndpointCall) : List Instant := calls.filterMap pollTime?

/-- Calls other than polls remove old packets at most. -/
theorem Paced.call {last : Instant} {ep : ReliableEndpoint} {firsts : List Bytes}
    (h : Paced last ep firsts) {c : EndpointCall} (hc : pollTime? c=none) :
    Paced last (callAnswer ep c).1 firsts ∧ (callAnswer ep c).2=[] := by
  have hkept : ∀ ep' : ReliableEndpoint,ep'.inFlight=ep.inFlight → Paced last ep' firsts := by
    intro ep' hw
    exact ⟨hw ▸ h.sorted,hw ▸ h.past,hw ▸ h.original,hw ▸ h.stored⟩
  cases c with
  | onAckId ackId =>
    have hsuffix := onAckId_suffix ep ackId
    refine ⟨⟨?_,?_,?_,?_⟩,rfl⟩
    · exact List.Pairwise.sublist (hsuffix.sublist.map _) h.sorted
    · exact fun entry hm => h.past entry (hsuffix.subset hm)
    · exact fun entry hm => h.original entry (hsuffix.subset hm)
    · exact (hsuffix.map _).trans h.stored
  | acceptReliable packetId isRetransmit =>
    exact ⟨hkept _ (acceptReliable_core ep packetId isRetransmit).1,rfl⟩
  | pollOutbound now elapsedAt ackAt => cases hc
  | _ => exact ⟨hkept _ rfl,rfl⟩

/-- No call changes the configuration. -/
theorem callAnswer_config (ep : ReliableEndpoint) (c : EndpointCall) :
    (callAnswer ep c).1.config=ep.config := by
  cases c with
  | pollOutbound now elapsedAt ackAt =>
    obtain ⟨_,_,happends⟩ := pollOutbound_appends ep now elapsedAt ackAt
    refine happends.config.trans ?_
    unfold ReliableEndpoint.retransmitPhase
    split
    · rfl
    · split <;> rfl
  | acceptReliable packetId isRetransmit =>
    exact (acceptReliable_core ep packetId isRetransmit).2.2.1
  | _ => rfl

/-- Runs with sorted poll times keep the times sorted along the window. -/
theorem Paced.run {last now : Instant} {ep : ReliableEndpoint} {firsts : List Bytes}
    (h : Paced last ep firsts) (hafter : 0<ep.config.retransmitAfter) {calls : List EndpointCall}
    (hle : last ≤ now) (hsorted : (last::pollTimes calls).Pairwise (·≤·))
    (hnow : ∀ time∈pollTimes calls,time ≤ now) :
    Paced now (endpointRun ep calls).1 (firsts++(endpointRun ep calls).2.filter isFirst) ∧
      (endpointRun ep calls).1.config=ep.config := by
  induction calls generalizing ep last firsts with
  | nil =>
    have hnone : firsts++(endpointRun ep []).2.filter isFirst=firsts := List.append_nil firsts
    rw [hnone]
    exact ⟨h.mono hle,rfl⟩
  | cons c calls ih =>
    have hconfig := callAnswer_config ep c
    have hout : (endpointRun ep (c::calls)).2=
        (callAnswer ep c).2++(endpointRun (callAnswer ep c).1 calls).2 := rfl
    have hrun : (endpointRun ep (c::calls)).1=(endpointRun (callAnswer ep c).1 calls).1 := rfl
    rw [hout,hrun,List.filter_append,←List.append_assoc,←hconfig]
    rw [←hconfig] at hafter
    cases ht : pollTime? c with
    | none =>
      have htimes : pollTimes (c::calls)=pollTimes calls := List.filterMap_cons_none ht
      rw [htimes] at hsorted hnow
      obtain ⟨hpaced,hsilent⟩ := h.call ht
      rw [hsilent,List.filter_nil,List.append_nil]
      exact ih hpaced hafter hle hsorted hnow
    | some time =>
      have htimes : pollTimes (c::calls)=time::pollTimes calls := List.filterMap_cons_some ht
      rw [htimes] at hsorted hnow
      have hfirst : last ≤ time := (List.pairwise_cons.mp hsorted).1 time List.mem_cons_self
      have hpaced : Paced time (callAnswer ep c).1
          (firsts++(callAnswer ep c).2.filter isFirst) := by
        cases c with
        | pollOutbound at' elapsedAt ackAt =>
          cases ht
          exact (h.poll hfirst (hconfig ▸ hafter) elapsedAt ackAt).1
        | _ => cases ht
      exact ih hpaced hafter (hnow time List.mem_cons_self) (List.pairwise_cons.mp hsorted).2
        (fun other hm => hnow other (List.mem_cons_of_mem _ hm))

/-- In every state reached from an empty window by calls with non-decreasing
poll times, a poll that is not earlier either is complete: what was due is sent once
more, once each and before anything new. And the window holds the latest first
transmissions in the order in which they were sent. -/
theorem retransmission_complete (start : ReliableEndpoint) (hempty : start.inFlight=[])
    (hafter : 0<start.config.retransmitAfter) (calls : List EndpointCall)
    (now elapsedAt ackAt : Instant)
    (htimes : (pollTimes calls++[now]).Pairwise (·≤·)) :
    (endpointRun start calls).1.inFlight.map InFlightEntry.bytes<:+
        (endpointRun start calls).2.filter isFirst ∧
      Complete (endpointRun start calls).1 now
        ((endpointRun start calls).1.pollOutbound now elapsedAt ackAt) := by
  have hstart : Paced 0 start [] := by
    constructor
    · rw [hempty]
      exact List.Pairwise.nil
    · rw [hempty]
      exact fun _ hm => absurd hm List.not_mem_nil
    · rw [hempty]
      exact fun _ hm => absurd hm List.not_mem_nil
    · rw [hempty]
      exact List.suffix_rfl
  obtain ⟨hsorted,_,hnow⟩ := List.pairwise_append.mp htimes
  have hzero : (0::pollTimes calls).Pairwise (·≤·) :=
    List.pairwise_cons.mpr ⟨fun time _ => Nat.zero_le time,hsorted⟩
  obtain ⟨hpaced,hconfig⟩ := hstart.run hafter (Nat.zero_le now) hzero
    (fun time hm => hnow time hm now (List.mem_singleton_self now))
  rw [List.nil_append] at hpaced
  refine ⟨hpaced.stored,(hpaced.poll (Nat.le_refl now) ?_ elapsedAt ackAt).2⟩
  rw [hconfig]
  exact hafter

/-- Two packets sent by polls at times 0 and 20, and an acknowledgement that
covers neither. -/
def twoPolls : List EndpointCall :=
  [.queuePayload [1],.pollOutbound 0 0 0,.queuePayload [2],.pollOutbound 20 20 20,
    .onAckId 32767]

/-- At time 40 only the first packet is due, and both are sent again. -/
theorem twoPolls_repeated :
    ((endpointRun (.new 32769 {} 0) twoPolls).1.pollOutbound 40 40 40).2.map isRepeat=[true,true] ∧
      Complete (endpointRun (.new 32769 {} 0) twoPolls).1 40
        ((endpointRun (.new 32769 {} 0) twoPolls).1.pollOutbound 40 40 40) :=
  ⟨by decide +kernel,(retransmission_complete (.new 32769 {} 0) rfl (by decide) twoPolls 40 40 40
    (by decide)).2⟩

end AtemProxy.Retransmissions
