import AtemProxy.ReliableWindow

/-!
# The session ids of encoded packets

A packet is encoded with the session id its endpoint has at that moment, and
the window stores it in that form. Everything that a poll builds therefore
carries the id of the endpoint; only what it sends again may carry an older
one.
-/

namespace AtemProxy.PacketStamps

open BigEndian PacketCodec ReliableTransport

/-- Session id in the header of a datagram. -/
def sessionIdOf (bytes : Bytes) : Option UInt16 :=
  match decodePacket bytes with
  | .error _ => none
  | .ok (header,_) => some header.sessionId

/-- The datagram was encoded with this session id. -/
def Stamped (id : UInt16) (bytes : Bytes) : Prop :=
  ∃ header payload,header.sessionId=id ∧ bytes=encodePacket header payload

/-- What was encoded is read back. -/
theorem Stamped.sessionIdOf {id : UInt16} {bytes : Bytes} (h : Stamped id bytes) :
    sessionIdOf bytes=some id := by
  obtain ⟨header,payload,hid,rfl⟩ := h
  unfold PacketStamps.sessionIdOf
  rw [decodePacket_encodePacket]
  exact congrArg some hid

/-- A repetition keeps the session id. -/
theorem Stamped.patchRetransmit {id : UInt16} {bytes : Bytes} (h : Stamped id bytes) :
    Stamped id (patchRetransmit bytes) := by
  obtain ⟨header,payload,hid,rfl⟩ := h
  exact ⟨{header with flags := {header.flags with isRetransmit := true}},payload,hid,
    patchRetransmit_encodePacket header payload⟩

/-- A phase of a poll that builds its datagrams anew: all of them, and those it
adds to the window, have the session id of the endpoint. -/
structure Stamps (ep : ReliableEndpoint) (result : ReliableEndpoint×List Bytes) : Prop where
  /-- The session id stays. -/
  current : result.1.sessionId=ep.sessionId
  /-- Added packets. -/
  adds : ∃ fresh,result.1.inFlight.map InFlightEntry.bytes=
    ep.inFlight.map InFlightEntry.bytes++fresh ∧ ∀ bytes∈fresh,Stamped ep.sessionId bytes
  /-- Emitted datagrams. -/
  emits : ∀ bytes∈result.2,Stamped ep.sessionId bytes

/-- Changes outside the window and the session id. -/
theorem Stamps.of_core {ep ep' : ReliableEndpoint} (hid : ep'.sessionId=ep.sessionId)
    (hw : ep'.inFlight=ep.inFlight) : Stamps ep (ep',[]) where
  current := hid
  adds := ⟨[],by rw [hw,List.append_nil],fun _ h => absurd h List.not_mem_nil⟩
  emits := fun _ h => absurd h List.not_mem_nil

/-- Phases run one after the other. -/
theorem Stamps.trans {ep : ReliableEndpoint} {first second : ReliableEndpoint×List Bytes}
    (h : Stamps ep first) (h' : Stamps first.1 second) :
    Stamps ep (second.1,first.2++second.2) where
  current := h'.current.trans h.current
  adds := by
    obtain ⟨fresh,hfresh,hstamped⟩ := h.adds
    obtain ⟨fresh',hfresh',hstamped'⟩ := h'.adds
    refine ⟨fresh++fresh',by rw [hfresh',hfresh,List.append_assoc],?_⟩
    intro bytes hb
    rcases List.mem_append.mp hb with hb | hb
    · exact hstamped bytes hb
    · exact h.current ▸ hstamped' bytes hb
  emits := by
    intro bytes hb
    rcases List.mem_append.mp hb with hb | hb
    · exact h.emits bytes hb
    · exact h.current ▸ h'.emits bytes hb

/-- A transmission has the session id of the endpoint. -/
theorem sendReliable_stamps (ep : ReliableEndpoint) (payload : Bytes) (now : Instant) :
    Stamps ep ((ep.sendReliable payload now).1,[(ep.sendReliable payload now).2]) := by
  have hnew : ∀ bytes∈[(ep.sendReliable payload now).2],Stamped ep.sessionId bytes := by
    intro bytes hb
    rw [List.mem_singleton.mp hb]
    exact ⟨_,payload,rfl,rfl⟩
  refine ⟨rfl,⟨_,?_,hnew⟩,hnew⟩
  exact List.map_append

/-- Phases of a poll keep the session id. -/
theorem phaseRule_stamps : PhaseRule Stamps where
  refl _ := Stamps.of_core rfl rfl
  fields h _ _ := ⟨h.current,h.adds,h.emits⟩
  trans := Stamps.trans

/-- An acknowledgement has the session id of the endpoint. -/
theorem buildAckPacket_stamps (ep : ReliableEndpoint) (clock : Instant) :
    Stamps ep ((ep.buildAckPacket clock).1,(ep.buildAckPacket clock).2.toList) := by
  unfold ReliableEndpoint.buildAckPacket
  cases hh : ep.ack.highestRecv with
  | none => exact Stamps.of_core rfl rfl
  | some ackId =>
    refine ⟨rfl,⟨[],(List.append_nil _).symm,fun _ h => absurd h List.not_mem_nil⟩,?_⟩
    intro bytes hb
    rw [Option.toList_some,List.mem_singleton] at hb
    rw [hb]
    exact ⟨_,[],rfl,rfl⟩

/-- So has the one of a poll. -/
theorem ackPhase_stamps (ep : ReliableEndpoint) (elapsedAt ackAt : Instant) :
    Stamps ep (ep.ackPhase elapsedAt ackAt) := by
  unfold ReliableEndpoint.ackPhase
  split
  · exact buildAckPacket_stamps ep ackAt
  · exact Stamps.of_core rfl rfl

/-- The oldest packet in flight is old enough for the window to be sent again. -/
def Stale (ep : ReliableEndpoint) (now : Instant) : Prop :=
  ∃ oldest,ep.inFlight.head?=some oldest ∧ ep.config.retransmitAfter≤now-oldest.sentAt

/-- Repetitions are the stored datagrams, and they leave id and window alone. -/
theorem retransmitPhase_stored (ep : ReliableEndpoint) (now : Instant) :
    (ep.retransmitPhase now).1.sessionId=ep.sessionId ∧
      (ep.retransmitPhase now).1.inFlight.map InFlightEntry.bytes=
        ep.inFlight.map InFlightEntry.bytes ∧
      ((ep.retransmitPhase now).2=[] ∧ ¬Stale ep now ∨
        (ep.retransmitPhase now).2=
          (ep.inFlight.map InFlightEntry.bytes).map PacketCodec.patchRetransmit ∧
        Stale ep now) := by
  unfold ReliableEndpoint.retransmitPhase Stale
  split
  · rename_i hw
    rw [hw]
    exact ⟨rfl,rfl,Or.inl ⟨rfl,fun ⟨_,h,_⟩ => by cases h⟩⟩
  · rename_i oldest others hw
    split
    · rename_i hage
      refine ⟨rfl,?_,Or.inr ⟨?_,oldest,by rw [hw]; rfl,hage⟩⟩
      · rw [List.map_map]
        rfl
      · rw [List.map_map]
        rfl
    · rename_i hage
      refine ⟨rfl,rfl,Or.inl ⟨rfl,?_⟩⟩
      rintro ⟨other,hother,hage'⟩
      rw [hw,List.head?_cons,Option.some.injEq] at hother
      exact hage (hother ▸ hage')

/-- A poll repeats the stored window when it is stale; everything else that it
emits or stores has the session id of the endpoint. -/
theorem pollOutbound_stamps (ep : ReliableEndpoint) (now elapsedAt ackAt : Instant) :
    ∃ built,(ep.pollOutbound now elapsedAt ackAt).2=(ep.retransmitPhase now).2++built ∧
      Stamps ep ((ep.pollOutbound now elapsedAt ackAt).1,built) := by
  obtain ⟨hid,hwindow,_⟩ := retransmitPhase_stored ep now
  obtain ⟨built,hemitted,hrest⟩ := phaseRule_stamps.poll
    (fun ep payload _ => sendReliable_stamps ep payload now)
    (fun ep => ackPhase_stamps ep elapsedAt ackAt) ep
  exact ⟨built,hemitted,hid ▸ hrest.current,hwindow ▸ hid ▸ hrest.adds,hid ▸ hrest.emits⟩

/-- A poll keeps the session id. -/
theorem pollOutbound_sessionId (ep : ReliableEndpoint) (now elapsedAt ackAt : Instant) :
    (ep.pollOutbound now elapsedAt ackAt).1.sessionId=ep.sessionId := by
  obtain ⟨_,_,hstamps⟩ := pollOutbound_stamps ep now elapsedAt ackAt
  exact hstamps.current

/-- An accepted packet keeps the session id. -/
theorem acceptReliable_sessionId (ep : ReliableEndpoint) (packetId : UInt16)
    (isRetransmit : Bool) : (ep.acceptReliable packetId isRetransmit).1.sessionId=ep.sessionId := by
  unfold ReliableEndpoint.acceptReliable
  split
  · rfl
  · split <;> rfl

end AtemProxy.PacketStamps
