import AtemProxy.CommandEpochs
import AtemProxy.PacketStamps

/-!
# The session ids of the datagrams to the switcher

Every non-zero session id in a header of the switcher is adopted for the
packets built from then on. A reliable packet is stored as it was encoded
when it was first sent, so a repetition keeps the id of that moment. The
ids the switcher assigned are recorded beside the system, together with the
one under which each packet in flight was first sent.
-/

namespace AtemProxy.UpstreamIds

open BigEndian PacketCodec CommandFrames CommandPolicy ReliableTransport PacketStamps
  SenderLedgers UpstreamSessions GuardedRuns ProxyTasks SessionEpochs ProxySystem

/-- Value of the unknown field in the acknowledgement of a complete dump. -/
def initAckRemoteSeq : UInt16 := 0x61

/-- Acknowledgement of the switcher's complete initial dump. -/
def buildInitCompleteAck (sessionId ackId : UInt16) : Bytes :=
  encodePacket {PacketHeader.new {ackReply := true} sessionId 12 with
    ackId := ackId
    unknown := initAckRemoteSeq} []

/-- Endpoint that the tick of a session polls. -/
def tickEndpoint (u : UpstreamSession) : ReliableEndpoint :=
  (if u.pending=[] then u else u.pack).ledger.endpoint

/-- Datagrams that a step sends to the switcher. -/
def emitted (x : System) : SystemAction → List Bytes
  | .server .upstream =>
    if x.proxy.upstream.head?=some .swapConnected ∧ x.proxy.connected=false then
      (x.session.map (fun u => buildInitCompleteAck u.ledger.endpoint.sessionId
        (u.ledger.endpoint.ack.highestRecv.getD 0))).toList
    else []
  | .connect reply clock =>
    match decodePacket reply with
    | .error _ => []
    | .ok (header,_) => ((ReliableEndpoint.forUpstream header.sessionId header.packetId
        clock).buildAckPacket clock).2.toList
  | .switcher data clock => (x.session.bind (fun u => u.retransmit data clock)).toList
  | .drain now elapsedAt ackAt =>
    match x.session,x.channel with
    | some u,[] => (u.pack.ledger.endpoint.pollOutbound now elapsedAt ackAt).2
    | _,_ => []
  | .tick _ now elapsedAt ackAt =>
    match x.session with
    | some u => ((tickEndpoint u).pollOutbound now elapsedAt ackAt).2
    | none => []
  | _ => []

/-- Session id assigned after a datagram of the switcher. -/
def adopted (data : Bytes) (id : UInt16) : UInt16 :=
  match decodePacket data with
  | .error _ => id
  | .ok (header,_) => if header.sessionId≠0 then header.sessionId else id

/-- A header may change the id, and removes packets from the front of the window. -/
theorem onHeader_endpoint (u : UpstreamSession) (header : PacketHeader) :
    (u.onHeader header).ledger.endpoint.sessionId=
        (if header.sessionId≠0 then header.sessionId else u.ledger.endpoint.sessionId) ∧
      (u.onHeader header).ledger.endpoint.inFlight<:+u.ledger.endpoint.inFlight := by
  have hadopted : ∀ v : UpstreamSession,
      v=(if header.sessionId≠0 then u.call (.sessionId header.sessionId) else u) →
      v.ledger.endpoint.sessionId=
          (if header.sessionId≠0 then header.sessionId else u.ledger.endpoint.sessionId) ∧
        v.ledger.endpoint.inFlight=u.ledger.endpoint.inFlight := by
    rintro v rfl
    split <;> exact ⟨rfl,rfl⟩
  obtain ⟨hid,hwindow⟩ := hadopted _ rfl
  unfold UpstreamSession.onHeader
  dsimp only
  split
  · exact ⟨hid,hwindow ▸ ReliableWindow.onAckId_suffix _ header.ackId⟩
  · exact ⟨hid,hwindow ▸ List.suffix_rfl⟩

/-- So does a whole datagram. -/
theorem onDatagram_endpoint (u : UpstreamSession) (data : Bytes) (clock : Instant) :
    (u.onDatagram data clock).1.ledger.endpoint.sessionId=
        adopted data u.ledger.endpoint.sessionId ∧
      (u.onDatagram data clock).1.ledger.endpoint.inFlight<:+u.ledger.endpoint.inFlight := by
  unfold UpstreamSession.onDatagram adopted
  cases hdecode : decodePacket data with
  | error e => exact ⟨rfl,List.suffix_rfl⟩
  | ok result =>
    obtain ⟨header,payload⟩ := result
    have hheader := onHeader_endpoint (u.call (.noteRecv clock)) header
    dsimp only
    split
    · exact hheader
    · split
      · have hid := acceptReliable_sessionId
          ((u.call (.noteRecv clock)).onHeader header).ledger.endpoint header.packetId
          header.flags.isRetransmit
        obtain ⟨hwindow,_⟩ := acceptReliable_core
          ((u.call (.noteRecv clock)).onHeader header).ledger.endpoint header.packetId
          header.flags.isRetransmit
        exact ⟨hid.trans hheader.1,hwindow ▸ hheader.2⟩
      · exact hheader

/-- A retransmit request has the id that its datagram assigned. -/
theorem retransmit_stamped {u : UpstreamSession} {data bytes : Bytes} {clock : Instant}
    (h : u.retransmit data clock=some bytes) :
    Stamped (adopted data u.ledger.endpoint.sessionId) bytes := by
  unfold UpstreamSession.retransmit at h
  unfold adopted
  cases hdecode : decodePacket data with
  | error e =>
    rw [hdecode] at h
    cases h
  | ok result =>
    obtain ⟨header,payload⟩ := result
    rw [hdecode] at h
    obtain ⟨hheader,_⟩ := onHeader_endpoint (u.call (.noteRecv clock)) header
    have hid := acceptReliable_sessionId
      ((u.call (.noteRecv clock)).onHeader header).ledger.endpoint header.packetId
      header.flags.isRetransmit
    dsimp only at h
    split at h
    · cases h
    · split at h
      · split at h
        · cases h
        · cases h
          exact ⟨_,[],hid.trans hheader,rfl⟩
      · cases h

/-- Handing over the pending commands leaves id and window alone. -/
theorem tickEndpoint_core (u : UpstreamSession) :
    (tickEndpoint u).sessionId=u.ledger.endpoint.sessionId ∧
      (tickEndpoint u).inFlight=u.ledger.endpoint.inFlight ∧
      (tickEndpoint u).config=u.ledger.endpoint.config := by
  unfold tickEndpoint
  split <;> exact ⟨rfl,rfl,rfl⟩

/-- The system with the session ids the switcher assigned. -/
structure Assigned where
  /-- The system itself. -/
  system : System
  /-- Id assigned most recently. -/
  id : UInt16
  /-- Ids assigned when the packets in flight were first sent, oldest first. -/
  under : List UInt16

namespace Assigned

/-- The proxy before the first datagram. -/
def start (policy : FilterPolicy) (idle : ℕ) : Assigned := ⟨System.start policy idle,0,[]⟩

/-- Id assigned after a step: the reply to the HELLO assigns the first one. -/
def nextId (x : Assigned) : SystemAction → UInt16
  | .connect reply _ =>
    match decodePacket reply with
    | .error _ => x.id
    | .ok (header,_) => header.sessionId
  | .switcher data _ => adopted data x.id
  | _ => x.id

end Assigned

/-- Packets in flight to the switcher. -/
def window (x : System) : List InFlightEntry :=
  match x.session with
  | none => []
  | some u => u.ledger.endpoint.inFlight

/-- One step of the system; a packet that leaves the window takes its id along, and a
new one is recorded with the id assigned at that time. -/
def assignedStep (x : Assigned) (a : SystemAction) : Option Assigned :=
  (systemStep x.system a).map (fun y => ⟨y,x.nextId a,
    x.under.drop ((window x.system).length-(window y).length)++
      List.replicate ((window y).length-(window x.system).length) (x.nextId a)⟩)

/-- A step polls an endpoint whose window is stale, and so sends it again. -/
def resends (x : System) : SystemAction → Prop
  | .drain now _ _ => x.channel=[] ∧ ∃ u,x.session=some u ∧ Stale u.ledger.endpoint now
  | .tick _ now _ _ => ∃ u,x.session=some u ∧ Stale u.ledger.endpoint now
  | _ => False

/-- The endpoint has the assigned id, and every packet in flight is stored with
the id it was first sent under. -/
structure Dated (id : UInt16) (under : List UInt16) (ep : ReliableEndpoint) : Prop where
  /-- Id of the endpoint. -/
  current : ep.sessionId=id
  /-- Stored packets. -/
  stored : List.Forall₂ Stamped under (ep.inFlight.map InFlightEntry.bytes)

/-- The record of the window is as long as the window. -/
theorem Dated.length {id : UInt16} {under : List UInt16} {ep : ReliableEndpoint}
    (h : Dated id under ep) : under.length=ep.inFlight.length := by
  rw [h.stored.length_eq,List.length_map]

/-- The ids a repetition of the window is sent with. -/
theorem resent_ids {under : List UInt16} {stored : List Bytes}
    (h : List.Forall₂ Stamped under stored) :
    (stored.map PacketCodec.patchRetransmit).map sessionIdOf=under.map some := by
  induction h with
  | nil => rfl
  | cons hfirst _ ih =>
    rw [List.map_cons,List.map_cons,List.map_cons,ih,hfirst.patchRetransmit.sessionIdOf]

/-- Packets leave the front of the window. -/
theorem Dated.shrink {id id' : UInt16} {under : List UInt16} {ep ep' : ReliableEndpoint}
    (h : Dated id under ep) (hid : ep'.sessionId=id') (hw : ep'.inFlight<:+ep.inFlight) :
    Dated id' (under.drop (ep.inFlight.length-ep'.inFlight.length)++
      List.replicate (ep'.inFlight.length-ep.inFlight.length) id') ep' := by
  have hdrop := List.suffix_iff_eq_drop.mp hw
  have hnone : ep'.inFlight.length-ep.inFlight.length=0 := Nat.sub_eq_zero_of_le hw.length_le
  refine ⟨hid,?_⟩
  rw [hnone,List.replicate_zero,List.append_nil]
  have hstored := List.forall₂_drop (ep.inFlight.length-ep'.inFlight.length) h.stored
  rwa [←List.map_drop,←hdrop] at hstored

/-- Packets with the assigned id are added to the window. -/
theorem Dated.grow {id : UInt16} {under : List UInt16} {ep ep' : ReliableEndpoint}
    {out : List Bytes} (h : Dated id under ep) (hs : Stamps ep (ep',out)) :
    Dated id (under.drop (ep.inFlight.length-ep'.inFlight.length)++
      List.replicate (ep'.inFlight.length-ep.inFlight.length) id) ep' := by
  obtain ⟨fresh,hfresh,hstamped⟩ := hs.adds
  dsimp only at hfresh
  have hlength : ep'.inFlight.length=ep.inFlight.length+fresh.length := by
    have hmap := congrArg List.length hfresh
    rwa [List.length_map,List.length_append,List.length_map] at hmap
  refine ⟨hs.current.trans h.current,?_⟩
  rw [hfresh,hlength,Nat.sub_eq_zero_of_le (Nat.le_add_right _ _),List.drop_zero,
    Nat.add_sub_cancel_left]
  refine List.rel_append h.stored ?_
  rw [List.forall₂_iff_get]
  refine ⟨List.length_replicate,fun i hi hi' => ?_⟩
  rw [List.get_eq_getElem,List.getElem_replicate,←h.current]
  exact hstamped _ (List.get_mem _ _)

/-- A poll keeps the record. -/
theorem Dated.poll {id : UInt16} {under : List UInt16} {ep : ReliableEndpoint}
    (h : Dated id under ep) (now elapsedAt ackAt : Instant) :
    Dated id (under.drop (ep.inFlight.length-
          (ep.pollOutbound now elapsedAt ackAt).1.inFlight.length)++
        List.replicate ((ep.pollOutbound now elapsedAt ackAt).1.inFlight.length-
          ep.inFlight.length) id) (ep.pollOutbound now elapsedAt ackAt).1 := by
  obtain ⟨built,_,hs⟩ := pollOutbound_stamps ep now elapsedAt ackAt
  exact h.grow hs

/-- What a poll emits has the assigned id exactly when it repeats nothing that
was first sent under another one. -/
theorem Dated.emits_iff {id : UInt16} {under : List UInt16} {ep : ReliableEndpoint}
    (h : Dated id under ep) (now elapsedAt ackAt : Instant) :
    (∀ bytes∈(ep.pollOutbound now elapsedAt ackAt).2,sessionIdOf bytes=some id) ↔
      (Stale ep now → ∀ old∈under,old=id) := by
  obtain ⟨built,hout,hs⟩ := pollOutbound_stamps ep now elapsedAt ackAt
  have hbuilt : ∀ bytes∈built,sessionIdOf bytes=some id := fun bytes hb =>
    h.current ▸ (hs.emits bytes hb).sessionIdOf
  rw [hout,List.forall_mem_append,and_iff_left hbuilt]
  rcases (retransmitPhase_stored ep now).2.2 with ⟨hnone,hfresh⟩ | ⟨hall,hstale⟩
  · rw [hnone]
    exact ⟨fun _ hstale => absurd hstale hfresh,fun _ _ hb => absurd hb List.not_mem_nil⟩
  · rw [hall,imp_iff_right hstale]
    calc (∀ bytes∈(ep.inFlight.map InFlightEntry.bytes).map PacketCodec.patchRetransmit,
        sessionIdOf bytes=some id)
        ↔ ∀ old∈((ep.inFlight.map InFlightEntry.bytes).map PacketCodec.patchRetransmit).map
            sessionIdOf,old=some id := by simp only [List.forall_mem_map]
      _ ↔ ∀ old∈under.map some,old=some id := by rw [resent_ids h.stored]
      _ ↔ ∀ old∈under,old=id := by simp only [List.forall_mem_map,Option.some.injEq]

/-- The record agrees with the session, if there is one. -/
def Recorded (x : Assigned) : Prop :=
  match x.system.session with
  | none => x.under=[]
  | some u => Dated x.id x.under u.ledger.endpoint

/-- Datagrams of the running session are dated. -/
theorem Recorded.dated {x : Assigned} (h : Recorded x) {u : UpstreamSession}
    (hu : x.system.session=some u) : Dated x.id x.under u.ledger.endpoint := by
  unfold Recorded at h
  rwa [hu] at h

/-- Without a session nothing was sent under an id. -/
theorem Recorded.empty {x : Assigned} (h : Recorded x) (hu : x.system.session=none) :
    x.under=[] := by
  unfold Recorded at h
  rwa [hu] at h

/-- A datagram of the switcher assigns what the session adopts. -/
theorem Recorded.nextId_switcher {x : Assigned} (h : Recorded x) {u : UpstreamSession}
    (hu : x.system.session=some u) (data : Bytes) (clock : Instant) :
    x.nextId (.switcher data clock)=adopted data u.ledger.endpoint.sessionId := by
  rw [(h.dated hu).current]
  rfl

/-- A session whose id is the assigned one and whose window lost packets at the
front is still recorded. -/
theorem Recorded.next_of_suffix {x : Assigned} {u v : UpstreamSession} {z : System} {id : UInt16}
    (h : Recorded x) (hu : x.system.session=some u) (hz : z.session=some v)
    (hid : v.ledger.endpoint.sessionId=id)
    (hw : v.ledger.endpoint.inFlight<:+u.ledger.endpoint.inFlight) :
    Recorded ⟨z,id,x.under.drop ((window x.system).length-(window z).length)++
      List.replicate ((window z).length-(window x.system).length) id⟩ := by
  unfold Recorded window
  rw [hu,hz]
  exact (h.dated hu).shrink hid hw

/-- So is a polled one. -/
theorem Recorded.next_of_poll {x : Assigned} {u v : UpstreamSession} {z : System}
    {ep : ReliableEndpoint} {now elapsedAt ackAt : Instant} (h : Recorded x)
    (hu : x.system.session=some u) (hz : z.session=some v)
    (hid : ep.sessionId=u.ledger.endpoint.sessionId)
    (hw : ep.inFlight=u.ledger.endpoint.inFlight)
    (hv : v.ledger.endpoint=(ep.pollOutbound now elapsedAt ackAt).1) :
    Recorded ⟨z,x.id,x.under.drop ((window x.system).length-(window z).length)++
      List.replicate ((window z).length-(window x.system).length) x.id⟩ := by
  have hpolled : Dated x.id x.under ep :=
    ⟨hid.trans (h.dated hu).current,hw ▸ (h.dated hu).stored⟩
  unfold Recorded window
  rw [hu,hz]
  dsimp only
  rw [hv,←hw]
  exact hpolled.poll now elapsedAt ackAt

/-- A step that leaves the session alone keeps the record. -/
theorem Recorded.next_of_session {x : Assigned} {z : System} (h : Recorded x)
    (hz : z.session=x.system.session) :
    Recorded ⟨z,x.id,x.under.drop ((window x.system).length-(window z).length)++
      List.replicate ((window z).length-(window x.system).length) x.id⟩ := by
  cases hu : x.system.session with
  | none =>
    unfold Recorded window
    rw [hz,hu]
    exact List.append_eq_nil_iff.mpr ⟨by rw [h.empty hu,List.drop_nil],rfl⟩
  | some u => exact h.next_of_suffix hu (hz.trans hu) (h.dated hu).current List.suffix_rfl

/-- Every step keeps the record. -/
theorem recorded_step {x y : Assigned} {a : SystemAction} (h : Recorded x)
    (hstep : assignedStep x a=some y) : Recorded y := by
  obtain ⟨z,hz,rfl⟩ := Option.map_eq_some_iff.mp hstep
  cases moved_of_systemStep hz with
  | upstream t _ =>
    by_cases hopens : x.system.proxy.upstream.head?=some .swapConnected ∧
        x.system.proxy.connected=false
    · have hafter : sessionAfter x.system.proxy x.system.session=
          x.system.session.map (fun u => u.call (.opened true)) := if_pos hopens
      cases hu : x.system.session with
      | none => exact h.next_of_session (by rw [←hu]; exact hafter.trans (by rw [hu]; rfl))
      | some u =>
        rw [hu] at hafter
        exact h.next_of_suffix hu hafter (h.dated hu).current List.suffix_rfl
    · exact h.next_of_session (if_neg hopens)
  | quiet a t _ _ => exact h.next_of_session rfl
  | handler clock replied t _ => exact h.next_of_session rfl
  | cleanup t _ => exact h.next_of_session rfl
  | connect reply clock u hfree _ hdone =>
    unfold UpstreamSession.connect at hdone
    split at hdone
    · cases hdone
    · rename_i header payload hdecode
      dsimp only at hdone
      split at hdone
      · cases hdone
        have hid : x.nextId (.connect reply clock)=header.sessionId := by
          simp only [Assigned.nextId,hdecode]
        rw [hid]
        unfold Recorded window
        rw [hfree]
        refine ⟨rfl,?_⟩
        rw [h.empty hfree]
        exact List.Forall₂.nil
      · cases hdone
  | endSession t _ =>
    cases hu : x.system.session with
    | none => exact h.next_of_session hu.symm
    | some u =>
      unfold Recorded window
      rw [hu]
      refine List.append_eq_nil_iff.mpr ⟨List.drop_eq_nil_of_le ?_,?_⟩
      · exact (h.dated hu).length.le
      · rw [List.length_nil,Nat.zero_sub,List.replicate_zero]
  | heard u data clock hu =>
    obtain ⟨hid,hw⟩ := onDatagram_endpoint u data clock
    exact h.next_of_suffix hu rfl (hid.trans (h.nextId_switcher hu data clock).symm) hw
  | handled u data clock payload t hu _ _ =>
    obtain ⟨hid,hw⟩ := onDatagram_endpoint u data clock
    exact h.next_of_suffix hu rfl (hid.trans (h.nextId_switcher hu data clock).symm) hw
  | woke u cmd channel hu _ =>
    have hsame : (u.wake cmd).ledger=u.ledger := by
      unfold UpstreamSession.wake UpstreamSession.take
      split <;> rfl
    exact h.next_of_suffix hu rfl (hsame ▸ (h.dated hu).current) (hsame ▸ List.suffix_rfl)
  | took u now elapsedAt ackAt cmd channel hu _ =>
    have hsame : (u.take cmd).ledger=u.ledger := by
      unfold UpstreamSession.take
      split <;> rfl
    exact h.next_of_suffix hu rfl (hsame ▸ (h.dated hu).current) (hsame ▸ List.suffix_rfl)
  | flushed u now elapsedAt ackAt hu _ =>
    have hid : u.pack.ledger.endpoint.sessionId=u.ledger.endpoint.sessionId := rfl
    exact h.next_of_poll hu rfl hid rfl rfl
  | ticked u clock now elapsedAt ackAt hu =>
    obtain ⟨hid,hw,_⟩ := tickEndpoint_core u
    exact h.next_of_poll hu rfl hid hw rfl
  | putForward raw forwards _ => exact h.next_of_session rfl
  | putCleanup raw cleanups _ => exact h.next_of_session rfl

/-- Everything that a step outside the polls sends has the id assigned after it. -/
theorem emitted_stamped {x : Assigned} {z : System} {a : SystemAction} (h : Recorded x)
    (hz : systemStep x.system a=some z) :
    (∀ bytes∈emitted x.system a,Stamped (x.nextId a) bytes) ∧ ¬resends x.system a ∨
      ∃ u ep now elapsedAt ackAt,x.system.session=some u ∧
        ep.sessionId=u.ledger.endpoint.sessionId ∧ ep.inFlight=u.ledger.endpoint.inFlight ∧
        emitted x.system a=(ReliableEndpoint.pollOutbound ep now elapsedAt ackAt).2 ∧
        (resends x.system a ↔ Stale ep now) ∧ x.nextId a=x.id := by
  have hnone : ∀ {b : SystemAction},emitted x.system b=[] →
      ∀ bytes∈emitted x.system b,Stamped (x.nextId b) bytes := by
    intro b hb bytes hmem
    rw [hb] at hmem
    exact absurd hmem List.not_mem_nil
  cases moved_of_systemStep hz with
  | upstream t _ =>
    refine Or.inl ⟨?_,id⟩
    intro bytes hb
    simp only [emitted] at hb
    split at hb
    · obtain ⟨u,hu,rfl⟩ := Option.map_eq_some_iff.mp (Option.mem_toList.mp hb)
      exact ⟨_,[],(h.dated hu).current,rfl⟩
    · exact absurd hb List.not_mem_nil
  | quiet a t _ hserves =>
    refine Or.inl ⟨hnone ?_,id⟩
    cases a <;> first | rfl | cases hserves
  | handler clock replied t _ => exact Or.inl ⟨hnone rfl,id⟩
  | cleanup t _ => exact Or.inl ⟨hnone rfl,id⟩
  | connect reply clock u _ _ _ =>
    refine Or.inl ⟨?_,id⟩
    intro bytes hb
    simp only [emitted] at hb
    split at hb
    · exact absurd hb List.not_mem_nil
    · rename_i header payload hdecode
      have hid : x.nextId (.connect reply clock)=header.sessionId := by
        simp only [Assigned.nextId,hdecode]
      rw [hid]
      exact (buildAckPacket_stamps (ReliableEndpoint.forUpstream header.sessionId header.packetId
        clock) clock).emits bytes hb
  | endSession t _ => exact Or.inl ⟨hnone rfl,id⟩
  | heard u data clock hu =>
    refine Or.inl ⟨?_,id⟩
    intro bytes hb
    rw [emitted,hu,Option.bind_some,Option.mem_toList] at hb
    rw [h.nextId_switcher hu]
    exact retransmit_stamped hb
  | handled u data clock payload t hu _ _ =>
    refine Or.inl ⟨?_,id⟩
    intro bytes hb
    rw [emitted,hu,Option.bind_some,Option.mem_toList] at hb
    rw [h.nextId_switcher hu]
    exact retransmit_stamped hb
  | woke u cmd channel _ _ => exact Or.inl ⟨hnone rfl,id⟩
  | took u now elapsedAt ackAt cmd channel hu hnext =>
    refine Or.inl ⟨hnone ?_,?_⟩
    · simp only [emitted,hu,hnext]
    · rintro ⟨hempty,_⟩
      rw [hnext] at hempty
      cases hempty
  | flushed u now elapsedAt ackAt hu hempty =>
    refine Or.inr ⟨u,u.pack.ledger.endpoint,now,elapsedAt,ackAt,hu,rfl,rfl,?_,?_,rfl⟩
    · simp only [emitted,hu,hempty]
    · constructor
      · rintro ⟨_,v,hv,hstale⟩
        rw [hu,Option.some.injEq] at hv
        exact hv ▸ hstale
      · exact fun hstale => ⟨hempty,u,hu,hstale⟩
  | ticked u clock now elapsedAt ackAt hu =>
    obtain ⟨hid,hw,hconfig⟩ := tickEndpoint_core u
    refine Or.inr ⟨u,tickEndpoint u,now,elapsedAt,ackAt,hu,hid,hw,?_,?_,rfl⟩
    · simp only [emitted,hu]
    · unfold Stale
      rw [hw,hconfig]
      constructor
      · rintro ⟨v,hv,hstale⟩
        rw [hu,Option.some.injEq] at hv
        exact hv ▸ hstale
      · exact fun hstale => ⟨u,hu,hstale⟩
  | putForward raw forwards _ => exact Or.inl ⟨hnone rfl,id⟩
  | putCleanup raw cleanups _ => exact Or.inl ⟨hnone rfl,id⟩

/-- One step sends the assigned id exactly when it repeats nothing that was first
sent under another one. -/
theorem emitted_ids_iff {x y : Assigned} {a : SystemAction} (h : Recorded x)
    (hstep : assignedStep x a=some y) :
    (∀ bytes∈emitted x.system a,sessionIdOf bytes=some y.id) ↔
      (resends x.system a → ∀ old∈x.under,old=x.id) := by
  obtain ⟨z,hz,rfl⟩ := Option.map_eq_some_iff.mp hstep
  rcases emitted_stamped h hz with ⟨hbuilt,hquiet⟩ |
    ⟨u,ep,now,elapsedAt,ackAt,hu,hid,hw,hout,hresends,hsame⟩
  · exact ⟨fun _ hr => absurd hr hquiet,fun _ bytes hb => (hbuilt bytes hb).sessionIdOf⟩
  · have hdated : Dated x.id x.under ep :=
      ⟨hid.trans (h.dated hu).current,hw ▸ (h.dated hu).stored⟩
    dsimp only
    rw [hout,hresends,hsame]
    exact hdated.emits_iff now elapsedAt ackAt

/-- Whatever the switcher, the clients and the clocks do: every datagram sent to
the switcher carries the session id assigned most recently, exactly when no
step sends a window again that holds a packet first sent under another id. -/
theorem upstream_ids_current_iff (policy : FilterPolicy) (idle : ℕ) (acts : List SystemAction) :
    Meets assignedStep (fun x a => ∀ y,assignedStep x a=some y →
        ∀ bytes∈emitted x.system a,sessionIdOf bytes=some y.id) (.start policy idle) acts ↔
      Meets assignedStep (fun x a => ∀ y,assignedStep x a=some y →
        resends x.system a → ∀ old∈x.under,old=x.id) (.start policy idle) acts := by
  have hstart : Recorded (.start policy idle) := rfl
  constructor
  · refine meets_of_invariant assignedStep (fun _ _ _ hs _ ht => recorded_step hs ht) ?_ hstart
    exact fun x a hx hok y hy => (emitted_ids_iff hx hy).mp (hok y hy)
  · refine meets_of_invariant assignedStep (fun _ _ _ hs _ ht => recorded_step hs ht) ?_ hstart
    exact fun x a hx hok y hy => (emitted_ids_iff hx hy).mpr (hok y hy)

/-- A cut is sent under the id of the HELLO reply, and the switcher's next packet
has another one. -/
def cutThenNewId : List SystemAction :=
  CommandEpochs.sessionReady++CommandEpochs.cutForwarded++CommandEpochs.channelEmptied++
    [.switcher (encodePacket (ReliableEndpoint.dataHeader 9 2 []) []) 20]

/-- The unacknowledged cut is sent again under the old id. -/
theorem cut_resent_under_old_id :
    ((run assignedStep (.start ⟨.deny,.new,.new {}⟩ 5000) cutThenNewId).bind (fun x =>
        (assignedStep x (.tick 40 40 40 40)).map (fun y =>
          (y.id,(emitted x.system (.tick 40 40 40 40)).map sessionIdOf))))=
        some (9,[some 7,some 9]) ∧
      ¬Meets assignedStep (fun x a => ∀ y,assignedStep x a=some y →
        ∀ bytes∈emitted x.system a,sessionIdOf bytes=some y.id) (.start ⟨.deny,.new,.new {}⟩ 5000)
        (cutThenNewId++[.tick 40 40 40 40]) := by
  have hsent : ((run assignedStep (.start ⟨.deny,.new,.new {}⟩ 5000) cutThenNewId).bind (fun x =>
      (assignedStep x (.tick 40 40 40 40)).map (fun y =>
        (y.id,(emitted x.system (.tick 40 40 40 40)).map sessionIdOf))))=
      some (9,[some 7,some 9]) := by
    decide +kernel
  refine ⟨hsent,fun hmeets => ?_⟩
  obtain ⟨x,hx,hy⟩ := Option.bind_eq_some_iff.mp hsent
  obtain ⟨y,hy,hids⟩ := Option.map_eq_some_iff.mp hy
  rw [Prod.mk.injEq] at hids
  have hall := ((meets_append assignedStep).mp hmeets).2 x hx
  have hold : some (7 : UInt16)∈(emitted x.system (.tick 40 40 40 40)).map sessionIdOf := by
    rw [hids.2]
    exact List.mem_cons_self
  obtain ⟨bytes,hb,hseven⟩ := List.mem_map.mp hold
  have hnine := hall.1 y hy bytes hb
  rw [hseven,hids.1] at hnine
  cases hnine

end AtemProxy.UpstreamIds
