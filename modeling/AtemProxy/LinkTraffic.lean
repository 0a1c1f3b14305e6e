import AtemProxy.DuplexLinks
import AtemProxy.ServerSessions

/-!
# What the far end of a link sends

One end of a link is the program, the other end and the network between them are
not. Whatever these do, the near end is left alone, and every datagram on its way to
it was built by an endpoint: it carries the session id of that endpoint and is no
HELLO.
-/

namespace AtemProxy.LinkTraffic

open BigEndian PacketCodec ReliableTransport ReliableWindow ReliableLink ServerSessions GuardedRuns
  DuplexLinks

/-- The datagram was built in this session, is no HELLO, and asks to be acknowledged if
it carries anything. -/
def SentIn (id : UInt16) (bytes : Bytes) : Prop :=
  ∃ header payload,header.sessionId=id ∧ isHandshakePacket header.flags=false ∧
    (header.flags.ackRequest=true ∨ payload=[]) ∧ bytes=encodePacket header payload

/-- The header is read back. -/
theorem SentIn.decode {id : UInt16} {bytes : Bytes} (h : SentIn id bytes) :
    ∃ header payload,decodePacket bytes=.ok (header,payload) ∧ header.sessionId=id ∧
      isHandshakePacket header.flags=false ∧ (header.flags.ackRequest=true ∨ payload=[]) := by
  obtain ⟨header,payload,hid,hhello,hasks,rfl⟩ := h
  refine ⟨_,_,decodePacket_encodePacket header payload,hid,hhello,?_⟩
  rcases hasks with hreq | rfl
  · exact Or.inl hreq
  · exact Or.inr rfl

/-- A repetition was built in the same session. -/
theorem SentIn.patchRetransmit {id : UInt16} {bytes : Bytes} (h : SentIn id bytes) :
    SentIn id (patchRetransmit bytes) := by
  obtain ⟨header,payload,hid,hhello,hasks,rfl⟩ := h
  rw [patchRetransmit_encodePacket]
  exact ⟨{header with flags := {header.flags with isRetransmit := true}},payload,hid,hhello,hasks,
    rfl⟩

/-- The endpoint has this session id, and its window was built in this session. -/
structure Talks (id : UInt16) (ep : ReliableEndpoint) : Prop where
  /-- Session id. -/
  current : ep.sessionId=id
  /-- Window. -/
  window : ∀ entry∈ep.inFlight,SentIn id entry.bytes

/-- An endpoint without packets in flight talks in its own session. -/
theorem talks_of_empty {id : UInt16} {ep : ReliableEndpoint} (hid : ep.sessionId=id)
    (hempty : ep.inFlight=[]) : Talks id ep :=
  ⟨hid,fun entry hm => by rw [hempty] at hm; cases hm⟩

/-- Fields that are not read, and packets that leave the window. -/
theorem Talks.of_core {id : UInt16} {ep ep' : ReliableEndpoint} (h : Talks id ep)
    (hid : ep'.sessionId=ep.sessionId) (hw : ep'.inFlight⊆ep.inFlight) : Talks id ep' :=
  ⟨hid.trans h.current,fun entry hm => h.window entry (hw hm)⟩

/-- An endpoint of the session stays one and sends what was built in the session. -/
def Speaks (id : UInt16) (ep : ReliableEndpoint) (result : ReliableEndpoint×List Bytes) : Prop :=
  Talks id ep → Talks id result.1 ∧ ∀ bytes∈result.2,SentIn id bytes

/-- Phases of a poll speak in the session. -/
theorem phaseRule_speaks (id : UInt16) : PhaseRule (Speaks id) where
  refl _ h := ⟨h,fun _ hb => absurd hb List.not_mem_nil⟩
  fields h _ _ ht := ⟨(h ht).1.of_core rfl (fun _ hm => hm),(h ht).2⟩
  trans h h' ht := by
    obtain ⟨hmid,hfirst⟩ := h ht
    obtain ⟨hlast,hsecond⟩ := h' hmid
    refine ⟨hlast,fun bytes hb => ?_⟩
    rcases List.mem_append.mp hb with hb | hb
    · exact hfirst bytes hb
    · exact hsecond bytes hb

/-- So does a transmission. -/
theorem sendReliable_speaks (id : UInt16) (ep : ReliableEndpoint) (payload : Bytes)
    (now : Instant) :
    Speaks id ep ((ep.sendReliable payload now).1,[(ep.sendReliable payload now).2]) := by
  intro h
  have hbuilt : SentIn id (ep.sendReliable payload now).2 := ⟨_,payload,h.current,rfl,Or.inl rfl,rfl⟩
  refine ⟨⟨h.current,fun entry hm => ?_⟩,fun bytes hb => ?_⟩
  · rcases List.mem_append.mp hm with hm | hm
    · exact h.window entry hm
    · rw [List.mem_singleton.mp hm]
      exact hbuilt
  · rw [List.mem_singleton.mp hb]
    exact hbuilt

/-- So does an acknowledgement. -/
theorem buildAckPacket_speaks (id : UInt16) (ep : ReliableEndpoint) (clock : Instant) :
    Speaks id ep ((ep.buildAckPacket clock).1,(ep.buildAckPacket clock).2.toList) := by
  intro h
  unfold ReliableEndpoint.buildAckPacket
  cases ep.ack.highestRecv with
  | none => exact ⟨h,fun _ hb => absurd hb List.not_mem_nil⟩
  | some ackId =>
    refine ⟨h.of_core rfl (fun _ hm => hm),fun bytes hb => ?_⟩
    rw [List.mem_singleton.mp hb]
    exact ⟨_,[],h.current,rfl,Or.inr rfl,rfl⟩

/-- So does a retransmission, because the stored datagrams do. -/
theorem retransmitPhase_speaks (id : UInt16) (ep : ReliableEndpoint) (now : Instant) :
    Speaks id ep (ep.retransmitPhase now) := by
  intro h
  unfold ReliableEndpoint.retransmitPhase
  split
  · exact ⟨h,fun _ hb => absurd hb List.not_mem_nil⟩
  · split
    · refine ⟨⟨h.current,fun entry hm => ?_⟩,fun bytes hb => ?_⟩
      · obtain ⟨old,hold,rfl⟩ := List.mem_map.mp hm
        exact h.window old hold
      · obtain ⟨old,hold,rfl⟩ := List.mem_map.mp hb
        exact (h.window old hold).patchRetransmit
    · exact ⟨h,fun _ hb => absurd hb List.not_mem_nil⟩

/-- A poll sends datagrams of the session only. -/
theorem pollOutbound_speaks (id : UInt16) (ep : ReliableEndpoint) (now elapsedAt ackAt : Instant) :
    Speaks id ep (ep.pollOutbound now elapsedAt ackAt) := by
  have hack : ∀ ep : ReliableEndpoint,Speaks id ep (ep.ackPhase elapsedAt ackAt) := by
    intro ep
    unfold ReliableEndpoint.ackPhase
    split
    · exact buildAckPacket_speaks id ep ackAt
    · exact (phaseRule_speaks id).refl ep
  obtain ⟨later,hout,hrule⟩ := (phaseRule_speaks id).poll
    (fun ep payload _ => sendReliable_speaks id ep payload now) hack ep
  have hpolled := (phaseRule_speaks id).trans (retransmitPhase_speaks id ep now) hrule
  dsimp only at hpolled
  rw [←hout] at hpolled
  exact hpolled

/-- So does the answer to a datagram. -/
theorem handleDatagram_speaks {id : UInt16} {p : Peer} (h : Talks id p.ep) (clock : Instant)
    (dump : Option (List Bytes)) (bytes : Bytes) :
    Talks id (p.handleDatagram clock dump bytes).1.ep ∧
      ∀ reply∈(p.handleDatagram clock dump bytes).2,SentIn id reply := by
  have hacknowledged : ∀ (q : Peer) (header : PacketHeader),Talks id q.ep →
      Talks id (q.acknowledged header dump).ep := by
    intro q header hq
    have hacked : Talks id (q.onAckId header.ackId).ep :=
      hq.of_core rfl (onAckId_suffix q.ep header.ackId).subset
    unfold Peer.acknowledged Peer.openWith
    split
    · split
      · exact hacked
      · split
        · exact hacked
        · exact hacked.of_core rfl (fun _ hm => hm)
    · exact hq
  unfold Peer.handleDatagram
  split
  · exact ⟨h,fun _ hb => absurd hb List.not_mem_nil⟩
  · rename_i header payload _
    have hheard := hacknowledged {p with ep := p.ep.noteRecv clock} header
      (h.of_core rfl (fun _ hm => hm))
    dsimp only
    split
    · by_cases hid : header.packetId=
          (({p with ep := p.ep.noteRecv clock} : Peer).acknowledged header dump).ep.ack.expectedRecv
      · rw [Peer.acceptReliable_of_eq hid]
        exact ⟨hheard.of_core rfl (fun _ hm => hm),fun _ hb => absurd hb List.not_mem_nil⟩
      · rw [Peer.acceptReliable_of_ne hid]
        refine ⟨hheard,fun reply hb => ?_⟩
        rw [List.mem_singleton.mp hb]
        exact ⟨_,[],hheard.current,rfl,Or.inr rfl,rfl⟩
    · exact ⟨hheard,fun _ hb => absurd hb List.not_mem_nil⟩

/-- Actions of the right peer and of the network. -/
def foreign : Action → Bool
  | .queuePayload side _ => decide (side=.right)
  | .queueCommandsPacked side _ => decide (side=.right)
  | .pollOutbound side _ _ _ => decide (side=.right)
  | .buildAckPacket side _ => decide (side=.right)
  | .opened side => decide (side=.right)
  | .deliver side _ _ _ => decide (side=.right)
  | .lose _ _ => true
  | .duplicate _ _ => true

/-- Events of the right peer and of the network. -/
def outside : Event → Bool
  | .act a => foreign a
  | .repeatAck side _ => decide (side=.right)

/-- Events of the left peer and of the network. -/
def inside (e : Event) : Bool := outside (turnedEvent e)

/-- The datagram may still reach the left peer, in both directions of the link. -/
def inTime (l : Link) (d : Datagram) : Bool :=
  l.fresh .left d.mark && (swapped l).fresh .right d.mark

/-- They leave the left peer alone. -/
theorem foreign_left {l l' : Link} {a : Action} (ha : foreign a=true) (h : step l a=some l') :
    l'.left=l.left := by
  cases a with
  | lose side i => cases side <;> cases h <;> rfl
  | duplicate side i => cases side <;> cases h <;> rfl
  | deliver side i clock dump =>
    dsimp only [foreign] at ha
    rw [decide_eq_true_iff] at ha
    subst ha
    dsimp only [step] at h
    split at h
    · cases h
    · split at h
      · cases h
        rfl
      · cases h
  | _ =>
    dsimp only [foreign] at ha
    rw [decide_eq_true_iff] at ha
    subst ha
    cases h
    rfl

/-- Events of the right peer and of the network leave the left peer alone. -/
theorem outside_left {l l' : Link} {e : Event} (he : outside e=true)
    (h : eventStep l e=some l') : l'.left=l.left := by
  cases e with
  | act a =>
    dsimp only [eventStep] at h
    split at h
    · exact foreign_left he h
    · cases h
  | repeatAck side unknown =>
    dsimp only [outside] at he
    rw [decide_eq_true_iff] at he
    subst he
    obtain ⟨bytes,_,rfl⟩ := Option.map_eq_some_iff.mp h
    rfl

/-- So do whole runs of such events. -/
theorem outside_run_left {events : List Event} {l l' : Link} (he : ∀ e∈events,outside e=true)
    (hrun : run eventStep l events=some l') : l'.left=l.left := by
  induction events generalizing l with
  | nil =>
    rw [run_nil,Option.some.injEq] at hrun
    rw [hrun]
  | cons e events ih =>
    obtain ⟨next,hnext,hrun⟩ := (run_cons_eq_some eventStep).mp hrun
    exact (ih (fun e' he' => he e' (List.mem_cons_of_mem _ he')) hrun).trans
      (outside_left (he e List.mem_cons_self) hnext)

/-- They only take datagrams to the right peer away, or repeat one of them. -/
theorem foreign_toRight {l l' : Link} {a : Action} (ha : foreign a=true) (h : step l a=some l') :
    l'.toRight⊆l.toRight := by
  cases a with
  | lose side i =>
    cases side <;> cases h
    · exact List.Subset.refl _
    · exact (List.eraseIdx_sublist l.toRight i).subset
  | duplicate side i =>
    cases side <;> cases h
    · exact List.Subset.refl _
    · intro d hd
      rcases List.mem_append.mp hd with hd | hd
      · exact hd
      · exact List.mem_of_getElem? (Option.mem_toList.mp hd)
  | deliver side i clock dump =>
    dsimp only [foreign] at ha
    rw [decide_eq_true_iff] at ha
    subst ha
    dsimp only [step] at h
    split at h
    · cases h
    · split at h
      · cases h
        exact (List.eraseIdx_sublist l.toRight i).subset
      · cases h
  | _ =>
    dsimp only [foreign] at ha
    rw [decide_eq_true_iff] at ha
    subst ha
    cases h
    exact List.Subset.refl _

/-- They put nothing on the wire to the right peer. -/
theorem outside_toRight {l l' : Link} {e : Event} (he : outside e=true)
    (h : eventStep l e=some l') : l'.toRight⊆l.toRight := by
  cases e with
  | act a =>
    dsimp only [eventStep] at h
    split at h
    · exact foreign_toRight he h
    · cases h
  | repeatAck side unknown =>
    dsimp only [outside] at he
    rw [decide_eq_true_iff] at he
    subst he
    obtain ⟨bytes,_,rfl⟩ := Option.map_eq_some_iff.mp h
    exact List.Subset.refl _

/-- The right peer keeps its session id, and all its datagrams on the way were built
under it. -/
structure Speaking (id : UInt16) (l : Link) : Prop where
  /-- The right peer. -/
  talks : Talks id l.right.ep
  /-- Datagrams to the left peer. -/
  sent : ∀ d∈l.toLeft,SentIn id d.bytes

/-- The right peer sends more. -/
theorem Speaking.update_right {id : UInt16} {l : Link} (h : Speaking id l) {p : Peer}
    {out : List Bytes} (htalks : Talks id p.ep) (hout : ∀ bytes∈out,SentIn id bytes) :
    Speaking id (l.update .right (p,out)) := by
  refine ⟨htalks,fun d hd => ?_⟩
  rcases List.mem_append.mp hd with hd | hd
  · exact h.sent d hd
  · obtain ⟨bytes,hb,rfl⟩ := List.mem_map.mp hd
    exact hout bytes hb

/-- Actions of the other end leave what this end says as it is. -/
theorem speaking_foreign {id : UInt16} {l l' : Link} {a : Action} (h : Speaking id l)
    (ha : foreign a=true) (hstep : step l a=some l') : Speaking id l' := by
  cases a with
  | lose side i =>
    cases side <;> cases hstep
    · exact ⟨h.talks,fun d hd => h.sent d (List.mem_of_mem_eraseIdx hd)⟩
    · exact ⟨h.talks,h.sent⟩
  | duplicate side i =>
    cases side <;> cases hstep
    · refine ⟨h.talks,fun d hd => ?_⟩
      rcases List.mem_append.mp hd with hd | hd
      · exact h.sent d hd
      · exact h.sent d (List.mem_of_getElem? (Option.mem_toList.mp hd))
    · exact ⟨h.talks,h.sent⟩
  | deliver side i clock dump =>
    dsimp only [foreign] at ha
    rw [decide_eq_true_iff] at ha
    subst ha
    dsimp only [step] at hstep
    split at hstep
    · cases hstep
    · split at hstep
      · cases hstep
        obtain ⟨htalks,hout⟩ := handleDatagram_speaks h.talks clock dump _
        have hkept : Speaking id (l.setWire .right ((l.wire .right).eraseIdx i)) :=
          ⟨h.talks,h.sent⟩
        exact hkept.update_right htalks hout
      · cases hstep
  | pollOutbound side now elapsedAt ackAt =>
    dsimp only [foreign] at ha
    rw [decide_eq_true_iff] at ha
    subst ha
    cases hstep
    obtain ⟨htalks,hout⟩ := pollOutbound_speaks id l.right.ep now elapsedAt ackAt h.talks
    exact h.update_right htalks hout
  | buildAckPacket side clock =>
    dsimp only [foreign] at ha
    rw [decide_eq_true_iff] at ha
    subst ha
    cases hstep
    obtain ⟨htalks,hout⟩ := buildAckPacket_speaks id l.right.ep clock h.talks
    exact h.update_right htalks hout
  | _ =>
    dsimp only [foreign] at ha
    rw [decide_eq_true_iff] at ha
    subst ha
    cases hstep
    exact ⟨h.talks.of_core rfl (fun _ hm => hm),h.sent⟩

/-- So do events of the right peer and of the network. -/
theorem speaking_outside {id : UInt16} {l l' : Link} {e : Event} (h : Speaking id l)
    (he : outside e=true) (hstep : eventStep l e=some l') : Speaking id l' := by
  cases e with
  | act a =>
    dsimp only [eventStep] at hstep
    split at hstep
    · exact speaking_foreign h he hstep
    · cases hstep
  | repeatAck side unknown =>
    dsimp only [outside] at he
    rw [decide_eq_true_iff] at he
    subst he
    obtain ⟨bytes,hack,rfl⟩ := Option.map_eq_some_iff.mp hstep
    obtain ⟨ackId,_,rfl⟩ := Option.map_eq_some_iff.mp hack
    refine h.update_right h.talks (fun b hb => ?_)
    rw [List.mem_singleton.mp hb]
    exact ⟨_,[],h.talks.current,rfl,Or.inr rfl,rfl⟩

/-- So do whole runs of such events. -/
theorem speaking_run {id : UInt16} {events : List Event} {l l' : Link} (h : Speaking id l)
    (he : ∀ e∈events,outside e=true) (hrun : run eventStep l events=some l') :
    Speaking id l' := by
  induction events generalizing l with
  | nil =>
    rw [run_nil,Option.some.injEq] at hrun
    exact hrun ▸ h
  | cons e events ih =>
    obtain ⟨next,hnext,hrun⟩ := (run_cons_eq_some eventStep).mp hrun
    exact ih (speaking_outside h (he e List.mem_cons_self) hnext)
      (fun e' he' => he e' (List.mem_cons_of_mem _ he')) hrun

end AtemProxy.LinkTraffic
