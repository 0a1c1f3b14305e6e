import AtemProxy.ReliableLink

/-!
# Both directions of a link

The numbers of a link follow the packets of its left peer. Seen from the
other end the same steps follow those of the right peer, as long as the
datagrams that refer to these are not older than the ids allow either. Then
both directions deliver in order at once.
-/

namespace AtemProxy.DuplexLinks

open BigEndian PacketCodec ReliableTransport ReliableWindow ReliableLink GuardedRuns

/-- The link seen from its other end. -/
def swapped (l : Link) : Link := ⟨l.right,l.left,l.toRight,l.toLeft⟩

/-- The action seen from the other end. -/
def turned : Action → Action
  | .queuePayload side payload => .queuePayload side.other payload
  | .queueCommandsPacked side cmds => .queueCommandsPacked side.other cmds
  | .pollOutbound side now elapsedAt ackAt => .pollOutbound side.other now elapsedAt ackAt
  | .buildAckPacket side clock => .buildAckPacket side.other clock
  | .opened side => .opened side.other
  | .deliver side i clock dump => .deliver side.other i clock dump
  | .lose side i => .lose side.other i
  | .duplicate side i => .duplicate side.other i

/-- A delivered datagram that refers to packets of the right peer is not older
than their ids allow. -/
def timely (l : Link) : Action → Bool
  | .deliver side i _ _ => ((l.wire side)[i]?).all (fun d => (swapped l).fresh side.other d.mark)
  | _ => true

/-- Swapping the ends swaps the wires. -/
theorem swapped_wire (l : Link) (side : Side) : (swapped l).wire side.other=l.wire side := by
  cases side <;> rfl

/-- It swaps the peers. -/
theorem swapped_peer (l : Link) (side : Side) : (swapped l).peer side.other=l.peer side := by
  cases side <;> rfl

/-- A wire can be replaced before or after. -/
theorem swapped_setWire (l : Link) (side : Side) (ds : List Datagram) :
    (swapped l).setWire side.other ds=swapped (l.setWire side ds) := by
  cases side <;> rfl

/-- So can a peer with what it sends. -/
theorem swapped_update (l : Link) (side : Side) (result : Peer×List Bytes) :
    (swapped l).update side.other result=swapped (l.update side result) := by
  cases side <;> rfl

/-- A timely step is a step seen from the other end as well. -/
theorem step_swapped {l l' : Link} {a : Action} (h : step l a=some l') (ht : timely l a=true) :
    step (swapped l) (turned a)=some (swapped l') := by
  cases a with
  | deliver side i clock dump =>
    dsimp only [step] at h
    split at h
    · cases h
    · rename_i d hd
      split at h
      · cases h
        dsimp only [timely] at ht
        rw [hd,Option.all_some] at ht
        dsimp only [step,turned]
        rw [swapped_wire,hd]
        dsimp only
        rw [if_pos ht,swapped_setWire,swapped_peer,swapped_update]
      · cases h
  | queuePayload side payload => cases side <;> cases h <;> rfl
  | queueCommandsPacked side cmds => cases side <;> cases h <;> rfl
  | pollOutbound side now elapsedAt ackAt => cases side <;> cases h <;> rfl
  | buildAckPacket side clock => cases side <;> cases h <;> rfl
  | opened side => cases side <;> cases h <;> rfl
  | lose side i => cases side <;> cases h <;> rfl
  | duplicate side i => cases side <;> cases h <;> rfl

/-- The numbers of both directions. -/
structure Duplex (l : Link) : Prop where
  /-- Packets of the left peer. -/
  forth : Linked l
  /-- Packets of the right peer. -/
  back : Linked (swapped l)

/-- A timely step keeps the account of both directions. -/
theorem duplex_step {l l' : Link} {a : Action} (h : Duplex l) (ht : timely l a=true)
    (hstep : step l a=some l') : Duplex l' :=
  ⟨linked_step h.forth hstep,linked_step h.back (step_swapped hstep ht)⟩

/-- An action of the link, or an acknowledgement that an end sends once more without
keeping account of it. -/
inductive Event where
  /-- An action. -/
  | act (a : Action)
  /-- The last accepted packet is acknowledged again, with this miscellaneous field. -/
  | repeatAck (side : Side) (unknown : UInt16)

/-- Acknowledgement of the last accepted packet. -/
def repeatedAck (ep : ReliableEndpoint) (unknown : UInt16) : Option Bytes :=
  ep.ack.highestRecv.map (fun ackId =>
    encodePacket {ReliableEndpoint.ackHeader ep.sessionId ackId with unknown := unknown} [])

/-- Next state; none when the event is not possible or a datagram arrives too late. -/
def eventStep (l : Link) : Event → Option Link
  | .act a => if timely l a=true then step l a else none
  | .repeatAck side unknown =>
    (repeatedAck (l.peer side).ep unknown).map (fun bytes => l.update side (l.peer side,[bytes]))

/-- The event seen from the other end. -/
def turnedEvent : Event → Event
  | .act a => .act (turned a)
  | .repeatAck side unknown => .repeatAck side.other unknown

/-- A timely action is an event. -/
theorem eventStep_act {l l' : Link} {a : Action} (ht : timely l a=true) (h : step l a=some l') :
    eventStep l (.act a)=some l' := (if_pos ht).trans h

/-- What is delivered in time for one end is so for the other. -/
theorem timely_swapped {l l' : Link} {a : Action} (h : step l a=some l') :
    timely (swapped l) (turned a)=true := by
  cases a with
  | deliver side i clock dump =>
    dsimp only [step] at h
    split at h
    · cases h
    · rename_i d hd
      split at h
      · rename_i hfresh
        dsimp only [turned,timely]
        rw [swapped_wire,hd,Option.all_some]
        cases side <;> exact hfresh
      · cases h
  | _ => rfl

/-- Events are events seen from the other end as well. -/
theorem eventStep_swapped {l l' : Link} {e : Event} (h : eventStep l e=some l') :
    eventStep (swapped l) (turnedEvent e)=some (swapped l') := by
  cases e with
  | act a =>
    dsimp only [eventStep] at h
    split at h
    · rename_i ht
      exact eventStep_act (timely_swapped h) (step_swapped h ht)
    · cases h
  | repeatAck side unknown =>
    obtain ⟨bytes,hack,rfl⟩ := Option.map_eq_some_iff.mp h
    dsimp only [turnedEvent,eventStep]
    rw [swapped_peer,hack,Option.map_some,swapped_update]

/-- A repeated acknowledgement is one of the last accepted packet. -/
theorem repeatedAck_acknowledges {ep : ReliableEndpoint} {unknown : UInt16} {bytes : Bytes}
    (h : repeatedAck ep unknown=some bytes) :
    ∃ ackId,ep.ack.highestRecv=some ackId ∧ Acknowledges bytes ackId := by
  obtain ⟨ackId,hhigh,rfl⟩ := Option.map_eq_some_iff.mp h
  exact ⟨ackId,hhigh,_,decodePacket_encodePacket _ _,rfl,rfl,rfl⟩

/-- A repeated acknowledgement is numbered like the first one. -/
theorem Linked.repeatAck {l : Link} (h : Linked l) (side : Side) {unknown : UInt16}
    {bytes : Bytes} (hack : repeatedAck (l.peer side).ep unknown=some bytes) :
    Linked (l.update side (l.peer side,[bytes])) := by
  obtain ⟨ackId,hhigh,ha⟩ := repeatedAck_acknowledges hack
  cases side with
  | left =>
    refine h.update_left h.sending List.prefix_rfl h.ackedAccepted (fun b hb => ?_)
    rw [List.mem_singleton.mp hb]
    exact Or.inr (Or.inl ⟨ackId,ha⟩)
  | right =>
    refine h.update_right h.receiving h.framed rfl (Nat.le_refl _) (fun b hb => ?_)
    rw [List.mem_singleton.mp hb]
    exact ackMarked_of_receiving h.receiving
      (show Emission [] l.right.ep.ack.highestRecv bytes from Or.inr ⟨ackId,hhigh,ha⟩) rfl

/-- Every event keeps the account of both directions. -/
theorem duplex_event {l l' : Link} {e : Event} (h : Duplex l) (hstep : eventStep l e=some l') :
    Duplex l' := by
  cases e with
  | act a =>
    dsimp only [eventStep] at hstep
    split at hstep
    · rename_i ht
      exact duplex_step h ht hstep
    · cases hstep
  | repeatAck side unknown =>
    obtain ⟨bytes,hack,rfl⟩ := Option.map_eq_some_iff.mp hstep
    refine ⟨Linked.repeatAck h.forth side hack,?_⟩
    rw [←swapped_update,←swapped_peer]
    exact Linked.repeatAck h.back side.other
      (show repeatedAck ((swapped l).peer side.other).ep unknown=some bytes by
        rw [swapped_peer]
        exact hack)

/-- Whatever happens on a link keeps the numbers of both directions. -/
theorem duplex_run {l l' : Link} {events : List Event} (h : Duplex l)
    (hrun : run eventStep l events=some l') : Duplex l' :=
  run_invariant eventStep (fun _ _ _ hd hs => duplex_event hd hs) h hrun

/-- Both ends as the handshake leaves them. -/
theorem duplex_linkStart (sessionId helloId : UInt16) (clock clock' : Instant)
    (h : nextPacketId helloId=1) :
    Duplex (linkStart (.forSession sessionId clock') (.forUpstream sessionId helloId clock)) :=
  have hfresh := fresh_linkStart sessionId helloId clock clock' h
  ⟨hfresh.2.linked,hfresh.1.linked⟩

/-- The accepted payloads, keepalives apart, are the first ones queued as the
wire carries them, and what left the window was accepted. -/
theorem Linked.inOrder {l : Link} (h : Linked l) :
    nonEmpty (l.right.accepted.map Packet.payload)<+:nonEmpty (l.left.queued.map wirePayload) ∧
      l.left.acked<+:l.right.accepted := by
  have hsent : nonEmpty (l.right.accepted.map Packet.payload)<+:
      nonEmpty (l.left.sent.map Packet.payload) :=
    (h.receiving.inOrder.map Packet.payload).filter _
  have hall := h.sending.accounted
  rw [nonEmpty_append] at hall
  have hprefix : l.left.acked<+:l.left.sent := ⟨_,h.sending.windowed.split.symm⟩
  exact ⟨hsent.trans ⟨_,hall⟩,
    List.prefix_of_prefix_length_le hprefix h.receiving.inOrder h.ackedAccepted⟩

/-- A peer with nothing left to send and nothing unacknowledged has been accepted as a
whole. -/
theorem Linked.everything {l : Link} (h : Linked l)
    (hempty : l.left.ep.outbound=[] ∧ l.left.ep.inFlight=[]) :
    nonEmpty (l.right.accepted.map Packet.payload)=nonEmpty (l.left.queued.map wirePayload) := by
  have hsplit := h.sending.windowed.split
  rw [hempty.2,List.map_nil,List.append_nil] at hsplit
  have hlength : l.right.accepted.length=l.left.sent.length := by
    refine le_antisymm h.receiving.inOrder.length_le ?_
    rw [hsplit]
    exact h.ackedAccepted
  have haccepted : l.right.accepted=l.left.sent := h.receiving.inOrder.eq_of_length hlength
  have haccounted := h.sending.accounted
  rw [hempty.1,List.map_nil,List.append_nil] at haccounted
  rw [haccepted,haccounted]

end AtemProxy.DuplexLinks
