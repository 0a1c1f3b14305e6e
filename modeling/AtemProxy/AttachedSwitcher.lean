import AtemProxy.CommandStreams
import AtemProxy.SwitcherLinks

/-!
# A switcher attached to the proxy by a lossy network

The switcher is the other end of the link of the upstream session: an endpoint of the
same code, set up as the server half sets up a session, that keeps its session id. Each
session has a socket of its own, so no datagram of an earlier one arrives. Whatever the
tasks of the proxy, its clients, the switcher and the network do, for as long as the
session lasts the switcher accepts the stream of commands put into the channel byte
for byte: nothing is missing before what it accepted, nothing comes twice, and nothing
overtakes.
-/

namespace AtemProxy.AttachedSwitcher

open BigEndian PacketCodec ReliableTransport ReliableWindow UpstreamSessions GuardedRuns ProxySystem
  PayloadBounds CommandEpochs UpstreamIds CommandStreams DuplexLinks LinkTraffic SwitcherLinks
open ReliableLink (Peer Link Datagram Linked linkStart)
open CommandPolicy (FilterPolicy)
open CommandFrames (syntheticInitComplete)

/-- Payload of a HELLO reply. -/
def handshakeReplyPayload : Bytes := [handshakeOkStatus,0,0,0,0,0,0,0]

/-- HELLO reply that assigns a session id. -/
def buildServerHandshakeReply (sessionId : UInt16) : Bytes :=
  encodePacket (PacketHeader.new {handshake := true} sessionId 20) handshakeReplyPayload

/-- The client half accepts the reply of the server half, acknowledges it as packet
zero and expects packet one. -/
theorem connect_buildServerHandshakeReply (sessionId : UInt16) (clock : Instant) :
    UpstreamSession.connect (buildServerHandshakeReply sessionId) clock=
      some ⟨.start ((ReliableEndpoint.forUpstream sessionId 0 clock).buildAckPacket clock).1,
        [],false,[]⟩ := by
  unfold UpstreamSession.connect buildServerHandshakeReply
  rw [decodePacket_encodePacket]
  rfl

/-- The whole proxy, and the link whose right end is the record of its session. -/
structure Wired where
  /-- The proxy. -/
  system : System
  /-- Switcher, record of the session and the datagrams between them. -/
  link : Link

/-- The link once the session acknowledged the HELLO reply. -/
def joinedLink (sessionId : UInt16) (clock switcherClock : Instant) : Link :=
  (linkStart (.forSession sessionId switcherClock) (.forUpstream sessionId 0 clock)).update .right
    ((Peer.start (.forUpstream sessionId 0 clock)).buildAckPacket clock)

/-- The proxy connects to a switcher that assigns this session id. -/
def join (x : System) (sessionId : UInt16) (clock switcherClock : Instant) : Option Wired :=
  (systemStep x (.connect (buildServerHandshakeReply sessionId) clock)).map
    (fun y => ⟨y,joinedLink sessionId clock switcherClock⟩)

/-- The datagram may still reach the session, in both directions of the link. -/
def arrives (l : Link) (d : Datagram) : Bool :=
  l.fresh .right d.mark && (swapped l).fresh .left d.mark

/-- What can happen to the proxy, to the switcher or between them. -/
inductive Move where
  /-- A step of the proxy without a datagram of the switcher. -/
  | system (a : SystemAction)
  /-- The datagram at this position reaches the proxy. -/
  | hear (i : ℕ) (clock : Instant)
  /-- The switcher or the network acts. -/
  | switcher (e : Event)

/-- Record of a session that heard a datagram. -/
def heard (v : UpstreamSession) (p : Peer) : Peer :=
  {p with ep := v.ledger.endpoint, queued := v.ledger.queued}

/-- Next state; none when the move is not possible. -/
def move (x : Wired) : Move → Option Wired
  | .system a =>
    match x.system.session,systemStep x.system a with
    | some u,some y =>
      if deaf a=true then
        y.session.map (fun v =>
          ⟨y,x.link.update .right (advanced u v x.link.right,emitted x.system a)⟩)
      else none
    | _,_ => none
  | .hear i clock =>
    match x.link.toRight[i]? with
    | none => none
    | some d =>
      if arrives x.link d=true then
        match systemStep x.system (.switcher d.bytes clock) with
        | none => none
        | some y => y.session.map (fun v =>
            ⟨y,(x.link.setWire .right (x.link.toRight.eraseIdx i)).update .right
              (heard v (x.link.right.handleDatagram clock none d.bytes).1,
                emitted x.system (.switcher d.bytes clock))⟩)
      else none
  | .switcher e =>
    if inside e=true then (eventStep x.link e).map (fun l => {x with link := l}) else none

/-- Commands put into the channel by a move. -/
def putsIn (x : Wired) : Move → List Command
  | .system a => puts x.system a
  | _ => []

/-- Payloads that a move hands to the upstream task. -/
def handsIn (x : Wired) : Move → List Bytes
  | .hear i clock =>
    match x.system.session,x.link.toRight[i]? with
    | some u,some d => (u.onDatagram d.bytes clock).2.toList
    | _,_ => []
  | _ => []

/-- The session lasts and is the right end of a link that counts the packets of both
directions, and both ends speak in the session of this id. -/
structure Wires (id : UInt16) (x : Wired) (u : UpstreamSession) : Prop where
  /-- Session. -/
  present : x.system.session=some u
  /-- Its record. -/
  mirrors : Mirrors u x.link.right
  /-- Both directions. -/
  duplex : Duplex x.link
  /-- The session. -/
  ours : Speaking id x.link
  /-- The switcher. -/
  theirs : Speaking id (swapped x.link)
  /-- The reply to the HELLO was acknowledged. -/
  high : High u
  /-- Queued payloads are made of packed commands. -/
  fresh : FreshSession 0 u
  /-- Everything on its way to the switcher fits. -/
  bounded : SystemBounded x.system

/-- Steps that hear nothing neither begin nor end a session. -/
theorem keepsSession_of_deaf {a : SystemAction} (h : deaf a=true) : keepsSession a=true := by
  cases a <;> first | rfl | cases h

/-- Steps of the proxy that hear nothing. -/
theorem wires_system {id : UInt16} {x : Wired} {u : UpstreamSession} {z : System}
    {a : SystemAction} (h : Wires id x u) (ha : deaf a=true) (hz : systemStep x.system a=some z) :
    ∃ v,z.session=some v ∧
      Wires id ⟨z,x.link.update .right (advanced u v x.link.right,emitted x.system a)⟩ v := by
  obtain ⟨v,hv,events,hevents,hfollows⟩ := follows_step h.present h.high ha hz
  have hkeeps := keepsSession_of_deaf ha
  have hrun := hfollows x.link h.mirrors
  obtain ⟨w,hw,hfresh⟩ := freshSession_step h.present hkeeps hz h.fresh
  rw [hv,Option.some.injEq] at hw
  subst hw
  obtain ⟨w,hw,hhigh⟩ := SessionRule.step sessionRule_high (fun _ cmd hp => high_take hp cmd)
    h.present hkeeps hz h.high
  rw [hv,Option.some.injEq] at hw
  subst hw
  exact ⟨v,hv,hv,⟨rfl,rfl⟩,duplex_run h.duplex hrun,speaking_run h.ours hevents hrun,
    ⟨h.theirs.talks,h.theirs.sent⟩,hhigh,hfresh,h.bounded.step hz⟩

/-- A datagram of the switcher that reaches the session is delivered by the link. -/
theorem hear_delivers {id : UInt16} {x : Wired} {u : UpstreamSession} {i : ℕ} {clock : Instant}
    {d : Datagram} (h : Wires id x u) (hd : x.link.toRight[i]?=some d)
    (htime : arrives x.link d=true) :
    let v := (u.onDatagram d.bytes clock).1
    let p := (x.link.right.handleDatagram clock none d.bytes).1
    Mirrors v p ∧
      eventStep x.link (.act (.deliver .right i clock none))=
        some ((x.link.setWire .right (x.link.toRight.eraseIdx i)).update .right
          (heard v p,emitted x.system (.switcher d.bytes clock))) ∧
      ∃ packets,p.accepted=x.link.right.accepted++packets ∧
        nonEmpty (packets.map Packet.payload)=(u.onDatagram d.bytes clock).2.toList := by
  obtain ⟨header,payload,hdecode,hid,hhello,hasks⟩ :=
    (h.theirs.sent d (List.mem_of_getElem? hd)).decode
  have hcurrent : header.sessionId=u.ledger.endpoint.sessionId := by
    rw [hid,←h.mirrors.ep]
    exact h.ours.talks.current.symm
  obtain ⟨hmirrors,hreply,packets,haccepted,hpayload⟩ :=
    onDatagram_mirrors h.mirrors hdecode hcurrent hhello clock
  have hheard : heard (u.onDatagram d.bytes clock).1
      (x.link.right.handleDatagram clock none d.bytes).1=
        (x.link.right.handleDatagram clock none d.bytes).1 := by
    unfold heard
    rw [←hmirrors.ep,←hmirrors.queued]
  have hemitted : emitted x.system (.switcher d.bytes clock)=
      (x.link.right.handleDatagram clock none d.bytes).2 := by
    unfold emitted
    rw [h.present]
    exact hreply
  have hfresh : x.link.fresh .right d.mark=true ∧ (swapped x.link).fresh .left d.mark=true :=
    Bool.and_eq_true_iff.mp htime
  refine ⟨hmirrors,eventStep_act ?_ ?_,packets,haccepted,hpayload hasks⟩
  · dsimp only [timely,Link.wire]
    rw [hd,Option.all_some]
    exact hfresh.2
  · dsimp only [ReliableLink.step,Link.wire]
    rw [hd]
    dsimp only
    rw [if_pos hfresh.1,hheard,hemitted]
    rfl

/-- What a datagram carries is handed to the upstream task exactly if it is accepted. -/
theorem wires_hear {id : UInt16} {x : Wired} {u : UpstreamSession} {z : System} {i : ℕ}
    {clock : Instant} {d : Datagram} (h : Wires id x u) (hd : x.link.toRight[i]?=some d)
    (htime : arrives x.link d=true) (hz : systemStep x.system (.switcher d.bytes clock)=some z) :
    z.session=some (u.onDatagram d.bytes clock).1 ∧
      Wires id ⟨z,(x.link.setWire .right (x.link.toRight.eraseIdx i)).update .right
        (heard (u.onDatagram d.bytes clock).1 (x.link.right.handleDatagram clock none d.bytes).1,
          emitted x.system (.switcher d.bytes clock))⟩ (u.onDatagram d.bytes clock).1 := by
  have hsession : z.session=some (u.onDatagram d.bytes clock).1 := by
    cases moved_of_systemStep hz with
    | heard v data clock hv =>
      rw [h.present,Option.some.injEq] at hv
      subst hv
      rfl
    | handled v data clock payload t hv _ _ =>
      rw [h.present,Option.some.injEq] at hv
      subst hv
      rfl
  obtain ⟨hmirrors,hdeliver,_⟩ := hear_delivers h hd htime
  have hkeeps : keepsSession (.switcher d.bytes clock)=true := rfl
  obtain ⟨w,hw,hgrouped⟩ := freshSession_step h.present hkeeps hz h.fresh
  rw [hsession,Option.some.injEq] at hw
  subst hw
  obtain ⟨w,hw,hhigh⟩ := SessionRule.step sessionRule_high (fun _ cmd hp => high_take hp cmd)
    h.present hkeeps hz h.high
  rw [hsession,Option.some.injEq] at hw
  subst hw
  exact ⟨hsession,hsession,⟨rfl,rfl⟩,duplex_event h.duplex hdeliver,
    speaking_outside h.ours rfl hdeliver,
    ⟨h.theirs.talks,fun e he => h.theirs.sent e (List.mem_of_mem_eraseIdx he)⟩,hhigh,hgrouped,
    h.bounded.step hz⟩

/-- Events of the switcher and of the network. -/
theorem wires_switcher {id : UInt16} {x : Wired} {u : UpstreamSession} {e : Event} {l : Link}
    (h : Wires id x u) (he : inside e=true) (hl : eventStep x.link e=some l) :
    l.right=x.link.right ∧ Wires id {x with link := l} u := by
  have hswapped := eventStep_swapped hl
  have hright : l.right=x.link.right := outside_left he hswapped
  refine ⟨hright,h.present,?_,duplex_event h.duplex hl,⟨?_,fun d hd => ?_⟩,
    speaking_outside h.theirs he hswapped,h.high,h.fresh,h.bounded⟩
  · dsimp only
    rw [hright]
    exact h.mirrors
  · dsimp only
    rw [hright]
    exact h.ours.talks
  · exact h.ours.sent d (outside_toRight he hswapped hd)

/-- Every move keeps the session, puts commands behind its stream and hands over what the
session accepts. -/
theorem wires_move {id : UInt16} {x y : Wired} {u : UpstreamSession} {m : Move}
    (h : Wires id x u) (hm : move x m=some y) :
    ∃ v,Wires id y v ∧ stream y.system v=stream x.system u++long (putsIn x m) ∧
      nonEmpty (y.link.right.accepted.map Packet.payload)=
        nonEmpty (x.link.right.accepted.map Packet.payload)++handsIn x m := by
  cases m with
  | system a =>
    dsimp only [move] at hm
    rw [h.present] at hm
    cases hz : systemStep x.system a with
    | none =>
      rw [hz] at hm
      cases hm
    | some z =>
      rw [hz] at hm
      dsimp only at hm
      split at hm
      · rename_i ha
        obtain ⟨v,hv,hy⟩ := Option.map_eq_some_iff.mp hm
        obtain ⟨w,hw,hwires⟩ := wires_system h ha hz
        rw [hv,Option.some.injEq] at hw
        subst hw hy
        obtain ⟨w,hw,hstream⟩ := stream_step h.present (keepsSession_of_deaf ha) hz
        rw [hv,Option.some.injEq] at hw
        subst hw
        exact ⟨v,hwires,hstream,(List.append_nil _).symm⟩
      · cases hm
  | hear i clock =>
    dsimp only [move] at hm
    cases hd : x.link.toRight[i]? with
    | none =>
      rw [hd] at hm
      cases hm
    | some d =>
      rw [hd] at hm
      dsimp only at hm
      split at hm
      · rename_i htime
        cases hz : systemStep x.system (.switcher d.bytes clock) with
        | none =>
          rw [hz] at hm
          cases hm
        | some z =>
          rw [hz] at hm
          obtain ⟨v,hv,rfl⟩ := Option.map_eq_some_iff.mp hm
          obtain ⟨hsession,hwires⟩ := wires_hear h hd htime hz
          obtain ⟨_,_,packets,haccepted,hpayload⟩ := hear_delivers h hd htime
          rw [hv,Option.some.injEq] at hsession
          subst hsession
          obtain ⟨w,hw,hstream⟩ := stream_step h.present rfl hz
          rw [hv,Option.some.injEq] at hw
          subst hw
          refine ⟨_,hwires,hstream,?_⟩
          have hhands : handsIn x (.hear i clock)=(u.onDatagram d.bytes clock).2.toList := by
            dsimp only [handsIn]
            rw [h.present,hd]
          rw [hhands,←hpayload,←nonEmpty_append,←List.map_append]
          exact congrArg (fun packets => nonEmpty (packets.map Packet.payload)) haccepted
      · cases hm
  | switcher e =>
    dsimp only [move] at hm
    split at hm
    · rename_i he
      obtain ⟨l,hl,rfl⟩ := Option.map_eq_some_iff.mp hm
      obtain ⟨hright,hwires⟩ := wires_switcher h he hl
      refine ⟨u,hwires,(List.append_nil _).symm,?_⟩
      dsimp only [handsIn]
      rw [hright,List.append_nil]
    · cases hm

/-- The session lasts over whole runs. -/
theorem wires_run {id : UInt16} {x y : Wired} {u : UpstreamSession} {moves : List Move}
    (h : Wires id x u) (hrun : run move x moves=some y) : ∃ v,Wires id y v :=
  run_invariant move
    (show ∀ s a t,(∃ v,Wires id s v) → move s a=some t → ∃ v,Wires id t v from
      fun _ _ _ hs hm => by
      obtain ⟨w,hw⟩ := hs
      obtain ⟨v,hv,_⟩ := wires_move hw hm
      exact ⟨v,hv⟩)
    ⟨u,h⟩ hrun

/-- The session lasts, its stream is this one followed by what was put since. -/
def Feeding (id : UInt16) (base : List Command) (x : Wired) (so : List Command) : Prop :=
  ∃ u,Wires id x u ∧ stream x.system u=base++long so

/-- The session lasts, and it has accepted exactly what was handed over. -/
def Handing (id : UInt16) (x : Wired) (so : List Bytes) : Prop :=
  ∃ u,Wires id x u ∧ nonEmpty (x.link.right.accepted.map Packet.payload)=so

/-- Over whole runs the stream grows by what is put. -/
theorem feeding_run {id : UInt16} {base : List Command} {x y : Wired} {moves : List Move}
    (h : Feeding id base x []) (hrun : run move x moves=some y) :
    Feeding id base y (outputs move putsIn x moves) :=
  run_outputs move (fun _ => True) (Feeding id base)
    (fun s m t so _ hs hm => by
      obtain ⟨u,hu,hso⟩ := hs
      obtain ⟨v,hv,hstream,_⟩ := wires_move hu hm
      exact ⟨v,hv,by rw [hstream,hso,long_append,List.append_assoc]⟩)
    (fun _ _ => trivial) h hrun

/-- Over whole runs the session accepts what is handed over. -/
theorem handing_run {id : UInt16} {x y : Wired} {moves : List Move} (h : Handing id x [])
    (hrun : run move x moves=some y) : Handing id y (outputs move handsIn x moves) :=
  run_outputs move (fun _ => True) (Handing id)
    (fun s m t so _ hs hm => by
      obtain ⟨u,hu,hso⟩ := hs
      obtain ⟨v,hv,_,haccepted⟩ := wires_move hu hm
      exact ⟨v,hv,by rw [haccepted,hso]⟩)
    (fun _ _ => trivial) h hrun

/-- The payloads queued by the session are on the wire as they are. -/
theorem Wires.queued_whole {id : UInt16} {x : Wired} {u : UpstreamSession} (h : Wires id x u) :
    x.link.right.queued.map wirePayload=u.ledger.queued := by
  rw [h.mirrors.queued,List.map_congr_left (fun payload hm =>
    wirePayload_of_le ((h.bounded.session u h.present).queued payload hm))]
  exact List.map_id _

/-- They concatenate to the commands that the session packed. -/
theorem Wires.queued_flatten {id : UInt16} {x : Wired} {u : UpstreamSession} (h : Wires id x u) :
    (nonEmpty (x.link.right.queued.map wirePayload)).flatten=streamBytes u.packed := by
  rw [h.queued_whole]
  exact List.flatten_filter_ne_nil.trans (CommandStreams.queued_flatten h.fresh)

/-- The switcher accepted the first bytes of the commands packed so far. -/
theorem Wires.accepted_first {id : UInt16} {x : Wired} {u : UpstreamSession}
    (h : Wires id x u) :
    (x.link.left.accepted.map Packet.payload).flatten<+:streamBytes u.packed := by
  rw [←h.queued_flatten,←List.flatten_filter_ne_nil]
  exact (Linked.inOrder h.duplex.back).1.flatten

/-- It accepted all of them once nothing is left to send or to be acknowledged. -/
theorem Wires.accepted_everything {id : UInt16} {x : Wired} {u : UpstreamSession}
    (h : Wires id x u) (hout : u.ledger.endpoint.outbound=[])
    (hwindow : u.ledger.endpoint.inFlight=[]) :
    (x.link.left.accepted.map Packet.payload).flatten=streamBytes u.packed := by
  have heverything : nonEmpty (x.link.left.accepted.map Packet.payload)=
      nonEmpty (x.link.right.queued.map wirePayload) :=
    Linked.everything h.duplex.back ⟨(congrArg ReliableEndpoint.outbound h.mirrors.ep).trans hout,
      (congrArg ReliableEndpoint.inFlight h.mirrors.ep).trans hwindow⟩
  rw [←h.queued_flatten,←heverything]
  exact List.flatten_filter_ne_nil.symm

/-- The handshake leaves both ends ready to talk. -/
theorem wires_join {x₀ : System} {x : Wired} {id : UInt16} {clock switcherClock : Instant}
    (hbounded : SystemBounded x₀) (hjoin : join x₀ id clock switcherClock=some x) :
    ∃ u,Wires id x u ∧ stream x.system u=long x₀.channel ∧ x.link.right.accepted=[] := by
  obtain ⟨y,hy,rfl⟩ := Option.map_eq_some_iff.mp hjoin
  have hkept := hbounded.step hy
  cases moved_of_systemStep hy with
  | connect reply clock v _ _ hdone =>
    rw [connect_buildServerHandshakeReply,Option.some.injEq] at hdone
    subst hdone
    have hack : eventStep (linkStart (.forSession id switcherClock) (.forUpstream id 0 clock))
        (.act (.buildAckPacket .right clock))=some (joinedLink id clock switcherClock) := rfl
    have hempty : Speaking id
        (linkStart (.forSession id switcherClock) (.forUpstream id 0 clock)) :=
      ⟨talks_of_empty rfl rfl,fun d hd => absurd hd List.not_mem_nil⟩
    refine ⟨_,⟨rfl,⟨rfl,rfl⟩,duplex_event (duplex_linkStart id 0 clock switcherClock rfl) hack,
      speaking_outside hempty rfl hack,⟨talks_of_empty rfl rfl,fun d hd => absurd hd
        List.not_mem_nil⟩,Option.some_ne_none 0,
      freshSession_connect (connect_buildServerHandshakeReply id clock) 0,hkept⟩,rfl,rfl⟩

/-- Nothing of the stream is left behind in the session or in the channel. -/
structure Drained (x : System) (u : UpstreamSession) : Prop where
  /-- Nothing waits to be sent. -/
  outbound : u.ledger.endpoint.outbound=[]
  /-- Nothing waits to be acknowledged. -/
  window : u.ledger.endpoint.inFlight=[]
  /-- Nothing waits to be packed. -/
  pending : u.pending=[]
  /-- No command waits in the channel. -/
  channel : long x.channel=[]

/-- Commands reach the switcher, and payloads of the switcher reach the proxy: over every
run of the proxy from its start, a session with the switcher and whatever happens in it,
the bytes that the switcher accepted are the first ones of the commands that waited in
the channel and of those put since, in this order, and all of them once nothing is left
to send; the payloads handed to the upstream task are the first ones that the switcher
queued. -/
theorem switcher_receives_stream {policy : FilterPolicy} {idle : ℕ}
    {before : List SystemAction} {x₀ : System} {id : UInt16} {clock switcherClock : Instant}
    {x y : Wired} {moves : List Move}
    (hreach : run systemStep (System.start policy idle) before=some x₀)
    (hjoin : join x₀ id clock switcherClock=some x) (hrun : run move x moves=some y) :
    ∃ v,y.system.session=some v ∧
      (y.link.left.accepted.map Packet.payload).flatten<+:
        streamBytes (long x₀.channel++long (outputs move putsIn x moves)) ∧
      (Drained y.system v → (y.link.left.accepted.map Packet.payload).flatten=
        streamBytes (long x₀.channel++long (outputs move putsIn x moves))) ∧
      outputs move handsIn x moves<+:nonEmpty (y.link.left.queued.map wirePayload) := by
  have hbounded : SystemBounded x₀ :=
    run_invariant systemStep (fun _ _ _ hx hstep => SystemBounded.step hx hstep)
      (systemBounded_start policy idle) hreach
  obtain ⟨u,hwires,hstream,hnone⟩ := wires_join hbounded hjoin
  obtain ⟨v,hv,hso⟩ := feeding_run ⟨u,hwires,by rw [hstream]; exact (List.append_nil _).symm⟩ hrun
  obtain ⟨_,hv',hhanded⟩ := handing_run ⟨u,hwires,by rw [hnone]; rfl⟩ hrun
  have hbase : streamBytes (stream y.system v)=
      streamBytes (long x₀.channel++long (outputs move putsIn x moves)) := congrArg streamBytes hso
  refine ⟨v,hv.present,?_,fun hdrained => ?_,?_⟩
  · rw [←hbase]
    exact hv.accepted_first.trans (streamBytes_packed y.system v)
  · have hpacked : stream y.system v=v.packed := by
      unfold stream taken
      rw [hdrained.pending,hdrained.channel,List.append_nil,List.append_nil]
    rw [←hbase,hpacked]
    exact hv.accepted_everything hdrained.outbound hdrained.window
  · rw [←hhanded]
    exact (Linked.inOrder hv'.duplex.forth).1

/-- A cut is put into the channel, and the session ends before it is taken. -/
def cutLeft : List SystemAction := sessionReady++cutForwarded++sessionEnded

/-- The proxy between two sessions. -/
def betweenSessions : System := (run systemStep systemStart cutLeft).getD systemStart

/-- The switcher is back. -/
def rejoined : Wired :=
  (join betweenSessions 7 0 0).getD ⟨betweenSessions,joinedLink 7 0 0⟩

/-- The switcher completes its initialization, which arrives twice; the cut is taken and
sent, its datagram is duplicated, accepted once and acknowledged. -/
def cutDelivered : List Move :=
  [.switcher (.act (.queuePayload .left syntheticInitComplete)),
    .switcher (.act (.pollOutbound .left 1 1 1)),.switcher (.act (.duplicate .right 0)),
    .hear 0 2,.system (.server .upstream),.system (.server .upstream),
    .system (.server .upstream),.hear 0 2,.system .wake,.system (.drain 10 10 10),
    .switcher (.act (.duplicate .left 3)),.switcher (.act (.lose .left 0)),
    .switcher (.act (.lose .left 0)),.switcher (.act (.deliver .left 0 11 none)),
    .switcher (.act (.deliver .left 0 11 none)),.switcher (.act (.pollOutbound .left 20 20 20)),
    .hear 0 21]

/-- Proxy and switcher after that. -/
def cutAccepted : Wired := (run move rejoined cutDelivered).getD rejoined

/-- The switcher accepts the cut once. -/
theorem cutAccepted_once :
    (cutAccepted.link.left.accepted.map Packet.payload).flatten=cut ∧
      ∃ v,cutAccepted.system.session=some v ∧
      (cutAccepted.link.left.accepted.map Packet.payload).flatten<+:
        streamBytes (long betweenSessions.channel++
          long (outputs move putsIn rejoined cutDelivered)) ∧
      (Drained cutAccepted.system v → (cutAccepted.link.left.accepted.map Packet.payload).flatten=
        streamBytes (long betweenSessions.channel++
          long (outputs move putsIn rejoined cutDelivered))) ∧
      outputs move handsIn rejoined cutDelivered<+:
        nonEmpty (cutAccepted.link.left.queued.map wirePayload) :=
  ⟨by decide +kernel,switcher_receives_stream
    (show run systemStep (System.start ⟨.deny,.new,.new {}⟩ 5000) cutLeft=some betweenSessions
      from rfl)
    (show join betweenSessions 7 0 0=some rejoined from rfl)
    (show run move rejoined cutDelivered=some cutAccepted from rfl)⟩

end AtemProxy.AttachedSwitcher
