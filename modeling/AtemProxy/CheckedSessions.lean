import AtemProxy.ProxySystem

/-!
# Sessions with the switcher whose id additions are checked

The successor of a packet id is a sixteen-bit addition followed by a
remainder. Here the addition yields nothing when the sum does not fit, as in
a build with overflow checks, and whatever needs the successor yields nothing
with it: the handshake, the acceptance of a reliable packet and every reliable
packet that is sent. All the rest of a session is as it was. From ids below
2^15 on, checked and plain sessions are the same; the only id that is not the
result of a remainder is the one the switcher puts into its HELLO reply.
-/

namespace AtemProxy.CheckedSessions

open BigEndian PacketCodec CommandPolicy ReliableTransport ReliableWindow SenderLedgers
  ServerSessions UpstreamSessions GuardedRuns ProxySystem

/-- Sixteen-bit addition; none on an overflow. -/
def checkedAdd (a b : UInt16) : Option UInt16 :=
  if a.toNat+b.toNat<65536 then some (a+b) else none

/-- Successor in the id space with a checked addition. -/
def nextPacketIdChecked (current : UInt16) : Option UInt16 :=
  (checkedAdd current 1).map (fun sum => sum%maxPacketId)

/-- Endpoint of the upstream session after the HELLO reply. -/
def forUpstreamChecked (sessionId helloId : UInt16) (clock : Instant) : Option ReliableEndpoint :=
  (nextPacketIdChecked helloId).map (fun expected =>
    {ReliableEndpoint.new sessionId {} clock with
      nextSendId := 1
      ack := {highestRecv := some helloId, expectedRecv := expected}})

/-- Accept the expected packet. -/
def acceptReliableChecked (ep : ReliableEndpoint) (packetId : UInt16) (isRetransmit : Bool) :
    Option (ReliableEndpoint×Bool) :=
  if packetId=ep.ack.expectedRecv then
    (nextPacketIdChecked ep.ack.expectedRecv).map (fun next =>
      ({ep with ack := {ep.ack with
          expectedRecv := next
          highestRecv := some packetId
          packetsSinceAck := saturatingSucc16 ep.ack.packetsSinceAck}},true))
  else if isRetransmit=true ∧
      isAckCovering ((ep.ack.expectedRecv-1)%maxPacketId) packetId=true then some (ep,false)
  else some (ep,false)

/-- Send one reliable packet. -/
def sendReliableChecked (ep : ReliableEndpoint) (payload : Bytes) (now : Instant) :
    Option (ReliableEndpoint×Bytes) :=
  (nextPacketIdChecked ep.nextSendId).map (fun next =>
    let bytes :=
      encodePacket (ReliableEndpoint.dataHeader ep.sessionId ep.nextSendId payload) payload
    ({ep with
        nextSendId := next
        inFlight := ep.inFlight++[⟨ep.nextSendId,bytes,now⟩]},bytes))

/-- Send queued payloads while the window has room. -/
def refillLoopChecked (now : Instant) :
    List Bytes → ReliableEndpoint → Option (ReliableEndpoint×List Bytes)
  | [],ep => some ({ep with outbound := []},[])
  | payload::queue,ep =>
    if ep.inFlight.length<ep.config.maxInFlight then
      (sendReliableChecked ep payload now).bind (fun sent =>
        (refillLoopChecked now queue sent.1).map (fun others =>
          (others.1,sent.2::others.2)))
    else some ({ep with outbound := payload::queue},[])

/-- Keepalive of one poll. -/
def pingPhaseChecked (ep : ReliableEndpoint) (now : Instant) :
    Option (ReliableEndpoint×List Bytes) :=
  if ep.opened=true ∧ ep.inFlight=[] ∧ ep.outbound=[] ∧
      ep.config.pingInterval≤now-ep.lastPingAt then
    (sendReliableChecked ep [] now).map (fun sent => ({sent.1 with lastPingAt := now},[sent.2]))
  else some (ep,[])

/-- One poll. -/
def pollOutboundChecked (ep : ReliableEndpoint) (now elapsedAt ackAt : Instant) :
    Option (ReliableEndpoint×List Bytes) :=
  let repeated := ep.retransmitPhase now
  (refillLoopChecked now repeated.1.outbound repeated.1).bind (fun refilled =>
    let acked := refilled.1.ackPhase elapsedAt ackAt
    (pingPhaseChecked acked.1 now).map (fun pinged =>
      (pinged.1,repeated.2++refilled.2++acked.2++pinged.2)))

/-- The addition overflows for a single id. -/
theorem nextPacketIdChecked_eq_none_iff (current : UInt16) :
    nextPacketIdChecked current=none ↔ current=65535 := by
  unfold nextPacketIdChecked checkedAdd
  rw [Option.map_eq_none_iff,ite_eq_right_iff]
  have hlt := current.toNat_lt
  have hone : (1 : UInt16).toNat=1 := rfl
  constructor
  · intro h
    have hfull : ¬current.toNat+(1 : UInt16).toNat<65536 := fun hfits => by cases h hfits
    apply UInt16.toNat_inj.mp
    change current.toNat=65535
    omega
  · rintro rfl hfits
    exact absurd hfits (by decide)

/-- The checked addition fails at the largest word only. -/
theorem nextPacketIdChecked_of_ne {current : UInt16} (h : current≠65535) :
    nextPacketIdChecked current=some (nextPacketId current) := by
  have hsome : nextPacketIdChecked current≠none :=
    fun hnone => h ((nextPacketIdChecked_eq_none_iff current).mp hnone)
  unfold nextPacketIdChecked checkedAdd at hsome ⊢
  split
  · rfl
  · rename_i hfull
    rw [if_neg hfull] at hsome
    exact absurd rfl hsome

/-- An id of the ring has a successor. -/
theorem nextPacketIdChecked_of_below {current : UInt16} (h : current.toNat<32768) :
    nextPacketIdChecked current=some (nextPacketId current) := by
  apply nextPacketIdChecked_of_ne
  rintro rfl
  exact absurd h (by decide)

/-- A successor is below 2^15, whatever it is the successor of. -/
theorem nextPacketId_below (current : UInt16) : (nextPacketId current).toNat<32768 := by
  rw [nextPacketId_toNat]
  exact Nat.mod_lt _ (by decide)

/-- All ids of an endpoint are below 2^15. -/
structure IdsBelow (ep : ReliableEndpoint) : Prop where
  /-- Id of the next packet to send. -/
  next : ep.nextSendId.toNat<32768
  /-- Id of the next packet to accept. -/
  expected : ep.ack.expectedRecv.toNat<32768
  /-- Ids in flight. -/
  window : ∀ entry∈ep.inFlight,entry.packetId.toNat<32768

/-- Fields that the ids do not depend on. -/
theorem IdsBelow.of_core {ep ep' : ReliableEndpoint} (h : IdsBelow ep)
    (hnext : ep'.nextSendId=ep.nextSendId)
    (hexpected : ep'.ack.expectedRecv=ep.ack.expectedRecv)
    (hwindow : ep'.inFlight=ep.inFlight) : IdsBelow ep' :=
  ⟨hnext ▸ h.next,hexpected ▸ h.expected,hwindow ▸ h.window⟩

/-- A transmission stays in the ring. -/
theorem IdsBelow.send {ep : ReliableEndpoint} (h : IdsBelow ep) (payload : Bytes)
    (now : Instant) : IdsBelow (ep.sendReliable payload now).1 := by
  refine ⟨nextPacketId_below _,h.expected,fun entry hentry => ?_⟩
  rcases List.mem_append.mp hentry with hold | hnew
  · exact h.window entry hold
  · rw [List.mem_singleton.mp hnew]
    exact h.next

/-- It does not overflow there. -/
theorem sendReliableChecked_eq {ep : ReliableEndpoint} (h : IdsBelow ep) (payload : Bytes)
    (now : Instant) : sendReliableChecked ep payload now=some (ep.sendReliable payload now) := by
  unfold sendReliableChecked
  rw [nextPacketIdChecked_of_below h.next]
  rfl

/-- So does an accepted packet. -/
theorem IdsBelow.accept {ep : ReliableEndpoint} (h : IdsBelow ep) (packetId : UInt16)
    (isRetransmit : Bool) : IdsBelow (ep.acceptReliable packetId isRetransmit).1 := by
  unfold ReliableEndpoint.acceptReliable
  split
  · exact ⟨h.next,nextPacketId_below _,h.window⟩
  · rw [ite_self]
    exact h

/-- Its check does not overflow there. -/
theorem acceptReliableChecked_eq {ep : ReliableEndpoint} (h : IdsBelow ep) (packetId : UInt16)
    (isRetransmit : Bool) :
    acceptReliableChecked ep packetId isRetransmit=
      some (ep.acceptReliable packetId isRetransmit) := by
  unfold acceptReliableChecked ReliableEndpoint.acceptReliable
  rw [nextPacketIdChecked_of_below h.expected]
  split
  · rfl
  · split <;> rfl

/-- A retransmission stays in the ring. -/
theorem IdsBelow.retransmit {ep : ReliableEndpoint} (h : IdsBelow ep) (now : Instant) :
    IdsBelow (ep.retransmitPhase now).1 := by
  unfold ReliableEndpoint.retransmitPhase
  split
  · exact h
  · split
    · refine ⟨h.next,h.expected,fun entry hentry => ?_⟩
      obtain ⟨old,hold,rfl⟩ := List.mem_map.mp hentry
      exact h.window old hold
    · exact h

/-- So does an acknowledgement. -/
theorem IdsBelow.ack {ep : ReliableEndpoint} (h : IdsBelow ep) (elapsedAt ackAt : Instant) :
    IdsBelow (ep.ackPhase elapsedAt ackAt).1 := by
  obtain ⟨hwindow,hnext,_,_⟩ := ackPhase_core ep elapsedAt ackAt
  refine h.of_core hnext ?_ hwindow
  unfold ReliableEndpoint.ackPhase ReliableEndpoint.buildAckPacket
  split
  · split <;> rfl
  · rfl

/-- What a phase makes of ids below 2^15 is below 2^15 again. -/
theorem phaseRule_below : PhaseRule (fun ep result => IdsBelow ep → IdsBelow result.1) where
  refl _ h := h
  fields hkeeps _ _ h := (hkeeps h).of_core rfl rfl rfl
  trans hfirst hsecond h := hsecond (hfirst h)

/-- So do the transmissions of a poll. -/
theorem sends_below (now : Instant) :
    Sends (fun ep result => IdsBelow ep → IdsBelow result.1) now :=
  fun _ payload _ h => h.send payload now

/-- So does a whole poll. -/
theorem IdsBelow.poll {ep : ReliableEndpoint} (h : IdsBelow ep) (now elapsedAt ackAt : Instant) :
    IdsBelow (ep.pollOutbound now elapsedAt ackAt).1 := by
  obtain ⟨_,_,hrest⟩ := phaseRule_below.poll (sends_below now)
    (fun _ hep => IdsBelow.ack hep elapsedAt ackAt) ep
  exact hrest (h.retransmit now)

/-- The refill does not overflow in the ring. -/
theorem refillLoopChecked_eq (now : Instant) (queue : List Bytes) {ep : ReliableEndpoint}
    (h : IdsBelow ep) :
    refillLoopChecked now queue ep=some (ReliableEndpoint.refillLoop now queue ep) := by
  induction queue generalizing ep with
  | nil => rfl
  | cons payload queue ih =>
    rw [refillLoopChecked,ReliableEndpoint.refillLoop]
    split
    · rw [sendReliableChecked_eq h,Option.bind_some,ih (h.send payload now)]
      rfl
    · rfl

/-- The keepalive does not overflow in the ring. -/
theorem pingPhaseChecked_eq {ep : ReliableEndpoint} (h : IdsBelow ep) (now : Instant) :
    pingPhaseChecked ep now=some (ep.pingPhase now) := by
  unfold pingPhaseChecked ReliableEndpoint.pingPhase
  split
  · rw [sendReliableChecked_eq h]
    rfl
  · rfl

/-- One poll below 2^15 overflows nowhere. -/
theorem pollOutboundChecked_eq {ep : ReliableEndpoint} (h : IdsBelow ep)
    (now elapsedAt ackAt : Instant) :
    pollOutboundChecked ep now elapsedAt ackAt=
      some (ep.pollOutbound now elapsedAt ackAt) := by
  have hrefilled := phaseRule_below.refillLoop (sends_below now)
    (ep.retransmitPhase now).1.outbound (ep.retransmitPhase now).1 (h.retransmit now)
  unfold pollOutboundChecked
  dsimp only
  rw [refillLoopChecked_eq now _ (h.retransmit now),Option.bind_some,
    pingPhaseChecked_eq (hrefilled.ack elapsedAt ackAt)]
  rfl

/-- What happens in a session once it is established. A command wakes the
session, which takes whatever else is in the channel and then sends it all. -/
inductive SessionAction where
  /-- A datagram of the switcher. -/
  | datagram (data : Bytes) (clock : Instant)
  /-- The first completed initialization opens the endpoint. -/
  | opened
  /-- A command wakes the session. -/
  | wake (cmd : Command)
  /-- One more command is taken from the channel. -/
  | take (cmd : Command)
  /-- The batch is sent. -/
  | flush (now elapsedAt ackAt : Instant)
  /-- The tick of the session. -/
  | tick (now elapsedAt ackAt : Instant)

/-- Session after an action. -/
def sessionStep (u : UpstreamSession) : SessionAction → UpstreamSession
  | .datagram data clock => (u.onDatagram data clock).1
  | .opened => u.call (.opened true)
  | .wake cmd => u.wake cmd
  | .take cmd => u.take cmd
  | .flush now elapsedAt ackAt => u.flush now elapsedAt ackAt
  | .tick now elapsedAt ackAt => u.tick now elapsedAt ackAt

/-- Session after the reply to the HELLO; none when it is refused or its id
has no successor. -/
def connectChecked (reply : Bytes) (clock : Instant) : Option UpstreamSession :=
  match decodePacket reply with
  | .error _ => none
  | .ok (header,payload) =>
    if isHandshakePacket header.flags=true ∧
        parseHandshakeStatus payload=some handshakeOkStatus then
      (forUpstreamChecked header.sessionId header.packetId clock).map (fun rel =>
        ⟨.start (rel.buildAckPacket clock).1,[],false,[]⟩)
    else none

/-- Poll the endpoint of a session. -/
def pollChecked (u : UpstreamSession) (now elapsedAt ackAt : Instant) : Option UpstreamSession :=
  (pollOutboundChecked u.ledger.endpoint now elapsedAt ackAt).map (fun polled =>
    {u with ledger := {u.ledger.call (.pollOutbound now elapsedAt ackAt) with
      endpoint := polled.1}})

/-- The channel is empty: send the batch. -/
def flushChecked (u : UpstreamSession) (now elapsedAt ackAt : Instant) : Option UpstreamSession :=
  (pollChecked u.pack now elapsedAt ackAt).map (fun sent => {sent with draining := false})

/-- Tick of a session that is not timed out. -/
def tickChecked (u : UpstreamSession) (now elapsedAt ackAt : Instant) : Option UpstreamSession :=
  let packed := if u.pending=[] then u else u.pack
  pollChecked packed now elapsedAt ackAt

/-- A datagram of the switcher, and the payload it asks to handle. -/
def onDatagramChecked (u : UpstreamSession) (data : Bytes) (clock : Instant) :
    Option (UpstreamSession×Option Bytes) :=
  let heard := u.call (.noteRecv clock)
  match decodePacket data with
  | .error _ => some (heard,none)
  | .ok (header,payload) =>
    let known := heard.onHeader header
    if isHandshakePacket header.flags=true then some (known,none)
    else if header.flags.ackRequest=true then
      (acceptReliableChecked known.ledger.endpoint header.packetId
        header.flags.isRetransmit).map (fun result =>
          ({known with ledger := {known.ledger with endpoint := result.1}},
            if result.2=true ∧ payload≠[] then some payload else none))
    else some (known,if payload≠[] then some payload else none)

/-- Session after an action; none when an addition overflows. -/
def sessionStepChecked (u : UpstreamSession) : SessionAction → Option UpstreamSession
  | .datagram data clock => (onDatagramChecked u data clock).map Prod.fst
  | .opened => some (u.call (.opened true))
  | .wake cmd => some (u.wake cmd)
  | .take cmd => some (u.take cmd)
  | .flush now elapsedAt ackAt => flushChecked u now elapsedAt ackAt
  | .tick now elapsedAt ackAt => tickChecked u now elapsedAt ackAt

/-- The handshake and everything after it; none when an addition overflows. -/
def sessionRunChecked (reply : Bytes) (clock : Instant) (acts : List SessionAction) :
    Option UpstreamSession :=
  (connectChecked reply clock).bind (fun u => run sessionStepChecked u acts)

/-- The ids of a session are below 2^15. -/
abbrev Below (u : UpstreamSession) : Prop := IdsBelow u.ledger.endpoint

/-- Every call on the endpoint keeps the ids below 2^15. -/
theorem below_call {u : UpstreamSession} (h : Below u) (c : EndpointCall) : Below (u.call c) := by
  cases c with
  | queuePayload payload => exact h.of_core rfl rfl rfl
  | queueCommandsPacked cmds => exact h.of_core rfl rfl rfl
  | onAckId ackId =>
    have hkept := (onAckId_suffix u.ledger.endpoint ackId).subset
    exact ⟨h.next,h.expected,fun entry hentry => h.window entry (hkept hentry)⟩
  | acceptReliable packetId isRetransmit => exact h.accept packetId isRetransmit
  | pollOutbound now elapsedAt ackAt => exact h.poll now elapsedAt ackAt
  | noteRecv clock => exact h.of_core rfl rfl rfl
  | opened flag => exact h.of_core rfl rfl rfl
  | sessionId sessionId => exact h.of_core rfl rfl rfl

/-- Calls and packing stay in the ring. -/
theorem sessionRule_below : SessionRule Below where
  call h c _ := below_call h c
  pack h := h.of_core rfl rfl rfl
  flag h _ := h

/-- So does a command that is taken. -/
theorem below_take {u : UpstreamSession} (h : Below u) (cmd : Command) :
    Below (u.take cmd) := by
  unfold UpstreamSession.take
  split <;> exact h

/-- No action leads out of the ids below 2^15, whatever a datagram says. -/
theorem below_sessionStep {u : UpstreamSession} (h : Below u) (a : SessionAction) :
    Below (sessionStep u a) := by
  cases a with
  | datagram data clock => exact sessionRule_below.onDatagram h data clock
  | opened => exact below_call h (.opened true)
  | wake cmd => exact sessionRule_below.wake h (below_take h cmd)
  | take cmd => exact below_take h cmd
  | flush now elapsedAt ackAt => exact sessionRule_below.flush h now elapsedAt ackAt
  | tick now elapsedAt ackAt => exact sessionRule_below.tick h now elapsedAt ackAt

/-- A datagram does not overflow in the ring. -/
theorem onDatagramChecked_eq {u : UpstreamSession} (h : Below u) (data : Bytes)
    (clock : Instant) : onDatagramChecked u data clock=some (u.onDatagram data clock) := by
  unfold onDatagramChecked UpstreamSession.onDatagram
  cases decodePacket data with
  | error _ => rfl
  | ok packet =>
    obtain ⟨header,payload⟩ := packet
    have hknown : Below ((u.call (.noteRecv clock)).onHeader header) :=
      sessionRule_below.onHeader (below_call h (.noteRecv clock)) header
    dsimp only
    split
    · rfl
    · rw [acceptReliableChecked_eq hknown]
      split <;> rfl

/-- A poll of the session does not overflow in the ring. -/
theorem pollChecked_eq {u : UpstreamSession} (h : Below u) (now elapsedAt ackAt : Instant) :
    pollChecked u now elapsedAt ackAt=some (u.call (.pollOutbound now elapsedAt ackAt)) := by
  unfold pollChecked
  rw [pollOutboundChecked_eq h]
  rfl

/-- Below 2^15 a checked action is the plain one. -/
theorem sessionStepChecked_eq {u : UpstreamSession} (h : Below u) (a : SessionAction) :
    sessionStepChecked u a=some (sessionStep u a) := by
  cases a with
  | datagram data clock =>
    rw [sessionStepChecked,onDatagramChecked_eq h]
    rfl
  | opened => rfl
  | wake cmd => rfl
  | take cmd => rfl
  | flush now elapsedAt ackAt =>
    rw [sessionStepChecked,flushChecked,pollChecked_eq (sessionRule_below.pack h)]
    rfl
  | tick now elapsedAt ackAt =>
    have hready : Below (if u.pending=[] then u else u.pack) := by
      split
      · exact h
      · exact sessionRule_below.pack h
    exact pollChecked_eq hready now elapsedAt ackAt

/-- From ids below 2^15 on, checked and plain sessions are the same. -/
theorem checked_run_eq {u : UpstreamSession} (h : Below u) (acts : List SessionAction) :
    run sessionStepChecked u acts=some (acts.foldl sessionStep u) ∧
      Below (acts.foldl sessionStep u) :=
  run_eq_foldl sessionStepChecked (fun _ a hu => sessionStepChecked_eq hu a)
    (fun _ a hu => below_sessionStep hu a) acts h

/-- A new session has ids below 2^15, whatever the switcher's reply says. -/
theorem below_connect {reply : Bytes} {clock : Instant} {u : UpstreamSession}
    (h : UpstreamSession.connect reply clock=some u) : Below u := by
  obtain ⟨header,rfl⟩ := UpstreamSession.connect_eq h
  have hfirst : (1 : UInt16).toNat<32768 := by decide
  refine ⟨hfirst,nextPacketId_below header.packetId,fun entry hentry => ?_⟩
  exact absurd hentry List.not_mem_nil

/-- The checked handshake accepts the same replies, except those with the
greatest of all sixteen-bit ids. -/
theorem connectChecked_eq {reply payload : Bytes} {header : PacketHeader} {clock : Instant}
    {u : UpstreamSession} (hdecode : decodePacket reply=.ok (header,payload))
    (haccepted : UpstreamSession.connect reply clock=some u) :
    connectChecked reply clock=if header.packetId=65535 then none else some u := by
  unfold connectChecked
  unfold UpstreamSession.connect at haccepted
  rw [hdecode] at haccepted ⊢
  dsimp only at haccepted ⊢
  split at haccepted
  · rename_i haccept
    rw [if_pos haccept]
    unfold forUpstreamChecked
    split
    · rename_i hgreatest
      rw [(nextPacketIdChecked_eq_none_iff header.packetId).mpr hgreatest]
      rfl
    · rename_i hother
      rw [nextPacketIdChecked_of_ne hother,←haccepted]
      rfl
  · cases haccepted

/-- Whatever follows the handshake, no addition overflows and all ids are below
2^15. -/
def IdsSafe (reply : Bytes) (clock : Instant) : Prop :=
  ∀ acts : List SessionAction,
    ∃ u,sessionRunChecked reply clock acts=some u ∧ IdsBelow u.ledger.endpoint

/-- A session is safe exactly when the id in the accepted HELLO reply is not the
greatest sixteen-bit number. -/
theorem session_ids_safe_iff {reply payload : Bytes} {header : PacketHeader} {clock : Instant}
    {u : UpstreamSession} (hdecode : decodePacket reply=.ok (header,payload))
    (haccepted : UpstreamSession.connect reply clock=some u) :
    IdsSafe reply clock ↔ header.packetId≠65535 := by
  have hconnect := connectChecked_eq hdecode haccepted
  constructor
  · intro hsafe hgreatest
    obtain ⟨v,hv,_⟩ := hsafe []
    rw [if_pos hgreatest] at hconnect
    rw [sessionRunChecked,hconnect] at hv
    cases hv
  · intro hother acts
    obtain ⟨hrun,hbelow⟩ := checked_run_eq (below_connect haccepted) acts
    rw [if_neg hother] at hconnect
    refine ⟨acts.foldl sessionStep u,?_,hbelow⟩
    rw [sessionRunChecked,hconnect]
    exact hrun

/-- Reply that accepts a HELLO, with this packet id. -/
def helloReply (packetId : UInt16) : Bytes :=
  encodePacket {PacketHeader.new {handshake := true} 0x8001 20 with packetId := packetId}
    [2,0,0,0,0,0,0,0]

/-- The reply of a switcher that counts from zero. -/
theorem session_ids_safe_first :
    (UpstreamSession.connect (helloReply 0) 0).isSome=true ∧ IdsSafe (helloReply 0) 0 := by
  have hconnect : (UpstreamSession.connect (helloReply 0) 0).isSome=true := by decide +kernel
  obtain ⟨u,hu⟩ := Option.isSome_iff_exists.mp hconnect
  have hdecode : decodePacket (helloReply 0)=
      .ok (PacketHeader.new {handshake := true} 0x8001 20,[2,0,0,0,0,0,0,0]) := by
    decide +kernel
  exact ⟨hconnect,(session_ids_safe_iff hdecode hu).mpr (by decide)⟩

/-- A reply with the greatest id is accepted, and the handshake overflows. -/
theorem greatest_hello_overflows :
    (UpstreamSession.connect (helloReply 65535) 0).isSome=true ∧
      connectChecked (helloReply 65535) 0=none ∧ ¬IdsSafe (helloReply 65535) 0 := by
  have hnone : connectChecked (helloReply 65535) 0=none := by decide +kernel
  refine ⟨by decide +kernel,hnone,fun hsafe => ?_⟩
  obtain ⟨u,hu,_⟩ := hsafe []
  rw [sessionRunChecked,hnone] at hu
  cases hu

/-- A session in the proxy was established just now, or it comes from the
session before by an action or by nothing. -/
theorem session_of_systemStep {x y : System} {a : SystemAction} {v : UpstreamSession}
    (h : systemStep x a=some y) (hv : y.session=some v) :
    (∃ reply clock,UpstreamSession.connect reply clock=some v) ∨
      ∃ u,x.session=some u ∧ (v=u ∨ ∃ b,v=sessionStep u b) := by
  cases moved_of_systemStep h with
  | upstream t _ =>
    obtain ⟨u,hu,hsame | hopened⟩ := sessionAfter_eq_some hv
    · exact Or.inr ⟨u,hu,Or.inl hsame⟩
    · exact Or.inr ⟨u,hu,Or.inr ⟨.opened,hopened⟩⟩
  | quiet a t _ _ => exact Or.inr ⟨v,hv,Or.inl rfl⟩
  | handler clock replied t _ => exact Or.inr ⟨v,hv,Or.inl rfl⟩
  | cleanup t _ => exact Or.inr ⟨v,hv,Or.inl rfl⟩
  | connect reply clock u _ _ hconnect =>
    cases hv
    exact Or.inl ⟨reply,clock,hconnect⟩
  | endSession t _ => cases hv
  | heard u data clock hu =>
    cases hv
    exact Or.inr ⟨u,hu,Or.inr ⟨.datagram data clock,rfl⟩⟩
  | handled u data clock payload t hu _ _ =>
    cases hv
    exact Or.inr ⟨u,hu,Or.inr ⟨.datagram data clock,rfl⟩⟩
  | woke u cmd channel hu _ =>
    cases hv
    exact Or.inr ⟨u,hu,Or.inr ⟨.wake cmd,rfl⟩⟩
  | took u now elapsedAt ackAt cmd channel hu _ =>
    cases hv
    exact Or.inr ⟨u,hu,Or.inr ⟨.take cmd,rfl⟩⟩
  | flushed u now elapsedAt ackAt hu _ =>
    cases hv
    exact Or.inr ⟨u,hu,Or.inr ⟨.flush now elapsedAt ackAt,rfl⟩⟩
  | ticked u clock now elapsedAt ackAt hu =>
    cases hv
    exact Or.inr ⟨u,hu,Or.inr ⟨.tick now elapsedAt ackAt,rfl⟩⟩
  | putForward raw forwards _ => exact Or.inr ⟨v,hv,Or.inl rfl⟩
  | putCleanup raw cleanups _ => exact Or.inr ⟨v,hv,Or.inl rfl⟩

/-- Every session that the proxy ever has keeps its ids below 2^15, and from
each of its states on the checked session is the plain one. -/
theorem system_sessions_agree (policy : FilterPolicy) (idle : ℕ) (acts : List SystemAction) :
    Always systemStep (fun x => ∀ u,x.session=some u → Below u ∧
      ∀ later,run sessionStepChecked u later=some (later.foldl sessionStep u))
      (System.start policy idle) acts := by
  have hbelow : Always systemStep (fun x => ∀ u,x.session=some u → Below u)
      (System.start policy idle) acts := by
    refine always_of_invariant systemStep ?_ ?_ acts
    · intro x a y hx hstep v hv
      rcases session_of_systemStep hstep hv with ⟨reply,clock,hconnect⟩ | ⟨u,hu,hfrom⟩
      · exact below_connect hconnect
      · rcases hfrom with rfl | ⟨b,rfl⟩
        · exact hx v hu
        · exact below_sessionStep (hx u hu) b
    · intro u hu
      cases hu
  exact hbelow.mono systemStep (fun x hx u hu =>
    ⟨hx u hu,fun later => (checked_run_eq (hx u hu) later).1⟩)

end AtemProxy.CheckedSessions
