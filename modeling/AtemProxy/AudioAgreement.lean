import AtemProxy.ServerSessions
import AtemProxy.GuardedRuns

/-!
# Audio subscribers of the filter and of the sessions

The same fact is stored twice: the filter keeps the set of subscribers, each
session a flag. The server steps are complete here: a handshake, a client
datagram, a tick with the cleanup of every expired session, and the fan-out
handling upstream events. Two steps replace or drop sessions without telling
the filter, and agreement is lost exactly there.
-/

namespace AtemProxy.AudioAgreement

open BigEndian PacketCodec CommandFrames KeyedMaps LockStores ProxyConfig CommandPolicy
  LateJoinCache ReliableTransport ServerSessions GuardedRuns

/-- Everything the server tasks share. -/
structure Server where
  /-- Sessions by address. -/
  sessions : Sessions
  /-- Fan-in filter with locks and lane. -/
  filter : CommandFilter
  /-- State cache. -/
  cache : StateCache
  /-- The upstream session is ready. -/
  connected : Bool
  /-- Counter for session ids. -/
  nextSid : UInt16
  /-- Idle limit of a client. -/
  idle : ℕ

namespace Server

/-- Handle a HELLO; a failed reply leaves no session. -/
def hello (s : Server) (addr : SocketAddr) (clock : Instant) (replied : Bool) : Server :=
  if s.connected=false ∨ s.cache.ready=false then s
  else if replied=false then {s with nextSid := s.nextSid+1}
  else
    {s with
      nextSid := s.nextSid+1
      sessions := s.sessions.insert addr (.hello (serverSessionId s.nextSid) clock)}

/-- Handle a datagram of a client with a session, and list the commands to
send upstream. -/
def sessionDatagram (s : Server) (addr : SocketAddr) (sess : ClientSession)
    (header : PacketHeader) (payload : Bytes) (clock : Instant) : Server×List Bytes :=
  let admission := (sess.onHeader header s.cache.dump clock).onReliable header payload
  match admission.payload with
  | none => ({s with sessions := s.sessions.insert addr admission.session},[])
  | some accepted =>
    let result := s.filter.processPayload addr accepted
    ({s with
        sessions := s.sessions.insert addr (admission.session.applyActions result.2)
        filter := result.1},
      result.2.flatMap FilterAction.forwarded)

/-- Handle one datagram from a client. -/
def handleDatagram (s : Server) (addr : SocketAddr) (data : Bytes) (clock : Instant)
    (replied : Bool) : Server×List Bytes :=
  match decodePacket data with
  | .error _ => (s,[])
  | .ok (header,payload) =>
    if isHandshakePacket header.flags=true then (s.hello addr clock replied,[])
    else match s.sessions.get? addr with
      | none => (s,[])
      | some sess => s.sessionDatagram addr sess header payload clock

/-- One tick: poll live sessions, remove silent ones and clean up after them. -/
def tick (s : Server) (now : Instant) (clocks : SocketAddr → PollClocks) : Server :=
  {s with
    sessions := tickSessions s.sessions s.idle now clocks
    filter := (deadAddrs s.sessions s.idle now).foldl
      (fun f addr => (f.clientDisconnected addr).1) s.filter}

/-- The fan-out handles an upstream disconnect. -/
def disconnected (s : Server) : Server :=
  {s with
    sessions := OrderedMap.empty
    filter := {s.filter with
      policy := {s.filter.policy with transfer := s.filter.policy.transfer.clear}}}

end Server

/-- Complete steps of the server, and what the upstream task may change
between them. -/
inductive Action where
  /-- A datagram arrives; the flag says whether a HELLO reply can be sent. -/
  | datagram (addr : SocketAddr) (data : Bytes) (clock : Instant) (replied : Bool)
  /-- The tick fires. -/
  | tick (now : Instant) (clocks : SocketAddr → PollClocks)
  /-- An upstream disconnect is handled. -/
  | disconnected
  /-- State is fanned out. -/
  | statePayload (payload : Bytes)
  /-- Audio levels are fanned out. -/
  | audioLevels (payload : Bytes)
  /-- Transfer data is routed to a client. -/
  | transferPayload (owner : SocketAddr) (payload : Bytes)
  /-- The fan-out lagged and resyncs. -/
  | lagged
  /-- The upstream task changed the connection flag, the cache or the locks. -/
  | upstream (connected : Bool) (cache : StateCache) (locks : LockBroker)

/-- Next state; every action is possible in every state. -/
def next (s : Server) : Action → Server
  | .datagram addr data clock replied => (s.handleDatagram addr data clock replied).1
  | .tick now clocks => s.tick now clocks
  | .disconnected => s.disconnected
  | .statePayload payload => {s with sessions := s.sessions.mapValues (fun _ => .queueState payload)}
  | .audioLevels payload => {s with sessions := s.sessions.mapValues (fun _ => .queueAudio payload)}
  | .transferPayload owner payload =>
    {s with sessions := s.sessions.mapValues (ClientSession.queueTransfer owner payload)}
  | .lagged => {s with sessions := s.sessions.mapValues (fun _ => .queueResync s.cache.dump)}
  | .upstream connected cache locks =>
    {s with
      connected := connected
      cache := cache
      filter := {s.filter with policy := {s.filter.policy with locks := locks}}}

/-- The step function of runs. -/
def step (s : Server) (action : Action) : Option Server := some (next s action)

/-- The sessions record a subscription of the address. -/
def Subscribed (sessions : Sessions) (addr : SocketAddr) : Prop :=
  ∃ sess, sessions.get? addr=some sess ∧ sess.audio=true

/-- Subscriber set and session flags agree. -/
def Agrees (s : Server) : Prop :=
  ∀ addr, addr∈s.filter.audio.clients ↔ Subscribed s.sessions addr

/-- The reported flag is the flag of the command. -/
theorem audioEdge_getD (subs : AudioSubs) (sender : SocketAddr) (enable : Bool) (raw : Bytes) :
    (audioEdge subs.clients.card (subs.update sender enable raw).clients.card).getD enable=
      enable := by
  cases he : audioEdge subs.clients.card (subs.update sender enable raw).clients.card with
  | none => rfl
  | some edge =>
    cases edge with
    | false => exact (enable_of_edge_false he).symm
    | true =>
      cases enable with
      | true => rfl
      | false =>
        have hcard := Finset.card_le_card (Finset.erase_subset sender subs.clients)
        simp only [AudioSubs.update,Bool.false_eq_true,if_false,audioEdge] at he
        split at he
        · rename_i hpos
          omega
        · split at he <;> cases he

/-- An audio command decides about its sender only. -/
theorem mem_audioUpdate_iff (subs : AudioSubs) (sender addr : SocketAddr) (enable : Bool)
    (raw : Bytes) :
    addr∈(subs.update sender enable raw).clients ↔
      if addr=sender then enable=true else addr∈subs.clients := by
  by_cases ha : addr=sender
  · subst ha
    cases enable <;> simp [AudioSubs.update]
  · cases enable <;> simp [AudioSubs.update,ha]

/-- Effect of one command on the subscriber set and on the sender's flag. -/
theorem processCommand_audio (f : CommandFilter) (sender : SocketAddr) (cmd : CommandRef) :
    (∀ addr≠sender,addr∈(f.processCommand sender cmd).1.audio.clients ↔
        addr∈f.audio.clients) ∧
      ∀ sess : ClientSession,(sender∈f.audio.clients ↔ sess.audio=true) →
        (sender∈(f.processCommand sender cmd).1.audio.clients ↔
          (sess.applyAction (f.processCommand sender cmd).2).audio=true) := by
  simp only [CommandFilter.processCommand]
  split
  · simp only [CommandFilter.processLock]
    split
    · exact ⟨fun _ _ => Iff.rfl,fun _ h => h⟩
    · split <;> exact ⟨fun _ _ => Iff.rfl,fun _ h => h⟩
  · split
    · simp only [CommandFilter.processTransfer]
      split
      · exact ⟨fun _ _ => Iff.rfl,fun _ h => h⟩
      · split <;> exact ⟨fun _ _ => Iff.rfl,fun _ h => h⟩
    · split
      · simp only [CommandFilter.processAudio,ClientSession.applyAction,audioEdge_getD,
          mem_audioUpdate_iff]
        exact ⟨fun addr ha => by rw [if_neg ha],fun _ _ => by rw [if_pos trivial]⟩
      · exact ⟨fun _ _ => Iff.rfl,fun _ h => h⟩

/-- Effect of a list of commands. -/
theorem processCommands_audio (f : CommandFilter) (sender : SocketAddr)
    (cmds : List CommandRef) :
    (∀ addr≠sender,addr∈(f.processCommands sender cmds).1.audio.clients ↔
        addr∈f.audio.clients) ∧
      ∀ sess : ClientSession,(sender∈f.audio.clients ↔ sess.audio=true) →
        (sender∈(f.processCommands sender cmds).1.audio.clients ↔
          (sess.applyActions (f.processCommands sender cmds).2).audio=true) := by
  induction cmds generalizing f with
  | nil => exact ⟨fun _ _ => Iff.rfl,fun _ h => h⟩
  | cons cmd cmds ih =>
    obtain ⟨hother,hself⟩ := processCommand_audio f sender cmd
    obtain ⟨hother',hself'⟩ := ih (f.processCommand sender cmd).1
    refine ⟨fun addr ha => (hother' addr ha).trans (hother addr ha),fun sess h => ?_⟩
    exact hself' _ (hself sess h)

/-- A payload changes the subscription of its sender only, in the filter as in its session. -/
theorem processPayload_audio (f : CommandFilter) (sender : SocketAddr) (payload : Bytes) :
    (∀ addr≠sender,addr∈(f.processPayload sender payload).1.audio.clients ↔
        addr∈f.audio.clients) ∧
      ∀ sess : ClientSession,(sender∈f.audio.clients ↔ sess.audio=true) →
        (sender∈(f.processPayload sender payload).1.audio.clients ↔
          (sess.applyActions (f.processPayload sender payload).2).audio=true) := by
  simp only [CommandFilter.processPayload]
  split
  · exact ⟨fun _ _ => Iff.rfl,fun _ h => h⟩
  · exact processCommands_audio f sender _

/-- Cleanup removes exactly the given addresses from the subscribers. -/
theorem mem_cleanup_iff (f : CommandFilter) (dead : List SocketAddr) (addr : SocketAddr) :
    addr∈(dead.foldl (fun f addr => (f.clientDisconnected addr).1) f).audio.clients ↔
      addr∉dead ∧ addr∈f.audio.clients := by
  induction dead generalizing f with
  | nil => simp only [List.foldl_nil,List.not_mem_nil,not_false_eq_true,true_and]
  | cons first dead ih =>
    simp only [List.foldl_cons,ih,List.mem_cons,not_or]
    have herase : addr∈(f.clientDisconnected first).1.audio.clients ↔
        addr≠first ∧ addr∈f.audio.clients := Finset.mem_erase
    rw [herase]
    exact ⟨fun h => ⟨⟨h.2.1,h.1⟩,h.2.2⟩,fun h => ⟨h.1.2,h.1.1,h.2⟩⟩

/-- Subscriptions after a session was replaced. -/
theorem subscribed_insert_iff (sessions : Sessions) (addr other : SocketAddr)
    (sess : ClientSession) :
    Subscribed (sessions.insert addr sess) other ↔
      if other=addr then sess.audio=true else Subscribed sessions other := by
  by_cases ho : other=addr
  · subst ho
    simp only [Subscribed,OrderedMap.get?_insert_self,Option.some.injEq,if_true]
    exact exists_eq_left'
  · simp only [Subscribed,sessions.get?_insert_of_ne ho,ho,if_false]

/-- Updates that keep every flag keep the recorded subscriptions. -/
theorem subscribed_mapValues_iff (sessions : Sessions)
    {update : SocketAddr → ClientSession → ClientSession}
    (h : ∀ addr sess,(update addr sess).audio=sess.audio) (addr : SocketAddr) :
    Subscribed (sessions.mapValues update) addr ↔ Subscribed sessions addr := by
  simp only [Subscribed,OrderedMap.get?_mapValues]
  cases sessions.get? addr with
  | none => simp only [Option.map_none,reduceCtorEq,false_and,exists_false]
  | some sess => simp only [Option.map_some,Option.some.injEq,exists_eq_left',h]

/-- A tick removes the subscriptions of dead sessions only. -/
theorem subscribed_tick_iff (sessions : Sessions) (idle : ℕ) (now : Instant)
    (clocks : SocketAddr → PollClocks) (addr : SocketAddr) :
    Subscribed (tickSessions sessions idle now clocks) addr ↔
      addr∉deadAddrs sessions idle now ∧ Subscribed sessions addr := by
  have hpoll : Subscribed (pollLive sessions idle now clocks) addr ↔ Subscribed sessions addr := by
    apply subscribed_mapValues_iff
    intro other sess
    exact (sess.poll_flags _ _ _ _).2.2
  by_cases hd : addr∈deadAddrs sessions idle now
  · simp only [Subscribed,get?_tickSessions,hd,if_true,reduceCtorEq,false_and,exists_false,
      not_true_eq_false]
  · rw [←hpoll]
    simp only [Subscribed,get?_tickSessions,hd,if_false,not_false_eq_true,true_and]

/-- The step does not replace or drop the session of a subscriber behind the
filter's back. -/
def StaysAgreed (s : Server) : Action → Prop
  | .datagram addr data _ replied =>
    ∀ header payload,decodePacket data=.ok (header,payload) →
      isHandshakePacket header.flags=true → s.connected=true → s.cache.ready=true →
        replied=true → addr∉s.filter.audio.clients
  | .disconnected => s.filter.audio.clients=∅
  | .tick _ _ => True
  | .statePayload _ => True
  | .audioLevels _ => True
  | .transferPayload _ _ => True
  | .lagged => True
  | .upstream _ _ _ => True

/-- A session update with the filter's answer keeps agreement. -/
theorem agrees_processed {s : Server} (h : Agrees s) {addr : SocketAddr} {sess next : ClientSession}
    (hget : s.sessions.get? addr=some sess) (haudio : next.audio=sess.audio) (payload : Bytes) :
    Agrees {s with
      sessions := s.sessions.insert addr
        (next.applyActions (s.filter.processPayload addr payload).2)
      filter := (s.filter.processPayload addr payload).1} := by
  obtain ⟨hother,hself⟩ := processPayload_audio s.filter addr payload
  have hflag : addr∈s.filter.audio.clients ↔ next.audio=true := by
    rw [h addr,haudio]
    simp only [Subscribed,hget,Option.some.injEq,exists_eq_left']
  intro other
  dsimp only
  rw [subscribed_insert_iff]
  by_cases ho : other=addr
  · subst ho
    rw [if_pos rfl]
    exact hself next hflag
  · rw [if_neg ho,hother other ho]
    exact h other

/-- A session update that keeps the flag keeps agreement. -/
theorem agrees_updated {s : Server} (h : Agrees s) {addr : SocketAddr} {sess next : ClientSession}
    (hget : s.sessions.get? addr=some sess) (haudio : next.audio=sess.audio) :
    Agrees {s with sessions := s.sessions.insert addr next} := by
  intro other
  dsimp only
  rw [subscribed_insert_iff]
  by_cases ho : other=addr
  · subst ho
    rw [if_pos rfl,haudio,h other]
    simp only [Subscribed,hget,Option.some.injEq,exists_eq_left']
  · rw [if_neg ho]
    exact h other

/-- Datagrams of clients with a session keep agreement. -/
theorem agrees_sessionDatagram {s : Server} (h : Agrees s) {addr : SocketAddr}
    {sess : ClientSession} (hget : s.sessions.get? addr=some sess) (header : PacketHeader)
    (payload : Bytes) (clock : Instant) :
    Agrees (s.sessionDatagram addr sess header payload clock).1 := by
  have haudio : ((sess.onHeader header s.cache.dump clock).onReliable header payload).session.audio=
      sess.audio := by
    rw [(ClientSession.onReliable_flags _ header payload).2.2,ClientSession.onHeader_audio]
  simp only [Server.sessionDatagram]
  split
  · exact agrees_updated h hget haudio
  · exact agrees_processed h hget haudio _

/-- A HELLO keeps agreement exactly when the address is no subscriber or
the HELLO is not accepted. -/
theorem agrees_hello_iff {s : Server} (h : Agrees s) (addr : SocketAddr) (clock : Instant)
    (replied : Bool) :
    Agrees (s.hello addr clock replied) ↔
      (s.connected=true → s.cache.ready=true → replied=true → addr∉s.filter.audio.clients) := by
  by_cases hc : s.connected=false ∨ s.cache.ready=false
  · have hsame : s.hello addr clock replied=s := by
      simp only [Server.hello,if_pos hc]
    rw [hsame]
    refine ⟨fun _ hconn hready => ?_,fun _ => h⟩
    rw [hconn,hready] at hc
    exact absurd hc (by decide)
  · have hconn : s.connected=true := Bool.eq_true_of_not_eq_false (fun hf => hc (Or.inl hf))
    have hready : s.cache.ready=true := Bool.eq_true_of_not_eq_false (fun hf => hc (Or.inr hf))
    simp only [Server.hello,if_neg hc]
    cases replied with
    | false =>
      simp only [if_true]
      exact ⟨fun _ _ _ hr => absurd hr Bool.false_ne_true,fun _ => h⟩
    | true =>
      simp only [Bool.true_eq_false,if_false]
      constructor
      · intro hagree _ _ _
        have haddr := hagree addr
        dsimp only at haddr
        rw [subscribed_insert_iff,if_pos rfl] at haddr
        exact fun hmem => Bool.false_ne_true (haddr.mp hmem)
      · intro hnot other
        dsimp only
        rw [subscribed_insert_iff]
        by_cases ho : other=addr
        · subst ho
          rw [if_pos rfl]
          exact ⟨fun hmem => absurd hmem (hnot hconn hready trivial),
            fun hf => absurd hf Bool.false_ne_true⟩
        · rw [if_neg ho]
          exact h other

/-- After a datagram filter and sessions agree exactly if the datagram allows it. -/
theorem agrees_datagram_iff {s : Server} (h : Agrees s) (addr : SocketAddr) (data : Bytes)
    (clock : Instant) (replied : Bool) :
    Agrees (s.handleDatagram addr data clock replied).1 ↔
      StaysAgreed s (.datagram addr data clock replied) := by
  simp only [Server.handleDatagram,StaysAgreed]
  cases hdec : decodePacket data with
  | error e =>
    refine ⟨fun _ header payload hd => ?_,fun _ => h⟩
    cases hd
  | ok decoded =>
    obtain ⟨header,payload⟩ := decoded
    dsimp only
    by_cases hh : isHandshakePacket header.flags=true
    · rw [if_pos hh,agrees_hello_iff h addr clock replied]
      refine ⟨fun hnot header' payload' hd _ => ?_,fun hall => hall header payload rfl hh⟩
      exact hnot
    · rw [if_neg hh]
      have hok : Agrees (match s.sessions.get? addr with
          | none => (s,[])
          | some sess => s.sessionDatagram addr sess header payload clock).1 := by
        split
        · exact h
        · rename_i sess hget
          exact agrees_sessionDatagram h hget header payload clock
      refine ⟨fun _ header' payload' hd hh' => ?_,fun _ => hok⟩
      cases hd
      exact absurd hh' hh

/-- A step from agreement leads to agreement exactly under its condition. -/
theorem agrees_next_iff {s : Server} (h : Agrees s) (action : Action) :
    Agrees (next s action) ↔ StaysAgreed s action := by
  have hkept : ∀ {update : SocketAddr → ClientSession → ClientSession},
      (∀ addr sess,(update addr sess).audio=sess.audio) →
        Agrees {s with sessions := s.sessions.mapValues update} := by
    intro update hflag addr
    rw [subscribed_mapValues_iff s.sessions hflag]
    exact h addr
  cases action with
  | datagram addr data clock replied => exact agrees_datagram_iff h addr data clock replied
  | tick now clocks =>
    refine iff_of_true (fun addr => ?_) trivial
    simp only [next,Server.tick,mem_cleanup_iff,subscribed_tick_iff,h addr]
  | disconnected =>
    constructor
    · intro hagree
      apply Finset.eq_empty_of_forall_notMem
      intro addr hmem
      obtain ⟨sess,hget,_⟩ := (hagree addr).mp hmem
      cases hget
    · intro hempty addr
      have hnone : addr∉s.filter.audio.clients := by
        rw [show s.filter.audio.clients=∅ from hempty]
        exact Finset.notMem_empty addr
      refine ⟨fun hmem => absurd hmem hnone,?_⟩
      rintro ⟨sess,hget,_⟩
      cases hget
  | statePayload payload =>
    exact iff_of_true (hkept (fun _ sess => (hands_queueState payload sess).audio)) trivial
  | audioLevels payload =>
    exact iff_of_true (hkept (fun _ sess => (hands_queueAudio payload sess).audio)) trivial
  | transferPayload owner payload =>
    have hkeeps := hkept (fun addr sess => (hands_queueTransfer owner payload addr sess).audio)
    exact iff_of_true hkeeps trivial
  | lagged =>
    exact iff_of_true (hkept (fun _ sess => (hands_queueResync s.cache.dump sess).audio)) trivial
  | upstream connected cache locks => exact iff_of_true h trivial

/-- While no session asks for audio, an enable command is forwarded as it is. -/
def FirstEnableForwarded (s : Server) : Prop :=
  (∀ addr,¬Subscribed s.sessions addr) →
    ∀ sender (cmd : CommandRef),isLockRequest cmd.name=false → isTransferCommand cmd.name=false →
      isAudioLevelsSubscribe cmd.name=true → (parseEnableFlag cmd.body).getD true=true →
        (s.filter.processCommand sender cmd).2=.audioSubscribe true (some cmd.raw)

/-- Agreement is enough for that. -/
theorem Agrees.firstEnableForwarded {s : Server} (h : Agrees s) : FirstEnableForwarded s := by
  intro hnone sender cmd hlock htransfer haudio henable
  have hempty : s.filter.audio.clients=∅ :=
    Finset.eq_empty_of_forall_notMem (fun addr hmem => hnone addr ((h addr).mp hmem))
  have hedge : audioEdge s.filter.audio.clients.card
      (s.filter.audio.update sender true cmd.raw).clients.card=some true := by
    simp only [hempty,AudioSubs.update,if_true,audioEdge,Finset.card_empty,insert_empty_eq,
      Finset.card_singleton,Nat.lt_irrefl,Nat.zero_lt_one,and_self]
  simp only [CommandFilter.processCommand,hlock,htransfer,haudio,Bool.false_eq_true,if_false,
    if_true,CommandFilter.processAudio,henable,hedge,Option.getD_some,Option.map_some]

/-- The server before the first datagram. -/
def start (policy : FilterPolicy) (idle : ℕ) : Server :=
  ⟨OrderedMap.empty,.new policy,.new,false,1,idle⟩

/-- They agree at the start. -/
theorem start_agrees (policy : FilterPolicy) (idle : ℕ) : Agrees (start policy idle) := by
  intro addr
  refine ⟨fun hmem => absurd hmem (Finset.notMem_empty addr),?_⟩
  rintro ⟨sess,hget,_⟩
  cases hget

/-- Over every run of the server, filter and sessions agree in all states,
and the first enable is forwarded in all of them, exactly when no accepted
HELLO comes from a subscriber and no disconnect is handled while anyone
subscribes. -/
theorem audio_agreement_iff (policy : FilterPolicy) (idle : ℕ) (actions : List Action) :
    Always step (fun s => Agrees s ∧ FirstEnableForwarded s) (start policy idle) actions ↔
      Meets step StaysAgreed (start policy idle) actions := by
  have hboth : (fun s => Agrees s ∧ FirstEnableForwarded s)=Agrees :=
    funext (fun s => propext ⟨And.left,fun h => ⟨h,h.firstEnableForwarded⟩⟩)
  rw [hboth,←meets_iff_of_total step (fun s a => ⟨next s a,rfl⟩)]
  apply always_iff_meets
  · intro s a t hs ht
    cases ht
    exact agrees_next_iff hs a
  · exact start_agrees policy idle

/-- A subscription to audio levels. -/
def enableCommand : CommandRef := serializedRef (tag 'S' 'A' 'L' 'N') [1,0,0,1] (by decide)

/-- That subscription as the first reliable packet of a client. -/
def enableData : Bytes :=
  encodePacket (ReliableEndpoint.dataHeader 0 1 enableCommand.raw) enableCommand.raw

/-- A client subscribes, the upstream connection is lost and comes back. -/
def reconnectRun : List Action :=
  [.upstream true {StateCache.new with ready := true} .new,
    .datagram ⟨1,1⟩ helloData 0 true,.datagram ⟨1,1⟩ enableData 1 true,.disconnected]

/-- The server after the reconnect. -/
def reconnected : Server := reconnectRun.foldl next (start ⟨.deny,.new,.new {}⟩ 5000)

/-- After the disconnect the filter still counts the vanished client, and
the next client's enable is not forwarded. -/
theorem reconnect_keeps_phantom_subscriber :
    run step (start ⟨.deny,.new,.new {}⟩ 5000) reconnectRun=some reconnected ∧
      ¬Agrees reconnected ∧
      (∀ addr,¬Subscribed reconnected.sessions addr) ∧
      (reconnected.filter.processCommand ⟨2,1⟩ enableCommand).2=.audioSubscribe true none := by
  have hclient : (⟨1,1⟩ : SocketAddr)∈reconnected.filter.audio.clients := by decide +kernel
  have hnone : ∀ addr,¬Subscribed reconnected.sessions addr := by
    rintro addr ⟨sess,hget,_⟩
    cases hget
  exact ⟨rfl,fun h => hnone _ ((h _).mp hclient),hnone,by decide +kernel⟩

end AtemProxy.AudioAgreement
