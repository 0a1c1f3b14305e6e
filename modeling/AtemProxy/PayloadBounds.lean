import AtemProxy.ProxySystem

/-!
# Every queued payload fits into a datagram

Eleven length bits bound what is received, and nothing on the way to an
outbound queue makes it longer: chunks and commands are parts of a payload,
synthesized commands are short or as long as the command they replace, and
the packer only joins commands below its own limit. The bound is carried
through every place that holds bytes on their way to a queue.
-/

namespace AtemProxy.PayloadBounds

open BigEndian PacketCodec CommandFrames KeyedMaps LastWrites LockStores TransferLanes
  CommandPolicy LateJoinCache ReliableTransport SenderLedgers ServerSessions UpstreamEvents
  UpstreamSessions BroadcastQueues GuardedRuns ProxyTasks SessionOrigins SessionEpochs ProxySystem

/-- The payload fits behind a header into the eleven-bit length. -/
def Small (payload : Bytes) : Prop := payload.length≤2035

/-- All of them fit. -/
def AllSmall (payloads : List Bytes) : Prop := ∀ payload ∈ payloads, Small payload

/-- No payloads. -/
theorem allSmall_nil : AllSmall [] := fun _ hm => absurd hm List.not_mem_nil

/-- One payload that fits. -/
theorem allSmall_singleton {payload : Bytes} (h : Small payload) : AllSmall [payload] := by
  intro p hp
  rw [List.mem_singleton.mp hp]
  exact h

/-- Payloads of two lists. -/
theorem AllSmall.append {first second : List Bytes} (hf : AllSmall first)
    (hs : AllSmall second) : AllSmall (first++second) := by
  intro p hp
  rcases List.mem_append.mp hp with hp | hp
  · exact hf p hp
  · exact hs p hp

/-- The payloads behind the first one. -/
theorem AllSmall.tail {payload : Bytes} {payloads : List Bytes}
    (h : AllSmall (payload::payloads)) : AllSmall payloads :=
  fun p hp => h p (List.mem_cons_of_mem _ hp)

/-- Packed commands fit if every command does. -/
theorem AllSmall.pack {cmds : List Bytes} (h : AllSmall cmds) : AllSmall (packCommands cmds) :=
  packCommands_length_le (by decide) h

/-- A parsed command is no longer than its payload. -/
theorem small_of_parsed {payload : Bytes} (h : Small payload) {cmds : List CommandRef}
    (hparse : parseCommands payload=.ok cmds) {cmd : CommandRef} (hm : cmd ∈ cmds) :
    Small cmd.raw := by
  have hpart : cmd.raw.length≤(cmds.map CommandRef.raw).flatten.length :=
    (List.sublist_flatten_of_mem (List.mem_map_of_mem hm)).length_le
  rw [parseCommands_flatten hparse] at hpart
  exact hpart.trans h

/-- A disable is as long as its enable. -/
theorem synthesizeAudioDisable_length (raw : Bytes) :
    (synthesizeAudioDisable raw).length=raw.length := by
  unfold synthesizeAudioDisable
  split
  · rename_i hnil
    rw [hnil]
  · rename_i hne
    have hpos := List.length_pos_iff.mpr hne
    rw [List.length_append,List.length_dropLast,List.length_singleton]
    omega

/-- Payloads of an event. -/
def eventPayloads : UpstreamEvent → List Bytes
  | .connected => []
  | .disconnected => []
  | .statePayload payload => [payload]
  | .audioLevels payload => [payload]
  | .transferPayload payload => [payload]

/-- Payloads that an operation of the upstream task caches or sends. -/
def upstreamPayloads : UpstreamOp → List Bytes
  | .ingest chunk => [chunk]
  | .send event => eventPayloads event
  | _ => []

/-- Payloads that an operation of the fan-out task will queue. -/
def fanoutPayloads : FanoutOp → List Bytes
  | .queueState payload => [payload]
  | .queueAudio payload => [payload]
  | .routeTransfer payload => [payload]
  | .queueTransfer _ payload => [payload]
  | .queueResync dump => dump
  | _ => []

/-- Byte strings the datagram handler may still forward. -/
def handlerPayloads : Handler → List Bytes
  | .filtering _ cmds actions =>
    cmds.map CommandRef.raw++actions.flatMap FilterAction.forwarded
  | _ => []

/-- Handling a payload caches and sends parts of it. -/
theorem small_handleUpstreamPayload {payload : Bytes} (h : Small payload) :
    ∀ op ∈ handleUpstreamPayload payload, AllSmall (upstreamPayloads op) := by
  intro op hop
  cases payloadOp_of_mem hop with
  | lockStatus chunk _ => exact allSmall_nil
  | ingest chunk hpart => exact allSmall_singleton (hpart.trans h)
  | state chunk hpart => exact allSmall_singleton (hpart.trans h)
  | audio chunk hpart => exact allSmall_singleton (hpart.trans h)
  | transfer chunk hpart => exact allSmall_singleton (hpart.trans h)
  | setReady => exact allSmall_nil
  | swapConnected => exact allSmall_nil

/-- The end of a session sends no payloads. -/
theorem small_disconnectSequence : ∀ op ∈ disconnectSequence, AllSmall (upstreamPayloads op) := by
  intro op hop
  simp only [disconnectSequence,List.mem_cons,List.not_mem_nil,or_false] at hop
  rcases hop with rfl | rfl | rfl | rfl <;> exact allSmall_nil

/-- The fan-out passes the payload of an event on. -/
theorem small_fanoutOps {received : Received UpstreamEvent}
    (h : ∀ event, received=.item event → AllSmall (eventPayloads event)) :
    ∀ op ∈ fanoutOps received, AllSmall (fanoutPayloads op) := by
  intro op hop
  cases received with
  | lagged =>
    rw [List.mem_singleton.mp hop]
    exact allSmall_nil
  | item event =>
    have hsmall := h event rfl
    cases event with
    | connected => exact absurd hop List.not_mem_nil
    | disconnected =>
      simp only [fanoutOps,List.mem_cons,List.not_mem_nil,or_false] at hop
      rcases hop with rfl | rfl <;> exact allSmall_nil
    | statePayload payload =>
      rw [List.mem_singleton.mp hop]
      exact hsmall
    | audioLevels payload =>
      rw [List.mem_singleton.mp hop]
      exact hsmall
    | transferPayload payload =>
      rw [List.mem_singleton.mp hop]
      exact hsmall

/-- Ingesting a payload stores frames of it. -/
theorem small_ingestPayload {c : StateCache} (hc : AllSmall c.map.values) {payload : Bytes}
    (h : Small payload) : AllSmall (c.ingestPayload payload).map.values := by
  intro raw hraw
  obtain ⟨key,hget⟩ := (OrderedMap.mem_values_iff _ raw).mp hraw
  rw [ingestPayload_map,get?_insertAll] at hget
  cases hlast : lastFor key (cacheWrites (parsedCommands payload)) with
  | none =>
    rw [hlast,Option.none_or] at hget
    exact hc raw ((OrderedMap.mem_values_iff _ raw).mpr ⟨key,hget⟩)
  | some value =>
    rw [hlast] at hget
    cases hget
    obtain ⟨cmd,hm,_,rfl,_⟩ := mem_cacheWrites (mem_of_lastFor hlast)
    cases hparse : parseCommands payload with
    | error e =>
      unfold parsedCommands at hm
      rw [hparse] at hm
      exact absurd hm List.not_mem_nil
    | ok cmds =>
      rw [parsedCommands_of_ok hparse] at hm
      exact small_of_parsed h hparse hm

/-- A dump adds one short command to the stored frames. -/
theorem small_dump {c : StateCache} (h : AllSmall c.map.values) : AllSmall c.dump :=
  h.append (allSmall_singleton (by unfold Small; decide))

/-- A header queues the dump or nothing. -/
theorem onHeader_outbound (sess : ClientSession) (header : PacketHeader) (dump : List Bytes)
    (clock : Instant) :
    (sess.onHeader header dump clock).rel.outbound=sess.rel.outbound ∨
      (sess.onHeader header dump clock).rel.outbound=sess.rel.outbound++packCommands dump := by
  rcases sess.onHeader_cases header dump clock with ⟨_,_,hsame⟩ | ⟨_,_,hout⟩
  · exact Or.inl hsame
  · split at hout
    · exact Or.inl (hout.trans (List.append_nil _))
    · exact Or.inr hout

/-- The payloads ever queued fit, and the outbound queue holds no others. -/
structure Recorded (t : Tracked) : Prop where
  /-- Payloads of the record. -/
  small : AllSmall t.queued
  /-- Payloads of the queue. -/
  covers : ∀ payload ∈ t.session.rel.outbound, payload ∈ t.queued

/-- A session that is handed payloads which fit. -/
theorem Recorded.record {t : Tracked} (h : Recorded t) {update : ClientSession → ClientSession}
    {payloads : List Bytes} (hs : AllSmall payloads)
    (hout : (update t.session).rel.outbound=t.session.rel.outbound ∨
      (update t.session).rel.outbound=t.session.rel.outbound++payloads) :
    Recorded (t.record update) := by
  rcases hout with hsame | happended
  · have hqueued : (t.record update).queued=t.queued := by
      simp only [Tracked.record,hsame,List.drop_length,List.append_nil]
    exact ⟨hqueued ▸ h.small,fun payload hp => hqueued ▸ h.covers payload (hsame ▸ hp)⟩
  · have hqueued : (t.record update).queued=t.queued++payloads := by
      simp only [Tracked.record,happended,List.drop_left]
    refine ⟨hqueued ▸ h.small.append hs,fun payload hp => ?_⟩
    have hmem : payload ∈ t.session.rel.outbound++payloads := happended ▸ hp
    rw [hqueued]
    rcases List.mem_append.mp hmem with hmem | hmem
    · exact List.mem_append_left _ (h.covers payload hmem)
    · exact List.mem_append_right _ hmem

/-- Updates that take payloads out of the queue or leave it alone. -/
theorem Recorded.keep {t : Tracked} (h : Recorded t) {update : ClientSession → ClientSession}
    (hout : (update t.session).rel.outbound<:+t.session.rel.outbound) :
    Recorded (t.keep update) :=
  ⟨h.small,fun payload hp => h.covers payload (hout.subset hp)⟩

/-- Only the payload of the datagram itself is admitted. -/
theorem onReliable_payload {sess : ClientSession} {header : PacketHeader}
    {payload accepted : Bytes} (h : (sess.onReliable header payload).payload=some accepted) :
    accepted=payload := by
  simp only [ClientSession.onReliable] at h
  split at h
  · split at h
    · dsimp only at h
      split at h
      · cases h
      · exact (Option.some.inj h).symm
    · cases h
  · cases h

/-- A command is forwarded as it is, or with its last byte cleared. -/
theorem small_processCommand {f : CommandFilter} (hf : AllSmall f.audio.lastEnable.toList)
    (sender : SocketAddr) {cmd : CommandRef} (hcmd : Small cmd.raw) :
    AllSmall (f.processCommand sender cmd).1.audio.lastEnable.toList ∧
      AllSmall (f.processCommand sender cmd).2.forwarded := by
  have hdisabled : Small (synthesizeAudioDisable cmd.raw) := by
    unfold Small
    rw [synthesizeAudioDisable_length]
    exact hcmd
  unfold CommandFilter.processCommand
  split
  · unfold CommandFilter.processLock
    split
    · exact ⟨hf,allSmall_nil⟩
    · dsimp only
      split
      · exact ⟨hf,allSmall_singleton hcmd⟩
      · exact ⟨hf,allSmall_nil⟩
  · split
    · unfold CommandFilter.processTransfer
      split
      · exact ⟨hf,allSmall_nil⟩
      · dsimp only
        split
        · exact ⟨hf,allSmall_singleton hcmd⟩
        · exact ⟨hf,allSmall_nil⟩
    · split
      · constructor
        · simp only [CommandFilter.processAudio,AudioSubs.update]
          split
          · exact allSmall_singleton hcmd
          · exact hf
        · intro raw hraw
          simp only [CommandFilter.processAudio,FilterAction.forwarded,Option.mem_toList] at hraw
          obtain ⟨enable,_,rfl⟩ := Option.mem_map.mp hraw
          split
          · exact hcmd
          · exact hdisabled
      · exact ⟨hf,allSmall_singleton hcmd⟩

/-- A cleanup sends the last subscription with its last byte cleared, and unlocks. -/
theorem small_cleanupCommands {f : CommandFilter} (hf : AllSmall f.audio.lastEnable.toList)
    (op : CleanupOp) : AllSmall (cleanupCommands f op) := by
  cases op with
  | audio addr =>
    simp only [cleanupCommands]
    split
    · intro raw hraw
      rw [Option.mem_toList] at hraw
      obtain ⟨enable,he,rfl⟩ := Option.mem_map.mp hraw
      unfold Small
      rw [synthesizeAudioDisable_length]
      exact hf enable (Option.mem_toList.mpr he)
    · exact allSmall_nil
  | lane addr => exact allSmall_nil
  | locks addr =>
    intro raw hraw
    simp only [cleanupCommands,LockBroker.clientDisconnected,List.mem_filterMap] at hraw
    obtain ⟨entry,_,he⟩ := hraw
    split at he
    · cases he
      exact Nat.le_of_ble_eq_true rfl
    · cases he

/-- Everything on its way to a client session or into the channel fits. -/
structure Bounded (s : Proxy) : Prop where
  /-- Stored frames. -/
  cache : AllSmall s.cache.map.values
  /-- Remaining operations of the upstream task. -/
  upstream : ∀ op ∈ s.upstream, AllSmall (upstreamPayloads op)
  /-- Events. -/
  events : ∀ event ∈ s.events.items, AllSmall (eventPayloads event)
  /-- Remaining operations of the fan-out task. -/
  fanout : ∀ op ∈ s.fanout, AllSmall (fanoutPayloads op)
  /-- Commands in the datagram handler. -/
  handler : AllSmall (handlerPayloads s.handler)
  /-- Last subscription. -/
  enable : AllSmall s.filter.audio.lastEnable.toList
  /-- Sessions. -/
  sessions : ∀ addr t, s.sessions.get? addr=some t → Recorded t

/-- Nothing is on its way at the start. -/
theorem bounded_start (policy : FilterPolicy) (idle : ℕ) : Bounded (Proxy.start policy idle) where
  cache := allSmall_nil
  upstream := fun _ hm => absurd hm List.not_mem_nil
  events := fun _ hm => absurd hm List.not_mem_nil
  fanout := fun _ hm => absurd hm List.not_mem_nil
  handler := allSmall_nil
  enable := allSmall_nil
  sessions := by
    intro addr t ht
    cases ht

/-- A sent event replaces at most the oldest one. -/
theorem small_send {events : Broadcast UpstreamEvent} {event : UpstreamEvent} {capacity : ℕ}
    (h : ∀ e ∈ events.items, AllSmall (eventPayloads e)) (hevent : AllSmall (eventPayloads event)) :
    ∀ e ∈ (events.send capacity event).items, AllSmall (eventPayloads e) := by
  have hall : ∀ e ∈ events.items++[event], AllSmall (eventPayloads e) := by
    intro e he
    rcases List.mem_append.mp he with he | he
    · exact h e he
    · rw [List.mem_singleton.mp he]
      exact hevent
  rcases events.send_cases capacity event with hsend | ⟨oldest,items,hitems,hsend⟩
  · rw [hsend]
    exact hall
  · rw [hsend]
    intro e he
    exact hall e (hitems ▸ List.mem_cons_of_mem _ he)

/-- Operations of the upstream task pass on what fits. -/
theorem Bounded.upstreamStep {s : Proxy} (h : Bounded s) {op : UpstreamOp}
    (hop : AllSmall (upstreamPayloads op)) : Bounded (s.upstreamStep op) := by
  cases op with
  | lockStatus chunk => exact ⟨h.cache,h.upstream,h.events,h.fanout,h.handler,h.enable,h.sessions⟩
  | ingest chunk =>
    have hchunk : Small chunk := hop chunk List.mem_cons_self
    exact {h with cache := small_ingestPayload h.cache hchunk}
  | send event => exact {h with events := small_send h.events hop}
  | setReady => exact {h with cache := h.cache}
  | swapConnected =>
    simp only [Proxy.upstreamStep]
    split
    · exact h
    · refine {h with upstream := fun op hop => ?_}
      rcases List.mem_cons.mp hop with rfl | hop
      · exact allSmall_nil
      · exact h.upstream op hop
  | setDisconnected => exact ⟨h.cache,h.upstream,h.events,h.fanout,h.handler,h.enable,h.sessions⟩
  | clearCache => exact {h with cache := allSmall_nil}
  | clearLocks => exact ⟨h.cache,h.upstream,h.events,h.fanout,h.handler,h.enable,h.sessions⟩

/-- Updating every session keeps the records. -/
theorem Bounded.mapSessions {s : Proxy} (h : Bounded s) {update : SocketAddr → Tracked → Tracked}
    (hupdate : ∀ addr t, Recorded t → Recorded (update addr t)) :
    Bounded {s with sessions := s.sessions.mapValues update} := by
  refine {h with sessions := fun addr t ht => ?_}
  rw [OrderedMap.get?_mapValues,Option.map_eq_some_iff] at ht
  obtain ⟨before,hbefore,rfl⟩ := ht
  exact hupdate addr before (h.sessions addr before hbefore)

/-- A session is inserted whose payloads fit. -/
theorem Bounded.insertSession {s : Proxy} (h : Bounded s) (addr : SocketAddr) {t : Tracked}
    (ht : Recorded t) : Bounded {s with sessions := s.sessions.insert addr t} := by
  refine {h with sessions := fun other u hu => ?_}
  by_cases he : other=addr
  · subst he
    rw [OrderedMap.get?_insert_self,Option.some.injEq] at hu
    exact hu ▸ ht
  · exact h.sessions other u ((s.sessions.get?_insert_of_ne he t).symm.trans hu)

/-- The fan-out passes on what fits. -/
theorem Bounded.fanned {s t : Proxy} (h : Bounded s) {op : FanoutOp}
    (hop : AllSmall (fanoutPayloads op)) (hdone : Fanned s op t) : Bounded t := by
  cases hdone with
  | clearSessions _ =>
    refine {h with sessions := fun addr t ht => ?_}
    cases ht
  | clearLane => exact ⟨h.cache,h.upstream,h.events,h.fanout,h.handler,h.enable,h.sessions⟩
  | queueState payload =>
    exact h.mapSessions (fun _ t ht => ht.record hop (hands_queueState payload t.session).outbound)
  | queueAudio payload =>
    exact h.mapSessions (fun _ t ht => ht.record hop (hands_queueAudio payload t.session).outbound)
  | unrouted payload => exact h
  | routed payload owner =>
    refine {h with fanout := fun next hnext => ?_}
    rcases List.mem_cons.mp hnext with rfl | hnext
    · exact hop
    · exact h.fanout next hnext
  | queueTransfer owner payload =>
    exact h.mapSessions (fun addr t ht =>
      ht.record hop (hands_queueTransfer owner payload addr t.session).outbound)
  | takeDump =>
    refine {h with fanout := fun next hnext => ?_}
    rcases List.mem_cons.mp hnext with rfl | hnext
    · exact small_dump h.cache
    · exact h.fanout next hnext
  | queueResync dump =>
    exact h.mapSessions (fun _ t ht =>
      ht.record hop.pack (hands_queueResync dump t.session).outbound)

/-- A datagram is heard with a payload that fits, and hands the filter parts of it. -/
theorem Bounded.receiveDatagram {s : Proxy} (h : Bounded s) (addr : SocketAddr) (data : Bytes)
    (clock : Instant) : Bounded (s.receiveDatagram addr data clock) := by
  simp only [Proxy.receiveDatagram]
  split
  · exact h
  · rename_i header payload hdecode
    have hsmall : Small payload := decodePacket_length_le hdecode
    split
    · split
      · exact {h with handler := allSmall_nil}
      · exact h
    · split
      · exact h
      · rename_i t ht
        have hheard : Recorded (t.record (fun sess => sess.onHeader header s.cache.dump clock)) :=
          (h.sessions addr t ht).record (small_dump h.cache).pack
            (onHeader_outbound t.session header s.cache.dump clock)
        have hadmission := @Recorded.keep _ hheard
          (fun sess => (sess.onReliable header payload).session)
          (onReliable_suffix _ header payload)
        have hinserted := h.insertSession addr hadmission
        simp only [Proxy.beginDatagram]
        split
        · exact hinserted
        · rename_i accepted hadmitted
          have haccepted : Small accepted := onReliable_payload hadmitted ▸ hsmall
          split
          · exact {hinserted with handler := allSmall_singleton haccepted}
          · rename_i cmds hparse
            refine {hinserted with handler := ?_}
            intro raw hraw
            simp only [handlerPayloads,List.flatMap_nil,List.append_nil] at hraw
            obtain ⟨cmd,hcmd,rfl⟩ := List.mem_map.mp hraw
            exact small_of_parsed haccepted hparse hcmd

/-- So does the datagram handler. -/
theorem Bounded.continued {s t : Proxy} {clock : Instant} (h : Bounded s)
    (hdone : Continued s clock t) : Bounded t := by
  cases hdone with
  | answered addr _ => exact {h with handler := allSmall_nil}
  | refused => exact {h with handler := allSmall_nil}
  | inserted addr sid _ =>
    have hfresh : Recorded ⟨.hello (serverSessionId sid) clock,[]⟩ :=
      ⟨allSmall_nil,fun _ hp => absurd hp List.not_mem_nil⟩
    exact {h.insertSession addr hfresh with handler := allSmall_nil}
  | decided addr cmd cmds actions hwaits =>
    have hhandler := h.handler
    rw [hwaits] at hhandler
    have hcmd : Small cmd.raw := hhandler cmd.raw (List.mem_cons_self)
    obtain ⟨henable,hforwarded⟩ := small_processCommand h.enable addr hcmd
    refine {h with handler := ?_, enable := henable}
    have hsplit : handlerPayloads
        (.filtering addr cmds (actions++[(s.filter.processCommand addr cmd).2]))=
        handlerPayloads (.filtering addr cmds actions)++
          (s.filter.processCommand addr cmd).2.forwarded := by
      simp only [handlerPayloads,List.flatMap_append,List.flatMap_singleton,List.append_assoc]
    rw [hsplit]
    exact AllSmall.append hhandler.tail hforwarded
  | finished addr actions _ =>
    have hkept : ∀ other t, Recorded t → Recorded
        (if other=addr then t.keep (fun sess => sess.applyActions actions) else t) := by
      intro other t ht
      split
      · exact ht.keep ((t.session.applyActions_keeps actions).2.2 ▸ List.suffix_rfl)
      · exact ht
    exact {h.mapSessions hkept with handler := allSmall_nil}

/-- A tick queues nothing. -/
theorem Bounded.tick {s : Proxy} (h : Bounded s) (now : Instant)
    (clocks : SocketAddr → PollClocks) : Bounded (s.tick now clocks) := by
  have hpolled := h.mapSessions (fun addr t ht => Recorded.keep ht
    (poll_suffix s.idle now (clocks addr).elapsedAt (clocks addr).ackAt t.session))
  refine {h with sessions := fun addr t ht => ?_}
  simp only [Proxy.tick,OrderedMap.get?_eraseAll] at ht
  split at ht
  · cases ht
  · exact hpolled.sessions addr t ht

/-- A cleanup queues nothing. -/
theorem Bounded.cleanupStep {s : Proxy} (h : Bounded s) (op : CleanupOp) :
    Bounded (s.cleanupStep op) := by
  cases op <;> exact ⟨h.cache,h.upstream,h.events,h.fanout,h.handler,h.enable,h.sessions⟩

/-- Every step of the tasks keeps the bound when the payload it takes fits. -/
theorem Bounded.step {s t : Proxy} {a : Action} (h : Bounded s)
    (hpayload : ∀ payload, a=.payload payload → Small payload) (hstep : step s a=some t) :
    Bounded t := by
  cases taken_of_step hstep with
  | payload payload _ =>
    exact {h with upstream := small_handleUpstreamPayload (hpayload payload rfl)}
  | disconnect _ => exact {h with upstream := small_disconnectSequence}
  | upstream op ops hnext =>
    have hops := h.upstream
    rw [hnext] at hops
    have hrest : Bounded {s with upstream := ops} :=
      {h with upstream := fun o ho => hops o (List.mem_cons_of_mem _ ho)}
    exact hrest.upstreamStep (hops op List.mem_cons_self)
  | receive received events _ hnext =>
    have hops : ∀ op ∈ fanoutOps received, AllSmall (fanoutPayloads op) := by
      apply small_fanoutOps
      intro event he
      rcases Broadcast.recv_cases hnext with ⟨hlag,_,_⟩ | ⟨first,items,hfirst,_,hitems,_⟩
      · rw [hlag] at he
        cases he
      · rw [hfirst] at he
        cases he
        exact h.events event (hitems ▸ List.mem_cons_self)
    refine {h with events := fun e he => ?_, fanout := hops}
    rcases Broadcast.recv_cases hnext with ⟨_,_,rfl⟩ | ⟨first,items,_,_,hitems,rfl⟩
    · exact h.events e he
    · exact h.events e (hitems ▸ List.mem_cons_of_mem _ he)
  | fanout op ops t hnext hdone =>
    have hops := h.fanout
    rw [hnext] at hops
    have hrest : Bounded {s with fanout := ops} :=
      {h with fanout := fun o ho => hops o (List.mem_cons_of_mem _ ho)}
    exact hrest.fanned (hops op List.mem_cons_self) hdone
  | datagram addr data clock _ => exact h.receiveDatagram addr data clock
  | handler clock replied t hdone => exact h.continued hdone
  | tick now clocks _ _ => exact h.tick now clocks
  | cleanup op ops _ =>
    have hrest : Bounded {s with cleanup := ops} :=
      ⟨h.cache,h.upstream,h.events,h.fanout,h.handler,h.enable,h.sessions⟩
    exact hrest.cleanupStep op

/-- Everything on its way to the switcher fits. -/
structure SessionBounded (u : UpstreamSession) : Prop where
  /-- The endpoint and its ledger agree. -/
  sound : Sound 32 u.ledger
  /-- Payloads ever queued. -/
  queued : AllSmall u.ledger.queued
  /-- Commands not yet sent. -/
  pending : AllSmall (u.pending.map Command.raw)

/-- The outbound queue holds queued payloads only. -/
theorem SessionBounded.covers {u : UpstreamSession} (h : SessionBounded u) :
    ∀ payload ∈ u.ledger.endpoint.outbound, payload ∈ u.ledger.queued := by
  intro payload hp
  rw [←h.sound.conserved]
  exact List.mem_append_right _ hp

/-- A session that has just begun has nothing on its way. -/
theorem sessionBounded_connect {reply : Bytes} {clock : Instant} {u : UpstreamSession}
    (h : UpstreamSession.connect reply clock=some u) : SessionBounded u := by
  obtain ⟨header,rfl⟩ := UpstreamSession.connect_eq h
  have hfirst : (1 : UInt16).toNat<2^15 := by decide
  exact ⟨sound_start rfl hfirst rfl rfl,allSmall_nil,allSmall_nil⟩

/-- Calls that queue nothing keep everything small. -/
theorem SessionBounded.call {u : UpstreamSession} (h : SessionBounded u) {c : EndpointCall}
    (hc : c.silent=true) : SessionBounded (u.call c) where
  sound := h.sound.call (by decide) (EndpointCall.fits_of_silent hc)
  queued := (u.ledger.queued_of_silent hc).symm ▸ h.queued
  pending := h.pending

/-- So does a command that fits. -/
theorem SessionBounded.take {u : UpstreamSession} (h : SessionBounded u) {cmd : Command}
    (hcmd : Small cmd.raw) : SessionBounded (u.take cmd) := by
  unfold UpstreamSession.take
  split
  · refine {h with pending := ?_}
    rw [List.map_append]
    exact h.pending.append (allSmall_singleton hcmd)
  · exact h

/-- So does packing. -/
theorem SessionBounded.pack {u : UpstreamSession} (h : SessionBounded u) :
    SessionBounded u.pack where
  sound := @Sound.call 32 (by decide) u.ledger h.sound (.queueCommandsPacked _) h.pending
  queued := h.queued.append h.pending.pack
  pending := allSmall_nil

/-- So do all operations of the session. -/
theorem sessionRule_bounded : SessionRule SessionBounded where
  call := SessionBounded.call
  pack := SessionBounded.pack
  flag h _ := ⟨h.sound,h.queued,h.pending⟩

/-- Everything on its way anywhere fits. -/
structure SystemBounded (x : System) : Prop where
  /-- Server tasks. -/
  proxy : Bounded x.proxy
  /-- Upstream session. -/
  session : ∀ u, x.session=some u → SessionBounded u
  /-- Commands in the channel. -/
  channel : AllSmall (x.channel.map Command.raw)
  /-- Commands of the datagram handler. -/
  forwards : AllSmall x.forwards
  /-- Commands of the cleanup. -/
  cleanups : AllSmall x.cleanups

/-- Nothing is on its way at the start. -/
theorem systemBounded_start (policy : FilterPolicy) (idle : ℕ) :
    SystemBounded (System.start policy idle) where
  proxy := bounded_start policy idle
  session := by
    intro u hu
    cases hu
  channel := allSmall_nil
  forwards := allSmall_nil
  cleanups := allSmall_nil

/-- Operations of the upstream task queue nothing to the switcher. -/
theorem sessionBounded_sessionAfter {s : Proxy} {session : Option UpstreamSession}
    (h : ∀ u, session=some u → SessionBounded u) :
    ∀ u, sessionAfter s session=some u → SessionBounded u := by
  intro u hu
  obtain ⟨before,hbefore,rfl | rfl⟩ := sessionAfter_eq_some hu
  · exact h u hbefore
  · exact (h before hbefore).call rfl

/-- The handler forwards what its filter let through. -/
theorem small_forwardsAfter {s : Proxy} (h : Bounded s) {forwards : List Bytes}
    (hf : AllSmall forwards) : AllSmall (forwardsAfter s forwards) := by
  unfold forwardsAfter
  split
  · rename_i addr actions hwaits
    have hhandler := h.handler
    rw [hwaits] at hhandler
    exact hhandler
  · exact hf

/-- The commands of a cleanup fit. -/
theorem small_nextCleanup {s : Proxy} (h : Bounded s) : AllSmall (nextCleanup s) := by
  unfold nextCleanup
  split
  · exact allSmall_nil
  · exact small_cleanupCommands h.enable _

/-- A command put into the channel is behind the others. -/
theorem AllSmall.put {channel : List Command} (h : AllSmall (channel.map Command.raw)) {raw : Bytes}
    (hraw : Small raw) (epoch : ℕ) :
    AllSmall ((channel++[Command.mk raw epoch]).map Command.raw) := by
  rw [List.map_append]
  exact h.append (allSmall_singleton hraw)

/-- Every step of the whole proxy keeps the bound, whatever arrives. -/
theorem SystemBounded.step {x y : System} {a : SystemAction} (h : SystemBounded x)
    (hstep : systemStep x a=some y) : SystemBounded y := by
  have honly : ∀ {u v : UpstreamSession}, SessionBounded v →
      some v=some u → SessionBounded u := by
    intro u v hv hu
    cases hu
    exact hv
  cases moved_of_systemStep hstep with
  | upstream t ht =>
    exact {h with
      proxy := h.proxy.step (fun _ he => by cases he) ht
      session := sessionBounded_sessionAfter h.session}
  | quiet a t ht hserves =>
    refine {h with proxy := h.proxy.step (fun payload he => ?_) ht}
    rw [he] at hserves
    cases hserves
  | handler clock replied t ht =>
    exact {h with
      proxy := h.proxy.step (fun _ he => by cases he) ht
      forwards := small_forwardsAfter h.proxy h.forwards}
  | cleanup t ht =>
    exact {h with
      proxy := h.proxy.step (fun _ he => by cases he) ht
      cleanups := h.cleanups.append (small_nextCleanup h.proxy)}
  | connect reply clock u _ _ hu =>
    exact {h with session := fun _ => honly (sessionBounded_connect hu)}
  | endSession t ht =>
    refine {h with proxy := h.proxy.step (fun _ he => by cases he) ht, session := fun u hu => ?_}
    cases hu
  | heard u data clock hu =>
    have hsession := sessionRule_bounded.onDatagram (h.session u hu) data clock
    exact {h with session := fun _ => honly hsession}
  | handled u data clock payload t hu hasked ht =>
    have hsession := sessionRule_bounded.onDatagram (h.session u hu) data clock
    obtain ⟨header,hdecode⟩ := UpstreamSession.onDatagram_payload hasked
    refine {h with proxy := h.proxy.step (fun p he => ?_) ht, session := fun _ => honly hsession}
    cases he
    exact decodePacket_length_le hdecode
  | woke u cmd channel hu hnext =>
    have hchannel := h.channel
    rw [hnext] at hchannel
    have hcmd : Small cmd.raw := hchannel cmd.raw List.mem_cons_self
    have hwoken := sessionRule_bounded.wake (h.session u hu) ((h.session u hu).take hcmd)
    exact {h with session := fun _ => honly hwoken, channel := hchannel.tail}
  | took u now elapsedAt ackAt cmd channel hu hnext =>
    have hchannel := h.channel
    rw [hnext] at hchannel
    have hcmd : Small cmd.raw := hchannel cmd.raw List.mem_cons_self
    exact {h with session := fun _ => honly ((h.session u hu).take hcmd), channel := hchannel.tail}
  | flushed u now elapsedAt ackAt hu _ =>
    have hflushed := sessionRule_bounded.flush (h.session u hu) now elapsedAt ackAt
    exact {h with session := fun _ => honly hflushed}
  | ticked u clock now elapsedAt ackAt hu =>
    have hticked := sessionRule_bounded.tick (h.session u hu) now elapsedAt ackAt
    exact {h with session := fun _ => honly hticked}
  | putForward raw forwards hnext =>
    have hforwards := h.forwards
    rw [hnext] at hforwards
    exact {h with
      forwards := hforwards.tail
      channel := h.channel.put (hforwards raw List.mem_cons_self) x.ended}
  | putCleanup raw cleanups hnext =>
    have hcleanups := h.cleanups
    rw [hnext] at hcleanups
    exact {h with
      cleanups := hcleanups.tail
      channel := h.channel.put (hcleanups raw List.mem_cons_self) x.ended}

/-- The payload is neither cut nor rejected by the debug assertion when it is sent. -/
def Uncut (payload : Bytes) : Prop :=
  payload.length≤2035 ∧ headerLen+payload.length≤lengthMask ∧ wirePayload payload=payload

/-- A payload that fits is sent whole. -/
theorem Small.uncut {payload : Bytes} (h : Small payload) : Uncut payload := by
  refine ⟨h,?_,wirePayload_of_le h⟩
  unfold Small at h
  unfold headerLen lengthMask
  omega

/-- Payloads in the outbound queues, now or earlier, are sent whole. -/
def SendsWhole (x : System) : Prop :=
  (∀ addr t, x.proxy.sessions.get? addr=some t →
    ∀ payload, payload ∈ t.queued ∨ payload ∈ t.session.rel.outbound → Uncut payload) ∧
  ∀ u, x.session=some u →
    ∀ payload, payload ∈ u.ledger.queued ∨ payload ∈ u.ledger.endpoint.outbound → Uncut payload

/-- While everything fits, everything is sent whole. -/
theorem SystemBounded.sendsWhole {x : System} (h : SystemBounded x) : SendsWhole x := by
  constructor
  · intro addr t ht payload hp
    have hrecorded := h.proxy.sessions addr t ht
    exact (hrecorded.small payload (hp.elim id (hrecorded.covers payload))).uncut
  · intro u hu payload hp
    have hbounded := h.session u hu
    exact (hbounded.queued payload (hp.elim id (hbounded.covers payload))).uncut

/-- No outgoing packet is truncated: in every state of every run of the whole
proxy, whatever datagrams arrive from clients and switcher and in any order,
every payload put into an outbound queue of a client session or of the
upstream session has at most 2035 bytes. -/
theorem outgoing_payloads_uncut (policy : FilterPolicy) (idle : ℕ) (acts : List SystemAction) :
    Always systemStep SendsWhole (System.start policy idle) acts := by
  have hall := always_of_invariant systemStep (fun _ _ _ hx hstep => SystemBounded.step hx hstep)
    (systemBounded_start policy idle) acts
  exact hall.mono systemStep (fun _ hx => hx.sendsWhole)

end AtemProxy.PayloadBounds
