import AtemProxy.ProxyTasks

/-!
# From one switcher payload to the sessions

The upstream task turns a payload into at most one event of each kind and
the fan-out hands these to the sessions. The events partition the commands
of the payload by name, each part in payload order, and the cache ends up
as if it had taken the payload itself. Timecode commands are classified
with the audio meters, so they reach subscribers only, and behind the state
commands of their payload.
-/

namespace AtemProxy.PayloadFanouts

open BigEndian CommandFrames KeyedMaps LockStores LastWrites LateJoinCache ServerSessions
  UpstreamEvents BroadcastQueues ProxyTasks GuardedRuns

/-- Events that the remaining operations send, given the connection flag. -/
def sentBy : Bool → List UpstreamOp → List UpstreamEvent
  | _,[] => []
  | connected,.send event::ops => event::sentBy connected ops
  | connected,.swapConnected::ops =>
    if connected=true then sentBy true ops else .connected::sentBy true ops
  | _,.setDisconnected::ops => sentBy false ops
  | connected,.lockStatus _::ops => sentBy connected ops
  | connected,.ingest _::ops => sentBy connected ops
  | connected,.setReady::ops => sentBy connected ops
  | connected,.clearCache::ops => sentBy connected ops
  | connected,.clearLocks::ops => sentBy connected ops

/-- Effect of an operation on the cache. -/
def cacheAfter (cache : StateCache) : UpstreamOp → StateCache
  | .ingest chunk => cache.ingestPayload chunk
  | .setReady => cache.setReady true
  | .clearCache => cache.clear
  | _ => cache

/-- Effect of an operation on the connection flag. -/
def connectedAfter (connected : Bool) : UpstreamOp → Bool
  | .swapConnected => true
  | .setDisconnected => false
  | _ => connected

/-- What the upstream task leaves behind when its operations are done. -/
structure Finished (ops : List UpstreamOp) (s t : Proxy) : Prop where
  /-- The task is idle. -/
  idle : t.upstream=[]
  /-- Events sent. -/
  events : t.events=(sentBy s.connected ops).foldl (Broadcast.send eventCapacity) s.events
  /-- Cache. -/
  cache : t.cache=ops.foldl cacheAfter s.cache
  /-- Connection flag. -/
  connected : t.connected=ops.foldl connectedAfter s.connected
  /-- Sessions. -/
  sessions : t.sessions=s.sessions
  /-- Fan-out task. -/
  fanout : t.fanout=s.fanout
  /-- Datagram handler. -/
  handler : t.handler=s.handler

/-- One step of the upstream task before the others. -/
theorem run_upstream_cons {s t : Proxy} {op : UpstreamOp} {ops : List UpstreamOp} {n : ℕ}
    (hops : s.upstream=op::ops)
    (hrun : run step (Proxy.upstreamStep {s with upstream := ops} op)
      (List.replicate n .upstream)=some t) :
    run step s (List.replicate (n+1) .upstream)=some t := by
  rw [List.replicate_succ,run_cons_eq_some]
  refine ⟨_,?_,hrun⟩
  dsimp only [step]
  rw [hops]

/-- Left alone, the upstream task finishes its operations. -/
theorem upstream_finishes (ops : List UpstreamOp) {s : Proxy} (hops : s.upstream=ops) :
    ∃ n t, run step s (List.replicate n .upstream)=some t ∧ Finished ops s t := by
  induction ops generalizing s with
  | nil => exact ⟨0,s,rfl,⟨hops,rfl,rfl,rfl,rfl,rfl,rfl⟩⟩
  | cons op ops ih =>
    have hplain : ∀ u : Proxy,Proxy.upstreamStep {s with upstream := ops} op=u → u.upstream=ops →
        (∀ t,Finished ops u t → Finished (op::ops) s t) →
        ∃ n t,run step s (List.replicate n .upstream)=some t ∧ Finished (op::ops) s t := by
      intro u hu hrest hfin
      obtain ⟨n,t,hrun,hdone⟩ := ih hrest
      exact ⟨n+1,t,run_upstream_cons hops (hu ▸ hrun),hfin t hdone⟩
    cases op with
    | swapConnected =>
      cases hc : s.connected with
      | true =>
        obtain ⟨n,t,hrun,hfin⟩ := @ih {s with upstream := ops} rfl
        refine ⟨n+1,t,run_upstream_cons hops ?_,⟨hfin.idle,?_,hfin.cache,?_,hfin.sessions,
          hfin.fanout,hfin.handler⟩⟩
        · rw [Proxy.upstreamStep,if_pos hc]
          exact hrun
        · rw [hfin.events]
          simp only [hc,sentBy,if_true]
        · rw [hfin.connected]
          simp only [hc,List.foldl_cons,connectedAfter]
      | false =>
        -- The announcement is one more operation, executed next.
        obtain ⟨n,t,hrun,hfin⟩ := @ih {s with
          connected := true
          upstream := ops
          events := s.events.send eventCapacity .connected} rfl
        refine ⟨n+1+1,t,run_upstream_cons hops ?_,⟨hfin.idle,?_,hfin.cache,?_,hfin.sessions,
          hfin.fanout,hfin.handler⟩⟩
        · simp only [Proxy.upstreamStep,hc,Bool.false_eq_true,if_false]
          exact run_upstream_cons rfl hrun
        · rw [hfin.events]
          simp only [hc,sentBy,Bool.false_eq_true,if_false,List.foldl_cons]
        · rw [hfin.connected]
          simp only [List.foldl_cons,connectedAfter]
    | _ => exact hplain _ rfl rfl (fun _ h => ⟨h.1,h.2,h.3,h.4,h.5,h.6,h.7⟩)

/-- Chunk that an event carries. -/
def eventChunk : UpstreamEvent → Chunk
  | .statePayload _ => .state
  | .audioLevels _ => .audio
  | .transferPayload _ => .transfer
  | .connected => .none
  | .disconnected => .none

/-- Bytes that an event carries. -/
def eventPayload : UpstreamEvent → Bytes
  | .statePayload payload => payload
  | .audioLevels payload => payload
  | .transferPayload payload => payload
  | .connected => []
  | .disconnected => []

/-- The event of a chunk, if the chunk has any bytes. -/
def partEvent (make : Bytes → UpstreamEvent) (chunk : Bytes) : List UpstreamEvent :=
  if chunk=[] then [] else [make chunk]

/-- Some command completes the initialization. -/
def completes (cmds : List CommandRef) : Bool :=
  cmds.any (fun cmd => decide (cmd.name=initComplete))

/-- Only the command that completes the initialization completes it. -/
theorem completes_iff (cmds : List CommandRef) :
    completes cmds=true ↔ ∃ cmd∈cmds,cmd.name=initComplete := by
  simp only [completes,List.any_eq_true,decide_eq_true_eq]

/-- The announcement of a connection that was not announced before. -/
def announcement (connected : Bool) (cmds : List CommandRef) : List UpstreamEvent :=
  if completes cmds=true ∧ connected=false then [.connected] else []

/-- Events that a parsed payload sends. -/
def payloadEvents (connected : Bool) (cmds : List CommandRef) : List UpstreamEvent :=
  partEvent .statePayload (chunkBytes .state cmds)++
    partEvent .audioLevels (chunkBytes .audio cmds)++
    partEvent .transferPayload (chunkBytes .transfer cmds)++announcement connected cmds

/-- Events are sent one operation list after the other. -/
theorem sentBy_append (connected : Bool) (first second : List UpstreamOp) :
    sentBy connected (first++second)=
      sentBy connected first++sentBy (first.foldl connectedAfter connected) second := by
  induction first generalizing connected with
  | nil => rfl
  | cons op ops ih =>
    cases op with
    | send event =>
      simp only [List.cons_append,sentBy,ih,List.foldl_cons,connectedAfter]
    | swapConnected =>
      simp only [List.cons_append,sentBy,ih,List.foldl_cons,connectedAfter]
      split <;> rfl
    | _ => exact ih _

/-- Operations for the chunks of a payload. -/
def chunkOps (cmds : List CommandRef) : List UpstreamOp :=
  stateOps (chunkBytes .state cmds)++
    (if chunkBytes .audio cmds=[] then [] else [.send (.audioLevels (chunkBytes .audio cmds))])++
    (if chunkBytes .transfer cmds=[] then []
      else [.send (.transferPayload (chunkBytes .transfer cmds))])

/-- Operations for a completed initialization. -/
def readyOps (cmds : List CommandRef) : List UpstreamOp :=
  if completes cmds=true then [.setReady,.swapConnected] else []

/-- A payload that parses is taken apart into chunks. -/
theorem handleUpstreamPayload_eq {payload : Bytes} {cmds : List CommandRef}
    (h : parseCommands payload=.ok cmds) :
    handleUpstreamPayload payload=chunkOps cmds++readyOps cmds := by
  unfold handleUpstreamPayload
  rw [h]
  rfl

/-- What the operations for the chunks do. -/
theorem chunkOps_effects (cmds : List CommandRef) (connected : Bool) (c : StateCache) :
    sentBy connected (chunkOps cmds)=partEvent .statePayload (chunkBytes .state cmds)++
        partEvent .audioLevels (chunkBytes .audio cmds)++
        partEvent .transferPayload (chunkBytes .transfer cmds) ∧
      (chunkOps cmds).foldl connectedAfter connected=connected ∧
      (chunkOps cmds).foldl cacheAfter c=c.ingestPayload (chunkBytes .state cmds) := by
  unfold chunkOps stateOps partEvent
  by_cases hstate : chunkBytes .state cmds=[]
  · rw [if_pos hstate,if_pos hstate,hstate]
    split_ifs <;> exact ⟨rfl,rfl,rfl⟩
  · rw [if_neg hstate,if_neg hstate]
    split_ifs <;> exact ⟨rfl,rfl,rfl⟩

/-- Events of a payload in the order in which they are sent. -/
theorem sentBy_handleUpstreamPayload {payload : Bytes} {cmds : List CommandRef}
    (h : parseCommands payload=.ok cmds) (connected : Bool) :
    sentBy connected (handleUpstreamPayload payload)=payloadEvents connected cmds := by
  obtain ⟨hsent,hconnected,_⟩ := chunkOps_effects cmds connected .new
  rw [handleUpstreamPayload_eq h,sentBy_append,hsent,hconnected,payloadEvents]
  congr 1
  unfold readyOps announcement
  cases completes cmds <;> cases connected <;> rfl

/-- The cache takes the state chunk and learns of a completed initialization. -/
theorem cacheAfter_handleUpstreamPayload {payload : Bytes} {cmds : List CommandRef}
    (h : parseCommands payload=.ok cmds) (c : StateCache) :
    (handleUpstreamPayload payload).foldl cacheAfter c=
      if completes cmds=true then (c.ingestPayload (chunkBytes .state cmds)).setReady true
      else c.ingestPayload (chunkBytes .state cmds) := by
  rw [handleUpstreamPayload_eq h,List.foldl_append,(chunkOps_effects cmds false c).2.2]
  unfold readyOps
  split <;> rfl

/-- Only initialization-complete raises the connection flag. -/
theorem connectedAfter_handleUpstreamPayload {payload : Bytes} {cmds : List CommandRef}
    (h : parseCommands payload=.ok cmds) (connected : Bool) :
    (handleUpstreamPayload payload).foldl connectedAfter connected=
      (connected || completes cmds) := by
  rw [handleUpstreamPayload_eq h,List.foldl_append,(chunkOps_effects cmds connected .new).2.1]
  unfold readyOps
  cases completes cmds <;> cases connected <;> rfl

/-- Only initialization-complete is in no chunk. -/
theorem chunkOf_eq_none_iff (name : CommandName) : chunkOf name=.none ↔ name=initComplete := by
  unfold chunkOf
  split_ifs with hinit <;> simp only [hinit]

/-- The cache stores the same writes from the state chunk as from the payload. -/
theorem cacheWrites_state_chunk (cmds : List CommandRef) :
    cacheWrites (chunkCommands .state cmds)=cacheWrites cmds := by
  unfold cacheWrites chunkCommands
  rw [List.filter_filter]
  congr 1
  refine List.filter_congr (fun cmd _ => ?_)
  cases hc : isCacheable cmd.name with
  | false => rfl
  | true => rw [chunkOf_of_isCacheable hc]; rfl

/-- Commands other than initialization-complete leave the readiness alone. -/
theorem ingestPayload_ready (c : StateCache) {payload : Bytes}
    (h : ∀ cmd∈parsedCommands payload,cmd.name≠initComplete) :
    (c.ingestPayload payload).ready=c.ready := by
  have hall : ∀ (cmds : List CommandRef) (c : StateCache),
      (∀ cmd∈cmds,cmd.name≠initComplete) →
      (cmds.foldl StateCache.ingestCommand c).ready=c.ready := by
    intro cmds
    induction cmds with
    | nil => exact fun _ _ => rfl
    | cons cmd cmds ih =>
      intro c hne
      rw [List.foldl_cons,ih _ (fun d hd => hne d (List.mem_cons_of_mem _ hd))]
      simp only [StateCache.ingestCommand,if_neg (hne cmd List.mem_cons_self)]
      split <;> rfl
  unfold StateCache.ingestPayload
  unfold parsedCommands at h
  cases hp : parseCommands payload with
  | error e => rfl
  | ok cmds =>
    rw [hp] at h
    exact hall cmds c h

/-- The events partition the commands of a payload. -/
structure Partitions (cmds : List CommandRef) (events : List UpstreamEvent) : Prop where
  /-- At most one event for each chunk. -/
  once : ∀ chunk≠.none,(events.filter (fun e => decide (eventChunk e=chunk))).length≤1
  /-- Every event parses. -/
  parses : ∀ e∈events,∃ carried,parseCommands (eventPayload e)=.ok carried
  /-- The event of a chunk carries exactly the commands of that chunk, in payload order. -/
  carries : ∀ chunk≠.none,
    (events.filter (fun e => decide (eventChunk e=chunk))).flatMap
        (fun e => parsedCommands (eventPayload e))=
      cmds.filter (fun cmd => decide (chunkOf cmd.name=chunk))
  /-- Other events carry nothing. -/
  announces : ∀ e∈events,eventChunk e=.none → eventPayload e=[]
  /-- Only initialization-complete belongs to no chunk. -/
  skipped : ∀ cmd∈cmds,chunkOf cmd.name=.none ↔ cmd.name=initComplete
  /-- What the cache stores is in the state event. -/
  cached : ∀ cmd∈cmds,isCacheable cmd.name=true →
    ∃ e∈events,eventChunk e=.state ∧ cmd∈parsedCommands (eventPayload e)

/-- An event of a chunk carries its commands, and no event is sent for none. -/
theorem partEvent_carries {make : Bytes → UpstreamEvent} (hmake : ∀ b,eventPayload (make b)=b)
    (chunk : Chunk) (cmds : List CommandRef) :
    (partEvent make (chunkBytes chunk cmds)).flatMap (fun e => parsedCommands (eventPayload e))=
      chunkCommands chunk cmds := by
  have hcmds := parsedCommands_chunkBytes chunk cmds
  unfold partEvent
  split
  · rename_i hnil
    rw [hnil] at hcmds
    exact hcmds
  · rw [List.flatMap_singleton,hmake,hcmds]

/-- The events of a kind among those of a payload. -/
theorem filter_partEvent (make : Bytes → UpstreamEvent) (kind : Chunk)
    (hmake : ∀ b,eventChunk (make b)=kind) (bytes : Bytes) (chunk : Chunk) :
    (partEvent make bytes).filter (fun e => decide (eventChunk e=chunk))=
      if kind=chunk then partEvent make bytes else [] := by
  unfold partEvent
  split
  · rw [List.filter_nil,ite_self]
  · by_cases hk : kind=chunk
    · simp only [List.filter_cons,hmake,hk,decide_true,if_true,List.filter_nil]
    · simp only [List.filter_cons,hmake,hk,decide_false,Bool.false_eq_true,if_false,
        List.filter_nil]

/-- A chunk leads to one event at most. -/
theorem partEvent_length_le (make : Bytes → UpstreamEvent) (bytes : Bytes) :
    (partEvent make bytes).length≤1 := by
  unfold partEvent
  split
  · exact Nat.zero_le 1
  · exact Nat.le_refl 1

/-- The events of one chunk are its own part. -/
theorem filter_payloadEvents (connected : Bool) (cmds : List CommandRef) {chunk : Chunk}
    (h : chunk≠.none) :
    ∃ make : Bytes → UpstreamEvent,(∀ b,eventPayload (make b)=b) ∧
      (payloadEvents connected cmds).filter (fun e => decide (eventChunk e=chunk))=
        partEvent make (chunkBytes chunk cmds) := by
  have hannounce : (announcement connected cmds).filter
      (fun e => decide (eventChunk e=chunk))=[] := by
    unfold announcement
    split
    · simp only [List.filter_cons,eventChunk,h.symm,decide_false,Bool.false_eq_true,if_false,
        List.filter_nil]
    · rfl
  have hstate := filter_partEvent .statePayload .state (fun _ => rfl)
  have haudio := filter_partEvent .audioLevels .audio (fun _ => rfl)
  have htransfer := filter_partEvent .transferPayload .transfer (fun _ => rfl)
  simp only [payloadEvents,List.filter_append,hstate,haudio,htransfer,hannounce]
  cases chunk with
  | state => exact ⟨.statePayload,fun _ => rfl,by
      simp only [reduceCtorEq,if_true,if_false,List.append_nil]⟩
  | audio => exact ⟨.audioLevels,fun _ => rfl,by
      simp only [reduceCtorEq,if_true,if_false,List.append_nil,List.nil_append]⟩
  | transfer => exact ⟨.transferPayload,fun _ => rfl,by
      simp only [reduceCtorEq,if_true,if_false,List.append_nil,List.nil_append]⟩
  | none => exact absurd rfl h

/-- Every event of a payload carries one of its chunks. -/
theorem mem_payloadEvents {connected : Bool} {cmds : List CommandRef} {e : UpstreamEvent}
    (h : e∈payloadEvents connected cmds) :
    e=.connected ∨ eventPayload e=chunkBytes (eventChunk e) cmds ∧ eventChunk e≠.none := by
  simp only [payloadEvents,List.mem_append,partEvent,announcement] at h
  rcases h with ((h | h) | h) | h <;> split at h <;>
    first
    | exact absurd h List.not_mem_nil
    | rw [List.mem_singleton.mp h]
  · exact Or.inr ⟨rfl,Chunk.noConfusion⟩
  · exact Or.inr ⟨rfl,Chunk.noConfusion⟩
  · exact Or.inr ⟨rfl,Chunk.noConfusion⟩
  · exact Or.inl rfl

/-- The events of a payload are its parts. -/
theorem partitions_payloadEvents (connected : Bool) (cmds : List CommandRef) :
    Partitions cmds (payloadEvents connected cmds) where
  once := by
    intro chunk hc
    obtain ⟨make,_,hfilter⟩ := filter_payloadEvents connected cmds hc
    rw [hfilter]
    exact partEvent_length_le make _
  parses := by
    intro e he
    rcases mem_payloadEvents he with rfl | ⟨hbytes,_⟩
    · exact ⟨[],rfl⟩
    · rw [hbytes]
      exact ⟨_,parseCommands_frames (chunkCommands (eventChunk e) cmds)⟩
  carries := by
    intro chunk hc
    obtain ⟨make,hmake,hfilter⟩ := filter_payloadEvents connected cmds hc
    rw [hfilter]
    exact partEvent_carries hmake chunk cmds
  announces := by
    intro e he hnone
    rcases mem_payloadEvents he with rfl | ⟨_,hsome⟩
    · rfl
    · exact absurd hnone hsome
  skipped := fun cmd _ => chunkOf_eq_none_iff cmd.name
  cached := by
    intro cmd hmem hcache
    obtain ⟨make,hmake,hfilter⟩ :=
      @filter_payloadEvents connected cmds .state Chunk.noConfusion
    have hcarried := partEvent_carries hmake .state cmds
    rw [←hfilter] at hcarried
    have hcmd : cmd∈chunkCommands .state cmds :=
      List.mem_filter.mpr ⟨hmem,decide_eq_true (chunkOf_of_isCacheable hcache)⟩
    rw [←hcarried,List.mem_flatMap] at hcmd
    obtain ⟨e,he,hin⟩ := hcmd
    obtain ⟨he,hkind⟩ := List.mem_filter.mp he
    exact ⟨e,he,of_decide_eq_true hkind,hin⟩

/-- Upstream payloads are partitioned exactly: when the idle upstream task
takes a payload that parses, it finishes; the events it sent partition the
commands, the cache map is the one of a direct ingest, and the connection
flag and the readiness are raised exactly by initialization-complete. -/
theorem payload_partitioned {s : Proxy} {payload : Bytes} {cmds : List CommandRef}
    (hidle : s.upstream=[]) (hparse : parseCommands payload=.ok cmds) :
    ∃ n t events,run step s (.payload payload::List.replicate n .upstream)=some t ∧
      t.upstream=[] ∧ t.events=events.foldl (Broadcast.send eventCapacity) s.events ∧
      Partitions cmds events ∧ t.cache.map=(s.cache.ingestPayload payload).map ∧
      (t.connected=true ↔ s.connected=true ∨ ∃ cmd∈cmds,cmd.name=initComplete) ∧
      (t.cache.ready=true ↔ s.cache.ready=true ∨ ∃ cmd∈cmds,cmd.name=initComplete) := by
  obtain ⟨n,t,hrun,hfin⟩ := upstream_finishes (handleUpstreamPayload payload)
    (s := {s with upstream := handleUpstreamPayload payload}) rfl
  have hevents := hfin.events
  rw [sentBy_handleUpstreamPayload hparse] at hevents
  have hcache := hfin.cache
  rw [cacheAfter_handleUpstreamPayload hparse] at hcache
  have hconnected := hfin.connected
  rw [connectedAfter_handleUpstreamPayload hparse] at hconnected
  have hmap : (s.cache.ingestPayload (chunkBytes .state cmds)).map=
      (s.cache.ingestPayload payload).map := by
    rw [ingestPayload_map,ingestPayload_map,parsedCommands_chunkBytes,cacheWrites_state_chunk,
      parsedCommands_of_ok hparse]
  have hready : (s.cache.ingestPayload (chunkBytes .state cmds)).ready=s.cache.ready := by
    refine ingestPayload_ready s.cache (fun cmd hmem hinit => ?_)
    rw [parsedCommands_chunkBytes] at hmem
    have hstate := of_decide_eq_true (List.mem_filter.mp hmem).2
    rw [(chunkOf_eq_none_iff cmd.name).mpr hinit] at hstate
    cases hstate
  refine ⟨n,t,payloadEvents s.connected cmds,?_,hfin.idle,hevents,
    partitions_payloadEvents s.connected cmds,?_,?_,?_⟩
  · rw [run_cons_eq_some]
    exact ⟨_,if_pos hidle,hrun⟩
  · rw [hcache]
    split <;> exact hmap
  · rw [hconnected,Bool.or_eq_true,completes_iff]
  · rw [hcache,←completes_iff]
    split
    · rename_i hc
      simp only [StateCache.setReady,hc,or_true]
    · rename_i hc
      simp only [hready,hc,Bool.false_eq_true,or_false]

/-- Timecode report of the switcher. -/
def timecode : CommandRef :=
  serializedRef (tag 'T' 'i' 'm' 'e') [10,0,0,0,0,0,0,0] (by
    simp only [List.length_cons,List.length_nil]
    omega)

/-- A payload with a timecode and an initialization-complete command. -/
theorem timecode_payload_partitioned :
    parseCommands ([timecode,initCompleteRef].map CommandRef.raw).flatten=
        .ok [timecode,initCompleteRef] ∧
      ∃ n t events,
        run step (Proxy.start ⟨.deny,.new,.new {}⟩ 5000)
          (.payload ([timecode,initCompleteRef].map CommandRef.raw).flatten::
            List.replicate n .upstream)=some t ∧
        t.upstream=[] ∧ t.events=events.foldl (Broadcast.send eventCapacity) .empty ∧
        Partitions [timecode,initCompleteRef] events ∧ t.connected=true := by
  have hparse := parseCommands_frames [timecode,initCompleteRef]
  obtain ⟨n,t,events,hrun,hidle,hevents,hparts,_,hconnected,_⟩ :=
    @payload_partitioned (Proxy.start ⟨.deny,.new,.new {}⟩ 5000) _ _ rfl hparse
  exact ⟨hparse,n,t,events,hrun,hidle,hevents,hparts,
    hconnected.mpr (Or.inr ⟨initCompleteRef,by simp,rfl⟩)⟩

end AtemProxy.PayloadFanouts
