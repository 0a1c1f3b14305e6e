import AtemProxy.CatchUps
import AtemProxy.PackedBatches
import AtemProxy.ProxyTasks

/-!
# Late joiners converge with live clients

The upstream task stores a chunk before it sends it, the fan-out may be
arbitrarily far behind, and a client may open at any moment. Whatever is
still on its way to the sessions, in the order in which it will reach them,
is one queue of pending writes and refreshes; a client that opens now and a
client that listened all along are both led by it to the cached values.
-/

namespace AtemProxy.LateJoiners

open BigEndian PacketCodec CommandFrames KeyedMaps LastWrites LockStores TransferLanes
  CommandPolicy LateJoinCache ReliableTransport ServerSessions UpstreamEvents BroadcastQueues
  GuardedRuns ProxyTasks CatchUps PackedBatches

/-- Keyed writes of the commands of a payload; none when it does not parse. -/
def payloadWrites (payload : Bytes) : List (CacheKey×Bytes) :=
  keyedWrites (parsedCommands payload)

/-- Last command with the key among the payloads ever queued. -/
def held (t : Tracked) (key : CacheKey) : Option Bytes :=
  lastFor key (t.queued.flatMap payloadWrites)

/-- None of the commands is stored in the cache. -/
def Unstored (payload : Bytes) : Prop :=
  ∀ cmd∈parsedCommands payload,isCacheable cmd.name=false

/-- Payloads without stored commands leave stored keys alone. -/
theorem Unstored.lastFor {payload : Bytes} (h : Unstored payload) {key : CacheKey}
    (hkey : isCacheable key.name=true) : lastFor key (payloadWrites payload)=none := by
  rw [payloadWrites,←lastFor_cacheWrites hkey]
  refine lastFor_eq_none_iff.mpr (fun value hmem => ?_)
  obtain ⟨cmd,hcmd,_,_,hcache⟩ := mem_cacheWrites hmem
  have hnot := h cmd hcmd
  rw [hcache] at hnot
  cases hnot

/-- Packed commands are parsed one by one from their datagrams. -/
theorem parsedCommands_packCommands (cmds : List CommandRef) :
    (packCommands (cmds.map CommandRef.raw)).flatMap parsedCommands=cmds := by
  have hgroup : ∀ group : List CommandRef,parsedCommands (joined CommandRef.raw group)=group :=
    fun group => parsedCommands_of_ok (parseCommands_frames group)
  rw [packCommands_eq_groups CommandRef.raw (fun cmd _ => cmd.raw_ne_nil),List.flatMap_map]
  simp only [hgroup]
  rw [List.flatMap_id',packGroups_flatten,List.nil_append]

/-- A dump carries the stored value of every stored key. -/
theorem lastFor_dump {c : StateCache} (h : Coherent c) {key : CacheKey} {value : Bytes}
    (hget : c.map.get? key=some value) :
    lastFor key ((packCommands c.dump).flatMap payloadWrites)=some value := by
  obtain ⟨cmds,hdump,hentries,_⟩ := h.dump_commands
  have hwrites : (packCommands c.dump).flatMap payloadWrites=
      c.map.entries++keyedWrites [initCompleteRef] := by
    have hparsed := parsedCommands_packCommands (cmds++[initCompleteRef])
    rw [←hdump] at hparsed
    calc (packCommands c.dump).flatMap payloadWrites
        =keyedWrites ((packCommands c.dump).flatMap parsedCommands) :=
          (List.map_flatMap ..).symm
      _=c.map.entries++keyedWrites [initCompleteRef] := by
          rw [hparsed,keyedWrites_append,hentries]
  have hinit : cacheKey initCompleteRef≠key := by
    intro he
    have hcache := h.name_isCacheable hget
    rw [←he] at hcache
    exact absurd hcache (by decide)
  have hmem := (c.map.get?_eq_some_iff key value).mp hget
  rw [hwrites,lastFor_append,lastFor_of_nodup c.map.nodup hmem]
  simp only [keyedWrites,List.map_cons,List.map_nil,lastFor,if_neg hinit,Option.none_or]

/-- A session keeps its flags and, when it is opened, receives the writes;
keys that are never stored do not matter. -/
structure Delivers (ws : List (CacheKey×Bytes)) (t t' : Tracked) : Prop where
  /-- Opened flag. -/
  opened : t'.session.opened=t.session.opened
  /-- Dump flag. -/
  dumpSent : t'.session.dumpSent=t.session.dumpSent
  /-- Commands held. -/
  held : t.session.opened=true → ∀ key,isCacheable key.name=true →
    held t' key=(lastFor key ws).or (held t key)

/-- An appended payload adds its writes to the record. -/
theorem held_record (t : Tracked) (update : ClientSession → ClientSession) {added : List Bytes}
    (hout : (update t.session).rel.outbound=t.session.rel.outbound++added) (key : CacheKey) :
    held (t.record update) key=(lastFor key (added.flatMap payloadWrites)).or (held t key) := by
  simp only [held,Tracked.record,hout,List.drop_left,List.flatMap_append,lastFor_append]

/-- A state payload brings its writes. -/
theorem delivers_queueState (payload : Bytes) (t : Tracked) :
    Delivers (payloadWrites payload) t (t.record (.queueState payload)) where
  opened := (hands_queueState payload t.session).opened
  dumpSent := (hands_queueState payload t.session).dumpSent
  held hopen key _ := by
    have hout : (t.session.queueState payload).rel.outbound=
        t.session.rel.outbound++[payload] := by
      simp only [ClientSession.queueState,hopen,if_true,ReliableEndpoint.queuePayload]
    rw [held_record t _ hout key,List.flatMap_singleton]

/-- A dump brings its writes. -/
theorem delivers_queueResync (dump : List Bytes) (t : Tracked) :
    Delivers ((packCommands dump).flatMap payloadWrites) t (t.record (.queueResync dump)) where
  opened := (hands_queueResync dump t.session).opened
  dumpSent := (hands_queueResync dump t.session).dumpSent
  held hopen key _ := by
    have hout : (t.session.queueResync dump).rel.outbound=
        t.session.rel.outbound++packCommands dump := by
      simp only [ClientSession.queueResync,hopen,if_true,ReliableEndpoint.queueCommandsPacked]
    exact held_record t _ hout key

/-- Nothing is appended, or a payload without stored commands. -/
theorem delivers_unstored {t : Tracked} {update : ClientSession → ClientSession} {payload : Bytes}
    (h : Unstored payload) (hands : Hands [payload] t.session (update t.session)) :
    Delivers [] t (t.record update) where
  opened := hands.opened
  dumpSent := hands.dumpSent
  held _ key hkey := by
    rcases hands.outbound with hsame | happended
    · exact held_record t update (hsame.trans (List.append_nil _).symm) key
    · rw [held_record t update happended key,List.flatMap_singleton,h.lastFor hkey]
      rfl

/-- Operations that queue nothing and keep the flags. -/
theorem delivers_keep {t : Tracked} {update : ClientSession → ClientSession}
    (hopened : (update t.session).opened=t.session.opened)
    (hdump : (update t.session).dumpSent=t.session.dumpSent) :
    Delivers [] t (t.keep update) where
  opened := hopened
  dumpSent := hdump
  held _ _ _ := rfl

/-- A poll brings nothing. -/
theorem delivers_poll (idle : ℕ) (now elapsedAt ackAt : Instant) (t : Tracked) :
    Delivers [] t (t.keep (.poll idle now elapsedAt ackAt)) := by
  obtain ⟨hopened,hdump,_⟩ := t.session.poll_flags idle now elapsedAt ackAt
  exact delivers_keep hopened hdump

/-- The actions of the filter bring nothing. -/
theorem delivers_applyActions (actions : List FilterAction) (t : Tracked) :
    Delivers [] t (t.keep (fun sess => sess.applyActions actions)) := by
  obtain ⟨hopened,hdump,_⟩ := t.session.applyActions_keeps actions
  exact delivers_keep hopened hdump

/-- The pending queue leads every opened session to the cached values and
keeps a client that opens now there. -/
structure Follows (cache : StateCache) (queue : List (Pending CacheKey Bytes))
    (sessions : OrderedMap SocketAddr Tracked) : Prop where
  /-- Cached frames have their key. -/
  coherent : Coherent cache
  /-- Clients that open now. -/
  kept : ∀ key value,cache.map.get? key=some value → CatchesUp key value queue (some value)
  /-- Clients that opened before. -/
  followed : ∀ addr t,sessions.get? addr=some t → t.session.opened=true →
    ∀ key value,cache.map.get? key=some value → CatchesUp key value queue (held t key)
  /-- The dump is queued when the session opens. -/
  undumped : ∀ addr t,sessions.get? addr=some t → t.session.opened=false →
    t.session.dumpSent=false

namespace Follows

variable {cache : StateCache} {queue : List (Pending CacheKey Bytes)}
  {sessions : OrderedMap SocketAddr Tracked}

/-- The queue changes in a way that leads to the same values. -/
theorem requeue (h : Follows cache queue sessions) {queue' : List (Pending CacheKey Bytes)}
    (hqueue : ∀ key value last,cache.map.get? key=some value → CatchesUp key value queue last →
      CatchesUp key value queue' last) : Follows cache queue' sessions where
  coherent := h.coherent
  kept key value hget := hqueue key value _ hget (h.kept key value hget)
  followed addr t ht hopen key value hget :=
    hqueue key value _ hget (h.followed addr t ht hopen key value hget)
  undumped := h.undumped

/-- The first item of the queue reaches every session. -/
theorem deliver {ws : List (CacheKey×Bytes)} (h : Follows cache (.writes ws::queue) sessions)
    {update : SocketAddr → Tracked → Tracked} (hupdate : ∀ addr t,Delivers ws t (update addr t)) :
    Follows cache queue (sessions.mapValues update) where
  coherent := h.coherent
  kept key value hget := (catchesUp_writes.mp (h.kept key value hget)).keeps
  followed addr t' ht' hopen key value hget := by
    rw [OrderedMap.get?_mapValues] at ht'
    obtain ⟨t,ht,rfl⟩ := Option.map_eq_some_iff.mp ht'
    have hd := hupdate addr t
    rw [hd.opened] at hopen
    rw [hd.held hopen key (h.coherent.name_isCacheable hget)]
    exact catchesUp_writes.mp (h.followed addr t ht hopen key value hget)
  undumped addr t' ht' hopen := by
    rw [OrderedMap.get?_mapValues] at ht'
    obtain ⟨t,ht,rfl⟩ := Option.map_eq_some_iff.mp ht'
    have hd := hupdate addr t
    rw [hd.opened] at hopen
    rw [hd.dumpSent]
    exact h.undumped addr t ht hopen

/-- Updates that deliver nothing. -/
theorem refreshNothing (h : Follows cache queue sessions)
    {update : SocketAddr → Tracked → Tracked} (hupdate : ∀ addr t,Delivers [] t (update addr t)) :
    Follows cache queue (sessions.mapValues update) :=
  (h.requeue (fun _ _ _ _ hc => catchesUp_writes.mpr hc)).deliver hupdate

/-- A session may be inserted if it catches up. -/
theorem insert (h : Follows cache queue sessions) {addr : SocketAddr} {t : Tracked}
    (hfollowed : t.session.opened=true → ∀ key value,cache.map.get? key=some value →
      CatchesUp key value queue (held t key))
    (hundumped : t.session.opened=false → t.session.dumpSent=false) :
    Follows cache queue (sessions.insert addr t) where
  coherent := h.coherent
  kept := h.kept
  followed other t' ht' hopen := by
    by_cases ho : other=addr
    · rw [ho,OrderedMap.get?_insert_self,Option.some.injEq] at ht'
      rw [←ht'] at hopen ⊢
      exact hfollowed hopen
    · rw [sessions.get?_insert_of_ne ho] at ht'
      exact h.followed other t' ht' hopen
  undumped other t' ht' hopen := by
    by_cases ho : other=addr
    · rw [ho,OrderedMap.get?_insert_self,Option.some.injEq] at ht'
      rw [←ht'] at hopen ⊢
      exact hundumped hopen
    · rw [sessions.get?_insert_of_ne ho] at ht'
      exact h.undumped other t' ht' hopen

/-- Sessions may be removed. -/
theorem eraseAll (h : Follows cache queue sessions) (dead : List SocketAddr) :
    Follows cache queue (dead.foldl OrderedMap.erase sessions) where
  coherent := h.coherent
  kept := h.kept
  followed addr t ht hopen := by
    rw [OrderedMap.get?_eraseAll] at ht
    split at ht
    · cases ht
    · exact h.followed addr t ht hopen
  undumped addr t ht hopen := by
    rw [OrderedMap.get?_eraseAll] at ht
    split at ht
    · cases ht
    · exact h.undumped addr t ht hopen

/-- Without sessions only the rest of the queue matters. -/
theorem clearSessions (h : Follows cache (.refresh::queue) sessions) :
    Follows cache queue OrderedMap.empty where
  coherent := h.coherent
  kept key value hget := catchesUp_refresh.mp (h.kept key value hget)
  followed _ _ ht := by cases ht
  undumped _ _ ht := by cases ht

/-- An empty cache asks for nothing. -/
theorem clearCache (h : Follows cache queue sessions)
    (queue' : List (Pending CacheKey Bytes)) : Follows cache.clear queue' sessions where
  coherent := coherent_new
  kept _ _ hget := by cases hget
  followed _ _ _ _ _ _ hget := by cases hget
  undumped := h.undumped

/-- The cache stores a chunk and the queue takes its writes. -/
theorem ingest (h : Follows cache queue sessions) (chunk : Bytes) :
    Follows (cache.ingestPayload chunk) (queue++[.writes (payloadWrites chunk)]) sessions := by
  have hcoherent := coherent_ingestPayload h.coherent chunk
  have hstored : ∀ key value,(cache.ingestPayload chunk).map.get? key=some value →
      (lastFor key (payloadWrites chunk)).or (cache.map.get? key)=some value := by
    intro key value hget
    rw [payloadWrites,←lastFor_cacheWrites (hcoherent.name_isCacheable hget),←get?_insertAll,
      ←ingestPayload_map]
    exact hget
  exact {
    coherent := hcoherent
    kept := fun key value hget => CatchesUp.write (hstored key value hget) (h.kept key value)
    followed := fun addr t ht hopen key value hget =>
      CatchesUp.write (hstored key value hget) (h.followed addr t ht hopen key value)
    undumped := h.undumped }

end Follows

/-- Effect of an event on the opened sessions. -/
def eventPending : UpstreamEvent → List (Pending CacheKey Bytes)
  | .connected => []
  | .disconnected => [.refresh]
  | .statePayload payload => [.writes (payloadWrites payload)]
  | .audioLevels _ => []
  | .transferPayload _ => []

/-- Effect of a fan-out operation on the opened sessions. -/
def opPending : FanoutOp → List (Pending CacheKey Bytes)
  | .clearSessions => [.refresh]
  | .clearLane => []
  | .queueState payload => [.writes (payloadWrites payload)]
  | .queueAudio _ => []
  | .routeTransfer _ => []
  | .queueTransfer _ _ => []
  | .takeDump => [.refresh]
  | .queueResync dump => [.writes ((packCommands dump).flatMap payloadWrites)]

/-- Events still to be sent about what the cache has taken already. -/
def unsent : List UpstreamOp → List UpstreamEvent
  | [] => []
  | .ingest _::_ => []
  | .clearCache::_ => []
  | .send event::ops => event::unsent ops
  | .lockStatus _::ops => unsent ops
  | .setReady::ops => unsent ops
  | .swapConnected::ops => unsent ops
  | .setDisconnected::ops => unsent ops
  | .clearLocks::ops => unsent ops

/-- A lag that was not noticed yet will be followed by a dump. -/
def notice (events : Broadcast UpstreamEvent) : List (Pending CacheKey Bytes) :=
  if events.missed=true then [.refresh] else []

/-- Everything on its way, in the order in which it arrives. -/
def pending (s : Proxy) : List (Pending CacheKey Bytes) :=
  s.fanout.flatMap opPending++
    (notice s.events++(s.events.items++unsent s.upstream).flatMap eventPending)

/-- Audio and transfer events carry no stored command. -/
def Sorted : UpstreamEvent → Prop
  | .audioLevels payload => Unstored payload
  | .transferPayload payload => Unstored payload
  | _ => True

/-- Operations made from such events. -/
def SortedOp : FanoutOp → Prop
  | .queueAudio payload => Unstored payload
  | .routeTransfer payload => Unstored payload
  | .queueTransfer _ payload => Unstored payload
  | _ => True

/-- A stored chunk is sent next, and events are sorted. -/
def Paired : List UpstreamOp → Prop
  | [] => True
  | .ingest chunk::ops =>
    (∃ rest,ops=.send (.statePayload chunk)::rest ∧ (unsent rest).flatMap eventPending=[]) ∧
      Paired ops
  | .send event::ops => Sorted event ∧ Paired ops
  | .clearCache::ops => Paired ops
  | .lockStatus _::ops => Paired ops
  | .setReady::ops => Paired ops
  | .swapConnected::ops => Paired ops
  | .setDisconnected::ops => Paired ops
  | .clearLocks::ops => Paired ops

/-- The sessions follow the cache through everything that is pending. -/
structure Following (s : Proxy) : Prop where
  /-- Sessions and clients that open now. -/
  follows : Follows s.cache (pending s) s.sessions
  /-- Upstream operations. -/
  paired : Paired s.upstream
  /-- Events under way. -/
  sorted : ∀ event∈s.events.items,Sorted event
  /-- Fan-out operations. -/
  sortedOps : ∀ op∈s.fanout,SortedOp op
  /-- The end of the connection is announced after the cache was cleared. -/
  ended : .disconnected∈unsent s.upstream → s.cache.map=OrderedMap.empty

/-- Nobody has to follow at the start. -/
theorem following_start (policy : FilterPolicy) (idle : ℕ) :
    Following (Proxy.start policy idle) where
  follows := {
    coherent := coherent_new
    kept := fun _ _ hget => by cases hget
    followed := fun _ _ ht => by cases ht
    undumped := fun _ _ ht => by cases ht }
  paired := trivial
  sorted _ hmem := absurd hmem List.not_mem_nil
  sortedOps _ hmem := absurd hmem List.not_mem_nil
  ended hmem := absurd hmem List.not_mem_nil

/-- Only the state chunk of a payload has stored commands. -/
theorem unstored_chunkBytes (chunk : Chunk) (h : chunk≠.state) (cmds : List CommandRef) :
    Unstored (chunkBytes chunk cmds) := by
  intro cmd hmem
  rw [parsedCommands_chunkBytes] at hmem
  have hchunk : chunkOf cmd.name=chunk := of_decide_eq_true (List.mem_filter.mp hmem).2
  by_contra hc
  rw [chunkOf_of_isCacheable (eq_true_of_ne_false hc)] at hchunk
  exact h hchunk.symm

/-- Operations after the state chunk: they neither store nor send one. -/
def Silent : UpstreamOp → Prop
  | .send event => Sorted event ∧ eventPending event=[]
  | .setReady => True
  | .swapConnected => True
  | _ => False

/-- Operations that neither store nor send state are paired. -/
theorem paired_of_silent {ops : List UpstreamOp} (h : ∀ op∈ops,Silent op) :
    Paired ops ∧ (unsent ops).flatMap eventPending=[] := by
  induction ops with
  | nil => exact ⟨trivial,rfl⟩
  | cons op ops ih =>
    have hop := h op List.mem_cons_self
    have hrest := ih (fun other hmem => h other (List.mem_cons_of_mem _ hmem))
    cases op with
    | send event =>
      refine ⟨⟨hop.1,hrest.1⟩,?_⟩
      rw [unsent,List.flatMap_cons,hop.2,hrest.2,List.nil_append]
    | setReady => exact hrest
    | swapConnected => exact hrest
    | _ => exact hop.elim

/-- State operations send what they cached. -/
theorem paired_stateOps (chunk : Bytes) {ops : List UpstreamOp} (h : ∀ op∈ops,Silent op) :
    Paired (stateOps chunk++ops) ∧ (unsent (stateOps chunk++ops)).flatMap eventPending=[] := by
  have hops := paired_of_silent h
  simp only [stateOps]
  split
  · exact hops
  · exact ⟨⟨⟨ops,rfl,hops.2⟩,trivial,hops.1⟩,rfl⟩

/-- Operations on a payload are paired, and before the chunk is stored
nothing is to be sent to opened sessions. -/
theorem paired_handleUpstreamPayload (payload : Bytes) :
    Paired (handleUpstreamPayload payload) ∧
      (unsent (handleUpstreamPayload payload)).flatMap eventPending=[] := by
  simp only [handleUpstreamPayload]
  split
  · exact ⟨⟨⟨[],rfl,rfl⟩,trivial,trivial⟩,rfl⟩
  · rename_i cmds _
    rw [List.append_assoc,List.append_assoc]
    refine paired_stateOps _ (fun op hmem => ?_)
    rcases List.mem_append.mp hmem with hmem | hmem
    · split at hmem
      · exact absurd hmem List.not_mem_nil
      · rw [List.mem_singleton.mp hmem]
        exact ⟨unstored_chunkBytes .audio Chunk.noConfusion cmds,rfl⟩
    · rcases List.mem_append.mp hmem with hmem | hmem
      · split at hmem
        · exact absurd hmem List.not_mem_nil
        · rw [List.mem_singleton.mp hmem]
          exact ⟨unstored_chunkBytes .transfer Chunk.noConfusion cmds,rfl⟩
      · split at hmem
        · rcases List.mem_cons.mp hmem with he | hmem
          · rw [he]
            trivial
          · rw [List.mem_singleton.mp hmem]
            trivial
        · exact absurd hmem List.not_mem_nil

/-- Sending appends the event, or replaces overwritten ones by a notice. -/
theorem CatchesUp.send {key : CacheKey} {value : Bytes} {last : Option Bytes}
    (before : List (Pending CacheKey Bytes)) (events : Broadcast UpstreamEvent)
    (event : UpstreamEvent) (later : List UpstreamEvent)
    (h : CatchesUp key value
      (before++(notice events++(events.items++event::later).flatMap eventPending)) last) :
    CatchesUp key value (before++(notice (events.send eventCapacity event)++
      ((events.send eventCapacity event).items++later).flatMap eventPending)) last := by
  rcases events.send_cases eventCapacity event with hsend | ⟨oldest,items,hsplit,hsend⟩
  · rw [hsend]
    simp only [List.append_assoc,List.singleton_append]
    exact h
  · rw [hsend]
    rw [←List.singleton_append,←List.append_assoc events.items,hsplit,List.cons_append,
      List.flatMap_cons,←List.append_assoc (notice events),←List.append_assoc before] at h
    exact h.skip

/-- The cache takes a chunk whose event is sent next. -/
theorem following_ingest {s : Proxy} (h : Following s) {chunk : Bytes} {ops : List UpstreamOp}
    (hops : s.upstream=.ingest chunk::ops) :
    Following {s with upstream := ops, cache := s.cache.ingestPayload chunk} := by
  have hfollows := h.follows
  have hpaired := h.paired
  rw [pending,hops] at hfollows
  rw [hops] at hpaired
  obtain ⟨⟨rest,rfl,hrest⟩,hpaired⟩ := hpaired
  refine ⟨?_,hpaired,h.sorted,h.sortedOps,?_⟩
  · have hqueue := hfollows.ingest chunk
    simp only [pending,unsent,List.append_nil,List.flatMap_append,List.flatMap_cons,eventPending,
      hrest,List.append_assoc] at hqueue ⊢
    exact hqueue
  · intro hmem
    have hin : Pending.refresh∈(unsent rest).flatMap eventPending :=
      List.mem_flatMap.mpr ⟨.disconnected,
        (List.mem_cons.mp hmem).resolve_left UpstreamEvent.noConfusion,List.mem_singleton_self _⟩
    rw [hrest] at hin
    exact absurd hin List.not_mem_nil

/-- Sent events are sorted like those before them. -/
theorem sorted_send {events : Broadcast UpstreamEvent} {event : UpstreamEvent}
    (h : ∀ e∈events.items,Sorted e) (hevent : Sorted event) :
    ∀ e∈(events.send eventCapacity event).items,Sorted e := by
  have hboth : ∀ e∈events.items++[event],Sorted e := by
    intro e hmem
    rcases List.mem_append.mp hmem with hmem | hmem
    · exact h e hmem
    · rw [List.mem_singleton.mp hmem]
      exact hevent
  rcases events.send_cases eventCapacity event with hsend | ⟨oldest,items,hsplit,hsend⟩
  · rw [hsend]
    exact hboth
  · rw [hsend]
    rw [hsplit] at hboth
    exact fun e hmem => hboth e (List.mem_cons_of_mem _ hmem)

/-- Operations of the upstream task keep the sessions following. -/
theorem following_upstream {s : Proxy} (h : Following s) {op : UpstreamOp}
    {ops : List UpstreamOp} (hops : s.upstream=op::ops) :
    Following (Proxy.upstreamStep {s with upstream := ops} op) := by
  have hfollows := h.follows
  have hpaired := h.paired
  have hended := h.ended
  rw [pending,hops] at hfollows
  rw [hops] at hpaired hended
  cases op with
  | lockStatus chunk => exact ⟨hfollows,hpaired,h.sorted,h.sortedOps,hended⟩
  | clearLocks => exact ⟨hfollows,hpaired,h.sorted,h.sortedOps,hended⟩
  | setDisconnected => exact ⟨hfollows,hpaired,h.sorted,h.sortedOps,hended⟩
  | setReady =>
    exact ⟨⟨hfollows.coherent,hfollows.kept,hfollows.followed,hfollows.undumped⟩,hpaired,h.sorted,
      h.sortedOps,hended⟩
  | swapConnected =>
    simp only [Proxy.upstreamStep]
    split
    · exact ⟨hfollows,hpaired,h.sorted,h.sortedOps,hended⟩
    · refine ⟨?_,⟨trivial,hpaired⟩,h.sorted,h.sortedOps,?_⟩
      · simp only [pending,unsent,List.flatMap_append,List.flatMap_cons,eventPending,
          List.nil_append] at hfollows ⊢
        exact hfollows
      · intro hmem
        exact hended ((List.mem_cons.mp hmem).resolve_left UpstreamEvent.noConfusion)
  | clearCache => exact ⟨hfollows.clearCache _,hpaired,h.sorted,h.sortedOps,fun _ => rfl⟩
  | ingest chunk => exact following_ingest h hops
  | send event =>
    exact ⟨hfollows.requeue (fun key value last _ hc => CatchesUp.send _ _ _ _ hc),hpaired.2,
      sorted_send h.sorted hpaired.1,h.sortedOps,fun hmem => hended (List.mem_cons_of_mem _ hmem)⟩

/-- A received event is pending as operations. -/
theorem fanoutOps_pending (received : Received UpstreamEvent) :
    (fanoutOps received).flatMap opPending=
      match received with
      | .item event => eventPending event
      | .lagged => [.refresh] := by
  rcases received with event | _
  · cases event <;> rfl
  · rfl

/-- Events of the upstream task lead to sorted operations. -/
theorem sortedOp_fanoutOps {event : UpstreamEvent} (h : Sorted event) :
    ∀ op∈fanoutOps (.item event),SortedOp op := by
  intro op hmem
  cases event with
  | connected => exact absurd hmem List.not_mem_nil
  | disconnected =>
    rcases List.mem_cons.mp hmem with rfl | hmem
    · trivial
    · rw [List.mem_singleton.mp hmem]
      trivial
  | statePayload payload =>
    rw [List.mem_singleton.mp hmem]
    trivial
  | audioLevels payload =>
    rw [List.mem_singleton.mp hmem]
    exact h
  | transferPayload payload =>
    rw [List.mem_singleton.mp hmem]
    exact h

/-- So does a received event, or a lag. -/
theorem following_receive {s : Proxy} (h : Following s) (hidle : s.fanout=[])
    {received : Received UpstreamEvent} {events : Broadcast UpstreamEvent}
    (hrecv : s.events.recv=some (received,events)) :
    Following {s with events := events, fanout := fanoutOps received} := by
  have hfollows := h.follows
  rw [pending,hidle,List.flatMap_nil,List.nil_append] at hfollows
  rcases Broadcast.recv_cases hrecv with
    ⟨rfl,hmissed,rfl⟩ | ⟨event,items,rfl,hmissed,hitems,rfl⟩
  · refine ⟨?_,h.paired,h.sorted,?_,h.ended⟩
    · simp only [pending,fanoutOps_pending]
      simp only [notice,hmissed,if_true] at hfollows
      exact hfollows
    · intro op hmem
      rw [List.mem_singleton.mp hmem]
      trivial
  · have hsorted := h.sorted
    rw [hitems] at hsorted
    refine ⟨?_,h.paired,fun e hmem => hsorted e (List.mem_cons_of_mem _ hmem),
      sortedOp_fanoutOps (hsorted event List.mem_cons_self),h.ended⟩
    simp only [pending,fanoutOps_pending]
    simp only [notice,hmissed,Bool.false_eq_true,if_false,List.nil_append,hitems,
      List.cons_append,List.flatMap_cons] at hfollows
    exact hfollows

/-- Everything pending behind the first fan-out operation. -/
theorem pending_cons {s : Proxy} {op : FanoutOp} {ops : List FanoutOp} (hops : s.fanout=op::ops) :
    pending s=opPending op++pending {s with fanout := ops} := by
  simp only [pending,hops,List.flatMap_cons,List.append_assoc]

/-- So does the fan-out. -/
theorem following_fanout {s t : Proxy} (h : Following s) {op : FanoutOp} {ops : List FanoutOp}
    (hops : s.fanout=op::ops) (hdone : Fanned {s with fanout := ops} op t) : Following t := by
  have hfollows := h.follows
  rw [pending_cons hops] at hfollows
  have hsortedOps := h.sortedOps
  rw [hops] at hsortedOps
  have hop : SortedOp op := hsortedOps op List.mem_cons_self
  have hrest : ∀ other∈ops,SortedOp other :=
    fun other hmem => hsortedOps other (List.mem_cons_of_mem _ hmem)
  have hcons : ∀ other,SortedOp other → ∀ x∈other::ops,SortedOp x := by
    intro other hother x hmem
    rcases List.mem_cons.mp hmem with rfl | hmem
    · exact hother
    · exact hrest x hmem
  cases hdone with
  | clearSessions _ => exact ⟨hfollows.clearSessions,h.paired,h.sorted,hrest,h.ended⟩
  | clearLane => exact ⟨hfollows,h.paired,h.sorted,hrest,h.ended⟩
  | queueState payload =>
    have hqueued := hfollows.deliver (fun _ => delivers_queueState payload)
    exact ⟨hqueued,h.paired,h.sorted,hrest,h.ended⟩
  | queueAudio payload =>
    have hqueued := hfollows.refreshNothing
      (fun _ t => delivers_unstored hop (hands_queueAudio payload t.session))
    exact ⟨hqueued,h.paired,h.sorted,hrest,h.ended⟩
  | unrouted payload => exact ⟨hfollows,h.paired,h.sorted,hrest,h.ended⟩
  | routed payload owner =>
    exact ⟨hfollows,h.paired,h.sorted,hcons (.queueTransfer owner payload) hop,h.ended⟩
  | queueTransfer owner payload =>
    have hqueued := hfollows.refreshNothing
      (fun addr t => delivers_unstored hop (hands_queueTransfer owner payload addr t.session))
    exact ⟨hqueued,h.paired,h.sorted,hrest,h.ended⟩
  | takeDump =>
    refine ⟨?_,h.paired,h.sorted,hcons (.queueResync s.cache.dump) trivial,h.ended⟩
    exact hfollows.requeue (fun key value last hget hc =>
      hc.copy (lastFor_dump hfollows.coherent hget))
  | queueResync dump =>
    have hqueued := hfollows.deliver (fun _ => delivers_queueResync dump)
    exact ⟨hqueued,h.paired,h.sorted,hrest,h.ended⟩

/-- Steps that only change the sessions. -/
theorem Following.setSessions {s s' : Proxy} (h : Following s) (hcache : s'.cache=s.cache)
    (hevents : s'.events=s.events) (hupstream : s'.upstream=s.upstream)
    (hfanout : s'.fanout=s.fanout) (hsessions : Follows s.cache (pending s) s'.sessions) :
    Following s' := by
  have hpending : pending s'=pending s := by
    simp only [pending,hevents,hupstream,hfanout]
  refine ⟨?_,?_,?_,?_,?_⟩
  · rw [hcache,hpending]
    exact hsessions
  · rw [hupstream]
    exact h.paired
  · rw [hevents]
    exact h.sorted
  · rw [hfanout]
    exact h.sortedOps
  · rw [hupstream,hcache]
    exact h.ended

/-- A client that opens is handed the whole cache. -/
theorem Follows.hear {cache : StateCache} {queue : List (Pending CacheKey Bytes)}
    {sessions : OrderedMap SocketAddr Tracked} (h : Follows cache queue sessions)
    {addr : SocketAddr} {t : Tracked} (ht : sessions.get? addr=some t) (header : PacketHeader)
    (payload : Bytes) (clock : Instant) :
    let heard := t.record (fun sess => sess.onHeader header cache.dump clock)
    Follows cache queue
      (sessions.insert addr
        {heard with session := (heard.session.onReliable header payload).session}) := by
  intro heard
  obtain ⟨hopened,hdump,_⟩ := heard.session.onReliable_flags header payload
  rcases t.session.onHeader_cases header cache.dump clock with ⟨ho,hd,hout⟩ | ⟨ho,hnow,hout⟩
  · have hheld : ∀ key,held heard key=held t key := by
      intro key
      exact held_record t (fun sess => sess.onHeader header cache.dump clock)
        (hout.trans (List.append_nil _).symm) key
    refine h.insert (fun hopen key value hget => ?_) (fun hclosed => ?_)
    · have hbefore : t.session.opened=true := ho.symm.trans (hopened.symm.trans hopen)
      exact (hheld key).symm ▸ h.followed addr t ht hbefore key value hget
    · have hshut : t.session.opened=false := ho.symm.trans (hopened.symm.trans hclosed)
      exact hdump.trans (hd.trans (h.undumped addr t ht hshut))
  · refine h.insert (fun _ key value hget => ?_) (fun hclosed => ?_)
    · rw [h.undumped addr t ht ho,if_neg Bool.false_ne_true] at hout
      have hheld := held_record t (fun sess => sess.onHeader header cache.dump clock) hout key
      rw [lastFor_dump h.coherent hget,Option.some_or] at hheld
      exact hheld.symm ▸ h.kept key value hget
    · have hopen : (heard.session.onReliable header payload).session.opened=true :=
        hopened.trans hnow
      exact absurd (hclosed.symm.trans hopen) Bool.false_ne_true

/-- So does a datagram of a client. -/
theorem following_datagram {s : Proxy} (h : Following s) (addr : SocketAddr) (data : Bytes)
    (clock : Instant) : Following (s.receiveDatagram addr data clock) := by
  rcases s.receiveDatagram_cases addr data clock with
    heq | heq | ⟨t,header,payload,handler,ht,_,heq⟩
  · rw [heq]
    exact h
  · rw [heq]
    exact h.setSessions rfl rfl rfl rfl h.follows
  · rw [heq]
    exact h.setSessions rfl rfl rfl rfl (h.follows.hear ht header payload clock)

/-- So does its handler. -/
theorem following_handler {s t : Proxy} (h : Following s) {clock : Instant}
    (hdone : Continued s clock t) : Following t := by
  cases hdone with
  | answered addr _ => exact h.setSessions rfl rfl rfl rfl h.follows
  | refused => exact h.setSessions rfl rfl rfl rfl h.follows
  | inserted addr sid _ =>
    refine h.setSessions rfl rfl rfl rfl (h.follows.insert (fun hopen => ?_) (fun _ => rfl))
    cases hopen
  | decided addr cmd cmds actions _ => exact h.setSessions rfl rfl rfl rfl h.follows
  | finished addr actions _ =>
    have hupdate : ∀ other (u : Tracked),Delivers [] u
        (if other=addr then u.keep (fun sess => sess.applyActions actions) else u) := by
      intro other u
      split
      · exact delivers_applyActions actions u
      · exact ⟨rfl,rfl,fun _ _ _ => rfl⟩
    exact h.setSessions rfl rfl rfl rfl (h.follows.refreshNothing hupdate)

/-- So does a tick. -/
theorem following_tick {s : Proxy} (h : Following s) (now : Instant)
    (clocks : SocketAddr → PollClocks) : Following (s.tick now clocks) :=
  h.setSessions rfl rfl rfl rfl
    ((h.follows.refreshNothing (fun _ => delivers_poll _ _ _ _)).eraseAll _)

/-- Before the first operation of a payload nothing new is pending. -/
theorem following_payload {s : Proxy} (h : Following s) (hidle : s.upstream=[])
    (payload : Bytes) : Following {s with upstream := handleUpstreamPayload payload} := by
  obtain ⟨hpaired,hsilent⟩ := paired_handleUpstreamPayload payload
  have hfollows := h.follows
  rw [pending,hidle] at hfollows
  refine ⟨?_,hpaired,h.sorted,h.sortedOps,fun hmem => ?_⟩
  · simp only [pending,List.flatMap_append,hsilent]
    simp only [unsent,List.append_nil] at hfollows ⊢
    exact hfollows
  · have hin : Pending.refresh∈(unsent (handleUpstreamPayload payload)).flatMap eventPending :=
      List.mem_flatMap.mpr ⟨.disconnected,hmem,List.mem_singleton_self _⟩
    rw [hsilent] at hin
    exact absurd hin List.not_mem_nil

/-- So does the end of the upstream session. -/
theorem following_disconnect {s : Proxy} (h : Following s) (hidle : s.upstream=[]) :
    Following {s with upstream := disconnectSequence} := by
  have hfollows := h.follows
  rw [pending,hidle] at hfollows
  exact ⟨hfollows,⟨trivial,trivial⟩,h.sorted,h.sortedOps,
    fun hmem => absurd hmem List.not_mem_nil⟩

/-- Every step of every task keeps the sessions on the way to the cache. -/
theorem following_step {s t : Proxy} {action : Action} (h : Following s)
    (hstep : step s action=some t) : Following t := by
  cases taken_of_step hstep with
  | payload payload hidle => exact following_payload h hidle payload
  | disconnect hidle => exact following_disconnect h hidle
  | upstream op ops hnext => exact following_upstream h hnext
  | receive received events hidle hnext => exact following_receive h hidle hnext
  | fanout op ops _ hnext hdone => exact following_fanout h hnext hdone
  | datagram addr data clock _ => exact following_datagram h addr data clock
  | handler clock replied _ hdone => exact following_handler h hdone
  | tick now clocks _ _ => exact following_tick h now clocks
  | cleanup op ops _ => cases op <;> exact h.setSessions rfl rfl rfl rfl h.follows

/-- An event was sent for every stored chunk and the fan-out has handled
every event. -/
structure Settled (s : Proxy) : Prop where
  /-- Stored chunks are sent. -/
  sent : ∀ payload,.statePayload payload∉unsent s.upstream
  /-- Sent events are received. -/
  drained : s.events.Drained
  /-- Received events are handled. -/
  handled : s.fanout=[]

/-- For every cached key, the last command with that key among everything
queued to an opened session is the cached one. -/
def Converged (s : Proxy) : Prop :=
  ∀ addr t,s.sessions.get? addr=some t → t.session.opened=true →
    ∀ key value,s.cache.map.get? key=some value → held t key=some value

/-- When everything has arrived, the sessions hold the cached values. -/
theorem Following.converged {s : Proxy} (h : Following s) (hsettled : Settled s) :
    Converged s := by
  intro addr t ht hopen key value hget
  have hunsent : (unsent s.upstream).flatMap eventPending=[] := by
    refine List.flatMap_eq_nil_iff.mpr (fun event hmem => ?_)
    cases event with
    | connected => rfl
    | audioLevels payload => rfl
    | transferPayload payload => rfl
    | statePayload payload => exact absurd hmem (hsettled.sent payload)
    | disconnected =>
      rw [h.ended hmem] at hget
      cases hget
  have hpending : pending s=[] := by
    simp only [pending,notice,hsettled.handled,hsettled.drained.1,hsettled.drained.2,
      List.flatMap_nil,List.nil_append,Bool.false_eq_true,if_false,hunsent]
  have hcatches := h.follows.followed addr t ht hopen key value hget
  rw [hpending,catchesUp_nil] at hcatches
  exact hcatches

/-- In every run of the tasks, whatever their interleaving and however far
the fan-out lags, late joiners and live clients have converged with the
cache in every settled state. -/
theorem late_joiners_converge (policy : FilterPolicy) (idle : ℕ) (actions : List Action) :
    Always step (fun s => Settled s → Converged s) (Proxy.start policy idle) actions := by
  have hfollowing : Always step Following (Proxy.start policy idle) actions :=
    always_of_meets step (fun _ _ _ h _ hstep => following_step h hstep)
      (following_start policy idle) (meets_of_forall step (fun _ _ _ => trivial) _)
  exact Always.mono step (fun _ h => h.converged) hfollowing

/-- Program input of the first mixer. -/
def programSource (source : UInt8) : CommandRef :=
  serializedRef (tag 'P' 'r' 'g' 'I') [0,0,0,source] (by
    simp only [List.length_cons,List.length_nil]
    omega)

/-- Acknowledgement of the HELLO reply, which opens the session. -/
def openingData : Bytes := encodePacket (ReliableEndpoint.ackHeader 0 1) []

/-- The second program input is stored, a client opens, and only then the
event about it is sent and handled. -/
def openBetween : List Action :=
  [.payload ((programSource 1).raw++syntheticInitComplete),.upstream,.upstream,.upstream,.upstream,
    .upstream,.upstream,.datagram ⟨1,1⟩ helloData 0,.handler 0 true,.handler 0 true,.receive,
    .fanout,.receive,.payload (programSource 2).raw,.upstream,.upstream,
    .datagram ⟨1,1⟩ openingData 1,.upstream,.receive,.fanout]

/-- The proxy before that run. -/
def denyingStart : Proxy := .start ⟨.deny,.new,.new {}⟩ 5000

/-- The proxy after that run. -/
def openedBetween : Proxy := (run step denyingStart openBetween).getD denyingStart

/-- A session that opens between two changes has the later one. -/
theorem openBetween_converges :
    run step denyingStart openBetween=some openedBetween ∧ Settled openedBetween ∧
      ∃ t,openedBetween.sessions.get? ⟨1,1⟩=some t ∧ t.session.opened=true ∧
        openedBetween.cache.map.get? (cacheKey (programSource 2))=some (programSource 2).raw ∧
        held t (cacheKey (programSource 2))=some (programSource 2).raw := by
  have hrun : run step denyingStart openBetween=some openedBetween := rfl
  have hsettled : Settled openedBetween :=
    ⟨fun _ hmem => absurd hmem List.not_mem_nil,⟨rfl,rfl⟩,rfl⟩
  have hopened : (openedBetween.sessions.get? ⟨1,1⟩).map (fun t => t.session.opened)=some true := by
    decide +kernel
  have hcached : openedBetween.cache.map.get? (cacheKey (programSource 2))=
      some (programSource 2).raw := by
    decide +kernel
  obtain ⟨t,ht,hopen⟩ := Option.map_eq_some_iff.mp hopened
  have hconverged : Converged openedBetween :=
    Always.last step (late_joiners_converge ⟨.deny,.new,.new {}⟩ 5000 openBetween) hrun hsettled
  exact ⟨hrun,hsettled,t,ht,hopen,hcached,hconverged _ t ht hopen _ _ hcached⟩

end AtemProxy.LateJoiners
