import AtemProxy.SessionOrigins
import AtemProxy.LateJoiners

/-!
# What is queued to a session, and by whom

Three producers feed the queue of a session: the datagram handler that opens
it, the fan-out with live payloads, and the fan-out after a lag. Every step
is recorded with its producer and with the payloads it really appended. In
every run the record of a session is empty until the session is opened, starts
with the packed dump of the cache at that moment, and has no second such dump.
-/

namespace AtemProxy.SessionFeeds

open BigEndian PacketCodec CommandFrames KeyedMaps LockStores CommandPolicy LateJoinCache
  ReliableTransport ServerSessions UpstreamEvents BroadcastQueues ProxyTasks GuardedRuns
  PackedBatches SessionOrigins LateJoiners

/-- Producer of payloads. -/
inductive Source where
  /-- The datagram handler, with the cache it reads. -/
  | handler (cache : StateCache)
  /-- The fan-out with a state payload. -/
  | state
  /-- The fan-out with audio levels. -/
  | audio
  /-- The fan-out with transfer data. -/
  | transfer
  /-- The fan-out after a lag. -/
  | resync
  /-- No producer of payloads. -/
  | other

/-- Producer of what a fan-out operation queues. -/
def opSource : FanoutOp → Source
  | .queueState _ => .state
  | .queueAudio _ => .audio
  | .queueTransfer _ _ => .transfer
  | .queueResync _ => .resync
  | _ => .other

/-- Producer that a step belongs to. -/
def sourceOf (s : Proxy) : Action → Source
  | .datagram _ _ _ => .handler s.cache
  | .fanout => (s.fanout.head?.map opSource).getD .other
  | _ => .other

/-- Payloads appended to a queue in one step. -/
structure Feed where
  /-- Producer. -/
  source : Source
  /-- Payloads. -/
  payloads : List Bytes

/-- The proxy with the feeds of its sessions. -/
structure Fed where
  /-- The proxy itself. -/
  proxy : Proxy
  /-- Feeds of the session of an address since it was inserted. -/
  feeds : SocketAddr → List Feed

/-- Payloads that a step appended to what was ever queued to an address. -/
def appended (s t : Proxy) (addr : SocketAddr) : List Bytes :=
  match s.sessions.get? addr,t.sessions.get? addr with
  | some before,some after => after.queued.drop before.queued.length
  | _,_ => []

/-- The step inserts a new session for the address. -/
def inserts (s : Proxy) (addr : SocketAddr) : Action → Bool
  | .handler _ true =>
    match s.handler with
    | .insert target _ => decide (target=addr)
    | _ => false
  | _ => false

namespace Fed

/-- The proxy before the first datagram. -/
def start (policy : FilterPolicy) (idle : ℕ) : Fed := ⟨Proxy.start policy idle,fun _ => []⟩

/-- Feeds after a step of the proxy. -/
def feedsAfter (x : Fed) (a : Action) (t : Proxy) (addr : SocketAddr) : List Feed :=
  if inserts x.proxy addr a=true then []
  else if appended x.proxy t addr=[] then x.feeds addr
  else x.feeds addr++[⟨sourceOf x.proxy a,appended x.proxy t addr⟩]

end Fed

/-- One step of the proxy with its feeds. -/
def feedStep (x : Fed) (a : Action) : Option Fed :=
  (step x.proxy a).map (fun t => ⟨t,x.feedsAfter a t⟩)

/-- A live producer: the fan-out with an event, or with a dump after a lag. -/
def Live : Source → Prop
  | .state => True
  | .audio => True
  | .transfer => True
  | .resync => True
  | .handler _ => False
  | .other => False

/-- The dump ends with the synthetic initialization-complete command, also as
the receiver parses it from the packed payloads. -/
def EndsInitComplete (cache : StateCache) : Prop :=
  cache.dump.getLast?=some syntheticInitComplete ∧
    ((packCommands cache.dump).flatMap parsedCommands).getLast?=some initCompleteRef

/-- Feeds of a session: none before it is opened, then one dump of the cache,
then live ones; together they are all that was queued. -/
structure DumpFirst (t : Tracked) (feeds : List Feed) : Prop where
  /-- The feeds are what was queued. -/
  queued : t.queued=feeds.flatMap Feed.payloads
  /-- Nothing before the session is opened. -/
  unopened : t.session.opened=false →
    feeds=[] ∧ t.session.rel.outbound=[] ∧ t.session.dumpSent=false
  /-- One dump, then live payloads only. -/
  opened : t.session.opened=true → ∃ cache live,
    feeds=⟨.handler cache,packCommands cache.dump⟩::live ∧ EndsInitComplete cache ∧
      ∀ feed∈live,Live feed.source

/-- The dump of a coherent cache ends with the completed initialization. -/
theorem endsInitComplete {cache : StateCache} (h : Coherent cache) : EndsInitComplete cache := by
  obtain ⟨cmds,hdump,_⟩ := h.dump_commands
  constructor
  · rw [StateCache.dump,List.getLast?_append,List.getLast?_singleton,Option.some_or]
  · rw [hdump,parsedCommands_packCommands,List.getLast?_append,List.getLast?_singleton,
      Option.some_or]

/-- A dump is packed into at least one payload. -/
theorem packCommands_dump_ne_nil (cache : StateCache) : packCommands cache.dump≠[] := by
  intro hnil
  have hflat := packCommands_flatten cache.dump
  rw [hnil,StateCache.dump,List.flatten_append] at hflat
  have hlast := (List.append_eq_nil_iff.mp hflat.symm).2
  cases hlast

/-- What the fan-out hands out is live. -/
theorem live_handout (h : Handout) : Live (opSource h.op) := by
  cases h <;> trivial

/-- A session that is fed nothing keeps its feeds. -/
theorem DumpFirst.keep {t u : Tracked} {feeds : List Feed} (h : DumpFirst t feeds)
    (hqueued : u.queued=t.queued) (hopened : u.session.opened=t.session.opened)
    (hdump : u.session.dumpSent=t.session.dumpSent)
    (hout : u.session.rel.outbound<:+t.session.rel.outbound) : DumpFirst u feeds where
  queued := hqueued.trans h.queued
  unopened := by
    intro hclosed
    obtain ⟨hfeeds,hempty,hsent⟩ := h.unopened (hopened.symm.trans hclosed)
    rw [hempty] at hout
    exact ⟨hfeeds,List.suffix_nil.mp hout,hdump.trans hsent⟩
  opened := fun hopen => h.opened (hopened.symm.trans hopen)

/-- A live feed goes behind the dump. -/
theorem DumpFirst.live {t u : Tracked} {feeds : List Feed} (h : DumpFirst t feeds)
    {source : Source} {payloads : List Bytes} (hlive : Live source)
    (hqueued : u.queued=t.queued++payloads) (hopen : t.session.opened=true)
    (hopened : u.session.opened=true) : DumpFirst u (feeds++[⟨source,payloads⟩]) where
  queued := by
    rw [hqueued,h.queued,List.flatMap_append,List.flatMap_singleton]
  unopened := by
    intro hclosed
    rw [hopened] at hclosed
    cases hclosed
  opened := by
    intro _
    obtain ⟨cache,live,hfeeds,hends,hall⟩ := h.opened hopen
    refine ⟨cache,live++[⟨source,payloads⟩],?_,hends,fun feed hf => ?_⟩
    · rw [hfeeds,List.cons_append]
    · rcases List.mem_append.mp hf with hf | hf
      · exact hall feed hf
      · rw [List.mem_singleton.mp hf]
        exact hlive

/-- The dump is the first feed of a session that is opened now. -/
theorem DumpFirst.open {t u : Tracked} {feeds : List Feed} (h : DumpFirst t feeds)
    {cache : StateCache} (hcoherent : Coherent cache) (hclosed : t.session.opened=false)
    (hopened : u.session.opened=true) (hqueued : u.queued=t.queued++packCommands cache.dump) :
    DumpFirst u (feeds++[⟨.handler cache,packCommands cache.dump⟩]) where
  queued := by
    rw [hqueued,h.queued,List.flatMap_append,List.flatMap_singleton]
  unopened := by
    intro hclosed'
    rw [hopened] at hclosed'
    cases hclosed'
  opened := by
    intro _
    refine ⟨cache,[],?_,endsInitComplete hcoherent,fun _ hf => absurd hf List.not_mem_nil⟩
    rw [(h.unopened hclosed).1,List.nil_append]

/-- A new session. -/
theorem dumpFirst_hello (sid : UInt16) (clock : Instant) : DumpFirst ⟨.hello sid clock,[]⟩ [] where
  queued := rfl
  unopened := fun _ => ⟨rfl,rfl,rfl⟩
  opened := fun h => Bool.noConfusion h

/-- What a step appends to the session of an address. -/
theorem appended_eq {s t : Proxy} {addr : SocketAddr} {before after : Tracked} {new : List Bytes}
    (hs : s.sessions.get? addr=some before) (ht : t.sessions.get? addr=some after)
    (hnew : after.queued=before.queued++new) : appended s t addr=new := by
  unfold appended
  rw [hs,ht]
  dsimp only
  rw [hnew,List.drop_left]

/-- The feeds follow one step of a session that is not inserted anew. -/
theorem dumpFirst_sessionStep {x : Fed} {a : Action} {t : Proxy} {addr : SocketAddr}
    {after : Tracked} (hcoherent : Coherent x.proxy.cache)
    (hfeeds : ∀ before,x.proxy.sessions.get? addr=some before → DumpFirst before (x.feeds addr))
    (hstep : step x.proxy a=some t) (hafter : t.sessions.get? addr=some after)
    (hold : inserts x.proxy addr a=false) : DumpFirst after (x.feedsAfter a t addr) := by
  have hkind := sessionStep_of_step addr hstep
  rw [hafter] at hkind
  -- Steps that append nothing leave the feeds alone.
  have hnothing : ∀ before,x.proxy.sessions.get? addr=some before → after.queued=before.queued →
      DumpFirst after (x.feeds addr) → DumpFirst after (x.feedsAfter a t addr) := by
    intro before hbefore hqueued h
    have hnone := appended_eq hbefore hafter (hqueued.trans (List.append_nil _).symm)
    rw [Fed.feedsAfter,hold,if_neg Bool.false_ne_true,if_pos hnone]
    exact h
  -- Steps that append payloads are recorded with their producer.
  have hsome : ∀ before new,x.proxy.sessions.get? addr=some before → new≠[] →
      after.queued=before.queued++new →
      DumpFirst after (x.feeds addr++[⟨sourceOf x.proxy a,new⟩]) →
      DumpFirst after (x.feedsAfter a t addr) := by
    intro before new hbefore hne hqueued h
    have hnew := appended_eq hbefore hafter hqueued
    rw [Fed.feedsAfter,hold,if_neg Bool.false_ne_true,hnew,if_neg hne]
    exact h
  generalize hsessions : x.proxy.sessions.get? addr=earlier at hkind hnothing hsome hfeeds
  cases hkind with
  | kept _ _ => exact hnothing after rfl rfl (hfeeds after rfl)
  | handed handout hnext before =>
    have h := hfeeds before rfl
    have hands := handout.hands addr before.session
    cases hopen : before.session.opened with
    | false =>
      have hsame := record_unopened handout addr hopen
      rw [hsame]
      rw [hsame] at hnothing
      exact hnothing before rfl rfl h
    | true =>
      have hsource : sourceOf x.proxy .fanout=opSource handout.op := by
        simp only [sourceOf,hnext,Option.map_some,Option.getD_some]
      rcases hands.outbound with hout | hout
      · have hqueued := record_queued before (hout.trans (List.append_nil _).symm)
        rw [List.append_nil] at hqueued
        exact hnothing before rfl hqueued (h.keep hqueued hands.opened hands.dumpSent
          (hout ▸ List.suffix_rfl))
      · have hqueued := record_queued before hout
        by_cases hnone : handout.payloads=[]
        · rw [hnone,List.append_nil] at hqueued hout
          exact hnothing before rfl hqueued (h.keep hqueued hands.opened hands.dumpSent
            (hout ▸ List.suffix_rfl))
        · refine hsome before _ rfl hnone hqueued ?_
          rw [hsource]
          exact h.live (live_handout handout) hqueued hopen (hands.opened.trans hopen)
  | heard data header payload clock before =>
    have h := hfeeds before rfl
    rcases heardBy_cases before header payload x.proxy.cache.dump clock with
      ⟨hopened,hdump,hsuffix,hqueued⟩ | ⟨hclosed,hopened,hqueued⟩
    · exact hnothing before rfl hqueued (h.keep hqueued hopened hdump hsuffix)
    · rw [(h.unopened hclosed).2.2,if_neg Bool.false_ne_true] at hqueued
      exact hsome before _ rfl (packCommands_dump_ne_nil x.proxy.cache) hqueued
        (h.open hcoherent hclosed hopened hqueued)
  | decided clock replied actions before =>
    obtain ⟨hopened,hdump,hrel⟩ := before.session.applyActions_keeps actions
    refine hnothing before rfl rfl ((hfeeds before rfl).keep rfl hopened hdump ?_)
    rw [Tracked.keep,hrel]
  | polled now clocks before =>
    obtain ⟨hopened,hdump,_⟩ := before.session.poll_flags x.proxy.idle now
      (clocks addr).elapsedAt (clocks addr).ackAt
    exact hnothing before rfl rfl ((hfeeds before rfl).keep rfl hopened hdump
      (poll_suffix x.proxy.idle now _ _ before.session))
  | inserted sid clock hwaits _ =>
    simp only [inserts,hwaits,decide_true,Bool.true_eq_false] at hold

/-- The cache is coherent and every session was fed its dump first. -/
structure WellFed (x : Fed) : Prop where
  /-- Cache and everything pending. -/
  following : Following x.proxy
  /-- Sessions. -/
  sessions : ∀ addr t,x.proxy.sessions.get? addr=some t → DumpFirst t (x.feeds addr)

/-- Every step keeps the feeds in order. -/
theorem wellFed_step {x y : Fed} {a : Action} (h : WellFed x) (hstep : feedStep x a=some y) :
    WellFed y := by
  obtain ⟨t,ht,rfl⟩ := Option.map_eq_some_iff.mp hstep
  refine ⟨following_step h.following ht,fun addr after hafter => ?_⟩
  cases hold : inserts x.proxy addr a with
  | false =>
    exact dumpFirst_sessionStep h.following.follows.coherent (h.sessions addr) ht hafter hold
  | true =>
    simp only [Fed.feedsAfter,hold,if_true]
    unfold inserts at hold
    split at hold
    · split at hold
      · rename_i clock target sid hwaits
        have htarget := of_decide_eq_true hold
        subst htarget
        simp only [step,Proxy.handlerStep,hwaits,if_true,Option.some.injEq] at ht
        subst ht
        rw [OrderedMap.get?_insert_self,Option.some.injEq] at hafter
        rw [←hafter]
        exact dumpFirst_hello _ _
      · cases hold
    · cases hold

/-- Dump first, once, and initialization-complete last: in every state of every
run the feeds of every session are none before it is opened, and then the
packing of one dump of the cache, which ends with initialization-complete,
followed by live payloads and lag resyncs only. -/
theorem sessions_fed_dump_first (policy : FilterPolicy) (idle : ℕ) (actions : List Action) :
    Always feedStep (fun x => ∀ addr t,x.proxy.sessions.get? addr=some t →
      DumpFirst t (x.feeds addr)) (.start policy idle) actions := by
  have hstart : WellFed (.start policy idle) :=
    ⟨following_start policy idle,fun _ _ h => by cases h⟩
  exact Always.mono feedStep (fun _ h => h.sessions)
    (always_of_invariant feedStep (fun _ _ _ => wellFed_step) hstart actions)

end AtemProxy.SessionFeeds
