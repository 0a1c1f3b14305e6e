import AtemProxy.LateJoiners
import AtemProxy.NumberedViews
import AtemProxy.SessionOrigins

/-!
# The order of updates in the view of a client

Every update that the cache stores is numbered. Beside the proxy it is
recorded which numbers are on their way to the sessions, and for every
session which ones its dump and its live payloads carried. Without a lag the
updates of one key reach a session in their order, except for those that
were still on their way when its dump was taken.
-/

namespace AtemProxy.ViewOrder

open BigEndian PacketCodec CommandFrames KeyedMaps LastWrites LockStores CommandPolicy
  LateJoinCache ReliableTransport ServerSessions UpstreamEvents BroadcastQueues GuardedRuns
  ProxyTasks CatchUps PackedBatches SessionOrigins LateJoiners NumberedViews

/-- Updates in a payload: the keyed writes of its stored commands. -/
def updates (payload : Bytes) : List (CacheKey×Bytes) := cacheWrites (parsedCommands payload)

/-- Updates that a step stores in the cache. -/
def ingested (s : Proxy) : Action → List (CacheKey×Bytes)
  | .upstream =>
    match s.upstream with
    | .ingest chunk::_ => updates chunk
    | _ => []
  | _ => []

/-- Updates that a step hands to the opened sessions. -/
def fanned (s : Proxy) : Action → List (CacheKey×Bytes)
  | .fanout =>
    match s.fanout with
    | .queueState payload::_ => updates payload
    | _ => []
  | _ => []

/-- A step opens the session of an address. -/
def opens (s t : Proxy) (addr : SocketAddr) : Bool :=
  (s.sessions.get? addr).any (fun before => !before.session.opened) &&
    (t.sessions.get? addr).any (fun after => after.session.opened)

/-- The proxy with the numbers of its updates. -/
structure Aged where
  /-- The proxy itself. -/
  proxy : Proxy
  /-- Updates stored so far; their places are their numbers. -/
  history : List (CacheKey×Bytes)
  /-- Numbers of the updates that the fan-out has not handled yet. -/
  due : List ℕ
  /-- What was queued to the opened session of an address. -/
  views : SocketAddr → View

/-- The proxy before the first datagram. -/
def Aged.start (policy : FilterPolicy) (idle : ℕ) : Aged :=
  ⟨Proxy.start policy idle,[],[],fun _ => ⟨[],[],[]⟩⟩

/-- The record after a step. An update is numbered when it is stored, and the
fan-out handles the due ones in order; a session that opens is queued the
last updates of all keys in the cache. -/
def Aged.next (x : Aged) (a : Action) (t : Proxy) : Aged where
  proxy := t
  history := x.history++ingested x.proxy a
  due := x.due.drop (fanned x.proxy a).length++
    List.range' x.history.length (ingested x.proxy a).length
  views := fun addr =>
    if opens x.proxy t addr=true then
      ⟨storedNumbers x.history x.proxy.cache.map.entries,[],x.due⟩
    else {x.views addr with
      live := (x.views addr).live++x.due.take (fanned x.proxy a).length}

/-- One step of the proxy with its record. -/
def ageStep (x : Aged) (a : Action) : Option Aged := (step x.proxy a).map (x.next a)

/-- The step overwrites no event that the fan-out has not received. -/
def NoLag (x : Aged) (a : Action) : Prop :=
  ((step x.proxy a).map (fun t => t.events.missed)).getD false=false

instance (x : Aged) (a : Action) : Decidable (NoLag x a) :=
  inferInstanceAs (Decidable (_=_))

/-- Updates of a pending item. -/
def storedOf : Pending CacheKey Bytes → List (CacheKey×Bytes)
  | .writes ws => ws.filter (fun write => isCacheable write.1.name)
  | .refresh => []

/-- Updates on their way to the sessions. -/
def underWay (s : Proxy) : List (CacheKey×Bytes) := (pending s).flatMap storedOf

/-- No lag was noticed or is about to be. -/
structure Calm (s : Proxy) : Prop where
  /-- Nothing was overwritten. -/
  kept : s.events.missed=false
  /-- No dump is taken or queued after a lag. -/
  plain : ∀ op∈s.fanout,op≠.takeDump ∧ ∀ dump,op≠.queueResync dump

/-- Updates are the writes of cacheable keys. -/
theorem updates_eq_filter (payload : Bytes) :
    (payloadWrites payload).filter (fun write => isCacheable write.1.name)=updates payload :=
  List.filter_map ..

/-- Payloads without stored commands bring no updates. -/
theorem Unstored.updates {payload : Bytes} (h : Unstored payload) : updates payload=[] := by
  unfold ViewOrder.updates cacheWrites
  rw [List.filter_eq_nil_iff.mpr (fun cmd hcmd => by rw [h cmd hcmd]; exact Bool.false_ne_true)]
  rfl

/-- A dump brings the stored updates. -/
theorem updates_dump {c : StateCache} (h : Coherent c) :
    (packCommands c.dump).flatMap updates=c.map.entries := by
  obtain ⟨cmds,hdump,hentries,hcache⟩ := h.dump_commands
  have hparsed := parsedCommands_packCommands (cmds++[initCompleteRef])
  rw [←hdump] at hparsed
  calc (packCommands c.dump).flatMap updates
      =cacheWrites ((packCommands c.dump).flatMap parsedCommands) := by
        unfold updates cacheWrites keyedWrites
        rw [List.filter_flatMap,List.map_flatMap]
    _=cacheWrites cmds := by
        rw [hparsed,cacheWrites_append]
        exact List.append_nil _
    _=keyedWrites cmds := by
        unfold cacheWrites
        rw [List.filter_eq_self.mpr hcache]
    _=c.map.entries := hentries

/-- Without a lag the updates on their way are those of the fan-out's operations,
of the sent events and of those to be sent next. -/
theorem underWay_eq {s : Proxy} (h : s.events.missed=false) :
    underWay s=(s.fanout.flatMap opPending).flatMap storedOf++
      ((s.events.items++unsent s.upstream).flatMap eventPending).flatMap storedOf := by
  simp only [underWay,pending,notice,h,Bool.false_eq_true,if_false,List.nil_append,
    List.flatMap_append]

/-- The cache is cleared only at the end of a session with the switcher. -/
def Closing (ops : List UpstreamOp) : Prop := .clearCache∈ops → ops<:+disconnectSequence

/-- A payload does not clear the cache. -/
theorem closing_handleUpstreamPayload (payload : Bytes) :
    Closing (handleUpstreamPayload payload) := by
  intro hmem
  simp only [handleUpstreamPayload,stateOps] at hmem
  split at hmem
  · simp at hmem
  · split_ifs at hmem <;> simp at hmem

/-- After the cache was cleared nothing is sent but the announcement. -/
theorem Closing.cleared {ops : List UpstreamOp} (h : Closing (.clearCache::ops)) :
    ops=[.clearLocks,.send .disconnected] := by
  have hsuffix := h List.mem_cons_self
  simp only [disconnectSequence,List.suffix_cons_iff,List.cons.injEq,reduceCtorEq,false_and,
    false_or,or_false,List.suffix_nil,true_and] at hsuffix
  exact hsuffix

/-- What is left of the end of a session is its end still. -/
theorem Closing.upstream {s : Proxy} {op : UpstreamOp} {ops : List UpstreamOp}
    (h : Closing (op::ops)) :
    Closing (Proxy.upstreamStep {s with upstream := ops} op).upstream := by
  have htail : Closing ops := fun hmem =>
    (List.suffix_cons op ops).trans (h (List.mem_cons_of_mem _ hmem))
  cases op with
  | swapConnected =>
    simp only [Proxy.upstreamStep]
    split
    · exact htail
    · intro hmem
      have hsuffix := h (List.mem_cons_of_mem _ ((List.mem_cons.mp hmem).resolve_left
        UpstreamOp.noConfusion))
      exact absurd (hsuffix.subset List.mem_cons_self) (by decide)
  | _ => exact htail

/-- Updates that come with the operations of the upstream task: an operation
stores the updates of its chunk or brings none. -/
theorem underWay_upstream {s : Proxy} {op : UpstreamOp} {ops : List UpstreamOp}
    (hfollowing : Following s) (hclosing : Closing s.upstream) (hcalm : s.events.missed=false)
    (hops : s.upstream=op::ops)
    (hcalm' : (Proxy.upstreamStep {s with upstream := ops} op).events.missed=false) :
    underWay (Proxy.upstreamStep {s with upstream := ops} op)=
      underWay s++ingested s .upstream := by
  have hpaired := hfollowing.paired
  rw [hops] at hpaired hclosing
  rw [underWay_eq hcalm,underWay_eq hcalm',hops]
  simp only [ingested,hops]
  cases op with
  | lockStatus chunk => exact (List.append_nil _).symm
  | clearLocks => exact (List.append_nil _).symm
  | setDisconnected => exact (List.append_nil _).symm
  | setReady => exact (List.append_nil _).symm
  | swapConnected =>
    simp only [Proxy.upstreamStep,List.append_nil]
    split
    · rfl
    · simp only [unsent,List.flatMap_append,List.flatMap_cons,eventPending,List.nil_append]
  | clearCache =>
    rw [hclosing.cleared]
    simp only [Proxy.upstreamStep,unsent,List.flatMap_append,List.flatMap_cons,eventPending,
      List.flatMap_nil,List.append_nil,storedOf]
  | ingest chunk =>
    obtain ⟨⟨rest,rfl,hrest⟩,_⟩ := hpaired
    simp only [Proxy.upstreamStep,unsent,List.flatMap_append,List.flatMap_cons,eventPending,hrest,
      List.flatMap_nil,List.append_nil,storedOf,updates_eq_filter,List.append_assoc]
  | send event =>
    rcases s.events.send_cases eventCapacity event with hsend | ⟨oldest,items,_,hsend⟩
    · simp only [Proxy.upstreamStep,hsend,unsent,List.flatMap_append,List.flatMap_cons,
        List.flatMap_nil,List.append_nil,List.append_assoc]
    · have hmissed : (s.events.send eventCapacity event).missed=true := by rw [hsend]
      rw [show (s.events.send eventCapacity event).missed=false from hcalm'] at hmissed
      cases hmissed

/-- Steps that leave the two queues and the upstream task alone. -/
theorem underWay_frame {s t : Proxy} (hcalm : Calm s) (hevents : t.events=s.events)
    (hupstream : t.upstream=s.upstream) (hfanout : t.fanout=s.fanout) :
    Calm t ∧ underWay t=underWay s++[] := by
  refine ⟨⟨hevents ▸ hcalm.kept,hfanout ▸ hcalm.plain⟩,?_⟩
  rw [underWay_eq hcalm.kept,underWay_eq (hevents ▸ hcalm.kept),hevents,hupstream,hfanout,
    List.append_nil]

/-- The fan-out takes the oldest event. -/
theorem underWay_receive {s : Proxy} (hcalm : Calm s) (hidle : s.fanout=[])
    {received : Received UpstreamEvent} {events : Broadcast UpstreamEvent}
    (hrecv : s.events.recv=some (received,events)) :
    Calm {s with events := events, fanout := fanoutOps received} ∧
      underWay {s with events := events, fanout := fanoutOps received}=underWay s++[] := by
  rcases Broadcast.recv_cases hrecv with ⟨_,hmissed,_⟩ | ⟨event,items,rfl,hmissed,hitems,rfl⟩
  · rw [hcalm.kept] at hmissed
    cases hmissed
  · have hplain : ∀ op∈fanoutOps (.item event),op≠.takeDump ∧ ∀ dump,op≠.queueResync dump := by
      intro op hmem
      cases event <;> simp only [fanoutOps,List.mem_cons,List.not_mem_nil,or_false] at hmem
      case disconnected => rcases hmem with rfl | rfl <;> exact ⟨nofun,nofun⟩
      all_goals
        subst hmem
        exact ⟨nofun,nofun⟩
    refine ⟨⟨rfl,hplain⟩,?_⟩
    rw [underWay_eq hcalm.kept,underWay_eq rfl,List.append_nil]
    dsimp only
    rw [fanoutOps_pending,hidle,hitems]
    simp only [List.flatMap_nil,List.nil_append,List.cons_append,List.flatMap_cons,
      List.flatMap_append]

/-- The fan-out executes its next operation. -/
theorem underWay_fanout {s t : Proxy} (hcalm : Calm s) {op : FanoutOp} {ops : List FanoutOp}
    (hops : s.fanout=op::ops) (hdone : Fanned {s with fanout := ops} op t) :
    Calm t ∧ fanned s .fanout++underWay t=underWay s := by
  have hplain := hcalm.plain
  rw [hops] at hplain
  have hrest : ∀ other∈ops,other≠.takeDump ∧ ∀ dump,other≠.queueResync dump :=
    fun other hmem => hplain other (List.mem_cons_of_mem _ hmem)
  have hevents : t.events=s.events := by cases hdone <;> rfl
  have hupstream : t.upstream=s.upstream := by cases hdone <;> rfl
  have hafter : underWay t=(t.fanout.flatMap opPending).flatMap storedOf++
      ((s.events.items++unsent s.upstream).flatMap eventPending).flatMap storedOf := by
    rw [←hevents,←hupstream]
    exact underWay_eq (hevents ▸ hcalm.kept)
  clear hevents hupstream
  rw [underWay_eq hcalm.kept,hops,fanned,hops]
  cases hdone with
  | clearSessions _ => exact ⟨⟨hcalm.kept,hrest⟩,hafter⟩
  | clearLane => exact ⟨⟨hcalm.kept,hrest⟩,hafter⟩
  | queueState payload =>
    refine ⟨⟨hcalm.kept,hrest⟩,?_⟩
    rw [hafter]
    simp only [List.flatMap_cons,opPending,List.flatMap_append,List.flatMap_nil,List.append_nil,
      storedOf,updates_eq_filter,List.append_assoc]
  | queueAudio payload => exact ⟨⟨hcalm.kept,hrest⟩,hafter⟩
  | unrouted payload => exact ⟨⟨hcalm.kept,hrest⟩,hafter⟩
  | routed payload owner =>
    refine ⟨⟨hcalm.kept,fun other hmem => ?_⟩,hafter⟩
    rcases List.mem_cons.mp hmem with rfl | hmem
    · exact ⟨nofun,nofun⟩
    · exact hrest other hmem
  | queueTransfer owner payload => exact ⟨⟨hcalm.kept,hrest⟩,hafter⟩
  | takeDump => exact absurd rfl (hplain .takeDump List.mem_cons_self).1
  | queueResync dump => exact absurd rfl ((hplain _ List.mem_cons_self).2 dump)

/-- What is handed out was on its way, and what is stored now is. -/
theorem underWay_step {s t : Proxy} {a : Action} (hfollowing : Following s)
    (hclosing : Closing s.upstream) (hcalm : Calm s) (hstep : step s a=some t)
    (hcalm' : t.events.missed=false) :
    Calm t ∧ fanned s a++underWay t=underWay s++ingested s a := by
  cases taken_of_step hstep with
  | payload payload hidle =>
    refine ⟨⟨hcalm.kept,hcalm.plain⟩,?_⟩
    rw [underWay_eq hcalm.kept,underWay_eq hcalm',hidle]
    simp only [fanned,ingested,List.nil_append,List.append_nil,unsent,List.flatMap_append,
      (paired_handleUpstreamPayload payload).2]
  | disconnect hidle =>
    refine ⟨⟨hcalm.kept,hcalm.plain⟩,?_⟩
    rw [underWay_eq hcalm.kept,underWay_eq hcalm',hidle]
    simp only [fanned,ingested,List.nil_append,List.append_nil,disconnectSequence,unsent]
  | upstream op ops hnext =>
    refine ⟨⟨hcalm',?_⟩,underWay_upstream hfollowing hclosing hcalm.kept hnext hcalm'⟩
    rw [(Proxy.upstreamStep_frame _ op).2.1]
    exact hcalm.plain
  | receive received events hidle hnext => exact underWay_receive hcalm hidle hnext
  | fanout op ops _ hnext hdone =>
    obtain ⟨hcalm',hlaw⟩ := underWay_fanout hcalm hnext hdone
    exact ⟨hcalm',hlaw.trans (List.append_nil _).symm⟩
  | datagram addr data clock _ =>
    rw [s.receiveDatagram_eq addr data clock]
    exact underWay_frame hcalm rfl rfl rfl
  | handler clock replied _ hdone => cases hdone <;> exact underWay_frame hcalm rfl rfl rfl
  | tick now clocks _ _ => exact underWay_frame hcalm rfl rfl rfl
  | cleanup op ops _ => cases op <;> exact underWay_frame hcalm rfl rfl rfl

/-- Every step keeps it so. -/
theorem closing_step {s t : Proxy} {a : Action} (h : Closing s.upstream)
    (hstep : step s a=some t) : Closing t.upstream := by
  cases taken_of_step hstep with
  | payload payload _ => exact closing_handleUpstreamPayload payload
  | disconnect _ => exact fun _ => List.suffix_rfl
  | upstream op ops hnext =>
    rw [hnext] at h
    exact h.upstream
  | receive received events _ _ => exact h
  | fanout op ops _ _ hdone => cases hdone <;> exact h
  | datagram addr data clock _ =>
    rw [s.receiveDatagram_eq addr data clock]
    exact h
  | handler clock replied _ hdone => cases hdone <;> exact h
  | tick now clocks _ _ => exact h
  | cleanup op ops _ => cases op <;> exact h

/-- The cache takes the updates that are stored, or is cleared. -/
theorem cache_of_step {s t : Proxy} {a : Action} (hstep : step s a=some t) :
    t.cache.map=insertAll s.cache.map (ingested s a) ∨ t.cache.map=OrderedMap.empty := by
  cases taken_of_step hstep with
  | payload payload _ => exact Or.inl rfl
  | disconnect _ => exact Or.inl rfl
  | upstream op ops hnext =>
    simp only [ingested,hnext]
    cases op with
    | ingest chunk => exact Or.inl (ingestPayload_map _ chunk)
    | clearCache => exact Or.inr rfl
    | swapConnected =>
      simp only [Proxy.upstreamStep]
      split <;> exact Or.inl rfl
    | _ => exact Or.inl rfl
  | receive received events _ _ => exact Or.inl rfl
  | fanout op ops _ _ hdone => cases hdone <;> exact Or.inl rfl
  | datagram addr data clock _ =>
    rw [s.receiveDatagram_eq addr data clock]
    exact Or.inl rfl
  | handler clock replied _ hdone => cases hdone <;> exact Or.inl rfl
  | tick now clocks _ _ => exact Or.inl rfl
  | cleanup op ops _ => cases op <;> exact Or.inl rfl

/-- The fan-out hands state to every session. -/
theorem sessions_of_queueState {s t : Proxy} {payload : Bytes} {ops : List FanoutOp}
    (hnext : s.fanout=.queueState payload::ops) (hstep : step s .fanout=some t)
    (addr : SocketAddr) :
    t.sessions.get? addr=(s.sessions.get? addr).map (Tracked.record (.queueState payload)) := by
  cases taken_of_step hstep with
  | fanout op others _ hother hdone =>
    rw [hnext,List.cons.injEq] at hother
    obtain ⟨rfl,rfl⟩ := hother
    cases hdone
    exact OrderedMap.get?_mapValues ..

/-- Without a state payload a step hands no update to a session that stays as it
is, and otherwise opens it with a dump or replaces it. -/
theorem queued_of_step {s t : Proxy} {a : Action} {addr : SocketAddr} {after : Tracked}
    (hfollowing : Following s) (hcalm : Calm s) (hstep : step s a=some t)
    (hafter : t.sessions.get? addr=some after)
    (hstate : ∀ payload ops,a=.fanout → s.fanout≠.queueState payload::ops) :
    (∃ before,s.sessions.get? addr=some before ∧
      after.session.opened=before.session.opened ∧
      after.queued.flatMap updates=before.queued.flatMap updates ∧
      (before.session.opened=false → after.queued=before.queued)) ∨
    (∃ before,s.sessions.get? addr=some before ∧ before.session.opened=false ∧
      after.session.opened=true ∧ ingested s a=[] ∧
      after.queued=before.queued++packCommands s.cache.dump) ∨
    (after.session.opened=false ∧ after.queued=[]) := by
  have hkind := sessionStep_of_step addr hstep
  rw [hafter] at hkind
  have hundumped := hfollowing.follows.undumped addr
  generalize s.sessions.get? addr=earlier at hkind hundumped ⊢
  cases hkind with
  | kept _ _ => exact Or.inl ⟨after,rfl,rfl,rfl,fun _ => rfl⟩
  | handed handout hnext before =>
    have hands := handout.hands addr before.session
    refine Or.inl ⟨before,rfl,hands.opened,?_,?_⟩
    · -- Audio levels and transfer data bring no updates.
      obtain ⟨ops,hops⟩ := List.head?_eq_some_iff.mp hnext
      have hsorted := hfollowing.sortedOps handout.op (hops ▸ List.mem_cons_self)
      have hplain := hcalm.plain handout.op (hops ▸ List.mem_cons_self)
      have hnone : handout.payloads.flatMap updates=[] := by
        cases handout with
        | state payload => exact absurd hops (hstate payload ops rfl)
        | audio payload => exact (List.flatMap_singleton ..).trans (Unstored.updates hsorted)
        | transfer owner payload =>
          exact (List.flatMap_singleton ..).trans (Unstored.updates hsorted)
        | resync dump => exact absurd rfl (hplain.2 dump)
      rcases hands.outbound with hout | hout
      · rw [record_queued before (hout.trans (List.append_nil _).symm),
          List.append_nil]
      · rw [record_queued before hout,List.flatMap_append,hnone,List.append_nil]
    · intro hclosed
      rw [record_unopened handout addr hclosed]
  | heard data header payload clock before =>
    rcases heardBy_cases before header payload s.cache.dump clock with
      ⟨hopened,_,_,hqueued⟩ | ⟨hclosed,hopened,hqueued⟩
    · exact Or.inl ⟨before,rfl,hopened,congrArg (List.flatMap updates) hqueued,fun _ => hqueued⟩
    · rw [hundumped before rfl hclosed,if_neg Bool.false_ne_true] at hqueued
      exact Or.inr (Or.inl ⟨before,rfl,hclosed,hopened,rfl,hqueued⟩)
  | decided clock replied actions before =>
    exact Or.inl ⟨before,rfl,(before.session.applyActions_keeps actions).1,rfl,fun _ => rfl⟩
  | polled now clocks before =>
    exact Or.inl ⟨before,rfl,(before.session.poll_flags _ _ _ _).1,rfl,fun _ => rfl⟩
  | inserted sid clock _ _ => exact Or.inr (Or.inr ⟨rfl,rfl⟩)

/-- What was queued to a session: nothing before it is opened, and then the
updates whose numbers are in its view. -/
structure Seen (x : Aged) (addr : SocketAddr) (t : Tracked) : Prop where
  /-- Nothing is queued before. -/
  unopened : t.session.opened=false → t.queued=[]
  /-- Order of the numbers. -/
  trails : t.session.opened=true → Trails x.history x.due (x.views addr)
  /-- Numbers of what was queued. -/
  numbers : t.session.opened=true → Numbers x.history
    ((x.views addr).dumped++(x.views addr).live) (t.queued.flatMap updates)

/-- The record agrees with the proxy. -/
structure Ageing (x : Aged) : Prop where
  /-- Cache, events and operations. -/
  following : Following x.proxy
  /-- Operations of the upstream task. -/
  closing : Closing x.proxy.upstream
  /-- No lag so far. -/
  calm : Calm x.proxy
  /-- The cache holds the last updates. -/
  current : ∀ key value,x.proxy.cache.map.get? key=some value → lastFor key x.history=some value
  /-- Numbers of the updates on their way. -/
  due : Numbers x.history x.due (underWay x.proxy)
  /-- They are handled in order. -/
  ordered : x.due.Pairwise (· < ·)
  /-- Sessions. -/
  sessions : ∀ addr t,x.proxy.sessions.get? addr=some t → Seen x addr t

/-- Nobody has seen anything at the start. -/
theorem ageing_start (policy : FilterPolicy) (idle : ℕ) : Ageing (.start policy idle) where
  following := following_start policy idle
  closing := fun h => absurd h List.not_mem_nil
  calm := ⟨rfl,fun _ h => absurd h List.not_mem_nil⟩
  current := fun _ _ h => by cases h
  due := Numbers.nil
  ordered := List.Pairwise.nil
  sessions := fun _ _ h => by cases h

/-- No step both stores updates and hands some out. -/
theorem fanned_or_ingested (s : Proxy) (a : Action) : fanned s a=[] ∨ ingested s a=[] := by
  cases a with
  | fanout => exact Or.inr rfl
  | _ => exact Or.inl rfl

/-- A session whose flag stays does not open. -/
theorem opens_eq_false {s t : Proxy} {addr : SocketAddr} {before after : Tracked}
    (hbefore : s.sessions.get? addr=some before) (hafter : t.sessions.get? addr=some after)
    (h : after.session.opened=before.session.opened) : opens s t addr=false := by
  unfold opens
  rw [hbefore,hafter,Option.any_some,Option.any_some,h,Bool.not_and_self]

section Steps

variable {x y : Aged} {a : Action} {t : Proxy}

/-- The numbers on their way after a step. -/
theorem Ageing.due_step (h : Ageing x)
    (hlaw : fanned x.proxy a++underWay t=underWay x.proxy++ingested x.proxy a) :
    Numbers (x.history++ingested x.proxy a)
      (x.due.drop (fanned x.proxy a).length++
        List.range' x.history.length (ingested x.proxy a).length) (underWay t) := by
  rcases fanned_or_ingested x.proxy a with hnone | hnone
  · rw [hnone,List.nil_append] at hlaw
    rw [hnone,List.length_nil,List.drop_zero,hlaw]
    exact (h.due.extend _).append (Numbers.fresh _ _)
  · rw [hnone,List.append_nil] at hlaw
    rw [hnone,List.append_nil,List.length_nil,List.range'_zero,List.append_nil]
    have hdue := h.due
    rw [←hlaw] at hdue
    exact hdue.drop

/-- They stay in order. -/
theorem Ageing.ordered_step (h : Ageing x) (count : ℕ) (more : List (CacheKey×Bytes)) :
    (x.due.drop count++List.range' x.history.length more.length).Pairwise (· < ·) := by
  rw [List.pairwise_append]
  refine ⟨h.ordered.drop,List.pairwise_lt_range',fun i hi j hj => ?_⟩
  have hbound := h.due.bound i (List.mem_of_mem_drop hi)
  have hlow := (List.mem_range'_1.mp hj).1
  omega

/-- The cache still holds the last updates. -/
theorem Ageing.current_step (h : Ageing x) (hstep : step x.proxy a=some t) :
    ∀ key value,t.cache.map.get? key=some value →
      lastFor key (x.history++ingested x.proxy a)=some value := by
  intro key value hget
  rcases cache_of_step hstep with hcache | hcache
  · rw [hcache,get?_insertAll] at hget
    rw [lastFor_append]
    cases hlast : lastFor key (ingested x.proxy a) with
    | some later =>
      rw [hlast] at hget
      exact hget
    | none =>
      rw [hlast,Option.none_or] at hget
      rw [Option.none_or]
      exact h.current key value hget
  · rw [hcache] at hget
    cases hget

/-- A session that was opened before the step advances with the record. -/
theorem Ageing.advance (h : Ageing x) {addr : SocketAddr} {before : Tracked}
    (hbefore : x.proxy.sessions.get? addr=some before) (hopen : before.session.opened=true)
    (count : ℕ) (more : List (CacheKey×Bytes)) :
    Trails (x.history++more) (x.due.drop count++List.range' x.history.length more.length)
      {x.views addr with live := (x.views addr).live++x.due.take count} := by
  have hseen := h.sessions addr before hbefore
  exact (hseen.trails hopen).advance h.due.bound
    (fun j hj => (hseen.numbers hopen).bound j (List.mem_append_right _ hj)) count more

/-- The fan-out queues a state payload. -/
theorem Ageing.seen_state (h : Ageing x) {payload : Bytes} {ops : List FanoutOp}
    (hnext : x.proxy.fanout=.queueState payload::ops) (hstep : step x.proxy .fanout=some t)
    (hlaw : fanned x.proxy .fanout++underWay t=underWay x.proxy) {addr : SocketAddr}
    {after : Tracked} (hafter : t.sessions.get? addr=some after) :
    Seen (x.next .fanout t) addr after := by
  have hmap := sessions_of_queueState hnext hstep addr
  rw [hafter] at hmap
  obtain ⟨before,hbefore,rfl⟩ := Option.map_eq_some_iff.mp hmap.symm
  have hopened := (hands_queueState payload before.session).opened
  have hview : opens x.proxy t addr=false := opens_eq_false hbefore hafter hopened
  have hseen := h.sessions addr before hbefore
  have hfanned : fanned x.proxy .fanout=updates payload := by simp only [fanned,hnext]
  refine ⟨fun hclosed => ?_,fun hopen => ?_,fun hopen => ?_⟩
  · have hclosed' : before.session.opened=false := hopened.symm.trans hclosed
    have hsame := record_unopened (.state payload) addr hclosed'
    exact (congrArg Tracked.queued hsame).trans (hseen.unopened hclosed')
  · simp only [Aged.next,hview,Bool.false_eq_true,if_false]
    exact h.advance hbefore (hopened.symm.trans hopen) _ _
  · have hopen' : before.session.opened=true := hopened.symm.trans hopen
    have hout : (before.session.queueState payload).rel.outbound=
        before.session.rel.outbound++[payload] := by
      simp only [ClientSession.queueState,hopen',if_true,ReliableEndpoint.queuePayload]
    have hdue := h.due
    rw [←hlaw] at hdue
    have hnumbers := (hseen.numbers hopen').append hdue.take
    simp only [Aged.next,hview,Bool.false_eq_true,if_false]
    rw [record_queued before hout,List.flatMap_append,List.flatMap_singleton,
      ←List.append_assoc,←hfanned]
    exact hnumbers.extend _

/-- Every other step. -/
theorem Ageing.seen_quiet (h : Ageing x) (hstep : step x.proxy a=some t)
    (hstate : ∀ payload ops,a=.fanout → x.proxy.fanout≠.queueState payload::ops)
    {addr : SocketAddr} {after : Tracked} (hafter : t.sessions.get? addr=some after) :
    Seen (x.next a t) addr after := by
  have hfanned : fanned x.proxy a=[] := by
    unfold fanned
    split
    · split
      · rename_i payload ops hnext
        exact absurd hnext (hstate payload ops rfl)
      · rfl
    · rfl
  rcases queued_of_step h.following h.calm hstep hafter hstate with
    ⟨before,hbefore,hopened,hqueued,hclosed'⟩ | ⟨before,hbefore,hclosed,hopen,hnone,hqueued⟩ |
    ⟨hclosed,hqueued⟩
  · have hview : opens x.proxy t addr=false := opens_eq_false hbefore hafter hopened
    have hseen := h.sessions addr before hbefore
    refine ⟨fun hclosed => ?_,fun hopen => ?_,fun hopen => ?_⟩
    · have hbeforeClosed := hopened.symm.trans hclosed
      exact (hclosed' hbeforeClosed).trans (hseen.unopened hbeforeClosed)
    · simp only [Aged.next,hview,Bool.false_eq_true,if_false]
      exact h.advance hbefore (hopened.symm.trans hopen) _ _
    · simp only [Aged.next,hview,Bool.false_eq_true,if_false,hfanned,List.length_nil,
        List.take_zero,List.append_nil]
      rw [hqueued]
      exact (hseen.numbers (hopened.symm.trans hopen)).extend _
  · have hview : opens x.proxy t addr=true := by
      unfold opens
      rw [hbefore,hafter,Option.any_some,Option.any_some,hclosed,hopen]
      rfl
    have hentries : ∀ entry∈x.proxy.cache.map.entries,
        lastFor entry.1 x.history=some entry.2 := fun entry hmem =>
      h.current entry.1 entry.2 ((x.proxy.cache.map.get?_eq_some_iff _ _).mpr hmem)
    refine ⟨fun hclosed' => ?_,fun _ => ?_,fun _ => ?_⟩
    · rw [hopen] at hclosed'
      cases hclosed'
    · simp only [Aged.next,hview,if_true,hnone,hfanned,List.length_nil,List.drop_zero,
        List.range'_zero,List.append_nil]
      exact trails_join h.ordered x.proxy.cache.map.nodup hentries
    · simp only [Aged.next,hview,if_true,hnone,List.append_nil]
      rw [hqueued,(h.sessions addr before hbefore).unopened hclosed,List.nil_append,
        updates_dump h.following.follows.coherent]
      exact numbers_stored hentries
  · refine ⟨fun _ => hqueued,fun hopen => ?_,fun hopen => ?_⟩
    · rw [hclosed] at hopen
      cases hopen
    · rw [hclosed] at hopen
      cases hopen

/-- A step without lag keeps the record. -/
theorem ageing_step (h : Ageing x) (hlag : NoLag x a) (hstep : ageStep x a=some y) :
    Ageing y := by
  obtain ⟨t,ht,rfl⟩ := Option.map_eq_some_iff.mp hstep
  have hmissed : t.events.missed=false := by
    unfold NoLag at hlag
    rw [ht] at hlag
    exact hlag
  obtain ⟨hcalm,hlaw⟩ := underWay_step h.following h.closing h.calm ht hmissed
  refine ⟨following_step h.following ht,closing_step h.closing ht,hcalm,h.current_step ht,
    h.due_step hlaw,h.ordered_step _ _,fun addr after hafter => ?_⟩
  by_cases hstate : a=.fanout ∧ ∃ payload ops,x.proxy.fanout=.queueState payload::ops
  · obtain ⟨rfl,payload,ops,hnext⟩ := hstate
    exact h.seen_state hnext ht (hlaw.trans (List.append_nil _)) hafter
  · exact h.seen_quiet ht (fun payload ops ha hnext => hstate ⟨ha,payload,ops,hnext⟩) hafter

end Steps

/-- What was queued to an opened session is exactly the updates of its view, and
the updates of one key are in order, except that an update that was on its way
when the dump of the session was taken may come behind a newer one of that dump. -/
def Chronological (x : Aged) : Prop :=
  ∀ addr t,x.proxy.sessions.get? addr=some t → t.session.opened=true →
    Numbers x.history ((x.views addr).dumped++(x.views addr).live) (t.queued.flatMap updates) ∧
      InOrder x.history (x.views addr)

/-- In every run without lag, whatever the order of storing, sending, handing out
and opening, the views of the sessions are chronological in every state. -/
theorem views_chronological (policy : FilterPolicy) (idle : ℕ) (actions : List Action)
    (h : Meets ageStep NoLag (.start policy idle) actions) :
    Always ageStep Chronological (.start policy idle) actions := by
  have hageing : Always ageStep Ageing (.start policy idle) actions :=
    always_of_meets ageStep (fun _ _ _ => ageing_step) (ageing_start policy idle) h
  refine Always.mono ageStep (fun x hx addr t ht hopen => ?_) hageing
  have hseen := hx.sessions addr t ht
  exact ⟨hseen.numbers hopen,(hseen.trails hopen).inOrder⟩

/-- Two program inputs are stored and sent, a client opens, and only then the
fan-out handles the event about the first one. -/
def openBeforeFanout : List Action :=
  [.payload ((programSource 1).raw++syntheticInitComplete),.upstream,.upstream,.upstream,.upstream,
    .upstream,.upstream,.datagram ⟨1,1⟩ helloData 0,.handler 0 true,.handler 0 true,
    .payload (programSource 2).raw,.upstream,.upstream,.upstream,.datagram ⟨1,1⟩ openingData 1,
    .receive,.fanout]

/-- The dump brings the second program input and the fan-out the first one behind it,
without lag and within one connection. -/
theorem view_goes_back :
    Meets ageStep NoLag (.start ⟨.deny,.new,.new {}⟩ 5000) openBeforeFanout ∧
      (run ageStep (.start ⟨.deny,.new,.new {}⟩ 5000) openBeforeFanout).map (fun x =>
        ((x.views ⟨1,1⟩).dumped,(x.views ⟨1,1⟩).live,
          (x.proxy.sessions.get? ⟨1,1⟩).map (fun t => (t.queued.flatMap updates).map Prod.snd)))=
        some ([1],[0],some [(programSource 2).raw,(programSource 1).raw]) ∧
      ¬Always ageStep (fun x => ∀ addr t,x.proxy.sessions.get? addr=some t →
        t.session.opened=true → ((x.views addr).dumped++(x.views addr).live).Pairwise
          (fun i j => keyAt x.history i=keyAt x.history j → i≤j))
        (.start ⟨.deny,.new,.new {}⟩ 5000) openBeforeFanout := by
  refine ⟨by decide +kernel,by decide +kernel,fun hall => ?_⟩
  have hlast : (run ageStep (.start ⟨.deny,.new,.new {}⟩ 5000) openBeforeFanout).map (fun x =>
      ((x.proxy.sessions.get? ⟨1,1⟩).map (fun t => t.session.opened),
        (x.views ⟨1,1⟩).dumped++(x.views ⟨1,1⟩).live,
        decide (keyAt x.history 1=keyAt x.history 0)))=some (some true,[1,0],true) := by
    decide +kernel
  obtain ⟨x,hx,hfacts⟩ := Option.map_eq_some_iff.mp hlast
  rw [Prod.mk.injEq,Prod.mk.injEq] at hfacts
  obtain ⟨hopen,hview,hkeys⟩ := hfacts
  obtain ⟨t,ht,hopen⟩ := Option.map_eq_some_iff.mp hopen
  have hordered := Always.last ageStep hall hx ⟨1,1⟩ t ht hopen
  rw [hview,List.pairwise_pair] at hordered
  exact absurd (hordered (of_decide_eq_true hkeys)) (by decide)

/-- That run is chronological all the same: the first program input was on its way
when the dump was taken. -/
theorem view_goes_back_chronological :
    Meets ageStep NoLag (.start ⟨.deny,.new,.new {}⟩ 5000) openBeforeFanout ∧
      Always ageStep Chronological (.start ⟨.deny,.new,.new {}⟩ 5000) openBeforeFanout ∧
      (run ageStep (.start ⟨.deny,.new,.new {}⟩ 5000) openBeforeFanout).map (fun x =>
        (x.views ⟨1,1⟩).underWay)=some [0,1] := by
  have hlag : Meets ageStep NoLag (.start ⟨.deny,.new,.new {}⟩ 5000) openBeforeFanout := by
    decide +kernel
  exact ⟨hlag,views_chronological ⟨.deny,.new,.new {}⟩ 5000 openBeforeFanout hlag,
    by decide +kernel⟩

end AtemProxy.ViewOrder
