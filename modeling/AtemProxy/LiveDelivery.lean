import AtemProxy.PayloadFanouts
import AtemProxy.LateJoiners

/-!
# Which commands of a payload every client gets

The fan-out hands the state event of a payload to every opened session and
the audio event to subscribers only. Timecode commands travel in the audio
event: a client without subscription never gets them, and a subscriber gets
them behind the state commands of the same payload.
-/

namespace AtemProxy.LiveDelivery

open BigEndian CommandFrames KeyedMaps LockStores LateJoinCache ServerSessions UpstreamEvents
  BroadcastQueues ProxyTasks GuardedRuns PayloadFanouts

section Classes

variable {α : Type} {p q : α → Bool}

/-- Two kinds of items that exclude each other are counted apart. -/
theorem length_filter_or {l : List α} (h : ∀ a∈l,¬(p a=true ∧ q a=true)) :
    (l.filter (fun a => p a || q a)).length=(l.filter p).length+(l.filter q).length := by
  induction l with
  | nil => rfl
  | cons a l ih =>
    have ha := h a List.mem_cons_self
    have hl := ih (fun b hb => h b (List.mem_cons_of_mem _ hb))
    simp only [List.filter_cons]
    cases hp : p a <;> cases hq : q a <;>
      simp only [Bool.or_self,Bool.or_true,Bool.or_false,Bool.false_eq_true,if_true,if_false,
        List.length_cons]
    · exact hl
    · omega
    · omega
    · exact absurd ⟨hp,hq⟩ ha

/-- Members of two classes keep their order when the second class is put
behind the first, exactly when no member of it stood before one of the first. -/
theorem filter_or_eq_append_iff {l : List α} (h : ∀ a∈l,¬(p a=true ∧ q a=true)) :
    l.filter (fun a => p a || q a)=l.filter p++l.filter q ↔
      l.Pairwise (fun a b => ¬(q a=true ∧ p b=true)) := by
  induction l with
  | nil => simp only [List.filter_nil,List.append_nil,List.Pairwise.nil]
  | cons a l ih =>
    have ha := h a List.mem_cons_self
    have hl := ih (fun b hb => h b (List.mem_cons_of_mem _ hb))
    simp only [List.filter_cons,List.pairwise_cons]
    cases hq : q a with
    | false =>
      simp only [Bool.false_eq_true,false_and,not_false_eq_true,implies_true,true_and,Bool.or_false,
        if_false]
      cases hp : p a
      · simpa only [Bool.false_eq_true,if_false] using hl
      · simpa only [if_true,List.cons_append,List.cons.injEq,true_and] using hl
    | true =>
      have hp : p a=false := by
        cases hp : p a
        · rfl
        · exact absurd ⟨hp,hq⟩ ha
      simp only [hp,Bool.false_or,Bool.false_eq_true,if_true,if_false,true_and]
      constructor
      · intro heq
        cases hf : l.filter p with
        | nil =>
          rw [hf,List.nil_append,List.cons.injEq] at heq
          refine ⟨fun b hb hpb => ?_,hl.mp (by rw [hf,heq.2,List.nil_append])⟩
          exact absurd (List.mem_filter.mpr ⟨hb,hpb⟩) (by rw [hf]; exact List.not_mem_nil)
        | cons b rest =>
          rw [hf,List.cons_append,List.cons.injEq] at heq
          have hb : b∈l.filter p := by rw [hf]; exact List.mem_cons_self
          rw [←heq.1] at hb
          rw [(List.mem_filter.mp hb).2] at hp
          cases hp
      · rintro ⟨hhead,htail⟩
        have hf : l.filter p=[] := List.filter_eq_nil_iff.mpr hhead
        rw [hl.mpr htail,hf,List.nil_append,List.nil_append]

/-- The same for occurrence as a sublist. -/
theorem filter_or_sublist_append_iff {l : List α} (h : ∀ a∈l,¬(p a=true ∧ q a=true)) :
    (l.filter (fun a => p a || q a)).Sublist (l.filter p++l.filter q) ↔
      l.Pairwise (fun a b => ¬(q a=true ∧ p b=true)) := by
  rw [←filter_or_eq_append_iff h]
  constructor
  · intro hsub
    refine hsub.eq_of_length ?_
    rw [length_filter_or h,List.length_append]
  · intro heq
    rw [heq]

/-- Without the second class nothing of it may occur. -/
theorem filter_or_sublist_iff {l : List α} (h : ∀ a∈l,¬(p a=true ∧ q a=true)) :
    (l.filter (fun a => p a || q a)).Sublist (l.filter p) ↔ ∀ a∈l,q a=false := by
  constructor
  · intro hsub a ha
    have hlen := hsub.length_le
    rw [length_filter_or h] at hlen
    have hnil : l.filter q=[] := List.length_eq_zero_iff.mp (by omega)
    exact eq_false_of_ne_true (List.filter_eq_nil_iff.mp hnil a ha)
  · intro hnone
    have heq : l.filter (fun a => p a || q a)=l.filter p :=
      List.filter_congr (fun a ha => by rw [hnone a ha,Bool.or_false])
    rw [heq]

end Classes

/-- Audio meter and level commands. -/
def isAudioMeter (name : CommandName) : Bool :=
  decide (name∈[tag 'A' 'M' 'L' 'v',tag 'A' 'M' 'm' 'O',tag 'F' 'A' 'S' 'P',tag 'F' 'M' 'L' 'v',
    tag 'F' 'A' 't' 'l',tag 'F' 'A' 's' 'p'])

/-- Timecode commands. -/
def isTimecode (name : CommandName) : Bool :=
  decide (name∈[tag 'T' 'i' 'm' 'e',tag 'T' 'i' 'm' 'C',tag 'T' 'C' 'C' 'c'])

/-- Commands meant for every client: all but initialization-complete, media
transfer and audio meters. -/
def isLive (cmd : CommandRef) : Bool :=
  decide (cmd.name≠initComplete) && !isTransferCommand cmd.name && !isAudioMeter cmd.name

/-- The high-rate commands are the audio meters and the timecode. -/
theorem isEphemeralCommand_eq (name : CommandName) :
    isEphemeralCommand name=(isAudioMeter name || isTimecode name) := by
  unfold isEphemeralCommand isAudioMeter isTimecode
  rw [←Bool.decide_or]
  congr 1
  simp only [List.mem_cons,List.not_mem_nil,or_false,or_assoc]

/-- A timecode belongs to the audio chunk. -/
theorem chunkOf_timecode {name : CommandName} (h : isTimecode name=true) :
    chunkOf name=.audio := by
  simp only [isTimecode,List.mem_cons,List.not_mem_nil,or_false,decide_eq_true_eq] at h
  rcases h with rfl | rfl | rfl <;> decide

/-- So does an audio meter, which is no timecode. -/
theorem not_live_audioMeter {name : CommandName} (h : isAudioMeter name=true) :
    chunkOf name=.audio ∧ isTimecode name=false := by
  simp only [isAudioMeter,List.mem_cons,List.not_mem_nil,or_false,decide_eq_true_eq] at h
  rcases h with rfl | rfl | rfl | rfl | rfl | rfl <;> decide

/-- Live commands are those of the state chunk and the timecode. -/
theorem isLive_eq (cmd : CommandRef) :
    isLive cmd=(decide (chunkOf cmd.name=.state) || isTimecode cmd.name) := by
  unfold isLive
  cases ht : isTimecode cmd.name with
  | true =>
    have hm : isAudioMeter cmd.name=false := by
      cases hm : isAudioMeter cmd.name
      · rfl
      · rw [(not_live_audioMeter hm).2] at ht
        cases ht
    simp only [isTimecode,List.mem_cons,List.not_mem_nil,or_false,decide_eq_true_eq] at ht
    rw [hm,Bool.or_true]
    rcases ht with ht | ht | ht <;> rw [ht] <;> decide
  | false =>
    cases hm : isAudioMeter cmd.name with
    | true => simp only [(not_live_audioMeter hm).1,reduceCtorEq,decide_false,Bool.not_true,
        Bool.and_false,Bool.or_self]
    | false =>
      have he : isEphemeralCommand cmd.name=false := by
        rw [isEphemeralCommand_eq,hm,ht,Bool.or_self]
      unfold chunkOf
      by_cases hi : cmd.name=initComplete
      · simp only [hi,ne_eq,not_true_eq_false,decide_false,Bool.false_and,if_true,reduceCtorEq,
          Bool.or_self]
      · cases hx : isTransferCommand cmd.name <;>
          simp only [hi,he,ne_eq,not_false_eq_true,decide_true,Bool.not_false,Bool.not_true,
            Bool.and_self,Bool.and_false,Bool.and_true,Bool.false_eq_true,if_true,if_false,
            ite_self,reduceCtorEq,decide_false,Bool.or_self,Bool.or_false]

/-- Live commands that a payload carries. -/
def liveCommands (payload : Bytes) : List CommandRef := (parsedCommands payload).filter isLive

/-- Live commands of a chunk are those of the payload with this chunk. -/
theorem liveCommands_chunk (chunk : Chunk) (cmds : List CommandRef) :
    liveCommands (chunkBytes chunk cmds)=
      cmds.filter (fun cmd => isLive cmd && decide (chunkOf cmd.name=chunk)) := by
  unfold liveCommands
  rw [parsedCommands_chunkBytes,chunkCommands,List.filter_filter]

/-- The state chunk is live as a whole. -/
theorem liveCommands_state (cmds : List CommandRef) :
    liveCommands (chunkBytes .state cmds)=
      cmds.filter (fun cmd => decide (chunkOf cmd.name=.state)) := by
  rw [liveCommands_chunk]
  refine List.filter_congr (fun cmd _ => ?_)
  rw [isLive_eq]
  cases decide (chunkOf cmd.name=.state) <;> simp

/-- The live commands of the audio chunk are the timecode. -/
theorem liveCommands_audio (cmds : List CommandRef) :
    liveCommands (chunkBytes .audio cmds)=cmds.filter (fun cmd => isTimecode cmd.name) := by
  rw [liveCommands_chunk]
  refine List.filter_congr (fun cmd _ => ?_)
  rw [isLive_eq]
  cases ht : isTimecode cmd.name with
  | true => rw [chunkOf_timecode ht]; rfl
  | false =>
    by_cases ha : chunkOf cmd.name=.audio
    · rw [ha]; rfl
    · rw [decide_eq_false ha,Bool.and_false]

/-- The transfer chunk has no live commands. -/
theorem liveCommands_transfer (cmds : List CommandRef) :
    liveCommands (chunkBytes .transfer cmds)=[] := by
  rw [liveCommands_chunk,List.filter_eq_nil_iff]
  intro cmd _ h
  rw [isLive_eq,Bool.and_eq_true,Bool.or_eq_true,decide_eq_true_eq,decide_eq_true_eq] at h
  obtain ⟨hs | ht,hx⟩ := h
  · rw [hs] at hx
    cases hx
  · rw [chunkOf_timecode ht] at hx
    cases hx

/-- Live commands of an event that a session gets, given its subscription. -/
def eventDue (audio : Bool) : UpstreamEvent → List CommandRef
  | .statePayload payload => liveCommands payload
  | .audioLevels payload => if audio=true then liveCommands payload else []
  | _ => []

/-- Live commands of a fan-out operation that a session gets. -/
def opDue (audio : Bool) : FanoutOp → List CommandRef
  | .queueState payload => liveCommands payload
  | .queueAudio payload => if audio=true then liveCommands payload else []
  | _ => []

/-- Events of a payload: no end of the connection, and nothing live in transfers. -/
def PlainEvent : UpstreamEvent → Prop
  | .disconnected => False
  | .transferPayload payload => liveCommands payload=[]
  | _ => True

/-- Operations made from such events. -/
def PlainOp : FanoutOp → Prop
  | .queueState _ => True
  | .queueAudio _ => True
  | .routeTransfer payload => liveCommands payload=[]
  | .queueTransfer _ payload => liveCommands payload=[]
  | _ => False

/-- Events sent and still to be sent. -/
def underWay (s : Proxy) : List UpstreamEvent := s.events.items++sentBy s.connected s.upstream

/-- A session that has got, or will get, these live commands in this order. -/
structure Delivering (addr : SocketAddr) (audio : Bool) (before : List Bytes)
    (total : List CommandRef) (s : Proxy) : Prop where
  /-- The session, what it got and what is due. -/
  session : ∃ t new,s.sessions.get? addr=some t ∧ t.session.opened=true ∧ t.session.audio=audio ∧
    t.queued=before++new ∧
    (new.flatMap liveCommands++s.fanout.flatMap (opDue audio))++
      (underWay s).flatMap (eventDue audio)=total
  /-- Fan-out operations. -/
  plainOps : ∀ op∈s.fanout,PlainOp op
  /-- Events. -/
  plainEvents : ∀ e∈underWay s,PlainEvent e
  /-- The queue has room for everything under way. -/
  room : (underWay s).length≤eventCapacity
  /-- Nothing was overwritten. -/
  current : s.events.missed=false

/-- One upstream operation moves an event from the task to the queue at most. -/
theorem underWay_upstream {s : Proxy} {op : UpstreamOp} {ops : List UpstreamOp}
    (hops : s.upstream=op::ops) (hroom : (underWay s).length≤eventCapacity)
    (hcurrent : s.events.missed=false) :
    underWay (Proxy.upstreamStep {s with upstream := ops} op)=underWay s ∧
      (Proxy.upstreamStep {s with upstream := ops} op).events.missed=false := by
  unfold underWay at hroom ⊢
  rw [hops] at hroom ⊢
  cases op with
  | send event =>
    simp only [sentBy,List.length_append,List.length_cons] at hroom
    have hfits : s.events.items.length<eventCapacity := by omega
    simp only [Proxy.upstreamStep,Broadcast.send,if_pos hfits,sentBy,List.append_assoc,
      List.singleton_append]
    exact ⟨trivial,hcurrent⟩
  | swapConnected =>
    simp only [Proxy.upstreamStep,sentBy]
    split
    · rename_i hc
      exact ⟨by dsimp only; rw [hc],hcurrent⟩
    · exact ⟨rfl,hcurrent⟩
  | _ => exact ⟨rfl,hcurrent⟩

/-- Operations of the upstream task keep what is delivered. -/
theorem delivering_upstream {addr : SocketAddr} {audio : Bool} {before : List Bytes}
    {total : List CommandRef} {s : Proxy} (h : Delivering addr audio before total s)
    {op : UpstreamOp} {ops : List UpstreamOp} (hops : s.upstream=op::ops) :
    Delivering addr audio before total (Proxy.upstreamStep {s with upstream := ops} op) := by
  obtain ⟨hway,hmissed⟩ := underWay_upstream hops h.room h.current
  obtain ⟨hsessions,hfanout,_⟩ := Proxy.upstreamStep_frame {s with upstream := ops} op
  refine ⟨?_,?_,?_,?_,hmissed⟩
  · rw [hsessions,hfanout,hway]
    exact h.session
  · rw [hfanout]
    exact h.plainOps
  · rw [hway]
    exact h.plainEvents
  · rw [hway]
    exact h.room

/-- A received event of a payload becomes operations that are due as it was. -/
theorem fanoutOps_due (audio : Bool) {e : UpstreamEvent} (h : PlainEvent e) :
    (fanoutOps (.item e)).flatMap (opDue audio)=eventDue audio e ∧
      ∀ op∈fanoutOps (.item e),PlainOp op := by
  cases e with
  | connected => exact ⟨rfl,fun _ hm => absurd hm List.not_mem_nil⟩
  | disconnected => exact absurd h id
  | statePayload payload =>
    refine ⟨List.append_nil _,fun op hm => ?_⟩
    rw [List.mem_singleton.mp hm]
    trivial
  | audioLevels payload =>
    refine ⟨List.append_nil _,fun op hm => ?_⟩
    rw [List.mem_singleton.mp hm]
    trivial
  | transferPayload payload =>
    refine ⟨rfl,fun op hm => ?_⟩
    rw [List.mem_singleton.mp hm]
    exact h

/-- So does a received event. -/
theorem delivering_receive {addr : SocketAddr} {audio : Bool} {before : List Bytes}
    {total : List CommandRef} {s : Proxy} (h : Delivering addr audio before total s)
    {received : Received UpstreamEvent} {events : Broadcast UpstreamEvent} (hidle : s.fanout=[])
    (hnext : s.events.recv=some (received,events)) :
    Delivering addr audio before total {s with events := events, fanout := fanoutOps received} := by
  rcases Broadcast.recv_cases hnext with ⟨_,hmissed,_⟩ | ⟨e,items,rfl,_,hitems,rfl⟩
  · rw [h.current] at hmissed
    cases hmissed
  · have hway : underWay s=e::underWay {s with
        events := ⟨items,false⟩, fanout := fanoutOps (.item e)} := by
      simp only [underWay,hitems,List.cons_append]
    have hplain := h.plainEvents
    have hroom := h.room
    rw [hway] at hplain hroom
    obtain ⟨hdue,hops⟩ := fanoutOps_due audio (hplain e List.mem_cons_self)
    refine ⟨?_,hops,fun x hx => hplain x (List.mem_cons_of_mem _ hx),?_,rfl⟩
    · obtain ⟨t,new,hget,hopen,haudio,hqueued,htotal⟩ := h.session
      refine ⟨t,new,hget,hopen,haudio,hqueued,?_⟩
      rw [hidle,hway,List.flatMap_nil,List.append_nil,List.flatMap_cons] at htotal
      rw [hdue,List.append_assoc]
      exact htotal
    · rw [List.length_cons] at hroom
      omega

/-- What one fan-out operation on the sessions hands to the session. -/
theorem delivering_hand {addr : SocketAddr} {audio : Bool} {before : List Bytes}
    {total : List CommandRef} {s : Proxy} (h : Delivering addr audio before total s)
    {op : FanoutOp} {ops : List FanoutOp} (hops : s.fanout=op::ops)
    (update : SocketAddr → ClientSession → ClientSession)
    (hupdate : ∀ sess : ClientSession,sess.opened=true → sess.audio=audio →
      ∃ given,(update addr sess).opened=true ∧ (update addr sess).audio=audio ∧
        (update addr sess).rel.outbound=sess.rel.outbound++given ∧
        given.flatMap liveCommands=opDue audio op) :
    Delivering addr audio before total {s with
      fanout := ops
      sessions := s.sessions.mapValues (fun a => .record (update a))} := by
  obtain ⟨t,new,hget,hopen,haudio,hqueued,htotal⟩ := h.session
  obtain ⟨given,hopen',haudio',hout,hgiven⟩ := hupdate t.session hopen haudio
  have hplain := h.plainOps
  rw [hops] at hplain htotal
  refine ⟨⟨t.record (update addr),new++given,?_,hopen',haudio',?_,?_⟩,
    fun x hx => hplain x (List.mem_cons_of_mem _ hx),h.plainEvents,h.room,h.current⟩
  · rw [OrderedMap.get?_mapValues,hget]
    rfl
  · simp only [Tracked.record,hqueued,hout,List.drop_left,List.append_assoc]
  · rw [List.flatMap_append,hgiven]
    rw [List.flatMap_cons,←List.append_assoc] at htotal
    exact htotal

/-- So does the fan-out. -/
theorem delivering_fanout {addr : SocketAddr} {audio : Bool} {before : List Bytes}
    {total : List CommandRef} {s t : Proxy} (h : Delivering addr audio before total s)
    {op : FanoutOp} {ops : List FanoutOp} (hops : s.fanout=op::ops)
    (hdone : Fanned {s with fanout := ops} op t) : Delivering addr audio before total t := by
  have hplain := h.plainOps
  rw [hops] at hplain
  have hop := hplain op List.mem_cons_self
  have hrest : ∀ x∈ops,PlainOp x := fun x hx => hplain x (List.mem_cons_of_mem _ hx)
  -- Looking up the receiver of transfer data hands nothing out.
  have hroute : ∀ (payload : Bytes) (fanout : List FanoutOp),op=.routeTransfer payload →
      (∀ x∈fanout,PlainOp x) → fanout.flatMap (opDue audio)=ops.flatMap (opDue audio) →
      Delivering addr audio before total {s with fanout := fanout} := by
    rintro payload fanout rfl hfan hdue
    refine ⟨?_,hfan,h.plainEvents,h.room,h.current⟩
    obtain ⟨u,new,hget,hopen,haudio,hqueued,htotal⟩ := h.session
    refine ⟨u,new,hget,hopen,haudio,hqueued,?_⟩
    rw [hops,List.flatMap_cons] at htotal
    rw [hdue]
    exact htotal
  cases hdone with
  | clearSessions _ => exact absurd hop id
  | clearLane => exact absurd hop id
  | queueState payload =>
    refine delivering_hand h hops (fun _ => .queueState payload) (fun sess hopen haudio => ?_)
    simp only [ClientSession.queueState,hopen,if_true]
    exact ⟨[payload],trivial,haudio,rfl,List.append_nil _⟩
  | queueAudio payload =>
    refine delivering_hand h hops (fun _ => .queueAudio payload) (fun sess hopen haudio => ?_)
    cases audio with
    | true =>
      simp only [ClientSession.queueAudio,hopen,haudio,and_self,if_true]
      exact ⟨[payload],trivial,trivial,rfl,List.append_nil _⟩
    | false =>
      simp only [ClientSession.queueAudio,haudio,Bool.false_eq_true,and_false,if_false]
      exact ⟨[],hopen,trivial,(List.append_nil _).symm,rfl⟩
  | unrouted payload => exact hroute payload ops rfl hrest rfl
  | routed payload owner =>
    refine hroute payload (.queueTransfer owner payload::ops) rfl (fun x hx => ?_) rfl
    rcases List.mem_cons.mp hx with rfl | hx
    · exact hop
    · exact hrest x hx
  | queueTransfer owner payload =>
    refine delivering_hand h hops (ClientSession.queueTransfer owner payload)
      (fun sess hopen haudio => ?_)
    unfold ClientSession.queueTransfer
    split
    · exact ⟨[payload],hopen,haudio,rfl,(List.append_nil _).trans hop⟩
    · exact ⟨[],hopen,haudio,(List.append_nil _).symm,rfl⟩
  | takeDump => exact absurd hop id
  | queueResync dump => exact absurd hop id

/-- Steps of the upstream task and of the fan-out. -/
def Passes : Action → Prop
  | .upstream => True
  | .receive => True
  | .fanout => True
  | _ => False

/-- So does every step that passes events on. -/
theorem delivering_step {addr : SocketAddr} {audio : Bool} {before : List Bytes}
    {total : List CommandRef} {s t : Proxy} {action : Action}
    (h : Delivering addr audio before total s) (hpass : Passes action)
    (hstep : step s action=some t) : Delivering addr audio before total t := by
  cases taken_of_step hstep with
  | upstream op ops hops => exact delivering_upstream h hops
  | receive received events hidle hnext => exact delivering_receive h hidle hnext
  | fanout op ops t hops hdone => exact delivering_fanout h hops hdone
  | _ => exact absurd hpass id

/-- The fan-out changes nothing but its own operations, the sessions and the lane. -/
structure Drains (s t : Proxy) : Prop where
  /-- Events. -/
  events : t.events=s.events
  /-- Upstream task. -/
  upstream : t.upstream=s.upstream
  /-- Datagram handler. -/
  handler : t.handler=s.handler

/-- With nobody holding the session lock every fan-out operation executes. -/
theorem fanoutStep_enabled {s : Proxy} (hunlocked : s.unlocked=true) (op : FanoutOp) :
    ∃ t,s.fanoutStep op=some t ∧ Drains s t ∧
      (t.fanout=s.fanout ∨ ∃ next,t.fanout=next::s.fanout ∧
        ∀ u : Proxy,u.unlocked=true → ∃ v,u.fanoutStep next=some v ∧ Drains u v ∧
          v.fanout=u.fanout) := by
  have hcases : ∀ (owner : SocketAddr) (payload : Bytes) (u : Proxy),u.unlocked=true →
      ∃ v,u.fanoutStep (.queueTransfer owner payload)=some v ∧ Drains u v ∧
        v.fanout=u.fanout := by
    intro owner payload u hu
    exact ⟨_,if_pos hu,⟨rfl,rfl,rfl⟩,rfl⟩
  cases op with
  | clearSessions => exact ⟨_,if_pos hunlocked,⟨rfl,rfl,rfl⟩,Or.inl rfl⟩
  | clearLane => exact ⟨_,rfl,⟨rfl,rfl,rfl⟩,Or.inl rfl⟩
  | queueState payload => exact ⟨_,if_pos hunlocked,⟨rfl,rfl,rfl⟩,Or.inl rfl⟩
  | queueAudio payload => exact ⟨_,if_pos hunlocked,⟨rfl,rfl,rfl⟩,Or.inl rfl⟩
  | routeTransfer payload =>
    simp only [Proxy.fanoutStep]
    split
    · exact ⟨s,rfl,⟨rfl,rfl,rfl⟩,Or.inl rfl⟩
    · rename_i owner _
      exact ⟨_,rfl,⟨rfl,rfl,rfl⟩,Or.inr ⟨_,rfl,hcases owner payload⟩⟩
  | queueTransfer owner payload => exact ⟨_,if_pos hunlocked,⟨rfl,rfl,rfl⟩,Or.inl rfl⟩
  | takeDump =>
    exact ⟨_,rfl,⟨rfl,rfl,rfl⟩,Or.inr ⟨_,rfl,fun u hu => ⟨_,if_pos hu,⟨rfl,rfl,rfl⟩,rfl⟩⟩⟩
  | queueResync dump => exact ⟨_,if_pos hunlocked,⟨rfl,rfl,rfl⟩,Or.inl rfl⟩

/-- The session lock stays free. -/
theorem Drains.unlocked {s t : Proxy} (h : Drains s t) (hu : s.unlocked=true) :
    t.unlocked=true := by
  unfold Proxy.unlocked at hu ⊢
  rw [h.handler]
  exact hu

/-- Fan-out operations follow each other. -/
theorem Drains.trans {s t u : Proxy} (h : Drains s t) (h' : Drains t u) : Drains s u :=
  ⟨h'.events.trans h.events,h'.upstream.trans h.upstream,h'.handler.trans h.handler⟩

/-- A schedule that only passes events on from one state to another. -/
def Passing (s : Proxy) (acts : List Action) (t : Proxy) : Prop :=
  (∀ a∈acts,Passes a) ∧ run step s acts=some t

/-- One more step that passes events on. -/
theorem Passing.cons {s t u : Proxy} {a : Action} {acts : List Action} (ha : Passes a)
    (hstep : step s a=some t) (h : Passing t acts u) : Passing s (a::acts) u := by
  refine ⟨fun b hb => ?_,(run_cons_eq_some step).mpr ⟨t,hstep,h.2⟩⟩
  rcases List.mem_cons.mp hb with rfl | hb
  · exact ha
  · exact h.1 b hb

/-- Two such schedules one after the other. -/
theorem Passing.trans {s t u : Proxy} {first second : List Action} (h : Passing s first t)
    (h' : Passing t second u) : Passing s (first++second) u := by
  refine ⟨fun a ha => ?_,?_⟩
  · rcases List.mem_append.mp ha with ha | ha
    · exact h.1 a ha
    · exact h'.1 a ha
  · rw [run_append]
    exact Option.bind_eq_some_iff.mpr ⟨t,h.2,h'.2⟩

/-- The operations of the fan-out come to an end. -/
theorem fanout_finishes (ops : List FanoutOp) {s : Proxy} (hunlocked : s.unlocked=true)
    (hops : s.fanout=ops) : ∃ acts t,Passing s acts t ∧ t.fanout=[] ∧ Drains s t := by
  induction ops generalizing s with
  | nil => exact ⟨[],s,⟨fun _ hm => absurd hm List.not_mem_nil,rfl⟩,hops,⟨rfl,rfl,rfl⟩⟩
  | cons op ops ih =>
    have hstep : ∀ {u v : Proxy} {x : FanoutOp} {rest : List FanoutOp},u.fanout=x::rest →
        Proxy.fanoutStep {u with fanout := rest} x=some v → step u .fanout=some v := by
      intro u v x rest hu hv
      dsimp only [step]
      rw [hu]
      exact hv
    obtain ⟨t,ht,hdrain,hnext⟩ :=
      @fanoutStep_enabled {s with fanout := ops} hunlocked op
    have hfirst : Drains s t := ⟨hdrain.events,hdrain.upstream,hdrain.handler⟩
    rcases hnext with hfan | ⟨next,hfan,hexec⟩
    · obtain ⟨acts,u,hpass,hdone,hd⟩ := ih (hfirst.unlocked hunlocked) hfan
      exact ⟨.fanout::acts,u,.cons trivial (hstep hops ht) hpass,hdone,hfirst.trans hd⟩
    · -- The operation put another one in front, which executes next.
      obtain ⟨v,hv,hdv,hfv⟩ := hexec {t with fanout := ops} (hfirst.unlocked hunlocked)
      have hsecond : Drains s v := hfirst.trans ⟨hdv.events,hdv.upstream,hdv.handler⟩
      obtain ⟨acts,u,hpass,hdone,hd⟩ := ih (hsecond.unlocked hunlocked) hfv
      exact ⟨.fanout::.fanout::acts,u,
        .cons trivial (hstep hops ht) (.cons trivial (hstep hfan hv) hpass),hdone,
        hsecond.trans hd⟩

/-- All tasks but the tick have nothing left to do and nobody holds the session lock. -/
structure Idle (s : Proxy) : Prop where
  /-- Upstream task. -/
  upstream : s.upstream=[]
  /-- Fan-out task. -/
  fanout : s.fanout=[]
  /-- Events. -/
  events : s.events.Drained
  /-- Session lock. -/
  unlocked : s.unlocked=true

/-- Unread events are handled one after the other. -/
theorem events_drain (items : List UpstreamEvent) {s : Proxy} (hunlocked : s.unlocked=true)
    (hupstream : s.upstream=[]) (hfanout : s.fanout=[]) (hitems : s.events=⟨items,false⟩) :
    ∃ acts t,Passing s acts t ∧ Idle t := by
  induction items generalizing s with
  | nil =>
    refine ⟨[],s,⟨fun _ hm => absurd hm List.not_mem_nil,rfl⟩,hupstream,hfanout,?_,hunlocked⟩
    rw [hitems]
    exact ⟨rfl,rfl⟩
  | cons e items ih =>
    have hrecv : step s .receive=some {s with
        events := ⟨items,false⟩, fanout := fanoutOps (.item e)} := by
      dsimp only [step]
      rw [if_pos hfanout,hitems]
      rfl
    obtain ⟨acts,t,hpass,hdone,hd⟩ := @fanout_finishes (fanoutOps (.item e))
      {s with events := ⟨items,false⟩, fanout := fanoutOps (.item e)} hunlocked rfl
    obtain ⟨acts',u,hpass',hidle⟩ := ih (hd.unlocked hunlocked) (hd.upstream.trans hupstream)
      hdone hd.events
    exact ⟨.receive::(acts++acts'),u,.cons trivial hrecv (hpass.trans hpass'),hidle⟩

/-- An event carries its chunk, and an empty chunk none. -/
theorem partEvent_due {make : Bytes → UpstreamEvent} {audio : Bool} {due : Bytes → List CommandRef}
    (hmake : ∀ b,eventDue audio (make b)=due b) (hnone : due []=[]) (bytes : Bytes) :
    (partEvent make bytes).flatMap (eventDue audio)=due bytes := by
  unfold partEvent
  split
  · rename_i hnil
    rw [hnil,hnone,List.flatMap_nil]
  · rw [List.flatMap_singleton,hmake]

/-- What a session gets of the live commands of a payload. -/
def liveDue (audio : Bool) (cmds : List CommandRef) : List CommandRef :=
  cmds.filter (fun cmd => decide (chunkOf cmd.name=.state))++
    if audio=true then cmds.filter (fun cmd => isTimecode cmd.name) else []

/-- The events of a payload carry its live commands, chunk by chunk. -/
theorem payloadEvents_due (connected audio : Bool) (cmds : List CommandRef) :
    (payloadEvents connected cmds).flatMap (eventDue audio)=liveDue audio cmds := by
  have hannounce : (announcement connected cmds).flatMap (eventDue audio)=[] := by
    unfold announcement
    split <;> rfl
  have hstate := @partEvent_due .statePayload audio liveCommands (fun _ => rfl) rfl
  have haudio := @partEvent_due .audioLevels audio
    (fun b => if audio=true then liveCommands b else []) (fun _ => rfl) (ite_self [])
  have htransfer := @partEvent_due .transferPayload audio (fun _ => []) (fun _ => rfl) rfl
  rw [payloadEvents,List.flatMap_append,List.flatMap_append,List.flatMap_append,hstate,haudio,
    htransfer,hannounce,List.append_nil,List.append_nil,liveCommands_state,liveCommands_audio]
  rfl

/-- No event of a payload ends the connection, and no transfer hides a live command. -/
theorem payloadEvents_plain {connected : Bool} {cmds : List CommandRef} {e : UpstreamEvent}
    (h : e∈payloadEvents connected cmds) : PlainEvent e := by
  rcases mem_payloadEvents h with rfl | ⟨hbytes,hkind⟩
  · trivial
  · cases e with
    | transferPayload payload =>
      have hpayload : payload=chunkBytes .transfer cmds := hbytes
      rw [hpayload]
      exact liveCommands_transfer cmds
    | disconnected => exact absurd rfl hkind
    | _ => trivial

/-- A payload leads to four events at most. -/
theorem payloadEvents_length_le (connected : Bool) (cmds : List CommandRef) :
    (payloadEvents connected cmds).length≤4 := by
  have hannounce : (announcement connected cmds).length≤1 := by
    unfold announcement
    split
    · exact Nat.le_refl 1
    · exact Nat.zero_le 1
  have hstate := partEvent_length_le .statePayload (chunkBytes .state cmds)
  have haudio := partEvent_length_le .audioLevels (chunkBytes .audio cmds)
  have htransfer := partEvent_length_le .transferPayload (chunkBytes .transfer cmds)
  simp only [payloadEvents,List.length_append]
  omega

/-- A payload that was just taken is due to every opened session. -/
theorem delivering_payload {s : Proxy} {addr : SocketAddr} {sess : Tracked} {payload : Bytes}
    {cmds : List CommandRef} (hidle : Idle s) (hsess : s.sessions.get? addr=some sess)
    (hopen : sess.session.opened=true) (hparse : parseCommands payload=.ok cmds) :
    Delivering addr sess.session.audio sess.queued (liveDue sess.session.audio cmds)
      {s with upstream := handleUpstreamPayload payload} := by
  have hway : underWay {s with upstream := handleUpstreamPayload payload}=
      payloadEvents s.connected cmds := by
    simp only [underWay,hidle.events.1,List.nil_append,sentBy_handleUpstreamPayload hparse]
  refine ⟨⟨sess,[],hsess,hopen,rfl,(List.append_nil _).symm,?_⟩,?_,?_,?_,hidle.events.2⟩
  · rw [hway,payloadEvents_due,List.flatMap_nil,List.nil_append]
    dsimp only
    rw [hidle.fanout,List.flatMap_nil,List.nil_append]
  · intro op hm
    dsimp only at hm
    rw [hidle.fanout] at hm
    exact absurd hm List.not_mem_nil
  · intro e he
    rw [hway] at he
    exact payloadEvents_plain he
  · rw [hway]
    exact (payloadEvents_length_le s.connected cmds).trans (by decide)

/-- Some schedule passes a payload on completely. -/
theorem payload_passes {s : Proxy} {payload : Bytes} {cmds : List CommandRef} (hidle : Idle s)
    (hparse : parseCommands payload=.ok cmds) :
    ∃ acts t,Passing {s with upstream := handleUpstreamPayload payload} acts t ∧ Idle t := by
  obtain ⟨n,u,hrun,hfin⟩ := @upstream_finishes (handleUpstreamPayload payload)
    {s with upstream := handleUpstreamPayload payload} rfl
  have hunlocked : u.unlocked=true := by
    have hu := hidle.unlocked
    unfold Proxy.unlocked at hu ⊢
    rw [hfin.handler]
    exact hu
  have hevents := hfin.events
  rw [sentBy_handleUpstreamPayload hparse,Broadcast.foldl_send] at hevents
  · rw [hidle.events.1,hidle.events.2] at hevents
    obtain ⟨acts,t,hpass,ht⟩ := events_drain _ hunlocked hfin.idle
      (hfin.fanout.trans hidle.fanout) hevents
    have hfirst : Passing {s with upstream := handleUpstreamPayload payload}
        (List.replicate n .upstream) u := by
      refine ⟨fun a ha => ?_,hrun⟩
      rw [List.eq_of_mem_replicate ha]
      trivial
    exact ⟨List.replicate n .upstream++acts,t,hfirst.trans hpass,ht⟩
  · have hlen := payloadEvents_length_le s.connected cmds
    dsimp only
    rw [hidle.events.1,List.length_nil]
    unfold eventCapacity
    omega

/-- No timecode command stands before another live command. -/
def TimecodeLast (cmds : List CommandRef) : Prop := cmds.Pairwise (fun earlier later =>
  isTimecode earlier.name=true → ¬(isLive later=true ∧ isTimecode later.name=false))

/-- The session gets every live command in order exactly when there is no
timecode among them, or it subscribed to audio levels and timecode comes last. -/
theorem liveDue_complete_iff (audio : Bool) (cmds : List CommandRef) :
    (cmds.filter isLive).Sublist (liveDue audio cmds) ↔
      (∀ cmd∈cmds,isTimecode cmd.name=false) ∨ (audio=true ∧ TimecodeLast cmds) := by
  have hlive : cmds.filter isLive=
      cmds.filter (fun cmd => decide (chunkOf cmd.name=.state) || isTimecode cmd.name) :=
    List.filter_congr (fun cmd _ => isLive_eq cmd)
  have hdisjoint : ∀ cmd∈cmds,
      ¬(decide (chunkOf cmd.name=.state)=true ∧ isTimecode cmd.name=true) := by
    rintro cmd _ ⟨hs,ht⟩
    rw [chunkOf_timecode ht] at hs
    cases hs
  have hlast : TimecodeLast cmds ↔ cmds.Pairwise (fun a b =>
      ¬(isTimecode a.name=true ∧ decide (chunkOf b.name=.state)=true)) := by
    unfold TimecodeLast
    refine iff_of_eq (congrArg (List.Pairwise · cmds) (funext fun a => funext fun b => propext ?_))
    refine Iff.trans (imp_congr_right fun _ => not_congr ?_) not_and.symm
    rw [isLive_eq]
    cases ht : isTimecode b.name with
    | true => simp only [chunkOf_timecode ht,reduceCtorEq,decide_false,Bool.false_eq_true,
        Bool.or_true,Bool.true_eq_false,and_false]
    | false => simp only [Bool.or_false,and_true]
  unfold liveDue
  rw [hlive]
  cases audio with
  | false =>
    simp only [Bool.false_eq_true,if_false,List.append_nil,false_and,or_false]
    exact filter_or_sublist_iff hdisjoint
  | true =>
    simp only [if_true,true_and]
    rw [hlast,filter_or_sublist_append_iff hdisjoint]
    refine ⟨Or.inr,fun h => ?_⟩
    rcases h with hnone | h
    · refine List.pairwise_of_forall_mem_list (fun a ha b _ hab => ?_)
      rw [hnone a ha] at hab
      cases hab.1
    · exact h

/-- Live fan-out of one payload: an idle proxy passes every payload that
parses on to the end, and in every order of the upstream task and the fan-out
an opened session has then been queued all live commands of the payload in
their order exactly when there is no timecode among them, or the session
subscribed to audio levels and no timecode stands before another live command. -/
theorem live_fanout_iff {s : Proxy} {addr : SocketAddr} {sess : Tracked} {payload : Bytes}
    {cmds : List CommandRef} (hidle : Idle s) (hsess : s.sessions.get? addr=some sess)
    (hopen : sess.session.opened=true) (hparse : parseCommands payload=.ok cmds) :
    (∃ acts t,(∀ a∈acts,Passes a) ∧ run step s (.payload payload::acts)=some t ∧ Idle t) ∧
    ∀ acts t,(∀ a∈acts,Passes a) → run step s (.payload payload::acts)=some t → Idle t →
      ∃ later new,t.sessions.get? addr=some later ∧ later.queued=sess.queued++new ∧
        ((cmds.filter isLive).Sublist (new.flatMap parsedCommands) ↔
          (∀ cmd∈cmds,isTimecode cmd.name=false) ∨
            (sess.session.audio=true ∧ TimecodeLast cmds)) := by
  have htaken : step s (.payload payload)=
      some {s with upstream := handleUpstreamPayload payload} := if_pos hidle.upstream
  constructor
  · obtain ⟨acts,t,hpass,ht⟩ := payload_passes hidle hparse
    exact ⟨acts,t,hpass.1,(run_cons_eq_some step).mpr ⟨_,htaken,hpass.2⟩,ht⟩
  · intro acts t hacts hrun ht
    obtain ⟨u,hu,hrun⟩ := (run_cons_eq_some step).mp hrun
    rw [htaken,Option.some.injEq] at hu
    subst hu
    have hpassed := meets_of_forall step (fun a ha _ => hacts a ha)
    have halways := always_of_meets step (fun _ _ _ h hpass hstep => delivering_step h hpass hstep)
      (delivering_payload hidle hsess hopen hparse) (hpassed _)
    obtain ⟨later,new,hget,_,_,hqueued,htotal⟩ := (halways.last step hrun).session
    have hway : underWay t=[] := by
      simp only [underWay,ht.events.1,ht.upstream,sentBy,List.append_nil]
    rw [ht.fanout,hway,List.flatMap_nil,List.flatMap_nil,List.append_nil,List.append_nil] at htotal
    refine ⟨later,new,hget,hqueued,?_⟩
    rw [←liveDue_complete_iff,←htotal]
    have hfilter : new.flatMap liveCommands=(new.flatMap parsedCommands).filter isLive :=
      (List.filter_flatMap).symm
    rw [hfilter]
    constructor
    · intro hsub
      have hkept := hsub.filter isLive
      rwa [List.filter_filter,List.filter_congr (fun cmd _ => Bool.and_self (isLive cmd))] at hkept
    · exact fun hsub => hsub.trans List.filter_sublist

/-- A client opens its session. -/
def clientOpens : List Action :=
  [.payload syntheticInitComplete,.upstream,.upstream,.upstream,.receive,
    .datagram ⟨1,1⟩ helloData 0,.handler 0 true,.handler 0 true,
    .datagram ⟨1,1⟩ LateJoiners.openingData 1]

/-- The proxy with that client. -/
def listening : Proxy := (run step LateJoiners.denyingStart clientOpens).getD LateJoiners.denyingStart

/-- The client listens at rest. -/
theorem listening_idle : Idle listening := ⟨rfl,rfl,⟨rfl,rfl⟩,rfl⟩

/-- A program change reaches the client. -/
theorem live_fanout_program :
    ∃ sess acts t later new,listening.sessions.get? ⟨1,1⟩=some sess ∧
      run step listening (.payload (LateJoiners.programSource 2).raw::acts)=some t ∧
      t.sessions.get? ⟨1,1⟩=some later ∧ later.queued=sess.queued++new ∧
      ([LateJoiners.programSource 2].filter isLive).Sublist (new.flatMap parsedCommands) := by
  have hopened : (listening.sessions.get? ⟨1,1⟩).map (fun t => t.session.opened)=some true := by
    decide +kernel
  obtain ⟨sess,hsess,hopen⟩ := Option.map_eq_some_iff.mp hopened
  obtain ⟨⟨acts,t,hpass,hrun,ht⟩,hall⟩ := live_fanout_iff listening_idle hsess hopen
    (parseCommands_raw (LateJoiners.programSource 2))
  obtain ⟨later,new,hlater,hqueued,hiff⟩ := hall acts t hpass hrun ht
  refine ⟨sess,acts,t,later,new,hsess,hrun,hlater,hqueued,hiff.mpr (Or.inl fun cmd hcmd => ?_)⟩
  rw [List.mem_singleton.mp hcmd]
  decide

/-- The proxy after a timecode was passed on. -/
def timecodePassed : Proxy :=
  (run step listening [.payload timecode.raw,.upstream,.receive,.fanout]).getD listening

/-- A timecode command is live, and an opened client is queued nothing of it. -/
theorem timecode_not_delivered :
    run step LateJoiners.denyingStart clientOpens=some listening ∧ Idle listening ∧
      run step listening [.payload timecode.raw,.upstream,.receive,.fanout]=some timecodePassed ∧
      Idle timecodePassed ∧ parseCommands timecode.raw=.ok [timecode] ∧ isLive timecode=true ∧
      (listening.sessions.get? ⟨1,1⟩).map (fun t => t.session.opened)=some true ∧
      (timecodePassed.sessions.get? ⟨1,1⟩).map Tracked.queued=
        (listening.sessions.get? ⟨1,1⟩).map Tracked.queued :=
  ⟨rfl,listening_idle,rfl,⟨rfl,rfl,⟨rfl,rfl⟩,rfl⟩,parseCommands_raw timecode,by decide,
    by decide +kernel,by decide +kernel⟩

end AtemProxy.LiveDelivery
