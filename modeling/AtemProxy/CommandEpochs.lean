import AtemProxy.PackedBatches
import AtemProxy.PayloadBounds

/-!
# Commands that cross from one upstream session into the next

Everything a session holds is dropped when it ends: pending commands, the
outbound queue and the packets in flight. The channel is not emptied, so a
command waiting there when a disconnect is announced is taken by the next
session. Without such commands, what a session transmits was put into the
channel after the disconnect before it.
-/

namespace AtemProxy.CommandEpochs

open BigEndian PacketCodec CommandFrames LockStores TransferLanes CommandPolicy LateJoinCache
  ReliableTransport SenderLedgers PackedBatches ServerSessions UpstreamEvents UpstreamSessions
  GuardedRuns ProxyTasks SessionEpochs ProxySystem PayloadBounds

/-- Payloads the session transmitted so far; pings are left out. -/
def transmitted (u : UpstreamSession) : List Bytes :=
  (u.ledger.removed++u.ledger.window).filterMap Origin.payload?

/-- The session transmitted these commands: the first ones handed to its
endpoint, in groups that are the transmitted payloads. -/
def Transmits (u : UpstreamSession) (cmds : List Command) : Prop :=
  cmds<+:u.packed ∧ ∃ groups : List (List Command), groups.flatten=cmds ∧
    groups.map (joined Command.raw)=transmitted u

/-- Every command transmitted in the present session was put into the channel
after the last announced disconnect. -/
def TransmitsFresh (x : System) : Prop :=
  ∀ u, x.session=some u → ∃ cmds, Transmits u cmds ∧ ∀ cmd ∈ cmds, x.ended≤cmd.epoch

/-- The step announces a disconnect. -/
def announcing (x : System) : SystemAction → Bool
  | .server a => decide (announces x.proxy a=1)
  | _ => false

/-- No command is left in the channel when a disconnect is announced; shorter
byte strings are never sent. -/
def ClearsChannel (x : System) (a : SystemAction) : Prop :=
  announcing x a=true → ∀ cmd ∈ x.channel, cmd.raw.length<8

instance (x : System) (a : SystemAction) : Decidable (ClearsChannel x a) :=
  inferInstanceAs (Decidable (_ → _))

/-- Commands of the session are younger than the last disconnect, and its
queue is made of those it packed. -/
structure FreshSession (ended : ℕ) (u : UpstreamSession) : Prop where
  /-- Pending commands have a frame header. -/
  long : ∀ cmd ∈ u.pending, 8≤cmd.raw.length
  /-- Pending commands are young. -/
  pending : ∀ cmd ∈ u.pending, ended≤cmd.epoch
  /-- Packed commands are young. -/
  packed : ∀ cmd ∈ u.packed, ended≤cmd.epoch
  /-- Queued payloads are groups of packed commands. -/
  grouped : ∃ groups : List (List Command), groups.flatten=u.packed ∧
    groups.map (joined Command.raw)=u.ledger.queued

/-- A session that has just begun took no command. -/
theorem freshSession_connect {reply : Bytes} {clock : Instant} {u : UpstreamSession}
    (h : UpstreamSession.connect reply clock=some u) (ended : ℕ) : FreshSession ended u := by
  obtain ⟨header,rfl⟩ := UpstreamSession.connect_eq h
  exact ⟨fun _ hm => absurd hm List.not_mem_nil,fun _ hm => absurd hm List.not_mem_nil,
    fun _ hm => absurd hm List.not_mem_nil,[],rfl,rfl⟩

/-- Calls that queue nothing keep the commands fresh. -/
theorem FreshSession.call {ended : ℕ} {u : UpstreamSession} (h : FreshSession ended u)
    {c : EndpointCall} (hc : c.silent=true) : FreshSession ended (u.call c) := by
  obtain ⟨groups,hflat,hgroups⟩ := h.grouped
  exact ⟨h.long,h.pending,h.packed,groups,hflat,
    hgroups.trans (u.ledger.queued_of_silent hc).symm⟩

/-- So does a command of the running epoch. -/
theorem FreshSession.take {ended : ℕ} {u : UpstreamSession} (h : FreshSession ended u)
    {cmd : Command} (hcmd : 8≤cmd.raw.length → ended≤cmd.epoch) :
    FreshSession ended (u.take cmd) := by
  unfold UpstreamSession.take
  split
  · rename_i hlong
    refine {h with long := fun c hc => ?_, pending := fun c hc => ?_}
    · rcases List.mem_append.mp hc with hc | hc
      · exact h.long c hc
      · rw [List.mem_singleton.mp hc]
        exact hlong
    · rcases List.mem_append.mp hc with hc | hc
      · exact h.pending c hc
      · rw [List.mem_singleton.mp hc]
        exact hcmd hlong
  · exact h

/-- Packing queues the pending commands in groups. -/
theorem FreshSession.pack {ended : ℕ} {u : UpstreamSession} (h : FreshSession ended u) :
    FreshSession ended u.pack := by
  obtain ⟨groups,hflat,hgroups⟩ := h.grouped
  have hbytes : ∀ cmd ∈ u.pending, cmd.raw≠[] := by
    intro cmd hcmd hnil
    have hlong := h.long cmd hcmd
    rw [hnil,List.length_nil] at hlong
    omega
  refine ⟨fun _ hm => absurd hm List.not_mem_nil,fun _ hm => absurd hm List.not_mem_nil,?_,
    groups++packGroups Command.raw [] u.pending,?_,?_⟩
  · intro cmd hcmd
    rcases List.mem_append.mp hcmd with hcmd | hcmd
    · exact h.packed cmd hcmd
    · exact h.pending cmd hcmd
  · rw [List.flatten_append,hflat,packGroups_flatten,List.nil_append]
    rfl
  · rw [List.map_append,hgroups,←packCommands_eq_groups Command.raw hbytes]
    rfl

/-- So do all operations of the session. -/
theorem sessionRule_fresh (ended : ℕ) : SessionRule (FreshSession ended) where
  call := FreshSession.call
  pack := FreshSession.pack
  flag h _ := ⟨h.long,h.pending,h.packed,h.grouped⟩

/-- What the ledger conserves ties every transmitted payload to its commands. -/
theorem FreshSession.transmits {ended limit : ℕ} {u : UpstreamSession} (h : FreshSession ended u)
    (hsound : Sound limit u.ledger) :
    ∃ cmds, Transmits u cmds ∧ ∀ cmd ∈ cmds, ended≤cmd.epoch := by
  obtain ⟨groups,hflat,hgroups⟩ := h.grouped
  have hsplit : transmitted u++u.ledger.endpoint.outbound=groups.map (joined Command.raw) :=
    hsound.conserved.trans hgroups.symm
  have hpre : ((groups.take (transmitted u).length).flatten)<+:u.packed := by
    rw [←hflat]
    exact (List.take_prefix _ groups).flatten
  refine ⟨_,⟨hpre,groups.take (transmitted u).length,rfl,?_⟩,
    fun cmd hcmd => h.packed cmd (hpre.subset hcmd)⟩
  rw [List.map_take,←hsplit,List.take_left]

/-- Nothing in the present session or in the channel is older than the last
announced disconnect, and a session is not about to announce one. -/
structure Fresh (x : System) : Prop where
  /-- Bounds under which the ledger is sound. -/
  bounded : SystemBounded x
  /-- Disconnects are announced without a session. -/
  unannounced : ∀ u, x.session=some u → .send .disconnected ∉ x.proxy.upstream
  /-- Commands in the channel are young. -/
  channel : ∀ cmd ∈ x.channel, 8≤cmd.raw.length → x.ended≤cmd.epoch
  /-- Commands of the session are young. -/
  session : ∀ u, x.session=some u → FreshSession x.ended u

/-- Nothing is under way at the start. -/
theorem fresh_start (policy : FilterPolicy) (idle : ℕ) : Fresh (System.start policy idle) where
  bounded := systemBounded_start policy idle
  unannounced := by
    intro u hu
    cases hu
  channel := fun _ hm => absurd hm List.not_mem_nil
  session := by
    intro u hu
    cases hu

/-- A payload of the switcher announces no disconnect. -/
theorem handleUpstreamPayload_unannounced (payload : Bytes) :
    .send .disconnected ∉ handleUpstreamPayload payload := by
  intro hmem
  cases payloadOp_of_mem hmem

/-- The upstream task adds no announcement to its operations. -/
theorem upstream_unannounced {s t : Proxy} (h : .send .disconnected ∉ s.upstream)
    (hstep : step s .upstream=some t) : .send .disconnected ∉ t.upstream := by
  cases taken_of_step hstep with
  | upstream op ops hnext =>
    rw [hnext] at h
    have hops : .send .disconnected ∉ ops := fun hm => h (List.mem_cons_of_mem _ hm)
    cases op with
    | swapConnected =>
      simp only [Proxy.upstreamStep]
      split
      · exact hops
      · intro hm
        rcases List.mem_cons.mp hm with he | hm
        · cases he
        · exact hops hm
    | lockStatus chunk => exact hops
    | ingest chunk => exact hops
    | send event => exact hops
    | setReady => exact hops
    | setDisconnected => exact hops
    | clearCache => exact hops
    | clearLocks => exact hops

/-- Only a listed announcement is announced. -/
theorem announces_eq_zero {s : Proxy} (h : .send .disconnected ∉ s.upstream) :
    announces s .upstream=0 := by
  unfold announces
  refine if_neg (fun hnext => h ?_)
  unfold nextEvent at hnext
  split at hnext
  · rename_i event ops hops
    cases hnext
    rw [hops]
    exact List.mem_cons_self
  · cases hnext

/-- An operation of the upstream task: an announcement finds neither a session
nor a command in the channel. -/
theorem Fresh.upstream {x : System} (h : Fresh x) (hok : ClearsChannel x (.server .upstream))
    {t : Proxy} (ht : step x.proxy .upstream=some t) {y : System}
    (hy : y={x with
      proxy := t
      session := sessionAfter x.proxy x.session
      ended := x.ended+announces x.proxy .upstream})
    (hbounded : SystemBounded y) : Fresh y := by
  subst hy
  refine ⟨hbounded,fun u hu => ?_,fun cmd hcmd hlong => ?_,fun u hu => ?_⟩
  · obtain ⟨v,hv,_⟩ := sessionAfter_eq_some hu
    exact upstream_unannounced (h.unannounced v hv) ht
  · have hcases : announces x.proxy .upstream=1 ∨ announces x.proxy .upstream=0 := by
      simp only [announces]
      split
      · exact Or.inl rfl
      · exact Or.inr rfl
    rcases hcases with hone | hzero
    · exact absurd (hok (decide_eq_true hone) cmd hcmd) (Nat.not_lt.mpr hlong)
    · dsimp only
      rw [hzero]
      exact h.channel cmd hcmd hlong
  · obtain ⟨v,hv,hor⟩ := sessionAfter_eq_some hu
    have hfresh := h.session v hv
    dsimp only
    rw [announces_eq_zero (h.unannounced v hv)]
    rcases hor with rfl | rfl
    · exact hfresh
    · exact hfresh.call rfl

/-- A command put now is young. -/
theorem Fresh.put {x : System} (h : Fresh x) (raw : Bytes) :
    ∀ cmd ∈ x.channel++[⟨raw,x.ended⟩], 8≤cmd.raw.length → x.ended≤cmd.epoch := by
  intro cmd hcmd hlong
  rcases List.mem_append.mp hcmd with hcmd | hcmd
  · exact h.channel cmd hcmd hlong
  · rw [List.mem_singleton.mp hcmd]

/-- Every step keeps the commands of the session young, when announcements
find no command in the channel. -/
theorem Fresh.step {x y : System} {a : SystemAction} (h : Fresh x) (hok : ClearsChannel x a)
    (hstep : systemStep x a=some y) : Fresh y := by
  have hbounded := h.bounded.step hstep
  have honly : ∀ {u v : UpstreamSession}, FreshSession x.ended v →
      some v=some u → FreshSession x.ended u := by
    intro u v hv hu
    cases hu
    exact hv
  have hserved : ∀ {a : Action} {t : Proxy}, serves a=true → ProxyTasks.step x.proxy a=some t →
      ∀ u, x.session=some u → .send .disconnected ∉ t.upstream := by
    intro a t hserves ht u hu
    rw [upstream_of_serves hserves ht]
    exact h.unannounced u hu
  cases moved_of_systemStep hstep with
  | upstream t ht => exact h.upstream hok ht rfl hbounded
  | quiet a t ht hserves => exact ⟨hbounded,hserved hserves ht,h.channel,h.session⟩
  | handler clock replied t ht => exact ⟨hbounded,hserved rfl ht,h.channel,h.session⟩
  | cleanup t ht => exact ⟨hbounded,hserved rfl ht,h.channel,h.session⟩
  | connect reply clock u _ hidle hu =>
    refine ⟨hbounded,fun _ _ => ?_,h.channel,fun _ => honly (freshSession_connect hu x.ended)⟩
    dsimp only
    rw [hidle]
    exact List.not_mem_nil
  | endSession t ht =>
    refine ⟨hbounded,fun u hu => ?_,h.channel,fun u hu => ?_⟩ <;> cases hu
  | heard u data clock hu =>
    have hsession := (sessionRule_fresh x.ended).onDatagram (h.session u hu) data clock
    exact ⟨hbounded,fun _ _ => h.unannounced u hu,h.channel,fun _ => honly hsession⟩
  | handled u data clock payload t hu _ ht =>
    have hsession := (sessionRule_fresh x.ended).onDatagram (h.session u hu) data clock
    refine ⟨hbounded,fun _ _ => ?_,h.channel,fun _ => honly hsession⟩
    cases taken_of_step ht with
    | payload _ _ => exact handleUpstreamPayload_unannounced payload
  | woke u cmd channel hu hnext =>
    have hchannel := h.channel
    rw [hnext] at hchannel
    have hwoken := (sessionRule_fresh x.ended).wake (h.session u hu)
      ((h.session u hu).take (hchannel cmd List.mem_cons_self))
    exact ⟨hbounded,fun _ _ => h.unannounced u hu,
      fun c hc => hchannel c (List.mem_cons_of_mem _ hc),fun _ => honly hwoken⟩
  | took u now elapsedAt ackAt cmd channel hu hnext =>
    have hchannel := h.channel
    rw [hnext] at hchannel
    exact ⟨hbounded,fun _ _ => h.unannounced u hu,
      fun c hc => hchannel c (List.mem_cons_of_mem _ hc),
      fun _ => honly ((h.session u hu).take (hchannel cmd List.mem_cons_self))⟩
  | flushed u now elapsedAt ackAt hu _ =>
    have hflushed := (sessionRule_fresh x.ended).flush (h.session u hu) now elapsedAt ackAt
    exact ⟨hbounded,fun _ _ => h.unannounced u hu,h.channel,fun _ => honly hflushed⟩
  | ticked u clock now elapsedAt ackAt hu =>
    have hticked := (sessionRule_fresh x.ended).tick (h.session u hu) now elapsedAt ackAt
    exact ⟨hbounded,fun _ _ => h.unannounced u hu,h.channel,fun _ => honly hticked⟩
  | putForward raw forwards _ => exact ⟨hbounded,h.unannounced,h.put raw,h.session⟩
  | putCleanup raw cleanups _ => exact ⟨hbounded,h.unannounced,h.put raw,h.session⟩

/-- In every run in which no command waits in the channel whenever a disconnect
is announced, every command that a session transmits was put into the channel
after the disconnect before it. -/
theorem commands_stay_in_session (policy : FilterPolicy) (idle : ℕ) (acts : List SystemAction)
    (hmeets : Meets systemStep ClearsChannel (System.start policy idle) acts) :
    Always systemStep TransmitsFresh (System.start policy idle) acts := by
  have hall := always_of_meets systemStep (fun _ _ _ => Fresh.step) (fresh_start policy idle) hmeets
  exact hall.mono systemStep (fun x hx u hu =>
    (hx.session u hu).transmits (hx.bounded.session u hu).sound)

/-- Reply of a switcher that accepts the HELLO. -/
def acceptedData : Bytes :=
  encodePacket (PacketHeader.new {handshake := true} 7 20) [2,0,0,0,0,0,0,0]

/-- Completed initialization as the first reliable packet of the switcher. -/
def initData : Bytes :=
  encodePacket (ReliableEndpoint.dataHeader 7 1 syntheticInitComplete) syntheticInitComplete

/-- A cut. -/
def cut : Bytes := serializeCommand (tag 'D' 'C' 'u' 't') [0,0,0,0]

/-- The cut as the first reliable packet of a client. -/
def cutData : Bytes := encodePacket (ReliableEndpoint.dataHeader 0 1 cut) cut

/-- A session with the switcher that becomes ready. -/
def sessionReady : List SystemAction :=
  [.connect acceptedData 0,.switcher initData 0,.server .upstream,.server .upstream,
    .server .upstream]

/-- A client joins and its cut is put into the channel. -/
def cutForwarded : List SystemAction :=
  [.server (.datagram ⟨1,1⟩ helloData 0),.server (.handler 0 true),.server (.handler 0 true),
    .server (.datagram ⟨1,1⟩ cutData 0),.server (.handler 0 true),.server (.handler 0 true),
    .putForward]

/-- The session empties the channel. -/
def channelEmptied : List SystemAction := [.wake,.drain 0 0 0]

/-- The session ends and the disconnect is announced. -/
def sessionEnded : List SystemAction :=
  [.endSession,.server .upstream,.server .upstream,.server .upstream,.server .upstream]

/-- Proxy that denies lock requests. -/
def systemStart : System := .start ⟨.deny,.new,.new {}⟩ 5000

/-- The cut is sent before the session ends, and another one after the next begins. -/
def cutsInTime : List SystemAction :=
  sessionReady++cutForwarded++channelEmptied++sessionEnded++
    sessionReady++cutForwarded++channelEmptied

/-- The cut is in the channel when the session ends. -/
def cutTooLate : List SystemAction :=
  sessionReady++cutForwarded++sessionEnded++sessionReady++channelEmptied

/-- Both cuts are transmitted in the session they were put into. -/
theorem cutsInTime_stay_in_session :
    Meets systemStep ClearsChannel systemStart cutsInTime ∧
      Always systemStep TransmitsFresh systemStart cutsInTime ∧
      (run systemStep systemStart cutsInTime).map (fun x => (x.ended,x.session.map transmitted))=
        some (1,some [cut]) := by
  have hmeets : Meets systemStep ClearsChannel systemStart cutsInTime := by decide +kernel
  exact ⟨hmeets,commands_stay_in_session ⟨.deny,.new,.new {}⟩ 5000 cutsInTime hmeets,
    by decide +kernel⟩

/-- The cut of the ended session is transmitted to the switcher by the next one. -/
theorem cutTooLate_crosses_sessions : ¬Always systemStep TransmitsFresh systemStart cutTooLate := by
  intro h
  have hrun : (run systemStep systemStart cutTooLate).map (fun x =>
      (x.ended,x.session.map (fun u => (transmitted u,u.packed))))=
      some (1,some ([cut],[⟨cut,0⟩])) := by decide +kernel
  obtain ⟨x,hx,hfacts⟩ := Option.map_eq_some_iff.mp hrun
  obtain ⟨hended,hsession⟩ := Prod.mk.inj hfacts
  obtain ⟨u,hu,hsent⟩ := Option.map_eq_some_iff.mp hsession
  obtain ⟨htransmitted,hpacked⟩ := Prod.mk.inj hsent
  obtain ⟨cmds,⟨hpre,groups,hflat,hgroups⟩,hyoung⟩ := h.last systemStep hx u hu
  -- The only packed command is too old, so no command can account for the packet.
  have hnone : cmds=[] := by
    rw [List.eq_nil_iff_forall_not_mem]
    intro cmd hcmd
    have hold := hpre.subset hcmd
    rw [hpacked,List.mem_singleton] at hold
    have hage := hyoung cmd hcmd
    rw [hended,hold] at hage
    exact absurd hage (by decide)
  rw [htransmitted,List.map_eq_singleton_iff] at hgroups
  obtain ⟨group,rfl,hcut⟩ := hgroups
  rw [hnone,List.flatten_singleton] at hflat
  rw [hflat] at hcut
  exact absurd hcut (by decide)

end AtemProxy.CommandEpochs
