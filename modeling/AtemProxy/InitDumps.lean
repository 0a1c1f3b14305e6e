import AtemProxy.SessionOrigins
import AtemProxy.GhostOwners
import AtemProxy.LateJoiners

/-!
# Readiness of the cache when an init dump is taken

A HELLO is answered only while the cache is ready, but the dump is taken at
the first acknowledgement, when the upstream task may have cleared the cache
and the fan-out may not have removed the session yet. A dump is taken from a
ready cache in every run in which the cache is never cleared while a
handshake is unfinished.
-/

namespace AtemProxy.InitDumps

open BigEndian PacketCodec CommandFrames KeyedMaps LockStores TransferLanes CommandPolicy
  LateJoinCache ReliableTransport ServerSessions UpstreamEvents BroadcastQueues GuardedRuns
  ProxyTasks SessionOrigins

open GhostOwners (clientJoined connectionLost)

open LateJoiners (openingData denyingStart)

/-- The step takes an init dump: an idle handler gets an acknowledgement of a
client whose session is neither opened nor dumped. -/
def TakesInitDump (s : Proxy) : Action → Prop
  | .datagram addr data _ => s.handler=.idle ∧ ∃ header payload t,
      decodePacket data=.ok (header,payload) ∧ isHandshakePacket header.flags=false ∧
      s.sessions.get? addr=some t ∧ ClientSession.acknowledges header=true ∧
      t.session.opened=false ∧ t.session.dumpSent=false
  | _ => False

/-- Such a step queues the current dump to the client. -/
theorem takesInitDump_queues {s t : Proxy} {addr : SocketAddr} {data : Bytes} {clock : Instant}
    (h : TakesInitDump s (.datagram addr data clock))
    (hstep : step s (.datagram addr data clock)=some t) :
    ∃ before after, s.sessions.get? addr=some before ∧ t.sessions.get? addr=some after ∧
      after.queued=before.queued++packCommands s.cache.dump := by
  obtain ⟨hidle,header,payload,before,hdecode,hhello,hbefore,hack,hclosed,hundumped⟩ := h
  simp only [step,hidle,Proxy.receiveDatagram,hdecode,hhello,hbefore,Bool.false_eq_true,if_false,
    Option.some.injEq] at hstep
  have hout : (before.session.onHeader header s.cache.dump clock).rel.outbound=
      before.session.rel.outbound++packCommands s.cache.dump := by
    simp only [ClientSession.onHeader,hack,if_true,ClientSession.openWith,hclosed,hundumped,
      Bool.false_eq_true,if_false,ReliableEndpoint.queueCommandsPacked,ReliableEndpoint.onAckId,
      ReliableEndpoint.noteRecv]
  have hsessions : ∃ after, t.sessions=s.sessions.insert addr after ∧
      after.queued=before.queued++packCommands s.cache.dump := by
    rw [←hstep]
    simp only [Proxy.beginDatagram]
    refine ⟨_,by split <;> [rfl; (split <;> rfl)],?_⟩
    simp only [Tracked.record,hout,List.drop_left]
  obtain ⟨after,hafter,hqueued⟩ := hsessions
  exact ⟨before,after,hbefore,by rw [hafter,OrderedMap.get?_insert_self],hqueued⟩

/-- Every init dump of the run is taken from a ready cache. -/
def DumpsReady (s : Proxy) (a : Action) : Prop := TakesInitDump s a → s.cache.ready=true

/-- A HELLO was found acceptable and its session is not inserted yet. -/
def inserting : Handler → Bool
  | .insert _ _ => true
  | _ => false

/-- The cache is cleared only while every session is opened and no HELLO is
between its readiness check and its session. -/
def ClearsSettled (s : Proxy) : Action → Prop
  | .upstream => s.upstream.head?=some .clearCache →
      (∀ entry ∈ s.sessions.entries, entry.2.session.opened=true) ∧ inserting s.handler=false
  | _ => True

instance (s : Proxy) : DecidablePred (ClearsSettled s)
  | .upstream => inferInstanceAs (Decidable (_ → _ ∧ _))
  | .payload _ => isTrue trivial
  | .disconnect => isTrue trivial
  | .receive => isTrue trivial
  | .fanout => isTrue trivial
  | .datagram _ _ _ => isTrue trivial
  | .handler _ _ => isTrue trivial
  | .tick _ _ => isTrue trivial
  | .cleanup => isTrue trivial

/-- While a handshake is unfinished, the cache is ready. -/
structure ReadyForDumps (s : Proxy) : Prop where
  /-- A session that has yet to be opened. -/
  unopened : ∀ addr t, s.sessions.get? addr=some t → t.session.opened=false →
    s.cache.ready=true
  /-- A session that has yet to be inserted. -/
  answered : ∀ addr sid, s.handler=.insert addr sid → s.cache.ready=true

/-- A cache that is ready stays ready. -/
theorem ingestCommands_ready {c : StateCache} (h : c.ready=true) (cmds : List CommandRef) :
    (cmds.foldl StateCache.ingestCommand c).ready=true := by
  induction cmds generalizing c with
  | nil => exact h
  | cons cmd cmds ih =>
    refine ih ?_
    simp only [StateCache.ingestCommand]
    split
    · exact h
    · split
      · rfl
      · exact h

/-- Only a clear takes readiness away. -/
theorem upstreamStep_ready {s : Proxy} {op : UpstreamOp} (h : s.cache.ready=true)
    (hop : op≠.clearCache) : (s.upstreamStep op).cache.ready=true := by
  cases op with
  | ingest chunk =>
    simp only [Proxy.upstreamStep,StateCache.ingestPayload]
    split
    · exact h
    · exact ingestCommands_ready h _
  | setReady => rfl
  | swapConnected =>
    simp only [Proxy.upstreamStep]
    split <;> exact h
  | clearCache => exact absurd rfl hop
  | _ => exact h

/-- Every other step keeps a ready cache ready. -/
theorem ready_of_taken {s t : Proxy} {a : Action} (h : Taken s a t)
    (hkeep : a=.upstream → ∀ ops, s.upstream≠.clearCache::ops) (hready : s.cache.ready=true) :
    t.cache.ready=true := by
  cases h with
  | payload payload _ => exact hready
  | disconnect _ => exact hready
  | upstream op ops hnext =>
    refine upstreamStep_ready hready fun hclear => hkeep rfl ops ?_
    rw [hnext,hclear]
  | receive received events _ _ => exact hready
  | fanout op ops t _ hdone => cases hdone <;> exact hready
  | datagram addr data clock _ =>
    rw [s.receiveDatagram_eq addr data clock]
    exact hready
  | handler clock replied t hdone => cases hdone <;> exact hready
  | tick now clocks _ _ => exact hready
  | cleanup op ops _ => cases op <;> exact hready

/-- A handler about to insert a session was so before, or has just found the
cache ready. -/
theorem insert_of_step {s t : Proxy} {a : Action} (h : step s a=some t) {addr : SocketAddr}
    {sid : UInt16} (hinsert : t.handler=.insert addr sid) :
    s.handler=.insert addr sid ∨ s.cache.ready=true := by
  cases taken_of_step h with
  | payload payload _ => exact Or.inl hinsert
  | disconnect _ => exact Or.inl hinsert
  | upstream op ops _ =>
    rw [(Proxy.upstreamStep_frame _ op).2.2] at hinsert
    exact Or.inl hinsert
  | receive received events _ _ => exact Or.inl hinsert
  | fanout op ops t _ hdone => cases hdone <;> exact Or.inl hinsert
  | datagram target data clock hidle =>
    rcases s.receiveDatagram_cases target data clock with
      heq | heq | ⟨_,_,_,handler,_,hhandler,heq⟩
    · rw [heq] at hinsert
      exact Or.inl hinsert
    · rw [heq] at hinsert
      cases hinsert
    · rw [heq] at hinsert
      rcases hhandler with hsame | ⟨cmds,actions,hfilter⟩
      · exact Or.inl (hsame.symm.trans hinsert)
      · exact absurd (hfilter.symm.trans hinsert) Handler.noConfusion
  | handler clock replied t hdone =>
    simp only [step,Proxy.handlerStep] at h
    split at h
    · cases h
    · split at h
      · rename_i hready
        exact Or.inr hready
      · cases h
        cases hinsert
    · split at h <;> cases h <;> cases hinsert
    · cases h
      cases hinsert
    · cases h
      cases hinsert
  | tick now clocks _ _ => exact Or.inl hinsert
  | cleanup op ops _ => cases op <;> exact Or.inl hinsert

/-- A step that clears a settled cache, or does not clear it at all, keeps
unfinished handshakes with a ready cache. -/
theorem readyForDumps_step {s t : Proxy} {a : Action} (h : ReadyForDumps s)
    (hok : ClearsSettled s a) (hstep : step s a=some t) : ReadyForDumps t := by
  by_cases hclear : a=.upstream ∧ ∃ ops, s.upstream=.clearCache::ops
  · obtain ⟨rfl,ops,hops⟩ := hclear
    obtain ⟨hopened,hhandler⟩ := hok (by rw [hops]; rfl)
    simp only [step,hops,Option.some.injEq] at hstep
    subst hstep
    constructor
    · intro addr u hu hclosed
      have hopen := hopened (addr,u) ((s.sessions.get?_eq_some_iff addr u).mp hu)
      exact absurd (hclosed.symm.trans hopen) Bool.false_ne_true
    · intro addr sid hinsert
      rw [show s.handler=.insert addr sid from hinsert] at hhandler
      cases hhandler
  · have hkeep : s.cache.ready=true → t.cache.ready=true :=
      ready_of_taken (taken_of_step hstep) fun ha ops hops => hclear ⟨ha,ops,hops⟩
    constructor
    · intro addr u hu hclosed
      rcases originates_of_step hstep hu with ⟨before,hbefore,hwas⟩ | ⟨sid,_,hinsert,_⟩
      · exact hkeep (h.unopened addr before hbefore (hwas hclosed))
      · exact hkeep (h.answered addr sid hinsert)
    · intro addr sid hinsert
      rcases insert_of_step hstep hinsert with hbefore | hready
      · exact hkeep (h.answered addr sid hbefore)
      · exact hkeep hready

/-- At the start there is nothing to dump. -/
theorem readyForDumps_start (policy : FilterPolicy) (idle : ℕ) :
    ReadyForDumps (Proxy.start policy idle) where
  unopened := fun _ _ hu => by cases hu
  answered := fun _ _ hinsert => by cases hinsert

/-- In every run that never clears the cache during an unfinished handshake,
every init dump is taken from a ready cache. -/
theorem init_dumps_ready (policy : FilterPolicy) (idle : ℕ) (actions : List Action)
    (hmeets : Meets step ClearsSettled (Proxy.start policy idle) actions) :
    Meets step DumpsReady (Proxy.start policy idle) actions := by
  refine meets_of_invariant step (fun _ _ _ => readyForDumps_step) (fun s a h _ hdump => ?_)
    (readyForDumps_start policy idle) hmeets
  cases a with
  | datagram addr data clock =>
    obtain ⟨_,_,_,t,_,_,ht,_,hclosed,_⟩ := hdump
    exact h.unopened addr t ht hclosed
  | _ => exact hdump.elim

/-- The first acknowledgement comes before the connection is lost. -/
def openedFirst : List Action :=
  clientJoined++[.datagram ⟨1,1⟩ openingData 1]++connectionLost++[.receive,.fanout,.fanout]

/-- The first acknowledgement comes after the cache was cleared and before
the sessions are. -/
def openedLate : List Action := clientJoined++connectionLost++[.datagram ⟨1,1⟩ openingData 1]

/-- A session that opens before the switcher is lost gets a complete dump. -/
theorem openedFirst_dumps_ready :
    Meets step ClearsSettled denyingStart openedFirst ∧
      Meets step DumpsReady denyingStart openedFirst ∧
      ∃ s, run step denyingStart openedFirst=some s := by
  have hmeets : Meets step ClearsSettled denyingStart openedFirst := by decide +kernel
  exact ⟨hmeets,init_dumps_ready ⟨.deny,.new,.new {}⟩ 5000 openedFirst hmeets,_,rfl⟩

/-- The proxy between the clear of the cache and that of the sessions. -/
def clearedProxy : Proxy :=
  (run step denyingStart (clientJoined++connectionLost)).getD denyingStart

/-- The late acknowledgement is answered with the dump of a cleared cache,
a bare initialization-complete. -/
theorem openedLate_dumps_cleared_cache :
    ¬Meets step DumpsReady denyingStart openedLate ∧
      ∃ s t, run step denyingStart openedLate=some s ∧ s.sessions.get? ⟨1,1⟩=some t ∧
        t.queued=[syntheticInitComplete] := by
  have hrun : run step denyingStart (clientJoined++connectionLost)=some clearedProxy := rfl
  have htakes : TakesInitDump clearedProxy (.datagram ⟨1,1⟩ openingData 1) :=
    ⟨rfl,_,_,_,rfl,rfl,rfl,rfl,rfl,rfl⟩
  have hcleared : clearedProxy.cache.ready=false := rfl
  refine ⟨fun h => ?_,_,_,rfl,rfl,by decide +kernel⟩
  have hlast := ((meets_append step).mp h).2 clearedProxy hrun
  have hready := hlast.1 htakes
  rw [hcleared] at hready
  cases hready

end AtemProxy.InitDumps
