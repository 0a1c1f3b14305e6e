import AtemProxy.ProxyTasks
import AtemProxy.LaneOwners
import AtemProxy.GhostOwners

/-!
# Cleanup of an expired client and its successor

The tick removes expired sessions at once and cleans up after them later,
address by address. A client that reconnects in between has a new session
under the old address, and the cleanup knows addresses only. What the filter
granted since the last tick is recorded; no cleanup takes any of it as long
as nothing is granted to a client whose cleanup of that kind is outstanding.
-/

namespace AtemProxy.CleanupRaces

open BigEndian PacketCodec CommandFrames KeyedMaps LockStores TransferLanes CommandPolicy
  ReliableTransport ServerSessions UpstreamEvents ProxyTasks GuardedRuns

/-- What a client can hold in the filter. -/
inductive Resource where
  /-- A store. -/
  | store (id : UInt16)
  /-- The transfer lane. -/
  | lane
  /-- An audio subscription. -/
  | audio
  deriving DecidableEq

/-- The client holds the resource. -/
def Held (f : CommandFilter) (client : SocketAddr) : Resource → Prop
  | .store id => f.policy.locks.ownerOf id=some client
  | .lane => f.policy.transfer.currentOwner=some client
  | .audio => client∈f.audio.clients

/-- Cleanup operation that takes the resource from the client. -/
def takenBy (client : SocketAddr) : Resource → CleanupOp
  | .store _ => .locks client
  | .lane => .lane client
  | .audio => .audio client

/-- The command asks for the resource. -/
def Requests (cmd : CommandRef) : Resource → Prop
  | .store id => isLockRequest cmd.name=true ∧ lockStoreId cmd.body=some id
  | .lane => isTransferCommand cmd.name=true
  | .audio => isAudioLevelsSubscribe cmd.name=true

instance (f : CommandFilter) (client : SocketAddr) : DecidablePred (Held f client)
  | .store id => inferInstanceAs (Decidable (f.policy.locks.ownerOf id=some client))
  | .lane => inferInstanceAs (Decidable (f.policy.transfer.currentOwner=some client))
  | .audio => inferInstanceAs (Decidable (client∈f.audio.clients))

instance (cmd : CommandRef) : DecidablePred (Requests cmd)
  | .store id =>
    inferInstanceAs (Decidable (isLockRequest cmd.name=true ∧ lockStoreId cmd.body=some id))
  | .lane => inferInstanceAs (Decidable (isTransferCommand cmd.name=true))
  | .audio => inferInstanceAs (Decidable (isAudioLevelsSubscribe cmd.name=true))

/-- Resources that a command can ask for. -/
def candidates (cmd : CommandRef) : List Resource :=
  (lockStoreId cmd.body).toList.map .store++[.lane,.audio]

/-- Resources that the filter grants to a client for a command: those it asks
for and the client holds afterwards. -/
def grantsOf (f : CommandFilter) (client : SocketAddr) (cmd : CommandRef) : List Resource :=
  (candidates cmd).filter (fun r =>
    decide (Requests cmd r ∧ Held (f.processCommand client cmd).1 client r))

/-- What a step grants, and to whom. -/
def granted (s : Proxy) : Action → List (SocketAddr×Resource)
  | .handler _ _ =>
    match s.handler with
    | .filtering addr (cmd::_) _ => (grantsOf s.filter addr cmd).map (fun r => (addr,r))
    | _ => []
  | _ => []

/-- The proxy with the grants since the last tick. -/
structure Granting where
  /-- The proxy itself. -/
  proxy : Proxy
  /-- Grants since sessions were last removed. -/
  grants : List (SocketAddr×Resource)

namespace Granting

/-- The proxy before the first datagram. -/
def start (policy : FilterPolicy) (idle : ℕ) : Granting := ⟨Proxy.start policy idle,[]⟩

/-- Grants after a step; the tick starts anew. -/
def grantsAfter (x : Granting) (a : Action) : List (SocketAddr×Resource) :=
  match a with
  | .tick _ _ => []
  | _ => x.grants++granted x.proxy a

end Granting

/-- One step of the proxy with its grants. -/
def grantStep (x : Granting) (a : Action) : Option Granting :=
  (step x.proxy a).map (fun t => ⟨t,x.grantsAfter a⟩)

/-- A cleanup step takes nothing that was granted since the tick that removed
the expired sessions, hence nothing that a session created later acquired. -/
def SparesSuccessors (x : Granting) (a : Action) : Prop := ∀ op ops,a=.cleanup →
  x.proxy.cleanup=op::ops → ∀ client r,(client,r)∈x.grants → Held x.proxy.filter client r →
    Held (Proxy.cleanupStep {x.proxy with cleanup := ops} op).filter client r

/-- Nothing is granted to a client whose cleanup of that kind is outstanding. -/
def GrantsAfterCleanup (x : Granting) (a : Action) : Prop :=
  ∀ grant∈granted x.proxy a,takenBy grant.1 grant.2∉x.proxy.cleanup

instance (x : Granting) (a : Action) : Decidable (GrantsAfterCleanup x a) :=
  inferInstanceAs (Decidable (∀ grant∈granted x.proxy a,_))

/-- A cleanup operation takes a resource only with the operation of its kind. -/
theorem held_cleanupStep {s : Proxy} {op : CleanupOp} {client : SocketAddr} {r : Resource}
    (h : Held s.filter client r) (hother : takenBy client r≠op) :
    Held (s.cleanupStep op).filter client r := by
  cases op with
  | audio addr =>
    cases r with
    | store id => exact h
    | lane => exact h
    | audio => exact Finset.mem_erase.mpr ⟨fun he => hother (congrArg CleanupOp.audio he),h⟩
  | lane addr =>
    cases r with
    | store id => exact h
    | audio => exact h
    | lane =>
      have howner : s.lane.currentOwner=some client := h
      have hne : s.lane.currentOwner≠some addr := by
        rw [howner]
        exact fun he => hother (congrArg CleanupOp.lane (Option.some.inj he))
      show (s.lane.clientDisconnected addr).currentOwner=some client
      rw [TransferLane.clientDisconnected,if_neg hne]
      exact howner
  | locks addr =>
    cases r with
    | lane => exact h
    | audio => exact h
    | store id =>
      have howner : (s.locks.lockOf id).owner=some client := h
      have hne : (s.locks.lockOf id).owner≠some addr := by
        rw [howner]
        exact fun he => hother (congrArg CleanupOp.locks (Option.some.inj he))
      show ((s.locks.clientDisconnected addr).1.lockOf id).owner=some client
      rw [LockBroker.lockOf_clientDisconnected,StoreLock.release,if_neg hne]
      exact howner

/-- No recorded grant can be taken by an outstanding cleanup operation. -/
def Safe (x : Granting) : Prop := ∀ client r,(client,r)∈x.grants → takenBy client r∉x.proxy.cleanup

/-- Only a tick brings new cleanups. -/
theorem cleanup_of_step {s t : Proxy} {a : Action} (h : step s a=some t)
    (ha : ∀ now clocks,a≠.tick now clocks) : ∀ op∈t.cleanup,op∈s.cleanup := by
  cases taken_of_step h with
  | payload payload _ => exact fun _ => id
  | disconnect _ => exact fun _ => id
  | upstream op ops _ =>
    cases op with
    | swapConnected =>
      simp only [Proxy.upstreamStep]
      split <;> exact fun _ => id
    | _ => exact fun _ => id
  | receive received events _ _ => exact fun _ => id
  | fanout op ops t _ hdone => cases hdone <;> exact fun _ => id
  | datagram target data clock _ =>
    rw [s.receiveDatagram_eq target data clock]
    exact fun _ => id
  | handler clock replied t hdone => cases hdone <;> exact fun _ => id
  | tick now clocks _ _ => exact absurd rfl (ha now clocks)
  | cleanup op ops hnext =>
    rw [hnext]
    cases op <;> exact fun _ hm => List.mem_cons_of_mem _ hm

/-- A grant that waits for the cleanup keeps every grant safe. -/
theorem safe_step {x y : Granting} {a : Action} (h : Safe x) (hok : GrantsAfterCleanup x a)
    (hstep : grantStep x a=some y) : Safe y := by
  obtain ⟨t,ht,rfl⟩ := Option.map_eq_some_iff.mp hstep
  intro client r hmem
  by_cases htick : ∃ now clocks,a=.tick now clocks
  · obtain ⟨now,clocks,rfl⟩ := htick
    exact absurd hmem List.not_mem_nil
  · have hother : ∀ now clocks,a≠.tick now clocks := fun now clocks he => htick ⟨now,clocks,he⟩
    have hgrants : x.grantsAfter a=x.grants++granted x.proxy a := by
      unfold Granting.grantsAfter
      split
      · rename_i now clocks
        exact absurd rfl (hother now clocks)
      · rfl
    dsimp only at hmem ⊢
    rw [hgrants] at hmem
    intro hout
    have hbefore := cleanup_of_step ht hother _ hout
    rcases List.mem_append.mp hmem with hmem | hmem
    · exact h client r hmem hbefore
    · exact hok (client,r) hmem hbefore

/-- Whatever is not outstanding is not taken. -/
theorem spares_of_safe {x : Granting} (h : Safe x) (a : Action) : SparesSuccessors x a := by
  rintro op ops rfl hnext client r hmem hheld
  refine held_cleanupStep hheld (fun he => h client r hmem ?_)
  rw [hnext,he]
  exact List.mem_cons_self

/-- Cleanup never harms a successor in a run that grants nothing to a client
whose cleanup of that kind is outstanding. -/
theorem cleanup_spares_successors (policy : FilterPolicy) (idle : ℕ) (actions : List Action)
    (h : Meets grantStep GrantsAfterCleanup (.start policy idle) actions) :
    Meets grantStep SparesSuccessors (.start policy idle) actions :=
  meets_of_invariant grantStep (fun _ _ _ => safe_step) (fun _ a hsafe _ => spares_of_safe hsafe a)
    (fun _ _ hm => absurd hm List.not_mem_nil) h

/-- A client connects. -/
def connects (addr : SocketAddr) (clock : Instant) : List Action :=
  [.datagram addr helloData clock,.handler clock true,.handler clock true]

/-- A client locks store one with the first packet of its session. -/
def locksStore (addr : SocketAddr) (clock : Instant) : List Action :=
  [.datagram addr GhostOwners.lockData clock,.handler clock true,.handler clock true]

/-- Two clients, the first with a lock that the switcher confirmed, fall silent
and expire in the same tick. -/
def bothExpire : List Action :=
  GhostOwners.clientJoined++locksStore ⟨1,1⟩ 1++
    [.payload (serializeCommand (tag 'L' 'K' 'S' 'T') [0,1,1,0]),.upstream,.upstream,.upstream,
      .receive,.fanout]++
    connects ⟨2,1⟩ 1++[.tick 6000 (fun _ => ⟨6000,6000⟩)]

/-- The second client reconnects after its cleanup. -/
def reconnectsAfter : List Action :=
  bothExpire++[.cleanup,.cleanup,.cleanup,.cleanup,.cleanup,.cleanup]++connects ⟨2,1⟩ 6001++
    locksStore ⟨2,1⟩ 6002

/-- The second client reconnects between the cleanup of the first and its own. -/
def reconnectsBetween : List Action :=
  bothExpire++[.cleanup,.cleanup,.cleanup]++connects ⟨2,1⟩ 6001++locksStore ⟨2,1⟩ 6002++
    [.cleanup,.cleanup]

/-- The proxy of both runs. -/
def grantingStart : Granting := .start ⟨.singleOwner,.new,.new {}⟩ 5000

/-- After its cleanup the client keeps what it is granted. -/
theorem cleanup_spares_late_reconnect :
    Meets grantStep GrantsAfterCleanup grantingStart reconnectsAfter ∧
      Meets grantStep SparesSuccessors grantingStart reconnectsAfter ∧
      ((run grantStep grantingStart reconnectsAfter).map (fun x =>
        decide (((⟨2,1⟩ : SocketAddr),Resource.store 1)∈x.grants ∧
          Held x.proxy.filter ⟨2,1⟩ (.store 1))))=some true := by
  have hok : Meets grantStep GrantsAfterCleanup grantingStart reconnectsAfter := by
    decide +kernel
  exact ⟨hok,cleanup_spares_successors _ _ _ hok,by decide +kernel⟩

/-- The proxy before the last cleanup operation of the race. -/
def raced : Granting := (run grantStep grantingStart reconnectsBetween).getD grantingStart

/-- The reconnected client is granted a store, and the cleanup after its own
predecessor takes it away. -/
theorem cleanup_takes_store_of_successor :
    run grantStep grantingStart reconnectsBetween=some raced ∧
      ¬Meets grantStep SparesSuccessors grantingStart (reconnectsBetween++[.cleanup]) := by
  have hrun : run grantStep grantingStart reconnectsBetween=some raced := rfl
  refine ⟨hrun,fun h => ?_⟩
  have hspares := (((meets_append grantStep).mp h).2 raced hrun).1
  have hnext : raced.proxy.cleanup=[.locks ⟨2,1⟩] := by decide +kernel
  have hgrant : ((⟨2,1⟩ : SocketAddr),Resource.store 1)∈raced.grants := by decide +kernel
  have hheld : Held raced.proxy.filter ⟨2,1⟩ (.store 1) := by decide +kernel
  have htaken : ¬Held (Proxy.cleanupStep {raced.proxy with cleanup := []}
      (.locks ⟨2,1⟩)).filter ⟨2,1⟩ (.store 1) := by
    decide +kernel
  exact htaken (hspares (.locks ⟨2,1⟩) [] rfl hnext ⟨2,1⟩ (.store 1) hgrant hheld)

end AtemProxy.CleanupRaces
