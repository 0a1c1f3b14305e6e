import AtemProxy.FilterRuns

/-!
# What a disconnected client leaves behind

One call removes a client from the subscribers, the broker and the lane,
and returns what has to be sent upstream in its name. The audio disable is
made from the bytes of the latest enable by clearing the last byte. That
byte is the flag only when the enable has a body; the filter also accepts
an enable without one, and then the name itself is overwritten.
-/

namespace AtemProxy.DisconnectCleanup

open BigEndian PacketCodec CommandFrames KeyedMaps LockStores TransferLanes ProxyConfig
  CommandPolicy ForwardGrants FilterPassage FilterRuns

/-- The bytes are one disable with the name and the length of the enable. -/
def ValidDisable (enable : CommandRef) (out : Bytes) : Prop :=
  ∃ d : CommandRef,parseCommands out=.ok [d] ∧ d.name=enable.name ∧
    out.length=enable.raw.length ∧ parseEnableFlag d.body=some false

/-- A synthesized disable is valid exactly when the enable has a body. -/
theorem validDisable_iff {enable : CommandRef}
    (h : isAudioLevelsSubscribe enable.name=true) :
    ValidDisable enable (synthesizeAudioDisable enable.raw) ↔ enable.body≠[] := by
  constructor
  · rintro ⟨d,hparse,hname,_⟩ hempty
    obtain ⟨other,hraw,hno⟩ := disable_of_empty_body hempty
    rw [←hraw,parseCommands_raw,Except.ok.injEq,List.cons.injEq] at hparse
    rw [hparse.1,hname,h] at hno
    cases hno
  · intro hbody
    obtain ⟨d,hraw,hname,hlen,hflag⟩ := disable_of_body hbody
    rw [←hraw]
    exact ⟨d,parseCommands_raw d,hname,hlen,hflag⟩

/-- In every reachable state the disable for the last subscriber is made from
the latest enable, and it is valid exactly when that enable has a body. -/
theorem emitted_disable_valid_iff (policy : FilterPolicy) (calls : List FilterCall)
    (addr : SocketAddr) (h : LastSubscriber (filterRun (.new policy) calls).1 addr) :
    ∃ enable out,latestEnable (audioEvents calls)=some enable ∧
      ((filterRun (.new policy) calls).1.clientDisconnected addr).2=
        out::((filterRun (.new policy) calls).1.policy.locks.clientDisconnected addr).2 ∧
      (ValidDisable enable out ↔ enable.body≠[]) := by
  obtain ⟨t,hrecorded,hfilter,hevents⟩ := recorded_calls policy calls
  rw [←hfilter] at h ⊢
  obtain ⟨enable,hlatest,hlast,hname⟩ := remembered_of_subscriber hrecorded h.1
  refine ⟨enable,synthesizeAudioDisable enable.raw,hevents ▸ hlatest,?_,validDisable_iff hname⟩
  rw [clientDisconnected_sent,if_pos h,hlast]
  rfl

/-- A client that subscribed with the given body. -/
def subscribedWith (body : Bytes) : List FilterCall :=
  [.payload ⟨1,1⟩ (serializeCommand (tag 'S' 'A' 'L' 'N') body)]

/-- The enable of the test has a body, and its disable is valid. -/
theorem emitted_disable_valid_with_body :
    LastSubscriber (filterRun denyFilter (subscribedWith [1])).1 ⟨1,1⟩ ∧
      ∃ enable out,latestEnable (audioEvents (subscribedWith [1]))=some enable ∧
        ((filterRun denyFilter (subscribedWith [1])).1.clientDisconnected ⟨1,1⟩).2=
          out::((filterRun denyFilter (subscribedWith [1])).1.policy.locks.clientDisconnected
            ⟨1,1⟩).2 ∧
        (ValidDisable enable out ↔ enable.body≠[]) := by
  have hlast : LastSubscriber (filterRun denyFilter (subscribedWith [1])).1 ⟨1,1⟩ := by
    decide +kernel
  exact ⟨hlast,emitted_disable_valid_iff ⟨.deny,.new,.new {}⟩ (subscribedWith [1]) ⟨1,1⟩ hlast⟩

/-- After an enable without a body, the emitted command has another name. -/
theorem emitted_disable_loses_name :
    LastSubscriber (filterRun denyFilter (subscribedWith [])).1 ⟨1,1⟩ ∧
      ((filterRun denyFilter (subscribedWith [])).1.clientDisconnected ⟨1,1⟩).2=
        [[0,8,0,0,83,65,76,0]] ∧
      ∀ enable,latestEnable (audioEvents (subscribedWith []))=some enable →
        ¬ValidDisable enable [0,8,0,0,83,65,76,0] := by
  refine ⟨by decide +kernel,by decide +kernel,?_⟩
  intro enable hlatest
  rintro ⟨d,hparse,hname,_⟩
  have hparsed : ∀ cmds,parseCommands [0,8,0,0,83,65,76,0]=.ok cmds →
      cmds.map CommandRef.name=[⟨83,65,76,0⟩] := by
    intro cmds hcmds
    have hsame := parsedCommands_of_ok hcmds
    rw [←hsame]
    decide
  have hd := hparsed _ hparse
  have henable : (latestEnable (audioEvents (subscribedWith []))).map CommandRef.name=
      some (tag 'S' 'A' 'L' 'N') := by decide +kernel
  rw [hlatest,Option.map_some,Option.some.injEq] at henable
  rw [List.map_singleton,hname,henable] at hd
  exact absurd hd (by decide)

/-- Stores of a client that the switcher reported locked. -/
def lockedStores (b : LockBroker) (addr : SocketAddr) : List UInt16 :=
  b.inner.entries.filterMap (fun entry =>
    if entry.2.owner=some addr ∧ entry.2.upstreamLocked=true then some entry.1 else none)

/-- The broker unlocks each of these stores. -/
theorem clientDisconnected_unlocks (b : LockBroker) (addr : SocketAddr) :
    (b.clientDisconnected addr).2=(lockedStores b addr).map synthesizeUnlock := by
  rw [lockedStores,List.map_filterMap]
  apply List.filterMap_congr
  intro entry _
  split_ifs <;> rfl

/-- Stores that the client owns and the switcher reported locked. -/
theorem mem_lockedStores_iff (b : LockBroker) (addr : SocketAddr) (store : UInt16) :
    store∈lockedStores b addr ↔
      b.ownerOf store=some addr ∧ (b.lockOf store).upstreamLocked=true := by
  rw [←b.mem_clientDisconnected_iff,clientDisconnected_unlocks]
  constructor
  · exact List.mem_map_of_mem
  · intro h
    obtain ⟨other,hm,he⟩ := List.mem_map.mp h
    exact synthesizeUnlock_injective he ▸ hm

/-- Each store is listed once, since the broker has one record of it. -/
theorem lockedStores_nodup (b : LockBroker) (addr : SocketAddr) :
    (lockedStores b addr).Nodup := by
  have hfilter : lockedStores b addr=
      (b.inner.entries.filter (fun entry =>
        decide (entry.2.owner=some addr ∧ entry.2.upstreamLocked=true))).map Prod.fst := by
    rw [lockedStores,←List.filterMap_eq_filter,List.map_filterMap]
    apply List.filterMap_congr
    intro entry _
    by_cases hc : entry.2.owner=some addr ∧ entry.2.upstreamLocked=true <;>
      simp [Option.guard,hc]
  rw [hfilter]
  exact (List.Sublist.map Prod.fst List.filter_sublist).nodup b.inner.nodup

/-- An unlock request reads back as its store. -/
theorem unlock_reads_back (store : UInt16) :
    ∃ cmd : CommandRef,cmd.raw=synthesizeUnlock store ∧ isLockRequest cmd.name=true ∧
      lockStoreId cmd.body=some store ∧ lockRequestEnabled cmd.body=false := by
  refine ⟨serializedRef (tag 'L' 'O' 'C' 'K') [highByte store,lowByte store,0,0] ?_,rfl,?_,?_,?_⟩
  · simp only [List.length_cons,List.length_nil]
    omega
  · exact (by decide : isLockRequest (tag 'L' 'O' 'C' 'K')=true)
  · exact congrArg some (beWord_split store)
  · rfl

/-- A released record has another owner or none. -/
theorem release_owner_ne (entry : StoreLock) (addr : SocketAddr) :
    (entry.release addr).owner≠some addr := by
  unfold StoreLock.release
  split_ifs with ho
  · exact (Option.some_ne_none addr).symm
  · exact ho

/-- A second disconnect finds no lock to release. -/
theorem locks_clientDisconnected_twice (b : LockBroker) (addr : SocketAddr) :
    (b.clientDisconnected addr).1.clientDisconnected addr=((b.clientDisconnected addr).1,[]) := by
  have hagain : ∀ entry : StoreLock,(entry.release addr).release addr=entry.release addr :=
    fun entry => if_neg (release_owner_ne entry addr)
  unfold LockBroker.clientDisconnected
  refine Prod.ext ?_ ?_
  · dsimp only
    congr 1
    apply OrderedMap.ext
    dsimp only [OrderedMap.mapValues]
    rw [List.map_map]
    apply List.map_congr_left
    intro entry _
    simp only [Function.comp_apply,hagain]
  · dsimp only [OrderedMap.mapValues]
    rw [List.filterMap_map,List.filterMap_eq_nil_iff]
    intro entry _
    exact if_neg (fun h => release_owner_ne entry.2 addr h.1)

/-- Only transfers of other clients go on. -/
theorem lane_clientDisconnected_active (lane : TransferLane) (addr : SocketAddr)
    (active : ActiveTransfer) :
    (lane.clientDisconnected addr).active=some active ↔
      lane.active=some active ∧ active.owner≠addr := by
  unfold TransferLane.clientDisconnected TransferLane.currentOwner
  cases ha : lane.active with
  | none =>
    simp only [Option.map_none,reduceCtorEq,if_false,ha,false_and]
  | some current =>
    by_cases ho : current.owner=addr
    · rw [Option.map_some,if_pos (congrArg some ho)]
      simp only [TransferLane.clear,reduceCtorEq,Option.some.injEq,false_iff,not_and,not_not]
      rintro rfl
      exact ho
    · rw [Option.map_some,if_neg (fun h => ho (Option.some.inj h)),ha,Option.some.injEq]
      constructor
      · rintro rfl
        exact ⟨rfl,ho⟩
      · exact And.left

/-- A second disconnect finds no transfer to abandon. -/
theorem lane_clientDisconnected_twice (lane : TransferLane) (addr : SocketAddr) :
    (lane.clientDisconnected addr).clientDisconnected addr=lane.clientDisconnected addr := by
  have hno : (lane.clientDisconnected addr).currentOwner≠some addr := by
    intro h
    obtain ⟨active,ha,ho⟩ := Option.map_eq_some_iff.mp h
    exact ((lane_clientDisconnected_active lane addr active).mp ha).2 ho
  rw [TransferLane.clientDisconnected,if_neg hno]

/-- The returned byte strings: each one a command, an audio command for the
last subscriber only, and one unlock per locked store of the client. -/
def ReturnsCleanup (f : CommandFilter) (addr : SocketAddr) : Prop :=
  ∃ audio unlocks : List CommandRef,∃ stores : List UInt16,
    List.Forall₂ (fun raw cmd => parseCommands raw=.ok [cmd]) (f.clientDisconnected addr).2
      (audio++unlocks) ∧
    (∀ cmd∈audio,isAudioLevelsSubscribe cmd.name=true) ∧
    audio.length=(if LastSubscriber f addr then 1 else 0) ∧
    stores.Nodup ∧
    (∀ store,store∈stores ↔ f.policy.locks.ownerOf store=some addr ∧
      (f.policy.locks.lockOf store).upstreamLocked=true) ∧
    List.Forall₂ (fun store cmd => isLockRequest cmd.name=true ∧
      lockStoreId cmd.body=some store ∧ lockRequestEnabled cmd.body=false) stores unlocks

/-- Cleanup of a client is complete, leaves the others alone and is done once. -/
structure CleanedUp (f : CommandFilter) (addr : SocketAddr) : Prop where
  /-- The client is no subscriber. -/
  unsubscribed : addr∉(f.clientDisconnected addr).1.audio.clients
  /-- The client owns no store. -/
  storeless : ∀ store,(f.clientDisconnected addr).1.policy.locks.ownerOf store≠some addr
  /-- The client does not own the lane. -/
  laneless : (f.clientDisconnected addr).1.policy.transfer.currentOwner≠some addr
  /-- Other subscriptions are unchanged. -/
  otherSubscribers : ∀ other≠addr,
    other∈(f.clientDisconnected addr).1.audio.clients ↔ other∈f.audio.clients
  /-- The stores of other clients are unchanged. -/
  otherStores : ∀ other≠addr,∀ entry : StoreLock,entry.owner=some other → ∀ store,
    (f.clientDisconnected addr).1.policy.locks.lockOf store=entry ↔
      f.policy.locks.lockOf store=entry
  /-- The transfer of another client is unchanged. -/
  otherLane : ∀ active : ActiveTransfer,active.owner≠addr →
    ((f.clientDisconnected addr).1.policy.transfer.active=some active ↔
      f.policy.transfer.active=some active)
  /-- The returned commands are those of the cleanup. -/
  returned : ReturnsCleanup f addr
  /-- A second cleanup finds nothing to do. -/
  again : (f.clientDisconnected addr).1.clientDisconnected addr=((f.clientDisconnected addr).1,[])

/-- Records of other owners are not touched by a release. -/
theorem release_eq_iff {entry other : StoreLock} {addr : SocketAddr}
    (h : other.owner≠none) (hne : other.owner≠some addr) :
    entry.release addr=other ↔ entry=other := by
  unfold StoreLock.release
  split_ifs with ho
  · constructor
    · rintro rfl
      exact absurd rfl h
    · rintro rfl
      exact absurd ho hne
  · exact Iff.rfl

/-- The unlocks of the broker as commands. -/
theorem unlock_commands (stores : List UInt16) :
    ∃ unlocks : List CommandRef,unlocks.map CommandRef.raw=stores.map synthesizeUnlock ∧
      List.Forall₂ (fun store cmd => isLockRequest cmd.name=true ∧
        lockStoreId cmd.body=some store ∧ lockRequestEnabled cmd.body=false) stores unlocks := by
  induction stores with
  | nil => exact ⟨[],rfl,.nil⟩
  | cons store stores ih =>
    obtain ⟨cmd,hraw,hreads⟩ := unlock_reads_back store
    obtain ⟨unlocks,hraws,hall⟩ := ih
    refine ⟨cmd::unlocks,?_,.cons hreads hall⟩
    rw [List.map_cons,List.map_cons,hraw,hraws]

/-- Frames parse into their commands one by one. -/
theorem forall₂_parse_raws (cmds : List CommandRef) :
    List.Forall₂ (fun raw cmd => parseCommands raw=.ok [cmd]) (cmds.map CommandRef.raw) cmds := by
  induction cmds with
  | nil => exact .nil
  | cons cmd cmds ih => exact .cons (parseCommands_raw cmd) ih

/-- The cleanup returns what it should when the disable is an audio command. -/
theorem returnsCleanup_of_audio {f : CommandFilter} {addr : SocketAddr} (audio : List CommandRef)
    (hsent : (if LastSubscriber f addr then
      (f.audio.lastEnable.map synthesizeAudioDisable).toList else [])=audio.map CommandRef.raw)
    (hname : ∀ cmd∈audio,isAudioLevelsSubscribe cmd.name=true)
    (hcount : audio.length=(if LastSubscriber f addr then 1 else 0)) :
    ReturnsCleanup f addr := by
  obtain ⟨unlocks,hraws,hreads⟩ := unlock_commands (lockedStores f.policy.locks addr)
  refine ⟨audio,unlocks,lockedStores f.policy.locks addr,?_,hname,hcount,
    lockedStores_nodup _ _,mem_lockedStores_iff _ _,hreads⟩
  rw [clientDisconnected_sent,hsent,clientDisconnected_unlocks,←hraws,←List.map_append]
  exact forall₂_parse_raws (audio++unlocks)

/-- Returned commands of a last subscriber hold an audio command only if the
remembered enable has a body. -/
theorem body_of_returnsCleanup {f : CommandFilter} {addr : SocketAddr}
    (h : ReturnsCleanup f addr) (hlast : LastSubscriber f addr) {cmd : CommandRef}
    (henable : f.audio.lastEnable=some cmd.raw) : cmd.body≠[] := by
  intro hempty
  obtain ⟨audio,unlocks,_,hparse,hname,hcount,_⟩ := h
  obtain ⟨d,hraw,hno⟩ := disable_of_empty_body hempty
  rw [if_pos hlast] at hcount
  obtain ⟨first,rfl⟩ := List.length_eq_one_iff.mp hcount
  rw [clientDisconnected_sent,if_pos hlast,henable,Option.map_some,Option.toList_some,
    ←hraw] at hparse
  cases hparse with
  | cons hfirst _ =>
    rw [parseCommands_raw,Except.ok.injEq,List.cons.injEq] at hfirst
    rw [hfirst.1,hname first (List.mem_singleton_self _)] at hno
    cases hno

/-- In a recorded state the returned commands are right exactly when the
disable can be made. -/
theorem returnsCleanup_iff {t : AudioTrace} (h : Recorded t) (addr : SocketAddr) :
    ReturnsCleanup t.filter addr ↔
      (LastSubscriber t.filter addr →
        ∀ cmd : CommandRef,t.filter.audio.lastEnable=some cmd.raw → cmd.body≠[]) := by
  constructor
  · intro hreturns hlast cmd henable
    exact body_of_returnsCleanup hreturns hlast henable
  · intro hbody
    by_cases hlast : LastSubscriber t.filter addr
    · obtain ⟨cmd,_,henable,hname⟩ := remembered_of_subscriber h hlast.1
      obtain ⟨d,hraw,hd,_⟩ := disable_of_body (hbody hlast cmd henable)
      apply returnsCleanup_of_audio [d]
      · rw [if_pos hlast,henable,Option.map_some,Option.toList_some,List.map_singleton,hraw]
      · intro other hm
        rw [List.mem_singleton.mp hm,hd]
        exact hname
      · rw [if_pos hlast]
        rfl
    · apply returnsCleanup_of_audio []
      · rw [if_neg hlast]
        rfl
      · exact fun _ hm => absurd hm List.not_mem_nil
      · rw [if_neg hlast]
        rfl

/-- Everything but the audio command is cleaned up in every state. -/
theorem cleanedUp_of_returned {f : CommandFilter} {addr : SocketAddr}
    (h : ReturnsCleanup f addr) : CleanedUp f addr where
  unsubscribed := Finset.notMem_erase addr _
  storeless store ho := (LockBroker.ownerOf_clientDisconnected ho).2 rfl
  laneless := by
    intro ho
    obtain ⟨active,ha,rfl⟩ := Option.map_eq_some_iff.mp ho
    exact ((lane_clientDisconnected_active _ _ active).mp ha).2 rfl
  otherSubscribers other hne := by
    have herase : (f.clientDisconnected addr).1.audio.clients=f.audio.clients.erase addr := rfl
    rw [herase,Finset.mem_erase,and_iff_right hne]
  otherStores other hne entry ho store := by
    have hrelease := f.policy.locks.lockOf_clientDisconnected addr store
    have hlocks : (f.clientDisconnected addr).1.policy.locks=
        (f.policy.locks.clientDisconnected addr).1 := rfl
    rw [hlocks,hrelease]
    apply release_eq_iff
    · rw [ho]
      exact Option.some_ne_none other
    · rw [ho]
      exact fun he => hne (Option.some.inj he)
  otherLane active hne := by
    have hlane : (f.clientDisconnected addr).1.policy.transfer=
        f.policy.transfer.clientDisconnected addr := rfl
    rw [hlane,lane_clientDisconnected_active,and_iff_left hne]
  returned := h
  again := by
    have hgone : ¬LastSubscriber (f.clientDisconnected addr).1 addr :=
      fun hlast => absurd hlast.1 (Finset.notMem_erase addr _)
    have hlocks := locks_clientDisconnected_twice f.policy.locks addr
    refine Prod.ext ?_ ?_
    · simp only [CommandFilter.clientDisconnected,hlocks,lane_clientDisconnected_twice,
        Finset.erase_idem]
    · have hsame : (f.clientDisconnected addr).1.policy.locks=
          (f.policy.locks.clientDisconnected addr).1 := rfl
      rw [clientDisconnected_sent,if_neg hgone,hsame,hlocks]
      rfl

/-- In every reachable state the cleanup of any address is complete, exact and
idempotent, exactly when the enable that a disable would be made from has a body. -/
theorem cleanup_exact_iff (policy : FilterPolicy) (calls : List FilterCall) (addr : SocketAddr) :
    CleanedUp (filterRun (.new policy) calls).1 addr ↔
      (LastSubscriber (filterRun (.new policy) calls).1 addr →
        ∀ cmd : CommandRef,(filterRun (.new policy) calls).1.audio.lastEnable=some cmd.raw →
          cmd.body≠[]) := by
  obtain ⟨t,hrecorded,hfilter,_⟩ := recorded_calls policy calls
  rw [←hfilter,←returnsCleanup_iff hrecorded addr]
  exact ⟨CleanedUp.returned,cleanedUp_of_returned⟩

/-- After an enable without a body the last subscriber is cleaned up without
an audio command. -/
theorem cleanup_without_audio_command :
    LastSubscriber (filterRun denyFilter (subscribedWith [])).1 ⟨1,1⟩ ∧
      ((filterRun denyFilter (subscribedWith [])).1.clientDisconnected ⟨1,1⟩).2=
        [[0,8,0,0,83,65,76,0]] ∧
      ¬CleanedUp (filterRun denyFilter (subscribedWith [])).1 ⟨1,1⟩ := by
  have hlast : LastSubscriber (filterRun denyFilter (subscribedWith [])).1 ⟨1,1⟩ := by
    decide +kernel
  refine ⟨hlast,by decide +kernel,fun h => ?_⟩
  have henable : (filterRun denyFilter (subscribedWith [])).1.audio.lastEnable=
      some (serializedRef (tag 'S' 'A' 'L' 'N') [] (by decide)).raw := by decide +kernel
  exact body_of_returnsCleanup h.returned hlast henable rfl

end AtemProxy.DisconnectCleanup
