import AtemProxy.CommandEpochs

/-!
# The stream of commands towards the switcher

Two tasks of the server put commands into one channel, and the session with the
switcher takes them out, collects them and packs them. As long as the session lasts,
what it packed, what it collected and what waits in the channel is one stream: the
commands the channel held when the session began, followed by those put since, in the
order in which they were put. Byte strings without a frame header fall out of it.
-/

namespace AtemProxy.CommandStreams

open BigEndian ReliableTransport SenderLedgers PackedBatches UpstreamSessions GuardedRuns
  ProxyTasks SessionEpochs ProxySystem CommandEpochs

/-- Commands with a frame header. -/
def long (cmds : List Command) : List Command := cmds.filter (fun cmd => decide (8≤cmd.raw.length))

/-- Commands that are long enough, in two lists. -/
theorem long_append (first second : List Command) :
    long (first++second)=long first++long second := List.filter_append ..

/-- The same for one more command. -/
theorem long_cons (cmd : Command) (cmds : List Command) :
    long (cmd::cmds)=(if 8≤cmd.raw.length then [cmd] else [])++long cmds := by
  unfold long
  rw [List.filter_cons]
  by_cases h : 8≤cmd.raw.length
  · rw [if_pos (decide_eq_true h),if_pos h,List.singleton_append]
  · rw [if_neg (by rw [decide_eq_true_iff]; exact h),if_neg h,List.nil_append]

/-- Commands the session took so far, those already packed first. -/
def taken (u : UpstreamSession) : List Command := u.packed++u.pending

/-- Everything the session took or will take from the channel as it is. -/
def stream (x : System) (u : UpstreamSession) : List Command := taken u++long x.channel

/-- The tasks that put commands into the channel. -/
inductive Producer where
  /-- The datagram handler. -/
  | handler
  /-- The tick, with the commands of its cleanups. -/
  | cleanup
  deriving DecidableEq

/-- Commands that a step puts into the channel, with the task that puts them. -/
def putsBy (x : System) : SystemAction → List (Producer×Command)
  | .putForward => x.forwards.head?.toList.map (fun raw => (.handler,⟨raw,x.ended⟩))
  | .putCleanup => x.cleanups.head?.toList.map (fun raw => (.cleanup,⟨raw,x.ended⟩))
  | _ => []

/-- The commands alone. -/
def puts (x : System) (a : SystemAction) : List Command := (putsBy x a).map Prod.snd

/-- The step neither begins nor ends a session. -/
def keepsSession : SystemAction → Bool
  | .connect _ _ => false
  | .endSession => false
  | _ => true

/-- Calls to the endpoint move no command. -/
theorem taken_call (u : UpstreamSession) (c : EndpointCall) : taken (u.call c)=taken u := rfl

/-- Packing moves commands, but takes none. -/
theorem taken_pack (u : UpstreamSession) : taken u.pack=taken u := by
  unfold taken UpstreamSession.pack
  rw [List.append_nil]

/-- A command that is long enough is taken. -/
theorem taken_take (u : UpstreamSession) (cmd : Command) :
    taken (u.take cmd)=taken u++if 8≤cmd.raw.length then [cmd] else [] := by
  unfold taken UpstreamSession.take
  split
  · exact (List.append_assoc ..).symm
  · exact (List.append_nil _).symm

/-- The session takes the command that wakes it. -/
theorem taken_wake (u : UpstreamSession) (cmd : Command) :
    taken (u.wake cmd)=taken u++if 8≤cmd.raw.length then [cmd] else [] := by
  have htake := taken_take u cmd
  unfold UpstreamSession.wake
  split
  · rename_i hlong
    rw [if_pos hlong] at htake
    exact htake
  · exact (List.append_nil _).symm

/-- A flush takes nothing. -/
theorem taken_flush (u : UpstreamSession) (now elapsedAt ackAt : Instant) :
    taken (u.flush now elapsedAt ackAt)=taken u := taken_pack u

/-- A tick takes nothing. -/
theorem taken_tick (u : UpstreamSession) (now elapsedAt ackAt : Instant) :
    taken (u.tick now elapsedAt ackAt)=taken u := by
  unfold UpstreamSession.tick
  dsimp only
  split
  · exact taken_call u _
  · exact (taken_call u.pack _).trans (taken_pack u)

/-- A header takes nothing. -/
theorem taken_onHeader (u : UpstreamSession) (header : PacketCodec.PacketHeader) :
    taken (u.onHeader header)=taken u := by
  unfold UpstreamSession.onHeader
  dsimp only
  split <;> split <;> rfl

/-- A datagram of the switcher takes nothing. -/
theorem taken_onDatagram (u : UpstreamSession) (data : Bytes) (clock : Instant) :
    taken (u.onDatagram data clock).1=taken u := by
  unfold UpstreamSession.onDatagram
  dsimp only
  split
  · rfl
  · rename_i header payload _
    have hheader := taken_onHeader (u.call (.noteRecv clock)) header
    split
    · exact hheader
    · split
      · exact (taken_call _ _).trans hheader
      · exact hheader

/-- Nor do the operations of the upstream task. -/
theorem taken_sessionAfter {s : Proxy} {u v : UpstreamSession}
    (h : sessionAfter s (some u)=some v) : taken v=taken u := by
  obtain ⟨w,hw,rfl | rfl⟩ := sessionAfter_eq_some h
  · rw [Option.some.injEq] at hw
    rw [hw]
  · rw [Option.some.injEq] at hw
    rw [hw]
    rfl

/-- A property that calls, packing and taking a command keep is kept by every step within
the session. -/
theorem SessionRule.step {P : UpstreamSession → Prop} (hrule : SessionRule P)
    (htake : ∀ w cmd,P w → P (w.take cmd)) {x y : System} {a : SystemAction}
    {u : UpstreamSession} (hu : x.session=some u) (ha : keepsSession a=true)
    (h : systemStep x a=some y) (hP : P u) : ∃ v,y.session=some v ∧ P v := by
  cases moved_of_systemStep h with
  | upstream t _ =>
    dsimp only
    rw [hu]
    unfold sessionAfter
    split
    · exact ⟨_,rfl,hrule.call hP rfl⟩
    · exact ⟨u,rfl,hP⟩
  | quiet a t _ _ => exact ⟨u,hu,hP⟩
  | handler clock replied t _ => exact ⟨u,hu,hP⟩
  | cleanup t _ => exact ⟨u,hu,hP⟩
  | connect reply clock v _ _ _ => cases ha
  | endSession t _ => cases ha
  | heard v data clock hv =>
    rw [hu,Option.some.injEq] at hv
    subst hv
    exact ⟨_,rfl,hrule.onDatagram hP data clock⟩
  | handled v data clock payload t hv _ _ =>
    rw [hu,Option.some.injEq] at hv
    subst hv
    exact ⟨_,rfl,hrule.onDatagram hP data clock⟩
  | woke v cmd channel hv _ =>
    rw [hu,Option.some.injEq] at hv
    subst hv
    exact ⟨_,rfl,hrule.wake hP (htake u cmd hP)⟩
  | took v now elapsedAt ackAt cmd channel hv _ =>
    rw [hu,Option.some.injEq] at hv
    subst hv
    exact ⟨_,rfl,htake u cmd hP⟩
  | flushed v now elapsedAt ackAt hv _ =>
    rw [hu,Option.some.injEq] at hv
    subst hv
    exact ⟨_,rfl,hrule.flush hP now elapsedAt ackAt⟩
  | ticked v clock now elapsedAt ackAt hv =>
    rw [hu,Option.some.injEq] at hv
    subst hv
    exact ⟨_,rfl,hrule.tick hP now elapsedAt ackAt⟩
  | putForward raw forwards _ => exact ⟨u,hu,hP⟩
  | putCleanup raw cleanups _ => exact ⟨u,hu,hP⟩

/-- The payloads of the endpoint are made of the commands it packed, in every step of
the session. -/
theorem freshSession_step {x y : System} {a : SystemAction} {u : UpstreamSession}
    (hu : x.session=some u) (ha : keepsSession a=true) (h : systemStep x a=some y)
    (hfresh : FreshSession 0 u) : ∃ v,y.session=some v ∧ FreshSession 0 v :=
  SessionRule.step (sessionRule_fresh 0)
    (fun _ cmd hw => hw.take (fun _ => Nat.zero_le cmd.epoch)) hu ha h hfresh

/-- A step of a session adds to its stream what it puts into the channel. -/
theorem stream_step {x y : System} {a : SystemAction} {u : UpstreamSession}
    (hu : x.session=some u) (ha : keepsSession a=true) (h : systemStep x a=some y) :
    ∃ v,y.session=some v ∧ stream y v=stream x u++long (puts x a) := by
  have hnothing : long (([] : List (Producer×Command)).map Prod.snd)=[] := rfl
  unfold stream
  cases moved_of_systemStep h with
  | upstream t _ =>
    dsimp only [puts,putsBy]
    rw [hu,hnothing,List.append_nil]
    have hsession : ∃ v,sessionAfter x.proxy (some u)=some v := by
      unfold sessionAfter
      split
      · exact ⟨_,rfl⟩
      · exact ⟨_,rfl⟩
    obtain ⟨v,hv⟩ := hsession
    exact ⟨v,hv,by rw [taken_sessionAfter hv]⟩
  | quiet a t _ _ =>
    dsimp only [puts,putsBy]
    exact ⟨u,hu,by rw [hnothing,List.append_nil]⟩
  | handler clock replied t _ =>
    dsimp only [puts,putsBy]
    exact ⟨u,hu,by rw [hnothing,List.append_nil]⟩
  | cleanup t _ =>
    dsimp only [puts,putsBy]
    exact ⟨u,hu,by rw [hnothing,List.append_nil]⟩
  | connect reply clock v _ _ _ => cases ha
  | endSession t _ => cases ha
  | heard v data clock hv =>
    rw [hu,Option.some.injEq] at hv
    subst hv
    dsimp only [puts,putsBy]
    exact ⟨_,rfl,by rw [taken_onDatagram,hnothing,List.append_nil]⟩
  | handled v data clock payload t hv _ _ =>
    rw [hu,Option.some.injEq] at hv
    subst hv
    dsimp only [puts,putsBy]
    exact ⟨_,rfl,by rw [taken_onDatagram,hnothing,List.append_nil]⟩
  | woke v cmd channel hv hnext =>
    rw [hu,Option.some.injEq] at hv
    subst hv
    dsimp only [puts,putsBy]
    refine ⟨_,rfl,?_⟩
    rw [taken_wake,hnext,long_cons,hnothing,List.append_nil,List.append_assoc]
  | took v now elapsedAt ackAt cmd channel hv hnext =>
    rw [hu,Option.some.injEq] at hv
    subst hv
    dsimp only [puts,putsBy]
    refine ⟨_,rfl,?_⟩
    rw [taken_take,hnext,long_cons,hnothing,List.append_nil,List.append_assoc]
  | flushed v now elapsedAt ackAt hv hempty =>
    rw [hu,Option.some.injEq] at hv
    subst hv
    dsimp only [puts,putsBy]
    exact ⟨_,rfl,by rw [taken_flush,hnothing,List.append_nil]⟩
  | ticked v clock now elapsedAt ackAt hv =>
    rw [hu,Option.some.injEq] at hv
    subst hv
    dsimp only [puts,putsBy]
    exact ⟨_,rfl,by rw [taken_tick,hnothing,List.append_nil]⟩
  | putForward raw forwards hnext =>
    dsimp only [puts,putsBy]
    rw [hnext]
    exact ⟨u,hu,by rw [long_append,List.append_assoc]; rfl⟩
  | putCleanup raw cleanups hnext =>
    dsimp only [puts,putsBy]
    rw [hnext]
    exact ⟨u,hu,by rw [long_append,List.append_assoc]; rfl⟩

/-- Concatenated bytes of commands. -/
def streamBytes (cmds : List Command) : Bytes := joined Command.raw cmds

/-- The payloads a session queued concatenate to the commands it packed. -/
theorem queued_flatten {ended : ℕ} {u : UpstreamSession} (h : FreshSession ended u) :
    u.ledger.queued.flatten=streamBytes u.packed := by
  obtain ⟨groups,hgroups,hqueued⟩ := h.grouped
  rw [←hqueued,←hgroups]
  clear hqueued hgroups
  induction groups with
  | nil => rfl
  | cons group groups ih =>
    rw [List.map_cons,List.flatten_cons,List.flatten_cons,ih]
    exact (joined_append Command.raw group groups.flatten).symm

/-- Packed commands are the first ones of the stream. -/
theorem streamBytes_packed (x : System) (u : UpstreamSession) :
    streamBytes u.packed<+:streamBytes (stream x u) := by
  unfold streamBytes stream taken
  rw [List.append_assoc,joined_append]
  exact List.prefix_append _ _

end AtemProxy.CommandStreams
