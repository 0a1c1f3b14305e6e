import AtemProxy.FilterPassage
import AtemProxy.AnswerRuns
import AtemProxy.LastWrites

/-!
# Runs of the fan-in filter

The filter is called with client payloads and with disconnected clients;
the tasks it shares the broker and the lane with change those in between.
A payload call is taken apart into its commands, so that the state between
two commands of one payload is a state of the run. Beside the filter a
trace keeps the audio commands sent upstream and what the clients asked for.
-/

namespace AtemProxy.FilterRuns

open BigEndian PacketCodec CommandFrames KeyedMaps LockStores TransferLanes ProxyConfig
  CommandPolicy AudioAgreement ForwardGrants FilterPassage LastWrites AnswerRuns GuardedRuns

/-- What other tasks do to the broker and the lane of the filter. -/
inductive SharedChange where
  /-- The broker is told about an upstream payload. -/
  | lockStatus (payload : Bytes)
  /-- All locks are cleared. -/
  | locksCleared
  /-- The lane is cleared. -/
  | laneCleared

/-- Policy after a shared change. -/
def SharedChange.apply (policy : FilterPolicy) : SharedChange → FilterPolicy
  | .lockStatus payload => {policy with locks := policy.locks.onUpstreamLockStatus payload}
  | .locksCleared => {policy with locks := policy.locks.clear}
  | .laneCleared => {policy with transfer := policy.transfer.clear}

/-- Calls that change the filter. -/
inductive FilterCall where
  /-- A client payload is processed. -/
  | payload (sender : SocketAddr) (bytes : Bytes)
  /-- A client is gone. -/
  | disconnected (addr : SocketAddr)
  /-- Another task changes the policy. -/
  | shared (change : SharedChange)

/-- Filter after a call, and the byte strings to send upstream. -/
def FilterCall.answer (f : CommandFilter) : FilterCall → CommandFilter×List Bytes
  | .payload sender bytes =>
    let result := f.processPayload sender bytes
    (result.1,result.2.flatMap FilterAction.forwarded)
  | .disconnected addr => f.clientDisconnected addr
  | .shared change => ({f with policy := change.apply f.policy},[])

/-- Filter and everything sent upstream after a list of calls. -/
def filterRun (f : CommandFilter) (calls : List FilterCall) : CommandFilter×List Bytes :=
  answers FilterCall.answer f calls

/-- Parts of calls: one command, or a whole call without commands. -/
inductive FilterStep where
  /-- One command of a parsed payload. -/
  | command (sender : SocketAddr) (cmd : CommandRef)
  /-- A payload that does not parse. -/
  | unparsed (payload : Bytes)
  /-- A client is gone. -/
  | disconnected (addr : SocketAddr)
  /-- Another task changes the policy. -/
  | shared (change : SharedChange)

/-- Filter after a step, and the byte strings to send upstream. -/
def FilterStep.answer (f : CommandFilter) : FilterStep → CommandFilter×List Bytes
  | .command sender cmd =>
    let result := f.processCommand sender cmd
    (result.1,result.2.forwarded)
  | .unparsed payload => (f,[payload])
  | .disconnected addr => f.clientDisconnected addr
  | .shared change => ({f with policy := change.apply f.policy},[])

/-- Steps of a call. -/
def FilterCall.steps : FilterCall → List FilterStep
  | .payload sender bytes =>
    match parseCommands bytes with
    | .error _ => [.unparsed bytes]
    | .ok cmds => cmds.map (.command sender)
  | .disconnected addr => [.disconnected addr]
  | .shared change => [.shared change]

/-- The commands of a payload are answered one by one. -/
theorem answers_commands (f : CommandFilter) (sender : SocketAddr) (cmds : List CommandRef) :
    answers FilterStep.answer f (cmds.map (.command sender))=
      ((f.processCommands sender cmds).1,
        (f.processCommands sender cmds).2.flatMap FilterAction.forwarded) := by
  induction cmds generalizing f with
  | nil => rfl
  | cons cmd cmds ih =>
    rw [List.map_cons]
    simp only [answers,ih,FilterStep.answer,CommandFilter.processCommands,List.flatMap_cons]

/-- A call is the run of its steps. -/
theorem answers_steps (f : CommandFilter) (call : FilterCall) :
    answers FilterStep.answer f call.steps=call.answer f := by
  cases call with
  | payload sender bytes =>
    simp only [FilterCall.steps,FilterCall.answer,CommandFilter.processPayload]
    cases parseCommands bytes with
    | error e => rfl
    | ok cmds => exact answers_commands f sender cmds
  | disconnected addr =>
    simp only [FilterCall.steps,answers,FilterStep.answer,FilterCall.answer,List.append_nil]
  | shared change => rfl

/-- A run of calls is the run of their steps. -/
theorem filterRun_eq_steps (f : CommandFilter) (calls : List FilterCall) :
    answers FilterStep.answer f (calls.flatMap FilterCall.steps)=filterRun f calls :=
  answers_flatMap answers_steps f calls

/-- Audio commands that the switcher reads from the byte strings sent to it. -/
def audioFrames (sent : List Bytes) : List CommandRef :=
  sent.flatMap (fun bytes => (walkFrames bytes).filter
    (fun cmd => isAudioLevelsSubscribe cmd.name))

/-- Audio commands of two lists. -/
theorem audioFrames_append (first second : List Bytes) :
    audioFrames (first++second)=audioFrames first++audioFrames second := List.flatMap_append

/-- A sent frame is an audio command exactly when its name is one. -/
theorem audioFrames_raw (cmd : CommandRef) :
    audioFrames [cmd.raw]=if isAudioLevelsSubscribe cmd.name=true then [cmd] else [] := by
  rw [audioFrames,List.flatMap_singleton,walkFrames_raw,List.filter_singleton,cond_eq_ite]

/-- Byte strings without audio commands. -/
theorem audioFrames_eq_nil {sent : List Bytes}
    (h : ∀ raw∈sent,∃ cmd : CommandRef,raw=cmd.raw ∧ isAudioLevelsSubscribe cmd.name=false) :
    audioFrames sent=[] := by
  apply List.flatMap_eq_nil_iff.mpr
  intro raw hraw
  obtain ⟨cmd,rfl,hname⟩ := h raw hraw
  rw [walkFrames_raw,List.filter_singleton,hname]
  rfl

/-- The client is the only subscriber. -/
def LastSubscriber (f : CommandFilter) (addr : SocketAddr) : Prop :=
  addr∈f.audio.clients ∧ f.audio.clients.erase addr=∅

instance (f : CommandFilter) (addr : SocketAddr) : Decidable (LastSubscriber f addr) :=
  inferInstanceAs (Decidable (_∧_))

/-- Leaving empties the set exactly when it was empty or the client the last one. -/
theorem erase_eq_empty_iff (f : CommandFilter) {addr : SocketAddr} (h : ¬LastSubscriber f addr) :
    f.audio.clients.erase addr=∅ ↔ f.audio.clients=∅ := by
  constructor
  · intro he
    have hno : addr∉f.audio.clients := fun hm => h ⟨hm,he⟩
    rwa [Finset.erase_eq_of_notMem hno] at he
  · intro he
    rw [he,Finset.erase_empty]

/-- An enable is an edge when nobody is subscribed. -/
theorem audioEdge_enable (subs : AudioSubs) (sender : SocketAddr) (raw : Bytes) :
    audioEdge subs.clients.card (subs.update sender true raw).clients.card=
      if subs.clients=∅ then some true else none := by
  have hpos : 0<(insert sender subs.clients).card :=
    Finset.card_pos.mpr (Finset.insert_nonempty _ _)
  have hupdate : (subs.update sender true raw).clients=insert sender subs.clients := rfl
  rw [hupdate,audioEdge]
  by_cases he : subs.clients=∅
  · rw [if_pos ⟨Finset.card_eq_zero.mpr he,hpos⟩,if_pos he]
  · have hno : ¬subs.clients.card=0 := fun hz => he (Finset.card_eq_zero.mp hz)
    rw [if_neg (fun h => hno h.1),if_neg (by omega),if_neg he]

/-- A disable is an edge when its sender is the last subscriber. -/
theorem audioEdge_disable (f : CommandFilter) (sender : SocketAddr) (raw : Bytes) :
    audioEdge f.audio.clients.card (f.audio.update sender false raw).clients.card=
      if LastSubscriber f sender then some false else none := by
  have hle := Finset.card_le_card (Finset.erase_subset sender f.audio.clients)
  have hupdate : (f.audio.update sender false raw).clients=f.audio.clients.erase sender := rfl
  rw [hupdate,audioEdge,if_neg (by omega)]
  by_cases hl : LastSubscriber f sender
  · have hpos : 0<f.audio.clients.card := Finset.card_pos.mpr ⟨sender,hl.1⟩
    rw [if_pos ⟨hpos,Finset.card_eq_zero.mpr hl.2⟩,if_pos hl]
  · rw [if_neg hl,if_neg]
    rintro ⟨hpos,hz⟩
    refine hl ⟨?_,Finset.card_eq_zero.mp hz⟩
    by_contra hno
    rw [Finset.erase_eq_of_notMem hno] at hz
    omega

/-- What an audio command does: it updates the subscribers, and on an edge
it is sent as it is. -/
theorem answer_audio {cmd : CommandRef} (h : isAudioLevelsSubscribe cmd.name=true)
    (f : CommandFilter) (sender : SocketAddr) :
    FilterStep.answer f (.command sender cmd)=
      ({f with audio := f.audio.update sender (audioFlag cmd) cmd.raw},
        ((audioEdge f.audio.clients.card
          (f.audio.update sender (audioFlag cmd) cmd.raw).clients.card).map
            (fun _ => cmd.raw)).toList) := by
  have hstate : (f.processAudio sender cmd).1=
      {f with audio := f.audio.update sender (audioFlag cmd) cmd.raw} := rfl
  rw [FilterStep.answer,processCommand_of_audio h]
  rw [hstate,processAudio_action,FilterAction.forwarded]

/-- Audio commands sent for an enable. -/
theorem audioFrames_enable {cmd : CommandRef} (h : isAudioLevelsSubscribe cmd.name=true)
    (hflag : audioFlag cmd=true) (f : CommandFilter) (sender : SocketAddr) :
    audioFrames (FilterStep.answer f (.command sender cmd)).2=
      if f.audio.clients=∅ then [cmd] else [] := by
  rw [answer_audio h,hflag,audioEdge_enable]
  by_cases he : f.audio.clients=∅
  · rw [if_pos he,if_pos he,Option.map_some,Option.toList_some,audioFrames_raw,if_pos h]
  · rw [if_neg he,if_neg he]
    rfl

/-- Audio commands sent for a disable. -/
theorem audioFrames_disabling {cmd : CommandRef} (h : isAudioLevelsSubscribe cmd.name=true)
    (hflag : audioFlag cmd=false) (f : CommandFilter) (sender : SocketAddr) :
    audioFrames (FilterStep.answer f (.command sender cmd)).2=
      if LastSubscriber f sender then [cmd] else [] := by
  rw [answer_audio h,hflag,audioEdge_disable]
  by_cases hl : LastSubscriber f sender
  · rw [if_pos hl,if_pos hl,Option.map_some,Option.toList_some,audioFrames_raw,if_pos h]
  · rw [if_neg hl,if_neg hl]
    rfl

/-- Other commands leave the subscriptions alone and send no audio command. -/
theorem answer_not_audio {cmd : CommandRef} (h : isAudioLevelsSubscribe cmd.name=false)
    (f : CommandFilter) (sender : SocketAddr) :
    (FilterStep.answer f (.command sender cmd)).1.audio=f.audio ∧
      audioFrames (FilterStep.answer f (.command sender cmd)).2=[] := by
  constructor
  · have hno : ¬isAudioLevelsSubscribe cmd.name=true := Bool.eq_false_iff.mp h
    rw [FilterStep.answer,CommandFilter.processCommand,if_neg hno]
    dsimp only
    split_ifs
    · unfold CommandFilter.processLock
      cases f.policy.lockMode <;> rfl
    · unfold CommandFilter.processTransfer
      split_ifs <;> rfl
    · rfl
  · apply audioFrames_eq_nil
    intro raw hraw
    exact ⟨cmd,(faithful_processCommand f sender cmd).unchanged raw hraw,h⟩

/-- A disconnect sends at most a disable and the unlocks of the broker. -/
theorem clientDisconnected_sent (f : CommandFilter) (addr : SocketAddr) :
    (f.clientDisconnected addr).2=
      (if LastSubscriber f addr then (f.audio.lastEnable.map synthesizeAudioDisable).toList
        else [])++(f.policy.locks.clientDisconnected addr).2 := rfl

/-- A disconnect may send one audio disable, made from the latest enable. -/
theorem audioFrames_disconnected (f : CommandFilter) (addr : SocketAddr) :
    audioFrames (FilterStep.answer f (.disconnected addr)).2=
      if LastSubscriber f addr then
        audioFrames (f.audio.lastEnable.map synthesizeAudioDisable).toList
      else [] := by
  have hunlocks : audioFrames (f.policy.locks.clientDisconnected addr).2=[] := by
    apply audioFrames_eq_nil
    intro raw hraw
    obtain ⟨entry,_,he⟩ := List.mem_filterMap.mp hraw
    split_ifs at he
    cases he
    exact ⟨serializedRef (tag 'L' 'O' 'C' 'K') [highByte entry.1,lowByte entry.1,0,0]
      (by simp only [List.length_cons,List.length_nil]; omega),rfl,
      (by decide : isAudioLevelsSubscribe (tag 'L' 'O' 'C' 'K')=false)⟩
  rw [FilterStep.answer,clientDisconnected_sent,audioFrames_append,hunlocks,List.append_nil]
  split_ifs <;> rfl

/-- Audio commands of clients in order; a client without a command is gone. -/
abbrev AudioEvents := List (SocketAddr×Option CommandRef)

/-- What a step means for the subscriptions. -/
def FilterStep.events : FilterStep → AudioEvents
  | .command sender cmd => if isAudioLevelsSubscribe cmd.name=true then [(sender,some cmd)] else []
  | .unparsed _ => []
  | .disconnected addr => [(addr,none)]
  | .shared _ => []

/-- Audio commands and disconnects of a list of calls. -/
def audioEvents (calls : List FilterCall) : AudioEvents :=
  (calls.flatMap FilterCall.steps).flatMap FilterStep.events

/-- The latest audio command of the client is this enable, and the client has
not disconnected since. -/
def Wants (events : AudioEvents) (client : SocketAddr) (cmd : CommandRef) : Prop :=
  lastFor client events=some (some cmd) ∧ audioFlag cmd=true

/-- The latest enable of any client. -/
def latestEnable (events : AudioEvents) : Option CommandRef :=
  ((events.filterMap Prod.snd).filter audioFlag).getLast?

/-- The filter and the audio history up to a state of a run. -/
structure AudioTrace where
  /-- Filter state. -/
  filter : CommandFilter
  /-- Audio commands sent upstream. -/
  sent : List CommandRef
  /-- Audio commands and disconnects of clients. -/
  events : AudioEvents
  /-- Name of the enable that last found no subscriber. -/
  opened : Option CommandName

/-- Trace of a new filter. -/
def AudioTrace.start (policy : FilterPolicy) : AudioTrace := ⟨.new policy,[],[],none⟩

/-- Name of the opening enable after a step. -/
def FilterStep.opens (f : CommandFilter) (opened : Option CommandName) :
    FilterStep → Option CommandName
  | .command _ cmd =>
    if isAudioLevelsSubscribe cmd.name=true ∧ audioFlag cmd=true ∧ f.audio.clients=∅ then
      some cmd.name
    else opened
  | .unparsed _ => opened
  | .disconnected _ => opened
  | .shared _ => opened

/-- Trace after a step. -/
def AudioTrace.next (t : AudioTrace) (step : FilterStep) : AudioTrace where
  filter := (step.answer t.filter).1
  sent := t.sent++audioFrames (step.answer t.filter).2
  events := t.events++step.events
  opened := step.opens t.filter t.opened

/-- The step function of runs; every step is possible in every state. -/
def traceStep (t : AudioTrace) (step : FilterStep) : Option AudioTrace := some (t.next step)

/-- The trace of a run keeps the filter, what was sent and what was asked. -/
theorem run_traceStep (t : AudioTrace) (steps : List FilterStep) :
    ∃ last,run traceStep t steps=some last ∧
      last.filter=(answers FilterStep.answer t.filter steps).1 ∧
      last.sent=t.sent++audioFrames (answers FilterStep.answer t.filter steps).2 ∧
      last.events=t.events++steps.flatMap FilterStep.events := by
  induction steps generalizing t with
  | nil => exact ⟨t,rfl,rfl,(List.append_nil _).symm,(List.append_nil _).symm⟩
  | cons step steps ih =>
    obtain ⟨last,hrun,hfilter,hsent,hevents⟩ := ih (t.next step)
    refine ⟨last,hrun,hfilter,?_,?_⟩
    · rw [hsent]
      simp only [answers,AudioTrace.next,audioFrames_append,List.append_assoc]
    · rw [hevents]
      simp only [AudioTrace.next,List.flatMap_cons,List.append_assoc]

/-- The trace of a list of calls. -/
theorem run_calls (policy : FilterPolicy) (calls : List FilterCall) :
    ∃ last,run traceStep (.start policy) (calls.flatMap FilterCall.steps)=some last ∧
      last.filter=(filterRun (.new policy) calls).1 ∧
      last.sent=audioFrames (filterRun (.new policy) calls).2 ∧
      last.events=audioEvents calls := by
  have hrun := run_traceStep (.start policy) (calls.flatMap FilterCall.steps)
  rwa [show (AudioTrace.start policy).filter=.new policy from rfl,filterRun_eq_steps] at hrun

/-- The latest event of a client after one more. -/
theorem lastFor_concat (events : AudioEvents) (client other : SocketAddr)
    (event : Option CommandRef) :
    lastFor client (events++[(other,event)])=
      if other=client then some event else lastFor client events := by
  rw [lastFor_append,lastFor,lastFor_nil,Option.none_or]
  split_ifs <;> rfl

/-- Somebody's enable leaves a latest enable. -/
theorem latestEnable_of_wants {events : AudioEvents} {client : SocketAddr} {cmd : CommandRef}
    (h : Wants events client cmd) : ∃ latest,latestEnable events=some latest := by
  have hmem : cmd∈(events.filterMap Prod.snd).filter audioFlag :=
    List.mem_filter.mpr ⟨List.mem_filterMap.mpr ⟨_,mem_of_lastFor h.1,rfl⟩,h.2⟩
  exact ⟨_,List.getLast?_eq_some_getLast (List.ne_nil_of_mem hmem)⟩

/-- The latest enable is an audio command of the history that enables. -/
theorem mem_of_latestEnable {events : AudioEvents} {cmd : CommandRef}
    (h : latestEnable events=some cmd) :
    audioFlag cmd=true ∧ ∃ client,(client,some cmd)∈events := by
  obtain ⟨hmem,hflag⟩ := List.mem_filter.mp (List.mem_of_getLast? h)
  obtain ⟨⟨client,event⟩,hevent,rfl⟩ := List.mem_filterMap.mp hmem
  exact ⟨hflag,client,hevent⟩

/-- An audio command is the latest enable if it enables. -/
theorem latestEnable_concat_some (events : AudioEvents) (client : SocketAddr) (cmd : CommandRef) :
    latestEnable (events++[(client,some cmd)])=
      if audioFlag cmd=true then some cmd else latestEnable events := by
  rw [latestEnable,List.filterMap_append,List.filter_append]
  by_cases hflag : audioFlag cmd=true
  · simp [hflag]
  · simp [hflag,latestEnable]

/-- A disconnect enables nothing. -/
theorem latestEnable_concat_none (events : AudioEvents) (client : SocketAddr) :
    latestEnable (events++[(client,none)])=latestEnable events := by
  simp [latestEnable]

/-- The filter stores exactly what the history says about subscriptions. -/
structure Recorded (t : AudioTrace) : Prop where
  /-- Subscribers are the clients that want audio levels. -/
  subscribed : ∀ client,client∈t.filter.audio.clients ↔ ∃ cmd,Wants t.events client cmd
  /-- The remembered bytes are those of the latest enable. -/
  remembered : t.filter.audio.lastEnable=(latestEnable t.events).map CommandRef.raw
  /-- The history holds audio commands only. -/
  named : ∀ client cmd,(client,some cmd)∈t.events → isAudioLevelsSubscribe cmd.name=true

/-- A new filter has recorded nothing. -/
theorem recorded_start (policy : FilterPolicy) : Recorded (.start policy) where
  subscribed client := by
    refine ⟨fun h => absurd h (Finset.notMem_empty _),?_⟩
    rintro ⟨cmd,h,_⟩
    cases h
  remembered := rfl
  named _ _ h := absurd h List.not_mem_nil

/-- An audio command is an event of its sender. -/
theorem next_audio_events (t : AudioTrace) (sender : SocketAddr) {cmd : CommandRef}
    (h : isAudioLevelsSubscribe cmd.name=true) :
    (t.next (.command sender cmd)).events=t.events++[(sender,some cmd)] := by
  rw [AudioTrace.next,FilterStep.events,if_pos h]

/-- An audio command updates the subscriptions. -/
theorem next_audio_subs (t : AudioTrace) (sender : SocketAddr) {cmd : CommandRef}
    (h : isAudioLevelsSubscribe cmd.name=true) :
    (t.next (.command sender cmd)).filter.audio=
      t.filter.audio.update sender (audioFlag cmd) cmd.raw := by
  rw [AudioTrace.next,answer_audio h]

/-- Other commands are no events. -/
theorem events_not_audio (sender : SocketAddr) {cmd : CommandRef}
    (h : isAudioLevelsSubscribe cmd.name=false) :
    (FilterStep.command sender cmd).events=[] := by
  rw [FilterStep.events,h,if_neg Bool.false_ne_true]

/-- Audio commands are recorded. -/
theorem recorded_audio {t : AudioTrace} (h : Recorded t) {cmd : CommandRef}
    (ha : isAudioLevelsSubscribe cmd.name=true) (sender : SocketAddr) :
    Recorded (t.next (.command sender cmd)) := by
  have hevents := next_audio_events t sender ha
  have haudio := next_audio_subs t sender ha
  constructor
  · intro client
    rw [hevents,haudio,mem_audioUpdate_iff]
    simp only [Wants,lastFor_concat]
    by_cases hc : client=sender
    · subst hc
      rw [if_pos rfl,if_pos rfl]
      simp only [Option.some.injEq,exists_eq_left']
    · rw [if_neg hc,if_neg (Ne.symm hc)]
      exact h.subscribed client
  · rw [hevents,haudio,latestEnable_concat_some,AudioSubs.update]
    split_ifs
    · rfl
    · exact h.remembered
  · intro client other hm
    rw [hevents,List.mem_append,List.mem_singleton] at hm
    rcases hm with hold | hnew
    · exact h.named client other hold
    · cases hnew
      exact ha

/-- Steps without an audio event keep the record. -/
theorem recorded_of_kept {t : AudioTrace} (h : Recorded t) {step : FilterStep}
    (haudio : (t.next step).filter.audio=t.filter.audio) (hevents : step.events=[]) :
    Recorded (t.next step) := by
  have hsame : (t.next step).events=t.events := by
    rw [AudioTrace.next,hevents,List.append_nil]
  constructor
  · rw [haudio,hsame]
    exact h.subscribed
  · rw [haudio,hsame]
    exact h.remembered
  · rw [hsame]
    exact h.named

/-- A disconnect is recorded. -/
theorem recorded_disconnected {t : AudioTrace} (h : Recorded t) (addr : SocketAddr) :
    Recorded (t.next (.disconnected addr)) := by
  have hevents : (t.next (.disconnected addr)).events=t.events++[(addr,none)] := rfl
  have haudio : (t.next (.disconnected addr)).filter.audio=
      {t.filter.audio with clients := t.filter.audio.clients.erase addr} := rfl
  constructor
  · intro client
    rw [hevents,haudio,Finset.mem_erase,h.subscribed]
    simp only [Wants,lastFor_concat]
    by_cases hc : addr=client
    · subst hc
      simp only [ne_eq,not_true_eq_false,false_and,if_true,Option.some.injEq,reduceCtorEq,
        exists_false]
    · rw [if_neg hc]
      exact and_iff_right (Ne.symm hc)
  · rw [hevents,haudio,latestEnable_concat_none]
    exact h.remembered
  · intro client cmd hm
    rw [hevents,List.mem_append,List.mem_singleton] at hm
    rcases hm with hold | hnew
    · exact h.named client cmd hold
    · cases hnew

/-- Every step keeps the record. -/
theorem recorded_next {t : AudioTrace} (h : Recorded t) (step : FilterStep) :
    Recorded (t.next step) := by
  cases step with
  | command sender cmd =>
    cases ha : isAudioLevelsSubscribe cmd.name with
    | true => exact recorded_audio h ha sender
    | false =>
      exact recorded_of_kept h (answer_not_audio ha t.filter sender).1 (events_not_audio sender ha)
  | unparsed bytes => exact recorded_of_kept h rfl rfl
  | disconnected addr => exact recorded_disconnected h addr
  | shared change => exact recorded_of_kept h rfl rfl

/-- With a body, the synthesized disable has the name and the length of the
enable and reads as disabled. -/
theorem disable_of_body {cmd : CommandRef} (h : cmd.body≠[]) :
    ∃ d : CommandRef,d.raw=synthesizeAudioDisable cmd.raw ∧ d.name=cmd.name ∧
      d.raw.length=cmd.raw.length ∧ parseEnableFlag d.body=some false := by
  obtain ⟨d,hraw,hname,hbody⟩ := synthesizeAudioDisable_framed h
  have hpos := List.length_pos_iff.mpr h
  refine ⟨d,hraw,hname,?_,?_⟩
  · rw [d.raw_length,cmd.raw_length,hbody,List.length_append,List.length_dropLast,
      List.length_singleton]
    omega
  · rw [parseEnableFlag,hbody,List.getLast?_concat]
    rfl

/-- Without a body the last byte of the name is overwritten, and no audio
command is left. -/
theorem disable_of_empty_body {cmd : CommandRef} (h : cmd.body=[]) :
    ∃ d : CommandRef,d.raw=synthesizeAudioDisable cmd.raw ∧
      isAudioLevelsSubscribe d.name=false := by
  obtain ⟨_,r0,r1,hr⟩ := cmd.framed
  let name : CommandName := {cmd.name with b3 := 0}
  have hraw : synthesizeAudioDisable cmd.raw=frameBytes r0 r1 name [] := by
    rw [synthesizeAudioDisable,if_neg cmd.raw_ne_nil,hr,h]
    rfl
  have hno : name∉audioNames := by
    intro hm
    have hlast : ∀ other∈audioNames,other.b3≠0 := by decide
    exact hlast name hm rfl
  refine ⟨⟨name,synthesizeAudioDisable cmd.raw,[],by simp,r0,r1,hraw⟩,rfl,?_⟩
  rw [Bool.eq_false_iff]
  exact fun ha => hno ((isAudioLevelsSubscribe_iff name).mp ha)

/-- Audio commands read from a synthesized disable. -/
theorem audioFrames_disable {cmd : CommandRef} (h : isAudioLevelsSubscribe cmd.name=true) :
    (cmd.body=[] ∧ audioFrames [synthesizeAudioDisable cmd.raw]=[]) ∨
      cmd.body≠[] ∧ ∃ d : CommandRef,audioFrames [synthesizeAudioDisable cmd.raw]=[d] ∧
        d.name=cmd.name ∧ audioFlag d=false := by
  by_cases hbody : cmd.body=[]
  · obtain ⟨d,hraw,hname⟩ := disable_of_empty_body hbody
    refine Or.inl ⟨hbody,?_⟩
    rw [←hraw,audioFrames_raw,hname,if_neg Bool.false_ne_true]
  · obtain ⟨d,hraw,hname,_,hflag⟩ := disable_of_body hbody
    refine Or.inr ⟨hbody,d,?_,hname,?_⟩
    · rw [←hraw,audioFrames_raw,hname,if_pos h]
    · rw [audioFlag,hflag]
      rfl

/-- The record is kept by every list of calls. -/
theorem recorded_calls (policy : FilterPolicy) (calls : List FilterCall) :
    ∃ t : AudioTrace,Recorded t ∧ t.filter=(filterRun (.new policy) calls).1 ∧
      t.events=audioEvents calls := by
  obtain ⟨last,hrun,hfilter,_,hevents⟩ := run_calls policy calls
  refine ⟨last,run_invariant traceStep ?_ (recorded_start policy) hrun,hfilter,hevents⟩
  intro t step u ht hu
  cases hu
  exact recorded_next ht step

/-- While somebody is subscribed, the filter remembers the latest enable. -/
theorem remembered_of_subscriber {t : AudioTrace} (h : Recorded t) {addr : SocketAddr}
    (hm : addr∈t.filter.audio.clients) :
    ∃ cmd,latestEnable t.events=some cmd ∧ t.filter.audio.lastEnable=some cmd.raw ∧
      isAudioLevelsSubscribe cmd.name=true := by
  obtain ⟨_,hwants⟩ := (h.subscribed addr).mp hm
  obtain ⟨cmd,hlatest⟩ := latestEnable_of_wants hwants
  obtain ⟨_,client,hevent⟩ := mem_of_latestEnable hlatest
  refine ⟨cmd,hlatest,?_,h.named client cmd hevent⟩
  rw [h.remembered,hlatest,Option.map_some]

end AtemProxy.FilterRuns
