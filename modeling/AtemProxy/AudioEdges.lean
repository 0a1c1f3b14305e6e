import AtemProxy.FilterRuns
import Mathlib.Data.List.Chain

/-!
# Audio subscription commands sent upstream alternate

The filter sends an audio command when the subscriber set changes between
empty and non-empty, in two different places: while it processes a payload
and when a client disconnects. Whatever the clients do, enables and
disables alternate upstream, and the last one sent says whether anybody
still wants audio levels.
-/

namespace AtemProxy.AudioEdges

open BigEndian PacketCodec CommandFrames LockStores CommandPolicy ForwardGrants FilterPassage
  FilterRuns AnswerRuns GuardedRuns

/-- Flags alternate, and the first one is an enable. -/
def Alternates (flags : List Bool) : Prop := (false::flags).IsChain (·≠·)

instance (flags : List Bool) : Decidable (Alternates flags) :=
  inferInstanceAs (Decidable (List.IsChain _ _))

/-- The next flag differs from the last one; the first one is an enable. -/
theorem alternates_concat {flags : List Bool} (h : Alternates flags) {flag : Bool}
    (hnext : flag=true ↔ flags.getLast?≠some true) : Alternates (flags++[flag]) := by
  unfold Alternates at h ⊢
  rw [←List.cons_append]
  refine List.IsChain.append h (List.isChain_singleton flag) ?_
  intro x hx y hy
  rw [List.getLast?_cons,Option.mem_some_iff] at hx
  rw [List.head?_singleton,Option.mem_some_iff] at hy
  subst hx hy
  cases hl : flags.getLast? with
  | none =>
    rw [hl] at hnext
    rw [hnext.mpr (by simp)]
    decide
  | some last =>
    rw [hl] at hnext
    cases last with
    | true =>
      have hf : flag≠true := fun ht => hnext.mp ht rfl
      exact fun he => hf he.symm
    | false =>
      rw [hnext.mpr (by decide)]
      decide

/-- What a step sends fits the change of the subscriber set. -/
def EdgeSent (before after : Finset SocketAddr) (frames : List CommandRef) : Prop :=
  (frames=[] ∧ (after=∅ ↔ before=∅)) ∨
    ∃ cmd,frames=[cmd] ∧ (audioFlag cmd=true ↔ before=∅) ∧ (after=∅ ↔ audioFlag cmd=false)

/-- A processed audio command is sent on an edge only. -/
theorem edgeSent_audio {cmd : CommandRef} (h : isAudioLevelsSubscribe cmd.name=true)
    (f : CommandFilter) (sender : SocketAddr) :
    EdgeSent f.audio.clients (FilterStep.answer f (.command sender cmd)).1.audio.clients
      (audioFrames (FilterStep.answer f (.command sender cmd)).2) := by
  have hclients : (FilterStep.answer f (.command sender cmd)).1.audio=
      f.audio.update sender (audioFlag cmd) cmd.raw := by rw [answer_audio h]
  rw [hclients]
  cases hflag : audioFlag cmd with
  | true =>
    have hne : (f.audio.update sender true cmd.raw).clients≠∅ := Finset.insert_ne_empty _ _
    rw [audioFrames_enable h hflag]
    by_cases he : f.audio.clients=∅
    · refine Or.inr ⟨cmd,if_pos he,⟨fun _ => he,fun _ => hflag⟩,?_⟩
      rw [hflag]
      exact ⟨fun hn => absurd hn hne,fun hn => absurd hn (by decide)⟩
    · exact Or.inl ⟨if_neg he,fun hn => absurd hn hne,fun hn => absurd hn he⟩
  | false =>
    have herase : (f.audio.update sender false cmd.raw).clients=
        f.audio.clients.erase sender := rfl
    rw [audioFrames_disabling h hflag,herase]
    by_cases hl : LastSubscriber f sender
    · refine Or.inr ⟨cmd,if_pos hl,?_,⟨fun _ => hflag,fun _ => hl.2⟩⟩
      rw [hflag]
      exact ⟨fun hn => absurd hn (by decide),fun hn => absurd (hn ▸ hl.1) (Finset.notMem_empty _)⟩
    · exact Or.inl ⟨if_neg hl,erase_eq_empty_iff f hl⟩

/-- A disconnect sends a disable when it empties the set, provided that the
remembered enable has a body. -/
theorem edgeSent_disconnected {f : CommandFilter} {cmd : CommandRef}
    (hlast : f.audio.lastEnable=some cmd.raw) (hname : isAudioLevelsSubscribe cmd.name=true)
    (hbody : cmd.body≠[]) (addr : SocketAddr) :
    EdgeSent f.audio.clients (FilterStep.answer f (.disconnected addr)).1.audio.clients
      (audioFrames (FilterStep.answer f (.disconnected addr)).2) := by
  have herase : (FilterStep.answer f (.disconnected addr)).1.audio.clients=
      f.audio.clients.erase addr := rfl
  rw [audioFrames_disconnected,herase,hlast,Option.map_some,Option.toList_some]
  by_cases hl : LastSubscriber f addr
  · obtain ⟨hno,_⟩ | ⟨_,d,hd,_,hflag⟩ := audioFrames_disable hname
    · exact absurd hno hbody
    · refine Or.inr ⟨d,(if_pos hl).trans hd,?_,⟨fun _ => hflag,fun _ => hl.2⟩⟩
      rw [hflag]
      exact ⟨fun hn => absurd hn (by decide),fun hn => absurd (hn ▸ hl.1) (Finset.notMem_empty _)⟩
  · exact Or.inl ⟨if_neg hl,erase_eq_empty_iff f hl⟩

/-- The step is one of the runs considered: payloads parse, and audio
commands have a body. -/
def Regular : FilterStep → Prop
  | .command _ cmd => isAudioLevelsSubscribe cmd.name=true → cmd.body≠[]
  | .unparsed _ => False
  | .disconnected _ => True
  | .shared _ => True

/-- What regular steps preserve. -/
structure EdgesKept (t : AudioTrace) : Prop where
  /-- The filter records the events. -/
  recorded : Recorded t
  /-- Audio commands have a body. -/
  bodied : ∀ client cmd,(client,some cmd)∈t.events → cmd.body≠[]
  /-- Enables and disables alternate upstream. -/
  alternates : Alternates (t.sent.map audioFlag)
  /-- The last one sent is an enable exactly when there are subscribers. -/
  last : (t.sent.map audioFlag).getLast?=some true ↔ t.filter.audio.clients≠∅

/-- Fitting sent commands keep the alternation. -/
theorem alternates_sent {t : AudioTrace} (h : EdgesKept t) {after : Finset SocketAddr}
    {frames : List CommandRef} (hsent : EdgeSent t.filter.audio.clients after frames) :
    Alternates ((t.sent++frames).map audioFlag) ∧
      (((t.sent++frames).map audioFlag).getLast?=some true ↔ after≠∅) := by
  obtain ⟨rfl,hsame⟩ | ⟨cmd,rfl,hbefore,hafter⟩ := hsent
  · rw [List.append_nil,h.last]
    exact ⟨h.alternates,(not_congr hsame).symm⟩
  · rw [List.map_append,List.map_singleton]
    constructor
    · apply alternates_concat h.alternates
      rw [hbefore,ne_eq,h.last,not_not]
    · rw [List.getLast?_concat,Option.some.injEq,ne_eq,hafter,Bool.not_eq_false]

/-- Every event of a step in a regular run has a body. -/
theorem bodied_events {t : AudioTrace} (h : EdgesKept t) {step : FilterStep} (hr : Regular step)
    {client : SocketAddr} {cmd : CommandRef} (hm : (client,some cmd)∈(t.next step).events) :
    cmd.body≠[] := by
  rcases List.mem_append.mp hm with hold | hnew
  · exact h.bodied client cmd hold
  · cases step with
    | command sender other =>
      rw [FilterStep.events] at hnew
      split_ifs at hnew with ha
      · cases List.mem_singleton.mp hnew
        exact hr ha
      · exact absurd hnew List.not_mem_nil
    | unparsed bytes => exact absurd hnew List.not_mem_nil
    | disconnected addr => cases List.mem_singleton.mp hnew
    | shared change => exact absurd hnew List.not_mem_nil

/-- What a regular step sends fits the change of the subscriber set. -/
theorem edgeSent_next {t : AudioTrace} (h : EdgesKept t) {step : FilterStep} (hr : Regular step) :
    EdgeSent t.filter.audio.clients (step.answer t.filter).1.audio.clients
      (audioFrames (step.answer t.filter).2) := by
  cases step with
  | command sender cmd =>
    cases ha : isAudioLevelsSubscribe cmd.name with
    | true => exact edgeSent_audio ha t.filter sender
    | false =>
      obtain ⟨haudio,hsent⟩ := answer_not_audio ha t.filter sender
      rw [haudio]
      exact Or.inl ⟨hsent,Iff.rfl⟩
  | unparsed bytes => exact absurd hr id
  | disconnected addr =>
    cases hl : latestEnable t.events with
    | none =>
      have hno : ¬LastSubscriber t.filter addr := by
        intro hlast
        obtain ⟨cmd,hw⟩ := (h.recorded.subscribed addr).mp hlast.1
        obtain ⟨latest,he⟩ := latestEnable_of_wants hw
        rw [hl] at he
        cases he
      refine Or.inl ⟨?_,erase_eq_empty_iff t.filter hno⟩
      rw [audioFrames_disconnected,if_neg hno]
    | some cmd =>
      obtain ⟨_,client,hm⟩ := mem_of_latestEnable hl
      have hremembered := h.recorded.remembered
      rw [hl] at hremembered
      exact edgeSent_disconnected hremembered (h.recorded.named client cmd hm)
        (h.bodied client cmd hm) addr
  | shared change => exact Or.inl ⟨rfl,Iff.rfl⟩

/-- Every regular step keeps the edges. -/
theorem edgesKept_next {t : AudioTrace} (h : EdgesKept t) {step : FilterStep} (hr : Regular step) :
    EdgesKept (t.next step) := by
  obtain ⟨halternates,hlast⟩ := alternates_sent h (edgeSent_next h hr)
  exact ⟨recorded_next h.recorded step,fun _ _ hm => bodied_events h hr hm,halternates,hlast⟩

/-- A new filter has sent nothing. -/
theorem edgesKept_start (policy : FilterPolicy) : EdgesKept (.start policy) where
  recorded := recorded_start policy
  bodied _ _ h := absurd h List.not_mem_nil
  alternates := List.isChain_singleton false
  last := by
    constructor
    · intro h
      cases h
    · intro h
      exact absurd rfl h

/-- Bytes that an audio action sends. -/
def audioPart : FilterAction → List Bytes
  | .forward _ => []
  | .dropped _ _ => []
  | .audioSubscribe _ sent => sent.toList

/-- Filter after a call, and what its audio actions and disconnects send. -/
def audioAnswer (f : CommandFilter) : FilterCall → CommandFilter×List Bytes
  | .payload sender bytes =>
    let result := f.processPayload sender bytes
    (result.1,result.2.flatMap audioPart)
  | .disconnected addr => f.clientDisconnected addr
  | .shared change => ({f with policy := change.apply f.policy},[])

/-- Audio commands that the calls on a filter send upstream. -/
def audioSent (f : CommandFilter) (calls : List FilterCall) : List CommandRef :=
  audioFrames (answers audioAnswer f calls).2

/-- Audio actions send all the audio commands of a parsed payload. -/
theorem audioFrames_audioPart (f : CommandFilter) (sender : SocketAddr) (cmd : CommandRef) :
    audioFrames (audioPart (f.processCommand sender cmd).2)=
      audioFrames (f.processCommand sender cmd).2.forwarded := by
  cases ha : isAudioLevelsSubscribe cmd.name with
  | true =>
    rw [processCommand_of_audio ha,processAudio_action]
    rfl
  | false =>
    have hnone : audioFrames (f.processCommand sender cmd).2.forwarded=[] :=
      (answer_not_audio ha f sender).2
    have hflagged := (faithful_processCommand f sender cmd).flagged
    rw [hnone]
    cases hact : (f.processCommand sender cmd).2 with
    | forward raw => rfl
    | dropped name reason => rfl
    | audioSubscribe enable sent =>
      have haudio := (hflagged enable sent hact).1
      rw [ha] at haudio
      cases haudio

/-- Among what commands send, the parts of audio commands are the audio commands. -/
theorem audioFrames_audioParts (f : CommandFilter) (sender : SocketAddr)
    (cmds : List CommandRef) :
    audioFrames ((f.processCommands sender cmds).2.flatMap audioPart)=
      audioFrames ((f.processCommands sender cmds).2.flatMap FilterAction.forwarded) := by
  induction cmds generalizing f with
  | nil => rfl
  | cons cmd cmds ih =>
    rw [CommandFilter.processCommands]
    simp only [List.flatMap_cons,audioFrames_append,audioFrames_audioPart,ih]

/-- For parsed payloads the audio actions and disconnects send every audio
command that the switcher reads. -/
theorem audioSent_eq {calls : List FilterCall} (f : CommandFilter)
    (h : ∀ sender bytes,FilterCall.payload sender bytes∈calls → Parses bytes) :
    audioSent f calls=audioFrames (filterRun f calls).2 := by
  unfold audioSent filterRun
  induction calls generalizing f with
  | nil => rfl
  | cons call calls ih =>
    have hcalls : ∀ sender bytes,FilterCall.payload sender bytes∈calls → Parses bytes :=
      fun sender bytes hm => h sender bytes (List.mem_cons_of_mem _ hm)
    have hstate : (audioAnswer f call).1=(call.answer f).1 := by cases call <;> rfl
    have hframes : audioFrames (audioAnswer f call).2=audioFrames (call.answer f).2 := by
      cases call with
      | payload sender bytes =>
        simp only [audioAnswer,FilterCall.answer,
          processPayload_of_parses (h sender bytes List.mem_cons_self)]
        exact audioFrames_audioParts f sender _
      | disconnected addr => rfl
      | shared change => rfl
    simp only [answers,audioFrames_append,hframes,hstate,ih _ hcalls]

/-- Calls whose payloads parse, with a body in every audio command. -/
def WellFormed (calls : List FilterCall) : Prop :=
  ∀ sender bytes,FilterCall.payload sender bytes∈calls →
    Parses bytes ∧ ∀ cmd∈parsedCommands bytes,isAudioLevelsSubscribe cmd.name=true → cmd.body≠[]

/-- The steps of well-formed calls are regular. -/
theorem regular_of_wellFormed {calls : List FilterCall} (h : WellFormed calls)
    {step : FilterStep} (hm : step∈calls.flatMap FilterCall.steps) : Regular step := by
  obtain ⟨call,hcall,hstep⟩ := List.mem_flatMap.mp hm
  cases call with
  | payload sender bytes =>
    obtain ⟨hparses,hbodies⟩ := h sender bytes hcall
    have hok := parseCommands_ok_iff.mpr ⟨hparses,rfl⟩
    rw [FilterCall.steps,hok] at hstep
    obtain ⟨cmd,hcmd,rfl⟩ := List.mem_map.mp hstep
    rw [parsedCommands_of_ok hok] at hbodies
    exact hbodies cmd hcmd
  | disconnected addr =>
    cases List.mem_singleton.mp hstep
    exact trivial
  | shared change =>
    cases List.mem_singleton.mp hstep
    exact trivial

/-- For every list of calls on a new filter, the audio commands sent upstream
alternate from an enable on, and the last one is an enable exactly when some
client wants audio levels. -/
theorem upstream_audio_alternates (policy : FilterPolicy) (calls : List FilterCall)
    (h : WellFormed calls) :
    Alternates ((audioSent (.new policy) calls).map audioFlag) ∧
      (((audioSent (.new policy) calls).map audioFlag).getLast?=some true ↔
        ∃ client cmd,Wants (audioEvents calls) client cmd) := by
  obtain ⟨last,hrun,hfilter,hsent,hevents⟩ := run_calls policy calls
  have hmeets : Meets traceStep (fun _ step => Regular step) (.start policy)
      (calls.flatMap FilterCall.steps) :=
    meets_of_forall traceStep (fun _ hm _ => regular_of_wellFormed h hm) _
  have hkept : EdgesKept last := by
    refine (always_of_meets traceStep ?_ (edgesKept_start policy) hmeets).last traceStep hrun
    intro t step u ht hr hu
    cases hu
    exact edgesKept_next ht hr
  rw [audioSent_eq _ (fun sender bytes hm => (h sender bytes hm).1),←hsent,←hevents]
  refine ⟨hkept.alternates,hkept.last.trans ?_⟩
  rw [←Finset.nonempty_iff_ne_empty]
  exact exists_congr hkept.recorded.subscribed

/-- Two clients subscribe, one disconnects, the other unsubscribes, and the
first one comes back. -/
def resubscription : List FilterCall :=
  [.payload ⟨1,1⟩ (serializeCommand (tag 'S' 'A' 'L' 'N') [1]),
    .payload ⟨1,2⟩ (serializeCommand (tag 'S' 'A' 'L' 'N') [1]),
    .disconnected ⟨1,1⟩,
    .payload ⟨1,2⟩ (serializeCommand (tag 'S' 'A' 'L' 'N') [0]),
    .payload ⟨1,1⟩ (serializeCommand (tag 'S' 'A' 'L' 'N') [1])]

/-- Three commands are sent: an enable, a disable and an enable. -/
theorem resubscription_alternates :
    (audioSent denyFilter resubscription).map audioFlag=[true,false,true] ∧
      Alternates ((audioSent denyFilter resubscription).map audioFlag) ∧
      ∃ client cmd,Wants (audioEvents resubscription) client cmd := by
  have hform : WellFormed resubscription := by
    intro sender bytes hm
    simp only [resubscription,List.mem_cons,List.not_mem_nil,FilterCall.payload.injEq,
      reduceCtorEq,false_or,or_false] at hm
    rcases hm with ⟨_,rfl⟩ | ⟨_,rfl⟩ | ⟨_,rfl⟩ | ⟨_,rfl⟩
    all_goals exact ⟨by decide,by decide⟩
  have hsent : (audioSent denyFilter resubscription).map audioFlag=[true,false,true] := by
    decide +kernel
  have hmain := upstream_audio_alternates ⟨.deny,.new,.new {}⟩ resubscription hform
  exact ⟨hsent,hmain.1,hmain.2.mp (congrArg List.getLast? hsent)⟩

end AtemProxy.AudioEdges
