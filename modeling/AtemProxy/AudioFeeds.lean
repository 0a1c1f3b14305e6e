import AtemProxy.FilterRuns

/-!
# One subscriber set for several audio feeds

Three command names switch three feeds of the switcher, but the filter has
one subscriber set and one remembered enable for all of them. The feed of a
name follows its subscribers as long as the clients agree on the name: an
enable that finds subscribers, and the command that removes the last one,
name the feed that the first enable opened.
-/

namespace AtemProxy.AudioFeeds

open BigEndian CommandFrames LockStores CommandPolicy ForwardGrants FilterPassage LastWrites
  FilterRuns GuardedRuns

/-- Flag of the last audio command with this name in a list. -/
def lastSent (name : CommandName) (sent : List CommandRef) : Option Bool :=
  lastFor name (sent.map (fun cmd => (cmd.name,audioFlag cmd)))

/-- Every feed follows its subscribers. -/
structure FeedsFollow (t : AudioTrace) : Prop where
  /-- Without subscribers, every name that was ever enabled upstream was
  disabled last. -/
  off : t.filter.audio.clients=∅ → ∀ cmd∈t.sent,audioFlag cmd=true →
    lastSent cmd.name t.sent=some false
  /-- What a client wants was enabled upstream and not disabled since. -/
  on : ∀ client cmd,Wants t.events client cmd → lastSent cmd.name t.sent=some true

/-- The step stays with the feed that the first subscriber opened. -/
def SameFeed (t : AudioTrace) : FilterStep → Prop
  | .command sender cmd => isAudioLevelsSubscribe cmd.name=true →
    (audioFlag cmd=true → t.filter.audio.clients≠∅ → t.opened=some cmd.name) ∧
      (audioFlag cmd=false → LastSubscriber t.filter sender → t.opened=some cmd.name)
  | .unparsed bytes => ∀ name flag,lastSent name (audioFrames [bytes])=some flag →
    (flag=true ↔ t.filter.audio.clients≠∅ ∧ t.opened=some name)
  | .disconnected addr => LastSubscriber t.filter addr →
    ∀ cmd : CommandRef,t.filter.audio.lastEnable=some cmd.raw → cmd.body≠[]
  | .shared _ => True

/-- The later list decides about the names it contains. -/
theorem lastSent_append (name : CommandName) (first second : List CommandRef) :
    lastSent name (first++second)=(lastSent name second).or (lastSent name first) := by
  rw [lastSent,List.map_append,lastFor_append]
  rfl

/-- One more command decides about its own name. -/
theorem lastSent_concat (name : CommandName) (sent : List CommandRef) (cmd : CommandRef) :
    lastSent name (sent++[cmd])=
      if cmd.name=name then some (audioFlag cmd) else lastSent name sent := by
  have hlast : lastSent name [cmd]=if cmd.name=name then some (audioFlag cmd) else none := by
    rw [lastSent,List.map_singleton,lastFor,lastFor_nil,Option.none_or]
  rw [lastSent_append,hlast]
  split_ifs <;> rfl

/-- The subscribers share one feed, and it is the only one enabled upstream. -/
structure OneFeed (t : AudioTrace) : Prop where
  /-- The filter records the events. -/
  recorded : Recorded t
  /-- Every client wants the open feed. -/
  same : ∀ client cmd,Wants t.events client cmd → t.opened=some cmd.name
  /-- The latest enable named it. -/
  latest : t.filter.audio.clients≠∅ →
    ∃ cmd,latestEnable t.events=some cmd ∧ t.opened=some cmd.name
  /-- It is the feed that is enabled upstream. -/
  enabled : ∀ name,lastSent name t.sent=some true ↔
    t.filter.audio.clients≠∅ ∧ t.opened=some name

/-- There are subscribers exactly if some client wants a feed. -/
theorem clients_ne_empty_iff {t : AudioTrace} (h : Recorded t) :
    t.filter.audio.clients≠∅ ↔ ∃ client cmd,Wants t.events client cmd := by
  rw [←Finset.nonempty_iff_ne_empty]
  exact exists_congr h.subscribed

/-- While the subscribers share a feed, every feed follows them. -/
theorem feedsFollow_of_oneFeed {t : AudioTrace} (h : OneFeed t) : FeedsFollow t where
  off hempty cmd hm hflag := by
    cases hl : lastSent cmd.name t.sent with
    | none =>
      have hno := lastFor_eq_none_iff.mp hl (audioFlag cmd)
      exact absurd (List.mem_map_of_mem hm) hno
    | some flag =>
      cases flag with
      | false => rfl
      | true => exact absurd hempty ((h.enabled cmd.name).mp hl).1
  on client cmd hw := by
    have hne := (clients_ne_empty_iff h.recorded).mpr ⟨client,cmd,hw⟩
    exact (h.enabled cmd.name).mpr ⟨hne,h.same client cmd hw⟩

/-- A new filter has opened no feed. -/
theorem oneFeed_start (policy : FilterPolicy) : OneFeed (.start policy) where
  recorded := recorded_start policy
  same _ _ hw := by cases hw.1
  latest h := absurd rfl h
  enabled name := by
    constructor
    · intro h
      cases h
    · intro h
      exact absurd rfl h.1

/-- Steps after which nobody wants more than before. -/
theorem oneFeed_of_fewer {t u : AudioTrace} (h : OneFeed t) (hu : Recorded u)
    (hopened : u.opened=t.opened)
    (hfewer : ∀ client cmd,Wants u.events client cmd → Wants t.events client cmd)
    (hlatest : latestEnable u.events=latestEnable t.events)
    (hsent : ∀ name,lastSent name u.sent=some true ↔
      u.filter.audio.clients≠∅ ∧ lastSent name t.sent=some true) : OneFeed u := by
  have hne : u.filter.audio.clients≠∅ → t.filter.audio.clients≠∅ := by
    rw [clients_ne_empty_iff hu,clients_ne_empty_iff h.recorded]
    rintro ⟨client,cmd,hw⟩
    exact ⟨client,cmd,hfewer client cmd hw⟩
  constructor
  · exact hu
  · intro client cmd hw
    rw [hopened]
    exact h.same client cmd (hfewer client cmd hw)
  · intro hclients
    rw [hopened,hlatest]
    exact h.latest (hne hclients)
  · intro name
    rw [hsent,h.enabled,hopened]
    exact ⟨fun hh => ⟨hh.1,hh.2.2⟩,fun hh => ⟨hh.1,hne hh.1,hh.2⟩⟩

/-- Steps that leave the subscriptions alone. -/
theorem oneFeed_of_kept {t : AudioTrace} (h : OneFeed t) {step : FilterStep}
    (haudio : (t.next step).filter.audio=t.filter.audio) (hevents : step.events=[])
    (hopened : (t.next step).opened=t.opened)
    (hsent : ∀ name,lastSent name (t.next step).sent=some true ↔ lastSent name t.sent=some true) :
    OneFeed (t.next step) := by
  have hsame : (t.next step).events=t.events := by
    rw [AudioTrace.next,hevents,List.append_nil]
  apply oneFeed_of_fewer h (recorded_of_kept h.recorded haudio hevents) hopened
  · rw [hsame]
    exact fun _ _ hw => hw
  · rw [hsame]
  · intro name
    rw [hsent,haudio]
    exact ⟨fun hs => ⟨((h.enabled name).mp hs).1,hs⟩,And.right⟩

/-- An enable of the open feed, or one that opens a feed. -/
theorem oneFeed_enable {t : AudioTrace} (h : OneFeed t) {cmd : CommandRef}
    (ha : isAudioLevelsSubscribe cmd.name=true) (hflag : audioFlag cmd=true) (sender : SocketAddr)
    (hfeed : t.filter.audio.clients≠∅ → t.opened=some cmd.name) :
    OneFeed (t.next (.command sender cmd)) := by
  have hrecorded := recorded_audio h.recorded ha sender
  have hevents := next_audio_events t sender ha
  have hclients : (t.next (.command sender cmd)).filter.audio.clients≠∅ := by
    rw [next_audio_subs t sender ha,hflag]
    exact Finset.insert_ne_empty _ _
  have hopened : (t.next (.command sender cmd)).opened=some cmd.name := by
    rw [AudioTrace.next,FilterStep.opens]
    split_ifs with hopen
    · rfl
    · exact hfeed (fun he => hopen ⟨ha,hflag,he⟩)
  constructor
  · exact hrecorded
  · intro client other hw
    rw [hopened]
    rw [hevents,Wants,lastFor_concat] at hw
    by_cases hc : sender=client
    · rw [if_pos hc,Option.some.injEq,Option.some.injEq] at hw
      rw [hw.1]
    · rw [if_neg hc] at hw
      have hne := (clients_ne_empty_iff h.recorded).mpr ⟨client,other,hw⟩
      rw [←hfeed hne]
      exact h.same client other hw
  · intro _
    refine ⟨cmd,?_,hopened⟩
    rw [hevents,latestEnable_concat_some,if_pos hflag]
  · intro name
    rw [hopened,Option.some.injEq,and_iff_right hclients,AudioTrace.next,
      audioFrames_enable ha hflag]
    by_cases he : t.filter.audio.clients=∅
    · rw [if_pos he,lastSent_concat]
      by_cases hn : cmd.name=name
      · rw [if_pos hn,hflag]
        exact ⟨fun _ => hn,fun _ => rfl⟩
      · rw [if_neg hn,h.enabled]
        exact ⟨fun hh => absurd he hh.1,fun hh => absurd hh hn⟩
    · rw [if_neg he,List.append_nil,h.enabled,and_iff_right he,hfeed he,Option.some.injEq]

/-- What a step may send when a client leaves. -/
theorem oneFeed_leave {t u : AudioTrace} (addr : SocketAddr) (d : CommandRef) (h : OneFeed t)
    (hu : Recorded u) (hclients : u.filter.audio.clients=t.filter.audio.clients.erase addr)
    (hopened : u.opened=t.opened)
    (hfewer : ∀ client cmd,Wants u.events client cmd → Wants t.events client cmd)
    (hlatest : latestEnable u.events=latestEnable t.events)
    (hsent : u.sent=t.sent++if LastSubscriber t.filter addr then [d] else [])
    (hd : LastSubscriber t.filter addr → t.opened=some d.name ∧ audioFlag d=false) :
    OneFeed u := by
  apply oneFeed_of_fewer h hu hopened hfewer hlatest
  intro name
  rw [hclients,hsent]
  by_cases hl : LastSubscriber t.filter addr
  · obtain ⟨hname,hflag⟩ := hd hl
    rw [if_pos hl,lastSent_concat,hflag]
    refine ⟨fun hs => ?_,fun hs => absurd hl.2 hs.1⟩
    split_ifs at hs with hn
    · cases hs
    · have hopen := ((h.enabled name).mp hs).2
      rw [hname,Option.some.injEq] at hopen
      exact absurd hopen hn
  · rw [if_neg hl,List.append_nil,ne_eq,erase_eq_empty_iff t.filter hl]
    exact ⟨fun hs => ⟨((h.enabled name).mp hs).1,hs⟩,And.right⟩

/-- An event that is not an enable adds no wish. -/
theorem wants_of_concat {events : AudioEvents} {addr client : SocketAddr}
    {event : Option CommandRef} {cmd : CommandRef}
    (hevent : ∀ other,event=some other → audioFlag other=false)
    (h : Wants (events++[(addr,event)]) client cmd) : Wants events client cmd := by
  rw [Wants,lastFor_concat] at h
  split_ifs at h with hc
  · have hflag := hevent cmd (Option.some.inj h.1)
    rw [h.2] at hflag
    cases hflag
  · exact h

/-- A disable that keeps a subscriber, or one of the open feed. -/
theorem oneFeed_disable {t : AudioTrace} (h : OneFeed t) {cmd : CommandRef}
    (ha : isAudioLevelsSubscribe cmd.name=true) (hflag : audioFlag cmd=false)
    (sender : SocketAddr) (hfeed : LastSubscriber t.filter sender → t.opened=some cmd.name) :
    OneFeed (t.next (.command sender cmd)) := by
  have hevents := next_audio_events t sender ha
  have hopened : (t.next (.command sender cmd)).opened=t.opened := by
    rw [AudioTrace.next,FilterStep.opens,hflag]
    simp only [Bool.false_eq_true,false_and,and_false,if_false]
  apply oneFeed_leave sender cmd h (recorded_audio h.recorded ha sender)
  · rw [next_audio_subs t sender ha,hflag]
    rfl
  · exact hopened
  · intro client other hw
    rw [hevents] at hw
    refine wants_of_concat ?_ hw
    intro _ he
    rw [←Option.some.inj he]
    exact hflag
  · rw [hevents,latestEnable_concat_some,hflag,if_neg Bool.false_ne_true]
  · rw [AudioTrace.next,audioFrames_disabling ha hflag]
  · exact fun hl => ⟨hfeed hl,hflag⟩

/-- A disconnect that keeps a subscriber, or finds an enable with a body. -/
theorem oneFeed_disconnected {t : AudioTrace} (h : OneFeed t) (addr : SocketAddr)
    (hbody : LastSubscriber t.filter addr →
      ∀ cmd : CommandRef,t.filter.audio.lastEnable=some cmd.raw → cmd.body≠[]) :
    OneFeed (t.next (.disconnected addr)) := by
  have hevents : (t.next (.disconnected addr)).events=t.events++[(addr,none)] := rfl
  have hfewer : ∀ client cmd,Wants (t.next (.disconnected addr)).events client cmd →
      Wants t.events client cmd := by
    intro client cmd hw
    rw [hevents] at hw
    exact wants_of_concat (fun _ he => by cases he) hw
  have hlatest : latestEnable (t.next (.disconnected addr)).events=latestEnable t.events := by
    rw [hevents,latestEnable_concat_none]
  have hsent : (t.next (.disconnected addr)).sent=t.sent++
      audioFrames (FilterStep.answer t.filter (.disconnected addr)).2 := rfl
  rw [audioFrames_disconnected] at hsent
  by_cases hl : LastSubscriber t.filter addr
  · obtain ⟨cmd,hcmd,henable,hname⟩ := remembered_of_subscriber h.recorded hl.1
    obtain ⟨other,hother,hopen⟩ := h.latest (Finset.ne_empty_of_mem hl.1)
    rw [hcmd,Option.some.injEq] at hother
    obtain ⟨hno,_⟩ | ⟨_,d,hd,hdname,hdflag⟩ := audioFrames_disable hname
    · exact absurd hno (hbody hl cmd henable)
    · refine oneFeed_leave addr d h (recorded_disconnected h.recorded addr) rfl rfl hfewer hlatest
        ?_ (fun _ => ⟨?_,hdflag⟩)
      · rw [hsent,henable,Option.map_some,Option.toList_some,hd]
      · rw [hopen,hdname,hother]
  · apply oneFeed_of_fewer h (recorded_disconnected h.recorded addr) rfl hfewer hlatest
    intro name
    have hclients : (t.next (.disconnected addr)).filter.audio.clients=
        t.filter.audio.clients.erase addr := rfl
    rw [hclients,hsent,if_neg hl,List.append_nil,ne_eq,erase_eq_empty_iff t.filter hl]
    exact ⟨fun hs => ⟨((h.enabled name).mp hs).1,hs⟩,And.right⟩

/-- An unparsed payload that repeats what is already so. -/
theorem oneFeed_unparsed {t : AudioTrace} (h : OneFeed t) {bytes : Bytes}
    (hrepeats : ∀ name flag,lastSent name (audioFrames [bytes])=some flag →
      (flag=true ↔ t.filter.audio.clients≠∅ ∧ t.opened=some name)) :
    OneFeed (t.next (.unparsed bytes)) := by
  apply oneFeed_of_kept h rfl rfl rfl
  intro name
  have hsent : (t.next (.unparsed bytes)).sent=t.sent++audioFrames [bytes] := rfl
  rw [hsent,lastSent_append,h.enabled]
  cases hl : lastSent name (audioFrames [bytes]) with
  | none =>
    rw [Option.none_or]
    exact h.enabled name
  | some flag =>
    rw [Option.some_or,Option.some.injEq]
    exact hrepeats name flag hl

/-- A step that stays with the feed keeps it the only one. -/
theorem oneFeed_next {t : AudioTrace} (h : OneFeed t) {step : FilterStep}
    (hs : SameFeed t step) : OneFeed (t.next step) := by
  cases step with
  | command sender cmd =>
    cases ha : isAudioLevelsSubscribe cmd.name with
    | true =>
      obtain ⟨henable,hdisable⟩ := hs ha
      cases hflag : audioFlag cmd with
      | true => exact oneFeed_enable h ha hflag sender (henable hflag)
      | false => exact oneFeed_disable h ha hflag sender (hdisable hflag)
    | false =>
      obtain ⟨haudio,hsent⟩ := answer_not_audio ha t.filter sender
      have hopened : (t.next (.command sender cmd)).opened=t.opened := by
        rw [AudioTrace.next,FilterStep.opens,ha]
        simp only [Bool.false_eq_true,false_and,if_false]
      refine oneFeed_of_kept h haudio (events_not_audio sender ha) hopened (fun name => ?_)
      rw [AudioTrace.next,hsent,List.append_nil]
  | unparsed bytes => exact oneFeed_unparsed h hs
  | disconnected addr => exact oneFeed_disconnected h addr hs
  | shared change =>
    apply oneFeed_of_kept h rfl rfl rfl
    intro name
    have hsent : (t.next (.shared change)).sent=t.sent++[] := rfl
    rw [hsent,List.append_nil]

/-- The step is not an unparsed payload. -/
def Parsed : FilterStep → Prop
  | .unparsed _ => False
  | .command _ _ => True
  | .disconnected _ => True
  | .shared _ => True

/-- An enabled feed has an enable among the commands sent. -/
theorem mem_sent_of_enabled {name : CommandName} {sent : List CommandRef}
    (h : lastSent name sent=some true) : ∃ cmd∈sent,cmd.name=name ∧ audioFlag cmd=true := by
  obtain ⟨cmd,hm,he⟩ := List.mem_map.mp (mem_of_lastFor h)
  rw [Prod.mk.injEq] at he
  exact ⟨cmd,hm,he.1,he.2⟩

/-- When the last subscriber leaves and feeds follow, the open feed is disabled. -/
theorem disabled_of_feedsFollow {t u : AudioTrace} (h : OneFeed t) (hu : FeedsFollow u)
    {name : CommandName} (hopen : t.opened=some name) (hne : t.filter.audio.clients≠∅)
    (hempty : u.filter.audio.clients=∅) {frames : List CommandRef}
    (hsent : u.sent=t.sent++frames) : lastSent name frames=some false := by
  have hon := (h.enabled name).mpr ⟨hne,hopen⟩
  obtain ⟨cmd,hm,rfl,hflag⟩ := mem_sent_of_enabled hon
  have hoff := hu.off hempty cmd (hsent ▸ List.mem_append_left _ hm) hflag
  rw [hsent,lastSent_append,hon] at hoff
  cases hl : lastSent cmd.name frames with
  | none =>
    rw [hl,Option.none_or] at hoff
    cases hoff
  | some flag =>
    rw [hl,Option.some_or] at hoff
    exact hoff

/-- After a parsed step feeds follow only if it stayed with the open feed. -/
theorem sameFeed_of_feedsFollow {t : AudioTrace} (h : OneFeed t) {step : FilterStep}
    (hparsed : Parsed step) (hu : FeedsFollow (t.next step)) : SameFeed t step := by
  cases step with
  | command sender cmd =>
    intro ha
    have haudio := next_audio_subs t sender ha
    constructor
    · intro hflag hne
      have hwants : Wants (t.next (.command sender cmd)).events sender cmd := by
        rw [next_audio_events t sender ha,Wants,lastFor_concat,if_pos rfl]
        exact ⟨rfl,hflag⟩
      have hon := hu.on sender cmd hwants
      rw [AudioTrace.next,audioFrames_enable ha hflag,if_neg hne,List.append_nil,
        h.enabled] at hon
      exact hon.2
    · intro hflag hl
      have hne := Finset.ne_empty_of_mem hl.1
      obtain ⟨latest,_,hopen⟩ := h.latest hne
      have hempty : (t.next (.command sender cmd)).filter.audio.clients=∅ := by
        rw [haudio,hflag]
        exact hl.2
      have hsent : (t.next (.command sender cmd)).sent=t.sent++[cmd] := by
        rw [AudioTrace.next,audioFrames_disabling ha hflag,if_pos hl]
      have hoff := disabled_of_feedsFollow h hu hopen hne hempty hsent
      have hname : (cmd.name,audioFlag cmd)=(latest.name,false) :=
        (List.mem_singleton.mp (mem_of_lastFor hoff)).symm
      rw [hopen,(Prod.mk.inj hname).1]
  | unparsed bytes => exact absurd hparsed id
  | disconnected addr =>
    intro hl cmd henable hbody
    have hne := Finset.ne_empty_of_mem hl.1
    obtain ⟨latest,_,hopen⟩ := h.latest hne
    obtain ⟨other,_,hother,hname⟩ := remembered_of_subscriber h.recorded hl.1
    rw [henable,Option.some.injEq] at hother
    have hsame : cmd=other := CommandRef.ext_of_raw hother
    have hnone : audioFrames [synthesizeAudioDisable cmd.raw]=[] := by
      obtain ⟨_,hn⟩ | ⟨hb,_⟩ := audioFrames_disable (hsame ▸ hname)
      · exact hn
      · exact absurd hbody hb
    have hsent : (t.next (.disconnected addr)).sent=t.sent++[] := by
      rw [AudioTrace.next,audioFrames_disconnected,if_pos hl,henable,Option.map_some,
        Option.toList_some,hnone]
    cases disabled_of_feedsFollow h hu hopen hne hl.2 hsent
  | shared change => exact trivial

/-- In every run of calls whose steps stay with the open feed, every feed
follows its subscribers in every state; and when all payloads parse, feeds
follow in every state only in such runs. -/
theorem feeds_follow_iff_same_feed (policy : FilterPolicy) (calls : List FilterCall) :
    (Meets traceStep SameFeed (.start policy) (calls.flatMap FilterCall.steps) →
      Always traceStep FeedsFollow (.start policy) (calls.flatMap FilterCall.steps)) ∧
    ((∀ sender bytes,FilterCall.payload sender bytes∈calls → Parses bytes) →
      Always traceStep FeedsFollow (.start policy) (calls.flatMap FilterCall.steps) →
      Meets traceStep SameFeed (.start policy) (calls.flatMap FilterCall.steps)) := by
  have hstep : ∀ t step u,OneFeed t → SameFeed t step → traceStep t step=some u → OneFeed u := by
    intro t step u ht hs hu
    cases hu
    exact oneFeed_next ht hs
  constructor
  · intro hmeets
    refine Always.mono traceStep (fun _ => feedsFollow_of_oneFeed) ?_
    exact always_of_meets traceStep hstep (oneFeed_start policy) hmeets
  · intro hparses hfollow
    have hkind : ∀ step∈calls.flatMap FilterCall.steps,Parsed step := by
      intro step hm
      obtain ⟨call,hcall,hs⟩ := List.mem_flatMap.mp hm
      cases call with
      | payload sender bytes =>
        rw [FilterCall.steps,parseCommands_ok_iff.mpr ⟨hparses sender bytes hcall,rfl⟩] at hs
        obtain ⟨cmd,_,rfl⟩ := List.mem_map.mp hs
        exact trivial
      | disconnected addr =>
        rw [List.mem_singleton.mp hs]
        exact trivial
      | shared change =>
        rw [List.mem_singleton.mp hs]
        exact trivial
    refine meets_of_always traceStep (fun t step => ⟨_,rfl⟩) ?_ hstep hkind
      (oneFeed_start policy) hfollow
    intro t step u hp ht hu hf
    cases hu
    exact sameFeed_of_feedsFollow ht hp hf

/-- Enable of the levels of the master. -/
def masterEnable : CommandRef := serializedRef (tag 'S' 'A' 'L' 'N') [1] (by decide)

/-- Two clients subscribe to one feed and disconnect. -/
def sharedFeed : List FilterCall :=
  [.payload ⟨1,1⟩ masterEnable.raw,.payload ⟨2,1⟩ masterEnable.raw,.disconnected ⟨1,1⟩,
    .disconnected ⟨2,1⟩]

/-- The steps of these calls. -/
theorem sharedFeed_steps : sharedFeed.flatMap FilterCall.steps=
    [.command ⟨1,1⟩ masterEnable,.command ⟨2,1⟩ masterEnable,.disconnected ⟨1,1⟩,
      .disconnected ⟨2,1⟩] := by
  have hparse : parseCommands masterEnable.raw=.ok [masterEnable] := rfl
  simp only [sharedFeed,List.flatMap_cons,FilterCall.steps,hparse,List.map_cons,List.map_nil,
    List.flatMap_nil]
  rfl

/-- Each of them stays with the open feed. -/
theorem sharedFeed_same :
    Meets traceStep SameFeed (.start ⟨.deny,.new,.new {}⟩)
      (sharedFeed.flatMap FilterCall.steps) := by
  have henabled : audioFlag masterEnable=true := rfl
  rw [sharedFeed_steps]
  refine ⟨fun _ => ⟨fun _ hc => absurd rfl hc,fun hflag => ?_⟩,fun t ht => ?_⟩
  · cases henabled.symm.trans hflag
  cases ht
  refine ⟨fun _ => ⟨fun _ _ => rfl,fun hflag => ?_⟩,fun t ht => ?_⟩
  · cases henabled.symm.trans hflag
  cases ht
  refine ⟨fun hlast => absurd hlast (by decide +kernel),fun t ht => ?_⟩
  cases ht
  refine ⟨fun _ cmd hcmd => ?_,fun t _ => trivial⟩
  have hsame : masterEnable=cmd := CommandRef.ext_of_raw (Option.some.inj hcmd)
  rw [←hsame]
  exact List.cons_ne_nil 1 []

/-- The feed is disabled when the second client leaves. -/
theorem shared_feed_follows :
    Always traceStep FeedsFollow (.start ⟨.deny,.new,.new {}⟩)
      (sharedFeed.flatMap FilterCall.steps) :=
  (feeds_follow_iff_same_feed ⟨.deny,.new,.new {}⟩ sharedFeed).1 sharedFeed_same
/-- One client enables two feeds and disconnects. -/
def twoFeeds : List FilterCall :=
  [.payload ⟨1,1⟩ (serializeCommand (tag 'S' 'A' 'L' 'N') [1]),
    .payload ⟨1,1⟩ (serializeCommand (tag 'F' 'A' 'S' 'P') [1]),
    .disconnected ⟨1,1⟩]

/-- Nobody is subscribed at the end, and the first feed is still enabled: the
disable was made from the enable of the second one. -/
theorem first_feed_left_enabled :
    (filterRun denyFilter twoFeeds).1.audio.clients=∅ ∧
      (filterRun denyFilter twoFeeds).2=
        [serializeCommand (tag 'S' 'A' 'L' 'N') [1],serializeCommand (tag 'F' 'A' 'S' 'P') [0]] ∧
      ¬Always traceStep FeedsFollow (.start ⟨.deny,.new,.new {}⟩)
        (twoFeeds.flatMap FilterCall.steps) := by
  have hempty : (filterRun denyFilter twoFeeds).1.audio.clients=∅ := by decide +kernel
  refine ⟨hempty,by decide +kernel,fun h => ?_⟩
  obtain ⟨last,hrun,hfilter,hsent,_⟩ := run_calls ⟨.deny,.new,.new {}⟩ twoFeeds
  have hfollow := h.last traceStep hrun
  have hon : lastSent (tag 'S' 'A' 'L' 'N') (audioFrames (filterRun denyFilter twoFeeds).2)=
      some true := by decide +kernel
  obtain ⟨cmd,hm,hname,hflag⟩ := mem_sent_of_enabled hon
  have hnobody : last.filter.audio.clients=∅ := by
    rw [hfilter]
    exact hempty
  have hsame : last.sent=audioFrames (filterRun denyFilter twoFeeds).2 := hsent
  have hoff := hfollow.off hnobody cmd (hsame ▸ hm) hflag
  rw [hsame,hname,hon] at hoff
  cases hoff

end AtemProxy.AudioFeeds
