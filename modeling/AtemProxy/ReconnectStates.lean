import AtemProxy.ReconnectLoop
import AtemProxy.SystemQuiescence

/-!
# How sessions with the switcher begin, and how the last one ends

What a session leaves behind is cleared before the next one begins, so every HELLO is
sent by a proxy that looks as it did before its first session and admits nobody. Once
the proxy is told to stop, only the reply to a HELLO is still waited for, and that for
three seconds at most; nothing else can keep its loop from ending.
-/

namespace AtemProxy.ReconnectStates

open PacketCodec CommandPolicy ReliableTransport ServerSessions UpstreamEvents UpstreamSessions
  GuardedRuns ProxyTasks ProxySystem ReconnectLoop SystemQuiescence

/-- The operations that are left after a session tell what is cleared already. -/
def Cleared (s : Proxy) : Prop :=
  s.upstream=disconnectSequence ∨ s.connected=false ∧
    (s.upstream=[.clearCache,.clearLocks,.send .disconnected] ∨
      s.cache=.new ∧ s.upstream<:+[.clearLocks,.send .disconnected])

/-- Without a session everything is cleared, or going to be. -/
def Dormant (x : System) : Prop := x.session=none → Cleared x.proxy

/-- The server tasks leave connection flag, cache and upstream task alone. -/
theorem cleared_of_serves {s t : Proxy} {a : Action} (hs : serves a=true) (h : step s a=some t)
    (hcleared : Cleared s) : Cleared t := by
  have hsame : t.connected=s.connected ∧ t.cache=s.cache := by
    cases taken_of_step h with
    | payload payload _ => cases hs
    | disconnect _ => cases hs
    | upstream op ops _ => cases hs
    | receive received events _ _ => exact ⟨rfl,rfl⟩
    | fanout op ops t _ hdone => cases hdone <;> exact ⟨rfl,rfl⟩
    | datagram addr data clock _ =>
      rw [s.receiveDatagram_eq addr data clock]
      exact ⟨rfl,rfl⟩
    | handler clock replied t hdone => cases hdone <;> exact ⟨rfl,rfl⟩
    | tick now clocks _ _ => exact ⟨rfl,rfl⟩
    | cleanup op ops _ => cases op <;> exact ⟨rfl,rfl⟩
  unfold Cleared
  rw [upstream_of_serves hs h,hsame.1,hsame.2]
  exact hcleared

/-- The upstream task clears one thing after the other. -/
theorem cleared_upstream {s t : Proxy} (h : step s .upstream=some t) (hcleared : Cleared s) :
    Cleared t := by
  cases taken_of_step h with
  | upstream op ops hnext =>
    rcases hcleared with hall | ⟨hconnected,hcache | ⟨hcache,hrest⟩⟩
    · rw [hall] at hnext
      cases hnext
      exact Or.inr ⟨rfl,Or.inl rfl⟩
    · rw [hcache] at hnext
      cases hnext
      exact Or.inr ⟨hconnected,Or.inr ⟨rfl,List.suffix_rfl⟩⟩
    · rw [hnext] at hrest
      have hops : ops<:+[.clearLocks,.send .disconnected] :=
        (List.suffix_cons op ops).trans hrest
      have hop : op=.clearLocks ∨ op=.send .disconnected := by
        have hmem := hrest.subset List.mem_cons_self
        simpa only [List.mem_cons,List.not_mem_nil,or_false] using hmem
      rcases hop with rfl | rfl <;> exact Or.inr ⟨hconnected,Or.inr ⟨hcache,hops⟩⟩

/-- Only the reply to a HELLO begins a session. -/
theorem session_none_of_step {x y : System} {a : SystemAction} (hnone : x.session=none)
    (ha : ∀ reply clock,a≠.connect reply clock) (h : systemStep x a=some y) :
    y.session=none := by
  cases moved_of_systemStep h with
  | upstream t _ =>
    show sessionAfter x.proxy x.session=none
    rw [hnone,sessionAfter]
    split <;> rfl
  | connect reply clock u _ _ _ => exact absurd rfl (ha reply clock)
  | endSession t _ => rfl
  | heard u data clock hu => cases hnone.symm.trans hu
  | handled u data clock payload t hu _ _ => cases hnone.symm.trans hu
  | woke u cmd channel hu _ => cases hnone.symm.trans hu
  | took u now elapsedAt ackAt cmd channel hu _ => cases hnone.symm.trans hu
  | flushed u now elapsedAt ackAt hu _ => cases hnone.symm.trans hu
  | ticked u clock now elapsedAt ackAt hu => cases hnone.symm.trans hu
  | _ => exact hnone

/-- Operations of the upstream task end no session. -/
theorem none_of_sessionAfter {s : Proxy} {session : Option UpstreamSession}
    (h : sessionAfter s session=none) : session=none := by
  cases session with
  | none => rfl
  | some u =>
    unfold sessionAfter at h
    split at h <;> cases h

/-- Without a session the upstream task gets no work. -/
theorem upstream_idle_of_step {x y : System} {a : SystemAction}
    (hidle : x.session=none → x.proxy.upstream=[]) (ha : a≠.endSession)
    (h : systemStep x a=some y) (hnone : y.session=none) : y.proxy.upstream=[] := by
  cases moved_of_systemStep h with
  | upstream t hdone =>
    have hempty := hidle (none_of_sessionAfter hnone)
    cases taken_of_step hdone with
    | upstream op ops hnext =>
      rw [hempty] at hnext
      cases hnext
  | quiet b t hdone hserves => exact (upstream_of_serves hserves hdone).trans (hidle hnone)
  | handler clock replied t hdone => exact (upstream_of_serves rfl hdone).trans (hidle hnone)
  | cleanup t hdone => exact (upstream_of_serves rfl hdone).trans (hidle hnone)
  | endSession t _ => exact absurd rfl ha
  | putForward raw forwards _ => exact hidle hnone
  | putCleanup raw cleanups _ => exact hidle hnone
  | _ => cases hnone

/-- Every step of the proxy keeps it so. -/
theorem dormant_step {x y : System} {a : SystemAction} (h : Dormant x)
    (hstep : systemStep x a=some y) : Dormant y := by
  intro hnone
  cases moved_of_systemStep hstep with
  | upstream t hdone => exact cleared_upstream hdone (h (none_of_sessionAfter hnone))
  | quiet b t hdone hserves => exact cleared_of_serves hserves hdone (h hnone)
  | handler clock replied t hdone => exact cleared_of_serves rfl hdone (h hnone)
  | cleanup t hdone => exact cleared_of_serves rfl hdone (h hnone)
  | connect reply clock u _ _ _ => cases hnone
  | endSession t hdone =>
    cases taken_of_step hdone with
    | disconnect _ => exact Or.inl rfl
  | putForward raw forwards _ => exact h hnone
  | putCleanup raw cleanups _ => exact h hnone
  | _ => cases hnone

/-- There is a session only while the loop runs one, and without one the upstream task
has work only after a session. -/
structure Rested (s : Supervised) : Prop where
  /-- Sessions. -/
  single : (∀ began,s.phase≠.running began) → s.system.session=none
  /-- The upstream task. -/
  idle : s.system.session=none → (∀ ok,s.phase≠.cleaning ok) → s.phase≠.stopped →
    s.system.proxy.upstream=[]
  /-- Everything is cleared, or going to be. -/
  dormant : Dormant s.system

/-- Nothing has happened at the start. -/
theorem rested_start (policy : FilterPolicy) (idle reconnectMs : ℕ) :
    Rested (.start policy idle reconnectMs) where
  single := fun _ => rfl
  idle := fun _ _ _ => rfl
  dormant := fun _ => Or.inr ⟨rfl,Or.inr ⟨rfl,List.nil_suffix⟩⟩

/-- Every step of the loop keeps it so. -/
theorem rested_step {s t : Supervised} {a : LoopAction} (h : Rested s)
    (hstep : loopStep s a=some t) : Rested t := by
  cases looped_of_loopStep hstep with
  | elapse duration => exact ⟨h.single,h.idle,h.dormant⟩
  | cancel => exact ⟨h.single,h.idle,h.dormant⟩
  | begin hdue _ =>
    have hnone := h.single (fun began hruns => by rw [hdue] at hruns; cases hruns)
    have hidle := h.idle hnone (fun ok hover => by rw [hdue] at hover; cases hover)
      (fun hstopped => by rw [hdue] at hstopped; cases hstopped)
    exact ⟨fun hrests => absurd rfl (hrests s.clock),fun _ _ _ => hidle,h.dormant⟩
  | stop _ _ hrests =>
    exact ⟨fun _ => h.single hrests,fun _ _ hgoes => absurd rfl hgoes,h.dormant⟩
  | pause ok hover hidle =>
    have hnone := h.single (fun began hruns => by rw [hover] at hruns; cases hruns)
    exact ⟨fun _ => hnone,fun _ _ _ => hidle,h.dormant⟩
  | wake wakes ok hsleeps _ =>
    have hnone := h.single (fun began hruns => by rw [hsleeps] at hruns; cases hruns)
    have hidle := h.idle hnone (fun ok hover => by rw [hsleeps] at hover; cases hover)
      (fun hstopped => by rw [hsleeps] at hstopped; cases hstopped)
    exact ⟨fun _ => hnone,fun _ _ _ => hidle,h.dormant⟩
  | ended _ began x hruns hdone =>
    refine ⟨fun _ => ?_,fun _ hover _ => absurd rfl (hover s.reachedReady),
      dormant_step h.dormant hdone⟩
    cases moved_of_systemStep hdone with
    | endSession t _ => rfl
  | moved b x hpermits hgoes hdone =>
    refine ⟨fun hrests => ?_,fun hnone hover hstopped => ?_,dormant_step h.dormant hdone⟩
    · refine session_none_of_step (h.single hrests) (fun reply clock hconnect => ?_) hdone
      subst hconnect
      unfold Supervised.permits at hpermits
      cases hphase : s.phase with
      | running began => exact hrests began hphase
      | _ =>
        rw [hphase] at hpermits
        cases hpermits
    · exact upstream_idle_of_step (fun hbefore => h.idle hbefore hover hstopped) hgoes hdone hnone

/-- Whenever the loop is about to run a session, pauses, or waits for the reply to a HELLO,
the proxy is as it was before its first session: not connected, with an empty cache that
is not ready, and every HELLO of a client is ignored. -/
theorem sessions_begin_empty {policy : FilterPolicy} {idle reconnectMs : ℕ}
    {acts : List LoopAction} {s : Supervised}
    (hrun : run loopStep (.start policy idle reconnectMs) acts=some s)
    (hphase : s.phase=.due ∨ (∃ wakes ok,s.phase=.sleeping wakes ok) ∨
      ∃ began,s.phase=.running began ∧ s.system.session=none) :
    s.system.session=none ∧ s.system.proxy.upstream=[] ∧ s.system.proxy.connected=false ∧
      s.system.proxy.cache=.new ∧
      ∀ addr data clock header payload,decodePacket data=.ok (header,payload) →
        isHandshakePacket header.flags=true →
          s.system.proxy.receiveDatagram addr data clock=s.system.proxy := by
  have hrested : Rested s :=
    run_invariant loopStep (fun _ _ _ h hstep => rested_step h hstep)
      (rested_start policy idle reconnectMs) hrun
  have hnone : s.system.session=none := by
    rcases hphase with hdue | ⟨wakes,ok,hsleeps⟩ | ⟨began,_,hnone⟩
    · exact hrested.single (fun began hruns => by rw [hdue] at hruns; cases hruns)
    · exact hrested.single (fun began hruns => by rw [hsleeps] at hruns; cases hruns)
    · exact hnone
  have hidle : s.system.proxy.upstream=[] := by
    refine hrested.idle hnone (fun ok hover => ?_) (fun hstopped => ?_)
    · rcases hphase with hdue | ⟨wakes,ok,hsleeps⟩ | ⟨began,hruns,_⟩
      · cases hdue.symm.trans hover
      · cases hsleeps.symm.trans hover
      · cases hruns.symm.trans hover
    · rcases hphase with hdue | ⟨wakes,ok,hsleeps⟩ | ⟨began,hruns,_⟩
      · cases hdue.symm.trans hstopped
      · cases hsleeps.symm.trans hstopped
      · cases hruns.symm.trans hstopped
  have hcleared := hrested.dormant hnone
  unfold Cleared at hcleared
  rw [hidle] at hcleared
  rcases hcleared with hall | ⟨hconnected,hcache | ⟨hcache,_⟩⟩
  · cases hall
  · cases hcache
  · refine ⟨hnone,hidle,hconnected,hcache,fun addr data clock header payload hdecode hhello => ?_⟩
    unfold Proxy.receiveDatagram
    rw [hdecode]
    dsimp only
    rw [if_pos hhello,hconnected]
    rfl

/-- The third HELLO is sent by an empty proxy. -/
theorem retried_begins_empty :
    retried.system.session=none ∧ retried.system.proxy.connected=false ∧
      retried.system.proxy.cache=.new ∧
      retried.system.proxy.receiveDatagram ⟨1,1⟩ helloData 9000=retried.system.proxy := by
  have hempty := sessions_begin_empty
    (show run loopStep (.start ⟨.deny,.new,.new {}⟩ 5000 1000) retrying=some retried from rfl)
    (Or.inr (Or.inr ⟨9000,rfl,rfl⟩))
  exact ⟨hempty.1,hempty.2.2.1,hempty.2.2.2.1,
    hempty.2.2.2.2 ⟨1,1⟩ helloData 9000 _ _ (decodePacket_encodePacket _ _) rfl⟩

/-- Steps that need neither time nor a datagram. A session that has begun hears the request
to stop; one that waits for the reply to its HELLO ends only when its time is over. -/
def untimed : LoopAction → Bool
  | .advance => true
  | .interrupt => true
  | .system .endSession => true
  | .system a => own a
  | _ => false

/-- The reply to a HELLO is awaited, and its time is not over. -/
def Handshaking (s : Supervised) : Prop :=
  ∃ began,s.phase=.running began ∧ s.system.session=none ∧ s.clock<began+handshakeTimeout

/-- Own steps are untimed. -/
theorem untimed_of_own {a : SystemAction} (h : own a=true) : untimed (.system a)=true := by
  cases a <;> first | rfl | exact h

/-- The loop permits every own step of the proxy. -/
theorem permits_own (s : Supervised) {a : SystemAction} (ha : own a=true) :
    s.permits a=true := by
  unfold Supervised.permits
  cases s.phase <;> cases a <;> first | rfl | cases ha

/-- Own steps of the proxy leave the loop where it is. -/
theorem loopStep_own {s : Supervised} {a : SystemAction} (ha : own a=true) {x : System}
    (h : systemStep s.system a=some x) :
    loopStep s (.system a)=
      some {s with system := x, reachedReady := s.reachedReady || readies s.system a} := by
  have hfollow : s.follow a x=
      {s with system := x, reachedReady := s.reachedReady || readies s.system a} := by
    unfold Supervised.follow
    split
    · cases ha
    · rfl
  simp only [loopStep,permits_own s ha,if_true,h,Option.map_some,hfollow]

/-- Own steps neither begin nor end a session. -/
theorem session_isSome_own {x y : System} {a : SystemAction} (ha : own a=true)
    (h : systemStep x a=some y) : y.session.isSome=x.session.isSome := by
  cases hx : x.session with
  | none =>
    rw [session_none_of_step hx (fun reply clock hc => by subst hc; cases ha) h]
  | some u =>
    obtain ⟨v,hv,_⟩ := CommandStreams.stream_step hx (keepsSession_of_own ha) h
    rw [hv]
    rfl

/-- A run of untimed steps that leaves the loop alone, with nothing left to do. -/
structure Rests (s t : Supervised) : Prop where
  /-- The run. -/
  reached : ∃ acts,(∀ a∈acts,untimed a=true) ∧ run loopStep s acts=some t
  /-- Progress of the loop. -/
  phase : t.phase=s.phase
  /-- Request to stop. -/
  cancelled : t.cancelled=s.cancelled
  /-- Time. -/
  clock : t.clock=s.clock
  /-- Session. -/
  session : t.system.session.isSome=s.system.session.isSome
  /-- Nothing is left to do. -/
  stuck : Stuck t.system

/-- From every state the proxy can do what is left to do. -/
theorem exists_rests (s : Supervised) : ∃ t,Rests s t := by
  obtain ⟨acts,x,hacts,hrun,hstuck⟩ := exists_run_to_stuck systemStep (fun a => own a=true)
    (fun _ _ _ ha hstep => work_step ha hstep) s.system
  induction acts generalizing s with
  | nil =>
    rw [run_nil,Option.some.injEq] at hrun
    subst hrun
    exact ⟨s,⟨[],fun _ hm => absurd hm List.not_mem_nil,rfl⟩,rfl,rfl,rfl,rfl,hstuck⟩
  | cons a acts ih =>
    obtain ⟨y,hy,hrun⟩ := (run_cons_eq_some systemStep).mp hrun
    have ha := hacts a List.mem_cons_self
    have hstep := loopStep_own ha hy
    obtain ⟨t,ht⟩ := ih {s with system := y, reachedReady := s.reachedReady || readies s.system a}
      (fun b hb => hacts b (List.mem_cons_of_mem _ hb)) hrun
    obtain ⟨more,hmore,hreach⟩ := ht.reached
    refine ⟨t,⟨.system a::more,fun b hb => ?_,(run_cons_eq_some loopStep).mpr ⟨_,hstep,hreach⟩⟩,
      ht.phase,ht.cancelled,ht.clock,ht.session.trans (session_isSome_own ha hy),ht.stuck⟩
    rcases List.mem_cons.mp hb with rfl | hb
    · exact untimed_of_own ha
    · exact hmore b hb

/-- The loop can end without waiting. -/
def Ends (s : Supervised) : Prop :=
  ∃ acts t,(∀ a∈acts,untimed a=true) ∧ run loopStep s acts=some t ∧ t.phase=.stopped

/-- After one more untimed step it can still end. -/
theorem Ends.cons {s t : Supervised} {a : LoopAction} (ha : untimed a=true)
    (hstep : loopStep s a=some t) (h : Ends t) : Ends s := by
  obtain ⟨acts,u,hacts,hrun,hstopped⟩ := h
  refine ⟨a::acts,u,fun b hb => ?_,(run_cons_eq_some loopStep).mpr ⟨t,hstep,hrun⟩,hstopped⟩
  rcases List.mem_cons.mp hb with rfl | hb
  · exact ha
  · exact hacts b hb

/-- What is left to do can be done first. -/
theorem Rests.ends {s t : Supervised} (h : Rests s t) (hends : Ends t) : Ends s := by
  obtain ⟨first,hfirst,hreach⟩ := h.reached
  obtain ⟨acts,u,hacts,hrun,hstopped⟩ := hends
  refine ⟨first++acts,u,fun a ha => ?_,?_,hstopped⟩
  · rcases List.mem_append.mp ha with ha | ha
    · exact hfirst a ha
    · exact hacts a ha
  · rw [run_append,hreach]
    exact hrun

/-- A step that stops the loop. -/
theorem ends_of_stop {s : Supervised} {a : LoopAction} (ha : untimed a=true)
    (hstep : loopStep s a=some {s with phase := .stopped}) : Ends s :=
  Ends.cons ha hstep ⟨[],_,fun _ hm => absurd hm List.not_mem_nil,rfl,rfl⟩

/-- After a session the loop clears up and stops. -/
theorem ends_of_cleaning {s : Supervised} {ok : Bool} (hover : s.phase=.cleaning ok)
    (htold : s.cancelled=true) : Ends s := by
  obtain ⟨t,hrests⟩ := exists_rests s
  refine hrests.ends (ends_of_stop (a := .advance) rfl ?_)
  show t.advance=_
  rw [Supervised.advance,hrests.phase.trans hover]
  dsimp only
  rw [if_pos (tasksDone_of_stuck hrests.stuck).upstream,if_pos (hrests.cancelled.trans htold)]

/-- A session that is permitted to end is not in the middle of anything. -/
theorem ends_of_running {s : Supervised} {began : Instant} (hruns : s.phase=.running began)
    (htold : s.cancelled=true) (hstuck : Stuck s.system) (hpermits : s.permits .endSession=true) :
    Ends s := by
  have hidle : (s.system.session.map UpstreamSession.draining).getD false=false := by
    cases hsession : s.system.session with
    | none => rfl
    | some u => exact (channel_empty_of_stuck hsession hstuck).1
  have hdisconnect : step s.system.proxy .disconnect=
      some {s.system.proxy with upstream := disconnectSequence} :=
    if_pos (tasksDone_of_stuck hstuck).upstream
  have hend : loopStep s (.system .endSession)=some {s with
      system := {s.system with
        proxy := {s.system.proxy with upstream := disconnectSequence}
        session := none}
      phase := .cleaning s.reachedReady
      attempts := s.attempts++[⟨began,s.clock,s.reachedReady⟩]} := by
    simp only [loopStep,hpermits,if_true,systemStep,hidle,Bool.false_eq_true,if_false,
      hdisconnect,Option.map_some,Supervised.follow,hruns]
  exact Ends.cons rfl hend (ends_of_cleaning rfl htold)

/-- Unless the reply to a HELLO is awaited, the loop can end without waiting. -/
theorem ends_of_not_handshaking {s : Supervised} (htold : s.cancelled=true)
    (hnot : ¬Handshaking s) : Ends s := by
  obtain ⟨t,hrests⟩ := exists_rests s
  refine hrests.ends ?_
  have hstop : t.cancelled=true := hrests.cancelled.trans htold
  cases hnow : t.phase with
  | due =>
    refine ends_of_stop (a := .advance) rfl ?_
    show t.advance=_
    rw [Supervised.advance,hnow]
    exact if_pos hstop
  | running began =>
    refine ends_of_running hnow hstop hrests.stuck ?_
    unfold Supervised.permits
    rw [hnow]
    dsimp only
    cases hsession : t.system.session with
    | some u => rfl
    | none =>
      have hnone : s.system.session=none := by
        have hsame := hrests.session
        rw [hsession,Option.isSome_none] at hsame
        exact Option.isNone_iff_eq_none.mp (Option.isSome_eq_false_iff.mp hsame.symm)
      have hover : began+handshakeTimeout ≤ t.clock := by
        rw [hrests.clock]
        exact Nat.le_of_not_lt (fun hearly => hnot ⟨began,hrests.phase ▸ hnow,hnone,hearly⟩)
      rw [decide_eq_true hover]
      rfl
  | cleaning ok => exact ends_of_cleaning hnow hstop
  | sleeping wakes ok =>
    refine ends_of_stop (a := .interrupt) rfl ?_
    simp only [loopStep,hnow,hstop,if_true]
  | stopped => exact ⟨[],t,fun _ hm => absurd hm List.not_mem_nil,rfl,hnow⟩

/-- Untimed steps do not end the wait for the reply. -/
theorem handshaking_step {s t : Supervised} {a : LoopAction} (h : Handshaking s)
    (ha : untimed a=true) (hstep : loopStep s a=some t) : Handshaking t := by
  obtain ⟨began,hruns,hnone,hearly⟩ := h
  cases a with
  | elapse duration => cases ha
  | cancel => cases ha
  | refuse answer => cases ha
  | advance =>
    change s.advance=some t at hstep
    rw [Supervised.advance,hruns] at hstep
    cases hstep
  | interrupt =>
    simp only [loopStep,hruns] at hstep
    cases hstep
  | system a =>
    by_cases hends : a=.endSession
    · subst hends
      have hdenied : s.permits .endSession=false := by
        unfold Supervised.permits
        rw [hruns]
        dsimp only
        rw [hnone,decide_eq_false (Nat.not_le_of_lt hearly)]
        rfl
      simp only [loopStep,hdenied,Bool.false_eq_true,if_false] at hstep
      cases hstep
    · have hown : own a=true := by
        cases a <;> first | exact absurd rfl hends | exact ha
      have hpermits := permits_own s hown
      simp only [loopStep,hpermits,if_true] at hstep
      obtain ⟨x,hx,rfl⟩ := Option.map_eq_some_iff.mp hstep
      have hsame := loopStep_own hown hx
      simp only [loopStep,hpermits,if_true,hx,Option.map_some,Option.some.injEq] at hsame
      rw [hsame]
      refine ⟨began,hruns,?_,hearly⟩
      exact session_none_of_step hnone (fun reply clock hc => by subst hc; cases hown) hx

/-- While the reply is awaited, the loop cannot end without waiting. -/
theorem not_ends_of_handshaking {s : Supervised} (h : Handshaking s) : ¬Ends s := by
  rintro ⟨acts,t,hacts,hrun,hstopped⟩
  induction acts generalizing s with
  | nil =>
    rw [run_nil,Option.some.injEq] at hrun
    obtain ⟨began,hruns,_⟩ := h
    rw [hrun,hstopped] at hruns
    cases hruns
  | cons a acts ih =>
    obtain ⟨u,hu,hrun⟩ := (run_cons_eq_some loopStep).mp hrun
    exact ih (handshaking_step h (hacts a List.mem_cons_self) hu)
      (fun b hb => hacts b (List.mem_cons_of_mem _ hb)) hrun

/-- In every state that the loop reaches and in which the proxy was told to stop: the loop
can end without a timer and without a datagram exactly unless it waits for the reply to a
HELLO, and no task, no session, no full channel and no pause can hold it up; and once
three seconds have passed it does not wait for that reply any more. -/
theorem shutdown_completes {policy : FilterPolicy} {idle reconnectMs : ℕ}
    {acts : List LoopAction} {s : Supervised}
    (hrun : run loopStep (.start policy idle reconnectMs) acts=some s)
    (htold : s.cancelled=true) :
    (Ends s ↔ ¬Handshaking s) ∧
      ∀ wait t,handshakeTimeout ≤ wait → loopStep s (.elapse wait)=some t → Ends t := by
  refine ⟨⟨fun hends hhello => not_ends_of_handshaking hhello hends,
    ends_of_not_handshaking htold⟩,fun wait t hwait hstep => ?_⟩
  cases hstep
  have hontime : OnTime s :=
    run_invariant loopStep (fun _ _ _ h hstep => onTime_step h hstep)
      (onTime_start policy idle reconnectMs) hrun
  refine ends_of_not_handshaking htold ?_
  rintro ⟨began,hruns,_,hearly⟩
  have hphase := hontime.phase
  unfold PhaseOnTime at hphase
  rw [show s.phase=.running began from hruns] at hphase
  exact absurd (Nat.add_le_add hphase.2.1 hwait) (Nat.not_le_of_lt hearly)

/-- A proxy that waits for the reply to its third HELLO is told to stop: it has to wait. -/
theorem retried_shutdown_completes :
    ¬Ends {retried with cancelled := true} ∧
      Ends {retried with cancelled := true, clock := 12000} := by
  have hshutdown := shutdown_completes
    (show run loopStep (.start ⟨.deny,.new,.new {}⟩ 5000 1000) (retrying++[.cancel])=
      some {retried with cancelled := true} from rfl) rfl
  exact ⟨fun hends => hshutdown.1.mp hends ⟨9000,rfl,rfl,by decide⟩,
    hshutdown.2 3000 _ (Nat.le_refl _) rfl⟩

end AtemProxy.ReconnectStates
