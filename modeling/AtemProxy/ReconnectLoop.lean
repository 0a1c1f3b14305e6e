import AtemProxy.EventLogs
import AtemProxy.ProxySystem
import AtemProxy.SpacedTimes

/-!
# The loop that keeps the switcher connected

One session with the switcher follows another until the proxy is told to stop. After
each the cache is emptied and the loop pauses: for the configured time after a session
that got ready and after the first one that did not, and twice as long after each further
failure, up to half a minute. Time passes between the steps of the whole proxy; durations
are milliseconds.
-/

namespace AtemProxy.ReconnectLoop

open BigEndian CommandPolicy ReliableTransport UpstreamSessions GuardedRuns EventLogs SpacedTimes
  ProxySystem

/-- Longest pause that doubling leads to. -/
def maxBackoff : ℕ := 30000

/-- Shortest pause that can be configured. -/
def minReconnect : ℕ := 200

/-- How long a session waits for the reply to its HELLO. -/
def handshakeTimeout : ℕ := 3000

/-- A session, or an attempt at one. -/
structure Attempt where
  /-- When its HELLO was sent. -/
  began : Instant
  /-- When it was over. -/
  ended : Instant
  /-- The switcher completed its initialization. -/
  ready : Bool
  deriving DecidableEq

/-- Progress of the loop. -/
inductive Phase where
  /-- The loop tests whether it has to stop. -/
  | due
  /-- A session began at this time. -/
  | running (began : Instant)
  /-- The session is over; the flag says whether it got ready. -/
  | cleaning (ok : Bool)
  /-- The loop pauses until this time. -/
  | sleeping (wakes : Instant) (ok : Bool)
  /-- The loop has ended. -/
  | stopped
  deriving DecidableEq

/-- The whole proxy with the loop around its sessions. -/
structure Supervised where
  /-- The proxy. -/
  system : System
  /-- Configured pause. -/
  base : ℕ
  /-- Next pause. -/
  backoff : ℕ
  /-- Progress. -/
  phase : Phase
  /-- The running session got ready. -/
  reachedReady : Bool
  /-- The proxy was told to stop. -/
  cancelled : Bool
  /-- Time. -/
  clock : Instant
  /-- Sessions that are over, oldest first. -/
  attempts : List Attempt

namespace Supervised

/-- Before the first session. -/
def start (policy : FilterPolicy) (idle reconnectMs : ℕ) : Supervised :=
  ⟨System.start policy idle,max reconnectMs minReconnect,max reconnectMs minReconnect,.due,false,
    false,0,[]⟩

/-- The loop goes on; none while it waits. -/
def advance (s : Supervised) : Option Supervised :=
  match s.phase with
  | .due =>
    if s.cancelled=true then some {s with phase := .stopped}
    else some {s with phase := .running s.clock, reachedReady := false}
  | .running _ => none
  | .cleaning ok =>
    if s.system.proxy.upstream=[] then
      if s.cancelled=true then some {s with phase := .stopped}
      else
        let backoff := if ok=true then s.base else s.backoff
        some {s with backoff := backoff, phase := .sleeping (s.clock+backoff) ok}
    else none
  | .sleeping wakes ok =>
    if wakes ≤ s.clock then
      some {s with
        phase := .due
        backoff := if ok=true then s.backoff else min (s.backoff*2) maxBackoff}
    else none
  | .stopped => none

/-- Sessions begin and end only while the loop runs one. While the reply to the HELLO is
awaited, no request to stop is heard, and only the timeout ends the session by itself. -/
def permits (s : Supervised) (a : SystemAction) : Bool :=
  match s.phase,a with
  | .running began,.endSession =>
    s.system.session.isSome || decide (began+handshakeTimeout ≤ s.clock)
  | .running _,_ => true
  | _,.connect _ _ => false
  | _,.endSession => false
  | _,_ => true

end Supervised

/-- The operation that follows the note that the session got ready. -/
def readies (x : System) : SystemAction → Bool
  | .server .upstream => decide (x.proxy.upstream.head?=some .swapConnected)
  | _ => false

/-- What happens to the loop when the proxy takes a step. -/
def Supervised.follow (s : Supervised) (a : SystemAction) (x : System) : Supervised :=
  match a,s.phase with
  | .endSession,.running began =>
    {s with
      system := x
      phase := .cleaning s.reachedReady
      attempts := s.attempts++[⟨began,s.clock,s.reachedReady⟩]}
  | _,_ => {s with system := x, reachedReady := s.reachedReady || readies s.system a}

/-- One step of the proxy, of the loop, or of time. -/
inductive LoopAction where
  /-- Time passes. -/
  | elapse (duration : ℕ)
  /-- The proxy is told to stop. -/
  | cancel
  /-- The loop goes on. -/
  | advance
  /-- A pause is cut short by the request to stop. -/
  | interrupt
  /-- The HELLO fails: this datagram does not accept it, or the socket reports an error. -/
  | refuse (answer : Option Bytes)
  /-- A step of the proxy. -/
  | system (a : SystemAction)

/-- Next state; none when the step is not possible. -/
def loopStep (s : Supervised) : LoopAction → Option Supervised
  | .elapse duration => some {s with clock := s.clock+duration}
  | .cancel => some {s with cancelled := true}
  | .advance => s.advance
  | .interrupt =>
    match s.phase with
    | .sleeping _ _ => if s.cancelled=true then some {s with phase := .stopped} else none
    | _ => none
  | .refuse answer =>
    match s.phase,s.system.session with
    | .running _,none =>
      if answer.all (fun reply => (UpstreamSession.connect reply s.clock).isNone)=true then
        (systemStep s.system .endSession).map (s.follow .endSession)
      else none
    | _,_ => none
  | .system a =>
    if s.permits a=true then (systemStep s.system a).map (s.follow a) else none

/-- Failures since the last session that got ready. -/
def failures (outcomes : List Bool) : ℕ := (outcomes.reverse.takeWhile (!·)).length

/-- Pause after the last of these sessions: the configured one unless it failed like the
one before, and doubled for each further failure. -/
def waitAfter (base : ℕ) (outcomes : List Bool) : ℕ :=
  if failures outcomes ≤ 1 then base else min (base*2^(failures outcomes-1)) maxBackoff

/-- A session that got ready ends the failures. -/
theorem failures_snoc_true (outcomes : List Bool) : failures (outcomes++[true])=0 := by
  rw [failures,List.reverse_append]
  rfl

/-- One more failure. -/
theorem failures_snoc_false (outcomes : List Bool) :
    failures (outcomes++[false])=failures outcomes+1 := by
  rw [failures,List.reverse_append]
  rfl

/-- Next pause while a session runs, if that session fails. -/
def backoffBefore (base : ℕ) (outcomes : List Bool) : ℕ :=
  if failures outcomes=0 then base else min (base*2^failures outcomes) maxBackoff

/-- A session that got ready resets the pause. -/
theorem waitAfter_snoc (base : ℕ) (outcomes : List Bool) (ok : Bool) :
    waitAfter base (outcomes++[ok])=if ok=true then base else backoffBefore base outcomes := by
  unfold waitAfter backoffBefore
  cases ok with
  | true => rw [failures_snoc_true]; rfl
  | false =>
    rw [failures_snoc_false,Nat.add_sub_cancel]
    by_cases hnone : failures outcomes=0
    · rw [hnone]
      rfl
    · have hmany : ¬failures outcomes+1 ≤ 1 := by omega
      simp only [if_neg hnone,if_neg hmany,Bool.false_eq_true,if_false]

/-- After the pause the next one is doubled unless the session got ready. -/
theorem backoffBefore_snoc (base : ℕ) (outcomes : List Bool) (ok : Bool) :
    backoffBefore base (outcomes++[ok])=
      if ok=true then waitAfter base (outcomes++[ok])
      else min (waitAfter base (outcomes++[ok])*2) maxBackoff := by
  rw [waitAfter_snoc]
  cases ok with
  | true =>
    rw [backoffBefore,failures_snoc_true]
    rfl
  | false =>
    rw [backoffBefore,failures_snoc_false]
    simp only [Nat.add_eq_zero_iff,Nat.one_ne_zero,and_false,if_false,Bool.false_eq_true]
    unfold backoffBefore
    by_cases hnone : failures outcomes=0
    · rw [if_pos hnone,hnone]
      rfl
    · rw [if_neg hnone,pow_succ,←Nat.mul_assoc]
      omega

/-- No pause is shorter than half a minute or the configured one. -/
theorem le_waitAfter (base : ℕ) (outcomes : List Bool) :
    min base maxBackoff ≤ waitAfter base outcomes := by
  unfold waitAfter
  split
  · exact Nat.min_le_left _ _
  · have hpow : base ≤ base*2^(failures outcomes-1) := Nat.le_mul_of_pos_right _ (Nat.two_pow_pos _)
    omega

/-- No pause is longer than half a minute and the configured one. -/
theorem waitAfter_le (base : ℕ) (outcomes : List Bool) :
    waitAfter base outcomes ≤ max base maxBackoff := by
  unfold waitAfter
  split
  · exact Nat.le_max_left _ _
  · exact (Nat.min_le_right _ _).trans (Nat.le_max_right _ _)

/-- Earliest time for another session. -/
def earliest (base : ℕ) (attempts : List Attempt) : ℕ :=
  match attempts.getLast? with
  | none => 0
  | some last => last.ended+waitAfter base (attempts.map Attempt.ready)

/-- The last session decides about the next one. -/
theorem earliest_snoc (base : ℕ) (attempts : List Attempt) (last : Attempt) :
    earliest base (attempts++[last])=
      last.ended+waitAfter base ((attempts++[last]).map Attempt.ready) := by
  rw [earliest,List.getLast?_concat]

/-- Steps of the loop with what they require. -/
inductive Looped (s : Supervised) : LoopAction → Supervised → Prop where
  /-- Time passes. -/
  | elapse (duration : ℕ) : Looped s (.elapse duration) {s with clock := s.clock+duration}
  /-- The proxy is told to stop. -/
  | cancel : Looped s .cancel {s with cancelled := true}
  /-- A session begins. -/
  | begin (due : s.phase=.due) (goes : s.cancelled=false) :
    Looped s .advance {s with phase := .running s.clock, reachedReady := false}
  /-- The loop ends before a session, after it or during a pause. -/
  | stop (a : LoopAction) (told : s.cancelled=true) (rests : ∀ began,s.phase≠.running began) :
    Looped s a {s with phase := .stopped}
  /-- A pause begins. -/
  | pause (ok : Bool) (ends : s.phase=.cleaning ok) (idle : s.system.proxy.upstream=[]) :
    Looped s .advance {s with
      backoff := if ok=true then s.base else s.backoff
      phase := .sleeping (s.clock+if ok=true then s.base else s.backoff) ok}
  /-- A pause is over. -/
  | wake (wakes : Instant) (ok : Bool) (sleeps : s.phase=.sleeping wakes ok)
    (time : wakes ≤ s.clock) :
    Looped s .advance {s with
      phase := .due
      backoff := if ok=true then s.backoff else min (s.backoff*2) maxBackoff}
  /-- A session ends. -/
  | ended (a : LoopAction) (began : Instant) (x : System) (runs : s.phase=.running began)
    (done : systemStep s.system .endSession=some x) :
    Looped s a {s with
      system := x
      phase := .cleaning s.reachedReady
      attempts := s.attempts++[⟨began,s.clock,s.reachedReady⟩]}
  /-- The proxy takes another step. -/
  | moved (a : SystemAction) (x : System) (permitted : s.permits a=true) (goes : a≠.endSession)
    (done : systemStep s.system a=some x) :
    Looped s (.system a) {s with
      system := x
      reachedReady := s.reachedReady || readies s.system a}

/-- Every possible step is one of these. -/
theorem looped_of_loopStep {s t : Supervised} {a : LoopAction} (h : loopStep s a=some t) :
    Looped s a t := by
  cases a with
  | elapse duration =>
    cases h
    exact .elapse duration
  | cancel =>
    cases h
    exact .cancel
  | advance =>
    change s.advance=some t at h
    unfold Supervised.advance at h
    split at h
    · rename_i hdue
      split at h
      · rename_i htold
        cases h
        exact .stop _ htold (fun began hruns => by rw [hdue] at hruns; cases hruns)
      · rename_i hgoes
        cases h
        exact .begin hdue (eq_false_of_ne_true hgoes)
    · cases h
    · rename_i ok hover
      split at h
      · rename_i hidle
        split at h
        · rename_i htold
          cases h
          exact .stop _ htold (fun began hruns => by rw [hover] at hruns; cases hruns)
        · cases h
          exact .pause ok hover hidle
      · cases h
    · rename_i wakes ok hsleeps
      split at h
      · rename_i htime
        cases h
        exact .wake wakes ok hsleeps htime
      · cases h
    · cases h
  | interrupt =>
    simp only [loopStep] at h
    split at h
    · rename_i hsleeps
      split at h
      · rename_i htold
        cases h
        exact .stop _ htold (fun began hruns => by rw [hsleeps] at hruns; cases hruns)
      · cases h
    · cases h
  | refuse answer =>
    simp only [loopStep] at h
    split at h
    · rename_i began hruns _
      split at h
      · obtain ⟨x,hx,rfl⟩ := Option.map_eq_some_iff.mp h
        unfold Supervised.follow
        rw [hruns]
        exact .ended _ began x hruns hx
      · cases h
    · cases h
  | system a =>
    simp only [loopStep] at h
    split at h
    · rename_i hpermits
      obtain ⟨x,hx,rfl⟩ := Option.map_eq_some_iff.mp h
      by_cases hends : a=.endSession
      · subst hends
        unfold Supervised.permits at hpermits
        cases hphase : s.phase with
        | running began =>
          unfold Supervised.follow
          rw [hphase]
          exact .ended _ began x hphase hx
        | _ =>
          rw [hphase] at hpermits
          cases hpermits
      · have hsame : s.follow a x={s with
            system := x
            reachedReady := s.reachedReady || readies s.system a} := by
          unfold Supervised.follow
          split
          · exact absurd rfl hends
          · rfl
        rw [hsame]
        exact .moved a x hpermits hends hx
    · cases h

/-- The proxy in the loop is the proxy: its state is reached without the loop. -/
theorem system_run_of_loop_run {s t : Supervised} {acts : List LoopAction}
    (h : run loopStep s acts=some t) :
    ∃ actions,run systemStep s.system actions=some t.system := by
  induction acts generalizing s with
  | nil =>
    rw [run_nil,Option.some.injEq] at h
    exact ⟨[],by rw [run_nil,h]⟩
  | cons a acts ih =>
    obtain ⟨u,hu,h⟩ := (run_cons_eq_some loopStep).mp h
    obtain ⟨actions,hactions⟩ := ih h
    cases looped_of_loopStep hu with
    | ended _ began x hruns hdone =>
      exact ⟨.endSession::actions,(run_cons_eq_some systemStep).mpr ⟨x,hdone,hactions⟩⟩
    | moved a x hpermits hgoes hdone =>
      exact ⟨a::actions,(run_cons_eq_some systemStep).mpr ⟨x,hdone,hactions⟩⟩
    | _ => exact ⟨actions,hactions⟩

/-- Outcomes of the sessions that are over. -/
def Supervised.outcomes (s : Supervised) : List Bool := s.attempts.map Attempt.ready

/-- Sessions begun so far, with the running one as if it were over now. -/
def Supervised.history (s : Supervised) : List Attempt :=
  match s.phase with
  | .running began => s.attempts++[⟨began,s.clock,s.reachedReady⟩]
  | _ => s.attempts

/-- A session began no earlier than the pause after those before it allows. -/
def InTime (base : ℕ) (before : List Attempt) (a : Attempt) : Prop :=
  earliest base before ≤ a.began ∧ a.began ≤ a.ended

/-- Last session, its outcome and its end. -/
def EndedBy (s : Supervised) (ok : Bool) : Prop :=
  ∃ early last,s.attempts=early++[last] ∧ last.ready=ok ∧ last.ended ≤ s.clock

/-- What the loop knows about the pauses in each phase. -/
def PhaseOnTime (s : Supervised) : Prop :=
  match s.phase with
  | .due => earliest s.base s.attempts ≤ s.clock ∧ s.backoff=backoffBefore s.base s.outcomes
  | .running began =>
    earliest s.base s.attempts ≤ began ∧ began ≤ s.clock ∧
      s.backoff=backoffBefore s.base s.outcomes
  | .cleaning ok => EndedBy s ok ∧ s.backoff=backoffBefore s.base s.outcomes.dropLast
  | .sleeping wakes ok =>
    EndedBy s ok ∧ s.backoff=waitAfter s.base s.outcomes ∧
      earliest s.base s.attempts ≤ wakes ∧ wakes ≤ s.clock+max s.base maxBackoff
  | .stopped => True

/-- All sessions were in time, and the next one will be. -/
structure OnTime (s : Supervised) : Prop where
  /-- Sessions that are over. -/
  finished : EachAt (InTime s.base) s.attempts
  /-- The phase. -/
  phase : PhaseOnTime s

/-- The first session may begin at once. -/
theorem onTime_start (policy : FilterPolicy) (idle reconnectMs : ℕ) :
    OnTime (.start policy idle reconnectMs) where
  finished := eachAt_nil _
  phase := ⟨Nat.zero_le _,rfl⟩

/-- The outcome of the last session is the last one. -/
theorem EndedBy.outcomes_eq {s : Supervised} {ok : Bool} (h : EndedBy s ok) :
    s.outcomes=s.outcomes.dropLast++[ok] := by
  obtain ⟨early,last,hattempts,hready,_⟩ := h
  rw [Supervised.outcomes,hattempts,List.map_append,List.map_singleton,List.dropLast_concat,hready]

/-- The next session waits for the end of the last one and the pause. -/
theorem EndedBy.earliest_le {s : Supervised} {ok : Bool} (h : EndedBy s ok) :
    earliest s.base s.attempts ≤ s.clock+waitAfter s.base s.outcomes := by
  obtain ⟨early,last,hattempts,_,hpast⟩ := h
  rw [Supervised.outcomes,hattempts,earliest_snoc]
  exact Nat.add_le_add_right hpast _

/-- Time passes after its end. -/
theorem EndedBy.elapse {s : Supervised} {ok : Bool} (h : EndedBy s ok) (duration : ℕ) :
    EndedBy {s with clock := s.clock+duration} ok := by
  obtain ⟨early,last,hattempts,hready,hpast⟩ := h
  exact ⟨early,last,hattempts,hready,hpast.trans (Nat.le_add_right _ _)⟩

/-- Time passes. -/
theorem PhaseOnTime.elapse {s : Supervised} (h : PhaseOnTime s) (duration : ℕ) :
    PhaseOnTime {s with clock := s.clock+duration} := by
  unfold PhaseOnTime at h ⊢
  dsimp only
  cases hphase : s.phase with
  | due =>
    rw [hphase] at h
    exact ⟨h.1.trans (Nat.le_add_right _ _),h.2⟩
  | running began =>
    rw [hphase] at h
    exact ⟨h.1,h.2.1.trans (Nat.le_add_right _ _),h.2.2⟩
  | cleaning ok =>
    rw [hphase] at h
    exact ⟨h.1.elapse duration,h.2⟩
  | sleeping wakes ok =>
    rw [hphase] at h
    refine ⟨h.1.elapse duration,h.2.1,h.2.2.1,h.2.2.2.trans ?_⟩
    exact Nat.add_le_add_right (Nat.le_add_right _ _) _
  | stopped => trivial

/-- Every step of the loop keeps the pauses. -/
theorem onTime_step {s t : Supervised} {a : LoopAction} (h : OnTime s)
    (hstep : loopStep s a=some t) : OnTime t := by
  have hphase := h.phase
  cases looped_of_loopStep hstep with
  | elapse duration => exact ⟨h.finished,hphase.elapse duration⟩
  | cancel => exact ⟨h.finished,hphase⟩
  | begin hdue _ =>
    unfold PhaseOnTime at hphase
    rw [hdue] at hphase
    exact ⟨h.finished,hphase.1,Nat.le.refl,hphase.2⟩
  | stop _ _ _ => exact ⟨h.finished,trivial⟩
  | pause ok hover _ =>
    unfold PhaseOnTime at hphase
    rw [hover] at hphase
    obtain ⟨hended,hbackoff⟩ := hphase
    have hwait : waitAfter s.base s.outcomes=if ok=true then s.base else s.backoff := by
      rw [hended.outcomes_eq,waitAfter_snoc,hbackoff]
    have hearliest := hended.earliest_le
    have hlong := waitAfter_le s.base s.outcomes
    rw [hwait] at hearliest hlong
    exact ⟨h.finished,hended,hwait.symm,hearliest,Nat.add_le_add_left hlong _⟩
  | wake wakes ok hsleeps htime =>
    unfold PhaseOnTime at hphase
    rw [hsleeps] at hphase
    obtain ⟨hended,hbackoff,hearliest,_⟩ := hphase
    refine ⟨h.finished,hearliest.trans htime,?_⟩
    show (if ok=true then s.backoff else min (s.backoff*2) maxBackoff)=
      backoffBefore s.base s.outcomes
    rw [hbackoff,hended.outcomes_eq,backoffBefore_snoc]
  | ended _ began x hruns _ =>
    unfold PhaseOnTime at hphase
    rw [hruns] at hphase
    obtain ⟨hearliest,hbegan,hbackoff⟩ := hphase
    have hended : InTime s.base s.attempts ⟨began,s.clock,s.reachedReady⟩ := ⟨hearliest,hbegan⟩
    refine ⟨h.finished.append hended,⟨s.attempts,⟨began,s.clock,s.reachedReady⟩,rfl,rfl,Nat.le.refl⟩,
      ?_⟩
    show s.backoff=backoffBefore s.base
      ((s.attempts++[(⟨began,s.clock,s.reachedReady⟩ : Attempt)]).map Attempt.ready).dropLast
    rw [List.map_append,List.map_singleton,List.dropLast_concat]
    exact hbackoff
  | moved b x _ _ _ => exact ⟨h.finished,hphase⟩

/-- The running session is in time as well. -/
theorem OnTime.history {s : Supervised} (h : OnTime s) : EachAt (InTime s.base) s.history := by
  have hphase := h.phase
  unfold PhaseOnTime at hphase
  unfold Supervised.history
  split
  · rename_i began hruns
    rw [hruns] at hphase
    have hended : InTime s.base s.attempts ⟨began,s.clock,s.reachedReady⟩ :=
      ⟨hphase.1,hphase.2.1⟩
    exact h.finished.append hended
  · exact h.finished

/-- Sessions in time begin at a distance. -/
theorem spaced_of_inTime {base : ℕ} {attempts : List Attempt} (h : EachAt (InTime base) attempts) :
    Spaced (min base maxBackoff) (attempts.map Attempt.began) := by
  induction attempts using List.reverseRecOn with
  | nil => exact spaced_nil _
  | append_singleton attempts a ih =>
    have hbefore : EachAt (InTime base) attempts := by
      intro before b after hsplit
      exact h before b (after++[a]) (by rw [hsplit,List.append_assoc,List.cons_append])
    rw [List.map_append,List.map_singleton]
    refine (ih hbefore).snoc (fun last hlast => ?_)
    rcases List.eq_nil_or_concat attempts with rfl | ⟨early,previous,rfl⟩
    · cases hlast
    · rw [List.concat_eq_append] at h hbefore hlast
      rw [List.map_append,List.map_singleton,List.getLast?_concat,Option.some.injEq] at hlast
      have hold := (hbefore early previous [] rfl).2
      have hnew := (h (early++[previous]) a [] rfl).1
      rw [earliest_snoc] at hnew
      have hgap := le_waitAfter base ((early++[previous]).map Attempt.ready)
      rw [←hlast]
      exact (Nat.add_le_add hold hgap).trans hnew

/-- The loop never loses its configured pause. -/
theorem base_of_loopStep {s t : Supervised} {a : LoopAction} (h : loopStep s a=some t) :
    t.base=s.base := by
  cases looped_of_loopStep h <;> rfl

/-- Nothing begins once the proxy was told to stop. -/
theorem history_of_cancelled {s t : Supervised} {a : LoopAction} (htold : s.cancelled=true)
    (h : loopStep s a=some t) :
    t.cancelled=true ∧ t.history.map Attempt.began=s.history.map Attempt.began := by
  unfold Supervised.history
  cases looped_of_loopStep h with
  | elapse duration =>
    refine ⟨htold,?_⟩
    dsimp only
    split
    · rw [List.map_append,List.map_append]
      rfl
    · rfl
  | cancel => exact ⟨rfl,rfl⟩
  | begin _ hgoes =>
    rw [htold] at hgoes
    cases hgoes
  | stop _ _ hrests =>
    refine ⟨htold,?_⟩
    dsimp only
    split
    · rename_i began hruns
      exact absurd hruns (hrests began)
    · rfl
  | pause ok hover _ =>
    rw [hover]
    exact ⟨htold,rfl⟩
  | wake wakes ok hsleeps _ =>
    rw [hsleeps]
    exact ⟨htold,rfl⟩
  | ended _ began x hruns _ =>
    rw [hruns]
    exact ⟨htold,rfl⟩
  | moved b x _ _ _ =>
    refine ⟨htold,?_⟩
    dsimp only
    split
    · rw [List.map_append,List.map_append]
      rfl
    · rfl

/-- For every configured pause and every run of the loop around the whole proxy: the state
of the proxy is one that it reaches without the loop; every session begins no earlier than
the end of the one before and the pause that the outcomes so far call for; so in any
window of time there are no more sessions than pauses fit into it, and one; a pause is
never longer than half a minute and the configured one; and no session begins after the
proxy was told to stop. -/
theorem sessions_paced {policy : FilterPolicy} {idle reconnectMs : ℕ} {acts : List LoopAction}
    {s : Supervised} (hrun : run loopStep (.start policy idle reconnectMs) acts=some s) :
    (∃ actions,run systemStep (System.start policy idle) actions=some s.system) ∧
      EachAt (InTime (max reconnectMs minReconnect)) s.history ∧
      (∀ first length,((s.history.map Attempt.began).filter
        (fun t => decide (first ≤ t ∧ t ≤ first+length))).length ≤
          length/min (max reconnectMs minReconnect) maxBackoff+1) ∧
      (∀ wakes ok,s.phase=.sleeping wakes ok →
        wakes ≤ s.clock+max (max reconnectMs minReconnect) maxBackoff) ∧
      ∀ later t,s.cancelled=true → run loopStep s later=some t →
        t.history.map Attempt.began=s.history.map Attempt.began := by
  have hontime : OnTime s :=
    run_invariant loopStep (fun _ _ _ h hstep => onTime_step h hstep)
      (onTime_start policy idle reconnectMs) hrun
  have hbase : s.base=max reconnectMs minReconnect :=
    @run_invariant _ _ loopStep (fun t => t.base=max reconnectMs minReconnect)
      (fun _ _ _ h hstep => (base_of_loopStep hstep).trans h) _ _ _ rfl hrun
  have hgap : 0 < min s.base maxBackoff := by
    rw [hbase]
    unfold minReconnect maxBackoff
    omega
  rw [←hbase]
  refine ⟨system_run_of_loop_run hrun,hontime.history,
    (spaced_of_inTime hontime.history).count_le hgap,fun wakes ok hsleeps => ?_,
    fun later t htold hlater => ?_⟩
  · have hphase := hontime.phase
    unfold PhaseOnTime at hphase
    rw [hsleeps] at hphase
    exact hphase.2.2.2
  · have hkept : t.cancelled=true ∧ t.history.map Attempt.began=s.history.map Attempt.began :=
      @run_invariant _ _ loopStep
        (fun t => t.cancelled=true ∧ t.history.map Attempt.began=s.history.map Attempt.began)
        (fun _ _ _ h hstep => ⟨(history_of_cancelled h.1 hstep).1,
          (history_of_cancelled h.1 hstep).2.trans h.2⟩) _ _ _ ⟨htold,rfl⟩ hlater
    exact hkept.2

/-- A session that the switcher never answers. -/
def unanswered : List LoopAction :=
  [.advance,.elapse 3000,.system .endSession,.system (.server .upstream),
    .system (.server .upstream),.system (.server .upstream),.system (.server .upstream),.advance]

/-- Two of them with their pauses, and the HELLO of a third. -/
def retrying : List LoopAction :=
  unanswered++[.elapse 1000,.advance]++unanswered++[.elapse 2000,.advance,.advance]

/-- A proxy that pauses for a second. -/
def secondStart : Supervised := .start ⟨.deny,.new,.new {}⟩ 5000 1000

/-- The proxy after these. -/
def retried : Supervised := (run loopStep secondStart retrying).getD secondStart

/-- The second pause is twice as long as the first. -/
theorem retrying_paced :
    retried.history.map Attempt.began=[0,4000,9000] ∧
      EachAt (InTime 1000) retried.history ∧
      ((retried.history.map Attempt.began).filter
        (fun t => decide (4000 ≤ t ∧ t ≤ 4000+5000))).length ≤ 5000/1000+1 := by
  have hpaced := sessions_paced
    (show run loopStep (.start ⟨.deny,.new,.new {}⟩ 5000 1000) retrying=some retried from rfl)
  exact ⟨by decide +kernel,hpaced.2.1,hpaced.2.2.1 4000 5000⟩

end AtemProxy.ReconnectLoop
