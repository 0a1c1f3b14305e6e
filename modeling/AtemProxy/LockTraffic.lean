import AtemProxy.LockStores
import AtemProxy.EventLogs
import AtemProxy.GuardedRuns

/-!
# The broker against a switcher that answers later

Forwarded lock requests reach the switcher in order and are answered in
order, each with the state it asked for, after an arbitrary delay. Client
requests, disconnects, answers and clears interleave freely. The log
numbers forwarded requests, so that a late answer can be told from one
that belongs to the current owner.
-/

namespace AtemProxy.LockTraffic

open BigEndian CommandFrames LockStores EventLogs GuardedRuns

/-- Request under way to the switcher or waiting for its answer. -/
structure ForwardedRequest where
  /-- Position in the order of forwarding. -/
  seq : ℕ
  /-- Store named by the request. -/
  store : UInt16
  /-- Requested lock state. -/
  locked : Bool
  deriving DecidableEq

/-- Observable events in the order in which they happen. -/
inductive LockEvent where
  /-- A client's request for a store was forwarded. -/
  | forwarded (seq : ℕ) (client : SocketAddr) (store : UInt16) (locked : Bool)
  /-- A client disconnected. -/
  | disconnected (client : SocketAddr)
  /-- The broker was cleared. -/
  | cleared
  /-- The answer to a forwarded request reached the broker. -/
  | status (answers : ℕ) (store : UInt16) (locked : Bool)
  deriving DecidableEq

/-- Broker, unanswered requests and history. -/
structure Traffic where
  /-- Proxy-side lock records. -/
  broker : LockBroker
  /-- Forwarded and not yet answered, oldest first. -/
  pending : List ForwardedRequest
  /-- Number of requests forwarded so far. -/
  sent : ℕ
  /-- Events so far, oldest first. -/
  log : List LockEvent
  deriving DecidableEq

/-- What can happen next. -/
inductive Action where
  /-- A client sends a lock or unlock request. -/
  | request (client : SocketAddr) (cmd : CommandRef)
  /-- A client's session ends and its unlocks are forwarded. -/
  | disconnect (client : SocketAddr)
  /-- The oldest unanswered request is answered. -/
  | answer
  /-- The broker is cleared and some of the oldest answers are lost. -/
  | clear (lost : ℕ)

/-- Store and requested state that the switcher reads from a forwarded frame. -/
def readRequest (raw : Bytes) : Option (UInt16×Bool) :=
  match headFrame raw with
  | none => none
  | some cmd => (lockStoreId cmd.body).map (fun store => (store,lockRequestEnabled cmd.body))

/-- Put one forwarded frame behind the unanswered requests. -/
def Traffic.enqueue (s : Traffic) (raw : Bytes) : Traffic :=
  match readRequest raw with
  | none => {s with sent := s.sent+1}
  | some (store,locked) =>
    {s with pending := s.pending++[⟨s.sent,store,locked⟩], sent := s.sent+1}

/-- Status payload that answers a request. -/
def lockStatusPayload (store : UInt16) (locked : Bool) : Bytes :=
  serializeCommand (tag 'L' 'K' 'S' 'T')
    [highByte store,lowByte store,if locked=true then 1 else 0,0]

/-- Fresh broker and idle switcher. -/
def Traffic.init : Traffic := ⟨.new,[],0,[]⟩

/-- One interleaved step. Commands other than lock requests never reach
the broker, and there is no answer without an unanswered request. -/
def step (s : Traffic) : Action → Option Traffic
  | .request client cmd =>
    if isLockRequest cmd.name=false then none
    else
      let answer := s.broker.clientLockRequest client cmd.name cmd.body
      match lockStoreId cmd.body with
      | none => some {s with broker := answer.1}
      | some store =>
        if answer.2=.forward then
          some {Traffic.enqueue {s with broker := answer.1} cmd.raw with
            log := s.log++[.forwarded s.sent client store (lockRequestEnabled cmd.body)]}
        else some {s with broker := answer.1}
  | .disconnect client =>
    let released := s.broker.clientDisconnected client
    some (released.2.foldl Traffic.enqueue
      {s with broker := released.1, log := s.log++[.disconnected client]})
  | .answer =>
    match s.pending with
    | [] => none
    | r::rest =>
      some {s with
        broker := s.broker.onUpstreamLockStatus (lockStatusPayload r.store r.locked)
        pending := rest
        log := s.log++[.status r.seq r.store r.locked]}
  | .clear lost =>
    some {s with
      broker := s.broker.clear
      pending := s.pending.drop lost
      log := s.log++[.cleared]}

/-- A status payload is one report for its store. -/
theorem lockOf_statusPayload (b : LockBroker) (store other : UInt16) (locked : Bool) :
    (b.onUpstreamLockStatus (lockStatusPayload store locked)).lockOf other=
      if other=store then (b.lockOf store).report locked else b.lockOf other := by
  let body : Bytes := [highByte store,lowByte store,if locked=true then 1 else 0,0]
  let cmd := serializedRef (tag 'L' 'K' 'S' 'T') body (by show 12<65536; omega)
  have hp : parseCommands (lockStatusPayload store locked)=.ok [cmd] := parseCommands_raw cmd
  have hs : lockStoreId cmd.body=some store := congrArg some (beWord_split store)
  have hl : lockRequestEnabled cmd.body=locked := by cases locked <;> rfl
  unfold LockBroker.onUpstreamLockStatus
  rw [hp]
  dsimp only [List.foldl]
  rw [b.lockOf_onStatusCommand (show isLockStatus (tag 'L' 'K' 'S' 'T')=true by decide) hs other,hl]

/-- Commands in the channel leave the broker alone. -/
@[simp]
theorem enqueue_broker (s : Traffic) (raw : Bytes) : (s.enqueue raw).broker=s.broker := by
  unfold Traffic.enqueue
  split <;> rfl

/-- They leave the log alone. -/
@[simp]
theorem enqueue_log (s : Traffic) (raw : Bytes) : (s.enqueue raw).log=s.log := by
  unfold Traffic.enqueue
  split <;> rfl

/-- So do several commands. -/
theorem foldl_enqueue (raws : List Bytes) (s : Traffic) :
    (raws.foldl Traffic.enqueue s).broker=s.broker ∧
      (raws.foldl Traffic.enqueue s).log=s.log := by
  induction raws generalizing s with
  | nil => exact ⟨rfl,rfl⟩
  | cons raw raws ih =>
    obtain ⟨hb,hl⟩ := ih (s.enqueue raw)
    exact ⟨hb.trans (enqueue_broker s raw),hl.trans (enqueue_log s raw)⟩

/-- Lock records and log after one enabled step, by kind of step. -/
inductive Taken (s t : Traffic) : Action → Prop where
  /-- A lock request is forwarded. -/
  | forwarded (client : SocketAddr) (cmd : CommandRef) (store : UInt16)
    (allowed : ((s.broker.lockOf store).request client (lockRequestEnabled cmd.body)).2=.forward)
    (locks : ∀ other, t.broker.lockOf other=
      if other=store then
        ((s.broker.lockOf store).request client (lockRequestEnabled cmd.body)).1
      else s.broker.lockOf other)
    (logged : t.log=s.log++[.forwarded s.sent client store (lockRequestEnabled cmd.body)]) :
    Taken s t (.request client cmd)
  /-- A request is dropped, or names no store. -/
  | ignored (client : SocketAddr) (cmd : CommandRef)
    (locks : ∀ other, t.broker.lockOf other=s.broker.lockOf other) (logged : t.log=s.log) :
    Taken s t (.request client cmd)
  /-- A client disconnects. -/
  | disconnected (client : SocketAddr)
    (locks : ∀ other, t.broker.lockOf other=(s.broker.lockOf other).release client)
    (logged : t.log=s.log++[.disconnected client]) : Taken s t (.disconnect client)
  /-- The oldest request is answered. -/
  | answered (r : ForwardedRequest) (rest : List ForwardedRequest) (next : s.pending=r::rest)
    (locks : ∀ other, t.broker.lockOf other=
      if other=r.store then (s.broker.lockOf r.store).report r.locked
      else s.broker.lockOf other)
    (logged : t.log=s.log++[.status r.seq r.store r.locked]) : Taken s t .answer
  /-- The broker is cleared. -/
  | cleared (lost : ℕ) (locks : ∀ other, t.broker.lockOf other={})
    (logged : t.log=s.log++[.cleared]) : Taken s t (.clear lost)

/-- A client request is forwarded or leaves everything as it was. -/
theorem taken_of_request {s t : Traffic} {client : SocketAddr} {cmd : CommandRef}
    (h : step s (.request client cmd)=some t) : Taken s t (.request client cmd) := by
  dsimp only [step] at h
  split at h
  · cases h
  · rename_i hn
    have hname := Bool.eq_true_of_not_eq_false hn
    cases hs : lockStoreId cmd.body with
    | none =>
      rw [hs] at h
      cases h
      refine .ignored client cmd (fun other => ?_) rfl
      exact congrArg (fun b => LockBroker.lockOf b other)
        (s.broker.clientLockRequest_of_none client hs)
    | some store =>
      have hd := s.broker.clientLockRequest_decision client hname hs
      have hlock := s.broker.lockOf_clientLockRequest client hname hs
      rw [hs] at h
      dsimp only at h
      rw [hd] at h
      cases hq : ((s.broker.lockOf store).request client (lockRequestEnabled cmd.body)).2 with
      | forward =>
        rw [hq,if_pos rfl] at h
        cases h
        refine .forwarded client cmd store hq (fun other => ?_) rfl
        dsimp only
        rw [enqueue_broker]
        exact hlock other
      | drop =>
        rw [hq,if_neg (by decide)] at h
        cases h
        refine .ignored client cmd (fun other => ?_) rfl
        dsimp only
        rw [hlock other,StoreLock.request_drop hq]
        split
        · rename_i he
          rw [he]
        · rfl

/-- Every possible step is one of these. -/
theorem taken_of_step {s t : Traffic} {a : Action} (h : step s a=some t) : Taken s t a := by
  cases a with
  | request client cmd => exact taken_of_request h
  | disconnect client =>
    cases h
    obtain ⟨hb,hl⟩ := foldl_enqueue (s.broker.clientDisconnected client).2
      {s with
        broker := (s.broker.clientDisconnected client).1
        log := s.log++[.disconnected client]}
    refine .disconnected client (fun other => ?_) hl
    rw [hb]
    exact s.broker.lockOf_clientDisconnected client other
  | answer =>
    dsimp only [step] at h
    cases hp : s.pending with
    | nil =>
      rw [hp] at h
      cases h
    | cons r rest =>
      rw [hp] at h
      cases h
      exact .answered r rest hp (fun other => lockOf_statusPayload s.broker r.store other r.locked)
        rfl
  | clear lost =>
    cases h
    exact .cleared lost (fun _ => rfl) rfl

section Holds

variable (closes : LockEvent → LockEvent → Prop)

/-- A client keeps a store until one of the closing events. -/
def HoldsKept (s : Traffic) : Prop := ∀ seq client store,
  OpenIn closes s.log (.forwarded seq client store true) → s.broker.ownerOf store=some client

/-- Closing events must include the client's own unlock, its disconnect and a clear. -/
structure ClosesHolds : Prop where
  /-- The client's own unlock request. -/
  unlock : ∀ seq later client store,
    closes (.forwarded seq client store true) (.forwarded later client store false)
  /-- The client's disconnect. -/
  disconnect : ∀ seq client store,
    closes (.forwarded seq client store true) (.disconnected client)
  /-- A clear of the broker. -/
  clear : ∀ seq client store, closes (.forwarded seq client store true) .cleared

/-- The next answer, if it unlocks a store, closes every hold of its present owner. -/
def AnswerCloses (s : Traffic) : Action → Prop
  | .answer => ∀ r rest, s.pending=r::rest → r.locked=false →
      ∀ seq client, s.broker.ownerOf r.store=some client →
        .forwarded seq client r.store true ∈ s.log →
        closes (.forwarded seq client r.store true) (.status r.seq r.store false)
  | _ => True

variable {closes}

/-- A forwarded request starts its sender's hold and leaves the holds of
other clients open. -/
theorem holdsKept_forwarded (hc : ClosesHolds closes) {s t : Traffic}
    (hkept : HoldsKept closes s) {client : SocketAddr} {store : UInt16} {want : Bool}
    (hfwd : ((s.broker.lockOf store).request client want).2=.forward)
    (hlock : ∀ other, t.broker.lockOf other=
      if other=store then ((s.broker.lockOf store).request client want).1
      else s.broker.lockOf other)
    (hlog : t.log=s.log++[.forwarded s.sent client store want]) : HoldsKept closes t := by
  intro seq holder place hopen
  obtain ⟨hfree,hrec⟩ := StoreLock.request_forward hfwd
  rw [hlog] at hopen
  rw [LockBroker.ownerOf,hlock place]
  rcases openIn_append_singleton hopen with he | ⟨hopen,hclose⟩
  · injection he with _ hclient hplace hwant
    rw [if_pos hplace,hrec,←hwant,hclient]
    rfl
  · have ho : (s.broker.lockOf place).owner=some holder := hkept seq holder place hopen
    split
    · rename_i hplace
      subst hplace
      rw [hrec]
      rcases hfree with hf | hf
      · rw [hf] at ho
        cases ho
        cases want with
        | true => rfl
        | false => exact absurd (hc.unlock seq s.sent client place) hclose
      · rw [hf] at ho
        cases ho
    · exact ho

/-- A disconnect ends the holds of its client. -/
theorem holdsKept_disconnected (hc : ClosesHolds closes) {s t : Traffic}
    (hkept : HoldsKept closes s) {client : SocketAddr}
    (hlock : ∀ other, t.broker.lockOf other=(s.broker.lockOf other).release client)
    (hlog : t.log=s.log++[.disconnected client]) : HoldsKept closes t := by
  intro seq holder place hopen
  rw [hlog] at hopen
  rw [LockBroker.ownerOf,hlock place,StoreLock.release]
  rcases openIn_append_singleton hopen with he | ⟨hopen,hclose⟩
  · cases he
  · have ho : (s.broker.lockOf place).owner=some holder := hkept seq holder place hopen
    split
    · rename_i howner
      rw [ho] at howner
      cases howner
      exact absurd (hc.disconnect seq client place) hclose
    · exact ho

/-- An answer takes a store away only when it reports it unlocked. -/
theorem holdsKept_answered {s t : Traffic} (hkept : HoldsKept closes s) {r : ForwardedRequest}
    (hcloses : r.locked=false → ∀ seq client, s.broker.ownerOf r.store=some client →
      .forwarded seq client r.store true ∈ s.log →
        closes (.forwarded seq client r.store true) (.status r.seq r.store false))
    (hlock : ∀ other, t.broker.lockOf other=
      if other=r.store then (s.broker.lockOf r.store).report r.locked
      else s.broker.lockOf other)
    (hlog : t.log=s.log++[.status r.seq r.store r.locked]) : HoldsKept closes t := by
  intro seq holder place hopen
  rw [hlog] at hopen
  rw [LockBroker.ownerOf,hlock place]
  rcases openIn_append_singleton hopen with he | ⟨hopen,hclose⟩
  · cases he
  · have ho := hkept seq holder place hopen
    split
    · rename_i hplace
      subst hplace
      rw [StoreLock.report]
      split
      · rename_i hl
        have hnew := hcloses hl seq holder ho hopen.mem
        rw [hl] at hclose
        exact absurd hnew hclose
      · exact ho
    · exact ho

/-- One step keeps every hold that its event does not close. -/
theorem holdsKept_step (hc : ClosesHolds closes) {s t : Traffic} {a : Action}
    (hkept : HoldsKept closes s) (hok : AnswerCloses closes s a) (hs : step s a=some t) :
    HoldsKept closes t := by
  cases taken_of_step hs with
  | forwarded client cmd store hfwd hlock hlog =>
    exact holdsKept_forwarded hc hkept hfwd hlock hlog
  | ignored client cmd hlock hlog =>
    intro seq holder place hopen
    rw [hlog] at hopen
    rw [LockBroker.ownerOf,hlock place]
    exact hkept seq holder place hopen
  | disconnected client hlock hlog => exact holdsKept_disconnected hc hkept hlock hlog
  | answered r rest hp hlock hlog => exact holdsKept_answered hkept (hok r rest hp) hlock hlog
  | cleared lost _ hlog =>
    intro seq holder place hopen
    rw [hlog] at hopen
    rcases openIn_append_singleton hopen with he | ⟨_,hclose⟩
    · cases he
    · exact absurd (hc.clear seq holder place) hclose

end Holds

/-- Events after which another client may use the store: the holder's own
unlock, its disconnect, a clear, or an unlocked answer to a request that
was forwarded after the holder's lock request. -/
def Releases : LockEvent → LockEvent → Prop
  | .forwarded _ client store true,.forwarded _ other place locked =>
    other=client ∧ place=store ∧ locked=false
  | .forwarded _ client _ true,.disconnected other => other=client
  | .forwarded _ _ _ true,.cleared => True
  | .forwarded seq _ store true,.status answers place locked =>
    place=store ∧ locked=false ∧ seq<answers
  | _,_ => False

/-- A release closes a hold. -/
theorem closesHolds_releases : ClosesHolds Releases :=
  ⟨fun _ _ _ _ => ⟨rfl,rfl,rfl⟩,fun _ _ _ => rfl,fun _ _ _ => trivial⟩

/-- When a request is forwarded, no other client's hold on that store is open. -/
def ExclusiveAt (log : List LockEvent) : LockEvent → Prop
  | .forwarded _ client store _ => ∀ seq holder,
      OpenIn Releases log (.forwarded seq holder store true) → holder=client
  | _ => True

/-- Mutual exclusion over a whole history. -/
def MutualExclusion (s : Traffic) : Prop := EachAt ExclusiveAt s.log

/-- While holds are kept, every further event respects them. -/
theorem mutualExclusion_step {s t : Traffic} {a : Action} (hex : MutualExclusion s)
    (hkept : HoldsKept Releases s) (hs : step s a=some t) : MutualExclusion t := by
  rw [MutualExclusion] at hex ⊢
  cases taken_of_step hs with
  | forwarded client cmd store hfwd _ hlog =>
    rw [hlog]
    refine hex.append ?_
    intro seq holder hopen
    have ho : (s.broker.lockOf store).owner=some holder := hkept seq holder store hopen
    rcases (StoreLock.request_forward hfwd).1 with hf | hf
    · rw [hf] at ho
      exact (Option.some.inj ho).symm
    · rw [hf] at ho
      cases ho
  | ignored client cmd _ hlog =>
    rw [hlog]
    exact hex
  | disconnected client _ hlog =>
    rw [hlog]
    exact hex.append trivial
  | answered r rest _ _ hlog =>
    rw [hlog]
    exact hex.append trivial
  | cleared lost _ hlog =>
    rw [hlog]
    exact hex.append trivial

/-- The next answer, if it reports a store unlocked, does not answer a
request forwarded before a lock request of the store's present owner. -/
def FreshAnswer (s : Traffic) : Action → Prop
  | .answer => ∀ r rest, s.pending=r::rest → r.locked=false →
      ∀ seq client, s.broker.ownerOf r.store=some client →
        .forwarded seq client r.store true ∈ s.log → seq < r.seq
  | _ => True

/-- In every run in which no unlocked answer is older than the hold of the
store's present owner, requests are forwarded under mutual exclusion and
no owner loses its store before its hold is released. -/
theorem exclusion_of_fresh_answers (acts : List Action)
    (h : Meets step FreshAnswer Traffic.init acts) :
    Always step (fun s => MutualExclusion s ∧ HoldsKept Releases s) Traffic.init acts := by
  have hstep : ∀ s a t, (MutualExclusion s ∧ HoldsKept Releases s) → FreshAnswer s a →
      step s a=some t → (MutualExclusion t ∧ HoldsKept Releases t) := by
    rintro s a t ⟨hex,hkept⟩ hok hs
    refine ⟨mutualExclusion_step hex hkept hs,
      holdsKept_step closesHolds_releases hkept ?_ hs⟩
    cases a with
    | answer =>
      intro r rest hp hl seq client ho hm
      exact ⟨rfl,rfl,hok r rest hp hl seq client ho hm⟩
    | request client cmd => trivial
    | disconnect client => trivial
    | clear lost => trivial
  have hinit : MutualExclusion Traffic.init ∧ HoldsKept Releases Traffic.init :=
    ⟨eachAt_nil _,fun _ _ _ ho => absurd ho (not_openIn_nil _ _)⟩
  exact always_of_meets step hstep hinit h

/-- Lock request of a client for store zero. -/
def lockZero : CommandRef := serializedRef (tag 'L' 'O' 'C' 'K') [0,0,1,0] (by decide)

/-- Unlock request of a client for store zero. -/
def unlockZero : CommandRef := serializedRef (tag 'L' 'O' 'C' 'K') [0,0,0,0] (by decide)

/-- One client locks, is answered, unlocks and is answered before the next one locks. -/
theorem exclusion_of_answered_handover :
    Always step (fun s => MutualExclusion s ∧ HoldsKept Releases s) Traffic.init
      [.request ⟨1,1⟩ lockZero,.answer,.request ⟨1,1⟩ unlockZero,.answer,
        .request ⟨2,1⟩ lockZero] := by
  refine exclusion_of_fresh_answers _ ⟨trivial,fun s1 h1 => ⟨?_,fun s2 h2 =>
    ⟨trivial,fun s3 h3 => ⟨?_,fun s4 h4 => ⟨trivial,fun s5 h5 => trivial⟩⟩⟩⟩⟩
  · cases h1
    intro r rest hp hl
    cases hp
    cases hl
  · cases h1
    cases h2
    cases h3
    intro r rest hp hl seq client ho
    cases hp
    have hnone := ho.symm.trans (show _=none by decide)
    cases hnone

/-- The previous owner's unlock is answered only after the next client's
lock request, and takes the store away from it. -/
def staleAnswerRun : List Action :=
  [.request ⟨1,1⟩ lockZero,.answer,.request ⟨1,1⟩ unlockZero,.request ⟨2,1⟩ lockZero,
    .answer,.request ⟨3,1⟩ lockZero]

/-- Two clients' lock requests for one store are forwarded with no release
of the first one in between. -/
theorem staleAnswerRun_not_exclusive :
    ∃ s, run step Traffic.init staleAnswerRun=some s ∧ ¬MutualExclusion s := by
  have hrun : (run step Traffic.init staleAnswerRun).map Traffic.log=
      some ([.forwarded 0 ⟨1,1⟩ 0 true,.status 0 0 true,.forwarded 1 ⟨1,1⟩ 0 false,
        .forwarded 2 ⟨2,1⟩ 0 true,.status 1 0 false]++[.forwarded 3 ⟨3,1⟩ 0 true]) := by decide
  obtain ⟨s,hs,hlog⟩ := Option.map_eq_some_iff.mp hrun
  refine ⟨s,hs,fun hex => ?_⟩
  have hsame := hex _ _ [] hlog 2 ⟨2,1⟩ ⟨[.forwarded 0 ⟨1,1⟩ 0 true,.status 0 0 true,
    .forwarded 1 ⟨1,1⟩ 0 false],[.status 1 0 false],rfl,by
      intro e he
      rw [List.mem_singleton] at he
      subst he
      rintro ⟨_,_,hlt⟩
      omega⟩
  exact absurd hsame (by decide)

/-- Events after which a client no longer holds a store in its own view:
its own unlock, its disconnect, a clear, or any unlocked answer. -/
def EndsHold : LockEvent → LockEvent → Prop
  | .forwarded _ client store true,.forwarded _ other place locked =>
    other=client ∧ place=store ∧ locked=false
  | .forwarded _ client _ true,.disconnected other => other=client
  | .forwarded _ _ _ true,.cleared => True
  | .forwarded _ _ store true,.status _ place locked => place=store ∧ locked=false
  | _,_ => False

/-- So does whatever ends it. -/
theorem closesHolds_endsHold : ClosesHolds EndsHold :=
  ⟨fun _ _ _ _ => ⟨rfl,rfl,rfl⟩,fun _ _ _ => rfl,fun _ _ _ => trivial⟩

/-- Lock state of a store in the latest answer that reached the broker. -/
def reportedLocked (store : UInt16) (before : Bool) : LockEvent → Bool
  | .status _ place locked => if place=store then locked else before
  | .cleared => false
  | _ => before

/-- Latest answer for a store since the last clear; false when there is none. -/
def lastReport (log : List LockEvent) (store : UInt16) : Bool :=
  log.foldl (reportedLocked store) false

/-- The broker remembers exactly the latest answers. -/
def ReportsKept (s : Traffic) : Prop :=
  ∀ store, (s.broker.lockOf store).upstreamLocked=lastReport s.log store

/-- The last event decides about the last report. -/
theorem lastReport_append (log : List LockEvent) (e : LockEvent) (store : UInt16) :
    lastReport (log++[e]) store=reportedLocked store (lastReport log store) e := by
  unfold lastReport
  rw [List.foldl_append]
  rfl

/-- Every step keeps the reports. -/
theorem reportsKept_step {s t : Traffic} {a : Action} (h : ReportsKept s)
    (hs : step s a=some t) : ReportsKept t := by
  intro place
  have hplace := h place
  cases taken_of_step hs with
  | forwarded client cmd store hfwd hlock hlog =>
    rw [hlog,lastReport_append,hlock place,(StoreLock.request_forward hfwd).2]
    split
    · rename_i hsame
      rw [hsame] at hplace ⊢
      exact hplace
    · exact hplace
  | ignored client cmd hlock hlog =>
    rw [hlog,hlock place]
    exact hplace
  | disconnected client hlock hlog =>
    rw [hlog,lastReport_append,hlock place,StoreLock.release]
    split
    · exact hplace
    · exact hplace
  | answered r rest _ hlock hlog =>
    rw [hlog,lastReport_append,hlock place,reportedLocked]
    by_cases hsame : place=r.store
    · rw [if_pos hsame,if_pos hsame.symm,StoreLock.report]
      split <;> rfl
    · rw [if_neg hsame,if_neg (fun he => hsame he.symm)]
      exact hplace
  | cleared lost hlock hlog =>
    rw [hlog,lastReport_append,hlock place]
    rfl

/-- In every run: when a client still holds a store, its disconnect
returns the unlock for that store exactly when the latest answer for the
store that reached the broker reported it locked. -/
theorem disconnect_unlocks_iff {acts : List Action} {s : Traffic}
    (hr : run step Traffic.init acts=some s) {seq : ℕ} {client : SocketAddr} {store : UInt16}
    (hopen : OpenIn EndsHold s.log (.forwarded seq client store true)) :
    synthesizeUnlock store ∈ (s.broker.clientDisconnected client).2 ↔
      lastReport s.log store=true := by
  have hstep : ∀ s a t, (HoldsKept EndsHold s ∧ ReportsKept s) → step s a=some t →
      (HoldsKept EndsHold t ∧ ReportsKept t) := by
    rintro s a t ⟨hkept,hrep⟩ hs
    refine ⟨holdsKept_step closesHolds_endsHold hkept ?_ hs,reportsKept_step hrep hs⟩
    cases a with
    | answer =>
      intro r rest hp hl later other ho hm
      exact ⟨rfl,rfl⟩
    | request other cmd => trivial
    | disconnect other => trivial
    | clear lost => trivial
  have hinit : HoldsKept EndsHold Traffic.init ∧ ReportsKept Traffic.init :=
    ⟨fun _ _ _ ho => absurd ho (not_openIn_nil _ _),fun _ => rfl⟩
  obtain ⟨hkept,hrep⟩ := run_invariant step hstep hinit hr
  rw [LockBroker.mem_clientDisconnected_iff,hkept seq client store hopen,hrep store]
  exact ⟨fun h => h.2,fun h => ⟨rfl,h⟩⟩

/-- A confirmed owner's disconnect unlocks its store. -/
theorem disconnect_unlocks_confirmed :
    ∃ s, run step Traffic.init [.request ⟨1,1⟩ lockZero,.answer]=some s ∧
      synthesizeUnlock 0 ∈ (s.broker.clientDisconnected ⟨1,1⟩).2 := by
  have hrun : (run step Traffic.init [.request ⟨1,1⟩ lockZero,.answer]).map Traffic.log=
      some [.forwarded 0 ⟨1,1⟩ 0 true,.status 0 0 true] := by decide
  obtain ⟨s,hs,hlog⟩ := Option.map_eq_some_iff.mp hrun
  refine ⟨s,hs,(disconnect_unlocks_iff hs ⟨[],[.status 0 0 true],hlog,?_⟩).mpr ?_⟩
  · intro e he
    rw [List.mem_singleton] at he
    subst he
    rintro ⟨_,hl⟩
    cases hl
  · rw [hlog]
    decide

/-- A client whose forwarded lock request is not yet answered disconnects
without any unlock request, and its later confirmation locks the store. -/
theorem unconfirmed_disconnect_keeps_lock :
    ∃ s, run step Traffic.init [.request ⟨1,1⟩ lockZero]=some s ∧
      OpenIn EndsHold s.log (.forwarded 0 ⟨1,1⟩ 0 true) ∧
      synthesizeUnlock 0 ∉ (s.broker.clientDisconnected ⟨1,1⟩).2 := by
  have hrun : (run step Traffic.init [.request ⟨1,1⟩ lockZero]).map
      (fun s => (s.log,(s.broker.clientDisconnected ⟨1,1⟩).2))=
      some ([.forwarded 0 ⟨1,1⟩ 0 true],[]) := by decide
  obtain ⟨s,hs,heq⟩ := Option.map_eq_some_iff.mp hrun
  obtain ⟨hlog,hout⟩ := Prod.mk.inj heq
  refine ⟨s,hs,?_,?_⟩
  · rw [hlog]
    exact openIn_newest EndsHold [] _
  · rw [hout]
    exact List.not_mem_nil

end AtemProxy.LockTraffic
