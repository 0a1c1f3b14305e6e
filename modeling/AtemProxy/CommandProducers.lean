import AtemProxy.CommandStreams

/-!
# Where the commands in the channel come from

The datagram handler puts what its filter let through, the tick what its cleanups send,
and either waits for room in the channel. So the stream towards the switcher is an
interleaving of two sequences: no command of either task is lost, repeated or overtaken
by another one of the same task, however the two take turns.
-/

namespace AtemProxy.CommandProducers

open BigEndian CommandPolicy ReliableTransport UpstreamSessions GuardedRuns ProxyTasks
  SessionEpochs ProxySystem CommandEpochs CommandStreams ServerSessions

/-- Commands that a task has produced and not put yet. -/
def waiting (p : Producer) (x : System) : List Bytes :=
  match p with
  | .handler => x.forwards
  | .cleanup => x.cleanups

/-- Steps that belong to the datagram handler. -/
def handles : Action → Bool
  | .datagram _ _ _ => true
  | .handler _ _ => true
  | _ => false

/-- The other tasks leave the handler alone. -/
theorem handler_of_step {s t : Proxy} {a : Action} (ha : handles a=false)
    (h : step s a=some t) : t.handler=s.handler := by
  cases taken_of_step h with
  | upstream op ops _ => exact (Proxy.upstreamStep_frame {s with upstream := ops} op).2.2
  | fanout op ops t _ hdone => cases hdone <;> rfl
  | datagram addr data clock _ => cases ha
  | handler clock replied t _ => cases ha
  | cleanup op ops _ => cases op <;> rfl
  | _ => rfl

/-- The proxy with its session. -/
def ready : System := (run systemStep systemStart sessionReady).getD systemStart

end AtemProxy.CommandProducers
