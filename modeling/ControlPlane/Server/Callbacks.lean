import ControlPlane.Server.Nonces
import ControlPlane.Server.Watches

/-!
The order of the callbacks of one stream of the per-type-channel processor
(pkg/server/v2). As in the muxed processor, the teardown is deferred before
`OnStreamOpen` is called and every return goes through it. So with callbacks
the calls of a stream read `OnStreamOpen · (OnStreamDeltaRequest |
OnStreamDeltaResponse)* · OnStreamClosed`, also when `OnStreamOpen` fails; and
`OnStreamClosed` is the stream's last event, after the cancel of every watch
the stream still holds.
-/

namespace ControlPlane.Server

/-- Whether an event is a callback. -/
def Event.isCallback : Event → Bool
  | .onStreamOpen | .onStreamDeltaRequest _ | .onStreamDeltaResponse _ _ | .onStreamClosed => true
  | _ => false

/-- Whether an event is a request or response callback. -/
def Event.isExchange : Event → Bool
  | .onStreamDeltaRequest _ | .onStreamDeltaResponse _ _ => true
  | _ => false

/-- The callbacks of a trace, in order. -/
def callbackEvents (trace : List Event) : List Event := trace.filter Event.isCallback

@[simp] theorem callbackEvents_append (trace new : List Event) :
    callbackEvents (trace ++ new) = callbackEvents trace ++ callbackEvents new :=
  List.filter_append ..

@[simp] theorem callbackEvents_singleton (e : Event) :
    callbackEvents [e] = if e.isCallback then [e] else [] := by
  unfold callbackEvents; split <;> simp [*]

@[simp] theorem callbackEvents_cancels (handles : List Nat) :
    callbackEvents (handles.map .cancel) = [] := by
  simp [callbackEvents, Event.isCallback]

/-- The callbacks of a running processor: past the open callback, with request
and response callbacks since. -/
def Running (trace : List Event) : Prop :=
  ∃ mid, callbackEvents trace = .onStreamOpen :: mid ∧ ∀ e ∈ mid, e.isExchange

theorem Running.append {trace new : List Event} (h : Running trace)
    (hnew : ∀ e ∈ callbackEvents new, e.isExchange) : Running (trace ++ new) := by
  obtain ⟨mid, hmid, hex⟩ := h
  refine ⟨mid ++ callbackEvents new, by simp [hmid], fun e he => ?_⟩
  rcases List.mem_append.mp he with he | he
  · exact hex e he
  · exact hnew e he

/-- The callbacks so far, by where the processor is: none before
`OnStreamOpen`; the open callback then request and response callbacks while it
runs; after it returns, the closing callback as well, as the last event and
after the cancel of every watch the stream holds. -/
def CallbackOrder (s : Stream) : Prop :=
  match s.phase with
  | .opening => callbackEvents s.trace = []
  | .selecting => Running s.trace
  | .returned _ =>
    ∃ mid, callbackEvents s.trace = .onStreamOpen :: mid ++ [.onStreamClosed] ∧
      (∀ e ∈ mid, e.isExchange) ∧
      ∃ pre, s.trace = pre ++ [.onStreamClosed] ∧ ∀ handle ∈ s.handles, Event.cancel handle ∈ pre

section Order

variable {log : Bool} {urls : TypeURLs} {versions : GoMap String} {s : Stream}

theorem running_of_callbackOrder (h : CallbackOrder s) (hphase : s.phase = .selecting) :
    Running s.trace := by
  unfold CallbackOrder at h
  rwa [hphase] at h

theorem callbackOrder_of_running (h : Running s.trace) (hphase : s.phase = .selecting) :
    CallbackOrder s := by
  unfold CallbackOrder
  rwa [hphase]

/-- A return from a running processor cancels the watches it holds, then
closes the callbacks. -/
theorem callbackOrder_exit (h : Running s.trace) (err : Option Error) :
    CallbackOrder (s.exit true err) := by
  obtain ⟨mid, hmid, hex⟩ := h
  refine ⟨mid, ?_, hex, s.trace ++ s.handles.map Event.cancel, rfl,
    fun handle hh => List.mem_append_right _ (List.mem_map_of_mem _ hh)⟩
  simp [Stream.exit, Stream.callback, hmid, Event.isCallback]

theorem running_send (h : Running s.trace) (resp : Option DeltaResponse) (typeURL : String)
    (sent : Except String Unit) : Running (s.send true resp typeURL sent).1.trace := by
  unfold Stream.send
  split
  · exact h
  · simp only [Stream.callback, if_true, List.append_assoc]
    exact h.append (by simp [callbackEvents, Event.isCallback, Event.isExchange])
  · exact h

/-- A response case keeps the processor running or returns through the
teardown. -/
theorem callbackOrder_respond {s' : Stream} {versions' : GoMap String} {t : ResponseType}
    {sent : Except String Unit} (hphase : s.phase = .selecting) (h : Running s.trace)
    (hrespond : s.respond true urls versions t sent = some (s', versions')) : CallbackOrder s' := by
  rcases respond_cases hrespond with ⟨err, rfl⟩ |
    ⟨s₀, resp, -, htrace, -, hphase₀, -, -, ⟨err, rfl⟩ | ⟨nonce, -, rfl⟩⟩
  · exact callbackOrder_exit h err
  · exact callbackOrder_exit (running_send (htrace ▸ h) _ _ _) err
  · refine callbackOrder_of_running (running_send (htrace ▸ h) _ _ _) ?_
    exact (send_sameWatches true s₀ resp (urls.url t) sent).2.trans (hphase₀.trans hphase)

/-- The request case: a node change and, with callbacks, the request callback,
then the return or the switch. -/
theorem request_cases (callbacks log : Bool) (urls : TypeURLs) (versions : GoMap String)
    (s : Stream) (req : Option DeltaDiscoveryRequest) (accepted : Except String Unit) :
    ∃ s₁ : Stream, s₁.phase = s.phase ∧ s₁.values = s.values ∧ s₁.watches = s.watches ∧
      s₁.streamNonce = s.streamNonce ∧
      (s₁.trace = s.trace ∨
        ∃ r, callbacks = true ∧ s₁.trace = s.trace ++ [.onStreamDeltaRequest r]) ∧
      ((∃ err, s.request callbacks log urls versions req accepted = s₁.exit callbacks err) ∨
        ∃ r nonce, s.request callbacks log urls versions req accepted =
          s₁.rewatch urls versions r nonce) := by
  rcases Stream.request_exit_or_handle callbacks log urls versions s req accepted with
    ⟨err, h⟩ | ⟨req, -, h⟩ <;> rw [h]
  · exact ⟨s, rfl, rfl, rfl, rfl, .inl rfl, .inl ⟨_, rfl⟩⟩
  unfold Stream.handle
  rcases Stream.rehydrate s.node s.streamNonce req with ⟨node, nonce, req₁⟩
  dsimp only
  split
  · exact ⟨{ s with node }, rfl, rfl, rfl, rfl, .inl rfl, .inl ⟨_, rfl⟩⟩
  · rename_i req₂ _
    split
    · rename_i hcallbacks
      split
      all_goals refine ⟨{ s with node, trace := s.trace ++ [Event.onStreamDeltaRequest req₂] },
        rfl, rfl, rfl, rfl, .inr ⟨req₂, hcallbacks, rfl⟩, ?_⟩
      exacts [.inl ⟨_, rfl⟩, .inr ⟨_, _, rfl⟩]
    · exact ⟨{ s with node }, rfl, rfl, rfl, rfl, .inl rfl, .inr ⟨_, _, rfl⟩⟩

/-- The switch invokes a handle and creates a watch: no callback. -/
theorem running_rewatch (urls : TypeURLs) (versions : GoMap String) (h : Running s.trace)
    (req : DeltaDiscoveryRequest) (nonce : String) :
    Running (s.rewatch urls versions req nonce).trace ∧
      (s.rewatch urls versions req nonce).phase = s.phase := by
  unfold Stream.rewatch
  split
  · exact ⟨h, rfl⟩
  · rename_i t _
    refine ⟨?_, rfl⟩
    simp only [List.append_assoc]
    refine h.append ?_
    cases (s.values t).watch <;> simp [callbackEvents, Event.isCallback]

theorem callbackOrder_request (hphase : s.phase = .selecting) (h : Running s.trace)
    (req : Option DeltaDiscoveryRequest) (accepted : Except String Unit) :
    CallbackOrder (s.request true log urls versions req accepted) := by
  obtain ⟨s₁, hphase₁, -, -, -, htrace, hend⟩ :=
    request_cases true log urls versions s req accepted
  have h₁ : Running s₁.trace := by
    rcases htrace with htrace | ⟨r, -, htrace⟩ <;> rw [htrace]
    · exact h
    · exact h.append (by simp [Event.isCallback, Event.isExchange])
  rcases hend with ⟨err, hexit⟩ | ⟨r, nonce, hrewatch⟩
  · rw [hexit]
    exact callbackOrder_exit h₁ err
  · obtain ⟨h', hphase'⟩ := running_rewatch urls versions h₁ r nonce
    rw [hrewatch]
    exact callbackOrder_of_running h' (by rw [hphase', hphase₁, hphase])

/-- `OnStreamOpen` is the first callback, whether or not it fails. -/
theorem callbackOrder_openStream (h : callbackEvents s.trace = [])
    (result : Except String Unit) : CallbackOrder (s.openStream true result) := by
  have hopen : Running (s.trace ++ [Event.onStreamOpen]) :=
    ⟨[], by simp [h, Event.isCallback], by simp⟩
  rcases result with err | ⟨⟩
  · exact callbackOrder_exit hopen _
  · exact callbackOrder_of_running hopen rfl

/-- With callbacks, every step keeps the callback order. -/
theorem CallbackOrder.step {s' : Stream} {versions' : GoMap String} {a : Action}
    (h : CallbackOrder s) (hstep : s.step true log urls versions a = some (s', versions')) :
    CallbackOrder s' := by
  rcases Stream.step_cases hstep with ⟨result, hphase, rfl, -⟩ | ⟨hphase, rfl, -⟩ |
    ⟨t, sent, hphase, hrespond⟩ | ⟨req, accepted, hphase, rfl, -⟩ | ⟨-, -, -, -, -, -, rfl, -⟩
  · unfold CallbackOrder at h
    rw [hphase] at h
    exact callbackOrder_openStream h result
  · exact callbackOrder_exit (running_of_callbackOrder h hphase) none
  · exact callbackOrder_respond hphase (running_of_callbackOrder h hphase) hrespond
  · exact callbackOrder_request hphase (running_of_callbackOrder h hphase) req accepted
  · -- the cache's side of a channel touches neither the trace nor the slots
    exact h

end Order

theorem callbackOrder_reachable {server : Config} (hcallbacks : server.callbacks = true)
    {s : Stream} (hs : Stream.Reachable server s) : CallbackOrder s := by
  induction hs with
  | init => rfl
  | step _ hstep ih =>
    rw [hcallbacks] at hstep
    exact ih.step hstep

/-- With callbacks, once `processDelta` has returned, by whichever path, its
callbacks were `OnStreamOpen`, then only request and response callbacks, then
`OnStreamClosed`; and `OnStreamClosed` is the stream's last event, after the
cancel of every watch one of its six types still holds. -/
theorem callbacks_closed_last {server : Config} (hcallbacks : server.callbacks = true)
    {s : Stream} {err : Option Error} (hs : Stream.Reachable server s)
    (hreturned : s.phase = .returned err) :
    ∃ mid, callbackEvents s.trace = .onStreamOpen :: mid ++ [.onStreamClosed] ∧
      (∀ e ∈ mid, e.isExchange) ∧
      ∃ pre, s.trace = pre ++ [.onStreamClosed] ∧
        ∀ handle ∈ s.handles, Event.cancel handle ∈ pre := by
  have h := callbackOrder_reachable hcallbacks hs
  unfold CallbackOrder at h
  rwa [hreturned] at h

/-- A server with callbacks. -/
def callbackConfig : Config := ⟨true, false, sampleURLs⟩

/-- An endpoint stream asks for endpoints and is then cancelled by its context. -/
def doneAfterRequest : List WorldAction :=
  [.start "e", .step 0 (.openStream (.ok ())),
    .step 0 (.request (some (endpointRequest "")) (.ok ())), .step 0 .done]

/-- Its endpoint watch is cancelled before `OnStreamClosed`. -/
theorem doneAfterRequest_callbacks : ∃ w, World.init.run callbackConfig doneAfterRequest = some w ∧
    ∃ s, w.streams = [s] ∧ s.handles = [0] ∧ s.phase = .returned none ∧
    ∃ mid, callbackEvents s.trace = .onStreamOpen :: mid ++ [.onStreamClosed] ∧
      (∀ e ∈ mid, e.isExchange) ∧
      ∃ pre, s.trace = pre ++ [.onStreamClosed] ∧
        ∀ handle ∈ s.handles, Event.cancel handle ∈ pre := by
  obtain ⟨w, hrun, s, hstreams, hhandles, hphase⟩ : ∃ w,
      World.init.run callbackConfig doneAfterRequest = some w ∧
      ∃ s, w.streams = [s] ∧ s.handles = [0] ∧ s.phase = .returned none :=
    ⟨_, rfl, _, rfl, rfl, rfl⟩
  have hs : Stream.Reachable callbackConfig s :=
    World.Reachable.stream ((World.Reachable.init : World.Reachable callbackConfig _).run hrun) s
      (by simp [hstreams])
  exact ⟨w, hrun, s, hstreams, hhandles, hphase, callbacks_closed_last rfl hs hphase⟩

end ControlPlane.Server
