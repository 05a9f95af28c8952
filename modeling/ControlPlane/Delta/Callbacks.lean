import ControlPlane.Delta.Step

/-!
The order of the callbacks of one stream of the muxed delta processor. The
teardown is deferred before `OnDeltaStreamOpen` is called, and every return
goes through it, so with callbacks the calls of a stream read
`OnDeltaStreamOpen · (OnStreamDeltaRequest | OnStreamDeltaResponse)* ·
OnDeltaStreamClosed`, also when `OnDeltaStreamOpen` fails, and the teardown
invokes every non-nil cancel handle before the closing callback.
-/

namespace ControlPlane.Delta

/-- Whether an event is a callback. -/
def Event.isCallback : Event → Bool
  | .onDeltaStreamOpen | .onStreamDeltaRequest _ | .onStreamDeltaResponse _ _
  | .onDeltaStreamClosed => true
  | _ => false

/-- Whether an event is a request or response callback. -/
def Event.isExchange : Event → Bool
  | .onStreamDeltaRequest _ | .onStreamDeltaResponse _ _ => true
  | _ => false

/-- The callbacks of a trace, in order. -/
def callbackEvents (trace : List Event) : List Event := trace.filter Event.isCallback

@[simp] theorem callbackEvents_append (trace new : List Event) :
    callbackEvents (trace ++ new) = callbackEvents trace ++ callbackEvents new :=
  List.filter_append ..

@[simp] theorem callbackEvents_singleton (e : Event) :
    callbackEvents [e] = if e.isCallback then [e] else [] := by
  unfold callbackEvents; split <;> simp [*]

@[simp] theorem callbackEvents_cancels (handles : List Nat) :
    callbackEvents (handles.map .cancel) = [] := by
  simp [callbackEvents, Event.isCallback]

/-- The callbacks so far, by where the processor is: none before
`OnDeltaStreamOpen`; the open callback then request and response callbacks
while it runs; after it returns, the closing callback as well, preceded by
every non-nil handle's cancel. -/
def CallbackOrder (s : Session) : Prop :=
  match s.phase with
  | .opening => callbackEvents s.trace = []
  | .returned _ =>
    ∃ mid, callbackEvents s.trace = .onDeltaStreamOpen :: mid ++ [.onDeltaStreamClosed] ∧
      (∀ e ∈ mid, e.isExchange) ∧
      ∃ pre post, s.trace = pre ++ .onDeltaStreamClosed :: post ∧
        ∀ handle ∈ s.values.cancelHandles, Event.cancel handle ∈ pre
  | _ => ∃ mid, callbackEvents s.trace = .onDeltaStreamOpen :: mid ∧ ∀ e ∈ mid, e.isExchange

variable {server : Server} {d : Discipline} {defaultTypeURL : String} {typeURLs : List String}

/-- The callbacks of a running processor: past the open callback, with request
and response callbacks since. -/
def Running (trace : List Event) : Prop :=
  ∃ mid, callbackEvents trace = .onDeltaStreamOpen :: mid ∧ ∀ e ∈ mid, e.isExchange

theorem Running.append {trace new : List Event} (h : Running trace)
    (hnew : ∀ e ∈ callbackEvents new, e.isExchange) : Running (trace ++ new) := by
  obtain ⟨mid, hmid, hex⟩ := h
  refine ⟨mid ++ callbackEvents new, by simp [hmid], fun e he => ?_⟩
  rcases List.mem_append.mp he with he | he
  · exact hex e he
  · exact hnew e he

/-- A return from a running processor closes the callbacks after the cancels. -/
theorem callbackOrder_exit (hcallbacks : server.callbacks = true) {s : Session}
    (h : Running s.trace) (err : Option Error) : CallbackOrder (s.exit server err) := by
  obtain ⟨mid, hmid, hex⟩ := h
  refine ⟨mid, ?_, hex, s.trace ++ s.values.cancelHandles.map .cancel, [], ?_, ?_⟩
  · simp only [Session.exit_trace, Session.callback, hcallbacks, if_true, callbackEvents_append,
      callbackEvents_cancels, hmid, List.append_nil]
    rfl
  · simp [Session.callback, hcallbacks]
  · intro handle hhandle
    simp_all

theorem running_prepared {s s₁ : Session} (h : Running s.trace) (hprepare : s.Prepared s₁) :
    Running s₁.trace := by
  obtain ⟨new, htrace, hnew⟩ := hprepare.trace
  rw [htrace]
  refine h.append fun e he => ?_
  obtain ⟨he, hcallback⟩ := List.mem_filter.mp he
  rcases hnew e he with ⟨_, _, rfl⟩ | ⟨_, rfl⟩
  · cases hcallback
  · rfl

theorem running_stamp {s : Session} (h : Running s.trace) (req : DeltaDiscoveryRequest)
    (out : DeltaDiscoveryResponse) : Running (s.stamp server req out).trace := by
  rw [Session.stamp_trace, List.append_assoc]
  refine h.append ?_
  unfold Session.callback
  split <;> simp [callbackEvents, Event.isCallback, Event.isExchange]

theorem running_of_callbackOrder {s : Session} (h : CallbackOrder s) (hp : s.phase.running) :
    Running s.trace := by
  unfold CallbackOrder at h
  split at h
  · simp_all [Phase.running]
  · simp_all [Phase.running]
  · exact h

theorem callbackOrder_of_running {s : Session} (h : Running s.trace) (hp : s.phase.running) :
    CallbackOrder s := by
  unfold CallbackOrder
  split
  · simp_all [Phase.running]
  · simp_all [Phase.running]
  · exact h

/-- With callbacks, every transition keeps the callback order. -/
theorem CallbackOrder.transition (hcallbacks : server.callbacks = true) {s s' : Session}
    (h : CallbackOrder s) (ht : Transition server d defaultTypeURL s s') : CallbackOrder s' := by
  have hrun (hp : s.phase.running) := running_of_callbackOrder h hp
  -- the request case up to its reconciliation keeps the processor running
  have hprep {req accepted s₁ res} (hphase : s.phase = .selecting)
      (hprepare : s.prepare server defaultTypeURL req accepted = (s₁, res)) : Running s₁.trace :=
    running_prepared (hrun (by simp [hphase, Phase.running]))
      (Session.prepared_of_prepare server hprepare)
  cases ht with
  | opened hphase =>
    unfold CallbackOrder at h
    rw [hphase] at h
    refine callbackOrder_of_running ⟨[], ?_, by simp⟩ rfl
    simp [h, Session.callback, hcallbacks, Event.isCallback]
  | openFailed err hphase =>
    unfold CallbackOrder at h
    rw [hphase] at h
    refine callbackOrder_exit hcallbacks ⟨[], ?_, by simp⟩ _
    simp [h, Event.isCallback]
  | emit watch response =>
    unfold CallbackOrder at h ⊢
    simp only [Session.emitted, callbackEvents_append, callbackEvents_singleton, Event.isCallback]
    split at h
    · simp [h]
    · obtain ⟨mid, hmid, hex, pre, post, htrace, hpre⟩ := h
      exact ⟨mid, by simp [hmid], hex, pre, post ++ [.emit watch response], by simp [htrace],
        by simpa [Watches.cancelHandles] using hpre⟩
    · obtain ⟨mid, hmid, hex⟩ := h
      exact ⟨mid, by simp [hmid], hex⟩
  | exit err hphase =>
    exact callbackOrder_exit hcallbacks (hrun (by simp [hphase, Phase.running])) _
  | rejected req accepted s₁ err hphase hprepare =>
    exact callbackOrder_exit hcallbacks (hprep hphase hprepare) _
  | ignored req accepted s₁ _ hphase hprepare | uncancelled req accepted s₁ _ hphase hprepare =>
    have h₁ := hprep hphase hprepare
    exact callbackOrder_of_running h₁ rfl
  | cancelled req accepted s₁ _ handle hphase hprepare =>
    refine callbackOrder_of_running ((hprep hphase hprepare).append ?_) rfl
    simp [Event.isCallback]
  | unsent e ch next err hnext =>
    exact callbackOrder_exit (s := s.popped ch) hcallbacks (hrun hnext.running.1) _
  | sendFailed e ch next r out err hnext =>
    refine callbackOrder_exit hcallbacks ?_ _
    exact running_stamp (s := s.popped ch) (hrun hnext.running.1) _ _
  | updateFailed e ch next r out state err hnext =>
    refine callbackOrder_exit hcallbacks ?_ _
    exact running_stamp (s := s.popped ch) (hrun hnext.running.1) _ _
  | processed e ch next r out state hnext =>
    refine callbackOrder_of_running (Running.append
      (running_stamp (s := s.popped ch) (hrun hnext.running.1) _ _) ?_) hnext.running.2
    simp [Event.isCallback]
  | drained req hphase =>
    exact callbackOrder_of_running (s := { s with phase := _ })
      (hrun (by simp [hphase, Phase.running])) rfl
  | register req hphase =>
    refine callbackOrder_of_running (s := s.register req)
      (Running.append (hrun (by simp [hphase, Phase.running])) ?_) rfl
    simp [Event.isCallback]

theorem callbackOrder_reachable (hcallbacks : server.callbacks = true) {s : Session}
    (hs : Reachable server d defaultTypeURL typeURLs s) : CallbackOrder s :=
  reachable_induction server d defaultTypeURL typeURLs (P := CallbackOrder) rfl
    (fun _ _ _ h ht => h.transition hcallbacks ht) hs

/-- With callbacks, once `processDelta` has returned, by whichever path, its
callbacks were `OnDeltaStreamOpen`, then only request and response callbacks,
then `OnDeltaStreamClosed`, once and last; and every non-nil handle left in
`deltaCancellations` was invoked before `OnDeltaStreamClosed`. -/
theorem callbacks_on_return (hcallbacks : server.callbacks = true) {s : Session}
    {err : Option Error} (hs : Reachable server d defaultTypeURL typeURLs s)
    (hreturned : s.phase = .returned err) :
    ∃ mid, callbackEvents s.trace = .onDeltaStreamOpen :: mid ++ [.onDeltaStreamClosed] ∧
      (∀ e ∈ mid, e.isExchange) ∧
      ∃ pre post, s.trace = pre ++ .onDeltaStreamClosed :: post ∧
        ∀ typeURL handle, s.values.deltaCancellations.lookup typeURL = some (some handle) →
          Event.cancel handle ∈ pre := by
  have h := callbackOrder_reachable hcallbacks hs
  unfold CallbackOrder at h
  rw [hreturned] at h
  obtain ⟨mid, hmid, hex, pre, post, htrace, hpre⟩ := h
  exact ⟨mid, hmid, hex, pre, post, htrace,
    fun typeURL handle hlookup => hpre handle (mem_cancelHandles.mpr ⟨typeURL, hlookup⟩)⟩

/-- A server with callbacks and the default buffer sizes. -/
def callbackServer : Server := newServer true []

/-- A single-type stream whose `OnDeltaStreamOpen` fails. -/
def refusedStream : Session :=
  (Session.init callbackServer "c" []).openStream callbackServer (.error "refused")

theorem refusedStream_callbacks :
    callbackServer.callbacks = true ∧
    Reachable callbackServer .prompt "c" [] refusedStream ∧
    refusedStream.phase = .returned (some (.passed "refused")) ∧
    ∃ mid,
      callbackEvents refusedStream.trace = .onDeltaStreamOpen :: mid ++ [.onDeltaStreamClosed] ∧
      (∀ e ∈ mid, e.isExchange) ∧
      ∃ pre post, refusedStream.trace = pre ++ .onDeltaStreamClosed :: post ∧
        ∀ typeURL handle,
          refusedStream.values.deltaCancellations.lookup typeURL = some (some handle) →
          Event.cancel handle ∈ pre :=
  have hreach : Reachable callbackServer .prompt "c" [] refusedStream :=
    .step (a := .openStream (.error "refused")) .init rfl
  ⟨rfl, hreach, rfl, callbacks_on_return rfl hreach rfl⟩

end ControlPlane.Delta
