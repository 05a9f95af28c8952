import ControlPlane.Delta.Ownership

/-!
Watch reconciliation in the request case of `processDelta`. A NACK or stale
ACK (a nonce is recorded for the type URL and the request does not echo it)
goes back to the `select` with the stores changed only by the unsubscribe step.
Otherwise a stored non-nil handle is invoked and `processAll` drains the
response channel until it finds it empty; with no such handle there is no
drain at all. `CreateDeltaWatch` follows, once, with the state stored for the
type URL as it then stands, and its handle becomes the type's cancellation.

The request case, each iteration of the drain and `CreateDeltaWatch` are
separate steps, between which the cache may send, so the statements go by
phase: what each step the processor can take from it does.
-/

namespace ControlPlane.Delta

/-- A NACK or stale ACK: a nonce is recorded for `typeURL`, and `nonce` is not it. -/
def Stale (values : Watches) (typeURL nonce : String) : Prop :=
  ∃ recorded, values.deltaNonces.lookup typeURL = some recorded ∧ recorded ≠ nonce

theorem wantsWatch_eq_false {values : Watches} {typeURL nonce : String} :
    values.wantsWatch typeURL nonce = false ↔ Stale values typeURL nonce := by
  unfold Watches.wantsWatch Stale
  split <;> simp [*]

/-- None of `new` is a `CreateDeltaWatch` call. -/
def Uncreated (new : List Event) : Prop :=
  ∀ req state handle, Event.createDeltaWatch req state handle ∉ new

theorem Uncreated.append {new more : List Event} (h : Uncreated new) (hmore : Uncreated more) :
    Uncreated (new ++ more) := fun req state handle he =>
  (List.mem_append.mp he).elim (h req state handle) (hmore req state handle)

/-- What handling an accepted request `req`, normalised to `prepared`, leaves:
the stores changed only by `prepared`'s unsubscribe step, and the trace
extended by the unsubscribe and request-callback events `new` and then, by the
nonce and handle stored for `prepared`'s type URL: a stale request returns to
the `select`; otherwise a stored non-nil handle is invoked and the drain
begins; with none the processor goes straight on to `CreateDeltaWatch`. -/
structure Reconciles (s : Session) (req prepared : DeltaDiscoveryRequest) (s' : Session) :
    Prop where
  values : s'.values =
    if prepared.resourceNamesUnsubscribe ≠ [] then
      s.values.unsubscribe prepared.typeUrl prepared.resourceNamesUnsubscribe
    else s.values
  outcome : ∃ new, (∀ e ∈ new, (∃ typeURL names, e = .unsubscribed typeURL names) ∨
      ∃ r, e = .onStreamDeltaRequest r) ∧
    (Stale s.values prepared.typeUrl req.responseNonce ∧
        s'.phase = .selecting ∧ s'.trace = s.trace ++ new ∨
      ¬ Stale s.values prepared.typeUrl req.responseNonce ∧
        (∃ handle, s.values.deltaCancellations.lookup prepared.typeUrl = some (some handle) ∧
          s'.phase = .draining prepared ∧ s'.trace = s.trace ++ new ++ [.cancel handle]) ∨
      ¬ Stale s.values prepared.typeUrl req.responseNonce ∧
        (∀ handle, s.values.deltaCancellations.lookup prepared.typeUrl ≠ some (some handle)) ∧
        s'.phase = .registering prepared ∧ s'.trace = s.trace ++ new)

/-- `CreateDeltaWatch` for `r`: called with the state stored for `r`'s type URL
as it stands, the zero state if there is none; its handle, the next watch
number, is stored as the type's cancellation, and the processor goes back to
the `select`. -/
structure Registers (s : Session) (r : DeltaDiscoveryRequest) (s' : Session) : Prop where
  phase : s'.phase = .selecting
  trace : s'.trace = s.trace ++
    [.createDeltaWatch r ((s.values.deltaStreamStates.lookup r.typeUrl).getD .zero)
      s.registered.length]
  registered : s'.registered = s.registered ++ [r]
  deltaCancellations :
    s'.values.deltaCancellations.lookup r.typeUrl = some (some s.registered.length)

variable (server : Server) in
/-- `process` for the response at the head of the channel: stamped with the
stream's next nonce, it is handed to `OnStreamDeltaResponse` (on a server with
callbacks) and to `Send`; the nonce is stored for its type URL with a nil
handle, together with the state `update` returns; the channel keeps the rest. -/
structure Processes (s : Session) (resp : DeltaResponse) (nonce : String) (s' : Session) :
    Prop where
  stamped : nonce = formatInt (nextNonce s.streamNonce)
  taken : ∃ e, s.values.deltaResponses.contents = e :: s'.values.deltaResponses.contents ∧
    e.response = some resp
  sent : s'.trace = s.trace ++
    Session.callback server (.onStreamDeltaResponse resp.deltaRequest ⟨nonce⟩) ++
      [.send ⟨nonce⟩, .processed resp nonce]
  deltaNonces : s'.values.deltaNonces.lookup resp.deltaRequest.typeUrl = some nonce
  deltaCancellations : s'.values.deltaCancellations.lookup resp.deltaRequest.typeUrl = some none
  deltaStreamStates : ∃ state, update resp nonce = (state, none) ∧
    s'.values.deltaStreamStates.lookup resp.deltaRequest.typeUrl = some state

variable {server : Server} {d : Discipline} {defaultTypeURL : String}

theorem Session.unsubscribeStep_values (s : Session) (req : DeltaDiscoveryRequest) :
    (s.unsubscribeStep req).values =
      if req.resourceNamesUnsubscribe ≠ [] then
        s.values.unsubscribe req.typeUrl req.resourceNamesUnsubscribe
      else s.values := by
  unfold Session.unsubscribeStep
  split <;> simp only [*, if_true, if_false]

/-- The request case up to the callback changes the stores by the unsubscribe
step of the request it yields, and by nothing else. -/
theorem Session.prepare_values {s s₁ : Session} {req prepared : DeltaDiscoveryRequest}
    {accepted : Except String Unit}
    (h : s.prepare server defaultTypeURL req accepted = (s₁, .ok prepared)) :
    s₁.values = (s.unsubscribeStep prepared).values := by
  unfold Session.prepare at h
  rcases hr : rehydrate s.node req with ⟨node, req₁⟩
  rw [hr] at h
  dsimp only at h
  rcases hp : policeTypeURL defaultTypeURL req₁ with err | req₂ <;> rw [hp] at h <;>
    dsimp only at h
  · cases h
  have hvalues :
      ({ s with node }.unsubscribeStep req₂).values = (s.unsubscribeStep req₂).values := by
    simp only [Session.unsubscribeStep_values]
  split at h
  · rcases accepted with _ | ⟨⟩ <;> cases h
    exact hvalues
  · cases h
    exact hvalues

/-- Handling an accepted request from the `select` reconciles its watch. -/
theorem request_reconciles {s s₁ : Session} {req prepared : DeltaDiscoveryRequest}
    {accepted : Except String Unit} (hphase : s.phase = .selecting)
    (hprepare : s.prepare server defaultTypeURL req accepted = (s₁, .ok prepared)) :
    ∃ s', s.step server d defaultTypeURL (.request (some req) accepted) = some s' ∧
      Reconciles s req prepared s' := by
  have hp := Session.prepared_of_prepare server hprepare
  obtain ⟨new, ht, hnew⟩ := hp.trace
  have hvalues :=
    (Session.prepare_values hprepare).trans (Session.unsubscribeStep_values s prepared)
  have hwants : s₁.values.wantsWatch = s.values.wantsWatch := by
    unfold Watches.wantsWatch; rw [hp.deltaNonces]
  refine ⟨s.handle server defaultTypeURL (some req) accepted,
    by simp [Session.step, hphase], ?_⟩
  simp only [Session.handle, hprepare, Session.reconcile, hwants]
  rw [hp.deltaCancellations]
  split
  · rename_i hw
    have hfresh : ¬ Stale s.values prepared.typeUrl req.responseNonce := by
      rw [← wantsWatch_eq_false, hw]; exact Bool.noConfusion
    split
    · rename_i handle hh
      exact ⟨hvalues, new, hnew, .inr (.inl ⟨hfresh, handle, hh, rfl, by rw [ht]⟩)⟩
    · rename_i hh
      exact ⟨hvalues, new, hnew, .inr (.inr ⟨hfresh, hh, rfl, ht⟩)⟩
  · rename_i hw
    exact ⟨hvalues, new, hnew,
      .inl ⟨wantsWatch_eq_false.mp (by simpa using hw), rfl, ht⟩⟩

/-- From the drain, a step is a cache send or the processing of the response at
the head of the channel, after which the drain goes on; a failed `process`,
which returns from `processDelta`; or, on an empty channel only, the move to
`CreateDeltaWatch` with nothing else changed. -/
theorem draining_step {s s' : Session} {r : DeltaDiscoveryRequest} {a : Action}
    (hphase : s.phase = .draining r) (h : s.step server d defaultTypeURL a = some s') :
    s'.phase = .draining r ∧ ((∃ watch response, s' = s.emitted watch response) ∨
        ∃ resp nonce, Processes server s resp nonce s') ∨
      (∃ err, s'.phase = .returned (some err)) ∨
      s.values.deltaResponses.contents = [] ∧ s' = { s with phase := .registering r } := by
  cases step_transition h with
  | opened h' | openFailed _ h' | exit _ h' | rejected _ _ _ _ h' | ignored _ _ _ _ h'
  | cancelled _ _ _ _ _ h' | uncancelled _ _ _ _ h' | register _ h' =>
    rw [hphase] at h'; cases h'
  | emit watch response => exact .inl ⟨hphase, .inl ⟨watch, response, rfl⟩⟩
  | unsent | sendFailed | updateFailed => exact .inr (.inl ⟨_, rfl⟩)
  | processed e ch next r' out state hnext hrecv hresp hout hupdate =>
    rcases hnext with ⟨h', -⟩ | ⟨req, h', rfl⟩
    · rw [hphase] at h'; cases h'
    · rw [hphase] at h'; cases h'
      exact .inl ⟨rfl, .inr ⟨r', _, ⟨rfl, ⟨e, (Chan.recv?_eq_some hrecv).1, hresp⟩,
        by simp [Session.stamped], by simp [Watches.record], by simp [Watches.record],
        state, hupdate, by simp [Watches.record]⟩⟩⟩
  | drained req h' hempty =>
    rw [hphase] at h'; cases h'
    exact .inr (.inr ⟨hempty, rfl⟩)

/-- From `CreateDeltaWatch`'s phase, a step is a cache send or the call itself. -/
theorem registering_step {s s' : Session} {r : DeltaDiscoveryRequest} {a : Action}
    (hphase : s.phase = .registering r) (h : s.step server d defaultTypeURL a = some s') :
    (∃ watch response, s' = s.emitted watch response) ∨ Registers s r s' := by
  cases step_transition h with
  | opened h' | openFailed _ h' | exit _ h' | rejected _ _ _ _ h' | ignored _ _ _ _ h'
  | cancelled _ _ _ _ _ h' | uncancelled _ _ _ _ h' | drained _ h' =>
    rw [hphase] at h'; cases h'
  | unsent _ _ _ _ hnext | sendFailed _ _ _ _ _ _ hnext | updateFailed _ _ _ _ _ _ _ hnext
  | processed _ _ _ _ _ _ hnext =>
    rcases hnext with ⟨h', -⟩ | ⟨_, h', -⟩ <;> rw [hphase] at h' <;> cases h'
  | emit watch response => exact .inl ⟨watch, response, rfl⟩
  | register req h' =>
    rw [hphase] at h'; cases h'
    exact .inr ⟨rfl, rfl, rfl, by simp [Session.register]⟩

theorem uncreated_callback (server : Server) {e : Event}
    (h : ∀ req state handle, e ≠ .createDeltaWatch req state handle) :
    Uncreated (Session.callback server e) := by
  intro req state handle he
  unfold Session.callback at he
  split at he
  · exact h req state handle (List.mem_singleton.mp he).symm
  · cases he

theorem uncreated_exit (server : Server) (values : Watches) :
    Uncreated (values.cancelHandles.map .cancel ++ Session.callback server .onDeltaStreamClosed) :=
  Uncreated.append (fun _ _ _ he => by simp at he)
    (uncreated_callback server fun _ _ _ h => nomatch h)

theorem uncreated_stamp (server : Server) (req : DeltaDiscoveryRequest)
    (out : DeltaDiscoveryResponse) :
    Uncreated (Session.callback server (.onStreamDeltaResponse req out) ++ [.send out]) :=
  Uncreated.append (uncreated_callback server fun _ _ _ h => nomatch h) fun _ _ _ he => by
    simp at he

theorem Session.Prepared.uncreated {s s₁ : Session} (h : s.Prepared s₁) :
    ∃ new, s₁.trace = s.trace ++ new ∧ Uncreated new := by
  obtain ⟨new, ht, hnew⟩ := h.trace
  refine ⟨new, ht, fun req state handle he => ?_⟩
  rcases hnew _ he with ⟨_, _, h⟩ | ⟨_, h⟩ <;> exact nomatch h

/-- Only `CreateDeltaWatch`, from the phase that awaits it, registers a watch:
every other step leaves the registered watches alone and calls no
`CreateDeltaWatch`. -/
theorem step_creates {s s' : Session} {a : Action}
    (h : s.step server d defaultTypeURL a = some s') :
    (∃ r, s.phase = .registering r ∧ s' = s.register r) ∨
      s'.registered = s.registered ∧ ∃ new, s'.trace = s.trace ++ new ∧ Uncreated new := by
  cases step_transition h with
  | opened =>
    exact .inr ⟨rfl, _, rfl, uncreated_callback server fun _ _ _ h => nomatch h⟩
  | openFailed =>
    refine .inr ⟨rfl, [.onDeltaStreamOpen] ++ (s.values.cancelHandles.map .cancel ++
      Session.callback server .onDeltaStreamClosed), by simp, ?_⟩
    exact Uncreated.append (fun _ _ _ he => by simp at he) (uncreated_exit server s.values)
  | emit => exact .inr ⟨rfl, [_], rfl, fun _ _ _ he => by simp at he⟩
  | exit => exact .inr ⟨rfl, _, by simp, uncreated_exit server s.values⟩
  | rejected req accepted s₁ err _ hprepare =>
    have hp := Session.prepared_of_prepare server hprepare
    obtain ⟨new, ht, hnew⟩ := hp.uncreated
    exact .inr ⟨hp.registered, _, by simp [ht], hnew.append (uncreated_exit server s₁.values)⟩
  | ignored req accepted s₁ _ _ hprepare | uncancelled req accepted s₁ _ _ hprepare =>
    have hp := Session.prepared_of_prepare server hprepare
    exact .inr ⟨hp.registered, hp.uncreated⟩
  | cancelled req accepted s₁ _ handle _ hprepare =>
    have hp := Session.prepared_of_prepare server hprepare
    obtain ⟨new, ht, hnew⟩ := hp.uncreated
    exact .inr ⟨hp.registered, new ++ [.cancel handle], by simp [ht],
      hnew.append fun _ _ _ he => by simp at he⟩
  | unsent _ ch => exact .inr ⟨rfl, _, by simp, uncreated_exit server (s.popped ch).values⟩
  | sendFailed _ ch _ r out =>
    exact .inr ⟨rfl, _, by simp, (uncreated_stamp server r.deltaRequest (s.stamped out)).append
      (uncreated_exit server (s.popped ch).values)⟩
  | updateFailed _ ch _ r out state =>
    exact .inr ⟨rfl, _, by simp, (uncreated_stamp server r.deltaRequest (s.stamped out)).append
      (uncreated_exit server
        { (s.popped ch).values.record r.deltaRequest.typeUrl (s.stamped out).nonce state with
          locked := true })⟩
  | processed _ ch _ r out =>
    exact .inr ⟨rfl, _ ++ [.processed r (s.stamped out).nonce], by simp,
      (uncreated_stamp server r.deltaRequest (s.stamped out)).append fun _ _ _ he => by
        simp at he⟩
  | drained => exact .inr ⟨rfl, [], by simp, fun _ _ _ he => nomatch he⟩
  | register req hphase => exact .inl ⟨req, hphase, rfl⟩

end ControlPlane.Delta
