import ControlPlane.Delta.Watches
import ControlPlane.Nonce

/-!
The closures of `processDelta` (pkg/server/delta/v2) over one session: the
processor's variables (its place in the loop, the nonce counter, the stream
values and the remembered node), the watches the cache registered for the
stream, and the trace of everything the processor called.

The trace holds the calls a collaborator observes (callbacks, `Send`, cancel
handles, `CreateDeltaWatch`), the cache's sends on the response channel, and
two ghost events that record the store updates of `process` and of the
unsubscribe step. A closure that calls a collaborator takes the collaborator's
answer as an argument.
-/

namespace ControlPlane.Delta

/-- What happened on the stream, in order. -/
inductive Event where
  | onDeltaStreamOpen
  | onStreamDeltaRequest (req : DeltaDiscoveryRequest)
  | onStreamDeltaResponse (req : DeltaDiscoveryRequest) (resp : DeltaDiscoveryResponse)
  /-- `str.Send` -/
  | send (resp : DeltaDiscoveryResponse)
  /-- a cancel handle invoked -/
  | cancel (handle : Nat)
  | createDeltaWatch (req : DeltaDiscoveryRequest) (state : StreamState) (handle : Nat)
  | onDeltaStreamClosed
  /-- the cache's watch `handle` sent `response` on the response channel -/
  | emit (handle : Nat) (response : Option DeltaResponse)
  /-- ghost: `process` returned nil for this response, sent with this nonce -/
  | processed (resp : DeltaResponse) (nonce : String)
  /-- ghost: the unsubscribe step removed these names for this type URL -/
  | unsubscribed (typeURL : String) (names : List String)
  deriving DecidableEq

/-- Where the processor is. -/
inductive Phase where
  /-- the teardown is deferred and `OnDeltaStreamOpen` is next -/
  | opening
  /-- blocked in the main `select` -/
  | selecting
  /-- in `processAll`, after cancelling the watch for this request's type -/
  | draining (req : DeltaDiscoveryRequest)
  /-- about to call `CreateDeltaWatch` for this request -/
  | registering (req : DeltaDiscoveryRequest)
  /-- `processDelta` returned this error (`none` for nil), after its teardown -/
  | returned (err : Option Error)
  deriving DecidableEq

structure Session where
  phase : Phase
  /-- `streamNonce`, an `int64` -/
  streamNonce : Int
  values : Watches
  node : Node
  /-- the request of each watch the cache registered, by handle -/
  registered : List DeltaDiscoveryRequest
  trace : List Event

/-- Node rehydration: a request that names a node replaces the remembered one;
a request without one is given it. -/
def rehydrate (node : Node) (req : DeltaDiscoveryRequest) : Node × DeltaDiscoveryRequest :=
  match req.node with
  | some named => (named, req)
  | none => (node, { req with node := some node })

/-- Whether a request asks for a new watch: no response for its type URL has
been processed on the stream, or it echoes the last nonce sent for it. -/
def Watches.wantsWatch (values : Watches) (typeURL nonce : String) : Bool :=
  match values.deltaNonces.lookup typeURL with
  | none => true
  | some responseNonce => responseNonce = nonce

/-- `update`: the stream state a response yields, or the zero state and the
error of the first getter that fails. -/
def update (resp : DeltaResponse) (nonce : String) : StreamState × Option Error :=
  match resp.systemVersion, resp.deltaVersionMap with
  | .error err, _ => (.zero, some (.passed err))
  | .ok _, .error err => (.zero, some (.passed err))
  | .ok sv, .ok vm => (⟨nonce, sv, vm⟩, none)

/-- What `process` writes for a type URL once the response is sent: the nonce,
a nil handle, and the new state. -/
def Watches.record (values : Watches) (typeURL nonce : String) (state : StreamState) :
    Watches :=
  { values with
    deltaNonces := values.deltaNonces.insert typeURL nonce
    deltaCancellations := values.deltaCancellations.insert typeURL none
    deltaStreamStates := values.deltaStreamStates.insert typeURL state }

theorem update_eq_none {resp : DeltaResponse} {nonce : String} {state : StreamState}
    (h : update resp nonce = (state, none)) :
    ∃ sv vm, resp.systemVersion = .ok sv ∧ resp.deltaVersionMap = .ok vm ∧
      state = ⟨nonce, sv, vm⟩ := by
  unfold update at h
  split at h <;> cases h
  exact ⟨_, _, ‹_›, ‹_›, rfl⟩

namespace Session

variable (server : Server)

/-- The session on entry to `processDelta`. -/
def init (defaultTypeURL : String) (typeURLs : List String) : Session where
  phase := .opening
  streamNonce := 0
  values := .init (server.bufferSize defaultTypeURL) typeURLs
  node := .empty
  registered := []
  trace := []

/-- A callback's event, if the server has callbacks. -/
def callback (event : Event) : List Event := if server.callbacks then [event] else []

/-- Return from `processDelta` through its deferred teardown: `values.Cancel()`
invokes every non-nil handle, then `OnDeltaStreamClosed`. -/
def exit (s : Session) (err : Option Error) : Session :=
  { s with
    phase := .returned err
    trace := s.trace ++ s.values.cancelHandles.map .cancel ++ callback server .onDeltaStreamClosed }

/-- The response `send` passes on: the marshalled response with the next value
of the counter as its nonce. -/
def stamped (s : Session) (out : DeltaDiscoveryResponse) : DeltaDiscoveryResponse :=
  { out with nonce := formatInt (nextNonce s.streamNonce) }

/-- The side effects of `send` once the response is marshalled: the counter
moves on, and the stamped response goes to the callback and the transport. -/
def stamp (s : Session) (req : DeltaDiscoveryRequest) (out : DeltaDiscoveryResponse) : Session :=
  { s with
    streamNonce := nextNonce s.streamNonce
    trace := s.trace ++ callback server (.onStreamDeltaResponse req out) ++ [.send out] }

/-- `send`: fail on a nil or unmarshallable response, else stamp the next nonce
and call the response callback and the transport. `sent` is what `str.Send`
returns. -/
def send (s : Session) (resp : Option DeltaResponse) (sent : Except String Unit) :
    Session × Except Error String :=
  match resp with
  | none => (s, .error (.new "missing response"))
  | some resp =>
    match resp.deltaDiscoveryResponse with
    | .error err => (s, .error (.passed err))
    | .ok out =>
      let out := s.stamped out
      (s.stamp server resp.deltaRequest out,
        match sent with
        | .ok () => .ok out.nonce
        | .error err => .error (.passed err))

/-- `process`: send, record the nonce, clear the type's handle and store the
new state under the write lock. After an `update` error it returns with the
zero state stored and the lock held. -/
def process (s : Session) (resp : Option DeltaResponse) (sent : Except String Unit) :
    Session × Option Error :=
  match resp, s.send server resp sent with
  | _, (s, .error err) => (s, some err)
  | some resp, (s, .ok nonce) =>
    match update resp nonce with
    | (state, some err) =>
      ({ s with values := { s.values.record resp.deltaRequest.typeUrl nonce state with
          locked := true } }, some err)
    | (state, none) =>
      ({ s with
          values := { s.values.record resp.deltaRequest.typeUrl nonce state with locked := false }
          trace := s.trace ++ [.processed resp nonce] }, none)
  -- `send` rejects a nil response
  | none, (s, .ok _) => (s, none)

/-- The session once `deltaResponses` has given up its oldest value. -/
def popped (s : Session) (ch : Chan Emission) : Session :=
  { s with values := { s.values with deltaResponses := ch } }

/-- A receive on `deltaResponses` followed by `process`: an error returns from
`processDelta`, otherwise the processor goes on to `next`. -/
def receive (s : Session) (sent : Except String Unit) (next : Phase) : Option Session :=
  match s.values.deltaResponses.recv? with
  | none => none
  | some (e, ch) =>
    match process server (s.popped ch) e.response sent with
    | (s, some err) => some (s.exit server (some err))
    | (s, none) => some { s with phase := next }

/-- `OnDeltaStreamOpen`, whose error returns at once (the teardown still runs). -/
def openStream (s : Session) (result : Except String Unit) : Session :=
  if server.callbacks then
    let s := { s with trace := s.trace ++ [Event.onDeltaStreamOpen] }
    match result with
    | .error err => s.exit server (some (.passed err))
    | .ok () => { s with phase := .selecting }
  else { s with phase := .selecting }

/-- The unsubscribe step, with its ghost event. -/
def unsubscribeStep (s : Session) (req : DeltaDiscoveryRequest) : Session :=
  if req.resourceNamesUnsubscribe ≠ [] then
    { s with
      values := s.values.unsubscribe req.typeUrl req.resourceNamesUnsubscribe
      trace := s.trace ++ [.unsubscribed req.typeUrl req.resourceNamesUnsubscribe] }
  else s

/-- Watch reconciliation up to the drain: invoke a stored non-nil handle and
drain, or go straight to `CreateDeltaWatch`; a NACK or stale ACK changes
nothing. -/
def reconcile (s : Session) (req : DeltaDiscoveryRequest) (nonce : String) : Session :=
  if s.values.wantsWatch req.typeUrl nonce then
    match s.values.deltaCancellations.lookup req.typeUrl with
    | some (some cancel) => { s with phase := .draining req, trace := s.trace ++ [.cancel cancel] }
    | _ => { s with phase := .registering req }
  else { s with phase := .selecting }

/-- The request case up to the callback: node rehydration, type URL policing,
the unsubscribe step and `OnStreamDeltaRequest`, which returns `accepted`. It
yields the request as normalised, or the error that ends the stream. -/
def prepare (defaultTypeURL : String) (s : Session) (req : DeltaDiscoveryRequest)
    (accepted : Except String Unit) : Session × Except Error DeltaDiscoveryRequest :=
  let (node, req) := rehydrate s.node req
  let s := { s with node }
  match policeTypeURL defaultTypeURL req with
  | .error err => (s, .error err)
  | .ok req =>
    let s := s.unsubscribeStep req
    if server.callbacks then
      let s := { s with trace := s.trace ++ [Event.onStreamDeltaRequest req] }
      match accepted with
      | .error err => (s, .error (.passed err))
      | .ok () => (s, .ok req)
    else (s, .ok req)

/-- The request case of the main `select`, up to the drain. -/
def handle (defaultTypeURL : String) (s : Session) (req : Option DeltaDiscoveryRequest)
    (accepted : Except String Unit) : Session :=
  match req with
  | none => s.exit server (some (.status .unavailable "empty request"))
  | some req =>
    match s.prepare server defaultTypeURL req accepted with
    | (s, .error err) => s.exit server (some err)
    | (s, .ok prepared) => s.reconcile prepared req.responseNonce

/-- `CreateDeltaWatch` with the state stored for the type URL (the zero state if
there is none); the new handle becomes the type's cancellation. -/
def register (s : Session) (req : DeltaDiscoveryRequest) : Session :=
  let handle := s.registered.length
  let state := (s.values.deltaStreamStates.lookup req.typeUrl).getD .zero
  { s with
    phase := .selecting
    values := { s.values with
      deltaCancellations := s.values.deltaCancellations.insert req.typeUrl (some handle) }
    registered := s.registered ++ [req]
    trace := s.trace ++ [.createDeltaWatch req state handle] }

@[simp] theorem exit_phase (s : Session) (err : Option Error) :
    (s.exit server err).phase = .returned err := rfl

@[simp] theorem exit_values (s : Session) (err : Option Error) :
    (s.exit server err).values = s.values := rfl

@[simp] theorem exit_registered (s : Session) (err : Option Error) :
    (s.exit server err).registered = s.registered := rfl

@[simp] theorem exit_streamNonce (s : Session) (err : Option Error) :
    (s.exit server err).streamNonce = s.streamNonce := rfl

@[simp] theorem exit_trace (s : Session) (err : Option Error) :
    (s.exit server err).trace =
      s.trace ++ s.values.cancelHandles.map .cancel ++ callback server .onDeltaStreamClosed := rfl

@[simp] theorem stamp_phase (s : Session) (req : DeltaDiscoveryRequest)
    (out : DeltaDiscoveryResponse) :
    (s.stamp server req out).phase = s.phase := rfl

@[simp] theorem stamp_values (s : Session) (req : DeltaDiscoveryRequest)
    (out : DeltaDiscoveryResponse) :
    (s.stamp server req out).values = s.values := rfl

@[simp] theorem stamp_registered (s : Session) (req : DeltaDiscoveryRequest)
    (out : DeltaDiscoveryResponse) : (s.stamp server req out).registered = s.registered := rfl

@[simp] theorem stamp_streamNonce (s : Session) (req : DeltaDiscoveryRequest)
    (out : DeltaDiscoveryResponse) :
    (s.stamp server req out).streamNonce = nextNonce s.streamNonce := rfl

@[simp] theorem stamp_trace (s : Session) (req : DeltaDiscoveryRequest)
    (out : DeltaDiscoveryResponse) :
    (s.stamp server req out).trace =
      s.trace ++ callback server (.onStreamDeltaResponse req out) ++ [.send out] := rfl

@[simp] theorem stamped_nonce (s : Session) (out : DeltaDiscoveryResponse) :
    (s.stamped out).nonce = formatInt (nextNonce s.streamNonce) := rfl

@[simp] theorem popped_phase (s : Session) (ch : Chan Emission) : (s.popped ch).phase = s.phase :=
  rfl

@[simp] theorem popped_values (s : Session) (ch : Chan Emission) :
    (s.popped ch).values = { s.values with deltaResponses := ch } := rfl

@[simp] theorem popped_registered (s : Session) (ch : Chan Emission) :
    (s.popped ch).registered = s.registered := rfl

@[simp] theorem popped_streamNonce (s : Session) (ch : Chan Emission) :
    (s.popped ch).streamNonce = s.streamNonce := rfl

@[simp] theorem popped_trace (s : Session) (ch : Chan Emission) : (s.popped ch).trace = s.trace :=
  rfl

/-- What the request case changes before its reconciliation: the node, the
version maps through the unsubscribe step, and the trace, which gains only
unsubscribe and request-callback events. -/
structure Prepared (s s₁ : Session) : Prop where
  phase : s₁.phase = s.phase
  streamNonce : s₁.streamNonce = s.streamNonce
  registered : s₁.registered = s.registered
  deltaResponses : s₁.values.deltaResponses = s.values.deltaResponses
  deltaCancellations : s₁.values.deltaCancellations = s.values.deltaCancellations
  deltaNonces : s₁.values.deltaNonces = s.values.deltaNonces
  locked : s₁.values.locked = s.values.locked
  trace : ∃ new, s₁.trace = s.trace ++ new ∧ ∀ e ∈ new,
    (∃ typeURL names, e = .unsubscribed typeURL names) ∨ ∃ req, e = .onStreamDeltaRequest req

theorem Prepared.trans {s s₁ s₂ : Session} (h₁ : Prepared s s₁) (h₂ : Prepared s₁ s₂) :
    Prepared s s₂ := by
  obtain ⟨new₁, ht₁, hn₁⟩ := h₁.trace
  obtain ⟨new₂, ht₂, hn₂⟩ := h₂.trace
  refine ⟨h₂.phase.trans h₁.phase, h₂.streamNonce.trans h₁.streamNonce,
    h₂.registered.trans h₁.registered, h₂.deltaResponses.trans h₁.deltaResponses,
    h₂.deltaCancellations.trans h₁.deltaCancellations, h₂.deltaNonces.trans h₁.deltaNonces,
    h₂.locked.trans h₁.locked, ⟨new₁ ++ new₂, by simp [ht₂, ht₁], ?_⟩⟩
  intro e he
  rcases List.mem_append.mp he with he | he
  · exact hn₁ e he
  · exact hn₂ e he

theorem prepared_unsubscribeStep (s : Session) (req : DeltaDiscoveryRequest) :
    Prepared s (s.unsubscribeStep req) := by
  unfold unsubscribeStep
  split
  · refine ⟨rfl, rfl, rfl, ?_, ?_, ?_, ?_, ⟨_, rfl, by simp⟩⟩ <;>
      (unfold Watches.unsubscribe; split <;> rfl)
  · exact ⟨rfl, rfl, rfl, rfl, rfl, rfl, rfl, ⟨[], by simp, by simp⟩⟩

theorem prepare_prepared (defaultTypeURL : String) (s : Session) (req : DeltaDiscoveryRequest)
    (accepted : Except String Unit) :
    Prepared s (s.prepare server defaultTypeURL req accepted).1 := by
  have hnode (node : Node) : Prepared s { s with node } :=
    ⟨rfl, rfl, rfl, rfl, rfl, rfl, rfl, ⟨[], by simp, by simp⟩⟩
  have hlog (s₁ : Session) (req : DeltaDiscoveryRequest) :
      Prepared s₁ { s₁ with trace := s₁.trace ++ [Event.onStreamDeltaRequest req] } :=
    ⟨rfl, rfl, rfl, rfl, rfl, rfl, rfl, ⟨_, rfl, by simp⟩⟩
  unfold prepare
  rcases rehydrate s.node req with ⟨node, req₁⟩
  dsimp only
  rcases policeTypeURL defaultTypeURL req₁ with err | req₂
  · exact hnode node
  · have hu := (hnode node).trans (prepared_unsubscribeStep _ req₂)
    dsimp only
    split
    · rcases accepted with _ | ⟨⟩ <;> exact hu.trans (hlog _ _)
    · exact hu

/-- A property kept by a node change, the unsubscribe step and the request
callback is kept by the request case up to reconciliation. -/
theorem prepare_preserves {P : Session → Prop} (defaultTypeURL : String) {s : Session}
    {req : DeltaDiscoveryRequest} {accepted : Except String Unit}
    (hnode : ∀ s : Session, ∀ node, P s → P { s with node })
    (hunsubscribe : ∀ s : Session, ∀ req, P s → P (s.unsubscribeStep req))
    (hlog : ∀ s : Session, ∀ req,
      P s → P { s with trace := s.trace ++ [.onStreamDeltaRequest req] })
    (h : P s) : P (s.prepare server defaultTypeURL req accepted).1 := by
  unfold prepare
  rcases rehydrate s.node req with ⟨node, req₁⟩
  dsimp only
  rcases policeTypeURL defaultTypeURL req₁ with err | req₂
  · exact hnode _ node h
  · have hu := hunsubscribe _ req₂ (hnode _ node h)
    dsimp only
    split
    · rcases accepted with _ | ⟨⟩ <;> exact hlog _ _ hu
    · exact hu

theorem prepared_of_prepare {defaultTypeURL : String} {s s₁ : Session}
    {req : DeltaDiscoveryRequest} {accepted : Except String Unit}
    {res : Except Error DeltaDiscoveryRequest}
    (h : s.prepare server defaultTypeURL req accepted = (s₁, res)) : Prepared s s₁ := by
  simpa [h] using prepare_prepared server defaultTypeURL s req accepted

end Session

end ControlPlane.Delta
