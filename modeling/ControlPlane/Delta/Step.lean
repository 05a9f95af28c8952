import ControlPlane.Delta.Session

/-!
`processDelta` as a transition system. A step is one atomic move of one party:
the processor between two channel operations, or a cache watch sending on the
response channel. The processor's steps carry its collaborators' answers, and
which sends a cache makes is fixed by its discipline.

`Transition` says once what a step can do; invariants are proved by cases on it
and never unfold `step`.
-/

namespace ControlPlane.Delta

/-- One atomic step. -/
inductive Action where
  /-- `OnDeltaStreamOpen` returns `result` -/
  | openStream (result : Except String Unit)
  /-- the cache's watch `watch` sends `response` on the response channel -/
  | emit (watch : Nat) (response : Option DeltaResponse)
  /-- the `select` takes `s.ctx.Done()` -/
  | done
  /-- the `select` takes a response; `str.Send` returns `sent` -/
  | respond (sent : Except String Unit)
  /-- the `select` takes `req` from the request channel; `OnStreamDeltaRequest`
  returns `accepted` -/
  | request (req : Option DeltaDiscoveryRequest) (accepted : Except String Unit)
  /-- the `select` finds the request channel closed -/
  | hangUp
  /-- one iteration of `processAll`; `str.Send` returns `sent` -/
  | drain (sent : Except String Unit)
  /-- `CreateDeltaWatch` -/
  | register

/-- What a cache lets its watches send. A `prompt` watch sends at most once and
never once its handle was invoked; a `deferred` one sends at most once, maybe
after; an `unrestricted` one sends at will. -/
inductive Discipline where
  | prompt
  | deferred
  | unrestricted

/-- The handles of the watches that sent on the response channel, in order. -/
def emittedHandles (trace : List Event) : List Nat :=
  trace.filterMap fun
    | .emit handle _ => some handle
    | _ => none

@[simp] theorem emittedHandles_append (trace new : List Event) :
    emittedHandles (trace ++ new) = emittedHandles trace ++ emittedHandles new :=
  List.filterMap_append ..

@[simp] theorem emittedHandles_nil : emittedHandles [] = [] := rfl

@[simp] theorem emittedHandles_cons (event : Event) (trace : List Event) :
    emittedHandles (event :: trace) = (match event with
      | .emit handle _ => [handle]
      | _ => []) ++ emittedHandles trace := by
  cases event <;> rfl

@[simp] theorem emittedHandles_cancels (handles : List Nat) :
    emittedHandles (handles.map .cancel) = [] := by
  induction handles <;> simp_all

@[simp] theorem emittedHandles_callback (server : Server) (event : Event) :
    emittedHandles (Session.callback server event) =
      if server.callbacks then emittedHandles [event] else [] := by
  unfold Session.callback; split <;> rfl

theorem mem_emittedHandles {trace : List Event} {w : Nat} :
    w ∈ emittedHandles trace ↔ ∃ r, Event.emit w r ∈ trace := by
  simp only [emittedHandles, List.mem_filterMap]
  constructor
  · rintro ⟨e, he, hw⟩
    cases e <;> simp only [Option.some.injEq, reduceCtorEq] at hw
    exact ⟨_, hw ▸ he⟩
  · rintro ⟨r, hr⟩
    exact ⟨_, hr, rfl⟩

/-- Whether watch `watch` may send, given the trace so far. -/
def Discipline.Allows : Discipline → List Event → Nat → Prop
  | .prompt, trace, watch => watch ∉ emittedHandles trace ∧ Event.cancel watch ∉ trace
  | .deferred, trace, watch => watch ∉ emittedHandles trace
  | .unrestricted, _, _ => True

instance : ∀ d trace watch, Decidable (Discipline.Allows d trace watch)
  | .prompt, _, _ => inferInstanceAs (Decidable (_ ∧ _))
  | .deferred, _, _ => inferInstanceAs (Decidable (¬ _))
  | .unrestricted, _, _ => inferInstanceAs (Decidable True)

namespace Session

variable (server : Server) (d : Discipline) (defaultTypeURL : String)

/-- The cache's watch `watch` sends `response`. -/
def emitted (s : Session) (watch : Nat) (response : Option DeltaResponse) : Session :=
  { s with
    values := { s.values with deltaResponses := s.values.deltaResponses.send ⟨watch, response⟩ }
    trace := s.trace ++ [.emit watch response] }

/-- One step, if it is enabled. A watch's response carries the request the
watch was created with. -/
def step (s : Session) : Action → Option Session
  | .openStream result => if s.phase = .opening then some (s.openStream server result) else none
  | .emit watch response =>
    match s.registered[watch]? with
    | some req =>
      if d.Allows s.trace watch ∧ response.all (fun r => r.deltaRequest = req) then
        some (s.emitted watch response)
      else none
    | none => none
  | .done => if s.phase = .selecting then some (s.exit server none) else none
  | .respond sent => if s.phase = .selecting then s.receive server sent .selecting else none
  | .request req accepted =>
    if s.phase = .selecting then some (s.handle server defaultTypeURL req accepted) else none
  | .hangUp => if s.phase = .selecting then some (s.exit server none) else none
  | .drain sent =>
    match s.phase with
    | .draining req =>
      match s.values.deltaResponses.recv? with
      | none => some { s with phase := .registering req }
      | some _ => s.receive server sent (.draining req)
    | _ => none
  | .register =>
    match s.phase with
    | .registering req => some (s.register req)
    | _ => none

/-- Run a list of steps; `none` if one is not enabled. -/
def run (s : Session) : List Action → Option Session
  | [] => some s
  | a :: rest => (s.step server d defaultTypeURL a).bind fun s' => s'.run rest

variable {server d defaultTypeURL}

theorem run_append (s : Session) (actions more : List Action) :
    s.run server d defaultTypeURL (actions ++ more) =
      (s.run server d defaultTypeURL actions).bind fun s' =>
        s'.run server d defaultTypeURL more := by
  induction actions generalizing s with
  | nil => rfl
  | cons a rest ih =>
    simp only [List.cons_append, Session.run, List.append_eq, ih, Option.bind_assoc]

theorem run_concat {s s' : Session} {actions : List Action} {a : Action}
    (h : s.run server d defaultTypeURL (actions ++ [a]) = some s') :
    ∃ s₁, s.run server d defaultTypeURL actions = some s₁ ∧
      s₁.step server d defaultTypeURL a = some s' := by
  simpa [run_append, Session.run, Option.bind_eq_some] using h

end Session

variable (server : Server) (d : Discipline) (defaultTypeURL : String) (typeURLs : List String)

/-- The sessions a run of `processDelta` reaches against a cache of discipline `d`. -/
inductive Reachable : Session → Prop
  | init : Reachable (Session.init server defaultTypeURL typeURLs)
  | step {s s' : Session} {a : Action} :
      Reachable s → s.step server d defaultTypeURL a = some s' → Reachable s'

theorem Reachable.run {s s' : Session} {actions : List Action}
    (hs : Reachable server d defaultTypeURL typeURLs s)
    (hrun : s.run server d defaultTypeURL actions = some s') :
    Reachable server d defaultTypeURL typeURLs s' := by
  induction actions generalizing s with
  | nil => cases hrun; exact hs
  | cons a rest ih =>
    simp only [Session.run, Option.bind_eq_some] at hrun
    obtain ⟨s₁, hstep, hrest⟩ := hrun
    exact ih (hs.step hstep) hrest

/-- The processor is at a receive on `deltaResponses` after which it goes on to
`next`: the main `select`, or an iteration of `processAll`. -/
def Receives (s : Session) (next : Phase) : Prop :=
  s.phase = .selecting ∧ next = .selecting ∨ ∃ req, s.phase = .draining req ∧ next = .draining req

/-- The phases in which the processor runs: past `OnDeltaStreamOpen`, not yet
returned. -/
def Phase.running : Phase → Bool
  | .selecting | .draining _ | .registering _ => true
  | _ => false

/-- The phases before `processDelta` returns. -/
def Phase.live : Phase → Bool
  | .returned _ => false
  | _ => true

theorem Receives.running {s : Session} {next : Phase} (h : Receives s next) :
    s.phase.running ∧ next.running := by
  rcases h with ⟨hp, rfl⟩ | ⟨req, hp, rfl⟩ <;> simp [hp, Phase.running]

/-- Everything one step can do. -/
inductive Transition (s : Session) : Session → Prop
  | opened (hphase : s.phase = .opening) :
      Transition s
        { s with
          phase := .selecting
          trace := s.trace ++ Session.callback server .onDeltaStreamOpen }
  | openFailed (err : String) (hphase : s.phase = .opening) (hcallbacks : server.callbacks = true) :
      Transition s
        (Session.exit server { s with trace := s.trace ++ [.onDeltaStreamOpen] }
          (some (.passed err)))
  | emit (watch : Nat) (response : Option DeltaResponse) (req : DeltaDiscoveryRequest)
      (hreq : s.registered[watch]? = some req) (hallows : d.Allows s.trace watch)
      (hresp : ∀ r ∈ response, r.deltaRequest = req) :
      Transition s (s.emitted watch response)
  | exit (err : Option Error) (hphase : s.phase = .selecting) : Transition s (s.exit server err)
  | rejected (req : DeltaDiscoveryRequest) (accepted : Except String Unit) (s₁ : Session)
      (err : Error) (hphase : s.phase = .selecting)
      (hprepare : s.prepare server defaultTypeURL req accepted = (s₁, .error err)) :
      Transition s (s₁.exit server (some err))
  | ignored (req : DeltaDiscoveryRequest) (accepted : Except String Unit) (s₁ : Session)
      (prepared : DeltaDiscoveryRequest) (hphase : s.phase = .selecting)
      (hprepare : s.prepare server defaultTypeURL req accepted = (s₁, .ok prepared))
      (hwants : s₁.values.wantsWatch prepared.typeUrl req.responseNonce = false) :
      Transition s { s₁ with phase := .selecting }
  | cancelled (req : DeltaDiscoveryRequest) (accepted : Except String Unit) (s₁ : Session)
      (prepared : DeltaDiscoveryRequest) (handle : Nat) (hphase : s.phase = .selecting)
      (hprepare : s.prepare server defaultTypeURL req accepted = (s₁, .ok prepared))
      (hwants : s₁.values.wantsWatch prepared.typeUrl req.responseNonce = true)
      (hhandle : s₁.values.deltaCancellations.lookup prepared.typeUrl = some (some handle)) :
      Transition s { s₁ with phase := .draining prepared, trace := s₁.trace ++ [.cancel handle] }
  | uncancelled (req : DeltaDiscoveryRequest) (accepted : Except String Unit) (s₁ : Session)
      (prepared : DeltaDiscoveryRequest) (hphase : s.phase = .selecting)
      (hprepare : s.prepare server defaultTypeURL req accepted = (s₁, .ok prepared))
      (hwants : s₁.values.wantsWatch prepared.typeUrl req.responseNonce = true)
      (hhandle :
        ∀ handle, s₁.values.deltaCancellations.lookup prepared.typeUrl ≠ some (some handle)) :
      Transition s { s₁ with phase := .registering prepared }
  | unsent (e : Emission) (ch : Chan Emission) (next : Phase) (err : Error)
      (hnext : Receives s next) (hrecv : s.values.deltaResponses.recv? = some (e, ch)) :
      Transition s ((s.popped ch).exit server (some err))
  | sendFailed (e : Emission) (ch : Chan Emission) (next : Phase) (r : DeltaResponse)
      (out : DeltaDiscoveryResponse) (err : Error)
      (hnext : Receives s next) (hrecv : s.values.deltaResponses.recv? = some (e, ch))
      (hresp : e.response = some r) (hout : r.deltaDiscoveryResponse = .ok out) :
      Transition s
        (((s.popped ch).stamp server r.deltaRequest (s.stamped out)).exit server (some err))
  | updateFailed (e : Emission) (ch : Chan Emission) (next : Phase) (r : DeltaResponse)
      (out : DeltaDiscoveryResponse) (state : StreamState) (err : Error)
      (hnext : Receives s next) (hrecv : s.values.deltaResponses.recv? = some (e, ch))
      (hresp : e.response = some r) (hout : r.deltaDiscoveryResponse = .ok out)
      (hupdate : update r (s.stamped out).nonce = (state, some err)) :
      Transition s (Session.exit server
        { (s.popped ch).stamp server r.deltaRequest (s.stamped out) with
          values :=
            { (s.popped ch).values.record r.deltaRequest.typeUrl (s.stamped out).nonce state with
            locked := true } } (some err))
  | processed (e : Emission) (ch : Chan Emission) (next : Phase) (r : DeltaResponse)
      (out : DeltaDiscoveryResponse) (state : StreamState)
      (hnext : Receives s next) (hrecv : s.values.deltaResponses.recv? = some (e, ch))
      (hresp : e.response = some r) (hout : r.deltaDiscoveryResponse = .ok out)
      (hupdate : update r (s.stamped out).nonce = (state, none)) :
      Transition s
        { (s.popped ch).stamp server r.deltaRequest (s.stamped out) with
          phase := next
          values :=
            { (s.popped ch).values.record r.deltaRequest.typeUrl (s.stamped out).nonce state with
            locked := false }
          trace := ((s.popped ch).stamp server r.deltaRequest (s.stamped out)).trace ++
            [.processed r (s.stamped out).nonce] }
  | drained (req : DeltaDiscoveryRequest) (hphase : s.phase = .draining req)
      (hempty : s.values.deltaResponses.contents = []) :
      Transition s { s with phase := .registering req }
  | register (req : DeltaDiscoveryRequest) (hphase : s.phase = .registering req) :
      Transition s (s.register req)

namespace Session

variable {server}

/-- The outcomes of `process`: nothing sent; sent but the transport failed;
sent but `update` failed; done. -/
theorem process_cases (s : Session) (resp : Option DeltaResponse) (sent : Except String Unit) :
    (∃ err, s.process server resp sent = (s, some err)) ∨
    (∃ r out err, resp = some r ∧ r.deltaDiscoveryResponse = .ok out ∧
      s.process server resp sent = (s.stamp server r.deltaRequest (s.stamped out), some err)) ∨
    (∃ r out state err, resp = some r ∧ r.deltaDiscoveryResponse = .ok out ∧
      update r (s.stamped out).nonce = (state, some err) ∧
      s.process server resp sent =
        ({ s.stamp server r.deltaRequest (s.stamped out) with
          values := { s.values.record r.deltaRequest.typeUrl (s.stamped out).nonce state with
            locked := true } }, some err)) ∨
    (∃ r out state, resp = some r ∧ r.deltaDiscoveryResponse = .ok out ∧
      update r (s.stamped out).nonce = (state, none) ∧
      s.process server resp sent =
        ({ s.stamp server r.deltaRequest (s.stamped out) with
          values := { s.values.record r.deltaRequest.typeUrl (s.stamped out).nonce state with
            locked := false }
          trace := (s.stamp server r.deltaRequest (s.stamped out)).trace ++
            [.processed r (s.stamped out).nonce] }, none)) := by
  rcases resp with _ | r
  · exact .inl ⟨_, rfl⟩
  rcases hout : r.deltaDiscoveryResponse with m | out
  · exact .inl ⟨.passed m, by simp [process, send, hout]⟩
  rcases sent with m | ⟨⟩
  · exact .inr (.inl ⟨r, out, .passed m, rfl, hout, by simp [process, send, hout]⟩)
  rcases hupdate : update r (s.stamped out).nonce with ⟨state, _ | err⟩ <;>
    have hu : update r (formatInt (nextNonce s.streamNonce)) = _ := hupdate
  · exact .inr (.inr (.inr ⟨r, out, state, rfl, hout, hupdate, by simp [process, send, hout, hu]⟩))
  · exact .inr (.inr (.inl ⟨r, out, state, err, rfl, hout, hupdate, by
      simp [process, send, hout, hu]⟩))

/-- A response that marshals and whose getters succeed, sent without error, is
processed. -/
theorem process_ok (s : Session) {r : DeltaResponse} {out : DeltaDiscoveryResponse} {sv : String}
    {vm : VersionMap} (hout : r.deltaDiscoveryResponse = .ok out) (hsv : r.systemVersion = .ok sv)
    (hvm : r.deltaVersionMap = .ok vm) :
    s.process server (some r) (.ok ()) =
      ({ s.stamp server r.deltaRequest (s.stamped out) with
          values := { s.values.record r.deltaRequest.typeUrl (s.stamped out).nonce
            ⟨(s.stamped out).nonce, sv, vm⟩ with locked := false }
          trace := (s.stamp server r.deltaRequest (s.stamped out)).trace ++
            [.processed r (s.stamped out).nonce] }, none) := by
  simp [process, send, hout, update, hsv, hvm]

end Session

variable {server d defaultTypeURL}

private theorem receive_transition {s s' : Session} {sent : Except String Unit} {next : Phase}
    (hnext : Receives s next) (h : s.receive server sent next = some s') :
    Transition server d defaultTypeURL s s' := by
  unfold Session.receive at h
  split at h
  · cases h
  · rename_i e ch hrecv
    rcases Session.process_cases (s.popped ch) e.response sent with
      ⟨err, hp⟩ | ⟨r, out, err, hr, hout, hp⟩ | ⟨r, out, state, err, hr, hout, hu, hp⟩ |
      ⟨r, out, state, hr, hout, hu, hp⟩ <;> rw [hp] at h <;> cases h
    · exact .unsent e ch next err hnext hrecv
    · exact .sendFailed e ch next r out err hnext hrecv hr hout
    · exact .updateFailed e ch next r out state err hnext hrecv hr hout hu
    · exact .processed e ch next r out state hnext hrecv hr hout hu

private theorem handle_transition {s : Session} {req : Option DeltaDiscoveryRequest}
    {accepted : Except String Unit} (hphase : s.phase = .selecting) :
    Transition server d defaultTypeURL s (s.handle server defaultTypeURL req accepted) := by
  rcases req with _ | req
  · exact .exit _ hphase
  rcases hprepare : s.prepare server defaultTypeURL req accepted with ⟨s₁, err | prepared⟩
  · simp only [Session.handle, hprepare]
    exact .rejected req accepted s₁ err hphase hprepare
  simp only [Session.handle, hprepare, Session.reconcile]
  split
  · rename_i hwants
    split
    · exact .cancelled req accepted s₁ prepared _ hphase hprepare hwants ‹_›
    · exact .uncancelled req accepted s₁ prepared hphase hprepare hwants (by simpa using ‹_›)
  · exact .ignored req accepted s₁ prepared hphase hprepare (by simpa using ‹¬_ = true›)

/-- The inversion lemma: an enabled step is a `Transition`. -/
theorem step_transition {s s' : Session} {a : Action}
    (h : s.step server d defaultTypeURL a = some s') : Transition server d defaultTypeURL s s' := by
  cases a with
  | openStream result =>
    simp only [Session.step, Option.ite_none_right_eq_some, Option.some.injEq] at h
    obtain ⟨hphase, rfl⟩ := h
    unfold Session.openStream
    split
    · rename_i hcallbacks
      rcases result with err | ⟨⟩
      · exact .openFailed err hphase hcallbacks
      · simpa [Session.callback, hcallbacks] using
          @Transition.opened server d defaultTypeURL s hphase
    · simpa [Session.callback, *] using @Transition.opened server d defaultTypeURL s hphase
  | emit watch response =>
    simp only [Session.step] at h
    split at h
    · rename_i req hreq
      split at h
      · rename_i hcond
        cases h
        refine .emit watch response req hreq hcond.1 fun r hr => ?_
        simpa [Option.mem_def.mp hr] using hcond.2
      · cases h
    · cases h
  | done | hangUp =>
    simp only [Session.step, Option.ite_none_right_eq_some, Option.some.injEq] at h
    obtain ⟨hphase, rfl⟩ := h
    exact .exit none hphase
  | respond sent =>
    simp only [Session.step] at h
    split at h
    · exact receive_transition (.inl ⟨‹_›, rfl⟩) h
    · cases h
  | request req accepted =>
    simp only [Session.step, Option.ite_none_right_eq_some, Option.some.injEq] at h
    obtain ⟨hphase, rfl⟩ := h
    exact handle_transition hphase
  | drain sent =>
    simp only [Session.step] at h
    split at h
    · rename_i req hphase
      split at h
      · cases h
        exact .drained req hphase (Chan.recv?_eq_none.mp ‹_›)
      · exact receive_transition (.inr ⟨req, hphase, rfl⟩) h
    · cases h
  | register =>
    simp only [Session.step] at h
    split at h
    · cases h; exact .register _ ‹_›
    · cases h

variable (server d defaultTypeURL)

/-- Induction over reachable sessions, one case per transition. -/
theorem reachable_induction {P : Session → Prop}
    (hinit : P (Session.init server defaultTypeURL typeURLs))
    (hstep : ∀ s s', Reachable server d defaultTypeURL typeURLs s → P s →
      Transition server d defaultTypeURL s s' → P s')
    {s : Session} (hs : Reachable server d defaultTypeURL typeURLs s) : P s := by
  induction hs with
  | init => exact hinit
  | step hs hstep' ih => exact hstep _ _ hs ih (step_transition hstep')

/-! Concrete runs start from a single-type stream on a server without callbacks. -/

/-- A server without callbacks and with the default buffer sizes. -/
def plainServer : Server := newServer false []

/-- A request for `typeURL` with no node, no nonce, no unsubscribes and no
error detail. -/
def subscription (typeURL : String) : DeltaDiscoveryRequest := ⟨none, typeURL, "", [], none⟩

/-- `subscription typeURL` as the processor hands it on, with the remembered
node. -/
def watched (typeURL : String) : DeltaDiscoveryRequest :=
  { subscription typeURL with node := some .empty }

/-- A cache response to `req` whose getters all succeed. -/
def answer (req : DeltaDiscoveryRequest) (versions : VersionMap) : DeltaResponse :=
  ⟨req, .ok ⟨""⟩, .ok "1", .ok versions⟩

/-- The session `actions` reach on a stream of type URL `"c"`, if every step
is enabled. -/
def plainRun (d : Discipline) (actions : List Action) : Option Session :=
  (Session.init plainServer "c" []).run plainServer d "c" actions

theorem reachable_of_plainRun {d : Discipline} {actions : List Action} {s : Session}
    (h : plainRun d actions = some s) : Reachable plainServer d "c" [] s :=
  .run _ _ _ _ .init h

end ControlPlane.Delta
