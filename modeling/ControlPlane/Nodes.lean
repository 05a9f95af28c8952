import ControlPlane.Delta.Step
import ControlPlane.Server.Nonces

/-!
Node rehydration in both delta processors. A stream remembers the node of the
latest request that named one, the empty node before any did, and every request
it hands to `OnStreamDeltaRequest` or to `CreateDeltaWatch` carries that node.
What a stream has received is a function of the actions of the run; one step
lemma per processor shows what a step observes, and a run lemma what the stream
remembers.
-/

namespace ControlPlane

/-- The node of the latest of `reqs` that names one, the empty node if none does. -/
def latestNode (reqs : List DeltaDiscoveryRequest) : Node :=
  reqs.foldl (fun node req => req.node.getD node) .empty

theorem latestNode_append (reqs more : List DeltaDiscoveryRequest) :
    latestNode (reqs ++ more) =
      more.foldl (fun node req => req.node.getD node) (latestNode reqs) :=
  List.foldl_append ..

/-- Every event of `new` that shows a request shows it with node `node`. -/
def ShowsNode {ε : Type} (observed : ε → Option DeltaDiscoveryRequest) (node : Node)
    (new : List ε) : Prop :=
  ∀ e ∈ new, ∀ r, observed e = some r → r.node = some node

namespace ShowsNode

variable {ε : Type} {observed : ε → Option DeltaDiscoveryRequest} {node : Node}

theorem append {new more : List ε} (h : ShowsNode observed node new)
    (hmore : ShowsNode observed node more) : ShowsNode observed node (new ++ more) := by
  intro e he
  rcases List.mem_append.mp he with he | he
  · exact h e he
  · exact hmore e he

theorem of_unobserved {new : List ε} (h : ∀ e ∈ new, observed e = none) :
    ShowsNode observed node new :=
  fun e he _ hr => nomatch (h e he).symm.trans hr

theorem unobserved_singleton {e : ε} (h : observed e = none) : ShowsNode observed node [e] :=
  of_unobserved fun _ he => List.eq_of_mem_singleton he ▸ h

theorem singleton {e : ε} {r : DeltaDiscoveryRequest} (he : observed e = some r)
    (hr : r.node = some node) : ShowsNode observed node [e] := fun _ h _ hr' => by
  rw [List.eq_of_mem_singleton h, he] at hr'
  exact Option.some.inj hr' ▸ hr

end ShowsNode

/-- The policing leaves a request's node alone. -/
theorem policeTypeURL_node {defaultTypeURL : String} {req req' : DeltaDiscoveryRequest}
    (h : policeTypeURL defaultTypeURL req = .ok req') : req'.node = req.node := by
  unfold policeTypeURL at h
  split at h
  · split at h <;> cases h; rfl
  · split at h <;> cases h <;> rfl

namespace Delta

/-- The requests a run of actions hands the processor. -/
def received (actions : List Action) : List DeltaDiscoveryRequest :=
  actions.filterMap fun
    | .request req _ => req
    | _ => none

theorem received_append (actions more : List Action) :
    received (actions ++ more) = received actions ++ received more :=
  List.filterMap_append ..

/-- The request an event shows a collaborator: `OnStreamDeltaRequest`'s and
`CreateDeltaWatch`'s. -/
def Event.observed : Event → Option DeltaDiscoveryRequest
  | .onStreamDeltaRequest req | .createDeltaWatch req _ _ => some req
  | _ => none

variable {server : Server} {d : Discipline} {defaultTypeURL : String}

theorem callback_unobserved {e e' : Event} (he : e' ∈ Session.callback server e)
    (h : e.observed = none) : e'.observed = none := by
  unfold Session.callback at he
  split at he
  · rw [List.mem_singleton.mp he]; exact h
  · cases he

theorem showsNode_exit (server : Server) (values : Watches) (node : Node) :
    ShowsNode Event.observed node
      (values.cancelHandles.map .cancel ++ Session.callback server .onDeltaStreamClosed) := by
  refine ShowsNode.of_unobserved fun e he => ?_
  rcases List.mem_append.mp he with he | he
  · obtain ⟨_, _, rfl⟩ := List.mem_map.mp he
    rfl
  · exact callback_unobserved he rfl

theorem rehydrate_node (node : Node) (req : DeltaDiscoveryRequest) :
    (rehydrate node req).1 = req.node.getD node ∧
      (rehydrate node req).2.node = some (req.node.getD node) := by
  unfold rehydrate
  split <;> simp [*]

theorem unsubscribeStep_node (s : Session) (req : DeltaDiscoveryRequest) :
    (s.unsubscribeStep req).node = s.node ∧
      ∃ new, (s.unsubscribeStep req).trace = s.trace ++ new ∧
        ∀ e ∈ new, e.observed = none := by
  unfold Session.unsubscribeStep
  split
  · exact ⟨rfl, _, rfl, fun e he => by cases List.mem_singleton.mp he; rfl⟩
  · exact ⟨rfl, [], by simp, fun _ he => nomatch he⟩

theorem prepare_node (s : Session) (req : DeltaDiscoveryRequest) (accepted : Except String Unit)
    {s₁ : Session} {res : Except Error DeltaDiscoveryRequest}
    (h : s.prepare server defaultTypeURL req accepted = (s₁, res)) :
    s₁.node = req.node.getD s.node ∧ (∀ p, res = .ok p → p.node = some s₁.node) ∧
      ∃ new, s₁.trace = s.trace ++ new ∧ ShowsNode Event.observed s₁.node new := by
  obtain ⟨hnode, hreq⟩ := rehydrate_node s.node req
  unfold Session.prepare at h
  rcases hr : rehydrate s.node req with ⟨node, req₁⟩
  rw [hr] at hnode hreq h
  dsimp only at h hnode hreq
  rcases hp : policeTypeURL defaultTypeURL req₁ with err | req₂ <;> rw [hp] at h <;>
    dsimp only at h
  · cases h
    exact ⟨hnode, (fun _ h => nomatch h), [], by simp,
      ShowsNode.of_unobserved fun _ he => nomatch he⟩
  subst hnode
  obtain ⟨hu, new, ht, hnew⟩ :=
    unsubscribeStep_node { s with node := req.node.getD s.node } req₂
  -- what the unsubscribe step leaves remembered is the request's node
  have hreq₂ :
      req₂.node = some ({ s with node := req.node.getD s.node }.unsubscribeStep req₂).node := by
    rw [policeTypeURL_node hp, hreq, hu]
  have hlog : ShowsNode Event.observed
      ({ s with node := req.node.getD s.node }.unsubscribeStep req₂).node
      (new ++ [.onStreamDeltaRequest req₂]) :=
    (ShowsNode.of_unobserved hnew).append (ShowsNode.singleton rfl hreq₂)
  split at h
  · rcases accepted with e | ⟨⟩ <;> cases h
    · exact ⟨hu, (fun _ h => nomatch h), _, by simp [ht], hlog⟩
    · exact ⟨hu, (fun _ h => by cases h; exact hreq₂), _, by simp [ht], hlog⟩
  · cases h
    exact ⟨hu, (fun _ h => by cases h; exact hreq₂), new, ht, ShowsNode.of_unobserved hnew⟩

theorem showsNode_stamp (server : Server) (req : DeltaDiscoveryRequest)
    (out : DeltaDiscoveryResponse) (node : Node) :
    ShowsNode Event.observed node
      (Session.callback server (.onStreamDeltaResponse req out) ++ [.send out]) :=
  ShowsNode.append (ShowsNode.of_unobserved fun _ he => callback_unobserved he rfl)
    (ShowsNode.unobserved_singleton rfl)

/-- A request the processor is about to watch carries the remembered node. -/
def Pending (s : Session) : Prop :=
  ∀ req, s.phase = .draining req ∨ s.phase = .registering req → req.node = some s.node

theorem Pending.transition {s s' : Session} (h : Pending s)
    (ht : Transition server d defaultTypeURL s s') :
    Pending s' ∧ ∃ new, s'.trace = s.trace ++ new ∧ ShowsNode Event.observed s'.node new := by
  cases ht with
  | opened hphase =>
    exact ⟨fun _ h => by simp at h, _, rfl,
      ShowsNode.of_unobserved fun e he => callback_unobserved he rfl⟩
  | openFailed err hphase =>
    exact ⟨fun _ h => by simp at h, [.onDeltaStreamOpen] ++ _, by simp,
      (ShowsNode.unobserved_singleton rfl).append (showsNode_exit server s.values _)⟩
  | emit watch response =>
    exact ⟨h, [.emit watch response], rfl, ShowsNode.unobserved_singleton rfl⟩
  | exit err hphase =>
    exact ⟨fun _ h => by simp at h, _, by simp, showsNode_exit server s.values _⟩
  | rejected req accepted s₁ err hphase hprepare =>
    obtain ⟨-, -, new, ht, hshow⟩ := prepare_node s req accepted hprepare
    exact ⟨fun _ h => by simp at h, new ++ _, by simp [ht],
      hshow.append (showsNode_exit server s₁.values _)⟩
  | ignored req accepted s₁ prepared hphase hprepare =>
    obtain ⟨-, -, new, ht, hshow⟩ := prepare_node s req accepted hprepare
    exact ⟨fun _ h => by simp at h, new, ht, hshow⟩
  | cancelled req accepted s₁ prepared handle hphase hprepare =>
    obtain ⟨-, hprepared, new, ht, hshow⟩ := prepare_node s req accepted hprepare
    refine ⟨fun r h => ?_, _, by simp [ht],
      hshow.append (ShowsNode.unobserved_singleton (e := Event.cancel handle) rfl)⟩
    rcases h with h | h <;> cases h
    exact hprepared _ rfl
  | uncancelled req accepted s₁ prepared hphase hprepare =>
    obtain ⟨-, hprepared, new, ht, hshow⟩ := prepare_node s req accepted hprepare
    refine ⟨fun r h => ?_, new, ht, hshow⟩
    rcases h with h | h <;> cases h
    exact hprepared _ rfl
  | unsent e ch next err =>
    exact ⟨fun _ h => by simp at h, _, by simp, showsNode_exit server (s.popped ch).values _⟩
  | sendFailed e ch next r out err =>
    exact ⟨fun _ h => by simp at h, _, by simp,
      (showsNode_stamp server r.deltaRequest (s.stamped out) _).append
        (showsNode_exit server (s.popped ch).values _)⟩
  | updateFailed e ch next r out state err =>
    exact ⟨fun _ h => by simp at h, _, by simp,
      (showsNode_stamp server r.deltaRequest (s.stamped out) _).append (showsNode_exit server
        { (s.popped ch).values.record r.deltaRequest.typeUrl (s.stamped out).nonce state with
          locked := true } _)⟩
  | processed e ch next r out state hnext =>
    refine ⟨fun req h' => ?_, _, by simp,
      (showsNode_stamp server r.deltaRequest (s.stamped out) _).append
        (ShowsNode.unobserved_singleton (e := Event.processed r (s.stamped out).nonce) rfl)⟩
    rcases hnext with ⟨-, rfl⟩ | ⟨req', hphase, rfl⟩
    · simp at h'
    · rcases h' with h' | h' <;> cases h'
      exact h _ (.inl hphase)
  | drained req hphase =>
    refine ⟨fun r h' => ?_, [], by simp, ShowsNode.of_unobserved fun _ he => nomatch he⟩
    rcases h' with h' | h' <;> cases h'
    exact h _ (.inl hphase)
  | register req hphase =>
    exact ⟨fun _ h' => by simp [Session.register] at h', _, rfl,
      ShowsNode.singleton rfl (h _ (.inr hphase))⟩

theorem receive_node {s s' : Session} {sent : Except String Unit} {next : Phase}
    (h : s.receive server sent next = some s') : s'.node = s.node := by
  unfold Session.receive at h
  split at h
  · cases h
  · rename_i e ch _
    rcases @Session.process_cases server (s.popped ch) e.response sent with
      ⟨err, hp⟩ | ⟨r, out, err, -, -, hp⟩ | ⟨r, out, state, err, -, -, -, hp⟩ |
      ⟨r, out, state, -, -, -, hp⟩ <;> rw [hp] at h <;> cases h <;> rfl

theorem Session.reconcile_node (s : Session) (req : DeltaDiscoveryRequest) (nonce : String) :
    (s.reconcile req nonce).node = s.node := by
  unfold Session.reconcile
  split
  · split <;> rfl
  · rfl

/-- The node a step leaves remembered: that of the request it takes, if the
request names one, else the one remembered before. -/
theorem step_node {s s' : Session} {a : Action} (h : s.step server d defaultTypeURL a = some s') :
    s'.node = (received [a]).foldl (fun node req => req.node.getD node) s.node := by
  cases a with
  | request req accepted =>
    simp only [Session.step, Option.ite_none_right_eq_some, Option.some.injEq] at h
    obtain ⟨-, rfl⟩ := h
    rcases req with _ | req
    · rfl
    rcases hprepare : s.prepare server defaultTypeURL req accepted with
      ⟨s₁, err | prepared⟩ <;>
      simp only [Session.handle, hprepare, Session.reconcile_node] <;>
      exact (prepare_node s req accepted hprepare).1
  | openStream result =>
    simp only [Session.step, Option.ite_none_right_eq_some, Option.some.injEq] at h
    obtain ⟨-, rfl⟩ := h
    unfold Session.openStream
    split
    · split <;> rfl
    · rfl
  | done | hangUp =>
    simp only [Session.step, Option.ite_none_right_eq_some, Option.some.injEq] at h
    obtain ⟨-, rfl⟩ := h
    rfl
  | respond sent =>
    simp only [Session.step] at h
    split at h
    · exact receive_node h
    · cases h
  | drain sent =>
    simp only [Session.step] at h
    split at h
    · split at h
      · cases h; rfl
      · exact receive_node h
    · cases h
  | emit watch response =>
    simp only [Session.step] at h
    split at h
    · split at h <;> cases h; rfl
    · cases h
  | register =>
    simp only [Session.step] at h
    split at h
    · cases h; rfl
    · cases h

/-- Along every run, the stream remembers the node of the latest request it
received that named one, and a request it is about to watch carries it. -/
theorem run_node {typeURLs : List String} {actions : List Action} {s : Session}
    (h : (Session.init server defaultTypeURL typeURLs).run server d defaultTypeURL actions =
      some s) :
    s.node = latestNode (received actions) ∧ Pending s := by
  induction actions using List.reverseRecOn generalizing s with
  | nil =>
    cases h
    exact ⟨rfl, fun _ h => by simp [Session.init] at h⟩
  | append_singleton actions a ih =>
    obtain ⟨s₁, hrun, hstep⟩ := Session.run_concat h
    obtain ⟨hnode, hpending⟩ := ih hrun
    refine ⟨?_, (hpending.transition (step_transition hstep)).1⟩
    rw [step_node hstep, hnode, received_append, latestNode_append]

/-- Every request a step shows `OnStreamDeltaRequest` or `CreateDeltaWatch`
carries the node of the latest request received that named one. -/
theorem observed_node {typeURLs : List String} {actions : List Action} {a : Action}
    {s s' : Session}
    (hrun : (Session.init server defaultTypeURL typeURLs).run server d defaultTypeURL actions =
      some s)
    (hstep : s.step server d defaultTypeURL a = some s') :
    ∃ new, s'.trace = s.trace ++ new ∧
      ShowsNode Event.observed (latestNode (received (actions ++ [a]))) new := by
  have hrun' : (Session.init server defaultTypeURL typeURLs).run server d defaultTypeURL
      (actions ++ [a]) = some s' := by
    simp [Session.run_append, hrun, Session.run, hstep]
  rw [← (run_node hrun').1]
  exact ((run_node hrun).2.transition (step_transition hstep)).2

end Delta

namespace Server

/-- The requests a run of stream actions hands the processor. -/
def received (actions : List Action) : List DeltaDiscoveryRequest :=
  actions.filterMap fun
    | .request req _ => req
    | _ => none

theorem received_append (actions more : List Action) :
    received (actions ++ more) = received actions ++ received more :=
  List.filterMap_append ..

/-- The steps stream `i` takes in a run of the server. -/
def actionsOf (i : Nat) (actions : List WorldAction) : List Action :=
  actions.filterMap fun
    | .step j a => if j = i then some a else none
    | .start _ => none

theorem actionsOf_append (i : Nat) (actions more : List WorldAction) :
    actionsOf i (actions ++ more) = actionsOf i actions ++ actionsOf i more :=
  List.filterMap_append ..

/-- The request an event shows a collaborator: `OnStreamDeltaRequest`'s and
`CreateDeltaWatch`'s. -/
def Event.observed : Event → Option DeltaDiscoveryRequest
  | .onStreamDeltaRequest req | .createDeltaWatch req _ _ => some req
  | _ => none

/-- From `s` to `s'` the stream keeps its node, and every request its new
events show carries it. -/
structure Keeps (s s' : Stream) : Prop where
  node : s'.node = s.node
  trace : ∃ new, s'.trace = s.trace ++ new ∧ ShowsNode Event.observed s.node new

theorem keeps_of_eq {s s' : Stream} (hnode : s'.node = s.node) (htrace : s'.trace = s.trace) :
    Keeps s s' :=
  ⟨hnode, [], by simp [htrace], ShowsNode.of_unobserved fun _ h => nomatch h⟩

theorem Keeps.trans {s s₁ s' : Stream} (h : Keeps s s₁) (h' : Keeps s₁ s') : Keeps s s' := by
  obtain ⟨new, ht, hshow⟩ := h.trace
  obtain ⟨more, ht', hmore⟩ := h'.trace
  rw [h.node] at hmore
  exact ⟨h'.node.trans h.node, new ++ more, by rw [ht', ht, List.append_assoc],
    hshow.append hmore⟩

/-- From `s` to `s'` every request the new events show carries `node`, and the
stream remembers `node` if it still runs. A stream that has returned remembers
nothing that can be observed again. -/
structure Remembers (node : Node) (s s' : Stream) : Prop where
  remembered : s'.phase.live = true → s'.node = node
  shows : ∃ new, s'.trace = s.trace ++ new ∧ ShowsNode Event.observed node new

theorem Keeps.remembers {s s' : Stream} {node : Node} (h : Keeps { s with node } s') :
    Remembers node s s' :=
  ⟨fun _ => h.node, h.trace⟩

section Keeps

variable (callbacks log : Bool) (urls : TypeURLs) (versions : GoMap String)

theorem callback_unobserved {e e' : Event} (he : e' ∈ Stream.callback callbacks e)
    (h : e.observed = none) : e'.observed = none := by
  unfold Stream.callback at he
  split at he
  · rw [List.mem_singleton.mp he]; exact h
  · cases he

/-- The teardown shows no request, so it remembers any node. -/
theorem exit_remembers (s : Stream) (err : Option Error) (node : Node) :
    Remembers node s (s.exit callbacks err) := by
  refine ⟨(fun h => nomatch h), _, List.append_assoc .., ShowsNode.of_unobserved fun e he => ?_⟩
  rcases List.mem_append.mp he with he | he
  · obtain ⟨_, _, rfl⟩ := List.mem_map.mp he
    rfl
  · exact callback_unobserved callbacks he rfl

theorem exit_keeps (s : Stream) (err : Option Error) : Keeps s (s.exit callbacks err) :=
  ⟨rfl, (exit_remembers callbacks s err s.node).shows⟩

theorem send_keeps (s : Stream) (resp : Option DeltaResponse) (typeURL : String)
    (sent : Except String Unit) : Keeps s (s.send callbacks resp typeURL sent).1 := by
  unfold Stream.send
  split
  · exact keeps_of_eq rfl rfl
  · exact ⟨rfl, _, List.append_assoc .., ShowsNode.append
      (ShowsNode.of_unobserved fun _ he => callback_unobserved callbacks he rfl)
      (ShowsNode.unobserved_singleton rfl)⟩
  · exact keeps_of_eq rfl rfl

theorem respond_keeps {s s' : Stream} {versions' : GoMap String} {t : ResponseType}
    {sent : Except String Unit}
    (h : s.respond callbacks urls versions t sent = some (s', versions')) : Keeps s s' := by
  rcases respond_cases h with ⟨err, rfl⟩ |
    ⟨s₀, resp, hnode, htrace, -, -, -, -, ⟨err, rfl⟩ | ⟨nonce, -, rfl⟩⟩
  · exact exit_keeps callbacks s err
  · exact (keeps_of_eq hnode htrace).trans ((send_keeps ..).trans (exit_keeps ..))
  · exact (keeps_of_eq hnode htrace).trans ((send_keeps ..).trans (keeps_of_eq rfl rfl))

theorem rewatch_keeps (s : Stream) {req : DeltaDiscoveryRequest} (nonce : String)
    (hreq : req.node = some s.node) : Keeps s (s.rewatch urls versions req nonce) := by
  unfold Stream.rewatch
  split
  · exact keeps_of_eq rfl rfl
  · refine ⟨rfl, _, List.append_assoc .., ShowsNode.append
      (ShowsNode.of_unobserved fun e he => ?_) (ShowsNode.singleton rfl hreq)⟩
    obtain ⟨_, -, rfl⟩ := Option.mem_toList.mp he |> Option.mem_map.mp
    rfl

theorem openStream_keeps (s : Stream) (result : Except String Unit) :
    Keeps s (s.openStream callbacks result) := by
  unfold Stream.openStream
  split
  · have hlog : Keeps s { s with trace := s.trace ++ [Event.onStreamOpen] } :=
      ⟨rfl, _, rfl, ShowsNode.unobserved_singleton rfl⟩
    split
    · exact hlog.trans (exit_keeps ..)
    · exact hlog.trans (keeps_of_eq rfl rfl)
  · exact keeps_of_eq rfl rfl

theorem rehydrate_node (node : Node) (streamNonce : Int) (req : DeltaDiscoveryRequest) :
    (Stream.rehydrate node streamNonce req).1 = req.node.getD node ∧
      (Stream.rehydrate node streamNonce req).2.2.node = some (req.node.getD node) := by
  unfold Stream.rehydrate
  split <;> simp [*]

/-- Past the nil check and the error-detail log, a request leaves the node it
names, or the one remembered, and every request the processor passes on carries
it. -/
theorem handle_keeps (s : Stream) (req : DeltaDiscoveryRequest) (accepted : Except String Unit) :
    Keeps { s with node := req.node.getD s.node }
      (s.handle callbacks urls versions req accepted) := by
  obtain ⟨hnode, hreq⟩ := rehydrate_node s.node s.streamNonce req
  unfold Stream.handle
  dsimp only
  revert hnode hreq
  rcases Stream.rehydrate s.node s.streamNonce req with ⟨node, nonce, req₁⟩
  rintro rfl hreq
  split
  · exact exit_keeps ..
  rename_i req₂ hp
  have hreq₂ := (policeTypeURL_node hp).trans hreq
  split
  · have hlog : Keeps { s with node := req.node.getD s.node }
        { s with
          node := req.node.getD s.node, trace := s.trace ++ [.onStreamDeltaRequest req₂] } :=
      ⟨rfl, _, rfl, ShowsNode.singleton rfl hreq₂⟩
    rcases accepted with err | ⟨⟩
    · exact hlog.trans (exit_keeps ..)
    · exact hlog.trans (rewatch_keeps urls versions _ _ hreq₂)
  · exact rewatch_keeps urls versions _ _ hreq₂

/-- The node a step leaves remembered is that of the request it takes, if the
request names one, else the one remembered before; every request the step
shows a collaborator carries it. A request that panics returns first. -/
theorem step_remembers {s s' : Stream} {versions' : GoMap String} {a : Action}
    (h : s.step callbacks log urls versions a = some (s', versions')) :
    Remembers ((received [a]).foldl (fun node req => req.node.getD node) s.node) s s' := by
  cases a with
  | respond t sent =>
    simp only [Stream.step] at h
    split at h
    · exact (respond_keeps callbacks urls versions h).remembers
    · cases h
  | openStream result | done | hangUp | request req accepted =>
    simp only [Stream.step, Option.ite_none_right_eq_some, Option.some.injEq, Prod.mk.injEq] at h
    obtain ⟨-, rfl, -⟩ := h
    first
    | exact (openStream_keeps callbacks s result).remembers
    | exact (exit_keeps callbacks s none).remembers
    | rcases Stream.request_exit_or_handle callbacks log urls versions s req accepted with
        ⟨err, h⟩ | ⟨r, rfl, h⟩ <;> rw [h]
      · exact exit_remembers callbacks s err _
      · exact (handle_keeps callbacks urls versions s r accepted).remembers
  | emit w response | close w =>
    simp only [Stream.step] at h
    split at h
    · split at h
      · cases h; exact ⟨fun _ => rfl, [], by simp, ShowsNode.of_unobserved fun _ he => nomatch he⟩
      · cases h
    · cases h

/-- A stream that has returned sees only the cache's sends and closes, which
keep its phase, its node and its trace. -/
theorem Stream.step_returned {s s' : Stream} {versions' : GoMap String} {a : Action}
    (hret : s.phase.live = false)
    (hstep : s.step callbacks log urls versions a = some (s', versions')) :
    s'.phase = s.phase ∧ s'.node = s.node ∧ s'.trace = s.trace ∧
      ((∃ w r, a = .emit w r) ∨ ∃ w, a = .close w) := by
  obtain ⟨err, hphase⟩ : ∃ err, s.phase = .returned err := by
    cases h : s.phase <;> simp_all [Phase.live]
  cases a with
  | emit w r =>
    simp only [Stream.step] at hstep
    split at hstep
    · split at hstep <;> cases hstep
      exact ⟨rfl, rfl, rfl, .inl ⟨w, r, rfl⟩⟩
    · cases hstep
  | close w =>
    simp only [Stream.step] at hstep
    split at hstep
    · split at hstep <;> cases hstep
      exact ⟨rfl, rfl, rfl, .inr ⟨w, rfl⟩⟩
    · cases hstep
  | _ => simp [Stream.step, hphase] at hstep

end Keeps

variable {server : Config}

/-- Each running stream of the server remembers the node of the latest request
it received that named one; no step was taken on a stream not yet started. -/
structure Latest (actions : List WorldAction) (w : World) : Prop where
  node : ∀ i s, w.streams[i]? = some s → s.phase.live = true →
    s.node = latestNode (received (actionsOf i actions))
  unborn : ∀ i, w.streams.length ≤ i → actionsOf i actions = []

theorem actionsOf_step (actions : List WorldAction) (i j : Nat) (b : Action) :
    actionsOf i (actions ++ [.step j b]) = actionsOf i actions ++ if j = i then [b] else [] := by
  simp only [actionsOf_append]
  split <;> simp [actionsOf, *]

/-- Stream `j` of a world that satisfies `Latest` takes a step from `s₀` to `s'`:
it remembers the latest node if it still runs, and every request its new events
show carries the latest node. -/
theorem Latest.stream_step {actions : List WorldAction} {w : World} (h : Latest actions w)
    {j : Nat} {s₀ s' : Stream} {versions : GoMap String} {b : Action}
    (hs₀ : w.streams[j]? = some s₀)
    (hs' : s₀.step server.callbacks server.log server.urls w.deltaVersions b =
      some (s', versions)) :
    (s'.phase.live = true →
      s'.node = latestNode (received (actionsOf j (actions ++ [.step j b])))) ∧
      ∃ new, s'.trace = s₀.trace ++ new ∧ ShowsNode Event.observed
        (latestNode (received (actionsOf j (actions ++ [.step j b])))) new := by
  rw [actionsOf_step, if_pos rfl, received_append, latestNode_append]
  cases hlive : s₀.phase.live
  · -- a returned stream neither runs again nor shows a request
    obtain ⟨hphase, -, htrace, -⟩ := Stream.step_returned _ _ _ _ hlive hs'
    refine ⟨fun h' => ?_, [], by simp [htrace], ShowsNode.of_unobserved fun _ he => nomatch he⟩
    rw [hphase, hlive] at h'
    cases h'
  · rw [← h.node j s₀ hs₀ hlive]
    have hr := step_remembers server.callbacks server.log server.urls w.deltaVersions hs'
    exact ⟨hr.remembered, hr.shows⟩

theorem Latest.step {actions : List WorldAction} {w w' : World} {a : WorldAction}
    (h : Latest actions w) (hstep : w.step server a = some w') : Latest (actions ++ [a]) w' := by
  rcases World.step_cases hstep with ⟨defaultTypeURL, rfl, rfl⟩ |
    ⟨j, b, s₀, s', versions, rfl, hs₀, hs', rfl⟩
  · -- a new stream, which has taken no step yet
    have hsame : ∀ i, actionsOf i (actions ++ [.start defaultTypeURL]) = actionsOf i actions :=
      fun i => by simp [actionsOf_append, actionsOf]
    refine ⟨fun i s hs hlive => ?_, fun i hi => ?_⟩
    · rw [hsame]
      rcases Nat.lt_or_ge i w.streams.length with hi | hi
      · rw [List.getElem?_append_left hi] at hs
        exact h.node i s hs hlive
      · rw [List.getElem?_append_right hi] at hs
        obtain ⟨-, rfl⟩ : i - w.streams.length = 0 ∧ Stream.init defaultTypeURL = s := by
          simpa [List.getElem?_cons] using hs
        rw [h.unborn i hi]
        rfl
    · rw [hsame]
      exact h.unborn i (by simp at hi; omega)
  · -- stream `j` takes a step; the others keep their nodes and their actions
    have hj : j < w.streams.length := (List.getElem?_eq_some_iff.mp hs₀).1
    refine ⟨fun i s hs hlive => ?_, fun i hi => ?_⟩
    · by_cases hij : j = i
      · subst hij
        rw [List.getElem?_set_self hj] at hs
        cases hs
        exact (h.stream_step hs₀ hs').1 hlive
      · rw [List.getElem?_set_ne hij] at hs
        rw [actionsOf_step, if_neg hij, List.append_nil]
        exact h.node i s hs hlive
    · rw [List.length_set] at hi
      rw [actionsOf_step, if_neg (by omega), List.append_nil]
      exact h.unborn i hi

/-- Along every run of the server, each running stream remembers the latest node. -/
theorem latest_run {actions : List WorldAction} {w : World}
    (h : World.init.run server actions = some w) : Latest actions w := by
  induction actions using List.reverseRecOn generalizing w with
  | nil =>
    cases h
    exact ⟨(fun _ _ hs => nomatch hs), fun _ _ => rfl⟩
  | append_singleton actions a ih =>
    obtain ⟨w₁, hrun, hstep⟩ := World.run_concat h
    exact (ih hrun).step hstep

/-- Every request a step of the server shows `OnStreamDeltaRequest` or
`CreateDeltaWatch` on a stream carries the node of the latest request the
stream received that named one. -/
theorem observed_node {actions : List WorldAction} {a : WorldAction} {w w' : World} {i : Nat}
    {s s' : Stream} (hrun : World.init.run server actions = some w)
    (hstep : w.step server a = some w') (hs : w.streams[i]? = some s)
    (hs' : w'.streams[i]? = some s') :
    ∃ new, s'.trace = s.trace ++ new ∧
      ShowsNode Event.observed (latestNode (received (actionsOf i (actions ++ [a])))) new := by
  -- a stream the step leaves alone shows nothing new
  have hsame (h : w'.streams[i]? = w.streams[i]?) :
      ∃ new, s'.trace = s.trace ++ new ∧
        ShowsNode Event.observed (latestNode (received (actionsOf i (actions ++ [a])))) new := by
    obtain rfl : s' = s := Option.some.inj ((hs'.symm.trans h).trans hs)
    exact ⟨[], by simp, ShowsNode.of_unobserved fun _ he => nomatch he⟩
  rcases World.step_cases hstep with ⟨defaultTypeURL, -, rfl⟩ |
    ⟨j, b, s₀, s₁, versions, rfl, hs₀, hs₁, rfl⟩
  · exact hsame (List.getElem?_append_left (List.getElem?_eq_some_iff.mp hs).1)
  by_cases hij : j = i
  · subst hij
    obtain rfl : s₀ = s := Option.some.inj (hs₀.symm.trans hs)
    rw [List.getElem?_set_self (List.getElem?_eq_some_iff.mp hs).1] at hs'
    cases hs'
    exact ((latest_run hrun).stream_step hs₀ hs₁).2
  · exact hsame (List.getElem?_set_ne hij)

end Server

/-- In every run of either delta processor, every request a step shows
`OnStreamDeltaRequest` or `CreateDeltaWatch` carries the node of the latest
request the stream has received that named one, the empty node if none did. -/
theorem observed_requests_carry_latest_node :
    (∀ (server : Delta.Server) d defaultTypeURL typeURLs actions a (s s' : Delta.Session),
      (Delta.Session.init server defaultTypeURL typeURLs).run server d defaultTypeURL actions =
          some s →
        s.step server d defaultTypeURL a = some s' →
        ∃ new, s'.trace = s.trace ++ new ∧
          ShowsNode Delta.Event.observed (latestNode (Delta.received (actions ++ [a]))) new) ∧
    (∀ (server : Server.Config) actions a (w w' : Server.World) i (s s' : Server.Stream),
      Server.World.init.run server actions = some w → w.step server a = some w' →
        w.streams[i]? = some s → w'.streams[i]? = some s' →
        ∃ new, s'.trace = s.trace ++ new ∧ ShowsNode Server.Event.observed
          (latestNode (Server.received (Server.actionsOf i (actions ++ [a])))) new) :=
  ⟨fun _ _ _ _ _ _ _ _ hrun hstep => Delta.observed_node hrun hstep,
    fun _ _ _ _ _ _ _ _ hrun hstep hs hs' => Server.observed_node hrun hstep hs hs'⟩

/-- A single-type stream of type `"c"` takes a request naming node `"n"`, whose
watch is created, and then a request for `"d"` that names none. -/
def Delta.namedThenNodeless : List Delta.Action :=
  [.openStream (.ok ()),
    .request (some { Delta.subscription "c" with node := some ⟨"n"⟩ }) (.ok ()), .register,
    .request (some (Delta.subscription "d")) (.ok ())]

/-- An aggregated v2 stream takes an endpoint request naming node `"n"`. -/
def Server.namedThenNodeless : List Server.WorldAction :=
  [.start anyType, .step 0 (.openStream (.ok ())),
    .step 0 (.request (some (Server.endpointRequest "")) (.ok ()))]

/-- The same endpoint request without a node. -/
def Server.nodelessStep : Server.WorldAction :=
  .step 0 (.request (some { Server.endpointRequest "" with node := none }) (.ok ()))

/-- In both processors the request without a node reaches `CreateDeltaWatch`
with node `"n"`, and every request the step shows carries it. -/
theorem nodelessRequests_rehydrated :
    (∃ s s', (Delta.Session.init Delta.plainServer "c" []).run Delta.plainServer .prompt "c"
        Delta.namedThenNodeless = some s ∧
      s.step Delta.plainServer .prompt "c" .register = some s' ∧
      (∃ state, s'.trace.getLast? = some
        (.createDeltaWatch { Delta.subscription "d" with node := some ⟨"n"⟩ } state 1)) ∧
      ∃ new, s'.trace = s.trace ++ new ∧ ShowsNode Delta.Event.observed ⟨"n"⟩ new) ∧
    (∃ w w' s s', Server.World.init.run Server.plainConfig Server.namedThenNodeless = some w ∧
      w.step Server.plainConfig Server.nodelessStep = some w' ∧
      w.streams[0]? = some s ∧ w'.streams[0]? = some s' ∧
      s'.trace.getLast? = some (.createDeltaWatch (Server.endpointRequest "") "" 1) ∧
      ∃ new, s'.trace = s.trace ++ new ∧ ShowsNode Server.Event.observed ⟨"n"⟩ new) := by
  obtain ⟨s, s', hrun, hstep, hnode, hlast⟩ : ∃ s s',
      (Delta.Session.init Delta.plainServer "c" []).run Delta.plainServer .prompt "c"
        Delta.namedThenNodeless = some s ∧
      s.step Delta.plainServer .prompt "c" .register = some s' ∧
      latestNode (Delta.received (Delta.namedThenNodeless ++ [Delta.Action.register])) = ⟨"n"⟩ ∧
      ∃ state, s'.trace.getLast? = some
        (.createDeltaWatch { Delta.subscription "d" with node := some ⟨"n"⟩ } state 1) :=
    ⟨_, _, rfl, rfl, rfl, _, rfl⟩
  obtain ⟨w, w', t, t', hw, hw', ht, ht', hnode', hlast'⟩ : ∃ w w' t t',
      Server.World.init.run Server.plainConfig Server.namedThenNodeless = some w ∧
      w.step Server.plainConfig Server.nodelessStep = some w' ∧
      w.streams[0]? = some t ∧ w'.streams[0]? = some t' ∧
      latestNode (Server.received
        (Server.actionsOf 0 (Server.namedThenNodeless ++ [Server.nodelessStep]))) = ⟨"n"⟩ ∧
      t'.trace.getLast? = some (.createDeltaWatch (Server.endpointRequest "") "" 1) :=
    ⟨_, _, _, _, rfl, rfl, rfl, rfl, rfl, rfl⟩
  refine ⟨⟨s, s', hrun, hstep, hlast, ?_⟩, ⟨w, w', t, t', hw, hw', ht, ht', hlast', ?_⟩⟩
  · rw [← hnode]
    exact observed_requests_carry_latest_node.1 _ _ _ _ _ _ _ _ hrun hstep
  · rw [← hnode']
    exact observed_requests_carry_latest_node.2 _ _ _ _ _ _ _ _ hw hw' ht ht'

end ControlPlane
