import ControlPlane.Delta.Step

/-!
The response channel of the muxed processor (pkg/server/delta/v2) as a queue.
Every cache watch of a stream puts its responses on the one buffered
`deltaResponses` channel, and the processor takes them off in the main `select`
and in `processAll`, oldest first.

So, against any cache, the channel loses, reorders and duplicates nothing: the
sends of the watches, each with its response, are in order the ones the
processor took, then the one whose `process` failed if the stream returned so,
then those still buffered; and the responses it took are the ones `process`
handled, each once and in that order.
-/

namespace ControlPlane.Delta

/-- The watches' sends on the channel, each with its response, in order. -/
def emissions (trace : List Event) : List Emission :=
  trace.filterMap fun
    | .emit handle response => some ⟨handle, response⟩
    | _ => none

/-- The responses `process` handled without error, in order. -/
def processedResponses (trace : List Event) : List DeltaResponse :=
  trace.filterMap fun
    | .processed resp _ => some resp
    | _ => none

@[simp] theorem emissions_append (trace new : List Event) :
    emissions (trace ++ new) = emissions trace ++ emissions new :=
  List.filterMap_append ..

@[simp] theorem processedResponses_append (trace new : List Event) :
    processedResponses (trace ++ new) = processedResponses trace ++ processedResponses new :=
  List.filterMap_append ..

@[simp] theorem emissions_nil : emissions [] = [] := rfl

@[simp] theorem processedResponses_nil : processedResponses [] = [] := rfl

@[simp] theorem emissions_cons (event : Event) (trace : List Event) :
    emissions (event :: trace) = (match event with
      | .emit handle response => [⟨handle, response⟩]
      | _ => []) ++ emissions trace := by
  cases event <;> rfl

@[simp] theorem processedResponses_cons (event : Event) (trace : List Event) :
    processedResponses (event :: trace) = (match event with
      | .processed resp _ => [resp]
      | _ => []) ++ processedResponses trace := by
  cases event <;> rfl

@[simp] theorem emissions_cancels (handles : List Nat) :
    emissions (handles.map .cancel) = [] := by
  induction handles <;> simp_all

@[simp] theorem processedResponses_cancels (handles : List Nat) :
    processedResponses (handles.map .cancel) = [] := by
  induction handles <;> simp_all

@[simp] theorem emissions_callback (server : Server) (event : Event) :
    emissions (Session.callback server event) =
      if server.callbacks then emissions [event] else [] := by
  unfold Session.callback; split <;> rfl

@[simp] theorem processedResponses_callback (server : Server) (event : Event) :
    processedResponses (Session.callback server event) =
      if server.callbacks then processedResponses [event] else [] := by
  unfold Session.callback; split <;> rfl

theorem Phase.live_of_running {phase : Phase} (h : phase.running = true) : phase.live = true := by
  cases phase <;> simp_all [Phase.running, Phase.live]

/-- The channel's history: the emissions the processor took, then those it lost
at a failed `process` (one at most, and none while it runs), then those still
buffered, are the watches' sends in order; the ones taken carry the processed
responses in order. -/
structure Queued (s : Session) (taken lost : List Emission) : Prop where
  emitted : emissions s.trace = taken ++ lost ++ s.values.deltaResponses.contents
  processed : taken.map Emission.response = (processedResponses s.trace).map some
  single : lost.length ≤ 1
  live : s.phase.live = true → lost = []

namespace Queued

variable {server : Server} {d : Discipline} {defaultTypeURL : String} {s s' : Session}
  {taken lost : List Emission}

theorem init (defaultTypeURL : String) (typeURLs : List String) :
    Queued (Session.init server defaultTypeURL typeURLs) [] [] :=
  ⟨rfl, rfl, by simp, fun _ => rfl⟩

/-- A move that neither sends, takes, nor processes keeps the history. -/
theorem frame (hq : Queued s taken [])
    (hcontents : s'.values.deltaResponses.contents = s.values.deltaResponses.contents)
    (hemitted : emissions s'.trace = emissions s.trace)
    (hprocessed : processedResponses s'.trace = processedResponses s.trace) :
    Queued s' taken [] :=
  ⟨by rw [hemitted, hcontents, hq.emitted], by rw [hprocessed, hq.processed], hq.single,
    fun _ => rfl⟩

theorem exit (hq : Queued s taken lost) (err : Option Error) :
    Queued (s.exit server err) taken lost :=
  ⟨by simpa using hq.emitted, by simpa using hq.processed, hq.single, fun h => nomatch h⟩

/-- The request case up to its reconciliation keeps the history. -/
theorem prepared (hq : Queued s taken []) {s₁ : Session} (hp : s.Prepared s₁) :
    Queued s₁ taken [] := by
  obtain ⟨new, htrace, hnew⟩ := hp.trace
  have hquiet (e : Event) (he : e ∈ new) :
      emissions [e] = [] ∧ processedResponses [e] = [] := by
    rcases hnew e he with ⟨_, _, rfl⟩ | ⟨_, rfl⟩ <;> exact ⟨rfl, rfl⟩
  refine hq.frame (by rw [hp.deltaResponses]) ?_ ?_ <;> rw [htrace]
  · simpa [emissions] using fun e he => (hquiet e he).1
  · simpa [processedResponses] using fun e he => (hquiet e he).2

/-- A watch's send joins the end of the channel. -/
theorem emit (hq : Queued s taken lost) (watch : Nat) (response : Option DeltaResponse) :
    Queued (s.emitted watch response) taken lost :=
  ⟨by simp [Session.emitted, hq.emitted], by simpa [Session.emitted] using hq.processed,
    hq.single, hq.live⟩

section Receive

variable {e : Emission} {ch : Chan Emission}
  (hq : Queued s taken []) (hrecv : s.values.deltaResponses.recv? = some (e, ch))
  (hcontents : s'.values.deltaResponses.contents = ch.contents)
  (hemitted : emissions s'.trace = emissions s.trace)
include hq hrecv hcontents hemitted

/-- The oldest response is taken off and `process` fails: the stream returns,
and that response is the one lost. -/
theorem lose (hprocessed : processedResponses s'.trace = processedResponses s.trace)
    (hlive : s'.phase.live = false) : Queued s' taken [e] := by
  refine ⟨?_, by rw [hprocessed, hq.processed], by simp, fun h => by simp [hlive] at h⟩
  rw [hemitted, hq.emitted, (Chan.recv?_eq_some hrecv).1, hcontents]
  simp

/-- The oldest response is taken off and processed. -/
theorem take {r : DeltaResponse} (hr : e.response = some r)
    (hprocessed : processedResponses s'.trace = processedResponses s.trace ++ [r]) :
    Queued s' (taken ++ [e]) [] := by
  refine ⟨?_, by simp [hprocessed, hq.processed, hr], by simp, fun _ => rfl⟩
  rw [hemitted, hq.emitted, (Chan.recv?_eq_some hrecv).1, hcontents]
  simp

end Receive

/-- Every transition keeps a history of the channel. -/
theorem transition (hq : Queued s taken lost) (ht : Transition server d defaultTypeURL s s') :
    ∃ taken' lost', Queued s' taken' lost' := by
  -- until the return nothing was lost
  have hrun {phase : Phase} (hp : s.phase = phase) (hl : phase.live = true) :
      Queued s taken [] :=
    hq.live (hp ▸ hl) ▸ hq
  cases ht with
  | opened hphase => exact ⟨taken, [], (hrun hphase rfl).frame rfl (by simp) (by simp)⟩
  | openFailed err hphase =>
    refine ⟨taken, [], Queued.exit ?_ _⟩
    exact (hrun hphase rfl).frame rfl (by simp) (by simp)
  | emit watch response => exact ⟨taken, lost, hq.emit watch response⟩
  | exit err => exact ⟨taken, lost, hq.exit err⟩
  | rejected req accepted s₁ err hphase hprepare =>
    exact ⟨taken, [], ((hrun hphase rfl).prepared
      (Session.prepared_of_prepare server hprepare)).exit _⟩
  | ignored req accepted s₁ _ hphase hprepare | uncancelled req accepted s₁ _ hphase hprepare =>
    exact ⟨taken, [], ((hrun hphase rfl).prepared
      (Session.prepared_of_prepare server hprepare)).frame rfl rfl rfl⟩
  | cancelled req accepted s₁ _ handle hphase hprepare =>
    exact ⟨taken, [], ((hrun hphase rfl).prepared
      (Session.prepared_of_prepare server hprepare)).frame rfl (by simp) (by simp)⟩
  | unsent e ch next err hnext hrecv | sendFailed e ch next _ _ err hnext hrecv
  | updateFailed e ch next _ _ _ err hnext hrecv =>
    exact ⟨taken, [e], (hrun rfl (Phase.live_of_running hnext.running.1)).lose hrecv rfl
      (by simp) (by simp) rfl⟩
  | processed e ch next r out state hnext hrecv hresp =>
    exact ⟨taken ++ [e], [], (hrun rfl (Phase.live_of_running hnext.running.1)).take hrecv rfl
      (by simp) hresp (by simp)⟩
  | drained req hphase => exact ⟨taken, [], (hrun hphase rfl).frame rfl rfl rfl⟩
  | register req hphase =>
    exact ⟨taken, [], (hrun hphase rfl).frame rfl (by simp [Session.register])
      (by simp [Session.register])⟩

end Queued

variable {server : Server} {d : Discipline} {defaultTypeURL : String} {typeURLs : List String}

/-- Against any cache, the channel is a queue: the watches' sends, each with its
response, are in order the ones the processor took, then at most one lost to a
failed `process` (none until `processDelta` returns), then those still
buffered; and the responses taken are exactly the ones `process` handled, each
once and in the order they were sent. -/
theorem responses_taken_in_order {s : Session}
    (hs : Reachable server d defaultTypeURL typeURLs s) :
    ∃ taken lost : List Emission,
      emissions s.trace = taken ++ lost ++ s.values.deltaResponses.contents ∧
      taken.map Emission.response = (processedResponses s.trace).map some ∧
      lost.length ≤ 1 ∧ (s.phase.live = true → lost = []) := by
  obtain ⟨taken, lost, hq⟩ := reachable_induction server d defaultTypeURL typeURLs
    (P := fun s => ∃ taken lost, Queued s taken lost) ⟨[], [], Queued.init _ _⟩
    (fun _ _ _ ⟨_, _, hq⟩ ht => hq.transition ht) hs
  exact ⟨taken, lost, hq.emitted, hq.processed, hq.single, hq.live⟩

/-- A second answer of version `"2"` to `req`. -/
def reanswer (req : DeltaDiscoveryRequest) : DeltaResponse := ⟨req, .ok ⟨""⟩, .ok "2", .ok ∅⟩

/-- Watch 0 of a stream of type `"c"` answers twice, the second time with
version `"2"`, before the processor takes one response off the channel. -/
def answeredTwice : List Action :=
  [.openStream (.ok ()), .request (some (subscription "c")) (.ok ()), .register,
    .emit 0 (some (answer (watched "c") ∅)), .emit 0 (some (reanswer (watched "c"))),
    .respond (.ok ())]

/-- The first answer was processed and the second is still buffered. -/
theorem answeredTwice_queued : ∃ s, plainRun .unrestricted answeredTwice = some s ∧
    emissions s.trace =
      [⟨0, some (answer (watched "c") ∅)⟩, ⟨0, some (reanswer (watched "c"))⟩] ∧
    processedResponses s.trace = [answer (watched "c") ∅] ∧
    s.values.deltaResponses.contents = [⟨0, some (reanswer (watched "c"))⟩] ∧
    ∃ taken lost : List Emission,
      emissions s.trace = taken ++ lost ++ s.values.deltaResponses.contents ∧
      taken.map Emission.response = (processedResponses s.trace).map some ∧
      lost.length ≤ 1 ∧ (s.phase.live = true → lost = []) := by
  obtain ⟨s, hrun, hemissions, hprocessed, hcontents⟩ :
      ∃ s, plainRun .unrestricted answeredTwice = some s ∧
        emissions s.trace =
          [⟨0, some (answer (watched "c") ∅)⟩, ⟨0, some (reanswer (watched "c"))⟩] ∧
        processedResponses s.trace = [answer (watched "c") ∅] ∧
        s.values.deltaResponses.contents = [⟨0, some (reanswer (watched "c"))⟩] :=
    ⟨_, rfl, rfl, rfl, rfl⟩
  exact ⟨s, hrun, hemissions, hprocessed, hcontents,
    responses_taken_in_order (reachable_of_plainRun hrun)⟩

end ControlPlane.Delta
