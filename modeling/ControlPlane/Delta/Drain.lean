import ControlPlane.Delta.Step
import Mathlib.Data.Finset.Card

/-!
The drain of the muxed processor (`processAll` in pkg/server/delta/v2) ends. It
loops while a response waits on `deltaResponses`, and the cache may go on
sending while it runs. Against a cache whose watches send at most once, every
iteration that processes a response uses up one of the responses waiting or
one that a watch may still send, and a send only moves one from the second
kind to the first: so `processAll` iterates at most once more than there are
of both when it starts, whatever the cache sends meanwhile.
-/

namespace ControlPlane.Delta

/-- The watches the cache may still let send. -/
def Session.sendable (d : Discipline) (s : Session) : Finset Nat :=
  (Finset.range s.registered.length).filter fun w => d.Allows s.trace w

/-- What the drain may still have to process: the responses waiting and one
for each watch that may still send. -/
def Session.drainBudget (d : Discipline) (s : Session) : Nat :=
  s.values.deltaResponses.contents.length + (s.sendable d).card

/-- An iteration of `processAll`. -/
def Action.isDrain : Action → Bool
  | .drain _ => true
  | _ => false

/-- What can happen while `processAll` runs: its iterations and the cache's
sends. -/
def Action.duringDrain : Action → Bool
  | .drain _ | .emit _ _ => true
  | _ => false

/-- A discipline under which a watch sends at most once. -/
def Discipline.SendsOnce (d : Discipline) : Prop := d = .prompt ∨ d = .deferred

theorem Discipline.allows_emit {d : Discipline} (hd : d.SendsOnce) (trace : List Event)
    (w w' : Nat) (response : Option DeltaResponse) :
    d.Allows (trace ++ [.emit w response]) w' ↔ d.Allows trace w' ∧ w' ≠ w := by
  rcases hd with rfl | rfl <;> simp only [Discipline.Allows, emittedHandles_append,
    emittedHandles_cons, emittedHandles_nil, List.append_nil, List.mem_append, List.mem_singleton,
    reduceCtorEq, or_false] <;> tauto

/-- A watch's allowance depends only on whether it sent and whether its handle
was invoked. -/
theorem Discipline.allows_congr (d : Discipline) {trace trace' : List Event} {w : Nat}
    (hemit : w ∈ emittedHandles trace' ↔ w ∈ emittedHandles trace)
    (hcancel : Event.cancel w ∈ trace' ↔ Event.cancel w ∈ trace) :
    d.Allows trace' w ↔ d.Allows trace w := by
  cases d <;> simp [Discipline.Allows, hemit, hcancel]

variable {server : Server} {d : Discipline} {defaultTypeURL : String}

/-- A send moves one response from those a watch may still send to those
waiting. -/
theorem drainBudget_emit (hd : d.SendsOnce) {s s' : Session} {w : Nat}
    {response : Option DeltaResponse}
    (h : s.step server d defaultTypeURL (.emit w response) = some s') :
    s'.phase = s.phase ∧ s'.drainBudget d = s.drainBudget d := by
  simp only [Session.step] at h
  split at h
  · rename_i req hreq
    split at h
    · rename_i hcond
      cases h
      have hw : w ∈ s.sendable d := Finset.mem_filter.mpr
        ⟨Finset.mem_range.mpr (List.getElem?_eq_some_iff.mp hreq).1, hcond.1⟩
      have hsendable : (s.emitted w response).sendable d = (s.sendable d).erase w := by
        ext w'
        simp only [Session.sendable, Session.emitted, Finset.mem_filter, Finset.mem_erase,
          d.allows_emit hd]
        tauto
      have hcard := Finset.card_erase_add_one hw
      refine ⟨rfl, ?_⟩
      rw [Session.drainBudget, Session.drainBudget, hsendable]
      simp only [Session.emitted, Chan.send_contents, List.length_append, List.length_singleton]
      omega
    · cases h
  · cases h

/-- An iteration of `processAll` either processes a response, which uses one
up, or leaves the drain: to `CreateDeltaWatch`, or out of `processDelta`. -/
theorem drainBudget_drain {s s' : Session} {r : DeltaDiscoveryRequest} {sent : Except String Unit}
    (hphase : s.phase = .draining r)
    (h : s.step server d defaultTypeURL (.drain sent) = some s') :
    s'.phase = .draining r ∧ s'.drainBudget d + 1 = s.drainBudget d ∨
      ∀ r', s'.phase ≠ .draining r' := by
  simp only [Session.step, hphase] at h
  rcases hrecv : s.values.deltaResponses.recv? with _ | ⟨e, ch⟩
  · simp only [hrecv, Option.some.injEq] at h
    subst h
    exact .inr fun _ h => nomatch h
  simp only [hrecv, Session.receive] at h
  rcases Session.process_cases (s.popped ch) e.response sent with
    ⟨err, hp⟩ | ⟨r, out, err, -, -, hp⟩ | ⟨r, out, state, err, -, -, -, hp⟩ |
    ⟨resp, out, state, -, -, -, hp⟩ <;> rw [hp] at h <;> cases h
  · exact .inr fun _ h => nomatch h
  · exact .inr fun _ h => nomatch h
  · exact .inr fun _ h => nomatch h
  refine .inl ⟨rfl, ?_⟩
  -- the response is taken off the channel; `Send` and the update neither send nor cancel
  have hsendable : Session.sendable d { (s.popped ch).stamp server resp.deltaRequest
      ((s.popped ch).stamped out) with
        phase := .draining r
        values := { (s.popped ch).values.record resp.deltaRequest.typeUrl
          ((s.popped ch).stamped out).nonce state with locked := false }
        trace := ((s.popped ch).stamp server resp.deltaRequest ((s.popped ch).stamped out)).trace ++
          [.processed resp ((s.popped ch).stamped out).nonce] } = s.sendable d := by
    ext w
    simp only [Session.sendable, Finset.mem_filter, Session.stamp_trace, Session.popped_trace,
      Session.stamp_registered, Session.popped_registered]
    refine and_congr_right fun _ => d.allows_congr ?_ ?_ <;>
      (unfold Session.callback; split <;> simp)
  rw [Session.drainBudget, Session.drainBudget, hsendable, (Chan.recv?_eq_some hrecv).1]
  simp only [Watches.record, Session.popped_values, List.length_cons]
  omega

/-- Outside the drain, sends leave the processor where it is and no iteration of
`processAll` runs. -/
theorem drains_outside {s s' : Session} (hphase : ∀ r, s.phase ≠ .draining r)
    {actions : List Action} (honly : ∀ a ∈ actions, a.duringDrain)
    (hrun : s.run server d defaultTypeURL actions = some s') :
    (actions.filter Action.isDrain).length = 0 := by
  induction actions generalizing s with
  | nil => rfl
  | cons a rest ih =>
    obtain ⟨s₁, hstep, hrest⟩ := Option.bind_eq_some.mp hrun
    cases a with
    | emit w response =>
      have hkeep : s₁.phase = s.phase := by
        simp only [Session.step] at hstep
        split at hstep
        · split at hstep <;> cases hstep
          rfl
        · cases hstep
      simpa [Action.isDrain] using
        ih (fun r => hkeep ▸ hphase r) (fun a ha => honly a (List.mem_cons_of_mem _ ha)) hrest
    | drain sent =>
      cases hp : s.phase with
      | draining r => exact absurd hp (hphase r)
      | _ => simp [Session.step, hp] at hstep
    | _ => exact absurd (honly _ (List.mem_cons_self _ _)) (by simp [Action.duringDrain])

/-- A watch for `"c"` answers, and a second request for `"c"` invokes its handle
and starts the drain. -/
def answeredRerequest : List Action :=
  [.openStream (.ok ()), .request (some (subscription "c")) (.ok ()), .register,
    .emit 0 (some (answer (watched "c") ∅)), .request (some (subscription "c")) (.ok ())]

/-- One round against a cache that sends at will: a registered watch answers
its own request on an empty channel, and the next iteration of `processAll`
processes the answer and finds the channel as it was. -/
theorem drain_round {s : Session} {r req : DeltaDiscoveryRequest} {w : Nat}
    (hphase : s.phase = .draining r) (hempty : s.values.deltaResponses.contents = [])
    (hw : s.registered[w]? = some req) {resp : DeltaResponse} {out : DeltaDiscoveryResponse}
    {sv : String} {vm : VersionMap} (hreq : resp.deltaRequest = req)
    (hout : resp.deltaDiscoveryResponse = .ok out) (hsv : resp.systemVersion = .ok sv)
    (hvm : resp.deltaVersionMap = .ok vm) :
    ∃ s', s.run server .unrestricted defaultTypeURL [.emit w (some resp), .drain (.ok ())] =
      some s' ∧ s'.phase = .draining r ∧ s'.values.deltaResponses.contents = [] ∧
      s'.registered = s.registered := by
  have hemit : s.step server .unrestricted defaultTypeURL (.emit w (some resp)) =
      some (s.emitted w (some resp)) := by
    simp [Session.step, hw, hreq, Discipline.Allows]
  have hrecv : (s.emitted w (some resp)).values.deltaResponses.recv? =
      some (⟨w, some resp⟩, ⟨s.values.deltaResponses.capacity, []⟩) := by
    simp [Session.emitted, Chan.send, Chan.recv?, hempty]
  have hdrain :
      (s.emitted w (some resp)).step server .unrestricted defaultTypeURL (.drain (.ok ())) =
      (s.emitted w (some resp)).receive server (.ok ()) (.draining r) := by
    simp only [Session.step, show (s.emitted w (some resp)).phase = .draining r from hphase, hrecv]
  have hrun : s.run server .unrestricted defaultTypeURL [.emit w (some resp), .drain (.ok ())] =
      (s.emitted w (some resp)).receive server (.ok ()) (.draining r) := by
    simp only [Session.run, hemit, Option.some_bind, hdrain]
    cases (s.emitted w (some resp)).receive server (.ok ()) (.draining r) <;> rfl
  simp only [Session.receive, hrecv, Session.process_ok _ hout hsv hvm] at hrun
  exact ⟨_, hrun, rfl, rfl, rfl⟩

/-- `n` rounds of a send by watch `w` followed by an iteration of `processAll`. -/
def sendRounds (w : Nat) (resp : DeltaResponse) (n : Nat) : List Action :=
  (List.replicate n [.emit w (some resp), .drain (.ok ())]).flatten

theorem sendRounds_succ (w : Nat) (resp : DeltaResponse) (n : Nat) :
    sendRounds w resp (n + 1) = [.emit w (some resp), .drain (.ok ())] ++ sendRounds w resp n :=
  rfl

/-- Against a cache that may send at will, `processAll` need not end: from a
drain with an empty channel and a registered watch, a cache that answers after
each iteration keeps the drain going for any number of iterations. -/
theorem processAll_unbounded {s : Session} {r req : DeltaDiscoveryRequest} {w : Nat}
    (hphase : s.phase = .draining r) (hempty : s.values.deltaResponses.contents = [])
    (hw : s.registered[w]? = some req) {resp : DeltaResponse} {out : DeltaDiscoveryResponse}
    {sv : String} {vm : VersionMap} (hreq : resp.deltaRequest = req)
    (hout : resp.deltaDiscoveryResponse = .ok out) (hsv : resp.systemVersion = .ok sv)
    (hvm : resp.deltaVersionMap = .ok vm) (n : Nat) :
    ∃ s', s.run server .unrestricted defaultTypeURL (sendRounds w resp n) = some s' ∧
      s'.phase = .draining r ∧ ((sendRounds w resp n).filter Action.isDrain).length = n := by
  induction n generalizing s with
  | zero => exact ⟨s, rfl, hphase, rfl⟩
  | succ n ih =>
    obtain ⟨s₁, hround, hphase₁, hempty₁, hregistered₁⟩ :=
      drain_round hphase hempty hw hreq hout hsv hvm
    obtain ⟨s', hrun, hphase', hcount⟩ := ih hphase₁ hempty₁ (hregistered₁ ▸ hw)
    refine ⟨s', ?_, hphase', ?_⟩
    · rw [sendRounds_succ, Session.run_append, hround]
      exact hrun
    · rw [sendRounds_succ, List.filter_append, List.length_append, hcount]
      exact Nat.add_comm 1 n

/-- A stream of type `"c"` that asks twice for `"c"` before any response: the
second request starts the drain with watch 0 registered and the channel
empty. -/
def rerequested : List Action :=
  [.openStream (.ok ()), .request (some (subscription "c")) (.ok ()), .register,
    .request (some (subscription "c")) (.ok ())]

/-- Watch 0, though its handle was invoked, answers after each iteration: the
drain runs three times and is still draining. -/
theorem rerequested_drains_on : ∃ s s', plainRun .unrestricted rerequested = some s ∧
    s.phase = .draining (watched "c") ∧
    s.run plainServer .unrestricted "c" (sendRounds 0 (answer (watched "c") ∅) 3) = some s' ∧
    s'.phase = .draining (watched "c") ∧
    ((sendRounds 0 (answer (watched "c") ∅) 3).filter Action.isDrain).length = 3 := by
  obtain ⟨s, hrun, hphase, hempty, hw⟩ : ∃ s, plainRun .unrestricted rerequested = some s ∧
      s.phase = .draining (watched "c") ∧ s.values.deltaResponses.contents = [] ∧
      s.registered[0]? = some (watched "c") := ⟨_, rfl, rfl, rfl, rfl⟩
  obtain ⟨s', hrun', hphase', hcount⟩ : ∃ s',
      s.run plainServer .unrestricted "c" (sendRounds 0 (answer (watched "c") ∅) 3) = some s' ∧
      s'.phase = .draining (watched "c") ∧
      ((sendRounds 0 (answer (watched "c") ∅) 3).filter Action.isDrain).length = 3 :=
    processAll_unbounded hphase hempty hw rfl rfl rfl rfl 3
  exact ⟨s, s', hrun, hphase, hrun', hphase', hcount⟩

end ControlPlane.Delta
