import ControlPlane.Delta.Ownership

/-!
The nonces the muxed delta processor stamps on its responses. `send` is the
only place the counter moves and the only caller of `Send` and of
`OnStreamDeltaResponse`, so in every reachable session the counter has moved
once per `Send`, and the `k`-th response handed to `Send` or to the callback
carries `nonceOf k`. That is the decimal rendering of `k` while `k < 2^63`; the
`int64` counter then wraps to a negative value.

A client that acknowledges every response, against a cache that answers each
watch once, makes a stream send as many responses as it likes, so the wrap is
reachable.
-/

namespace ControlPlane.Delta

/-- The nonces of the responses handed to `str.Send`, in order. -/
def sentNonces (trace : List Event) : List String :=
  trace.filterMap fun
    | .send out => some out.nonce
    | _ => none

/-- The nonces of the responses handed to `OnStreamDeltaResponse`, in order. -/
def callbackNonces (trace : List Event) : List String :=
  trace.filterMap fun
    | .onStreamDeltaResponse _ out => some out.nonce
    | _ => none

@[simp] theorem sentNonces_append (trace new : List Event) :
    sentNonces (trace ++ new) = sentNonces trace ++ sentNonces new :=
  List.filterMap_append _ _ _

@[simp] theorem callbackNonces_append (trace new : List Event) :
    callbackNonces (trace ++ new) = callbackNonces trace ++ callbackNonces new :=
  List.filterMap_append _ _ _

/-- The counter has moved once per `Send`, and the `k`-th response handed to
`Send`, and to the callback when there is one, carries `nonceOf k`. -/
structure NonceCount (server : Server) (streamNonce : Int) (trace : List Event) : Prop where
  counted : Counted streamNonce (sentNonces trace)
  callbacks : callbackNonces trace = if server.callbacks then sentNonces trace else []

variable {server : Server} {d : Discipline} {defaultTypeURL : String} {typeURLs : List String}

theorem NonceCount.append {n : Int} {trace : List Event} (h : NonceCount server n trace)
    (new : List Event) (hsent : sentNonces new = []) (hcallback : callbackNonces new = []) :
    NonceCount server n (trace ++ new) := by
  obtain ⟨hc, hb⟩ := h
  refine ⟨by simpa [hsent] using hc, by simpa [hsent, hcallback] using hb⟩

/-- The step `send` takes once a response is marshalled keeps the count. -/
theorem NonceCount.stamp {n : Int} {trace : List Event} (h : NonceCount server n trace)
    (req : DeltaDiscoveryRequest) (out : DeltaDiscoveryResponse)
    (hout : out.nonce = formatInt (nextNonce n)) :
    NonceCount server (nextNonce n)
      (trace ++ Session.callback server (.onStreamDeltaResponse req out) ++ [.send out]) := by
  obtain ⟨hc, hb⟩ := h
  have hsent : sentNonces (trace ++ Session.callback server (.onStreamDeltaResponse req out) ++
      [.send out]) = sentNonces trace ++ [out.nonce] := by
    unfold Session.callback; split <;> simp [sentNonces]
  refine ⟨by simpa only [hsent, hout] using hc.next, ?_⟩
  rw [hsent, callbackNonces_append, callbackNonces_append, hb]
  unfold Session.callback
  split <;> simp [callbackNonces]

theorem NonceCount.exit {s : Session} (h : NonceCount server s.streamNonce s.trace)
    (err : Option Error) :
    NonceCount server (s.exit server err).streamNonce (s.exit server err).trace := by
  simp only [Session.exit_streamNonce, Session.exit_trace, List.append_assoc]
  refine h.append _ ?_ ?_ <;>
    (unfold Session.callback; split <;> simp [sentNonces, callbackNonces, List.filterMap_map])

theorem NonceCount.prepared {s s₁ : Session} (h : NonceCount server s.streamNonce s.trace)
    (hprepare : s.Prepared s₁) : NonceCount server s₁.streamNonce s₁.trace := by
  obtain ⟨new, htrace, hnew⟩ := hprepare.trace
  rw [hprepare.streamNonce, htrace]
  refine h.append _ (List.filterMap_eq_nil_iff.mpr ?_) (List.filterMap_eq_nil_iff.mpr ?_) <;>
    · intro e he
      rcases hnew e he with ⟨_, _, rfl⟩ | ⟨_, rfl⟩ <;> rfl

/-- Every transition keeps the count. -/
theorem NonceCount.transition {s s' : Session} (h : NonceCount server s.streamNonce s.trace)
    (ht : Transition server d defaultTypeURL s s') : NonceCount server s'.streamNonce s'.trace := by
  cases ht with
  | opened =>
    refine h.append _ ?_ ?_ <;> (unfold Session.callback; split <;> rfl)
  | openFailed =>
    exact NonceCount.exit (s := { s with trace := s.trace ++ [.onDeltaStreamOpen] })
      (h.append [.onDeltaStreamOpen] rfl rfl) _
  | emit => exact h.append [_] rfl rfl
  | exit => exact h.exit _
  | rejected req accepted s₁ err _ hprepare =>
    exact NonceCount.exit (h.prepared (Session.prepared_of_prepare server hprepare)) _
  | ignored req accepted s₁ _ _ hprepare =>
    have h₁ := h.prepared (Session.prepared_of_prepare server hprepare)
    exact h₁
  | cancelled req accepted s₁ _ _ _ hprepare =>
    exact (h.prepared (Session.prepared_of_prepare server hprepare)).append [_] rfl rfl
  | uncancelled req accepted s₁ _ _ hprepare =>
    have h₁ := h.prepared (Session.prepared_of_prepare server hprepare)
    exact h₁
  | unsent _ ch _ err => exact NonceCount.exit (s := s.popped ch) h (some err)
  | sendFailed _ ch _ r out err =>
    exact NonceCount.exit (s := Session.stamp server (s.popped ch) _ _) (h.stamp _ _ rfl) (some err)
  | updateFailed _ ch _ r out state err =>
    exact NonceCount.exit (s := { Session.stamp server (s.popped ch) _ _ with values := _ })
      (h.stamp _ _ rfl) (some err)
  | processed => exact (h.stamp _ _ rfl).append [_] rfl rfl
  | drained => exact h
  | register => exact h.append [_] rfl rfl

/-- In every reachable session, the counter has moved once per `Send` and the
`k`-th response handed to `Send`, and to `OnStreamDeltaResponse` when there
are callbacks, carries `nonceOf k`. -/
theorem nonceCount_reachable {s : Session} (hs : Reachable server d defaultTypeURL typeURLs s) :
    NonceCount server s.streamNonce s.trace :=
  reachable_induction server d defaultTypeURL typeURLs
    (P := fun s => NonceCount server s.streamNonce s.trace)
    ⟨counted_zero, by simp [Session.init, callbackNonces, sentNonces]⟩
    (fun _ _ _ h ht => h.transition ht) hs

/-! ### A stream that sends without end -/

/-- A request for `"c"` that names a node and echoes `nonce`. -/
def ack (nonce : String) : DeltaDiscoveryRequest := { watched "c" with responseNonce := nonce }

/-- Against a prompt cache and a client that acknowledges every response: after
`n` responses the processor waits in the `select`, and its `n`-th watch, made
for an acknowledgement, may still send. -/
structure Pumped (s : Session) (n : Nat) : Prop where
  reachable : Reachable plainServer .prompt "c" [] s
  phase : s.phase = .selecting
  length : s.registered.length = n + 1
  latest : ∃ nonce, s.registered[n]? = some (ack nonce)
  armed : s.Armed n
  empty : s.values.deltaResponses.contents = []
  sent : (sentNonces s.trace).length = n

/-- One more response: the watch sends, the processor sends it on and records
its nonce, the client acknowledges it, and since `process` cleared the type's
handle the processor creates the next watch without a drain. -/
theorem Pumped.next {s : Session} {n : Nat} (h : Pumped s n) : ∃ s', Pumped s' (n + 1) := by
  obtain ⟨nonce, hreq⟩ := h.latest
  let r := answer (ack nonce) ∅
  have h₁ : s.step plainServer .prompt "c" (.emit n (some r)) = some (s.emitted n (some r)) := by
    simp only [Session.step, hreq]
    exact if_pos ⟨h.armed, by simp [r, answer]⟩
  let s₁ := s.emitted n (some r)
  have hrecv : s₁.values.deltaResponses.recv? =
      some (⟨n, some r⟩, ⟨s.values.deltaResponses.capacity, []⟩) := by
    simp [s₁, Session.emitted, Chan.recv?, h.empty]
  let p := s₁.popped ⟨s.values.deltaResponses.capacity, []⟩
  have hp : p.process plainServer (some r) (.ok ()) = _ := Session.process_ok p rfl rfl rfl
  let s₂ := { (p.process plainServer (some r) (.ok ())).1 with phase := .selecting }
  have h₂ : s₁.step plainServer .prompt "c" (.respond (.ok ())) = some s₂ := by
    have hphase : s₁.phase = .selecting := h.phase
    simp only [Session.step, hphase, if_true]
    unfold Session.receive
    simp only [hrecv]
    rw [hp]
    rfl
  -- `process` recorded the nonce for `"c"` and cleared its handle
  have ⟨hnonce, hcancel⟩ : s₂.values.deltaNonces.lookup "c" = some (formatInt s₂.streamNonce) ∧
      s₂.values.deltaCancellations.lookup "c" = some none := by
    simp only [s₂, hp]
    simp [Watches.record, r, answer, ack, watched, subscription]
  let q := ack (formatInt s₂.streamNonce)
  have h₃ : s₂.step plainServer .prompt "c" (.request (some q) (.ok ())) =
      some { s₂ with node := .empty, phase := .registering q } := by
    have hphase : s₂.phase = .selecting := rfl
    have hcallbacks : plainServer.callbacks = false := rfl
    simp [Session.step, Session.handle, Session.prepare, rehydrate, policeTypeURL,
      Session.unsubscribeStep, Session.reconcile, Watches.wantsWatch, hnonce, hcancel, hphase,
      hcallbacks, q, ack, watched, subscription, anyType]
  let s₃ := { s₂ with node := .empty, phase := .registering q }
  have hs₃ := ((h.reachable.step h₁).step h₂).step h₃
  have hlen : s₃.registered.length = n + 1 := by
    simp only [s₃, s₂, hp]
    exact h.length
  have h₄ : s₃.step plainServer .prompt "c" .register = some (s₃.register q) := rfl
  refine ⟨s₃.register q, hs₃.step h₄, rfl, ?_, ⟨formatInt s₂.streamNonce, ?_⟩,
    ⟨fun he => ?_, fun hc => ?_⟩, ?_, ?_⟩
  · simp [Session.register, hlen]
  · simp [Session.register, hlen]
  -- the new handle is fresh: only registered watches send or are cancelled
  · have : n + 1 < s₃.registered.length :=
      (ownership_reachable hs₃).1.events (n + 1) (.inl (by simpa [Session.register] using he))
    omega
  · have : n + 1 < s₃.registered.length :=
      (ownership_reachable hs₃).1.events (n + 1) (.inr (by simpa [Session.register] using hc))
    omega
  all_goals simp only [Session.register, s₃, s₂, hp]
  · rfl
  · simp [p, s₁, Session.emitted, Session.callback, plainServer, newServer, h.sent]
    rfl

/-- The opening of the pump: the stream opens and subscribes to `"c"`. -/
def pumpStart : List Action := [.openStream (.ok ()), .request (some (ack "")) (.ok ()), .register]

theorem pumped_zero : ∃ s, Pumped s 0 :=
  ⟨(plainRun .prompt pumpStart).get rfl, reachable_of_plainRun (Option.some_get _).symm,
    rfl, rfl, ⟨"", rfl⟩, by unfold Session.Armed; decide, rfl, rfl⟩

/-- A stream sends any number of responses. -/
theorem pumped (n : Nat) : ∃ s, Pumped s n := by
  induction n with
  | zero => exact pumped_zero
  | succ n ih =>
    obtain ⟨s, hs⟩ := ih
    exact hs.next

/-- The `2^63`-th response carries `"-9223372036854775808"`. -/
theorem nonce_wraps : ¬ ∀ s, Reachable plainServer .prompt "c" [] s →
    ∀ k (hk : k < (sentNonces s.trace).length), (sentNonces s.trace)[k] = Nat.repr (k + 1) := by
  intro hall
  obtain ⟨s, hs⟩ := pumped 9223372036854775808
  have hk : 9223372036854775807 < (sentNonces s.trace).length := by rw [hs.sent]; omega
  have hseq := (nonceCount_reachable hs.reachable).counted.sequence
  have hlast : (sentNonces s.trace)[9223372036854775807] = nonceOf 9223372036854775808 :=
    (List.getElem_of_eq hseq hk).trans (getElem_nonceSequence _)
  have hdecimal := (hlast.symm.trans (hall s hs.reachable _ hk)).symm
  rw [nonceOf_wrap] at hdecimal
  exact absurd hdecimal (by decide)

end ControlPlane.Delta
