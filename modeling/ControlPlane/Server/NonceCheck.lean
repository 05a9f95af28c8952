import ControlPlane.Server.Callbacks

/-!
The nonce the per-type-channel processor (pkg/server/v2) checks a request
against. A response case records the nonce `send` returned in its type's slot,
and the switch of the request case re-creates a type's watch only when that
nonce is empty or is the one the request is checked against.

With callbacks, while `processDelta` runs, each type's recorded nonce is the
nonce of the last response handed to `OnStreamDeltaResponse` for a request of
that type's URL, or empty if there was none. A response case answers its own
type only, since the cache answers a watch with responses to the watch's own
request; and every failure after the callback returns.
-/

namespace ControlPlane.Server

/-- The nonces of the responses handed to `OnStreamDeltaResponse` for requests
of type URL `typeURL`, in order. -/
def responseNonces (typeURL : String) (trace : List Event) : List String :=
  trace.filterMap fun
    | .onStreamDeltaResponse req out => if req.typeUrl = typeURL then some out.nonce else none
    | _ => none

/-- The last of them, or the empty nonce. -/
def lastResponseNonce (typeURL : String) (trace : List Event) : String :=
  (responseNonces typeURL trace).getLast?.getD ""

@[simp] theorem responseNonces_append (typeURL : String) (trace new : List Event) :
    responseNonces typeURL (trace ++ new) =
      responseNonces typeURL trace ++ responseNonces typeURL new :=
  List.filterMap_append ..

@[simp] theorem responseNonces_cons (typeURL : String) (event : Event) (trace : List Event) :
    responseNonces typeURL (event :: trace) = (match event with
      | .onStreamDeltaResponse req out => if req.typeUrl = typeURL then [out.nonce] else []
      | _ => []) ++ responseNonces typeURL trace := by
  cases event with
  | onStreamDeltaResponse req out => by_cases h : req.typeUrl = typeURL <;> simp [responseNonces, h]
  | _ => rfl

@[simp] theorem responseNonces_nil (typeURL : String) : responseNonces typeURL [] = [] := rfl

@[simp] theorem responseNonces_cancels (typeURL : String) (handles : List Nat) :
    responseNonces typeURL (handles.map .cancel) = [] := by
  induction handles <;> simp_all

/-- Events that hand no response to the callback leave the last nonce alone. -/
theorem lastResponseNonce_append {typeURL : String} (trace : List Event) {new : List Event}
    (hnew : responseNonces typeURL new = []) :
    lastResponseNonce typeURL (trace ++ new) = lastResponseNonce typeURL trace := by
  simp [lastResponseNonce, hnew]

/-- What a `send` that returns a nonce did: it stamped the response with it and
handed it to the callback and the transport. -/
theorem send_ok {callbacks : Bool} {s : Stream} {resp : Option DeltaResponse} {typeURL : String}
    {sent : Except String Unit} {nonce : String}
    (h : (s.send callbacks resp typeURL sent).2 = .ok nonce) :
    ∃ r out, resp = some r ∧ out.nonce = nonce ∧
      (s.send callbacks resp typeURL sent).1.trace = s.trace ++
        Stream.callback callbacks (.onStreamDeltaResponse r.deltaRequest out) ++ [.send out] ∧
      (s.send callbacks resp typeURL sent).1.values = s.values := by
  rcases resp with _ | r
  · simp [Stream.send, createDeltaResponse] at h
  rcases hout : r.deltaDiscoveryResponse with err | out
  · simp [Stream.send, createDeltaResponse, hout] at h
  rcases sent with err | ⟨⟩
  · simp [Stream.send, createDeltaResponse, hout] at h
  · let stamped : DeltaDiscoveryResponse := ⟨formatInt (nextNonce s.streamNonce)⟩
    have hsend : s.send callbacks (some r) typeURL (.ok ()) =
        ({ s with
            streamNonce := nextNonce s.streamNonce
            trace := s.trace ++
              Stream.callback callbacks (.onStreamDeltaResponse r.deltaRequest stamped) ++
              [.send stamped] }, .ok stamped.nonce) := by
      simp [Stream.send, createDeltaResponse, hout, stamped]
    rw [hsend] at h ⊢
    exact ⟨r, stamped, rfl, Except.ok.inj h, rfl, rfl⟩

theorem rewatch_phase (urls : TypeURLs) (versions : GoMap String) (s : Stream)
    (req : DeltaDiscoveryRequest) (nonce : String) :
    (s.rewatch urls versions req nonce).phase = s.phase := by
  unfold Stream.rewatch
  split <;> rfl

/-- The switch only replaces a handle: every type keeps its recorded nonce. -/
theorem rewatch_nonce (urls : TypeURLs) (versions : GoMap String) (s : Stream)
    (req : DeltaDiscoveryRequest) (nonce : String) (t : ResponseType) :
    ((s.rewatch urls versions req nonce).values t).nonce = (s.values t).nonce := by
  unfold Stream.rewatch
  split
  · rfl
  · rename_i u _
    rcases eq_or_ne t u with rfl | ht
    · simp
    · simp [Function.update_noteq ht]

theorem rewatch_responseNonces (urls : TypeURLs) (versions : GoMap String) (s : Stream)
    (req : DeltaDiscoveryRequest) (nonce typeURL : String) :
    lastResponseNonce typeURL (s.rewatch urls versions req nonce).trace =
      lastResponseNonce typeURL s.trace := by
  unfold Stream.rewatch
  split
  · rfl
  · rename_i u _
    dsimp only
    rw [List.append_assoc]
    exact lastResponseNonce_append _ (by cases (s.values u).watch <;> simp)

/-- Until the return, each type's recorded nonce is the last one handed to the
response callback for the type's URL. -/
def NoncesRecorded (urls : TypeURLs) (s : Stream) : Prop :=
  s.phase.live = true → ∀ t, (s.values t).nonce = lastResponseNonce (urls.url t) s.trace

section Recorded

variable {log : Bool} {urls : TypeURLs} {versions versions' : GoMap String} {s s' : Stream}

theorem noncesRecorded_exit (s : Stream) (err : Option Error) :
    NoncesRecorded urls (s.exit true err) :=
  fun h => nomatch h

/-- A move that keeps the slots' nonces and hands no response to the callback. -/
theorem NoncesRecorded.frame (hn : NoncesRecorded urls s) (hlive : s'.phase.live = true →
      s.phase.live = true) (hvalues : ∀ t, (s'.values t).nonce = (s.values t).nonce)
    (htrace : ∀ typeURL, lastResponseNonce typeURL s'.trace = lastResponseNonce typeURL s.trace) :
    NoncesRecorded urls s' :=
  fun h t => by rw [hvalues, htrace, hn (hlive h)]

/-- The response case records the nonce of the response it handed to the
callback, for its own type. -/
theorem NoncesRecorded.respond (hl : Ledger urls s) (hn : NoncesRecorded urls s)
    {t : ResponseType} {sent : Except String Unit}
    (h : s.respond true urls versions t sent = some (s', versions')) : NoncesRecorded urls s' := by
  rcases respond_cases h with ⟨err, rfl⟩ |
    ⟨s₀, resp, -, htrace, -, hphase₀, hvalues₀, ⟨w, watch, hw, hwatch, hresp⟩,
      ⟨err, rfl⟩ | ⟨nonce, hsend, rfl⟩⟩
  · exact noncesRecorded_exit s err
  · exact noncesRecorded_exit _ err
  obtain ⟨r, out, rfl, hnonce, htrace', hvalues'⟩ := send_ok hsend
  -- the response answers the request of type `t`'s watch, whose URL is `t`'s
  have hurl : r.deltaRequest.typeUrl = urls.url t := by
    obtain ⟨watch', hwatch', hurl⟩ := hl.slot t w hw
    cases hwatch.symm.trans hwatch'
    rw [hl.carries w watch hwatch (some r) hresp r rfl, hurl]
  intro hlive t'
  simp only [htrace', htrace, hvalues', hvalues₀, Stream.callback, if_true]
  rcases eq_or_ne t' t with rfl | ht
  · simp [lastResponseNonce, hurl, hnonce]
  · have hne : r.deltaRequest.typeUrl ≠ urls.url t' := hurl ▸ fun h => ht (urls.injective h).symm
    rw [Function.update_noteq ht, List.append_assoc,
      lastResponseNonce_append _ (by simp [hne])]
    have hlive₀ : s.phase.live = true := by
      rw [← hphase₀, ← (send_sameWatches true s₀ (some r) (urls.url t) sent).2]
      exact hlive
    exact hn hlive₀ t'

theorem NoncesRecorded.request (hn : NoncesRecorded urls s) (req : Option DeltaDiscoveryRequest)
    (accepted : Except String Unit) :
    NoncesRecorded urls (s.request true log urls versions req accepted) := by
  obtain ⟨s₁, hphase₁, hvalues₁, -, -, htrace₁, ⟨err, hexit⟩ | ⟨r, nonce, hrewatch⟩⟩ :=
    request_cases true log urls versions s req accepted
  · rw [hexit]
    exact noncesRecorded_exit s₁ err
  · rw [hrewatch]
    refine hn.frame (fun h => by rwa [rewatch_phase, hphase₁] at h) (fun t => by
      rw [rewatch_nonce, hvalues₁]) fun typeURL => ?_
    rw [rewatch_responseNonces]
    rcases htrace₁ with htrace₁ | ⟨r, -, htrace₁⟩ <;> rw [htrace₁]
    exact lastResponseNonce_append _ rfl

/-- With callbacks, every step keeps the nonces recorded. -/
theorem NoncesRecorded.step (hl : Ledger urls s) (hn : NoncesRecorded urls s) {a : Action}
    (h : s.step true log urls versions a = some (s', versions')) : NoncesRecorded urls s' := by
  rcases Stream.step_cases h with ⟨result, hphase, rfl, -⟩ | ⟨-, rfl, -⟩ |
    ⟨t, sent, -, hrespond⟩ | ⟨req, accepted, -, rfl, -⟩ | ⟨-, -, -, -, -, -, rfl, -⟩
  · rcases result with err | ⟨⟩
    · exact noncesRecorded_exit _ _
    · exact hn.frame (fun _ => by rw [hphase]; rfl) (fun _ => rfl) fun _ =>
        lastResponseNonce_append _ rfl
  · exact noncesRecorded_exit s none
  · exact hn.respond hl hrespond
  · exact hn.request req accepted
  · exact hn

end Recorded

theorem noncesRecorded_reachable {server : Config} (hcallbacks : server.callbacks = true)
    {s : Stream} (hs : Stream.Reachable server s) : NoncesRecorded server.urls s := by
  induction hs with
  | init => exact fun _ _ => rfl
  | step hs hstep ih =>
    rw [hcallbacks] at hstep
    exact ih.step (ledger_reachable hs) hstep

/-- With callbacks, in every run of a v2 stream and until `processDelta`
returns, the nonce each type's request check compares against is that of the
last response handed to `OnStreamDeltaResponse` for a request of the type's URL,
or empty if there was none. -/
theorem recorded_nonce_of_last_response {server : Config} (hcallbacks : server.callbacks = true)
    {s : Stream} (hs : Stream.Reachable server s) (hlive : s.phase.live = true)
    (t : ResponseType) :
    (s.values t).nonce = lastResponseNonce (server.urls.url t) s.trace :=
  noncesRecorded_reachable hcallbacks hs hlive t

/-- An endpoint stream with callbacks: a request, and the cache's answer sent. -/
def answeredEndpoint : List WorldAction :=
  [.start "e", .step 0 (.openStream (.ok ())),
    .step 0 (.request (some (endpointRequest "")) (.ok ())),
    .step 0 (.emit 0 (some (answer (endpointRequest "") "v1"))),
    .step 0 (.respond .endpoint (.ok ()))]

/-- The endpoint slot records nonce `"1"`, the nonce handed to the callback. -/
theorem answeredEndpoint_recorded :
    ∃ w, World.init.run callbackConfig answeredEndpoint = some w ∧ ∃ s, w.streams = [s] ∧
      s.phase.live = true ∧ (s.values .endpoint).nonce = "1" ∧
      (s.values .endpoint).nonce =
        lastResponseNonce (callbackConfig.urls.url .endpoint) s.trace := by
  obtain ⟨w, hrun, s, hstreams, hlive, hnonce⟩ : ∃ w,
      World.init.run callbackConfig answeredEndpoint = some w ∧ ∃ s, w.streams = [s] ∧
        s.phase.live = true ∧ (s.values .endpoint).nonce = "1" :=
    ⟨_, rfl, _, rfl, rfl, rfl⟩
  have hs : Stream.Reachable callbackConfig s :=
    World.Reachable.stream ((World.Reachable.init : World.Reachable callbackConfig _).run hrun) s
      (by simp [hstreams])
  exact ⟨w, hrun, s, hstreams, hlive, hnonce,
    recorded_nonce_of_last_response rfl hs hlive .endpoint⟩

end ControlPlane.Server
