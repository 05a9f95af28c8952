import ControlPlane.Server.World

/-!
The nonces the per-type-channel processor stamps. As in pkg/server/delta/v2,
`send` alone moves the counter and calls `Send` and `OnStreamDeltaResponse`, so
the `k`-th response of a stream carries `nonceOf k`. The request case also
reads the counter: a request without a node is checked against the counter's
current value instead of the nonce it echoes.
-/

namespace ControlPlane.Server

/-- The nonces of the responses handed to `stream.Send`, in order. -/
def sentNonces (trace : List Event) : List String :=
  trace.filterMap fun
    | .send out => some out.nonce
    | _ => none

/-- The nonces of the responses handed to `OnStreamDeltaResponse`, in order. -/
def callbackNonces (trace : List Event) : List String :=
  trace.filterMap fun
    | .onStreamDeltaResponse _ out => some out.nonce
    | _ => none

@[simp] theorem sentNonces_append (trace new : List Event) :
    sentNonces (trace ++ new) = sentNonces trace ++ sentNonces new :=
  List.filterMap_append _ _ _

@[simp] theorem callbackNonces_append (trace new : List Event) :
    callbackNonces (trace ++ new) = callbackNonces trace ++ callbackNonces new :=
  List.filterMap_append _ _ _

/-- The counter has moved once per `Send`, and the `k`-th response handed to
`Send`, and to the callback when there is one, carries `nonceOf k`. -/
structure NonceCount (callbacks : Bool) (s : Stream) : Prop where
  counted : Counted s.streamNonce (sentNonces s.trace)
  callbacks : callbackNonces s.trace = if callbacks then sentNonces s.trace else []

/-- `s'` is `s` with the counter unchanged and events other than sends and
response callbacks appended. -/
structure Quiet (s s' : Stream) : Prop where
  streamNonce : s'.streamNonce = s.streamNonce
  trace : ∃ new, s'.trace = s.trace ++ new ∧ sentNonces new = [] ∧ callbackNonces new = []

/-- `s'` is `s` once `send` has stamped a response. -/
def Stamped (callbacks : Bool) (s s' : Stream) : Prop :=
  ∃ req out, out.nonce = formatInt (nextNonce s.streamNonce) ∧
    s'.streamNonce = nextNonce s.streamNonce ∧
    s'.trace = s.trace ++ Stream.callback callbacks (.onStreamDeltaResponse req out) ++ [.send out]

theorem Quiet.refl (s : Stream) : Quiet s s := ⟨rfl, [], by simp, rfl, rfl⟩

theorem Quiet.trans {s₁ s₂ s₃ : Stream} (h₁ : Quiet s₁ s₂) (h₂ : Quiet s₂ s₃) : Quiet s₁ s₃ := by
  obtain ⟨hn₁, new₁, ht₁, hs₁, hc₁⟩ := h₁
  obtain ⟨hn₂, new₂, ht₂, hs₂, hc₂⟩ := h₂
  exact ⟨hn₂.trans hn₁, new₁ ++ new₂, by simp [ht₂, ht₁], by simp [hs₁, hs₂], by simp [hc₁, hc₂]⟩

theorem quiet_of_eq {s s' : Stream} (hn : s'.streamNonce = s.streamNonce)
    (ht : s'.trace = s.trace) :
    Quiet s s' :=
  ⟨hn, [], by simp [ht], rfl, rfl⟩

theorem Stamped.congr {callbacks : Bool} {s s₀ s' : Stream} (hn : s₀.streamNonce = s.streamNonce)
    (ht : s₀.trace = s.trace) (h : Stamped callbacks s₀ s') : Stamped callbacks s s' := by
  rwa [Stamped, ← hn, ← ht]

theorem NonceCount.quiet {callbacks : Bool} {s s' : Stream} (h : NonceCount callbacks s)
    (hq : Quiet s s') : NonceCount callbacks s' := by
  obtain ⟨hc, hb⟩ := h
  obtain ⟨hn, new, ht, hs, hcb⟩ := hq
  refine ⟨by simpa [hn, ht, hs] using hc, by simpa [ht, hs, hcb] using hb⟩

theorem NonceCount.stamped {callbacks : Bool} {s s' : Stream} (h : NonceCount callbacks s)
    (hs : Stamped callbacks s s') : NonceCount callbacks s' := by
  obtain ⟨hc, hb⟩ := h
  obtain ⟨req, out, hout, hn, ht⟩ := hs
  have hsent : sentNonces s'.trace = sentNonces s.trace ++ [out.nonce] := by
    rw [ht]; unfold Stream.callback; split <;> simp [sentNonces]
  refine ⟨by rw [hn, hsent, hout]; exact hc.next, ?_⟩
  rw [hsent, ht, callbackNonces_append, callbackNonces_append, hb]
  unfold Stream.callback
  split <;> simp [callbackNonces]

section Spec

variable {callbacks log : Bool} {urls : TypeURLs} {versions : GoMap String}

theorem exit_quiet (s : Stream) (err : Option Error) : Quiet s (s.exit callbacks err) := by
  refine ⟨rfl, _, List.append_assoc .., ?_, ?_⟩ <;>
    (unfold Stream.callback; split <;> simp [sentNonces, callbackNonces, List.filterMap_map])

theorem send_spec (s : Stream) (resp : Option DeltaResponse) (typeURL : String)
    (sent : Except String Unit) :
    Quiet s (s.send callbacks resp typeURL sent).1 ∨
      Stamped callbacks s (s.send callbacks resp typeURL sent).1 := by
  unfold Stream.send
  split
  · exact .inl (Quiet.refl s)
  · exact .inr ⟨_, _, rfl, rfl, rfl⟩
  · exact .inl (Quiet.refl s)

theorem rewatch_quiet (s : Stream) (req : DeltaDiscoveryRequest) (nonce : String) :
    Quiet s (s.rewatch urls versions req nonce) := by
  unfold Stream.rewatch
  split
  · exact Quiet.refl s
  · refine ⟨rfl, _, List.append_assoc .., ?_, ?_⟩ <;>
      (rename_i t _; cases (s.values t).watch <;> rfl)

theorem handle_quiet (s : Stream) (req : DeltaDiscoveryRequest) (accepted : Except String Unit) :
    Quiet s (s.handle callbacks urls versions req accepted) := by
  unfold Stream.handle
  rcases Stream.rehydrate s.node s.streamNonce req with ⟨node, nonce, req₁⟩
  have hnode : Quiet s { s with node } := quiet_of_eq rfl rfl
  dsimp only
  split
  · exact hnode.trans (exit_quiet _ _)
  · rename_i req₂ _
    split
    · have hlog :
          Quiet s { s with node, trace := s.trace ++ [Event.onStreamDeltaRequest req₂] } :=
        ⟨rfl, _, rfl, rfl, rfl⟩
      split
      · exact hlog.trans (exit_quiet _ _)
      · exact hlog.trans (rewatch_quiet _ _ _)
    · exact hnode.trans (rewatch_quiet _ _ _)

theorem request_quiet (s : Stream) (req : Option DeltaDiscoveryRequest)
    (accepted : Except String Unit) :
    Quiet s (s.request callbacks log urls versions req accepted) := by
  rcases Stream.request_exit_or_handle callbacks log urls versions s req accepted with
    ⟨err, h⟩ | ⟨r, -, h⟩ <;> rw [h]
  · exact exit_quiet s err
  · exact handle_quiet s r accepted

theorem openStream_quiet (s : Stream) (result : Except String Unit) :
    Quiet s (s.openStream callbacks result) := by
  unfold Stream.openStream
  split
  · have hlog : Quiet s { s with trace := s.trace ++ [Event.onStreamOpen] } :=
      ⟨rfl, _, rfl, rfl, rfl⟩
    split
    · exact hlog.trans (exit_quiet _ _)
    · exact hlog.trans (quiet_of_eq rfl rfl)
  · exact quiet_of_eq rfl rfl

/-- What a response case can do: end the stream on a closed channel, or take
the oldest response off the watch of type `t`, `send` it, and then end the
stream or record the nonce `send` returned. -/
theorem respond_cases {s s' : Stream} {versions' : GoMap String} {t : ResponseType}
    {sent : Except String Unit}
    (h : s.respond callbacks urls versions t sent = some (s', versions')) :
    (∃ err, s' = s.exit callbacks err) ∨
      ∃ (s₀ : Stream) (resp : Option DeltaResponse),
        s₀.node = s.node ∧ s₀.trace = s.trace ∧ s₀.streamNonce = s.streamNonce ∧
        s₀.phase = s.phase ∧ s₀.values = s.values ∧
        (∃ w watch, (s.values t).watch = some w ∧ s.watches[w]? = some watch ∧
          resp ∈ watch.pending) ∧
        ((∃ err, s' = (s₀.send callbacks resp (urls.url t) sent).1.exit callbacks err) ∨
          ∃ nonce, (s₀.send callbacks resp (urls.url t) sent).2 = .ok nonce ∧
            s' = { (s₀.send callbacks resp (urls.url t) sent).1 with
              values := Function.update (s₀.send callbacks resp (urls.url t) sent).1.values t
                { (s₀.send callbacks resp (urls.url t) sent).1.values t with nonce } }) := by
  unfold Stream.respond at h
  rcases hw : (s.values t).watch with _ | w
  · simp [hw] at h
  rcases hwatch : s.watches[w]? with _ | watch
  · simp [hw, hwatch] at h
  simp only [hw, hwatch] at h
  rcases hpending : watch.pending with _ | ⟨resp, rest⟩ <;> simp only [hpending] at h
  · split at h
    · cases h; exact .inl ⟨_, rfl⟩
    · cases h
  refine .inr ⟨{ s with watches := s.watches.set w { watch with pending := rest } }, resp,
    rfl, rfl, rfl, rfl, rfl, ⟨w, watch, rfl, hwatch, by simp [hpending]⟩, ?_⟩
  split at h
  · rename_i s₁ err heq
    cases h
    exact .inl ⟨some err, by rw [heq]⟩
  · rename_i r s₁ nonce heq
    split at h <;> cases h
    · exact .inl ⟨_, by rw [heq]⟩
    · exact .inr ⟨nonce, by rw [heq], by rw [heq]⟩
  · -- `send` fails on a nil response
    rename_i s₁ nonce heq
    simp [Stream.send, createDeltaResponse] at heq

/-- A response case sends at most once, with only quiet events besides. -/
theorem respond_spec {s s' : Stream} {versions' : GoMap String} {t : ResponseType}
    {sent : Except String Unit}
    (h : s.respond callbacks urls versions t sent = some (s', versions')) :
    Quiet s s' ∨ ∃ s₁, Stamped callbacks s s₁ ∧ Quiet s₁ s' := by
  rcases respond_cases h with ⟨err, rfl⟩ | ⟨s₀, resp, -, htrace, hnonce, -, -, -, hend⟩
  · exact .inl (exit_quiet s err)
  -- the receive changes neither the counter nor the trace; what follows `send` is quiet
  have hafter : Quiet (s₀.send callbacks resp (urls.url t) sent).1 s' := by
    rcases hend with ⟨err, rfl⟩ | ⟨nonce, -, rfl⟩
    · exact exit_quiet _ err
    · exact quiet_of_eq rfl rfl
  rcases send_spec s₀ resp (urls.url t) sent with hs | hs
  · exact .inl (((quiet_of_eq hnonce htrace).trans hs).trans hafter)
  · exact .inr ⟨_, hs.congr hnonce htrace, hafter⟩

/-- Every step sends at most once, with only quiet events besides. -/
theorem step_spec {s s' : Stream} {versions' : GoMap String} {a : Action}
    (h : s.step callbacks log urls versions a = some (s', versions')) :
    Quiet s s' ∨ ∃ s₁, Stamped callbacks s s₁ ∧ Quiet s₁ s' := by
  cases a with
  | respond t sent =>
    simp only [Stream.step] at h
    split at h
    · exact respond_spec h
    · cases h
  | openStream result | done | hangUp | request req accepted =>
    simp only [Stream.step, Option.ite_none_right_eq_some, Option.some.injEq, Prod.mk.injEq] at h
    obtain ⟨-, rfl, -⟩ := h
    first
    | exact .inl (openStream_quiet s result)
    | exact .inl (exit_quiet s none)
    | exact .inl (request_quiet s req accepted)
  | emit w response | close w =>
    simp only [Stream.step] at h
    split at h
    · split at h
      · cases h; exact .inl (quiet_of_eq rfl rfl)
      · cases h
    · cases h

end Spec

/-- In every run of a stream, the counter has moved once per `Send`, and the
`k`-th response handed to `Send`, and to `OnStreamDeltaResponse` when there are
callbacks, carries `nonceOf k`. -/
theorem nonceCount_reachable {server : Config} {s : Stream} (hs : Stream.Reachable server s) :
    NonceCount server.callbacks s := by
  induction hs with
  | init => exact ⟨counted_zero, by simp [Stream.init, callbackNonces, sentNonces]⟩
  | step _ hstep ih =>
    rcases step_spec hstep with hq | ⟨s₁, hs₁, hq⟩
    · exact ih.quiet hq
    · exact (ih.stamped hs₁).quiet hq

/-! ### Which requests re-create a watch -/

/-- The switch of the request case, for a request whose type URL is that of
type `t`: when the last nonce sent for `t` is empty or is the checked nonce, it
invokes `t`'s handle if there is one, creates a watch for the request with the
shared version of its type URL, and stores the new handle in `t`'s slot;
otherwise it changes nothing. -/
theorem rewatch_of_type (urls : TypeURLs) (versions : GoMap String) (s : Stream)
    {req : DeltaDiscoveryRequest} {nonce : String} {t : ResponseType}
    (ht : req.typeUrl = urls.url t) :
    s.rewatch urls versions req nonce =
      if (s.values t).nonce = "" ∨ (s.values t).nonce = nonce then
        { s with
          values := Function.update s.values t { s.values t with watch := some s.watches.length }
          watches := s.watches ++ [⟨req, (versions.lookup req.typeUrl).getD "", [], false⟩]
          trace := s.trace ++ ((s.values t).watch.map Event.cancel).toList ++
            [.createDeltaWatch req ((versions.lookup req.typeUrl).getD "") s.watches.length] }
      else s := by
  -- only `t` can match: the type URLs are distinct
  have hfind : ResponseType.all.find? (fun u => req.typeUrl = urls.url u &&
      ((s.values u).nonce = "" || (s.values u).nonce = nonce)) =
      if (s.values t).nonce = "" ∨ (s.values t).nonce = nonce then some t else none := by
    rw [ht]
    simp only [urls.injective.eq_iff]
    by_cases h : (s.values t).nonce = "" ∨ (s.values t).nonce = nonce <;> cases t <;>
      simp_all [ResponseType.all]
  unfold Stream.rewatch
  rw [hfind]
  split_ifs <;> rfl

/-- A single-type endpoint stream: a request with a node, a response (nonce
`"1"`), an acknowledgement with a node, a response (nonce `"2"`), and then a
request without a node that echoes the older nonce `"1"`. -/
def staleAck : List WorldAction :=
  [.start "e", .step 0 (.openStream (.ok ())),
    .step 0 (.request (some (endpointRequest "")) (.ok ())),
    .step 0 (.emit 0 (some (answer (endpointRequest "") "1"))),
    .step 0 (.respond .endpoint (.ok ())),
    .step 0 (.request (some (endpointRequest "1")) (.ok ())),
    .step 0 (.emit 1 (some (answer (endpointRequest "1") "2"))),
    .step 0 (.respond .endpoint (.ok ())),
    .step 0 (.request (some { endpointRequest "1" with node := none }) (.ok ()))]

/-- The request without a node is checked against the counter, `"2"`, and so
re-creates the watch although it echoes `"1"`. -/
theorem staleAck_recreates : ∃ w, plainRun staleAck = some w ∧ ∃ s, w.streams = [s] ∧
    (s.values .endpoint).nonce = "2" ∧
    s.trace = [.createDeltaWatch (endpointRequest "") "" 0, .send ⟨"1"⟩, .cancel 0,
      .createDeltaWatch (endpointRequest "1") "1" 1, .send ⟨"2"⟩, .cancel 1,
      .createDeltaWatch (endpointRequest "1") "2" 2] :=
  ⟨_, rfl, _, rfl, rfl, rfl⟩

end ControlPlane.Server
