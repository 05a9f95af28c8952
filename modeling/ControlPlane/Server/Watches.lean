import ControlPlane.Server.World

/-!
The watches of a v2 stream (`processDelta` of pkg/server/v2), accounted over
whole runs. The cache creates a watch for each request the switch accepts; the
stream holds one per type, invokes the old cancel handle when a new request
replaces it, and on return `values.Cancel()` invokes the handles it still
holds. Every watch the cache created for the stream is held by one type or was
cancelled, once; after the return every one was cancelled, once.

Each type's watch was created for that type's URL, and the cache answers a
watch with responses to its own request, so a response case records its
version under its own type's URL: however the server's streams interleave, the
shared `deltaVersions` map has no keys but the six type URLs.
-/

namespace ControlPlane.Server

theorem ResponseType.mem_all (t : ResponseType) : t ∈ ResponseType.all := by
  cases t <;> decide

theorem ResponseType.nodup_all : ResponseType.all.Nodup := by decide

/-- The handles the stream holds, in the order `values.Cancel()` invokes them. -/
def Stream.handles (s : Stream) : List Nat :=
  ResponseType.all.filterMap fun t => (s.values t).watch

/-- The handles a trace invoked, in order. -/
def cancelledHandles (trace : List Event) : List Nat :=
  trace.filterMap fun
    | .cancel handle => some handle
    | _ => none

/-- The handles of the watches a trace created, in order. -/
def createdHandles (trace : List Event) : List Nat :=
  trace.filterMap fun
    | .createDeltaWatch _ _ handle => some handle
    | _ => none

@[simp] theorem cancelledHandles_append (trace new : List Event) :
    cancelledHandles (trace ++ new) = cancelledHandles trace ++ cancelledHandles new :=
  List.filterMap_append ..

@[simp] theorem createdHandles_append (trace new : List Event) :
    createdHandles (trace ++ new) = createdHandles trace ++ createdHandles new :=
  List.filterMap_append ..

@[simp] theorem cancelledHandles_cancels (handles : List Nat) :
    cancelledHandles (handles.map .cancel) = handles := by
  induction handles <;> simp_all [cancelledHandles]

@[simp] theorem createdHandles_cancels (handles : List Nat) :
    createdHandles (handles.map .cancel) = [] := by
  induction handles <;> simp_all [createdHandles]

@[simp] theorem cancelledHandles_cancel (handle : Option Nat) :
    cancelledHandles (handle.map Event.cancel).toList = handle.toList := by
  cases handle <;> rfl

@[simp] theorem createdHandles_cancel (handle : Option Nat) :
    createdHandles (handle.map Event.cancel).toList = [] := by
  cases handle <;> rfl

@[simp] theorem cancelledHandles_create (req : DeltaDiscoveryRequest) (version : String)
    (handle : Nat) : cancelledHandles [.createDeltaWatch req version handle] = [] := rfl

@[simp] theorem createdHandles_create (req : DeltaDiscoveryRequest) (version : String)
    (handle : Nat) : createdHandles [.createDeltaWatch req version handle] = [handle] := rfl

/-- A callback neither cancels nor creates a watch. -/
theorem callback_quiet (callbacks : Bool) (event : Event)
    (hc : cancelledHandles [event] = []) (hd : createdHandles [event] = []) :
    cancelledHandles (Stream.callback callbacks event) = [] ∧
      createdHandles (Stream.callback callbacks event) = [] := by
  unfold Stream.callback
  split
  · exact ⟨hc, hd⟩
  · exact ⟨rfl, rfl⟩

/-- Every response on the watch's channel answers the watch's request. -/
def Watch.Carries (watch : Watch) : Prop :=
  ∀ r ∈ watch.pending, ∀ resp ∈ r, resp.deltaRequest = watch.req

/-! ### Steps that leave the watches alone -/

/-- `s'` holds the watches `s` holds and has the same watches, each with its
request, and with only responses to it on its channel if that was so before;
the events `s'` adds neither cancel nor create a watch. -/
structure SameWatches (s s' : Stream) : Prop where
  values : ∀ t, (s'.values t).watch = (s.values t).watch
  length : s'.watches.length = s.watches.length
  watches : ∀ (w : Nat) (watch' : Watch), s'.watches[w]? = some watch' →
    ∃ watch : Watch, s.watches[w]? = some watch ∧ watch'.req = watch.req ∧
      (watch.Carries → watch'.Carries)
  trace : ∃ new, s'.trace = s.trace ++ new ∧ cancelledHandles new = [] ∧ createdHandles new = []

namespace SameWatches

variable {s s' s₁ s₂ s₃ : Stream}

theorem refl (s : Stream) : SameWatches s s :=
  ⟨fun _ => rfl, rfl, fun _ watch h => ⟨watch, h, rfl, id⟩, [], by simp, rfl, rfl⟩

theorem trans (h₁ : SameWatches s₁ s₂) (h₂ : SameWatches s₂ s₃) : SameWatches s₁ s₃ := by
  obtain ⟨hv₁, hl₁, hw₁, new₁, ht₁, hc₁, hd₁⟩ := h₁
  obtain ⟨hv₂, hl₂, hw₂, new₂, ht₂, hc₂, hd₂⟩ := h₂
  refine ⟨fun t => (hv₂ t).trans (hv₁ t), hl₂.trans hl₁, fun w watch₃ h₃ => ?_,
    new₁ ++ new₂, by simp [ht₂, ht₁], by simp [hc₁, hc₂], by simp [hd₁, hd₂]⟩
  obtain ⟨watch₂, h₂, hr₂, hk₂⟩ := hw₂ w watch₃ h₃
  obtain ⟨watch₁, h₁, hr₁, hk₁⟩ := hw₁ w watch₂ h₂
  exact ⟨watch₁, h₁, hr₂.trans hr₁, hk₂ ∘ hk₁⟩

/-- Events that neither cancel nor create, and nothing else of the watches. -/
theorem of_trace (hv : s'.values = s.values) (hw : s'.watches = s.watches) (new : List Event)
    (ht : s'.trace = s.trace ++ new) (hc : cancelledHandles new = [])
    (hd : createdHandles new = []) : SameWatches s s' :=
  ⟨fun _ => by rw [hv], by rw [hw], fun _ watch h => ⟨watch, hw ▸ h, rfl, id⟩, new, ht, hc, hd⟩

/-- A watch the stream had is still there, with its request. -/
theorem get (h : SameWatches s s') {w : Nat} {watch : Watch} (hw : s.watches[w]? = some watch) :
    ∃ watch', s'.watches[w]? = some watch' ∧ watch'.req = watch.req ∧
      (watch.Carries → watch'.Carries) := by
  obtain ⟨hlt, -⟩ := List.getElem?_eq_some_iff.mp hw
  obtain ⟨watch₀, hw₀, hreq, hcarries⟩ :=
    h.watches w _ (List.getElem?_eq_getElem (h.length ▸ hlt))
  cases hw.symm.trans hw₀
  exact ⟨_, List.getElem?_eq_getElem _, hreq, hcarries⟩

theorem handles (h : SameWatches s s') : s'.handles = s.handles := by
  simp only [Stream.handles, h.values]

end SameWatches

/-- Replacing one watch by one with the same request. -/
theorem sameWatches_set {s : Stream} {w : Nat} {watch watch' : Watch}
    (hw : s.watches[w]? = some watch) (hreq : watch'.req = watch.req)
    (hcarries : watch.Carries → watch'.Carries) :
    SameWatches s { s with watches := s.watches.set w watch' } := by
  refine ⟨fun _ => rfl, List.length_set .., fun j watch'' h => ?_, [], by simp, rfl, rfl⟩
  by_cases hj : w = j
  · subst hj
    obtain ⟨hlt, -⟩ := List.getElem?_eq_some_iff.mp hw
    simp only [List.getElem?_set_self hlt, Option.some.injEq] at h
    exact ⟨watch, hw, h ▸ hreq, h ▸ hcarries⟩
  · rw [List.getElem?_set_ne hj] at h
    exact ⟨watch'', h, rfl, id⟩

/-- The response case's new nonce leaves the watch of every type alone. -/
theorem sameWatches_nonce (s : Stream) (t : ResponseType) (nonce : String) :
    SameWatches s { s with values := Function.update s.values t { s.values t with nonce } } := by
  refine ⟨fun t' => ?_, rfl, fun _ watch h => ⟨watch, h, rfl, id⟩, [], by simp, rfl, rfl⟩
  rcases eq_or_ne t' t with rfl | ht
  · simp
  · simp [Function.update_noteq ht]

section Shapes

variable {callbacks log : Bool} {urls : TypeURLs} {versions : GoMap String}

theorem send_sameWatches (callbacks : Bool) (s : Stream) (resp : Option DeltaResponse)
    (typeURL : String)
    (sent : Except String Unit) :
    SameWatches s (s.send callbacks resp typeURL sent).1 ∧
      (s.send callbacks resp typeURL sent).1.phase = s.phase := by
  unfold Stream.send
  split
  · exact ⟨.refl s, rfl⟩
  · cases callbacks <;> exact ⟨.of_trace rfl rfl _ (List.append_assoc ..) rfl rfl, rfl⟩
  · exact ⟨.refl s, rfl⟩

/-- What a response case does to the watches: it takes the oldest response off
type `t`'s watch, sends it, and may return; and what it does to the shared
map: nothing, or record a version under the URL of that response's request. -/
theorem respond_shape {s s' : Stream} {versions' : GoMap String} {t : ResponseType}
    {sent : Except String Unit}
    (h : s.respond callbacks urls versions t sent = some (s', versions')) :
    ∃ s₁, SameWatches s s₁ ∧ s₁.phase = s.phase ∧
      (s' = s₁ ∨ ∃ err, s' = s₁.exit callbacks err) ∧
      (versions' = versions ∨ ∃ w watch resp, (s.values t).watch = some w ∧
        s.watches[w]? = some watch ∧ some resp ∈ watch.pending ∧
        versions' = versions.insert resp.deltaRequest.typeUrl (systemVersionOf resp)) := by
  unfold Stream.respond at h
  rcases hw : (s.values t).watch with _ | w
  · simp [hw] at h
  rcases hwatch : s.watches[w]? with _ | watch
  · simp [hw, hwatch] at h
  simp only [hw, hwatch] at h
  rcases hpending : watch.pending with _ | ⟨resp, rest⟩ <;> simp only [hpending] at h
  · -- a closed channel ends the stream
    split at h <;> cases h
    exact ⟨s, .refl s, rfl, .inr ⟨_, rfl⟩, .inl rfl⟩
  -- the receive takes the oldest response off the channel
  have hpop : SameWatches s { s with watches := s.watches.set w { watch with pending := rest } } :=
    sameWatches_set hwatch rfl fun hc r hr => hc r (by simp [hpending, hr])
  have hsend := send_sameWatches callbacks
    { s with watches := s.watches.set w { watch with pending := rest } } resp (urls.url t) sent
  split at h
  · rename_i s₂ err heq
    cases h
    rw [heq] at hsend
    exact ⟨s₂, hpop.trans hsend.1, hsend.2, .inr ⟨_, rfl⟩, .inl rfl⟩
  · rename_i r s₂ nonce heq
    rw [heq] at hsend
    have hrecord : some r ∈ watch.pending := by simp [hpending]
    split at h <;> cases h
    · exact ⟨s₂, hpop.trans hsend.1, hsend.2, .inr ⟨_, rfl⟩,
        .inr ⟨w, watch, r, rfl, hwatch, hrecord, rfl⟩⟩
    · exact ⟨_, (hpop.trans hsend.1).trans (sameWatches_nonce _ t nonce), hsend.2, .inl rfl,
        .inr ⟨w, watch, r, rfl, hwatch, hrecord, rfl⟩⟩
  · rename_i s₂ nonce heq
    cases h
    rw [heq] at hsend
    exact ⟨_, hpop.trans hsend.1, hsend.2, .inl rfl, .inl rfl⟩

/-- The request case: events that neither cancel nor create, then the return
or the switch. -/
theorem request_shape (callbacks log : Bool) (urls : TypeURLs) (versions : GoMap String)
    (s : Stream) (req : Option DeltaDiscoveryRequest) (accepted : Except String Unit) :
    ∃ s₁, SameWatches s s₁ ∧ s₁.phase = s.phase ∧
      ((∃ err, s.request callbacks log urls versions req accepted = s₁.exit callbacks err) ∨
        ∃ r nonce, s.request callbacks log urls versions req accepted =
          s₁.rewatch urls versions r nonce) := by
  rcases Stream.request_exit_or_handle callbacks log urls versions s req accepted with
    ⟨err, h⟩ | ⟨req, -, h⟩ <;> rw [h]
  · exact ⟨s, .refl s, rfl, .inl ⟨_, rfl⟩⟩
  unfold Stream.handle
  rcases Stream.rehydrate s.node s.streamNonce req with ⟨node, nonce, req₁⟩
  have hnode : SameWatches s { s with node } := .of_trace rfl rfl [] (by simp) rfl rfl
  dsimp only
  split
  · exact ⟨_, hnode, rfl, .inl ⟨_, rfl⟩⟩
  · rename_i req₂ _
    split
    · have hlog : SameWatches s
          { s with node, trace := s.trace ++ [Event.onStreamDeltaRequest req₂] } :=
        .of_trace rfl rfl _ rfl rfl rfl
      split
      · exact ⟨_, hlog, rfl, .inl ⟨_, rfl⟩⟩
      · exact ⟨_, hlog, rfl, .inr ⟨_, _, rfl⟩⟩
    · exact ⟨_, hnode, rfl, .inr ⟨_, _, rfl⟩⟩

/-- Everything one step can do: open, return, a response case, the request
case, or the cache's side of one watch's channel, which keeps the watch's
request and answers only that request. -/
theorem Stream.step_cases {s s' : Stream} {versions' : GoMap String} {a : Action}
    (h : s.step callbacks log urls versions a = some (s', versions')) :
    (∃ result, s.phase = .opening ∧ s' = s.openStream callbacks result ∧ versions' = versions) ∨
    (s.phase = .selecting ∧ s' = s.exit callbacks none ∧ versions' = versions) ∨
    (∃ t sent, s.phase = .selecting ∧
      s.respond callbacks urls versions t sent = some (s', versions')) ∨
    (∃ req accepted, s.phase = .selecting ∧
      s' = s.request callbacks log urls versions req accepted ∧ versions' = versions) ∨
    ∃ w watch watch', s.watches[w]? = some watch ∧ watch'.req = watch.req ∧
      (watch.Carries → watch'.Carries) ∧ s' = { s with watches := s.watches.set w watch' } ∧
      versions' = versions := by
  cases a with
  | openStream result =>
    simp only [Stream.step, Option.ite_none_right_eq_some, Option.some.injEq,
      Prod.mk.injEq] at h
    exact .inl ⟨result, h.1, h.2.1.symm, h.2.2.symm⟩
  | done | hangUp =>
    simp only [Stream.step, Option.ite_none_right_eq_some, Option.some.injEq,
      Prod.mk.injEq] at h
    exact .inr (.inl ⟨h.1, h.2.1.symm, h.2.2.symm⟩)
  | respond t sent =>
    simp only [Stream.step] at h
    split at h
    · exact .inr (.inr (.inl ⟨t, sent, ‹_›, h⟩))
    · cases h
  | request req accepted =>
    simp only [Stream.step, Option.ite_none_right_eq_some, Option.some.injEq,
      Prod.mk.injEq] at h
    exact .inr (.inr (.inr (.inl ⟨req, accepted, h.1, h.2.1.symm, h.2.2.symm⟩)))
  | emit w response =>
    simp only [Stream.step] at h
    split at h
    · rename_i watch hw
      split at h <;> cases h
      rename_i hopen
      refine .inr (.inr (.inr (.inr
        ⟨w, watch, { watch with pending := watch.pending ++ [response] }, hw, rfl, ?_, rfl, rfl⟩)))
      -- the cache answers the watch's own request
      intro hc r hr resp hresp
      rcases List.mem_append.mp hr with hr | hr
      · exact hc r hr resp hresp
      · cases List.mem_singleton.mp hr
        simpa [Option.mem_def.mp hresp] using hopen.2
    · cases h
  | close w =>
    simp only [Stream.step] at h
    split at h
    · rename_i watch hw
      split at h <;> cases h
      exact .inr (.inr (.inr (.inr
        ⟨w, watch, { watch with closed := true }, hw, rfl, id, rfl, rfl⟩)))
    · cases h

/-- What a step does to the stream's watches: events that neither cancel nor
create and the cache's side of the channels, then, from a live phase, maybe
the return or the switch of a request. -/
theorem step_shape {s s' : Stream} {versions' : GoMap String} {a : Action}
    (h : s.step callbacks log urls versions a = some (s', versions')) :
    ∃ s₁, SameWatches s s₁ ∧ s₁.phase.live = s.phase.live ∧
      (s' = s₁ ∨ s.phase.live = true ∧ ((∃ err, s' = s₁.exit callbacks err) ∨
        ∃ req nonce, s' = s₁.rewatch urls versions req nonce)) := by
  rcases Stream.step_cases h with ⟨result, hphase, rfl, -⟩ | ⟨hphase, rfl, -⟩ |
    ⟨t, sent, hphase, h⟩ | ⟨req, accepted, hphase, rfl, -⟩ |
    ⟨w, watch, watch', hw, hreq, hcarries, rfl, -⟩
  · have hlive : Phase.selecting.live = s.phase.live := by simp [hphase, Phase.live]
    unfold Stream.openStream
    dsimp only
    split
    · have hlog : SameWatches s { s with trace := s.trace ++ [Event.onStreamOpen] } :=
        .of_trace rfl rfl _ rfl rfl rfl
      split
      · exact ⟨_, hlog, rfl, .inr ⟨by simp [hphase, Phase.live], .inl ⟨_, rfl⟩⟩⟩
      · refine ⟨_, ?_, hlive, .inl rfl⟩
        exact .of_trace rfl rfl _ rfl rfl rfl
    · refine ⟨_, ?_, hlive, .inl rfl⟩
      exact .of_trace rfl rfl [] (List.append_nil _).symm rfl rfl
  · exact ⟨s, .refl s, rfl, .inr ⟨by simp [hphase, Phase.live], .inl ⟨_, rfl⟩⟩⟩
  · obtain ⟨s₁, hsame, hphase₁, hend, -⟩ := respond_shape h
    exact ⟨s₁, hsame, by rw [hphase₁],
      hend.imp_right fun hexit => ⟨by simp [hphase, Phase.live], .inl hexit⟩⟩
  · obtain ⟨s₁, hsame, hphase₁, hend⟩ := request_shape callbacks log urls versions s req accepted
    exact ⟨s₁, hsame, by rw [hphase₁], .inr ⟨by simp [hphase, Phase.live], hend⟩⟩
  · exact ⟨_, sameWatches_set hw hreq hcarries, rfl, .inl rfl⟩

/-- Only a response case writes to the shared map, under the URL of the
request of a response on the channel of the type's watch. -/
theorem step_versions {s s' : Stream} {versions' : GoMap String} {a : Action}
    (h : s.step callbacks log urls versions a = some (s', versions')) :
    versions' = versions ∨ ∃ t w watch resp, (s.values t).watch = some w ∧
      s.watches[w]? = some watch ∧ some resp ∈ watch.pending ∧
      versions' = versions.insert resp.deltaRequest.typeUrl (systemVersionOf resp) := by
  rcases Stream.step_cases h with ⟨-, -, -, hv⟩ | ⟨-, -, hv⟩ | ⟨t, sent, -, h⟩ | ⟨-, -, -, -, hv⟩ |
    ⟨-, -, -, -, -, -, -, hv⟩
  · exact .inl hv
  · exact .inl hv
  · obtain ⟨-, -, -, -, hrecord | ⟨w, watch, resp, hrecord⟩⟩ := respond_shape h
    · exact .inl hrecord
    · exact .inr ⟨t, w, watch, resp, hrecord⟩
  · exact .inl hv
  · exact .inl hv

end Shapes

/-! ### The books -/

private theorem filterMap_eq_toList_append {α β : Type} (f : α → Option β) (a : α)
    (l : List α) : (a :: l).filterMap f = (f a).toList ++ l.filterMap f := by
  cases h : f a <;> simp [List.filterMap_cons, h]

/-- Storing `slot` for type `t`, among distinct types, trades the handle `t`
held for the one `slot` holds. -/
theorem filterMap_update_perm (values : ResponseType → Slot) (slot : Slot) {t : ResponseType} :
    ∀ {l : List ResponseType}, l.Nodup → t ∈ l →
      ((l.filterMap fun t' => (Function.update values t slot t').watch) ++
        (values t).watch.toList).Perm
      ((l.filterMap fun t' => (values t').watch) ++ slot.watch.toList)
  | [], _, ht => nomatch ht
  | a :: l, hl, ht => by
    obtain ⟨ha, hl⟩ := List.nodup_cons.mp hl
    simp only [filterMap_eq_toList_append, List.append_assoc]
    by_cases hat : a = t
    · subst hat
      have hrest : (l.filterMap fun t' => (Function.update values a slot t').watch) =
          l.filterMap fun t' => (values t').watch :=
        List.filterMap_congr fun t' ht' => by
          rw [Function.update_noteq (ne_of_mem_of_not_mem ht' ha)]
      rw [Function.update_same, hrest, List.perm_iff_count]
      intro n
      simp only [List.count_append]
      omega
    · rw [Function.update_noteq hat]
      exact (filterMap_update_perm values slot hl
        ((List.mem_cons.mp ht).resolve_left (Ne.symm hat))).append_left _

/-- The books of a stream's watches. The created handles are `0, 1, …`; until
the return each is held by one type or was cancelled, once, and after it each
was cancelled, once; each type's watch exists and was created for the type's
URL; and every response on a channel answers the watch's request. -/
structure Ledger (urls : TypeURLs) (s : Stream) : Prop where
  created : createdHandles s.trace = List.range s.watches.length
  live : s.phase.live = true →
    (cancelledHandles s.trace ++ s.handles).Perm (createdHandles s.trace)
  returned : s.phase.live = false → (cancelledHandles s.trace).Perm (createdHandles s.trace)
  slot : ∀ t w, (s.values t).watch = some w →
    ∃ watch : Watch, s.watches[w]? = some watch ∧ watch.req.typeUrl = urls.url t
  carries : ∀ (w : Nat) (watch : Watch), s.watches[w]? = some watch → watch.Carries

namespace Ledger

variable {callbacks log : Bool} {urls : TypeURLs} {versions versions' : GoMap String}
  {s s' : Stream} {a : Action}

theorem init (defaultTypeURL : String) : Ledger urls (Stream.init defaultTypeURL) :=
  ⟨rfl, fun _ => .nil, (fun h => nomatch h), (fun _ _ h => nomatch h), (fun _ _ h => nomatch h)⟩

theorem same (hl : Ledger urls s) (h : SameWatches s s')
    (hlive : s'.phase.live = s.phase.live) : Ledger urls s' := by
  obtain ⟨new, htrace, hc, hd⟩ := h.trace
  have hcancelled : cancelledHandles s'.trace = cancelledHandles s.trace := by simp [htrace, hc]
  have hcreated : createdHandles s'.trace = createdHandles s.trace := by simp [htrace, hd]
  refine ⟨by rw [hcreated, hl.created, h.length], fun hl' => ?_, fun hr => ?_,
    fun t w hw => ?_, fun w watch' hw => ?_⟩
  · rw [hcancelled, hcreated, h.handles]
    exact hl.live (hlive.symm.trans hl')
  · rw [hcancelled, hcreated]
    exact hl.returned (hlive.symm.trans hr)
  · obtain ⟨watch, hw₀, hurl⟩ := hl.slot t w ((h.values t).symm.trans hw)
    obtain ⟨watch', hw', hreq, -⟩ := h.get hw₀
    exact ⟨watch', hw', hreq ▸ hurl⟩
  · obtain ⟨watch, hw₀, -, hcarries⟩ := h.watches w watch' hw
    exact hcarries (hl.carries w watch hw₀)

/-- `values.Cancel()` on return invokes every handle the stream holds. -/
theorem exit (hl : Ledger urls s) (hlive : s.phase.live = true) (callbacks : Bool)
    (err : Option Error) : Ledger urls (s.exit callbacks err) := by
  have hq := callback_quiet callbacks .onStreamClosed rfl rfl
  have hcancelled : cancelledHandles (s.exit callbacks err).trace =
      cancelledHandles s.trace ++ s.handles := by
    simp [Stream.exit, Stream.handles, hq.1]
  have hcreated : createdHandles (s.exit callbacks err).trace = createdHandles s.trace := by
    simp [Stream.exit, hq.2]
  refine ⟨hcreated.trans hl.created, (fun h => nomatch h), fun _ => ?_, hl.slot, hl.carries⟩
  rw [hcancelled, hcreated]
  exact hl.live hlive

/-- The switch invokes the old handle of the type it re-watches and stores the
new watch, created for the type's URL with no response on its channel. -/
theorem rewatch (hl : Ledger urls s) (hlive : s.phase.live = true) (versions : GoMap String)
    (req : DeltaDiscoveryRequest) (nonce : String) :
    Ledger urls (s.rewatch urls versions req nonce) := by
  unfold Stream.rewatch
  split
  · exact hl
  rename_i t hfind
  dsimp only
  have hurl : req.typeUrl = urls.url t := by
    have hp := List.find?_some hfind
    simp only [Bool.and_eq_true, decide_eq_true_eq] at hp
    exact hp.1
  have hold : ∀ w watch, s.watches[w]? = some watch →
      (s.watches ++ [⟨req, (versions.lookup req.typeUrl).getD "", [], false⟩])[w]? =
        some watch := fun w watch hw =>
    (List.getElem?_append_left (List.getElem?_eq_some_iff.mp hw).1).trans hw
  refine ⟨?_, fun _ => ?_, fun h => Bool.noConfusion (hlive.symm.trans h), fun t' w hw => ?_,
    fun w watch hw => ?_⟩
  · simp [hl.created, List.range_succ]
  · -- the old handle joins the cancelled ones; the new one is held and created
    have hswap := List.perm_append_comm.trans (filterMap_update_perm s.values
      { s.values t with watch := some s.watches.length } ResponseType.nodup_all
      (ResponseType.mem_all t))
    simp only [cancelledHandles_append, cancelledHandles_cancel, cancelledHandles_create,
      createdHandles_append, createdHandles_cancel, createdHandles_create, Stream.handles,
      List.append_nil, List.append_assoc]
    refine (hswap.append_left _).trans ?_
    rw [← List.append_assoc]
    exact (hl.live hlive).append_right _
  · dsimp only at hw ⊢
    rcases eq_or_ne t' t with rfl | ht
    · simp only [Function.update_same, Option.some.injEq] at hw
      subst hw
      exact ⟨_, List.getElem?_concat_length .., hurl⟩
    · rw [Function.update_noteq ht] at hw
      obtain ⟨watch, hw₀, hurl'⟩ := hl.slot t' w hw
      exact ⟨watch, hold w watch hw₀, hurl'⟩
  · dsimp only at hw
    by_cases hlt : w < s.watches.length
    · rw [List.getElem?_append_left hlt] at hw
      exact hl.carries w watch hw
    · rw [List.getElem?_append_right (Nat.le_of_not_lt hlt)] at hw
      obtain ⟨-, rfl⟩ := List.getElem?_eq_some_iff.mp hw
      simp [Watch.Carries]

theorem step (hl : Ledger urls s)
    (h : s.step callbacks log urls versions a = some (s', versions')) : Ledger urls s' := by
  obtain ⟨s₁, hsame, hlive, rfl | ⟨hlive₀, ⟨err, rfl⟩ | ⟨req, nonce, rfl⟩⟩⟩ := step_shape h
  · exact hl.same hsame hlive
  · exact (hl.same hsame hlive).exit (hlive.trans hlive₀) callbacks err
  · exact (hl.same hsame hlive).rewatch (hlive.trans hlive₀) versions req nonce

/-- A step of a stream whose books hold adds no key to the shared map but the
URL of one of the six types. -/
theorem step_keys (hl : Ledger urls s)
    (h : s.step callbacks log urls versions a = some (s', versions')) :
    ∀ k ∈ versions'.keys, k ∈ versions.keys ∨ ∃ t, k = urls.url t := by
  rcases step_versions h with rfl | ⟨t, w, watch, resp, hw, hwatch, hresp, rfl⟩
  · exact fun k hk => .inl hk
  obtain ⟨watch', hwatch', hurl⟩ := hl.slot t w hw
  cases hwatch.symm.trans hwatch'
  have hreq : resp.deltaRequest = watch.req := hl.carries w watch hwatch _ hresp resp rfl
  intro k hk
  rw [AList.keys_insert, List.mem_cons] at hk
  rcases hk with rfl | hk
  · exact .inr ⟨t, by rw [hreq, hurl]⟩
  · exact .inl (List.mem_of_mem_erase hk)

end Ledger

theorem ledger_reachable {server : Config} {s : Stream} (hs : Stream.Reachable server s) :
    Ledger server.urls s := by
  induction hs with
  | init defaultTypeURL => exact .init defaultTypeURL
  | step _ hstep ih => exact ih.step hstep

/-- In every run of a v2 stream, the watches the cache created have distinct
handles; until `processDelta` returns, each is held by exactly one type or was
cancelled exactly once, and once it has returned each was cancelled exactly
once: no watch is leaked and none is cancelled twice. -/
theorem watches_cancelled_once {server : Config} {s : Stream} (hs : Stream.Reachable server s) :
    (createdHandles s.trace).Nodup ∧
      (s.phase.live = true →
        (cancelledHandles s.trace ++ s.handles).Perm (createdHandles s.trace)) ∧
      (s.phase.live = false → (cancelledHandles s.trace).Perm (createdHandles s.trace)) := by
  have hl := ledger_reachable hs
  exact ⟨hl.created ▸ List.nodup_range _, hl.live, hl.returned⟩

/-- A stream asks for endpoints, receives version `"v1"` and acknowledges it,
which re-creates the watch, and is then cancelled. -/
def acknowledged : List WorldAction :=
  [.start "e", .step 0 (.openStream (.ok ())),
    .step 0 (.request (some (endpointRequest "")) (.ok ())),
    .step 0 (.emit 0 (some (answer (endpointRequest "") "v1"))),
    .step 0 (.respond .endpoint (.ok ())),
    .step 0 (.request (some (endpointRequest "1")) (.ok ())),
    .step 0 .done]

/-- Both watches of the acknowledged stream were cancelled, once each. -/
theorem acknowledged_cancels_once : ∃ w, plainRun acknowledged = some w ∧ ∃ s, w.streams = [s] ∧
    cancelledHandles s.trace = [0, 1] ∧ s.phase.live = false ∧
    ((createdHandles s.trace).Nodup ∧
      (s.phase.live = true →
        (cancelledHandles s.trace ++ s.handles).Perm (createdHandles s.trace)) ∧
      (s.phase.live = false → (cancelledHandles s.trace).Perm (createdHandles s.trace))) := by
  obtain ⟨w, hrun, s, hs, hcancelled, hret⟩ : ∃ w, plainRun acknowledged = some w ∧ ∃ s,
      w.streams = [s] ∧ cancelledHandles s.trace = [0, 1] ∧ s.phase.live = false :=
    ⟨_, rfl, _, rfl, rfl, rfl⟩
  have hreach := (World.Reachable.run .init hrun).stream s (by simp [hs])
  exact ⟨w, hrun, s, hs, hcancelled, hret, watches_cancelled_once hreach⟩

/-- However the streams of a server interleave, the shared version map has no
keys but the six type URLs, and so at most six entries, however many streams
come and go. -/
theorem versions_keys_reachable {server : Config} {w : World} (hw : World.Reachable server w) :
    w.deltaVersions.keys ⊆ ResponseType.all.map server.urls.url ∧
      w.deltaVersions.keys.length ≤ 6 := by
  have hsub : w.deltaVersions.keys ⊆ ResponseType.all.map server.urls.url := by
    induction hw with
    | init => intro k hk; cases hk
    | step hw hstep ih =>
      rcases World.step_cases hstep with ⟨_, -, rfl⟩ | ⟨i, a, s, s', versions, -, hs, hs', rfl⟩
      · exact ih
      · intro k hk
        rcases (ledger_reachable (hw.stream s (List.getElem?_mem hs))).step_keys hs' k hk with
          hk | ⟨t, rfl⟩
        · exact ih hk
        · exact List.mem_map_of_mem _ (ResponseType.mem_all t)
  refine ⟨hsub, (w.deltaVersions.keys_nodup.subperm hsub).length_le.trans ?_⟩
  simp [ResponseType.all]

/-- The acknowledged stream's response recorded its version under the endpoint
URL. -/
theorem acknowledged_versions : ∃ w, plainRun acknowledged = some w ∧
    w.deltaVersions.keys = ["e"] ∧
    (w.deltaVersions.keys ⊆ ResponseType.all.map plainConfig.urls.url ∧
      w.deltaVersions.keys.length ≤ 6) := by
  obtain ⟨w, hrun, hkeys⟩ : ∃ w, plainRun acknowledged = some w ∧ w.deltaVersions.keys = ["e"] :=
    ⟨_, rfl, rfl⟩
  exact ⟨w, hrun, hkeys, versions_keys_reachable (World.Reachable.run .init hrun)⟩

end ControlPlane.Server
