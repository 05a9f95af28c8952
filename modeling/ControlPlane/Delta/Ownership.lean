import ControlPlane.Delta.Step
import Mathlib.Data.Finset.Card

/-!
Which watch a waiting response belongs to. Against a cache whose watches send
at most once and never after their handle was invoked, every response waiting
on the muxed channel comes from the most recently created watch for its type
URL, and `deltaCancellations` holds that watch's handle. Reconciliation keeps
this: it invokes the stored handle and drains the channel before
`CreateDeltaWatch`, so at that call no watch of the request's type is live and
the channel holds at most one response for each other type URL.

A cache that may still send once the drain has found the channel empty breaks
it: the late response is processed for the newer subscription.
-/

namespace ControlPlane.Delta

/-- Watch `h` is the most recently created watch for `typeURL`. -/
def Latest (registered : List DeltaDiscoveryRequest) (typeURL : String) (h : Nat) : Prop :=
  (∃ req, registered[h]? = some req ∧ req.typeUrl = typeURL) ∧
    ∀ h' req, h < h' → registered[h']? = some req → req.typeUrl ≠ typeURL

namespace Session

/-- Watch `w` may still send: it has neither sent nor had its handle invoked. -/
def Armed (s : Session) (w : Nat) : Prop := w ∉ emittedHandles s.trace ∧ Event.cancel w ∉ s.trace

/-- Watch `w` has a response waiting on the channel. -/
def Waiting (s : Session) (w : Nat) : Prop := ∃ e ∈ s.values.deltaResponses.contents, e.watch = w

/-- Watch `w` is live: it may still send, or its response waits. -/
def Live (s : Session) (w : Nat) : Prop := s.Armed w ∨ s.Waiting w

end Session

/-- Against a prompt cache: the waiting responses, the watches and the stored
handles agree. -/
structure Ownership (s : Session) : Prop where
  /-- a waiting response was sent by a registered watch and carries its request -/
  sender : ∀ e ∈ s.values.deltaResponses.contents,
    ∃ req, s.registered[e.watch]? = some req ∧ ∀ r ∈ e.response, r.deltaRequest = req
  nodup : (s.values.deltaResponses.contents.map (·.watch)).Nodup
  sent : ∀ e ∈ s.values.deltaResponses.contents, e.watch ∈ emittedHandles s.trace
  /-- only registered watches send or have their handle invoked -/
  events : ∀ w, w ∈ emittedHandles s.trace ∨ Event.cancel w ∈ s.trace → w < s.registered.length
  /-- a stored handle is that of the latest watch for its type URL -/
  latest : ∀ typeURL h, s.values.deltaCancellations.lookup typeURL = some (some h) →
    Latest s.registered typeURL h
  /-- a live watch's handle is stored for its type URL -/
  owner : ∀ w req, s.registered[w]? = some req → s.Live w →
    s.values.deltaCancellations.lookup req.typeUrl = some (some w)

/-- What the processor's place guarantees: in the drain no watch of the
request's type URL may still send, at `CreateDeltaWatch` none is live, and once
`processDelta` has returned every live watch has had its handle invoked. -/
structure Clear (s : Session) : Prop where
  draining : ∀ req, s.phase = .draining req →
    ∀ w r, s.registered[w]? = some r → r.typeUrl = req.typeUrl → ¬ s.Armed w
  registering : ∀ req, s.phase = .registering req →
    ∀ w r, s.registered[w]? = some r → r.typeUrl = req.typeUrl → ¬ s.Live w
  returned : ∀ err, s.phase = .returned err →
    ∀ w, w < s.registered.length → s.Live w → Event.cancel w ∈ s.trace

theorem clear_of_phase {s : Session} (hphase : s.phase = .opening ∨ s.phase = .selecting) :
    Clear s := by
  refine ⟨fun _ h => ?_, fun _ h => ?_, fun _ h => ?_⟩ <;> rcases hphase with hp | hp <;>
    rw [hp] at h <;> cases h

theorem Latest.lt_length {registered : List DeltaDiscoveryRequest} {typeURL : String} {h : Nat}
    (hl : Latest registered typeURL h) : h < registered.length := by
  obtain ⟨⟨_, hget, -⟩, -⟩ := hl
  exact (List.getElem?_eq_some_iff.mp hget).1

theorem getElem?_concat_eq_some {l : List DeltaDiscoveryRequest} {a b : DeltaDiscoveryRequest}
    {i : Nat} (h : (l ++ [a])[i]? = some b) : l[i]? = some b ∨ i = l.length ∧ b = a := by
  rw [List.getElem?_append] at h
  split at h
  · exact .inl h
  · rename_i hi
    rcases Nat.lt_or_ge i (l.length + 1) with hlt | hge
    · have hi : i = l.length := by omega
      subst hi
      simp only [Nat.sub_self, List.getElem?_cons_zero, Option.some.injEq] at h
      exact .inr ⟨rfl, h.symm⟩
    · rw [List.getElem?_eq_none (by simp; omega)] at h
      cases h

theorem Latest.concat {registered : List DeltaDiscoveryRequest} {typeURL : String} {h : Nat}
    (hl : Latest registered typeURL h) (req : DeltaDiscoveryRequest) (hne : req.typeUrl ≠ typeURL) :
    Latest (registered ++ [req]) typeURL h := by
  obtain ⟨⟨r, hget, htype⟩, hnewer⟩ := hl
  refine ⟨⟨r, by rw [List.getElem?_append_left (List.getElem?_eq_some_iff.mp hget).1, hget], htype⟩,
    fun h' req' hlt hget' => ?_⟩
  rcases getElem?_concat_eq_some hget' with hget' | ⟨-, rfl⟩
  · exact hnewer h' req' hlt hget'
  · exact hne

theorem Session.Armed.of_trace {s s' : Session} {w : Nat} (h : s'.Armed w)
    (htrace : ∃ new, s'.trace = s.trace ++ new) : s.Armed w := by
  obtain ⟨new, htrace⟩ := htrace
  exact ⟨fun he => h.1 (by simp [htrace, he]), fun hc => h.2 (by simp [htrace, hc])⟩

theorem Session.Live.of_trace {s s' : Session} {w : Nat} (h : s'.Live w)
    (htrace : ∃ new, s'.trace = s.trace ++ new) (hwaiting : s'.Waiting w → s.Waiting w) :
    s.Live w :=
  h.imp (·.of_trace htrace) hwaiting

/-- Events other than sends, and invocations of registered handles, keep the
invariant. -/
theorem Ownership.extend {s s' : Session} (h : Ownership s) (new : List Event)
    (htrace : s'.trace = s.trace ++ new) (hemit : ∀ w, w ∉ emittedHandles new)
    (hcancel : ∀ w, Event.cancel w ∈ new → w < s.registered.length)
    (hregistered : s'.registered = s.registered)
    (hresponses : s'.values.deltaResponses = s.values.deltaResponses)
    (hcancellations : s'.values.deltaCancellations = s.values.deltaCancellations) :
    Ownership s' where
  sender := by rw [hresponses, hregistered]; exact h.sender
  nodup := by rw [hresponses]; exact h.nodup
  sent e he := by
    rw [htrace, emittedHandles_append]
    exact List.mem_append_left _ (h.sent e (hresponses ▸ he))
  events w hw := by
    rw [hregistered]
    rw [htrace, emittedHandles_append, List.mem_append, List.mem_append] at hw
    rcases hw with (hw | hw) | (hw | hw)
    · exact h.events w (.inl hw)
    · exact absurd hw (hemit w)
    · exact h.events w (.inr hw)
    · exact hcancel w hw
  latest typeURL handle hl := hregistered ▸ h.latest typeURL handle (hcancellations ▸ hl)
  owner w req hreq hlive := by
    rw [hcancellations]
    refine h.owner w req (hregistered ▸ hreq) (hlive.of_trace ⟨new, htrace⟩ ?_)
    simp only [Session.Waiting, hresponses, imp_self]

theorem Ownership.of_phase {s : Session} (h : Ownership s) (phase : Phase) :
    Ownership { s with phase } :=
  h.extend [] (List.append_nil _).symm (by simp) (by simp) rfl rfl rfl

theorem Ownership.exit {server : Server} {s : Session} (h : Ownership s) (err : Option Error) :
    Ownership (s.exit server err) := by
  refine h.extend _ (by rw [Session.exit_trace, List.append_assoc]) ?_ ?_ rfl rfl rfl
  · intro w hw
    unfold Session.callback at hw
    split at hw <;> simp at hw
  · intro w hw
    have hw : w ∈ s.values.cancelHandles := by
      unfold Session.callback at hw
      split at hw <;> simpa using hw
    obtain ⟨typeURL, hlookup⟩ := mem_cancelHandles.mp hw
    exact (h.latest typeURL w hlookup).lt_length

/-- Taking the oldest response off the channel, with events other than sends
and invocations, keeps the invariant, whether `process` then clears the handle
of the response's type URL or leaves it. -/
theorem Ownership.receive {s s' : Session} (h : Ownership s) {e : Emission} {ch : Chan Emission}
    (hrecv : s.values.deltaResponses.recv? = some (e, ch)) (new : List Event)
    (htrace : s'.trace = s.trace ++ new)
    (hquiet : ∀ w, w ∉ emittedHandles new ∧ Event.cancel w ∉ new)
    (hregistered : s'.registered = s.registered) (hresponses : s'.values.deltaResponses = ch)
    (hcancellations : s'.values.deltaCancellations = s.values.deltaCancellations ∨
      ∃ r ∈ e.response, s'.values.deltaCancellations =
        s.values.deltaCancellations.insert r.deltaRequest.typeUrl none) :
    Ownership s' := by
  have hcontents := (Chan.recv?_eq_some hrecv).1
  have hnodup := h.nodup
  rw [hcontents, List.map_cons, List.nodup_cons] at hnodup
  have hmem (e' : Emission) (he' : e' ∈ ch.contents) : e' ∈ s.values.deltaResponses.contents := by
    rw [hcontents]; exact List.mem_cons_of_mem _ he'
  have hemitted (w : Nat) (hw : w ∈ emittedHandles s.trace) : w ∈ emittedHandles s'.trace := by
    rw [htrace, emittedHandles_append]; exact List.mem_append_left _ hw
  -- a live watch after the receive was live before, and is not the sender of `e`
  have hlive (w : Nat) (hw : s'.Live w) : s.Live w ∧ w ≠ e.watch := by
    refine ⟨hw.of_trace ⟨new, htrace⟩
      fun ⟨e', he', hwatch⟩ => ⟨e', hmem e' (hresponses ▸ he'), hwatch⟩,
      ?_⟩
    rintro rfl
    rcases hw with ⟨hemit, -⟩ | ⟨e', he', hwatch⟩
    · exact hemit (hemitted _ (h.sent e (by rw [hcontents]; exact List.mem_cons_self _ _)))
    · exact hnodup.1 (List.mem_map.mpr ⟨e', hresponses ▸ he', hwatch⟩)
  have hsender : s.Live e.watch := .inr ⟨e, by rw [hcontents]; exact List.mem_cons_self _ _, rfl⟩
  obtain ⟨req, hreq, hresp⟩ := h.sender e (by rw [hcontents]; exact List.mem_cons_self _ _)
  refine ⟨fun e' he' => hregistered ▸ h.sender e' (hmem e' (hresponses ▸ he')),
    hresponses ▸ hnodup.2, fun e' he' => hemitted _ (h.sent e' (hmem e' (hresponses ▸ he'))),
    fun w hw => hregistered ▸ h.events w ?_, fun typeURL handle hl => hregistered ▸ ?_,
    fun w r hr hw => ?_⟩
  · rw [htrace, emittedHandles_append, List.mem_append, List.mem_append] at hw
    rcases hw with (hw | hw) | (hw | hw)
    · exact .inl hw
    · exact absurd hw (hquiet w).1
    · exact .inr hw
    · exact absurd hw (hquiet w).2
  · rcases hcancellations with hc | ⟨r, -, hc⟩
    · exact h.latest typeURL handle (hc ▸ hl)
    · rw [hc] at hl
      by_cases ht : r.deltaRequest.typeUrl = typeURL
      · subst ht; simp at hl
      · exact h.latest typeURL handle (by rwa [AList.lookup_insert_ne (Ne.symm ht)] at hl)
  · obtain ⟨hw, hne⟩ := hlive w hw
    have howner := h.owner w r (hregistered ▸ hr) hw
    rcases hcancellations with hc | ⟨resp, hmemr, hc⟩
    · rwa [hc]
    · rw [hc]
      by_cases ht : resp.deltaRequest.typeUrl = r.typeUrl
      · rw [hresp resp hmemr] at ht
        have := h.owner e.watch req hreq hsender
        rw [ht, howner] at this
        exact absurd (Option.some_injective _ (Option.some_injective _ this)) hne
      · rwa [AList.lookup_insert_ne (Ne.symm ht)]

/-- A watch that may send stays live once it has. -/
theorem Session.Live.of_emitted {s : Session} {watch w : Nat} {response : Option DeltaResponse}
    (hallows : Discipline.prompt.Allows s.trace watch) (hw : (s.emitted watch response).Live w) :
    s.Live w := by
  by_cases hw' : w = watch
  · exact hw' ▸ .inl hallows
  · refine hw.of_trace ⟨_, rfl⟩ fun ⟨e, he, hwatch⟩ => ⟨e, ?_, hwatch⟩
    simp only [Session.emitted, Chan.send_contents, List.mem_append, List.mem_singleton] at he
    rcases he with he | rfl
    · exact he
    · exact absurd hwatch.symm hw'

/-- A watch of a prompt cache sends. -/
theorem Ownership.emit {s : Session} (h : Ownership s) {watch : Nat}
    {response : Option DeltaResponse} {req : DeltaDiscoveryRequest}
    (hreq : s.registered[watch]? = some req) (hallows : Discipline.prompt.Allows s.trace watch)
    (hresp : ∀ r ∈ response, r.deltaRequest = req) : Ownership (s.emitted watch response) := by
  have hlive (w : Nat) (hw : (s.emitted watch response).Live w) : s.Live w := hw.of_emitted hallows
  obtain ⟨hfresh, hcancel⟩ := hallows
  refine ⟨fun e he => ?_, ?_, fun e he => ?_, fun w hw => ?_, h.latest,
    fun w r hr hw => h.owner w r hr (hlive w hw)⟩
  · simp only [Session.emitted, Chan.send_contents, List.mem_append, List.mem_singleton] at he
    rcases he with he | rfl
    · exact h.sender e he
    · exact ⟨req, hreq, hresp⟩
  · simp only [Session.emitted, Chan.send_contents, List.map_append, List.map_singleton]
    refine List.nodup_append.mpr ⟨h.nodup, List.nodup_singleton _, ?_⟩
    simp only [List.disjoint_singleton, List.mem_map, not_exists, not_and]
    exact fun e he hwatch => hfresh (hwatch ▸ h.sent e he)
  · simp only [Session.emitted, Chan.send_contents, List.mem_append, List.mem_singleton] at he
    simp only [Session.emitted, emittedHandles_append, emittedHandles_cons, emittedHandles_nil,
      List.mem_append, List.mem_singleton]
    rcases he with he | rfl
    · exact .inl (h.sent e he)
    · exact .inr (by simp)
  · simp only [Session.emitted, emittedHandles_append, emittedHandles_cons, emittedHandles_nil,
      List.mem_append, List.mem_singleton, reduceCtorEq, or_false, List.append_nil] at hw
    rcases hw with (hw | rfl) | hw
    · exact h.events w (.inl hw)
    · exact (List.getElem?_eq_some_iff.mp hreq).1
    · exact h.events w (.inr hw)

/-- `CreateDeltaWatch`, when no watch of the request's type URL is live. -/
theorem Ownership.register {s : Session} (h : Ownership s) {req : DeltaDiscoveryRequest}
    (hclear : ∀ w r, s.registered[w]? = some r → r.typeUrl = req.typeUrl → ¬ s.Live w) :
    Ownership (s.register req) := by
  have hget (w : Nat) (r : DeltaDiscoveryRequest) (hr : s.registered[w]? = some r) :
      (s.registered ++ [req])[w]? = some r := by
    rw [List.getElem?_append_left (List.getElem?_eq_some_iff.mp hr).1, hr]
  refine ⟨fun e he => ?_, h.nodup, fun e he => by simpa [Session.register] using h.sent e he,
    fun w hw => ?_, fun typeURL handle hl => ?_, fun w r hr hw => ?_⟩
  · obtain ⟨r, hr, hresp⟩ := h.sender e he
    exact ⟨r, hget _ r hr, hresp⟩
  · simp only [Session.register, emittedHandles_append, emittedHandles_cons, emittedHandles_nil,
      List.append_nil, List.mem_append, List.mem_singleton, reduceCtorEq, or_false,
      List.length_append, List.length_singleton] at hw ⊢
    have := h.events w hw
    omega
  · simp only [Session.register] at hl ⊢
    by_cases ht : req.typeUrl = typeURL
    · subst ht
      rw [AList.lookup_insert, Option.some.injEq, Option.some.injEq] at hl
      subst hl
      refine ⟨⟨req, List.getElem?_concat_length _ _, rfl⟩, fun h' r hlt hr => ?_⟩
      rw [List.getElem?_eq_none (by simp; omega)] at hr
      cases hr
    · rw [AList.lookup_insert_ne (Ne.symm ht)] at hl
      exact (h.latest typeURL handle hl).concat req ht
  · simp only [Session.register] at hr hw ⊢
    rcases getElem?_concat_eq_some hr with hr | ⟨rfl, rfl⟩
    · have hw : s.Live w := hw.of_trace ⟨_, rfl⟩ id
      have ht : r.typeUrl ≠ req.typeUrl := fun ht => hclear w r hr ht hw
      rw [AList.lookup_insert_ne ht]
      exact h.owner w r hr hw
    · exact AList.lookup_insert _

theorem ownership_init (server : Server) (defaultTypeURL : String) (typeURLs : List String) :
    Ownership (Session.init server defaultTypeURL typeURLs) where
  sender _ he := by cases he
  nodup := List.nodup_nil
  sent _ he := by cases he
  events _ hw := by simp [Session.init] at hw
  latest _ _ hl := by cases hl
  owner _ _ hr := by cases hr

theorem Ownership.prepare {s s₁ : Session} (h : Ownership s) (hprepare : s.Prepared s₁) :
    Ownership s₁ := by
  obtain ⟨new, htrace, hnew⟩ := hprepare.trace
  have hquiet (w : Nat) : w ∉ emittedHandles new ∧ Event.cancel w ∉ new := by
    refine ⟨fun hw => ?_, fun hw => ?_⟩
    · obtain ⟨r, hr⟩ := mem_emittedHandles.mp hw
      rcases hnew _ hr with ⟨_, _, h⟩ | ⟨_, h⟩ <;> cases h
    · rcases hnew _ hw with ⟨_, _, h⟩ | ⟨_, h⟩ <;> cases h
  exact h.extend new htrace (fun w => (hquiet w).1) (fun w hw => absurd hw (hquiet w).2)
    hprepare.registered hprepare.deltaResponses hprepare.deltaCancellations

/-- The teardown invokes the handle of every live watch. -/
theorem Ownership.clear_exit {server : Server} {s : Session} (h : Ownership s)
    (err : Option Error) :
    Clear (s.exit server err) := by
  refine ⟨fun _ hp => (by cases hp), fun _ hp => (by cases hp), fun _ _ w hw hlive => ?_⟩
  obtain ⟨r, hr⟩ : ∃ r, s.registered[w]? = some r := ⟨_, List.getElem?_eq_getElem hw⟩
  have howner :=
    h.owner w r hr (hlive.of_trace ⟨_, by rw [Session.exit_trace, List.append_assoc]⟩ id)
  rw [Session.exit_trace]
  exact List.mem_append_left _ (List.mem_append_right _
    (List.mem_map_of_mem _ (mem_cancelHandles.mpr ⟨_, howner⟩)))

theorem quiet_stamp (server : Server) (req : DeltaDiscoveryRequest) (out : DeltaDiscoveryResponse)
    (w : Nat) :
    w ∉ emittedHandles (Session.callback server (.onStreamDeltaResponse req out) ++ [.send out]) ∧
      Event.cancel w ∉ Session.callback server (.onStreamDeltaResponse req out) ++ [.send out] := by
  unfold Session.callback
  split <;> simp

variable {server : Server} {defaultTypeURL : String} {typeURLs : List String}

/-- Against a prompt cache every transition keeps the invariant and the
clearance of reconciliation. -/
theorem Ownership.transition {s s' : Session} (h : Ownership s) (hclear : Clear s)
    (ht : Transition server .prompt defaultTypeURL s s') : Ownership s' ∧ Clear s' := by
  cases ht with
  | opened =>
    refine ⟨h.extend _ rfl ?_ ?_ rfl rfl rfl, clear_of_phase (.inr rfl)⟩ <;>
      (intro w hw; unfold Session.callback at hw; split at hw <;> simp at hw)
  | openFailed =>
    have h₁ : Ownership { s with trace := s.trace ++ [.onDeltaStreamOpen] } :=
      h.extend [Event.onDeltaStreamOpen] rfl (by simp) (by simp) rfl rfl rfl
    exact ⟨h₁.exit _, h₁.clear_exit _⟩
  | emit watch response req hreq hallows hresp =>
    refine ⟨h.emit hreq hallows hresp,
      ⟨fun req hp w r hr ht hw => hclear.draining req hp w r hr ht (hw.of_trace ⟨_, rfl⟩),
        fun req hp w r hr ht hw => hclear.registering req hp w r hr ht (hw.of_emitted hallows),
        fun err hp => ?_⟩⟩
    -- nothing may send once the processor has returned
    exact absurd (hclear.returned err hp watch (List.getElem?_eq_some_iff.mp hreq).1 (.inl hallows))
      hallows.2
  | exit => exact ⟨h.exit _, h.clear_exit _⟩
  | rejected req accepted s₁ err hphase hprepare =>
    have h₁ := h.prepare (Session.prepared_of_prepare server hprepare)
    exact ⟨h₁.exit _, h₁.clear_exit _⟩
  | ignored req accepted s₁ _ hphase hprepare =>
    have h₁ := h.prepare (Session.prepared_of_prepare server hprepare)
    exact ⟨h₁.of_phase _, clear_of_phase (.inr rfl)⟩
  | cancelled req accepted s₁ prepared handle hphase hprepare hwants hhandle =>
    have h₁ := h.prepare (Session.prepared_of_prepare server hprepare)
    refine ⟨h₁.extend [.cancel handle] rfl (by simp) ?_ rfl rfl rfl,
      ⟨fun req' hp w r hr ht hw => ?_, fun _ hp => (by cases hp), fun _ hp => (by cases hp)⟩⟩
    · intro w hw
      rw [List.mem_singleton, Event.cancel.injEq] at hw
      exact hw ▸ (h₁.latest _ _ hhandle).lt_length
    · cases hp
      have howner := h₁.owner w r hr (.inl (hw.of_trace ⟨_, rfl⟩))
      rw [ht, hhandle] at howner
      cases howner
      exact hw.2 (List.mem_append_right _ (List.mem_singleton_self _))
  | uncancelled req accepted s₁ prepared hphase hprepare hwants hhandle =>
    have h₁ := h.prepare (Session.prepared_of_prepare server hprepare)
    refine ⟨h₁.of_phase _, ⟨fun _ hp => (by cases hp), fun req' hp w r hr ht hw => ?_,
      fun _ hp => (by cases hp)⟩⟩
    cases hp
    exact hhandle w (ht ▸ h₁.owner w r hr hw)
  | unsent e ch next err hnext hrecv =>
    have h₁ : Ownership (s.popped ch) := h.receive hrecv [] (by simp) (by simp) rfl rfl (.inl rfl)
    exact ⟨h₁.exit _, h₁.clear_exit _⟩
  | sendFailed e ch next r out err hnext hrecv =>
    have h₁ : Ownership ((s.popped ch).stamp server r.deltaRequest (s.stamped out)) :=
      h.receive hrecv _ (by simp [List.append_assoc])
        (quiet_stamp server r.deltaRequest (s.stamped out)) rfl rfl (.inl rfl)
    exact ⟨h₁.exit _, h₁.clear_exit _⟩
  | updateFailed e ch next r out state err hnext hrecv hresp =>
    refine ⟨Ownership.exit ?_ _, Ownership.clear_exit ?_ _⟩ <;>
      exact h.receive hrecv _ (by simp [List.append_assoc])
        (quiet_stamp server r.deltaRequest (s.stamped out)) rfl rfl (.inr ⟨r, hresp, rfl⟩)
  | processed e ch next r out state hnext hrecv hresp =>
    refine ⟨h.receive hrecv (Session.callback server (.onStreamDeltaResponse r.deltaRequest
      (s.stamped out)) ++ [.send (s.stamped out), .processed r (s.stamped out).nonce]) ?_
      (fun w => ?_)
      rfl rfl (.inr ⟨r, hresp, rfl⟩), ?_⟩
    · simp [List.append_assoc]
    · simpa using quiet_stamp server r.deltaRequest (s.stamped out) w
    · rcases hnext with ⟨-, rfl⟩ | ⟨req, hphase, rfl⟩
      · exact clear_of_phase (.inr rfl)
      · refine ⟨fun req' hp w r hr ht hw => ?_, fun _ hp => (by cases hp),
          fun _ hp => (by cases hp)⟩
        cases hp
        exact hclear.draining req hphase w r hr ht (hw.of_trace ⟨_, by simp; rfl⟩)
  | drained req hphase hempty =>
    refine ⟨h.of_phase _, ⟨fun _ hp => (by cases hp), fun req' hp w r hr ht hw => ?_,
      fun _ hp => (by cases hp)⟩⟩
    cases hp
    rcases hw with hw | ⟨e, he, -⟩
    · exact hclear.draining req hphase w r hr ht hw
    · simp [hempty] at he
  | register req hphase =>
    exact ⟨h.register (hclear.registering req hphase), clear_of_phase (.inr rfl)⟩

theorem ownership_reachable {s : Session}
    (hs : Reachable server .prompt defaultTypeURL typeURLs s) : Ownership s ∧ Clear s :=
  reachable_induction server .prompt defaultTypeURL typeURLs (P := fun s => Ownership s ∧ Clear s)
    ⟨ownership_init server defaultTypeURL typeURLs, clear_of_phase (.inl rfl)⟩
    (fun _ _ _ h ht => h.1.transition h.2 ht) hs

/-- Against a cache whose watches send at most once and never after their
handle was invoked, in every reachable session: a waiting response for a type
URL comes from the most recently created watch for it, and `deltaCancellations`
holds that watch's handle, so `process` writes for the current subscription and
clears that watch's own handle; every live watch's handle is stored for its
type URL, so at most one watch per type URL is live. -/
theorem waiting_response_of_latest_watch {s : Session}
    (hs : Reachable server .prompt defaultTypeURL typeURLs s) :
    (∀ e ∈ s.values.deltaResponses.contents, ∀ r ∈ e.response,
      Latest s.registered r.deltaRequest.typeUrl e.watch ∧
        s.values.deltaCancellations.lookup r.deltaRequest.typeUrl = some (some e.watch)) ∧
    (∀ w req, s.registered[w]? = some req → s.Live w →
      s.values.deltaCancellations.lookup req.typeUrl = some (some w)) ∧
    (∀ w w' req req', s.registered[w]? = some req → s.registered[w']? = some req' →
      req.typeUrl = req'.typeUrl → s.Live w → s.Live w' → w = w') := by
  obtain ⟨h, -⟩ := ownership_reachable hs
  have hwaiting (e : Emission) (he : e ∈ s.values.deltaResponses.contents) (r : DeltaResponse)
      (hr : r ∈ e.response) :
      s.values.deltaCancellations.lookup r.deltaRequest.typeUrl = some (some e.watch) := by
    obtain ⟨req, hreq, hresp⟩ := h.sender e he
    rw [hresp r hr]
    exact h.owner e.watch req hreq (.inr ⟨e, he, rfl⟩)
  refine ⟨fun e he r hr => ⟨h.latest _ _ (hwaiting e he r hr), hwaiting e he r hr⟩, h.owner, ?_⟩
  intro w w' req req' hr hr' ht hw hw'
  have howner := h.owner w req hr hw
  rw [ht, h.owner w' req' hr' hw'] at howner
  exact (Option.some_injective _ (Option.some_injective _ howner)).symm

/-- A watch for `"a"` answers, and a request for `"b"` follows. -/
def secondType : List Action :=
  [.openStream (.ok ()), .request (some (subscription "a")) (.ok ()), .register,
    .emit 0 (some (answer (watched "a") ∅)), .request (some (subscription "b")) (.ok ())]

theorem secondType_waiting_owned : ∃ s, plainRun .prompt secondType = some s ∧
    s.values.deltaResponses.contents = [⟨0, some (answer (watched "a") ∅)⟩] ∧
    (∀ e ∈ s.values.deltaResponses.contents, ∀ r ∈ e.response,
      Latest s.registered r.deltaRequest.typeUrl e.watch ∧
        s.values.deltaCancellations.lookup r.deltaRequest.typeUrl = some (some e.watch)) ∧
    (∀ w req, s.registered[w]? = some req → s.Live w →
      s.values.deltaCancellations.lookup req.typeUrl = some (some w)) ∧
    (∀ w w' req req', s.registered[w]? = some req → s.registered[w']? = some req' →
      req.typeUrl = req'.typeUrl → s.Live w → s.Live w' → w = w') := by
  obtain ⟨s, hrun, hcontents⟩ : ∃ s, plainRun .prompt secondType = some s ∧
      s.values.deltaResponses.contents = [⟨0, some (answer (watched "a") ∅)⟩] := ⟨_, rfl, rfl⟩
  exact ⟨s, hrun, hcontents, waiting_response_of_latest_watch (reachable_of_plainRun hrun)⟩

/-- The first watch for `"c"` is cancelled and replaced, and sends only once the
drain has found the channel empty. -/
def lateSend : List Action :=
  [.openStream (.ok ()), .request (some (subscription "c")) (.ok ()), .register,
    .request (some (subscription "c")) (.ok ()), .drain (.ok ()), .register,
    .emit 0 (some (answer (watched "c") ∅))]

/-- Against a cache that may send after its handle was invoked, a waiting
response need not come from the latest watch for its type URL. -/
theorem late_send_not_latest :
    ¬ ∀ s, Reachable plainServer .deferred "c" [] s →
      ∀ e ∈ s.values.deltaResponses.contents, ∀ r ∈ e.response,
        Latest s.registered r.deltaRequest.typeUrl e.watch := by
  intro h
  obtain ⟨s, hrun, hcontents, hregistered⟩ : ∃ s, plainRun .deferred lateSend = some s ∧
      s.values.deltaResponses.contents = [⟨0, some (answer (watched "c") ∅)⟩] ∧
      s.registered = [watched "c", watched "c"] := ⟨_, rfl, rfl, rfl⟩
  have hlatest := h s (reachable_of_plainRun hrun) ⟨0, some (answer (watched "c") ∅)⟩
    (by rw [hcontents]; exact List.mem_singleton_self _) (answer (watched "c") ∅) rfl
  rw [hregistered] at hlatest
  exact hlatest.2 1 (watched "c") Nat.one_pos rfl rfl

/-- No step changes the channel's capacity. -/
theorem Transition.capacity {d : Discipline} {s s' : Session}
    (ht : Transition server d defaultTypeURL s s') :
    s'.values.deltaResponses.capacity = s.values.deltaResponses.capacity := by
  cases ht with
  | emit => exact Chan.send_capacity _ _
  | rejected _ _ _ _ _ hprepare | ignored _ _ _ _ _ hprepare | cancelled _ _ _ _ _ _ hprepare
  | uncancelled _ _ _ _ _ hprepare =>
    exact congrArg Chan.capacity (Session.prepared_of_prepare server hprepare).deltaResponses
  | unsent _ _ _ _ _ hrecv | sendFailed _ _ _ _ _ _ _ hrecv | updateFailed _ _ _ _ _ _ _ _ hrecv
  | processed _ _ _ _ _ _ _ hrecv => exact (Chan.recv?_eq_some hrecv).2
  | opened | openFailed | exit | drained | register => rfl

theorem capacity_reachable {d : Discipline} {s : Session}
    (hs : Reachable server d defaultTypeURL typeURLs s) :
    s.values.deltaResponses.capacity = server.bufferSize defaultTypeURL :=
  reachable_induction server d defaultTypeURL typeURLs
    (P := fun s => s.values.deltaResponses.capacity = server.bufferSize defaultTypeURL) rfl
    (fun _ _ _ h ht => ht.capacity.trans h) hs

/-- Against a prompt cache, whenever the processor calls `CreateDeltaWatch` for
a request of type URL `t`, every waiting response comes from a watch of a type
URL other than `t` and answers that watch's request, and no two come from
watches of the same type URL. So they are strictly fewer than the channel's
capacity once that is at least the number of distinct type URLs of the watches
created so far and of `t`. -/
theorem waiting_below_capacity {s : Session} {req : DeltaDiscoveryRequest}
    (hs : Reachable server .prompt defaultTypeURL typeURLs s)
    (hphase : s.phase = .registering req) :
    (∀ e ∈ s.values.deltaResponses.contents, ∃ r, s.registered[e.watch]? = some r ∧
      r.typeUrl ≠ req.typeUrl ∧ ∀ resp ∈ e.response, resp.deltaRequest = r) ∧
    s.values.deltaResponses.contents.Pairwise (fun e e' => ∀ r r',
      s.registered[e.watch]? = some r → s.registered[e'.watch]? = some r' →
        r.typeUrl ≠ r'.typeUrl) ∧
    ((insert req.typeUrl (s.registered.map (·.typeUrl)).toFinset).card ≤
        server.bufferSize defaultTypeURL →
      s.values.deltaResponses.contents.length < s.values.deltaResponses.capacity) := by
  obtain ⟨h, hclear⟩ := ownership_reachable hs
  have hwatch (e : Emission) (he : e ∈ s.values.deltaResponses.contents) :
      ∃ r, s.registered[e.watch]? = some r ∧ r.typeUrl ≠ req.typeUrl ∧
        ∀ resp ∈ e.response, resp.deltaRequest = r := by
    obtain ⟨r, hr, hresp⟩ := h.sender e he
    exact ⟨r, hr, fun ht => hclear.registering req hphase _ r hr ht (.inr ⟨e, he, rfl⟩), hresp⟩
  -- two waiting responses of one type URL would have one owner, a single watch
  have hdistinct : s.values.deltaResponses.contents.Pairwise (fun e e' => ∀ r r',
      s.registered[e.watch]? = some r → s.registered[e'.watch]? = some r' →
        r.typeUrl ≠ r'.typeUrl) := by
    refine (List.pairwise_map.mp h.nodup).imp_of_mem
      fun he he' hne r r' hr hr' htype => hne ?_
    have howner := h.owner _ r hr (.inr ⟨_, he, rfl⟩)
    rw [htype, h.owner _ r' hr' (.inr ⟨_, he', rfl⟩)] at howner
    exact (Option.some_injective _ (Option.some_injective _ howner)).symm
  refine ⟨hwatch, hdistinct, fun hcapacity => ?_⟩
  -- the type URL of a watch, read off the request it was created with
  let typeOf (w : Nat) : String := ((s.registered[w]?).map (·.typeUrl)).getD ""
  have hnodup : ((s.values.deltaResponses.contents.map (·.watch)).map typeOf).Nodup := by
    rw [List.map_map, List.Nodup, List.pairwise_map]
    refine hdistinct.imp_of_mem fun he he' hne => ?_
    obtain ⟨r, hr, -⟩ := hwatch _ he
    obtain ⟨r', hr', -⟩ := hwatch _ he'
    simpa [typeOf, hr, hr'] using hne r r' hr hr'
  have hsubset : ((s.values.deltaResponses.contents.map (·.watch)).map typeOf).toFinset ⊆
      (s.registered.map (·.typeUrl)).toFinset.erase req.typeUrl := by
    intro t ht
    simp only [List.mem_toFinset, List.map_map, List.mem_map, Function.comp_apply] at ht
    obtain ⟨e, he, rfl⟩ := ht
    obtain ⟨r, hr, hother, -⟩ := hwatch e he
    simp only [typeOf, hr, Option.map_some', Option.getD_some, Finset.mem_erase,
      List.mem_toFinset]
    exact ⟨hother, List.mem_map_of_mem _ (List.getElem?_mem hr)⟩
  calc s.values.deltaResponses.contents.length
      = ((s.values.deltaResponses.contents.map (·.watch)).map typeOf).toFinset.card := by
        rw [List.toFinset_card_of_nodup hnodup, List.length_map, List.length_map]
    _ ≤ ((s.registered.map (·.typeUrl)).toFinset.erase req.typeUrl).card :=
      Finset.card_le_card hsubset
    _ < (insert req.typeUrl (s.registered.map (·.typeUrl)).toFinset).card :=
        Finset.card_lt_card (Finset.erase_ssubset_insert _ _)
    _ ≤ s.values.deltaResponses.capacity := capacity_reachable hs ▸ hcapacity

/-- On an aggregated stream, where the channel holds eight, the watch for `"a"`
answers and a request for `"b"` follows: at `CreateDeltaWatch` the answer
waits, from a watch of the other type URL, below the capacity. -/
theorem adsSecondType_below_capacity : ∃ s,
    (Session.init plainServer anyType []).run plainServer .prompt anyType secondType = some s ∧
    s.phase = .registering (watched "b") ∧
    s.values.deltaResponses.contents = [⟨0, some (answer (watched "a") ∅)⟩] ∧
    (insert (watched "b").typeUrl (s.registered.map (·.typeUrl)).toFinset).card ≤
      plainServer.bufferSize anyType ∧
    (∀ e ∈ s.values.deltaResponses.contents, ∃ r, s.registered[e.watch]? = some r ∧
      r.typeUrl ≠ (watched "b").typeUrl ∧ ∀ resp ∈ e.response, resp.deltaRequest = r) ∧
    s.values.deltaResponses.contents.Pairwise (fun e e' => ∀ r r',
      s.registered[e.watch]? = some r → s.registered[e'.watch]? = some r' →
        r.typeUrl ≠ r'.typeUrl) ∧
    ((insert (watched "b").typeUrl (s.registered.map (·.typeUrl)).toFinset).card ≤
        plainServer.bufferSize anyType →
      s.values.deltaResponses.contents.length < s.values.deltaResponses.capacity) := by
  obtain ⟨s, hrun, hphase, hcontents, hregistered⟩ : ∃ s,
      (Session.init plainServer anyType []).run plainServer .prompt anyType secondType = some s ∧
      s.phase = .registering (watched "b") ∧
      s.values.deltaResponses.contents = [⟨0, some (answer (watched "a") ∅)⟩] ∧
      s.registered = [watched "a"] := ⟨_, rfl, rfl, rfl, rfl⟩
  have hcapacity : (insert (watched "b").typeUrl (s.registered.map (·.typeUrl)).toFinset).card ≤
      plainServer.bufferSize anyType := by
    rw [hregistered]; decide
  exact ⟨s, hrun, hphase, hcontents, hcapacity,
    waiting_below_capacity (.run _ _ _ _ .init hrun) hphase⟩

/-- A single-type stream takes a request for another type URL, and its channel
of capacity one is then full at `CreateDeltaWatch`. -/
theorem second_type_fills_channel :
    ¬ ∀ s req, Reachable plainServer .prompt "c" [] s → s.phase = .registering req →
      s.values.deltaResponses.contents.length < s.values.deltaResponses.capacity := by
  intro h
  obtain ⟨s, hrun, hphase, hlength, hcapacity⟩ : ∃ s, plainRun .prompt secondType = some s ∧
      s.phase = .registering (watched "b") ∧ s.values.deltaResponses.contents.length = 1 ∧
      s.values.deltaResponses.capacity = 1 := ⟨_, rfl, rfl, rfl, rfl⟩
  have hbelow := h s _ (reachable_of_plainRun hrun) hphase
  omega

/-- Against a prompt cache, once `processDelta` has returned, by whichever
path, every watch it registered that has not sent, or whose response still
waits, has had its handle invoked. -/
theorem returned_watches_cancelled {s : Session} {err : Option Error}
    (hs : Reachable server .prompt defaultTypeURL typeURLs s) (hreturned : s.phase = .returned err)
    (w : Nat) (hw : w < s.registered.length) (hpending : w ∉ emittedHandles s.trace ∨ s.Waiting w) :
    Event.cancel w ∈ s.trace := by
  obtain ⟨-, hclear⟩ := ownership_reachable hs
  by_contra hcancel
  exact hcancel (hclear.returned err hreturned w hw (hpending.imp (⟨·, hcancel⟩) id))

/-- A stream of type `"c"` whose context is cancelled while its first watch
has not sent. -/
def cancelledStream : List Action :=
  [.openStream (.ok ()), .request (some (subscription "c")) (.ok ()), .register, .done]

/-- The teardown invokes the handle of the unanswered watch 0. -/
theorem cancelledStream_cancels : ∃ s, plainRun .prompt cancelledStream = some s ∧
    s.phase = .returned none ∧ 0 < s.registered.length ∧ 0 ∉ emittedHandles s.trace ∧
    Event.cancel 0 ∈ s.trace := by
  obtain ⟨s, hrun, hphase, hlength, hemitted⟩ : ∃ s, plainRun .prompt cancelledStream = some s ∧
      s.phase = .returned none ∧ 0 < s.registered.length ∧ 0 ∉ emittedHandles s.trace :=
    ⟨_, rfl, rfl, by decide, by decide⟩
  exact ⟨s, hrun, hphase, hlength, hemitted,
    returned_watches_cancelled (reachable_of_plainRun hrun) hphase 0 hlength (.inl hemitted)⟩

/-- The watch for `"c"` answers, a second request for `"c"` invokes its handle,
and the drain's `Send` fails. -/
def failedDrain : List Action :=
  [.openStream (.ok ()), .request (some (subscription "c")) (.ok ()), .register,
    .emit 0 (some (answer (watched "c") ∅)), .request (some (subscription "c")) (.ok ()),
    .drain (.error "unavailable")]

/-- The reconciliation and then the teardown invoke the handle of watch 0. -/
theorem failedDrain_cancels_twice : ∃ s, plainRun .prompt failedDrain = some s ∧
    s.phase = .returned (some (.passed "unavailable")) ∧ s.trace.count (.cancel 0) = 2 :=
  ⟨_, rfl, rfl, by decide⟩

end ControlPlane.Delta
