import ControlPlane.Delta.Step

/-!
The cancel handles of the muxed processor (pkg/server/delta/v2), against any
cache. `deltaCancellations` holds at most one handle per type URL; a request
that asks for a new watch invokes the stored handle and drains, but the handle
stays stored until `CreateDeltaWatch` replaces it or `process` clears it, and
the deferred `values.Cancel()` invokes every handle still stored.

So until `processDelta` returns no handle is invoked twice, and the return
invokes a handle a second time only when it comes from the drain, for the type
being reconciled: at most one handle is ever invoked twice, and none more
often.
-/

namespace ControlPlane.Delta

/-- The handles a trace invoked, in order. -/
def cancelledHandles (trace : List Event) : List Nat :=
  trace.filterMap fun
    | .cancel handle => some handle
    | _ => none

@[simp] theorem cancelledHandles_append (trace new : List Event) :
    cancelledHandles (trace ++ new) = cancelledHandles trace ++ cancelledHandles new :=
  List.filterMap_append ..

@[simp] theorem cancelledHandles_cancels (handles : List Nat) :
    cancelledHandles (handles.map .cancel) = handles := by
  induction handles <;> simp_all [cancelledHandles]

theorem cancelledHandles_callback (server : Server) (event : Event)
    (h : cancelledHandles [event] = []) :
    cancelledHandles (Session.callback server event) = [] := by
  unfold Session.callback
  split
  · exact h
  · rfl

theorem nodup_filterMap_snd :
    ∀ {l : List (Σ _ : String, Option Nat)}, l.NodupKeys →
      (∀ a ∈ l, ∀ a' ∈ l, ∀ h, a.2 = some h → a'.2 = some h → a.1 = a'.1) →
      (l.filterMap (·.2)).Nodup
  | [], _, _ => .nil
  | a :: l, hkeys, hinj => by
    rw [List.nodupKeys_cons] at hkeys
    have ih := nodup_filterMap_snd hkeys.2 fun x hx y hy =>
      hinj x (List.mem_cons_of_mem _ hx) y (List.mem_cons_of_mem _ hy)
    rcases ha : a.2 with _ | h
    · simpa [List.filterMap_cons, ha] using ih
    · simp only [List.filterMap_cons, ha, List.nodup_cons, ih, and_true]
      intro hmem
      obtain ⟨a', ha', h'⟩ := List.mem_filterMap.mp hmem
      have hkey := hinj a (List.mem_cons_self _ _) a' (List.mem_cons_of_mem _ ha') h ha h'
      exact hkeys.1 (hkey ▸ List.mem_keys_of_mem ha')

/-- The stored handles are distinct: the stream values hold each under one type
URL at most. -/
theorem nodup_cancelHandles {values : Watches}
    (hdistinct : ∀ t₁ t₂ h, values.deltaCancellations.lookup t₁ = some (some h) →
      values.deltaCancellations.lookup t₂ = some (some h) → t₁ = t₂) :
    values.cancelHandles.Nodup := by
  have hkeys := values.deltaCancellations.nodupKeys
  refine nodup_filterMap_snd hkeys fun a ha a' ha' h h₁ h₂ => hdistinct a.1 a'.1 h ?_ ?_
  · rw [← h₁]; exact List.mem_dlookup hkeys ha
  · rw [← h₂]; exact List.mem_dlookup hkeys ha'

/-- The processor is reconciling a request: in the drain or about to call
`CreateDeltaWatch`. -/
def Phase.Reconciling (phase : Phase) (r : DeltaDiscoveryRequest) : Prop :=
  phase = .draining r ∨ phase = .registering r

/-- The books of the cancel handles, against any cache. Stored and invoked
handles are the cache's; each is stored under one type URL; until the return a
stored handle has not been invoked unless its type is being reconciled, and no
handle was invoked twice; after it, one handle at most was invoked twice and no
handle more often. -/
structure CancelBooks (s : Session) : Prop where
  stored : ∀ typeURL h, s.values.deltaCancellations.lookup typeURL = some (some h) →
    h < s.registered.length
  invoked : ∀ h ∈ cancelledHandles s.trace, h < s.registered.length
  distinct : ∀ t₁ t₂ h, s.values.deltaCancellations.lookup t₁ = some (some h) →
    s.values.deltaCancellations.lookup t₂ = some (some h) → t₁ = t₂
  fresh : s.phase.live = true → ∀ typeURL h,
    s.values.deltaCancellations.lookup typeURL = some (some h) → h ∈ cancelledHandles s.trace →
    ∃ r, s.phase.Reconciling r ∧ r.typeUrl = typeURL
  once : s.phase.live = true → (cancelledHandles s.trace).Nodup
  returned : s.phase.live = false →
    ∃ h, ∀ h', (cancelledHandles s.trace).count h' ≤ if h' = h then 2 else 1

/-- Appending the handles of a disjoint list, up to one handle both invoke. -/
theorem count_append_le {invoked stored : List Nat} {h₀ : Nat} (hinvoked : invoked.Nodup)
    (hstored : stored.Nodup) (hcommon : ∀ h ∈ stored, h ∈ invoked → h = h₀) (h' : Nat) :
    (invoked ++ stored).count h' ≤ if h' = h₀ then 2 else 1 := by
  rw [List.count_append]
  have h₁ := List.nodup_iff_count_le_one.mp hinvoked h'
  have h₂ := List.nodup_iff_count_le_one.mp hstored h'
  split
  · omega
  · rename_i hne
    by_cases hin : h' ∈ invoked
    · rw [List.count_eq_zero.mpr fun hs => hne (hcommon h' hs hin)]
      omega
    · rw [List.count_eq_zero.mpr hin]
      omega

namespace CancelBooks

variable {server : Server} {d : Discipline} {defaultTypeURL : String} {s s' : Session}

theorem init (defaultTypeURL : String) (typeURLs : List String) :
    CancelBooks (Session.init server defaultTypeURL typeURLs) :=
  ⟨(fun _ _ h => nomatch h), (fun _ h => nomatch h), (fun _ _ _ h => nomatch h),
    (fun _ _ _ h => nomatch h), fun _ => .nil, (fun h => nomatch h)⟩

/-- Events that invoke no handle, with no handle stored anew and the phase
kept or moved within the same reconciliation, keep the books. -/
theorem extend (hb : CancelBooks s) (new : List Event) (htrace : s'.trace = s.trace ++ new)
    (hnew : cancelledHandles new = []) (hregistered : s'.registered = s.registered)
    (hstored : ∀ t h, s'.values.deltaCancellations.lookup t = some (some h) →
      s.values.deltaCancellations.lookup t = some (some h))
    (hlive : s'.phase.live = s.phase.live)
    (hphase : ∀ r, s.phase.Reconciling r → s'.phase.Reconciling r) : CancelBooks s' := by
  have hcancelled : cancelledHandles s'.trace = cancelledHandles s.trace := by simp [htrace, hnew]
  refine ⟨fun t h hl => hregistered ▸ hb.stored t h (hstored t h hl), fun h hh => ?_,
    fun t₁ t₂ h h₁ h₂ => hb.distinct t₁ t₂ h (hstored t₁ h h₁) (hstored t₂ h h₂),
    fun hl t h hs hh => ?_, fun hl => ?_, fun hl => ?_⟩
  · rw [hregistered]
    exact hb.invoked h (hcancelled ▸ hh)
  · obtain ⟨r, hr, ht⟩ := hb.fresh (hlive ▸ hl) t h (hstored t h hs) (hcancelled ▸ hh)
    exact ⟨r, hphase r hr, ht⟩
  · rw [hcancelled]
    exact hb.once (hlive ▸ hl)
  · rw [hcancelled]
    exact hb.returned (hlive ▸ hl)

/-- The deferred teardown invokes every stored handle: the first time for
each, but for the stored handle of the type being reconciled. -/
theorem exit (hb : CancelBooks s) (hlive : s.phase.live = true) (err : Option Error) :
    CancelBooks (s.exit server err) := by
  have hcancelled : cancelledHandles (s.exit server err).trace =
      cancelledHandles s.trace ++ s.values.cancelHandles := by
    simp [cancelledHandles_callback server .onDeltaStreamClosed rfl]
  -- the one handle both lists may hold: the one stored for the reconciled type
  obtain ⟨h₀, hcommon⟩ : ∃ h₀, ∀ h ∈ s.values.cancelHandles, h ∈ cancelledHandles s.trace →
      h = h₀ := by
    by_cases hrec : ∃ r h₀, s.phase.Reconciling r ∧
        s.values.deltaCancellations.lookup r.typeUrl = some (some h₀)
    · obtain ⟨r, h₀, hr, hl₀⟩ := hrec
      refine ⟨h₀, fun h hs hh => ?_⟩
      obtain ⟨t, hl⟩ := mem_cancelHandles.mp hs
      obtain ⟨r', hr', rfl⟩ := hb.fresh hlive t h hl hh
      have hsame : r' = r := by
        rcases hr with hr | hr <;> rcases hr' with hr' | hr' <;> rw [hr] at hr' <;>
          cases hr' <;> rfl
      subst hsame
      exact Option.some_injective _ (Option.some_injective _ (hl.symm.trans hl₀))
    · refine ⟨0, fun h hs hh => absurd ?_ hrec⟩
      obtain ⟨t, hl⟩ := mem_cancelHandles.mp hs
      obtain ⟨r, hr, rfl⟩ := hb.fresh hlive t h hl hh
      exact ⟨r, h, hr, hl⟩
  refine ⟨hb.stored, fun h hh => ?_, hb.distinct, (fun h => nomatch h), (fun h => nomatch h),
    fun _ => ⟨h₀, ?_⟩⟩
  · rw [hcancelled, List.mem_append] at hh
    rcases hh with hh | hh
    · exact hb.invoked h hh
    · obtain ⟨t, hl⟩ := mem_cancelHandles.mp hh
      exact hb.stored t h hl
  · rw [hcancelled]
    exact count_append_le (hb.once hlive) (nodup_cancelHandles hb.distinct) hcommon

/-- The request case up to reconciliation invokes no handle. -/
theorem prepared (hb : CancelBooks s) {s₁ : Session} (h : s.Prepared s₁) : CancelBooks s₁ := by
  obtain ⟨new, htrace, hnew⟩ := h.trace
  refine hb.extend new htrace ?_ h.registered (fun t h' hl => h.deltaCancellations ▸ hl)
    (by rw [h.phase]) (fun r hr => h.phase ▸ hr)
  simp only [cancelledHandles, List.filterMap_eq_nil_iff]
  intro e he
  rcases hnew e he with ⟨_, _, rfl⟩ | ⟨_, rfl⟩ <;> rfl

theorem lookup_insert_none {m : GoMap (Option Nat)} {typeURL t : String} {h : Nat}
    (hl : (m.insert typeURL none).lookup t = some (some h)) : m.lookup t = some (some h) := by
  by_cases ht : t = typeURL
  · subst ht
    simp at hl
  · rwa [AList.lookup_insert_ne ht] at hl

theorem stamp_quiet (server : Server) (req : DeltaDiscoveryRequest)
    (out : DeltaDiscoveryResponse) :
    cancelledHandles (Session.callback server (.onStreamDeltaResponse req out) ++ [.send out]) =
      [] := by
  rw [cancelledHandles_append,
    cancelledHandles_callback server (.onStreamDeltaResponse req out) rfl]
  rfl

/-- Invoking the stored handle of the requested type starts its
reconciliation. -/
theorem cancel (hb : CancelBooks s) (hphase : s.phase = .selecting)
    (prepared : DeltaDiscoveryRequest) {handle : Nat}
    (hhandle : s.values.deltaCancellations.lookup prepared.typeUrl = some (some handle)) :
    CancelBooks { s with phase := .draining prepared, trace := s.trace ++ [.cancel handle] } := by
  have hlive : s.phase.live = true := by rw [hphase]; rfl
  -- at the `select` no stored handle has been invoked
  have hnot : ∀ t h, s.values.deltaCancellations.lookup t = some (some h) →
      h ∉ cancelledHandles s.trace := fun t h hl hh => by
    obtain ⟨r, hr, -⟩ := hb.fresh hlive t h hl hh
    rcases hr with hr | hr <;> rw [hphase] at hr <;> cases hr
  have hcancelled : cancelledHandles (s.trace ++ [.cancel handle]) =
      cancelledHandles s.trace ++ [handle] := by simp [cancelledHandles]
  refine ⟨hb.stored, fun h hh => ?_, hb.distinct, fun _ t h hl hh => ?_, fun _ => ?_,
    (fun h => nomatch h)⟩
  · rw [hcancelled, List.mem_append, List.mem_singleton] at hh
    rcases hh with hh | rfl
    · exact hb.invoked h hh
    · exact hb.stored _ _ hhandle
  · rw [hcancelled, List.mem_append, List.mem_singleton] at hh
    rcases hh with hh | rfl
    · exact absurd hh (hnot t h hl)
    · exact ⟨prepared, .inl rfl, hb.distinct _ _ _ hhandle hl⟩
  · rw [hcancelled]
    exact (hb.once hlive).append (List.nodup_singleton _)
      (List.disjoint_singleton.mpr (hnot _ _ hhandle))

/-- `CreateDeltaWatch` stores a handle never stored nor invoked before, in
place of the one the reconciliation invoked. -/
theorem register (hb : CancelBooks s) {r : DeltaDiscoveryRequest}
    (hphase : s.phase = .registering r) : CancelBooks (s.register r) := by
  have hlive : s.phase.live = true := by rw [hphase]; rfl
  -- the new handle and the ones stored before it
  have hlookup : ∀ t h, (s.register r).values.deltaCancellations.lookup t = some (some h) →
      t = r.typeUrl ∧ h = s.registered.length ∨
        t ≠ r.typeUrl ∧ s.values.deltaCancellations.lookup t = some (some h) := by
    intro t h hl
    by_cases ht : t = r.typeUrl
    · subst ht
      simp [Session.register] at hl
      exact .inl ⟨rfl, hl.symm⟩
    · rw [Session.register, AList.lookup_insert_ne ht] at hl
      exact .inr ⟨ht, hl⟩
  have hlength : (s.register r).registered.length = s.registered.length + 1 := by
    simp [Session.register]
  have hcancelled : cancelledHandles (s.register r).trace = cancelledHandles s.trace := by
    simp [Session.register, cancelledHandles]
  refine ⟨fun t h hl => ?_, fun h hh => ?_, fun t₁ t₂ h h₁ h₂ => ?_, fun _ t h hl hh => ?_,
    fun _ => hcancelled ▸ hb.once hlive, (fun h => nomatch h)⟩
  · rw [hlength]
    rcases hlookup t h hl with ⟨-, rfl⟩ | ⟨-, hl⟩
    · omega
    · have := hb.stored t h hl
      omega
  · rw [hlength]
    have := hb.invoked h (hcancelled ▸ hh)
    omega
  · rcases hlookup t₁ h h₁ with ⟨rfl, rfl⟩ | ⟨-, hl₁⟩ <;>
      rcases hlookup t₂ _ h₂ with ⟨rfl, hh⟩ | ⟨-, hl₂⟩
    · rfl
    · have := hb.stored t₂ _ hl₂
      omega
    · have := hb.stored t₁ _ hl₁
      omega
    · exact hb.distinct t₁ t₂ _ hl₁ hl₂
  · -- the new handle was never invoked, and the old ones of other types were not either
    rw [hcancelled] at hh
    rcases hlookup t h hl with ⟨-, rfl⟩ | ⟨ht, hl⟩
    · exact absurd (hb.invoked _ hh) (lt_irrefl _)
    · obtain ⟨r', hr', rfl⟩ := hb.fresh hlive t h hl hh
      rcases hr' with hr' | hr' <;> rw [hphase] at hr' <;> cases hr'
      exact absurd rfl ht

theorem live_of_receives {next : Phase} (hnext : Receives s next) : s.phase.live = true := by
  rcases hnext with ⟨hp, -⟩ | ⟨r, hp, -⟩ <;> rw [hp] <;> rfl

theorem phase_of_receives {next : Phase} (hnext : Receives s next) : next = s.phase := by
  rcases hnext with ⟨hp, rfl⟩ | ⟨r, hp, rfl⟩ <;> exact hp.symm

/-- From a phase that reconciles nothing, any phase change keeps the books. -/
theorem not_reconciling {phase : Phase} (hphase : phase = .opening ∨ phase = .selecting)
    (r : DeltaDiscoveryRequest) (hr : phase.Reconciling r) {phase' : Phase} :
    phase'.Reconciling r := by
  rcases hphase with hp | hp <;> rcases hr with hr | hr <;> rw [hp] at hr <;> cases hr

/-- Every transition keeps the books. -/
theorem transition (hb : CancelBooks s) (ht : Transition server d defaultTypeURL s s') :
    CancelBooks s' := by
  cases ht with
  | opened hphase =>
    exact hb.extend _ rfl (cancelledHandles_callback server _ rfl) rfl (fun _ _ h => h)
      (by rw [hphase]; rfl) fun r hr => not_reconciling (.inl hphase) r hr
  | openFailed err hphase =>
    refine CancelBooks.exit ?_ ?_ _
    · exact hb.extend [.onDeltaStreamOpen] rfl rfl rfl (fun _ _ h => h) rfl fun _ hr => hr
    · show s.phase.live = true
      rw [hphase]
      rfl
  | emit watch response =>
    exact hb.extend [.emit watch response] rfl rfl rfl (fun _ _ h => h) rfl fun _ hr => hr
  | exit err hphase => exact hb.exit (by rw [hphase]; rfl) err
  | rejected req accepted s₁ err hphase hprepare =>
    have h₁ := Session.prepared_of_prepare server hprepare
    exact (hb.prepared h₁).exit (by rw [h₁.phase, hphase]; rfl) _
  | ignored req accepted s₁ prepared hphase hprepare =>
    have h₁ := Session.prepared_of_prepare server hprepare
    exact (hb.prepared h₁).extend [] (List.append_nil _).symm rfl rfl (fun _ _ h => h)
      (by rw [h₁.phase, hphase]) fun r hr => not_reconciling (.inr (h₁.phase.trans hphase)) r hr
  | cancelled req accepted s₁ prepared handle hphase hprepare _ hhandle =>
    have h₁ := Session.prepared_of_prepare server hprepare
    exact (hb.prepared h₁).cancel (h₁.phase.trans hphase) prepared hhandle
  | uncancelled req accepted s₁ prepared hphase hprepare =>
    have h₁ := Session.prepared_of_prepare server hprepare
    exact (hb.prepared h₁).extend [] (List.append_nil _).symm rfl rfl (fun _ _ h => h)
      (by rw [h₁.phase, hphase]; rfl)
      fun r hr => not_reconciling (.inr (h₁.phase.trans hphase)) r hr
  | unsent e ch next err hnext =>
    refine CancelBooks.exit ?_ ?_ _
    · exact hb.extend [] (List.append_nil _).symm rfl rfl (fun _ _ h => h) rfl fun _ hr => hr
    · exact live_of_receives hnext
  | sendFailed e ch next r out err hnext =>
    refine CancelBooks.exit ?_ ?_ _
    · exact hb.extend _ (List.append_assoc ..) (stamp_quiet ..) rfl (fun _ _ h => h) rfl
        fun _ hr => hr
    · exact live_of_receives hnext
  | updateFailed e ch next r out state err hnext =>
    refine CancelBooks.exit ?_ ?_ _
    · exact hb.extend _ (List.append_assoc ..) (stamp_quiet ..) rfl
        (fun _ _ hl => lookup_insert_none hl) rfl fun _ hr => hr
    · exact live_of_receives hnext
  | processed e ch next r out state hnext =>
    refine hb.extend
      (Session.callback server (.onStreamDeltaResponse r.deltaRequest (s.stamped out)) ++
        [.send (s.stamped out)] ++ [.processed r (s.stamped out).nonce]) (by simp) ?_ rfl
      (fun _ _ hl => lookup_insert_none hl) ?_ fun _ hr => ?_
    · rw [cancelledHandles_append, stamp_quiet]
      rfl
    · rw [phase_of_receives hnext]
    · rwa [phase_of_receives hnext]
  | drained req hphase =>
    refine hb.extend [] (List.append_nil _).symm rfl rfl (fun _ _ h => h) (by rw [hphase]; rfl)
      fun r hr => ?_
    rcases hr with hr | hr <;> rw [hphase] at hr <;> cases hr
    exact .inr rfl
  | register req hphase => exact hb.register hphase

end CancelBooks

variable {server : Server} {d : Discipline} {defaultTypeURL : String} {typeURLs : List String}

theorem cancelBooks_reachable {s : Session} (hs : Reachable server d defaultTypeURL typeURLs s) :
    CancelBooks s :=
  reachable_induction server d defaultTypeURL typeURLs (.init defaultTypeURL typeURLs)
    (fun _ _ _ hb ht => hb.transition ht) hs

/-- Against any cache, in every run of the muxed processor: only handles the
cache returned are invoked; until `processDelta` returns none was invoked
twice; and at any time at most one handle was invoked twice and none more
often. -/
theorem cancels_at_most_once {s : Session} (hs : Reachable server d defaultTypeURL typeURLs s) :
    (∀ h ∈ cancelledHandles s.trace, h < s.registered.length) ∧
      (s.phase.live = true → (cancelledHandles s.trace).Nodup) ∧
      ∃ h, ∀ h', (cancelledHandles s.trace).count h' ≤ if h' = h then 2 else 1 := by
  have hb := cancelBooks_reachable hs
  refine ⟨hb.invoked, hb.once, ?_⟩
  cases hlive : s.phase.live
  · exact hb.returned hlive
  · refine ⟨0, fun h' => ?_⟩
    have := List.nodup_iff_count_le_one.mp (hb.once hlive) h'
    split <;> omega

/-- A stream of type `"c"` asks twice for `"c"` before any response: the second
request invokes watch 0 and drains an empty channel, and the teardown invokes
watch 1. -/
def rerequest : List Action :=
  [.openStream (.ok ()), .request (some (subscription "c")) (.ok ()), .register,
    .request (some (subscription "c")) (.ok ()), .drain (.ok ()), .register, .done]

/-- Against a cache that sends at will, each handle of the rerequested stream
is invoked once. -/
theorem rerequest_cancels_once : ∃ s, plainRun .unrestricted rerequest = some s ∧
    cancelledHandles s.trace = [0, 1] ∧
    ((∀ h ∈ cancelledHandles s.trace, h < s.registered.length) ∧
      (s.phase.live = true → (cancelledHandles s.trace).Nodup) ∧
      ∃ h, ∀ h', (cancelledHandles s.trace).count h' ≤ if h' = h then 2 else 1) := by
  obtain ⟨s, hrun, hcancelled⟩ : ∃ s, plainRun .unrestricted rerequest = some s ∧
      cancelledHandles s.trace = [0, 1] := ⟨_, rfl, rfl⟩
  exact ⟨s, hrun, hcancelled, cancels_at_most_once (reachable_of_plainRun hrun)⟩

end ControlPlane.Delta
