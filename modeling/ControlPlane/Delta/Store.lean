import ControlPlane.Delta.Step

/-!
The stream-state store of the muxed delta processor against the stream's
history. `process` is the only writer of `deltaNonces` and of whole
`deltaStreamStates` entries, and the unsubscribe step edits an entry's version
map in place. So while the processor runs, a type URL's entries are fixed by
the last response processed for it and by the names unsubscribed for it since:
both maps hold that response's nonce, and the stored state holds its system
version and its version map less those names. Before any response for the type
URL, the nonce map has no entry and the stored state, if any, is empty. The
nonce `process` records is the one `send` stamped on the response it handed to
`Send` just before.
-/

namespace ControlPlane.Delta

/-- One event's effect on the history of `typeURL`: the last response processed
for it, with its nonce, and the names unsubscribed for it since. -/
def replay (typeURL : String) (acc : Option (DeltaResponse × String × List String)) :
    Event → Option (DeltaResponse × String × List String)
  | .processed resp nonce =>
    if resp.deltaRequest.typeUrl = typeURL then some (resp, nonce, []) else acc
  | .unsubscribed t names =>
    if t = typeURL then acc.map fun (resp, nonce, gone) => (resp, nonce, gone ++ names) else acc
  | _ => acc

/-- The history of `typeURL` in a trace. -/
def lastProcessed (typeURL : String) (trace : List Event) :
    Option (DeltaResponse × String × List String) :=
  trace.foldl (replay typeURL) none

/-- The responses `process` handled for `typeURL`, with their nonces, in order. -/
def processedFor (typeURL : String) (trace : List Event) : List (DeltaResponse × String) :=
  trace.filterMap fun
    | .processed resp nonce =>
      if resp.deltaRequest.typeUrl = typeURL then some (resp, nonce) else none
    | _ => none

/-- The names the unsubscribe steps removed for `typeURL`, in order. -/
def unsubscribedFor (typeURL : String) (trace : List Event) : List String :=
  (trace.filterMap fun
    | .unsubscribed t names => if t = typeURL then some names else none
    | _ => none).flatten

@[simp] theorem processedFor_append (typeURL : String) (trace new : List Event) :
    processedFor typeURL (trace ++ new) = processedFor typeURL trace ++ processedFor typeURL new :=
  List.filterMap_append ..

@[simp] theorem unsubscribedFor_append (typeURL : String) (trace new : List Event) :
    unsubscribedFor typeURL (trace ++ new) =
      unsubscribedFor typeURL trace ++ unsubscribedFor typeURL new := by
  simp [unsubscribedFor, List.filterMap_append]

/-- What the store holds for `typeURL` given its history. -/
def StoreAgrees (values : Watches) (typeURL : String) :
    Option (DeltaResponse × String × List String) → Prop
  | none => values.deltaNonces.lookup typeURL = none ∧
      ∀ state, values.deltaStreamStates.lookup typeURL = some state → state = emptyStreamState
  | some (resp, nonce, gone) => values.deltaNonces.lookup typeURL = some nonce ∧
      ∃ sv vm, resp.systemVersion = .ok sv ∧ resp.deltaVersionMap = .ok vm ∧
        values.deltaStreamStates.lookup typeURL = some ⟨nonce, sv, unsubscribe gone vm⟩

/-- Every response `process` handled was handed to `Send`, with the nonce
`process` records, by the event just before. -/
def SentBefore (trace : List Event) : Prop :=
  ∀ pre resp nonce post, trace = pre ++ .processed resp nonce :: post →
    ∃ pre', pre = pre' ++ [.send ⟨nonce⟩]

/-- The store agrees with the history of every type URL, and every processed
response was sent just before. -/
structure StoreMatches (s : Session) : Prop where
  agrees : ∀ typeURL, StoreAgrees s.values typeURL (lastProcessed typeURL s.trace)
  sent : SentBefore s.trace

/-- Whether an event bears on the store's history. -/
def Event.touchesStore : Event → Bool
  | .processed _ _ | .unsubscribed _ _ => true
  | _ => false

theorem lastProcessed_append (typeURL : String) (trace new : List Event) :
    lastProcessed typeURL (trace ++ new) =
      new.foldl (replay typeURL) (lastProcessed typeURL trace) :=
  List.foldl_append ..

theorem foldl_replay_quiet (typeURL : String) (acc : Option (DeltaResponse × String × List String))
    {new : List Event} (hnew : ∀ e ∈ new, e.touchesStore = false) :
    new.foldl (replay typeURL) acc = acc := by
  induction new generalizing acc with
  | nil => rfl
  | cons e rest ih =>
    have he := hnew e (List.mem_cons_self _ _)
    rw [List.foldl_cons, ih _ fun e' he' => hnew e' (List.mem_cons_of_mem _ he')]
    cases e <;> first | rfl | cases he

theorem storeAgrees_congr {values values' : Watches} {typeURL : String}
    {history : Option (DeltaResponse × String × List String)}
    (hnonces : values'.deltaNonces.lookup typeURL = values.deltaNonces.lookup typeURL)
    (hstates : values'.deltaStreamStates.lookup typeURL = values.deltaStreamStates.lookup typeURL)
    (h : StoreAgrees values typeURL history) : StoreAgrees values' typeURL history := by
  rcases history with _ | ⟨resp, nonce, gone⟩ <;> simpa [StoreAgrees, hnonces, hstates] using h

/-- No history for `typeURL`: no response for it was processed. -/
theorem lastProcessed_eq_none {typeURL : String} {trace : List Event}
    (h : lastProcessed typeURL trace = none) : processedFor typeURL trace = [] := by
  induction trace using List.reverseRecOn with
  | nil => rfl
  | append_singleton trace e ih =>
    rw [lastProcessed_append, List.foldl_cons, List.foldl_nil] at h
    rcases hlast : lastProcessed typeURL trace with _ | ⟨resp, nonce, gone⟩ <;> rw [hlast] at h
    · cases e <;> simp_all [replay, processedFor]
    · -- a history never becomes empty again
      cases e <;> simp only [replay] at h <;> (try split at h) <;> simp at h

/-- The history `lastProcessed` folds, read off the trace: the last response
processed for `typeURL`, followed by the events `post`, in which no other was
and the unsubscribe steps for `typeURL` removed `gone`. -/
theorem lastProcessed_eq_some {typeURL : String} {trace : List Event} {resp : DeltaResponse}
    {nonce : String} {gone : List String}
    (h : lastProcessed typeURL trace = some (resp, nonce, gone)) :
    ∃ pre post, trace = pre ++ .processed resp nonce :: post ∧
      resp.deltaRequest.typeUrl = typeURL ∧ processedFor typeURL post = [] ∧
      gone = unsubscribedFor typeURL post := by
  induction trace using List.reverseRecOn generalizing gone with
  | nil => cases h
  | append_singleton trace e ih =>
    rw [lastProcessed_append, List.foldl_cons, List.foldl_nil] at h
    -- an event that is no response for the type keeps the response and extends `post`
    have hlater
        (hacc : replay typeURL (lastProcessed typeURL trace) e = lastProcessed typeURL trace)
        (hp : processedFor typeURL [e] = []) (hu : unsubscribedFor typeURL [e] = []) :
        ∃ pre post, trace ++ [e] = pre ++ .processed resp nonce :: post ∧
          resp.deltaRequest.typeUrl = typeURL ∧ processedFor typeURL post = [] ∧
          gone = unsubscribedFor typeURL post := by
      obtain ⟨pre, post, rfl, htype, hpost, rfl⟩ := ih (hacc ▸ h)
      exact ⟨pre, post ++ [e], by simp, htype, by simp [hpost, hp], by simp [hu]⟩
    cases e with
    | processed r n =>
      by_cases ht : r.deltaRequest.typeUrl = typeURL
      · simp only [replay, if_pos ht, Option.some.injEq, Prod.mk.injEq] at h
        obtain ⟨rfl, rfl, rfl⟩ := h
        exact ⟨trace, [], rfl, ht, rfl, rfl⟩
      · exact hlater (by simp [replay, ht]) (by simp [processedFor, ht]) rfl
    | unsubscribed t names =>
      by_cases ht : t = typeURL
      · -- the names join those removed since the response
        simp only [replay, if_pos ht] at h
        obtain ⟨⟨resp', nonce', gone'⟩, hlast, heq⟩ := Option.map_eq_some'.mp h
        obtain ⟨rfl, rfl, rfl⟩ : resp' = resp ∧ nonce' = nonce ∧ gone' ++ names = gone := by
          simpa using heq
        obtain ⟨pre, post, rfl, htype, hpost, rfl⟩ := ih hlast
        exact ⟨pre, post ++ [.unsubscribed t names], by simp, htype,
          by rw [processedFor_append, hpost]; rfl, by simp [unsubscribedFor, ht]⟩
      · exact hlater (by simp [replay, ht]) rfl (by simp [unsubscribedFor, ht])
    | _ => exact hlater rfl rfl rfl

theorem sentBefore_nil : SentBefore [] := fun pre _ _ _ h => by simp at h

/-- Events that are no processed response keep every processed response after
its send. -/
theorem SentBefore.append {trace : List Event} (h : SentBefore trace) {new : List Event}
    (hnew : ∀ resp nonce, Event.processed resp nonce ∉ new) : SentBefore (trace ++ new) := by
  intro pre resp nonce post heq
  rcases List.append_eq_append_iff.mp heq with ⟨a', -, hnew'⟩ | ⟨c', htrace, hc⟩
  · exact absurd (hnew' ▸ List.mem_append_right _ (List.mem_cons_self _ _)) (hnew resp nonce)
  · rcases c' with _ | ⟨e, c''⟩
    · rw [List.nil_append] at hc
      exact absurd (hc ▸ List.mem_cons_self _ _) (hnew resp nonce)
    · obtain ⟨rfl, -⟩ := List.cons.inj hc
      exact h pre resp nonce c'' htrace

/-- `process` records a response right after handing it to `Send`. -/
theorem SentBefore.processed {trace : List Event} (h : SentBefore trace) (resp : DeltaResponse)
    (nonce : String) : SentBefore (trace ++ [.send ⟨nonce⟩, .processed resp nonce]) := by
  intro pre resp' nonce' post heq
  rcases List.eq_nil_or_concat post with rfl | ⟨post', e, rfl⟩
  · have heq : trace ++ [.send ⟨nonce⟩] ++ [.processed resp nonce] =
        pre ++ [.processed resp' nonce'] := by simpa using heq
    obtain ⟨hpre, he⟩ := List.append_inj' heq rfl
    obtain ⟨-, rfl⟩ : resp = resp' ∧ nonce = nonce' := by simpa using he
    exact ⟨trace, hpre.symm⟩
  · have heq : trace ++ [.send ⟨nonce⟩] ++ [.processed resp nonce] =
        pre ++ .processed resp' nonce' :: post' ++ [e] := by simpa using heq
    obtain ⟨heq, -⟩ := List.append_inj' heq rfl
    have hsend : SentBefore (trace ++ [.send ⟨nonce⟩]) := h.append fun _ _ he => by simp at he
    exact hsend pre resp' nonce' post' heq

/-- Appending events that do not bear on the store keeps the agreement, for any
values with the same two maps. -/
theorem StoreMatches.extend {s s' : Session} (h : StoreMatches s) (new : List Event)
    (htrace : s'.trace = s.trace ++ new) (hnew : ∀ e ∈ new, e.touchesStore = false)
    (hnonces : s'.values.deltaNonces = s.values.deltaNonces)
    (hstates : s'.values.deltaStreamStates = s.values.deltaStreamStates) : StoreMatches s' := by
  refine ⟨fun typeURL => ?_, htrace ▸ h.sent.append fun _ _ he => by cases hnew _ he⟩
  rw [htrace, lastProcessed_append, foldl_replay_quiet _ _ hnew]
  exact storeAgrees_congr (by rw [hnonces]) (by rw [hstates]) (h.agrees typeURL)

theorem StoreMatches.unsubscribeStep {s : Session} (h : StoreMatches s)
    (req : DeltaDiscoveryRequest) : StoreMatches (s.unsubscribeStep req) := by
  unfold Session.unsubscribeStep
  split
  · refine ⟨fun typeURL => ?_, h.sent.append fun _ _ he => by simp at he⟩
    simp only [lastProcessed_append, List.foldl_cons, List.foldl_nil]
    have ht := h.agrees typeURL
    unfold Watches.unsubscribe
    by_cases hsame : req.typeUrl = typeURL
    · subst hsame
      rcases hlast : lastProcessed req.typeUrl s.trace with _ | ⟨resp, nonce, gone⟩ <;>
        rw [hlast] at ht <;> obtain ⟨hnonce, hstate⟩ := ht <;>
        simp only [replay, if_pos, Option.map_none', Option.map_some', StoreAgrees]
      · split
        · rename_i state hlookup
          refine ⟨hnonce, fun state' hstate' => ?_⟩
          simp only [AList.lookup_insert, Option.some.injEq] at hstate'
          subst hstate'
          rw [hstate state hlookup]
          simp [emptyStreamState, unsubscribe_empty]
        · exact ⟨hnonce, hstate⟩
      · obtain ⟨sv, vm, hsv, hvm, hlookup⟩ := hstate
        simp only [hlookup, AList.lookup_insert]
        exact ⟨hnonce, sv, vm, hsv, hvm, by rw [unsubscribe_append]⟩
    · simp only [replay, if_neg hsame]
      split <;> simpa [StoreAgrees, AList.lookup_insert_ne (Ne.symm hsame)] using ht
  · exact h

theorem storeMatches_init (server : Server) (defaultTypeURL : String) (typeURLs : List String) :
    StoreMatches (Session.init server defaultTypeURL typeURLs) :=
  ⟨fun _ => ⟨rfl, fun _ h => lookup_initStreamState h⟩, sentBefore_nil⟩

/-- `process` storing a response it has just sent. -/
theorem StoreMatches.processed {s s' : Session} (h : StoreMatches s) (resp : DeltaResponse)
    (nonce : String) (state : StreamState) (hupdate : update resp nonce = (state, none))
    (hsent : ∃ pre, s.trace = pre ++ [.send ⟨nonce⟩])
    (htrace : s'.trace = s.trace ++ [.processed resp nonce])
    (hnonces : s'.values.deltaNonces = s.values.deltaNonces.insert resp.deltaRequest.typeUrl nonce)
    (hstates : s'.values.deltaStreamStates =
      s.values.deltaStreamStates.insert resp.deltaRequest.typeUrl state) :
    StoreMatches s' := by
  obtain ⟨sv, vm, hsv, hvm, rfl⟩ := update_eq_none hupdate
  obtain ⟨pre, hpre⟩ := hsent
  refine ⟨fun typeURL => ?_, ?_⟩
  · rw [htrace, lastProcessed_append, List.foldl_cons, List.foldl_nil]
    by_cases hsame : resp.deltaRequest.typeUrl = typeURL
    · subst hsame
      simp only [replay, if_pos, StoreAgrees, hnonces, hstates, AList.lookup_insert]
      exact ⟨trivial, sv, vm, hsv, hvm, rfl⟩
    · simp only [replay, if_neg hsame]
      exact storeAgrees_congr (by rw [hnonces, AList.lookup_insert_ne (Ne.symm hsame)])
        (by rw [hstates, AList.lookup_insert_ne (Ne.symm hsame)]) (h.agrees typeURL)
  · -- the send is the last event of `pre ++ [send]`, which is a prefix of the trace
    have hpre' : SentBefore pre := fun p r n q hq =>
      h.sent p r n (q ++ [.send ⟨nonce⟩]) (by rw [hpre, hq]; simp)
    rw [htrace, hpre, List.append_assoc]
    exact hpre'.processed resp nonce

variable {server : Server} {d : Discipline} {defaultTypeURL : String} {typeURLs : List String}

theorem StoreMatches.prepare {s s₁ : Session} (h : StoreMatches s) {req : DeltaDiscoveryRequest}
    {accepted : Except String Unit} {res : Except Error DeltaDiscoveryRequest}
    (hprepare : s.prepare server defaultTypeURL req accepted = (s₁, res)) : StoreMatches s₁ := by
  have h₁ : StoreMatches (s.prepare server defaultTypeURL req accepted).1 :=
    Session.prepare_preserves server defaultTypeURL (fun _ _ h => ⟨h.1, h.2⟩)
      (fun _ req h => StoreMatches.unsubscribeStep h req)
      (fun _ _ h => h.extend [_] rfl (by simp [Event.touchesStore]) rfl rfl) h
  rwa [hprepare] at h₁

theorem StoreMatches.stamp {s : Session} (h : StoreMatches s) (req : DeltaDiscoveryRequest)
    (out : DeltaDiscoveryResponse) : StoreMatches (s.stamp server req out) := by
  refine h.extend _ (by rw [Session.stamp_trace, List.append_assoc]) ?_ rfl rfl
  unfold Session.callback
  split <;> simp [Event.touchesStore]

/-- While the processor has not returned, every transition keeps the store in
agreement with the history. -/
theorem StoreMatches.transition {s s' : Session} (h : s.phase.live → StoreMatches s)
    (ht : Transition server d defaultTypeURL s s') : s'.phase.live → StoreMatches s' := by
  intro hlive
  have hrun (hp : s.phase.running) : StoreMatches s :=
    h (by revert hp; cases s.phase <;> simp [Phase.running, Phase.live])
  cases ht with
  | opened hphase =>
    refine (h (by simp [hphase, Phase.live])).extend _ rfl ?_ rfl rfl
    unfold Session.callback
    split <;> simp [Event.touchesStore]
  | emit watch response =>
    exact (h hlive).extend [.emit watch response] rfl (by simp [Event.touchesStore]) rfl rfl
  | ignored req accepted s₁ _ hphase hprepare | uncancelled req accepted s₁ _ hphase hprepare =>
    have h₁ := (hrun (by simp [hphase, Phase.running])).prepare hprepare
    exact ⟨h₁.1, h₁.2⟩
  | cancelled req accepted s₁ _ handle hphase hprepare =>
    exact ((hrun (by simp [hphase, Phase.running])).prepare hprepare).extend [.cancel handle] rfl
      (by simp [Event.touchesStore]) rfl rfl
  | processed e ch next r out state hnext _ _ _ hupdate =>
    have h₁ := hrun hnext.running.1
    exact (StoreMatches.stamp (s := s.popped ch) ⟨h₁.1, h₁.2⟩ _ _).processed r _ state
      hupdate ⟨_, rfl⟩ rfl rfl rfl
  | drained =>
    have h₁ := h (by simp_all [Phase.live])
    exact ⟨h₁.1, h₁.2⟩
  | register req hphase =>
    exact (h (by simp [hphase, Phase.live])).extend [_] rfl (by simp [Event.touchesStore]) rfl rfl
  | openFailed | exit | rejected | unsent | sendFailed | updateFailed =>
    simp [Phase.live] at hlive

/-- In every reachable session in which `processDelta` has not returned, the
store agrees with the history of every type URL. -/
theorem storeMatches_reachable {s : Session} (hs : Reachable server d defaultTypeURL typeURLs s)
    (hlive : s.phase.live) : StoreMatches s :=
  reachable_induction server d defaultTypeURL typeURLs (P := fun s => s.phase.live → StoreMatches s)
    (fun _ => storeMatches_init server defaultTypeURL typeURLs)
    (fun _ _ _ h ht => StoreMatches.transition h ht) hs hlive

/-- The version map `{a: 1}`. -/
def versionsOfA : VersionMap := (∅ : VersionMap).insert "a" "1"

/-- The version map `{a: 1, b: 1}`. -/
def versionsOfAB : VersionMap := versionsOfA.insert "b" "1"

/-- The watch for `"c"` answers with versions for `"a"` and `"b"`; the answer
is processed, and the next request acknowledges it and unsubscribes from `"a"`. -/
def unsubscribedAnswer : List Action :=
  [.openStream (.ok ()), .request (some (subscription "c")) (.ok ()), .register,
    .emit 0 (some (answer (watched "c") versionsOfAB)), .respond (.ok ()),
    .request (some { subscription "c" with
      responseNonce := "1", resourceNamesUnsubscribe := ["a"] }) (.ok ()),
    .register]

/-- The watch for `"c"` answers with a version for `"a"` and, before the answer
is processed, a request for `"c"` unsubscribes from `"a"`. -/
def staleUnsubscribe : List Action :=
  [.openStream (.ok ()), .request (some (subscription "c")) (.ok ()), .register,
    .emit 0 (some (answer (watched "c") versionsOfA)),
    .request (some { subscription "c" with resourceNamesUnsubscribe := ["a"] }) (.ok ()),
    .drain (.ok ()), .drain (.ok ()), .register]

/-- The drain after the unsubscribe step stores the waiting answer, and the new
watch is created with `"a"` back in its version map. -/
theorem staleUnsubscribe_restores_name : ∃ s, plainRun .prompt staleUnsubscribe = some s ∧
    ∃ state, s.trace.getLast? =
      some (.createDeltaWatch { watched "c" with resourceNamesUnsubscribe := ["a"] } state 1) ∧
      state.resourceVersions.lookup "a" = some "1" :=
  ⟨_, rfl, _, rfl, rfl⟩

/-! ### A failed `update`

`update` fails after `process` has recorded the nonce and a nil handle and taken
the write lock, and the zero state it returns is stored before the error is
returned. -/

/-- A sent response whose system version or version map cannot be read:
`process` returns the error with the write lock still held, the new nonce and a
nil handle recorded for the type URL, and the zero state stored in place of the
old one. -/
theorem update_failure_keeps_lock (s : Session) {r : DeltaResponse}
    {out : DeltaDiscoveryResponse}
    (hout : r.deltaDiscoveryResponse = .ok out)
    (hfail : ∀ sv vm, r.systemVersion = .ok sv → r.deltaVersionMap ≠ .ok vm) :
    ∃ s' err, s.process server (some r) (.ok ()) = (s', some err) ∧ s'.values.locked = true ∧
      s'.values.deltaNonces.lookup r.deltaRequest.typeUrl =
        some (formatInt (nextNonce s.streamNonce)) ∧
      s'.values.deltaCancellations.lookup r.deltaRequest.typeUrl = some none ∧
      s'.values.deltaStreamStates.lookup r.deltaRequest.typeUrl = some .zero := by
  obtain ⟨err, hupdate⟩ :
      ∃ err, update r (formatInt (nextNonce s.streamNonce)) = (.zero, some err) := by
    unfold update
    split
    · exact ⟨_, rfl⟩
    · exact ⟨_, rfl⟩
    · exact absurd ‹_› (hfail _ _ ‹_›)
  refine ⟨{ s.stamp server r.deltaRequest (s.stamped out) with
      values := { s.values.record r.deltaRequest.typeUrl (s.stamped out).nonce .zero with
        locked := true } }, err, ?_, rfl, ?_⟩
  · simp [Session.process, Session.send, hout, hupdate]
  · simp [Watches.record]

/-- A response whose system version cannot be read. -/
def versionless (req : DeltaDiscoveryRequest) : DeltaResponse :=
  ⟨req, .ok ⟨""⟩, .error "no system version", .ok ∅⟩

/-- At the start of a stream the lock is free and no nonce is recorded; a
versionless response leaves the lock held and the nonce `"1"` recorded. -/
theorem versionless_locks :
    (Session.init plainServer "c" []).values.locked = false ∧
      (Session.init plainServer "c" []).values.deltaNonces.lookup "c" = none ∧
      ∃ s' err, (Session.init plainServer "c" []).process plainServer
          (some (versionless (watched "c"))) (.ok ()) = (s', some err) ∧
        s'.values.locked = true ∧
        s'.values.deltaNonces.lookup "c" = some "1" ∧
        s'.values.deltaCancellations.lookup "c" = some none ∧
        s'.values.deltaStreamStates.lookup "c" = some .zero :=
  ⟨rfl, rfl, update_failure_keeps_lock _ rfl fun _ _ h => nomatch h⟩

/-! ### The write lock while the processor runs -/

/-- Every transition that leaves the processor running leaves `values.mu` as
it was or releases it. -/
theorem Transition.unlocked {s s' : Session} (h : s.phase.live = true → s.values.locked = false)
    (ht : Transition server d defaultTypeURL s s') :
    s'.phase.live = true → s'.values.locked = false := by
  intro hlive
  cases ht with
  | opened hphase => exact h (by rw [hphase]; rfl)
  | emit => exact h hlive
  | ignored _ _ _ _ hphase hprepare | cancelled _ _ _ _ _ hphase hprepare
  | uncancelled _ _ _ _ hphase hprepare =>
    exact (Session.prepared_of_prepare server hprepare).locked.trans (h (by rw [hphase]; rfl))
  | processed => rfl
  | drained _ hphase | register _ hphase => exact h (by rw [hphase]; rfl)
  | openFailed | exit | rejected | unsent | sendFailed | updateFailed => nomatch hlive

/-- While `processDelta` runs, `values.mu` is not held for writing: the lock a
failed update keeps is held only once `processDelta` has returned, so the read
lock around `CreateDeltaWatch` never waits on it. -/
theorem unlocked_while_running {s : Session} (hs : Reachable server d defaultTypeURL typeURLs s)
    (hlive : s.phase.live = true) : s.values.locked = false :=
  reachable_induction server d defaultTypeURL typeURLs
    (P := fun s => s.phase.live = true → s.values.locked = false)
    (fun _ => rfl) (fun _ _ _ h ht => ht.unlocked h) hs hlive

/-- A stream of type `"c"` whose first watch answers and whose response is
processed. -/
def answeredStream : List Action :=
  [.openStream (.ok ()), .request (some (subscription "c")) (.ok ()), .register,
    .emit 0 (some (answer (watched "c") ∅)), .respond (.ok ())]

/-- After the processed response the processor runs with the lock free. -/
theorem answeredStream_unlocked : ∃ s, plainRun .prompt answeredStream = some s ∧
    s.phase.live = true ∧ s.values.locked = false := by
  obtain ⟨s, hrun, hlive⟩ : ∃ s, plainRun .prompt answeredStream = some s ∧
      s.phase.live = true := ⟨_, rfl, rfl⟩
  exact ⟨s, hrun, hlive, unlocked_while_running (reachable_of_plainRun hrun) hlive⟩

end ControlPlane.Delta
