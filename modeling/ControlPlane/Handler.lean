import ControlPlane.Nodes

/-!
The stream handlers that run a delta processor: `DeltaStreamHandler` of
pkg/server/delta/v2 and `deltaHandler` of pkg/server/v2, which are the same
code. Each makes an unbuffered `reqCh` and an `int32` flag `reqStop`, starts a
reader goroutine, runs `processDelta` and, once it returns, stores `1` in
`reqStop`. The reader loops: `Recv`, load `reqStop` and return if it is set,
close `reqCh` and return on a `Recv` error, else send the request on `reqCh`.

The reader and the processor interleave; a send on the unbuffered `reqCh` is a
rendezvous with the processor's receive. The flag is loaded before the send,
so a processor that returns between the load and the send, or while the reader
is blocked on it, leaves the reader blocked for good: nothing will ever receive
from `reqCh` again.
-/

namespace ControlPlane

/-- How a processor step uses `reqCh`. -/
inductive ReqUse where
  | idle
  /-- receives this request -/
  | take (req : Option DeltaDiscoveryRequest)
  /-- finds the channel closed -/
  | closed

/-- A delta processor as the handler sees it: its steps, whether it has
returned, and how each step uses `reqCh`. A returned processor stays returned
and never touches `reqCh` again. -/
structure Processor (σ α : Type) where
  step : σ → α → Option σ
  returned : σ → Bool
  uses : α → ReqUse
  returned_step : ∀ {s s' a}, returned s = true → step s a = some s' → returned s' = true
  returned_idle : ∀ {s s' a}, returned s = true → step s a = some s' → uses a = .idle

namespace Processor

variable {σ α : Type} (P : Processor σ α)

/-- The states the processor's own steps lead to from `s₀`. -/
inductive Reaches (s₀ : σ) : σ → Prop
  | refl : Reaches s₀ s₀
  | step {s s' : σ} {a : α} : Reaches s₀ s → P.step s a = some s' → Reaches s₀ s'

end Processor

/-- Where the reader goroutine is. -/
inductive Reader where
  /-- in `Recv` -/
  | receiving
  /-- `Recv` returned; `reqStop` is loaded next -/
  | loading (result : Except String (Option DeltaDiscoveryRequest))
  /-- blocked on `reqCh <- req` -/
  | sending (req : Option DeltaDiscoveryRequest)
  | exited
  deriving DecidableEq

/-- A handler call: the processor, the reader, whether `reqCh` is closed, and
whether `reqStop` is set. -/
structure Handler (σ : Type) where
  processor : σ
  reader : Reader
  closed : Bool
  reqStop : Bool

/-- One atomic step of the handler's goroutines. -/
inductive HandlerAction (α : Type) where
  /-- the reader's `Recv` returns `result` -/
  | recv (result : Except String (Option DeltaDiscoveryRequest))
  /-- the reader loads `reqStop` and acts on it -/
  | load
  /-- the processor takes a step -/
  | process (a : α)
  /-- `processDelta` has returned and the handler stores `reqStop` -/
  | stop

namespace Handler

variable {σ α : Type} (P : Processor σ α)

def init (s : σ) : Handler σ := ⟨s, .receiving, false, false⟩

/-- One step, if it is enabled. A processor step that takes a request is a
rendezvous with the reader's send of that request. -/
def step (h : Handler σ) : HandlerAction α → Option (Handler σ)
  | .recv result =>
    if h.reader = .receiving then some { h with reader := .loading result } else none
  | .load =>
    match h.reader with
    | .loading result =>
      if h.reqStop then some { h with reader := .exited }
      else
        match result with
        | .error _ => some { h with reader := .exited, closed := true }
        | .ok req => some { h with reader := .sending req }
    | _ => none
  | .process a =>
    (P.step h.processor a).bind fun s =>
      match P.uses a with
      | .idle => some { h with processor := s }
      | .take req =>
        if h.reader = .sending req then some { h with processor := s, reader := .receiving }
        else none
      | .closed => if h.closed then some { h with processor := s } else none
  | .stop =>
    if P.returned h.processor ∧ h.reqStop = false then some { h with reqStop := true } else none

def run (h : Handler σ) : List (HandlerAction α) → Option (Handler σ)
  | [] => some h
  | a :: rest => (h.step P a).bind fun h' => h'.run rest

/-- Everything one handler step can do. -/
inductive Move (h : Handler σ) : Handler σ → Prop
  | recv (result : Except String (Option DeltaDiscoveryRequest)) (hreader : h.reader = .receiving) :
      Move h { h with reader := .loading result }
  | stopped (result : Except String (Option DeltaDiscoveryRequest))
      (hreader : h.reader = .loading result) (hstop : h.reqStop = true) :
      Move h { h with reader := .exited }
  | failed (err : String) (hreader : h.reader = .loading (.error err)) (hstop : h.reqStop = false) :
      Move h { h with reader := .exited, closed := true }
  | loaded (req : Option DeltaDiscoveryRequest) (hreader : h.reader = .loading (.ok req))
      (hstop : h.reqStop = false) :
      Move h { h with reader := .sending req }
  | idle {b : α} {s : σ} (hs : P.step h.processor b = some s) (huse : P.uses b = .idle) :
      Move h { h with processor := s }
  | take {b : α} {s : σ} {req : Option DeltaDiscoveryRequest} (hs : P.step h.processor b = some s)
      (huse : P.uses b = .take req) (hreader : h.reader = .sending req) :
      Move h { h with processor := s, reader := .receiving }
  | hangUp {b : α} {s : σ} (hs : P.step h.processor b = some s) (huse : P.uses b = .closed)
      (hclosed : h.closed = true) :
      Move h { h with processor := s }
  | stop (hret : P.returned h.processor = true) (hstop : h.reqStop = false) :
      Move h { h with reqStop := true }

variable {P}

theorem step_move {h h' : Handler σ} {a : HandlerAction α} (hstep : h.step P a = some h') :
    Move P h h' := by
  cases a with
  | recv result =>
    simp only [step] at hstep
    split at hstep <;> cases hstep
    exact .recv result ‹_›
  | load =>
    simp only [Handler.step] at hstep
    split at hstep
    · rename_i result hreader
      split at hstep
      · cases hstep; exact .stopped result hreader ‹_›
      · rcases result with err | req <;> cases hstep
        · exact .failed err hreader (Bool.eq_false_iff.mpr ‹_›)
        · exact .loaded req hreader (Bool.eq_false_iff.mpr ‹_›)
    · cases hstep
  | process b =>
    obtain ⟨s, hs, hrest⟩ := Option.bind_eq_some.mp hstep
    split at hrest
    · cases hrest; exact .idle hs ‹_›
    · split at hrest <;> cases hrest; exact .take hs ‹_› ‹_›
    · split at hrest <;> cases hrest; exact .hangUp hs ‹_› ‹_›
  | stop =>
    simp only [Handler.step] at hstep
    split at hstep <;> cases hstep
    exact .stop ‹_ ∧ _›.1 ‹_ ∧ _›.2

/-- A property every move keeps holds along every run. -/
theorem run_preserves {I : Handler σ → Prop} (hmove : ∀ {h h'}, I h → Move P h h' → I h')
    {h h' : Handler σ} {actions : List (HandlerAction α)} (hI : I h)
    (hrun : h.run P actions = some h') : I h' := by
  induction actions generalizing h with
  | nil => cases hrun; exact hI
  | cons a rest ih =>
    obtain ⟨h₁, hstep, hrest⟩ := Option.bind_eq_some.mp hrun
    exact ih (hmove hI (step_move hstep)) hrest

/-- Once the processor has returned, a reader blocked on `reqCh` stays blocked:
no move receives from `reqCh` any more. -/
theorem blocked_move {h h' : Handler σ} {req : Option DeltaDiscoveryRequest}
    (hret : P.returned h.processor = true) (hblocked : h.reader = .sending req) (hm : Move P h h') :
    P.returned h'.processor = true ∧ h'.reader = .sending req := by
  cases hm with
  | recv _ hreader | stopped _ hreader | failed _ hreader | loaded _ hreader =>
    cases hblocked.symm.trans hreader
  | idle hs => exact ⟨P.returned_step hret hs, hblocked⟩
  | take hs huse | hangUp hs huse => cases (P.returned_idle hret hs).symm.trans huse
  | stop => exact ⟨hret, hblocked⟩

/-- ... and so over every run from there. -/
theorem blocked_run {h h' : Handler σ} {actions : List (HandlerAction α)}
    {req : Option DeltaDiscoveryRequest} (hret : P.returned h.processor = true)
    (hblocked : h.reader = .sending req) (hrun : h.run P actions = some h') :
    P.returned h'.processor = true ∧ h'.reader = .sending req :=
  run_preserves (I := fun h => P.returned h.processor = true ∧ h.reader = .sending req)
    (fun hI hm => blocked_move hI.1 hI.2 hm) ⟨hret, hblocked⟩ hrun

end Handler

/-! ### The two handlers -/

namespace Delta

/-- A session that has returned sees only the cache's sends. -/
theorem Session.step_returned {server : Server} {d : Discipline} {defaultTypeURL : String}
    {s s' : Session} {a : Action} (hret : s.phase.live = false)
    (hstep : s.step server d defaultTypeURL a = some s') :
    ∃ w r, a = .emit w r ∧ s' = s.emitted w r := by
  obtain ⟨err, hphase⟩ : ∃ err, s.phase = .returned err := by
    cases h : s.phase <;> simp_all [Phase.live]
  cases a with
  | emit w r =>
    simp only [Session.step] at hstep
    split at hstep
    · split at hstep <;> cases hstep
      exact ⟨w, r, rfl, rfl⟩
    · cases hstep
  | _ => simp [Session.step, hphase] at hstep

/-- `processDelta` of pkg/server/delta/v2 under `DeltaStreamHandler`. -/
def processor (server : Server) (d : Discipline) (defaultTypeURL : String) :
    Processor Session Action where
  step s a := s.step server d defaultTypeURL a
  returned s := !s.phase.live
  uses
    | .request req _ => .take req
    | .hangUp => .closed
    | _ => .idle
  returned_step hret hstep := by
    obtain ⟨w, r, rfl, rfl⟩ := Session.step_returned (by simpa using hret) hstep
    exact hret
  returned_idle hret hstep := by
    obtain ⟨w, r, rfl, rfl⟩ := Session.step_returned (by simpa using hret) hstep
    rfl

/-- Under the handler, the processor's states are those of its runs. -/
theorem reachable_of_reaches {server : Server} {d : Discipline} {defaultTypeURL : String}
    {typeURLs : List String} {s : Session}
    (h : (processor server d defaultTypeURL).Reaches
      (Session.init server defaultTypeURL typeURLs) s) :
    Reachable server d defaultTypeURL typeURLs s := by
  induction h with
  | refl => exact .init
  | step _ hstep ih => exact ih.step hstep

end Delta

namespace Server

/-- `processDelta` of pkg/server/v2 under `deltaHandler`, over one stream and
the server's version map. -/
def processor (server : Config) : Processor (Stream × GoMap String) Action where
  step sv a := sv.1.step server.callbacks server.log server.urls sv.2 a
  returned sv := !sv.1.phase.live
  uses
    | .request req _ => .take req
    | .hangUp => .closed
    | _ => .idle
  returned_step {sv sv' a} hret hstep := by
    obtain ⟨s', versions'⟩ := sv'
    have hphase := (Stream.step_returned _ _ _ _ (by simpa using hret) hstep).1
    simpa [hphase] using hret
  returned_idle {sv sv' a} hret hstep := by
    obtain ⟨s', versions'⟩ := sv'
    rcases (Stream.step_returned _ _ _ _ (by simpa using hret) hstep).2.2.2 with
      ⟨w, r, rfl⟩ | ⟨w, rfl⟩ <;> rfl

/-- Under the handler, the stream's states are those of its runs. -/
theorem reachable_of_reaches {server : Config} {defaultTypeURL : String}
    {versions : GoMap String} {sv : Stream × GoMap String}
    (h : (processor server).Reaches (Stream.init defaultTypeURL, versions) sv) :
    Stream.Reachable server sv.1 := by
  induction h with
  | refl => exact .init defaultTypeURL
  | step _ hstep ih => exact ih.step hstep

end Server

namespace Handler

variable {σ α : Type} {P : Processor σ α}

/-! ### Delivery

The reader hands the processor the requests `Recv` returns, in order, through
the rendezvous on `reqCh`. At most one request is between the two: the one the
reader holds, or one it dropped on finding `reqStop` set. The reader closes
`reqCh` only on a `Recv` error, and by then the processor has taken every
request `Recv` returned. -/

/-- The requests `Recv` returned in a run, in order. -/
def requestsReceived (actions : List (HandlerAction α)) : List (Option DeltaDiscoveryRequest) :=
  actions.filterMap fun
    | .recv (.ok req) => some req
    | _ => none

/-- The requests the processor took from `reqCh` in a run, in order. -/
def requestsTaken (P : Processor σ α) (actions : List (HandlerAction α)) :
    List (Option DeltaDiscoveryRequest) :=
  actions.filterMap fun
    | .process a =>
      match P.uses a with
      | .take req => some req
      | _ => none
    | _ => none

@[simp] theorem requestsReceived_append (actions more : List (HandlerAction α)) :
    requestsReceived (actions ++ more) = requestsReceived actions ++ requestsReceived more :=
  List.filterMap_append ..

@[simp] theorem requestsTaken_append (actions more : List (HandlerAction α)) :
    requestsTaken P (actions ++ more) = requestsTaken P actions ++ requestsTaken P more :=
  List.filterMap_append ..

/-- The request the reader holds: returned by `Recv`, not yet taken. -/
def held : Reader → List (Option DeltaDiscoveryRequest)
  | .loading (.ok req) | .sending req => [req]
  | _ => []

/-- What a run has delivered. The requests `Recv` returned are those the
processor took, followed by the one the reader holds, or by one it dropped
once `reqStop` was set; and a closed `reqCh` follows the last request taken. -/
structure Delivered (P : Processor σ α) (actions : List (HandlerAction α)) (h : Handler σ) :
    Prop where
  order : requestsReceived actions = requestsTaken P actions ++ held h.reader ∨
    h.reader = .exited ∧ h.reqStop = true ∧
      ∃ req, requestsReceived actions = requestsTaken P actions ++ [req]
  closed : h.closed = true → h.reader = .exited ∧ requestsReceived actions = requestsTaken P actions

/-- A reader that is not done holds exactly what was received and not taken. -/
theorem Delivered.running {actions : List (HandlerAction α)} {h : Handler σ}
    (hd : Delivered P actions h) (hreader : h.reader ≠ .exited) :
    requestsReceived actions = requestsTaken P actions ++ held h.reader ∧ h.closed = false := by
  refine ⟨hd.order.resolve_right fun hex => hreader hex.1, ?_⟩
  cases hc : h.closed
  · rfl
  · exact absurd (hd.closed hc).1 hreader

/-- Actions that neither receive nor take a request leave the lists alone. -/
theorem delivered_append_iff {actions more : List (HandlerAction α)} {h : Handler σ}
    (hr : requestsReceived more = []) (ht : requestsTaken P more = []) :
    Delivered P (actions ++ more) h ↔ Delivered P actions h := by
  have hr' : requestsReceived (actions ++ more) = requestsReceived actions := by simp [hr]
  have ht' : requestsTaken P (actions ++ more) = requestsTaken P actions := by simp [ht]
  exact ⟨fun ⟨ho, hc⟩ => ⟨hr' ▸ ht' ▸ ho, hr' ▸ ht' ▸ hc⟩,
    fun ⟨ho, hc⟩ => ⟨hr' ▸ ht' ▸ ho, hr' ▸ ht' ▸ hc⟩⟩

theorem Delivered.step {actions : List (HandlerAction α)} {h h' : Handler σ}
    {a : HandlerAction α} (hd : Delivered P actions h) (hstep : h.step P a = some h') :
    Delivered P (actions ++ [a]) h' := by
  cases a with
  | recv result =>
    simp only [Handler.step] at hstep
    split at hstep
    · cases hstep
      rename_i hreader
      obtain ⟨horder, hopen⟩ := hd.running (by rw [hreader]; exact Reader.noConfusion)
      refine ⟨.inl ?_, fun hc => absurd hc (by simp [hopen])⟩
      rw [hreader] at horder
      rcases result with err | req <;> simpa [requestsReceived, requestsTaken, held] using horder
    · cases hstep
  | load =>
    simp only [Handler.step] at hstep
    split at hstep
    · rename_i result hreader
      obtain ⟨horder, hopen⟩ := hd.running (by rw [hreader]; exact Reader.noConfusion)
      rw [hreader] at horder
      rw [delivered_append_iff (by simp [requestsReceived]) (by simp [requestsTaken])]
      split at hstep
      · -- `reqStop` is set: the reader returns, dropping what it holds
        cases hstep
        rcases result with err | req
        · exact ⟨.inl (by simpa [held] using horder), fun hc => absurd hc (by simp [hopen])⟩
        · exact ⟨.inr ⟨rfl, ‹_›, req, horder⟩, fun hc => absurd hc (by simp [hopen])⟩
      · rcases result with err | req <;> cases hstep
        · -- a `Recv` error closes `reqCh`, after everything before it was taken
          have hall : requestsReceived actions = requestsTaken P actions := by
            simpa [held] using horder
          exact ⟨.inl (by simpa [held] using hall), fun _ => ⟨rfl, hall⟩⟩
        · exact ⟨.inl horder, fun hc => absurd hc (by simp [hopen])⟩
    · cases hstep
  | process b =>
    obtain ⟨s, hs, hrest⟩ := Option.bind_eq_some.mp hstep
    split at hrest
    · rename_i huse
      cases hrest
      rw [delivered_append_iff (by simp [requestsReceived]) (by simp [requestsTaken, huse])]
      exact ⟨hd.order, hd.closed⟩
    · rename_i req huse
      split at hrest <;> cases hrest
      rename_i hreader
      obtain ⟨horder, hopen⟩ := hd.running (by rw [hreader]; exact Reader.noConfusion)
      rw [hreader] at horder
      refine ⟨.inl ?_, fun hc => absurd hc (by simp [hopen])⟩
      simpa [requestsReceived, requestsTaken, huse, held] using horder
    · rename_i huse
      split at hrest <;> cases hrest
      rw [delivered_append_iff (by simp [requestsReceived]) (by simp [requestsTaken, huse])]
      exact ⟨hd.order, hd.closed⟩
  | stop =>
    simp only [Handler.step] at hstep
    split at hstep <;> cases hstep
    rw [delivered_append_iff (by simp [requestsReceived]) (by simp [requestsTaken])]
    exact ⟨hd.order.imp id fun h => ⟨h.1, rfl, h.2.2⟩, hd.closed⟩

theorem run_concat {h h' : Handler σ} {actions : List (HandlerAction α)} {a : HandlerAction α}
    (hrun : h.run P (actions ++ [a]) = some h') :
    ∃ h₁, h.run P actions = some h₁ ∧ h₁.step P a = some h' := by
  induction actions generalizing h with
  | nil => simpa [run] using hrun
  | cons b rest ih =>
    obtain ⟨h₂, hstep, hrest⟩ := Option.bind_eq_some.mp hrun
    obtain ⟨h₁, hrun₁, hlast⟩ := ih hrest
    exact ⟨h₁, by simp [run, hstep, hrun₁], hlast⟩

/-- In every run of a handler, whatever its processor: the processor takes the
requests `Recv` returned in the order `Recv` returned them, none twice and none
skipped, all but at most the last, which the reader holds or dropped once
`reqStop` was set; and the processor finds `reqCh` closed only after taking
every request `Recv` returned. -/
theorem delivered_run {s : σ} {actions : List (HandlerAction α)} {h : Handler σ}
    (hrun : (init s).run P actions = some h) : Delivered P actions h := by
  induction actions using List.reverseRecOn generalizing h with
  | nil =>
    cases hrun
    exact ⟨.inl rfl, fun hc => nomatch hc⟩
  | append_singleton actions a ih =>
    obtain ⟨h₁, hrun₁, hstep⟩ := run_concat hrun
    exact (ih hrun₁).step hstep

/-- Under the v2 handler, the reader receives a request and hands it over, then
receives a nil request. -/
def takenRequest : List (HandlerAction Server.Action) :=
  [.process (.openStream (.ok ())), .recv (.ok (some (Server.endpointRequest ""))), .load,
    .process (.request (some (Server.endpointRequest "")) (.ok ())), .recv (.ok none), .load]

/-- The processor took the first request and the reader holds the second. -/
theorem takenRequest_delivered : ∃ h,
    (init (Server.Stream.init anyType, ∅)).run (Server.processor Server.plainConfig)
      takenRequest = some h ∧
    requestsTaken (Server.processor Server.plainConfig) takenRequest =
      [some (Server.endpointRequest "")] ∧
    h.reader = .sending none ∧ Delivered (Server.processor Server.plainConfig) takenRequest h := by
  obtain ⟨h, hrun, hreader⟩ : ∃ h,
      (init (Server.Stream.init anyType, ∅)).run (Server.processor Server.plainConfig)
        takenRequest = some h ∧ h.reader = .sending none := ⟨_, rfl, rfl⟩
  exact ⟨h, hrun, rfl, hreader, delivered_run hrun⟩

end Handler

/-! ### A request after the return -/

/-- A stream opens; the reader receives a request and loads `reqStop`, still
clear; the stream's context is cancelled; the handler stores `reqStop`. -/
def Delta.lateRequest : List (HandlerAction Delta.Action) :=
  [.process (.openStream (.ok ())), .recv (.ok (some (Delta.subscription "c"))), .load,
    .process .done, .stop]

/-- The same interleaving under the v2 handler. -/
def Server.lateRequest : List (HandlerAction Server.Action) :=
  [.process (.openStream (.ok ())), .recv (.ok (some (Server.endpointRequest ""))), .load,
    .process .done, .stop]

/-- Under either handler, a reader that loaded `reqStop` before `processDelta`
returned stays blocked on `reqCh` for good, though the flag is set: every
continuation leaves it there. -/
theorem reader_blocked_after_return :
    (∃ h, (Handler.init (Delta.Session.init Delta.plainServer "c" [])).run
        (Delta.processor Delta.plainServer .prompt "c") Delta.lateRequest = some h ∧
      h.reqStop = true ∧
      ∀ actions h', h.run (Delta.processor Delta.plainServer .prompt "c") actions = some h' →
        (Delta.processor Delta.plainServer .prompt "c").returned h'.processor = true ∧
          h'.reader = .sending (some (Delta.subscription "c"))) ∧
    (∃ h, (Handler.init (Server.Stream.init anyType, ∅)).run
        (Server.processor Server.plainConfig) Server.lateRequest = some h ∧ h.reqStop = true ∧
      ∀ actions h', h.run (Server.processor Server.plainConfig) actions = some h' →
        (Server.processor Server.plainConfig).returned h'.processor = true ∧
          h'.reader = .sending (some (Server.endpointRequest ""))) :=
  ⟨⟨_, rfl, rfl, fun _ _ hrun => Handler.blocked_run (by rfl) (by rfl) hrun⟩,
    ⟨_, rfl, rfl, fun _ _ hrun => Handler.blocked_run (by rfl) (by rfl) hrun⟩⟩

namespace Handler

variable {σ α : Type} {P : Processor σ α}

/-- What the flag does achieve: once it is stored, a reader that has not yet
loaded it never reaches the send. -/
theorem unsent_move {h h' : Handler σ} (hstop : h.reqStop = true)
    (hunsent : ∀ req, h.reader ≠ .sending req) (hm : Move P h h') :
    h'.reqStop = true ∧ ∀ req, h'.reader ≠ .sending req := by
  cases hm with
  | recv | stopped => exact ⟨hstop, fun _ => Reader.noConfusion⟩
  | failed _ _ hclear | loaded _ _ hclear | stop _ hclear => cases hstop.symm.trans hclear
  | idle | hangUp => exact ⟨hstop, hunsent⟩
  | take _ _ hreader => exact absurd hreader (hunsent _)

/-- Hence over every run from there, whatever the processor does, such a reader
never blocks on `reqCh`. -/
theorem unsent_run {h h' : Handler σ} {actions : List (HandlerAction α)} (hstop : h.reqStop = true)
    (hunsent : ∀ req, h.reader ≠ .sending req) (hrun : h.run P actions = some h') :
    ∀ req, h'.reader ≠ .sending req :=
  (run_preserves (I := fun h => h.reqStop = true ∧ ∀ req, h.reader ≠ .sending req)
    (fun hI hm => unsent_move hI.1 hI.2 hm) ⟨hstop, hunsent⟩ hrun).2

/-- Under the v2 handler, the stream's context is cancelled before the reader's
first `Recv` returns and the handler stores `reqStop`; the reader then receives
a request. -/
def stoppedFirst : List (HandlerAction Server.Action) :=
  [.process (.openStream (.ok ())), .process .done, .stop]

/-- The reader loads the set flag and exits without sending. -/
theorem stoppedFirst_unsent : ∃ h h',
    (init (Server.Stream.init anyType, ∅)).run (Server.processor Server.plainConfig)
      stoppedFirst = some h ∧ h.reqStop = true ∧
    h.run (Server.processor Server.plainConfig)
      [.recv (.ok (some (Server.endpointRequest ""))), .load] = some h' ∧
    ∀ req, h'.reader ≠ .sending req := by
  obtain ⟨h, hrun, hstop, hreader, h', hrun'⟩ : ∃ h,
      (init (Server.Stream.init anyType, ∅)).run (Server.processor Server.plainConfig)
        stoppedFirst = some h ∧ h.reqStop = true ∧ h.reader = .receiving ∧
      ∃ h', h.run (Server.processor Server.plainConfig)
        [.recv (.ok (some (Server.endpointRequest ""))), .load] = some h' :=
    ⟨_, rfl, rfl, rfl, _, rfl⟩
  exact ⟨h, h', hrun, hstop, hrun',
    unsent_run hstop (fun _ => by rw [hreader]; exact Reader.noConfusion) hrun'⟩

end Handler

end ControlPlane
