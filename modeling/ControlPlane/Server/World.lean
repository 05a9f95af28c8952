import ControlPlane.Server.Stream

/-!
A v2 server and its streams. The streams share the server's `deltaVersions`
map: a step is one stream's step against the map, or `deltaHandler` starting a
new stream. Each stream of a reachable world has a run of its own, in which the
map at each step is whatever the other streams left in it.
-/

namespace ControlPlane.Server

/-- What `processDelta` reads of the v2 `server` struct besides the version
map: whether it has callbacks, whether it has a logger, and the type URLs of
its six types. -/
structure Config where
  /-- `s.callbacks != nil` -/
  callbacks : Bool
  /-- `s.log != nil` -/
  log : Bool
  urls : TypeURLs

/-- The server's shared version map and its streams. -/
structure World where
  deltaVersions : GoMap String
  streams : List Stream

/-- One step of the server. -/
inductive WorldAction where
  /-- `deltaHandler` starts a stream with this default type URL -/
  | start (defaultTypeURL : String)
  /-- stream `stream` takes a step -/
  | step (stream : Nat) (a : Action)

/-- The server before any stream, with an empty version map. -/
def World.init : World := ⟨∅, []⟩

def World.step (server : Config) (w : World) : WorldAction → Option World
  | .start defaultTypeURL => some { w with streams := w.streams ++ [Stream.init defaultTypeURL] }
  | .step i a =>
    match w.streams[i]? with
    | none => none
    | some s =>
      (s.step server.callbacks server.log server.urls w.deltaVersions a).map fun (s', versions) =>
        ⟨versions, w.streams.set i s'⟩

/-- Run a list of steps; `none` if one is not enabled. -/
def World.run (server : Config) (w : World) : List WorldAction → Option World
  | [] => some w
  | a :: rest => (w.step server a).bind fun w' => w'.run server rest

variable (server : Config)

inductive World.Reachable : World → Prop
  | init : World.Reachable World.init
  | step {w w' : World} {a : WorldAction} : World.Reachable w → w.step server a = some w' →
      World.Reachable w'

/-- The runs of one stream, against any shared map at each step. -/
inductive Stream.Reachable : Stream → Prop
  | init (defaultTypeURL : String) : Stream.Reachable (Stream.init defaultTypeURL)
  | step {s s' : Stream} {versions versions' : GoMap String} {a : Action} : Stream.Reachable s →
      s.step server.callbacks server.log server.urls versions a = some (s', versions') →
        Stream.Reachable s'

variable {server}

/-- The inversion lemma for a step of the server: a new stream, or one stream's
enabled step against the shared map. -/
theorem World.step_cases {w w' : World} {a : WorldAction} (h : w.step server a = some w') :
    (∃ defaultTypeURL, a = .start defaultTypeURL ∧
      w' = { w with streams := w.streams ++ [Stream.init defaultTypeURL] }) ∨
    ∃ i b s s' versions, a = .step i b ∧ w.streams[i]? = some s ∧
      s.step server.callbacks server.log server.urls w.deltaVersions b = some (s', versions) ∧
      w' = ⟨versions, w.streams.set i s'⟩ := by
  cases a with
  | start defaultTypeURL => exact .inl ⟨defaultTypeURL, rfl, (Option.some.inj h).symm⟩
  | step i b =>
    simp only [World.step] at h
    split at h
    · cases h
    · rename_i s hs
      obtain ⟨⟨s', versions⟩, hs', rfl⟩ := Option.map_eq_some'.mp h
      exact .inr ⟨i, b, s, s', versions, rfl, hs, hs', rfl⟩

theorem World.Reachable.run {w w' : World} {actions : List WorldAction}
    (hw : World.Reachable server w) (hrun : w.run server actions = some w') :
    World.Reachable server w' := by
  induction actions generalizing w with
  | nil => cases hrun; exact hw
  | cons a rest ih =>
    simp only [World.run, Option.bind_eq_some] at hrun
    obtain ⟨w₁, hstep, hrest⟩ := hrun
    exact ih (hw.step hstep) hrest

theorem World.run_append (w : World) (actions more : List WorldAction) :
    w.run server (actions ++ more) = (w.run server actions).bind fun w' => w'.run server more := by
  induction actions generalizing w with
  | nil => rfl
  | cons a rest ih =>
    simp only [List.cons_append, World.run, List.append_eq, ih, Option.bind_assoc]

theorem World.run_concat {w w' : World} {actions : List WorldAction} {a : WorldAction}
    (h : w.run server (actions ++ [a]) = some w') :
    ∃ w₁, w.run server actions = some w₁ ∧ w₁.step server a = some w' := by
  simpa [World.run_append, World.run, Option.bind_eq_some] using h

/-- Every stream of a reachable world has a run of its own. -/
theorem World.Reachable.stream {w : World} (hw : World.Reachable server w) :
    ∀ s ∈ w.streams, Stream.Reachable server s := by
  induction hw with
  | init => intro s hs; cases hs
  | step _ hstep ih =>
    intro s hs
    rcases World.step_cases hstep with ⟨defaultTypeURL, -, rfl⟩ |
      ⟨i, a, s₀, s', versions, -, hs₀, hs', rfl⟩
    · rcases List.mem_append.mp hs with hs | hs
      · exact ih s hs
      · rw [List.mem_singleton.mp hs]; exact .init defaultTypeURL
    · rcases List.mem_or_eq_of_mem_set hs with hs | rfl
      · exact ih s hs
      · exact (ih s₀ (List.getElem?_mem hs₀)).step hs'

/-! Concrete runs use six one-letter type URLs on a server without callbacks. -/

/-- Six distinct type URLs. -/
def sampleURLs : TypeURLs where
  url
    | .endpoint => "e"
    | .cluster => "c"
    | .route => "r"
    | .listener => "l"
    | .secret => "s"
    | .runtime => "t"
  injective := by
    intro a b h
    cases a <;> cases b <;> first | rfl | exact absurd h (by decide)

/-- A server without callbacks or logger. -/
def plainConfig : Config := ⟨false, false, sampleURLs⟩

/-- The world `actions` reach from a server without streams, if every step is
enabled. -/
def plainRun (actions : List WorldAction) : Option World := World.init.run plainConfig actions

/-- A cache response to `req` with system version `version`. -/
def answer (req : DeltaDiscoveryRequest) (version : String) : DeltaResponse :=
  ⟨req, .ok ⟨""⟩, .ok version, .ok ∅⟩

/-- A request for the endpoint type URL that names a node and echoes `nonce`. -/
def endpointRequest (nonce : String) : DeltaDiscoveryRequest :=
  ⟨some ⟨"n"⟩, "e", nonce, [], none⟩

/-- Two aggregated streams ask for endpoints; the second receives a response of
version `"v2"`, and the first, which has received nothing, asks again. -/
def sharedVersion : List WorldAction :=
  [.start anyType, .start anyType, .step 0 (.openStream (.ok ())), .step 1 (.openStream (.ok ())),
    .step 0 (.request (some (endpointRequest "")) (.ok ())),
    .step 1 (.request (some (endpointRequest "")) (.ok ())),
    .step 1 (.emit 0 (some (answer (endpointRequest "") "v2"))),
    .step 1 (.respond .endpoint (.ok ())),
    .step 0 (.request (some (endpointRequest "")) (.ok ()))]

/-- The first stream sends nothing, yet its new watch is created with the
version of the second stream's response. -/
theorem sharedVersion_leaks : ∃ w, plainRun sharedVersion = some w ∧ ∃ a b, w.streams = [a, b] ∧
    a.trace = [.createDeltaWatch (endpointRequest "") "" 0, .cancel 0,
      .createDeltaWatch (endpointRequest "") "v2" 1] :=
  ⟨_, rfl, _, _, rfl, rfl⟩

end ControlPlane.Server
