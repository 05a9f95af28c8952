import ControlPlane.Discovery
import ControlPlane.Nonce

/-!
The per-type-channel delta processor of pkg/server/v2 (`processDelta` in
delta.go) over one stream. Each of the six resource types has its own watch:
the channel `CreateDeltaWatch` returned, its cancel handle, and the nonce of the
last response sent for the type. A response case sends, then records the
response's system version in the server's `deltaVersions` map, which every
stream of the server shares; a request case re-creates the watch of a known
type whose last nonce is empty or equals the request's nonce, passing the
shared version.

The shared map is an argument of each step, and the cache's side of a watch,
the responses it has put on the watch's channel, is part of the stream.
-/

namespace ControlPlane.Server

/-- The six resource types of the v2 API, in the order of `processDelta`'s
switch. -/
inductive ResponseType where
  | endpoint
  | cluster
  | route
  | listener
  | secret
  | runtime
  deriving DecidableEq, Repr

def ResponseType.all : List ResponseType :=
  [.endpoint, .cluster, .route, .listener, .secret, .runtime]

/-- The error of the response case whose channel was closed. -/
def ResponseType.watchFailed : ResponseType → String
  | .endpoint => "endpoints watch failed"
  | .cluster => "clusters watch failed"
  | .route => "routes watch failed"
  | .listener => "listeners watch failed"
  | .secret => "secrets watch failed"
  | .runtime => "runtimes watch failed"

/-- The type URLs of the six types (`resource.EndpointType` and the others of
pkg/resource/v2, not under src/): six distinct strings. -/
structure TypeURLs where
  url : ResponseType → String
  injective : Function.Injective url

/-- Modelled from the spec: the v2 `watches` struct is not under src/.
`processDelta` keeps, per resource type, the response channel and cancel handle
of one `CreateDeltaWatch` call, one watch handle standing for both (`none` for
the nil pair of a type never watched), and the nonce last sent for the type. -/
structure Slot where
  watch : Option Nat
  nonce : String

def Slot.empty : Slot := ⟨none, ""⟩

/-- A watch the cache created for the stream: its request and version, the
responses on its channel not yet received, and whether the cache closed it. -/
structure Watch where
  req : DeltaDiscoveryRequest
  version : String
  pending : List (Option DeltaResponse)
  closed : Bool

/-- What happened on the stream, in order: the calls a collaborator observes. -/
inductive Event where
  | onStreamOpen
  | onStreamDeltaRequest (req : DeltaDiscoveryRequest)
  | onStreamDeltaResponse (req : DeltaDiscoveryRequest) (resp : DeltaDiscoveryResponse)
  /-- `stream.Send` -/
  | send (resp : DeltaDiscoveryResponse)
  /-- a cancel handle invoked -/
  | cancel (handle : Nat)
  | createDeltaWatch (req : DeltaDiscoveryRequest) (version : String) (handle : Nat)
  | onStreamClosed
  deriving DecidableEq

/-- Where the processor is. -/
inductive Phase where
  | opening
  | selecting
  | returned (err : Option Error)
  deriving DecidableEq

/-- The phases before `processDelta` returns. -/
def Phase.live : Phase → Bool
  | .returned _ => false
  | _ => true

structure Stream where
  defaultTypeURL : String
  phase : Phase
  /-- `streamNonce`, an `int64` -/
  streamNonce : Int
  node : Node
  values : ResponseType → Slot
  /-- the watches the cache created for the stream, by handle -/
  watches : List Watch
  trace : List Event

/-- `createDeltaResponse`: the marshalled response, or why there is none. -/
def createDeltaResponse (resp : Option DeltaResponse) (_typeURL : String) :
    Except Error DeltaDiscoveryResponse :=
  match resp with
  | none => .error (.new "missing response")
  | some resp =>
    match resp.deltaDiscoveryResponse with
    | .error err => .error (.passed err)
    | .ok out => .ok out

/-- What `GetSystemVersion` yields, the empty string when it fails. -/
def systemVersionOf (resp : DeltaResponse) : String :=
  match resp.systemVersion with
  | .ok version => version
  | .error _ => ""

/-- The run-time panic of a method call on a nil interface value. -/
def nilDereference : Error :=
  .panic "runtime error: invalid memory address or nil pointer dereference"

namespace Stream

variable (callbacks : Bool)

/-- The stream on entry to `processDelta`. -/
def init (defaultTypeURL : String) : Stream :=
  ⟨defaultTypeURL, .opening, 0, .empty, fun _ => .empty, [], []⟩

/-- A callback's event, if the server has callbacks. -/
def callback (event : Event) : List Event := if callbacks then [event] else []

/-- Modelled from the spec: the v2 `watches.Cancel` is not under src/. Return
through the deferred teardown, which section 4.3.1 of the spec describes:
`values.Cancel()` invokes every non-nil handle of the six types, then
`OnStreamClosed`. -/
def exit (s : Stream) (err : Option Error) : Stream :=
  { s with
    phase := .returned err
    trace := s.trace ++ (ResponseType.all.filterMap fun t => (s.values t).watch).map .cancel ++
      callback callbacks .onStreamClosed }

/-- `send`: marshal, stamp the next nonce, call the response callback and the
transport, which returns `sent`. -/
def send (s : Stream) (resp : Option DeltaResponse) (typeURL : String) (sent : Except String Unit) :
    Stream × Except Error String :=
  match createDeltaResponse resp typeURL, resp with
  | .error err, _ => (s, .error err)
  | .ok out, some resp =>
    let out := { out with nonce := formatInt (nextNonce s.streamNonce) }
    ({ s with
        streamNonce := nextNonce s.streamNonce
        trace := s.trace ++ callback callbacks (.onStreamDeltaResponse resp.deltaRequest out) ++
          [.send out] },
      match sent with
      | .ok () => .ok out.nonce
      | .error err => .error (.passed err))
  -- `createDeltaResponse` rejects a nil response
  | .ok _, none => (s, .error (.new "missing response"))

/-- A response case of the select: the channel of type `t`'s watch gives its
oldest response, which is sent, and whose system version is then written to
the shared map (the empty string when the getter fails, before the error is
returned); a closed channel ends the stream. -/
def respond (urls : TypeURLs) (versions : GoMap String) (s : Stream) (t : ResponseType)
    (sent : Except String Unit) : Option (Stream × GoMap String) :=
  match (s.values t).watch with
  | none => none
  | some w =>
    match s.watches[w]? with
    | none => none
    | some watch =>
      match watch.pending with
      | [] =>
        if watch.closed then
          some (s.exit callbacks (some (.status .unavailable t.watchFailed)), versions)
        else none
      | resp :: rest =>
        let s := { s with watches := s.watches.set w { watch with pending := rest } }
        match resp, s.send callbacks resp (urls.url t) sent with
        | _, (s, .error err) => some (s.exit callbacks (some err), versions)
        | some resp, (s, .ok nonce) =>
          let versions := versions.insert resp.deltaRequest.typeUrl (systemVersionOf resp)
          match resp.systemVersion with
          | .error err => some (s.exit callbacks (some (.passed err)), versions)
          | .ok _ =>
            some ({ s with values := Function.update s.values t { s.values t with nonce } },
              versions)
        -- `send` rejects a nil response
        | none, (s, .ok _) => some (s, versions)

/-- Node rehydration, which here also picks the nonce the request is checked
against: the request's own when it names a node, else the stream's counter. -/
def rehydrate (node : Node) (streamNonce : Int) (req : DeltaDiscoveryRequest) :
    Node × String × DeltaDiscoveryRequest :=
  match req.node with
  | some named => (named, req.responseNonce, req)
  | none => (node, formatInt streamNonce, { req with node := some node })

/-- The switch of the request case: the first type whose URL the request names
and whose last nonce is empty or the checked nonce has its watch cancelled and
created anew, with the shared version of the request's type URL. -/
def rewatch (urls : TypeURLs) (versions : GoMap String) (s : Stream) (req : DeltaDiscoveryRequest)
    (nonce : String) : Stream :=
  match ResponseType.all.find? fun t =>
      req.typeUrl = urls.url t && ((s.values t).nonce = "" || (s.values t).nonce = nonce) with
  | none => s
  | some t =>
    let handle := s.watches.length
    let version := (versions.lookup req.typeUrl).getD ""
    { s with
      values := Function.update s.values t { s.values t with watch := some handle }
      watches := s.watches ++ [⟨req, version, [], false⟩]
      trace := s.trace ++ ((s.values t).watch.map Event.cancel).toList ++
        [.createDeltaWatch req version handle] }

/-- The request case past the nil check and the error-detail log: node
rehydration, type URL policing, `OnStreamDeltaRequest`, which returns
`accepted`, and the switch. -/
def handle (urls : TypeURLs) (versions : GoMap String) (s : Stream) (req : DeltaDiscoveryRequest)
    (accepted : Except String Unit) : Stream :=
  let (node, nonce, req) := rehydrate s.node s.streamNonce req
  let s := { s with node }
  match policeTypeURL s.defaultTypeURL req with
  | .error err => s.exit callbacks (some err)
  | .ok req =>
    if callbacks then
      let s := { s with trace := s.trace ++ [Event.onStreamDeltaRequest req] }
      match accepted with
      | .error err => s.exit callbacks (some (.passed err))
      | .ok () => s.rewatch urls versions req nonce
    else s.rewatch urls versions req nonce

/-- The request case of the select. A request's error detail is logged through
`s.log` with no nil check, so on a server without a logger (`log = false`) a
request that carries one panics before anything else is done with it. -/
def request (log : Bool) (urls : TypeURLs) (versions : GoMap String) (s : Stream)
    (req : Option DeltaDiscoveryRequest) (accepted : Except String Unit) : Stream :=
  match req with
  | none => s.exit callbacks (some (.status .unavailable "empty request"))
  | some req =>
    if req.errorDetail.isSome ∧ log = false then s.exit callbacks (some nilDereference)
    else s.handle callbacks urls versions req accepted

/-- The request case ends the stream on a nil request and, on a server without a
logger, on a request with an error detail; any other request goes to `handle`. -/
theorem request_exit_or_handle (log : Bool) (urls : TypeURLs) (versions : GoMap String)
    (s : Stream) (req : Option DeltaDiscoveryRequest) (accepted : Except String Unit) :
    (∃ err, s.request callbacks log urls versions req accepted = s.exit callbacks err) ∨
      ∃ r, req = some r ∧
        s.request callbacks log urls versions req accepted =
          s.handle callbacks urls versions r accepted := by
  unfold request
  split
  · exact .inl ⟨_, rfl⟩
  · split
    · exact .inl ⟨_, rfl⟩
    · exact .inr ⟨_, rfl, rfl⟩

/-- `OnStreamOpen`, whose error returns at once (the teardown still runs). -/
def openStream (s : Stream) (result : Except String Unit) : Stream :=
  if callbacks then
    let s := { s with trace := s.trace ++ [Event.onStreamOpen] }
    match result with
    | .error err => s.exit callbacks (some (.passed err))
    | .ok () => { s with phase := .selecting }
  else { s with phase := .selecting }

end Stream

/-- One atomic step of the processor or of the cache on the stream's watches. -/
inductive Action where
  | openStream (result : Except String Unit)
  /-- the `select` takes `s.ctx.Done()` -/
  | done
  /-- the `select` takes the channel of type `t`; `stream.Send` returns `sent` -/
  | respond (t : ResponseType) (sent : Except String Unit)
  /-- the `select` takes `req`; `OnStreamDeltaRequest` returns `accepted` -/
  | request (req : Option DeltaDiscoveryRequest) (accepted : Except String Unit)
  /-- the `select` finds the request channel closed -/
  | hangUp
  /-- the cache puts `response` on the channel of watch `watch` -/
  | emit (watch : Nat) (response : Option DeltaResponse)
  /-- the cache closes the channel of watch `watch` -/
  | close (watch : Nat)

namespace Stream

variable (callbacks : Bool)

/-- One step against the shared version map, if it is enabled; `log` is whether
the server has a logger. A watch's response carries the request the watch was
created with. -/
def step (log : Bool) (urls : TypeURLs) (versions : GoMap String) (s : Stream) :
    Action → Option (Stream × GoMap String)
  | .openStream result =>
    if s.phase = .opening then some (s.openStream callbacks result, versions) else none
  | .done | .hangUp => if s.phase = .selecting then some (s.exit callbacks none, versions) else none
  | .respond t sent =>
    if s.phase = .selecting then s.respond callbacks urls versions t sent else none
  | .request req accepted =>
    if s.phase = .selecting then
      some (s.request callbacks log urls versions req accepted, versions)
    else none
  | .emit w response =>
    match s.watches[w]? with
    | some watch =>
      if watch.closed = false ∧ response.all (fun r => r.deltaRequest = watch.req) then
        some ({ s with
            watches := s.watches.set w { watch with pending := watch.pending ++ [response] } },
          versions)
      else none
    | none => none
  | .close w =>
    match s.watches[w]? with
    | some watch =>
      if watch.closed = false then
        some ({ s with watches := s.watches.set w { watch with closed := true } }, versions)
      else none
    | none => none

end Stream

end ControlPlane.Server
