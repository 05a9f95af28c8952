import Mathlib.Data.List.AList

/-!
The data both delta servers read and write: the discovery requests and
responses they exchange with a client, the per-type stream state, the
responses a cache hands back, and the errors a stream ends with. A Go map
keyed by type URL or resource name is an association list with distinct keys.

Only the fields the servers read or write are kept. A request's `ErrorDetail`
is only tested for nil and logged; what is logged is not modelled. Go maps are values
here: a map the processor shares with a cache is compared at the moment it is
passed, not after later in-place edits.
-/

namespace ControlPlane

instance instDecidableEqExcept {ε α : Type} [DecidableEq ε] [DecidableEq α] :
    DecidableEq (Except ε α)
  | .error a, .error b => decidable_of_iff (a = b) ⟨congrArg _, fun h => by cases h; rfl⟩
  | .ok a, .ok b => decidable_of_iff (a = b) ⟨congrArg _, fun h => by cases h; rfl⟩
  | .error _, .ok _ => isFalse nofun
  | .ok _, .error _ => isFalse nofun

/-- A Go `map[string]β`. -/
abbrev GoMap (β : Type) := AList (fun _ : String => β)

/-- `core.Node`, the client identity. The servers store and copy it but never
look inside. -/
structure Node where
  id : String
  deriving DecidableEq, Repr

/-- `&core.Node{}`, the node a stream remembers before a request names one. -/
def Node.empty : Node := ⟨""⟩

/-- `discovery.DeltaDiscoveryRequest`. A nil `Node` is `none`, and so is a nil
`ErrorDetail`, whose status message is all that is kept of it. -/
structure DeltaDiscoveryRequest where
  node : Option Node
  typeUrl : String
  responseNonce : String
  resourceNamesUnsubscribe : List String
  errorDetail : Option String
  deriving DecidableEq, Repr

/-- `discovery.DeltaDiscoveryResponse`; the servers only stamp its nonce. -/
structure DeltaDiscoveryResponse where
  nonce : String
  deriving DecidableEq, Repr

/-- `map[string]cache.DeltaVersionInfo`: resource name to the version the client
knows. The version descriptor is opaque to the servers. -/
abbrev VersionMap := GoMap String

/-- Modelled from the spec: `stream.StreamState` (pkg/server/stream/v2) is not
under src/. Section 3 of the spec gives its three fields. -/
structure StreamState where
  nonce : String
  systemVersion : String
  resourceVersions : VersionMap
  deriving DecidableEq

/-- The zero `StreamState`, which a Go map read yields for a missing key: empty
strings and a nil version map. -/
def StreamState.zero : StreamState := ⟨"", "", ∅⟩

/-- `cache.DeltaResponse`: what a watch puts on a response channel. Each getter
yields its value or fails with the message of its error. -/
structure DeltaResponse where
  deltaRequest : DeltaDiscoveryRequest
  deltaDiscoveryResponse : Except String DeltaDiscoveryResponse
  systemVersion : Except String String
  deltaVersionMap : Except String VersionMap
  deriving DecidableEq

/-- The gRPC codes the servers return. -/
inductive Code where
  | unavailable
  | invalidArgument
  deriving DecidableEq, Repr

/-- The error a stream ends with. -/
inductive Error where
  /-- `status.Errorf(code, message)` -/
  | status (code : Code) (message : String)
  /-- `errors.New(message)` -/
  | new (message : String)
  /-- an error a collaborator returned (callback, transport or response getter),
  passed on unchanged -/
  | passed (message : String)
  /-- a run-time panic. It unwinds through the deferred teardown as a return
  does, and since nothing recovers it, it then ends the program. -/
  | panic (message : String)
  deriving DecidableEq, Repr

/-- `resource.AnyType`, the default type URL of an aggregated stream. The
`Callbacks` documentation gives its value: `OnDeltaStreamOpen` receives the
stream's default type URL, "or "" for ADS". -/
def anyType : String := ""

/-- Type URL policing, the same in both delta processors: required on an
aggregated stream, defaulted otherwise. -/
def policeTypeURL (defaultTypeURL : String) (req : DeltaDiscoveryRequest) :
    Except Error DeltaDiscoveryRequest :=
  if defaultTypeURL = anyType then
    if req.typeUrl = "" then .error (.status .invalidArgument "type URL is required for ADS")
    else .ok req
  else if req.typeUrl = "" then .ok { req with typeUrl := defaultTypeURL }
  else .ok req

end ControlPlane
