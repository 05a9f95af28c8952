import ControlPlane.Discovery

/-!
The per-stream values of the muxed delta processor (pkg/server/delta/v2): the
server options that size the response channel, the channel itself, and the
`watches` record with its stream-state store, cancel handles and nonces.

A Go channel is modelled as it behaves, not as it is laid out: one list, oldest
first, of the values in its buffer followed by the values of senders blocked on
it. A receive takes the head of that list, which is what the Go runtime does
when it refills the buffer from the first blocked sender. The buffer holds the
first `capacity` values, so `len(ch)` is `min capacity length`.

A cancel handle is the number of the watch it cancels; the cache returns one
handle per `CreateDeltaWatch`, never a nil one.
-/

namespace ControlPlane.Delta

/-- The `server` fields the delta processor reads. Buffer sizes are Go `int`s;
a negative size makes `make` panic and is not modelled. -/
structure Server where
  /-- `s.callbacks != nil` -/
  callbacks : Bool
  xdsBufferSize : Nat
  muxBufferSize : Nat

/-- `ServerOption`. -/
abbrev ServerOption := Server → Server

/-- `NewServer`: channel sizes 1 and 8, then the options in order. -/
def newServer (callbacks : Bool) (opts : List ServerOption) : Server :=
  opts.foldl (fun out opt => opt out) ⟨callbacks, 1, 8⟩

/-- `WithADSBufferSize`. -/
def withADSBufferSize (size : Nat) : ServerOption := fun s => { s with muxBufferSize := size }

/-- `WithXDSBufferSize`. -/
def withXDSBufferSize (size : Nat) : ServerOption := fun s => { s with xdsBufferSize := size }

/-- The response channel's capacity: the mux size on an aggregated stream, the
xDS size otherwise. -/
def Server.bufferSize (server : Server) (defaultTypeURL : String) : Nat :=
  if defaultTypeURL = anyType then server.muxBufferSize else server.xdsBufferSize

/-- A Go channel: the buffered values, then those of blocked senders. -/
structure Chan (α : Type) where
  capacity : Nat
  contents : List α

namespace Chan

variable {α : Type}

/-- `len(ch)`: the values in the buffer. -/
def len (ch : Chan α) : Nat := min ch.capacity ch.contents.length

/-- `ch <- a`: the value joins the buffer, or waits behind a full one. -/
def send (ch : Chan α) (a : α) : Chan α := { ch with contents := ch.contents ++ [a] }

/-- `<-ch` when a value is ready: the oldest one. -/
def recv? (ch : Chan α) : Option (α × Chan α) :=
  match ch.contents with
  | [] => none
  | a :: rest => some (a, { ch with contents := rest })

@[simp] theorem send_capacity (ch : Chan α) (a : α) : (ch.send a).capacity = ch.capacity := rfl

@[simp] theorem send_contents (ch : Chan α) (a : α) :
    (ch.send a).contents = ch.contents ++ [a] := rfl

theorem recv?_eq_some {ch ch' : Chan α} {a : α} (h : ch.recv? = some (a, ch')) :
    ch.contents = a :: ch'.contents ∧ ch'.capacity = ch.capacity := by
  obtain ⟨capacity, _ | ⟨b, rest⟩⟩ := ch
  · cases h
  · simp only [recv?, Option.some.injEq, Prod.mk.injEq] at h
    obtain ⟨rfl, rfl⟩ := h
    exact ⟨rfl, rfl⟩

theorem recv?_eq_none {ch : Chan α} : ch.recv? = none ↔ ch.contents = [] := by
  unfold recv?
  split <;> simp_all

end Chan

/-- A value on `deltaResponses`, tagged with the handle of the watch that sent
it. The tag is ghost: the processor never reads it. -/
structure Emission where
  watch : Nat
  response : Option DeltaResponse

/-- `watches`: the stream's values. `locked` is `mu` held for writing. -/
structure Watches where
  locked : Bool
  deltaStreamStates : GoMap StreamState
  deltaResponses : Chan Emission
  deltaCancellations : GoMap (Option Nat)
  deltaNonces : GoMap String

/-- The empty stream state `initStreamState` stores for each known type. -/
def emptyStreamState : StreamState := ⟨"", "", ∅⟩

/-- `initStreamState`: an empty entry for each known type URL. The table of
type URLs (`types.UnknownType`, `cache.GetResponseTypeURL`) is not under src/
and is a parameter. -/
def initStreamState (typeURLs : List String) : GoMap StreamState :=
  typeURLs.foldl (fun m typeURL => m.insert typeURL emptyStreamState) ∅

/-- Every state `initStreamState` holds is the empty one. -/
theorem lookup_initStreamState {typeURLs : List String} {typeURL : String} {state : StreamState}
    (h : (initStreamState typeURLs).lookup typeURL = some state) : state = emptyStreamState := by
  have hall (rest : List String) (m : GoMap StreamState)
      (hm : ∀ t st, m.lookup t = some st → st = emptyStreamState) (t : String) (st : StreamState)
      (hst : (rest.foldl (fun m t => m.insert t emptyStreamState) m).lookup t = some st) :
      st = emptyStreamState := by
    induction rest generalizing m with
    | nil => exact hm t st hst
    | cons first rest ih =>
      refine ih _ (fun t st hst => ?_) hst
      by_cases ht : t = first
      · subst ht
        simpa [AList.lookup_insert, eq_comm] using hst
      · exact hm t st (by rwa [AList.lookup_insert_ne ht] at hst)
  exact hall typeURLs ∅ (by simp) typeURL state h

/-- `watches.Init`. -/
def Watches.init (bufferSize : Nat) (typeURLs : List String) : Watches where
  locked := false
  deltaStreamStates := initStreamState typeURLs
  deltaResponses := ⟨bufferSize, []⟩
  deltaCancellations := ∅
  deltaNonces := ∅

/-- The handles `watches.Cancel` invokes: the non-nil ones. Go ranges over the
map in no fixed order; no result here depends on the order. -/
def Watches.cancelHandles (values : Watches) : List Nat :=
  values.deltaCancellations.entries.filterMap (·.2)

/-- `server.unsubscribe`: delete each resource from the version map. -/
def unsubscribe (resources : List String) (sv : VersionMap) : VersionMap :=
  resources.foldl (fun sv resource => sv.erase resource) sv

/-- The unsubscribe step of a request: `unsubscribe` on the version map stored
for the type URL, in place. A type URL the store lacks reads as the zero state,
whose nil map `delete` leaves alone, so the store is unchanged. -/
def Watches.unsubscribe (values : Watches) (typeURL : String) (names : List String) :
    Watches :=
  match values.deltaStreamStates.lookup typeURL with
  | some state =>
    { values with
      deltaStreamStates := values.deltaStreamStates.insert typeURL
        { state with resourceVersions := Delta.unsubscribe names state.resourceVersions } }
  | none => values

theorem mem_cancelHandles {values : Watches} {handle : Nat} :
    handle ∈ values.cancelHandles ↔
      ∃ typeURL, values.deltaCancellations.lookup typeURL = some (some handle) := by
  simp only [Watches.cancelHandles, List.mem_filterMap, AList.lookup, Option.mem_def.symm]
  constructor
  · rintro ⟨⟨typeURL, cancel⟩, hmem, rfl⟩
    exact ⟨typeURL, List.mem_dlookup values.deltaCancellations.nodupKeys hmem⟩
  · rintro ⟨typeURL, h⟩
    exact ⟨⟨typeURL, some handle⟩, List.of_mem_dlookup h, rfl⟩

theorem unsubscribe_append (names more : List String) (sv : VersionMap) :
    unsubscribe (names ++ more) sv = unsubscribe more (unsubscribe names sv) :=
  List.foldl_append _ _ _ _

theorem unsubscribe_empty (names : List String) : unsubscribe names ∅ = ∅ := by
  induction names with
  | nil => rfl
  | cons name names ih => exact ih

/-- After `unsubscribe`, a name is absent if it was unsubscribed, and keeps its
version otherwise. -/
theorem lookup_unsubscribe (names : List String) (sv : VersionMap) (name : String) :
    (unsubscribe names sv).lookup name = if name ∈ names then none else sv.lookup name := by
  induction names generalizing sv with
  | nil => simp [unsubscribe]
  | cons first names ih =>
    show (unsubscribe names (sv.erase first)).lookup name = _
    rw [ih]
    by_cases hfirst : name = first
    · subst hfirst; simp [AList.lookup_erase]
    · simp [hfirst, AList.lookup_erase_ne hfirst]

end ControlPlane.Delta
