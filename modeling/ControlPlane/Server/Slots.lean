import ControlPlane.Server.Watches

/-!
Which watch each type of a v2 stream (`processDelta` of pkg/server/v2) reads.
The stream keeps one channel per type, and the switch of the request case
stores the watch it just created in place of the type's old one. So each type's
slot always holds the most recently created watch for the type's URL, and a
response case only ever takes a response from that watch: unlike the muxed
processor's shared channel, a response of a replaced watch is never sent.
-/

namespace ControlPlane.Server

/-- The most recently created of `watches` for a request of `typeURL`. -/
def latestWatch (typeURL : String) (watches : List Watch) : Option Nat :=
  ((List.range watches.length).filter fun w =>
    watches[w]?.map (fun watch => watch.req.typeUrl) = some typeURL).getLast?

/-- A new watch is the latest for its own URL and changes no other URL's. -/
theorem latestWatch_concat (typeURL : String) (watches : List Watch) (watch : Watch) :
    latestWatch typeURL (watches ++ [watch]) =
      if watch.req.typeUrl = typeURL then some watches.length
      else latestWatch typeURL watches := by
  have hold : ((List.range watches.length).filter fun w =>
        (watches ++ [watch])[w]?.map (fun watch => watch.req.typeUrl) = some typeURL) =
      (List.range watches.length).filter fun w =>
        watches[w]?.map (fun watch => watch.req.typeUrl) = some typeURL :=
    List.filter_congr fun w hw => by
      rw [List.getElem?_append_left (List.mem_range.mp hw)]
  unfold latestWatch
  rw [List.length_append, List.length_singleton, List.range_succ, List.filter_append, hold]
  split <;> simp [*]

/-- The latest watch of a URL depends only on the watches' requests. -/
theorem latestWatch_congr (typeURL : String) {watches watches' : List Watch}
    (hlength : watches'.length = watches.length)
    (hreq : ∀ w : Nat, watches'[w]?.map (fun watch : Watch => watch.req) =
      watches[w]?.map fun watch : Watch => watch.req) :
    latestWatch typeURL watches' = latestWatch typeURL watches := by
  unfold latestWatch
  rw [hlength]
  congr 1
  refine List.filter_congr fun w _ => ?_
  have h := congrArg (Option.map DeltaDiscoveryRequest.typeUrl) (hreq w)
  simp only [Option.map_map] at h
  exact congrArg (fun o => decide (o = some typeURL)) h

/-- Steps that leave the watches alone keep each watch's request. -/
theorem SameWatches.req_eq {s s' : Stream} (h : SameWatches s s') (w : Nat) :
    s'.watches[w]?.map (fun watch : Watch => watch.req) =
      s.watches[w]?.map fun watch : Watch => watch.req := by
  rcases hw' : s'.watches[w]? with _ | watch'
  · have hle : s.watches.length ≤ w := h.length ▸ List.getElem?_eq_none_iff.mp hw'
    rw [List.getElem?_eq_none_iff.mpr hle]
  · obtain ⟨watch, hw, hreq, -⟩ := h.watches w watch' hw'
    rw [hw]
    exact congrArg some hreq

/-- Each type's slot holds the latest watch for the type's URL. -/
def SlotsLatest (urls : TypeURLs) (s : Stream) : Prop :=
  ∀ t, (s.values t).watch = latestWatch (urls.url t) s.watches

section Slots

variable {callbacks log : Bool} {urls : TypeURLs} {versions versions' : GoMap String}
  {s s' : Stream} {a : Action}

theorem SlotsLatest.same (hs : SlotsLatest urls s) (h : SameWatches s s') : SlotsLatest urls s' :=
  fun t => by rw [h.values t, hs t, latestWatch_congr _ h.length h.req_eq]

/-- The switch stores the watch it creates for the type it re-watches, the
one type whose URL the request names. -/
theorem SlotsLatest.rewatch (hs : SlotsLatest urls s) (req : DeltaDiscoveryRequest)
    (nonce : String) : SlotsLatest urls (s.rewatch urls versions req nonce) := by
  unfold Stream.rewatch
  split
  · exact hs
  rename_i u hfind
  have hurl : req.typeUrl = urls.url u := by
    have hp := List.find?_some hfind
    simp only [Bool.and_eq_true, decide_eq_true_eq] at hp
    exact hp.1
  intro t
  dsimp only
  rw [latestWatch_concat]
  rcases eq_or_ne t u with rfl | ht
  · simp [hurl]
  · have hne : req.typeUrl ≠ urls.url t := hurl ▸ fun h => ht (urls.injective h).symm
    rw [Function.update_noteq ht, if_neg hne]
    exact hs t

theorem SlotsLatest.step (hs : SlotsLatest urls s)
    (h : s.step callbacks log urls versions a = some (s', versions')) : SlotsLatest urls s' := by
  obtain ⟨s₁, hsame, -, rfl | ⟨-, ⟨err, rfl⟩ | ⟨req, nonce, rfl⟩⟩⟩ := step_shape h
  · exact hs.same hsame
  · -- the teardown touches neither the slots nor the watches
    exact fun t => hs.same hsame t
  · exact (hs.same hsame).rewatch req nonce

end Slots

end ControlPlane.Server
