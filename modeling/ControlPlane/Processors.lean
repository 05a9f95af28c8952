import ControlPlane.Delta.Nonces
import ControlPlane.Server.Nonces

/-!
What the two delta processors, the muxed one of pkg/server/delta/v2 and the
per-type-channel one of pkg/server/v2, guarantee alike about their nonces. Both
count responses in an `int64` and stamp the counter's decimal rendering, so in
every run of either, the `k`-th response a stream sends carries `nonceOf k`.
Below the wrap-around at `2^63` that is the decimal rendering of `k`, and the
nonces are pairwise distinct.
-/

namespace ControlPlane

/-- The nonces a stream handed to `Send`, and those its response callback saw,
as the generator makes them. -/
structure Generated (callbacks : Bool) (sent seen : List String) : Prop where
  stamped : ∀ k (hk : k < sent.length), sent[k] = nonceOf (k + 1)
  decimal : ∀ k (hk : k < sent.length), k + 1 < 9223372036854775808 → sent[k] = Nat.repr (k + 1)
  distinct : sent.length < 9223372036854775808 → sent.Nodup
  seen : seen = if callbacks then sent else []

/-- The counter invariant of either processor gives what the nonces look like. -/
theorem generated_of_counted {callbacks : Bool} {n : Int} {sent seen : List String}
    (h : Counted n sent) (hseen : seen = if callbacks then sent else []) :
    Generated callbacks sent seen := by
  have hstamped : ∀ k (hk : k < sent.length), sent[k] = nonceOf (k + 1) := fun _ hk =>
    (List.getElem_of_eq h.sequence hk).trans (getElem_nonceSequence _)
  refine ⟨hstamped, fun k hk hlt => (hstamped k hk).trans (nonceOf_of_lt hlt), fun hn => ?_, hseen⟩
  rw [h.sequence]
  exact nonceSequence_nodup hn

/-- In every run of either delta processor, on any server, against any cache:
the `k`-th response a stream hands to `Send` carries `nonceOf k`, the decimal
rendering of `k` for `k < 2^63`; a stream's first `2^63 - 1` nonces are pairwise
distinct; and `OnStreamDeltaResponse`, when the server has callbacks, sees the
same nonces in the same order. -/
theorem nonces_generated :
    (∀ (server : Delta.Server) d defaultTypeURL typeURLs s,
      Delta.Reachable server d defaultTypeURL typeURLs s →
        Generated server.callbacks (Delta.sentNonces s.trace) (Delta.callbackNonces s.trace)) ∧
    (∀ (server : Server.Config) w, Server.World.Reachable server w → ∀ s ∈ w.streams,
        Generated server.callbacks (Server.sentNonces s.trace)
          (Server.callbackNonces s.trace)) := by
  refine ⟨fun _ _ _ _ _ hs => ?_, fun _ _ hw s hs => ?_⟩
  · have h := Delta.nonceCount_reachable hs
    exact generated_of_counted h.counted h.callbacks
  · have h := Server.nonceCount_reachable (hw.stream s hs)
    exact generated_of_counted h.counted h.callbacks

end ControlPlane
