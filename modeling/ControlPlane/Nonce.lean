import Mathlib.Data.List.Nodup
import Mathlib.Data.Nat.Digits

/-!
The nonce generator both delta processors share: a per-stream `int64` counter
that `send` increments before it formats the counter in base 10 into the
response's nonce. Go's signed integers wrap around, so the counter holds `k`
after `k` increments only while `k < 2^63`.

Below the wrap-around the rendering is the decimal rendering of a natural
number, which is injective, so those nonces are pairwise distinct.
-/

namespace ControlPlane

/-- Go `int64` arithmetic: the result reduced into `[-2^63, 2^63)`. -/
def wrapInt64 (n : Int) : Int :=
  (n + 9223372036854775808) % 18446744073709551616 - 9223372036854775808

/-- `streamNonce = streamNonce + 1` on an `int64`. -/
def nextNonce (streamNonce : Int) : Int := wrapInt64 (streamNonce + 1)

/-- `strconv.FormatInt(n, 10)`: an optional minus sign, then the decimal digits. -/
def formatInt (n : Int) : String := n.repr

/-- The nonce a processor stamps on its `k`-th response: the counter after `k`
increments from zero, formatted. -/
def nonceOf (k : Nat) : String := formatInt (wrapInt64 k)

theorem wrapInt64_zero : wrapInt64 0 = 0 := by decide

theorem nextNonce_wrapInt64 (k : Nat) : nextNonce (wrapInt64 k) = wrapInt64 (k + 1 : Nat) := by
  unfold nextNonce wrapInt64
  omega

theorem wrapInt64_of_lt {k : Nat} (hk : k < 9223372036854775808) : wrapInt64 k = k := by
  unfold wrapInt64
  omega

/-- The counter wraps on the `2^63`-th increment. -/
theorem nonceOf_wrap : nonceOf 9223372036854775808 = "-9223372036854775808" := by decide

/-! ### Decimal rendering is injective -/

private theorem toDigitsCore_append (b f n : Nat) (ds : List Char) :
    Nat.toDigitsCore b f n ds = Nat.toDigitsCore b f n [] ++ ds := by
  induction f generalizing n ds with
  | zero => rfl
  | succ f ih =>
    simp only [Nat.toDigitsCore]
    split
    · rfl
    · rw [ih, ih (n / b) [_]]; simp

private theorem toDigitsCore_fuel (f g n : Nat) (hf : n < f) (hg : n < g) (ds : List Char) :
    Nat.toDigitsCore 10 f n ds = Nat.toDigitsCore 10 g n ds := by
  induction f generalizing g n ds with
  | zero => omega
  | succ f ih =>
    obtain ⟨g, rfl⟩ : ∃ g', g = g' + 1 := ⟨g - 1, by omega⟩
    simp only [Nat.toDigitsCore]
    split
    · rfl
    · exact ih g _ (by omega) (by omega) _

/-- The digits of `n` are the digits of `n / 10` followed by the last digit. -/
private theorem toDigits_ten (n : Nat) : Nat.toDigits 10 n =
    if n / 10 = 0 then [Nat.digitChar (n % 10)]
    else Nat.toDigits 10 (n / 10) ++ [Nat.digitChar (n % 10)] := by
  conv_lhs => rw [Nat.toDigits, Nat.toDigitsCore]
  split
  · rfl
  · rw [toDigitsCore_append, toDigitsCore_fuel n (n / 10 + 1) (n / 10) (by omega) (by omega)]
    rfl

private theorem digitChar_injOn :
    ∀ a < 10, ∀ b < 10, Nat.digitChar a = Nat.digitChar b → a = b := by
  decide

private theorem toDigits_ten_length_pos (n : Nat) : 0 < (Nat.toDigits 10 n).length := by
  rw [toDigits_ten]; split <;> simp

private theorem toDigits_ten_injective : Function.Injective (Nat.toDigits 10) := by
  intro n
  induction n using Nat.strong_induction_on with
  | _ n ih =>
    intro m h
    rw [toDigits_ten n, toDigits_ten m] at h
    have hn := Nat.mod_lt n (show 10 > 0 by omega)
    have hm := Nat.mod_lt m (show 10 > 0 by omega)
    split at h <;> split at h
    · have := digitChar_injOn _ hn _ hm (List.singleton_inj.mp h)
      omega
    · have hlen := congrArg List.length h
      simp only [List.length_append, List.length_singleton] at hlen
      have := toDigits_ten_length_pos (m / 10)
      omega
    · have hlen := congrArg List.length h
      simp only [List.length_append, List.length_singleton] at hlen
      have := toDigits_ten_length_pos (n / 10)
      omega
    · obtain ⟨hhigh, hlast⟩ := List.append_inj' h rfl
      have := ih (n / 10) (by omega) hhigh
      have := digitChar_injOn _ hn _ hm (List.singleton_inj.mp hlast)
      omega

theorem repr_injective : Function.Injective Nat.repr := by
  intro n m h
  apply toDigits_ten_injective
  simpa [Nat.repr, List.asString] using congrArg String.data h

/-- Below the wrap-around, the `k`-th nonce is the decimal rendering of `k`. -/
theorem nonceOf_of_lt {k : Nat} (hk : k < 9223372036854775808) : nonceOf k = Nat.repr k := by
  rw [nonceOf, wrapInt64_of_lt hk]
  rfl

/-- The nonces of the first `n` responses of a stream, in order. -/
def nonceSequence (n : Nat) : List String := (List.range n).map fun k => nonceOf (k + 1)

theorem nonceSequence_succ (n : Nat) :
    nonceSequence (n + 1) = nonceSequence n ++ [nonceOf (n + 1)] := by
  simp [nonceSequence, List.range_succ]

@[simp] theorem length_nonceSequence (n : Nat) : (nonceSequence n).length = n := by
  simp [nonceSequence]

theorem getElem_nonceSequence {n k : Nat} (hk : k < (nonceSequence n).length) :
    (nonceSequence n)[k] = nonceOf (k + 1) := by
  simp [nonceSequence]

/-- The counter has moved once per response sent, and the `k`-th response sent
carries `nonceOf k`. -/
structure Counted (streamNonce : Int) (sent : List String) : Prop where
  counter : streamNonce = wrapInt64 sent.length
  sequence : sent = nonceSequence sent.length

theorem counted_zero : Counted 0 [] := ⟨by rw [List.length_nil, Nat.cast_zero, wrapInt64_zero], rfl⟩

/-- `send` moves the counter and stamps its new value. -/
theorem Counted.next {n : Int} {sent : List String} (h : Counted n sent) :
    Counted (nextNonce n) (sent ++ [formatInt (nextNonce n)]) := by
  obtain ⟨hc, hs⟩ := h
  have hnext : formatInt (nextNonce n) = nonceOf (sent.length + 1) := by
    rw [hc, nextNonce_wrapInt64, nonceOf]
  refine ⟨?_, ?_⟩
  · rw [List.length_append, hc, nextNonce_wrapInt64]; rfl
  · rw [List.length_append, List.length_singleton, nonceSequence_succ, ← hs, hnext]

/-- The first `n` nonces of a stream, `n < 2^63`, are pairwise distinct. -/
theorem nonceSequence_nodup {n : Nat} (hn : n < 9223372036854775808) :
    (nonceSequence n).Nodup := by
  refine List.Nodup.map_on ?_ (List.nodup_range n)
  intro j hj k hk h
  rw [List.mem_range] at hj hk
  rw [nonceOf_of_lt (by omega), nonceOf_of_lt (by omega)] at h
  have := repr_injective h
  omega

end ControlPlane
