import Mathlib.Data.List.Basic

/-!
# Resumable decoders

A resumable decoder takes at most one item off the front of a buffer and keeps
what it needs for the next call.  Its laws say that octets appended behind a
decision never change it.  From them follows that a consumer fed in chunks
cannot tell how its input was cut.
-/

namespace Vortice.Foundation

/-- A decoder together with the laws that make it insensitive to later input. -/
structure Resumable (δ α φ ε : Type*) where
  decode : δ → List α → δ × List α × Except ε (Option φ)
  item_append : ∀ {decoder buffer decoder' rest item},
    decode decoder buffer = (decoder', rest, .ok (some item)) →
      ∀ more, decode decoder (buffer ++ more) =
        (decoder', rest ++ more, .ok (some item))
  error_append : ∀ {decoder buffer decoder' rest error},
    decode decoder buffer = (decoder', rest, .error error) →
      ∀ more, decode decoder (buffer ++ more) =
        (decoder', rest ++ more, .error error)
  none_append : ∀ {decoder buffer decoder' rest},
    decode decoder buffer = (decoder', rest, .ok none) →
      ∀ more, decode decoder (buffer ++ more) = decode decoder' (rest ++ more)
  item_shortens : ∀ {decoder buffer decoder' rest item},
    decode decoder buffer = (decoder', rest, .ok (some item)) →
      rest.length < buffer.length

/-- A consumer with the decoder and the buffer it reads from. -/
structure Fed (σ δ α : Type*) where
  state : σ
  decoder : δ
  buffer : List α

namespace Resumable

variable {δ α φ ε σ ε' : Type*}
variable (R : Resumable δ α φ ε) (lift : ε → ε')
variable (handle : σ → φ → σ × Except ε' Unit)

/-- Handle every item the buffer holds, at most `fuel` of them. -/
def pump : Nat → Fed σ δ α → Fed σ δ α × Except ε' Unit
  | 0, fed => (fed, .ok ())
  | fuel + 1, fed =>
      match R.decode fed.decoder fed.buffer with
      | (decoder, rest, .error error) =>
          (⟨fed.state, decoder, rest⟩, .error (lift error))
      | (decoder, rest, .ok none) => (⟨fed.state, decoder, rest⟩, .ok ())
      | (decoder, rest, .ok (some item)) =>
          match handle fed.state item with
          | (state, .error error) => (⟨state, decoder, rest⟩, .error error)
          | (state, .ok ()) => pump fuel ⟨state, decoder, rest⟩

/-- Handle everything the buffer holds. -/
def drain (fed : Fed σ δ α) : Fed σ δ α × Except ε' Unit :=
  R.pump lift handle (fed.buffer.length + 1) fed

/-- Append a chunk and handle everything that has become complete. -/
def feed (fed : Fed σ δ α) (chunk : List α) : Fed σ δ α × Except ε' Unit :=
  R.drain lift handle { fed with buffer := fed.buffer ++ chunk }

/-- Feed chunks in order up to the first error, with the chunks not yet fed. -/
def feedAll : Fed σ δ α → List (List α) →
    Fed σ δ α × List (List α) × Except ε' Unit
  | fed, [] => (fed, [], .ok ())
  | fed, chunk :: chunks =>
      match R.feed lift handle fed chunk with
      | (fed, .error error) => (fed, chunks, .error error)
      | (fed, .ok ()) => feedAll fed chunks

theorem pump_fuel {fuel fuel' : Nat} {fed : Fed σ δ α}
    (h : fed.buffer.length < fuel) (h' : fed.buffer.length < fuel') :
    R.pump lift handle fuel fed = R.pump lift handle fuel' fed := by
  induction fuel generalizing fuel' fed with
  | zero => omega
  | succ fuel ih =>
      cases fuel' with
      | zero => omega
      | succ fuel' =>
          rw [pump, pump]
          rcases hdecode : R.decode fed.decoder fed.buffer with
            ⟨decoder, rest, error | _ | item⟩
          · rfl
          · rfl
          · have hlt := R.item_shortens hdecode
            rcases hhandle : handle fed.state item with ⟨state, error | _⟩ <;>
              simp only [hhandle]
            exact ih (Nat.lt_of_lt_of_le hlt (by omega))
              (Nat.lt_of_lt_of_le hlt (by omega))

/-- The loop of a consumer, with the fuel out of sight. -/
theorem drain_eq (fed : Fed σ δ α) :
    R.drain lift handle fed =
      match R.decode fed.decoder fed.buffer with
      | (decoder, rest, .error error) =>
          (⟨fed.state, decoder, rest⟩, .error (lift error))
      | (decoder, rest, .ok none) => (⟨fed.state, decoder, rest⟩, .ok ())
      | (decoder, rest, .ok (some item)) =>
          match handle fed.state item with
          | (state, .error error) => (⟨state, decoder, rest⟩, .error error)
          | (state, .ok ()) => R.drain lift handle ⟨state, decoder, rest⟩ := by
  rw [drain, pump]
  rcases hdecode : R.decode fed.decoder fed.buffer with
    ⟨decoder, rest, error | _ | item⟩
  · rfl
  · rfl
  · have hlt := R.item_shortens hdecode
    rcases hhandle : handle fed.state item with ⟨state, error | _⟩ <;>
      simp only [hhandle]
    exact R.pump_fuel lift handle (by omega) (by simp)

section Cases

variable {decoder decoder' : δ} {buffer rest : List α} {state state' : σ}

theorem drain_of_none
    (h : R.decode decoder buffer = (decoder', rest, .ok none)) :
    R.drain lift handle ⟨state, decoder, buffer⟩ =
      (⟨state, decoder', rest⟩, .ok ()) := by
  rw [drain_eq]
  simp only [h]

theorem drain_of_error {error : ε}
    (h : R.decode decoder buffer = (decoder', rest, .error error)) :
    R.drain lift handle ⟨state, decoder, buffer⟩ =
      (⟨state, decoder', rest⟩, .error (lift error)) := by
  rw [drain_eq]
  simp only [h]

theorem drain_of_item {item : φ}
    (h : R.decode decoder buffer = (decoder', rest, .ok (some item)))
    (hhandle : handle state item = (state', .ok ())) :
    R.drain lift handle ⟨state, decoder, buffer⟩ =
      R.drain lift handle ⟨state', decoder', rest⟩ := by
  rw [drain_eq]
  simp only [h, hhandle]

theorem drain_of_refused {item : φ} {error : ε'}
    (h : R.decode decoder buffer = (decoder', rest, .ok (some item)))
    (hhandle : handle state item = (state', .error error)) :
    R.drain lift handle ⟨state, decoder, buffer⟩ =
      (⟨state', decoder', rest⟩, .error error) := by
  rw [drain_eq]
  simp only [h, hhandle]

end Cases

/-- Nothing is left to take once a decoder has asked for more input. -/
theorem decode_idle {decoder decoder' : δ} {buffer rest : List α}
    (h : R.decode decoder buffer = (decoder', rest, .ok none)) :
    R.decode decoder' rest = (decoder', rest, .ok none) := by
  have happend := R.none_append h []
  rw [List.append_nil, List.append_nil] at happend
  rw [← happend, h]

/--
Octets behind a buffer either extend what its drain left, or stay unread behind
the error that ended it.
-/
theorem drain_append (fed : Fed σ δ α) (more : List α) :
    R.drain lift handle { fed with buffer := fed.buffer ++ more } =
      match R.drain lift handle fed with
      | (fed', .error error) =>
          ({ fed' with buffer := fed'.buffer ++ more }, .error error)
      | (fed', .ok ()) =>
          R.drain lift handle { fed' with buffer := fed'.buffer ++ more } := by
  obtain ⟨state, decoder, buffer⟩ := fed
  induction hlen : buffer.length using Nat.strongRecOn
    generalizing state decoder buffer with
  | ind n ih =>
      rcases hdecode : R.decode decoder buffer with
        ⟨decoder', rest, error | _ | item⟩
      · rw [R.drain_of_error lift handle hdecode,
          R.drain_of_error lift handle (R.error_append hdecode more)]
      · rw [R.drain_of_none lift handle hdecode, drain_eq,
          R.none_append hdecode more, ← drain_eq R lift handle
            ⟨state, decoder', rest ++ more⟩]
      · have hlt := R.item_shortens hdecode
        rcases hhandle : handle state item with ⟨state', error | _⟩
        · rw [R.drain_of_refused lift handle hdecode hhandle,
            R.drain_of_refused lift handle (R.item_append hdecode more) hhandle]
        · rw [R.drain_of_item lift handle hdecode hhandle,
            R.drain_of_item lift handle (R.item_append hdecode more) hhandle]
          exact ih rest.length (by omega) state' decoder' rest rfl

/-- A successful feed leaves a decoder that asks for more input. -/
theorem idle_of_feed {fed fed' : Fed σ δ α} {chunk : List α}
    (h : R.feed lift handle fed chunk = (fed', .ok ())) :
    R.decode fed'.decoder fed'.buffer =
      (fed'.decoder, fed'.buffer, .ok none) := by
  obtain ⟨state, decoder, buffer⟩ := fed
  unfold feed at h
  simp only at h
  generalize buffer ++ chunk = input at h
  clear buffer chunk
  induction hlen : input.length using Nat.strongRecOn
    generalizing state decoder input with
  | ind n ih =>
      rcases hdecode : R.decode decoder input with
        ⟨decoder', rest, error | _ | item⟩
      · rw [R.drain_of_error lift handle hdecode] at h
        cases h
      · rw [R.drain_of_none lift handle hdecode] at h
        cases h
        exact R.decode_idle hdecode
      · have hlt := R.item_shortens hdecode
        rcases hhandle : handle state item with ⟨state', error | _⟩
        · rw [R.drain_of_refused lift handle hdecode hhandle] at h
          cases h
        · rw [R.drain_of_item lift handle hdecode hhandle] at h
          exact ih rest.length (by omega) state' decoder' rest h rfl

/-- Without an error every chunk is fed. -/
theorem unread_of_feedAll {fed : Fed σ δ α} {chunks : List (List α)}
    (h : (R.feedAll lift handle fed chunks).2.2 = .ok ()) :
    (R.feedAll lift handle fed chunks).2.1 = [] := by
  induction chunks generalizing fed with
  | nil => rfl
  | cons chunk chunks ih =>
      rw [feedAll] at h ⊢
      rcases hfeed : R.feed lift handle fed chunk with ⟨fed', error | _⟩
      · rw [hfeed] at h
        cases h
      · rw [hfeed] at h
        exact ih h

/-- Cutting the input into chunks is invisible: the first chunk and the rest. -/
theorem feedAll_cons (fed : Fed σ δ α) (chunk : List α)
    (chunks : List (List α)) :
    R.feed lift handle fed (chunk ++ chunks.flatten) =
      match R.feedAll lift handle fed (chunk :: chunks) with
      | (fed', unread, result) =>
          ({ fed' with buffer := fed'.buffer ++ unread.flatten }, result) := by
  induction chunks generalizing fed chunk with
  | nil =>
      rw [feedAll]
      rcases hfeed : R.feed lift handle fed chunk with ⟨fed', error | _⟩ <;>
        simp [hfeed, feedAll]
  | cons next chunks ih =>
      rw [feedAll]
      have happend := R.drain_append lift handle
        { fed with buffer := fed.buffer ++ chunk } (next :: chunks).flatten
      rw [feed, ← List.append_assoc, happend]
      rcases hfeed : R.feed lift handle fed chunk with ⟨fed', error | _⟩
      · rw [feed] at hfeed
        simp only [hfeed]
      · have hnext := ih fed' next
        rw [feed] at hfeed
        simp only [hfeed]
        rw [List.flatten_cons]
        exact hnext

/-- Chunks fed to an idle consumer do what their concatenation does. -/
theorem feedAll_eq (fed : Fed σ δ α)
    (hidle : R.decode fed.decoder fed.buffer =
      (fed.decoder, fed.buffer, .ok none))
    (chunks : List (List α)) :
    R.feed lift handle fed chunks.flatten =
      match R.feedAll lift handle fed chunks with
      | (fed', unread, result) =>
          ({ fed' with buffer := fed'.buffer ++ unread.flatten }, result) := by
  cases chunks with
  | nil =>
      rw [feed, List.flatten_nil, List.append_nil, feedAll]
      simp only [List.flatten_nil, List.append_nil]
      exact R.drain_of_none lift handle hidle
  | cons chunk chunks =>
      rw [List.flatten_cons]
      exact R.feedAll_cons lift handle fed chunk chunks

end Resumable

end Vortice.Foundation
