import Vortice.Foundation.Resumable

/-!
# Streams of encoded items

A coding pairs a resumable decoder with an encoding of single items.  A reader that has been
given a beginning of a stream of encoded items, in chunks, has taken a beginning of the items
off it, and what it holds is a beginning of the encoding of the others.
-/

namespace Vortice.Foundation

variable {δ α φ ε : Type*} {R : Resumable δ α φ ε}

/-- A state from which the decoder takes any item off the front of its encoding. -/
structure Coding (R : Resumable δ α φ ε) where
  start : δ
  encode : φ → List α
  decode_nil : R.decode start [] = (start, [], .ok none)
  decode_encode : ∀ item rest,
    R.decode start (encode item ++ rest) = (start, rest, .ok (some item))

namespace Coding

variable (C : Coding R)

/-- A reader that was given `read` has taken `items` off it and holds the rest. -/
def Holds (decoder : δ) (buffer read : List α) (items : List φ) : Prop :=
  ∃ rest, read = items.flatMap C.encode ++ rest ∧
    ∀ more, R.decode decoder (buffer ++ more) = R.decode C.start (rest ++ more)

variable {C} {decoder decoder' : δ} {buffer buffer' read tail : List α} {items sent : List φ}

theorem holds_start : C.Holds C.start [] [] [] := ⟨[], by simp, fun _ => rfl⟩

theorem Holds.arrive (h : C.Holds decoder buffer read items) (chunk : List α) :
    C.Holds decoder (buffer ++ chunk) (read ++ chunk) items := by
  obtain ⟨rest, hread, hdecode⟩ := h
  refine ⟨rest ++ chunk, by simp [hread], fun more => ?_⟩
  simpa using hdecode (chunk ++ more)

theorem Holds.pause (h : C.Holds decoder buffer read items)
    (hpause : R.decode decoder buffer = (decoder', buffer', .ok none)) :
    C.Holds decoder' buffer' read items := by
  obtain ⟨rest, hread, hdecode⟩ := h
  exact ⟨rest, hread, fun more => (R.none_append hpause more).symm.trans (hdecode more)⟩

/-- What a reader of a stream does next: it waits where the stream goes on, or takes the next
item. -/
theorem Holds.next (h : C.Holds decoder buffer read items)
    (hsent : read ++ tail = sent.flatMap C.encode) (hitems : items <+: sent) :
    (∃ decoder' buffer', R.decode decoder buffer = (decoder', buffer', .ok none) ∧
      (tail = [] → items = sent)) ∨
    ∃ item buffer', R.decode decoder buffer = (C.start, buffer', .ok (some item)) ∧
      items ++ [item] <+: sent ∧ C.Holds C.start buffer' read (items ++ [item]) := by
  obtain ⟨later, rfl⟩ := hitems
  obtain ⟨rest, rfl, hdecode⟩ := h
  have hrest : rest ++ tail = later.flatMap C.encode := by simpa using hsent
  have hnow : R.decode decoder buffer = R.decode C.start rest := by simpa using hdecode []
  rw [hnow]
  rcases hfound : R.decode C.start rest with ⟨found, buffer', error | _ | item⟩
  · have hlater := R.error_append hfound tail
    rw [hrest] at hlater
    cases later with
    | nil => simp [C.decode_nil] at hlater
    | cons item later => simp [C.decode_encode] at hlater
  · left
    refine ⟨found, buffer', rfl, fun htail => ?_⟩
    cases later with
    | nil => simp
    | cons item later =>
        rw [htail, List.append_nil] at hrest
        simp [hrest, C.decode_encode] at hfound
  · right
    have hlater := R.item_append hfound tail
    rw [hrest] at hlater
    cases later with
    | nil => simp [C.decode_nil] at hlater
    | cons first later =>
        simp only [List.flatMap_cons, C.decode_encode, Prod.mk.injEq, Except.ok.injEq,
          Option.some.injEq] at hlater
        obtain ⟨rfl, hbuffer, rfl⟩ := hlater
        refine ⟨first, buffer', rfl, by simp, ?_⟩
        have htaken : rest = C.encode first ++ buffer' := by
          rw [List.flatMap_cons, hbuffer, ← List.append_assoc] at hrest
          exact List.append_cancel_right hrest
        exact ⟨buffer', by simp [htaken], fun _ => rfl⟩

end Coding

end Vortice.Foundation
