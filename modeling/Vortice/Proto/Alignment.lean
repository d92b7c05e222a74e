import Vortice.Proto.Boundary
import Vortice.Proto.RoundTrip

/-!
# Cutting a stream at the ends of its frames

The measure of a frame depends on the frame alone, so a stream of frames is cut into the
same frames however it comes, one whole frame at a time.
-/

namespace Vortice.Proto

open Vortice.Foundation

variable {src line rest more : Octets} {n : Nat}

theorem StartsWithLine.append (h : StartsWithLine src line rest) (more : Octets) :
    StartsWithLine (src ++ more) line (rest ++ more) := by
  obtain ⟨rfl, hline⟩ := h
  exact ⟨List.append_assoc _ _ _, hline⟩

theorem StartsWithLine.taken_eq {taken : Octets} (h : StartsWithLine src line rest)
    (hsrc : src = taken ++ rest) : taken = line ++ octets "\r\n" := by
  rw [h.1] at hsrc
  exact (List.append_cancel_right hsrc).symm

namespace Decoder

theorem frameBoundary_of_seq {frame : SeqFrame}
    (hline : HeaderLine Proto.maxFrameSize line (.seq frame))
    (h : StartsWithLine src line rest) :
    frameBoundary src = some (line ++ octets "\r\n").length := by
  have hheader : new.decodeHeader src = .ok (some (.seq frame, rest)) :=
    decodeHeader_eq_ok.mpr ⟨line, hline, h⟩
  obtain ⟨hnone, -⟩ | ⟨_, taken, _, hsrc, hfound, hmeasure⟩ | ⟨_, _, _, -, hfound, -⟩ :=
    frameBoundary_cases src
  · exact absurd hheader (hnone _)
  · rw [hheader] at hfound
    cases hfound
    rw [hmeasure, h.taken_eq hsrc]
  · rw [hheader] at hfound
    cases hfound

theorem frameBoundary_of_data {header : DataHeader}
    (hline : HeaderLine Proto.maxFrameSize line (.data header)) (h : StartsWithLine src line rest) :
    frameBoundary src = if rest.length < header.size.toNat + trailer.length then none
      else some ((line ++ octets "\r\n").length + header.size.toNat + trailer.length) := by
  have hheader : new.decodeHeader src = .ok (some (.data header, rest)) :=
    decodeHeader_eq_ok.mpr ⟨line, hline, h⟩
  obtain ⟨hnone, -⟩ | ⟨_, _, _, -, hfound, -⟩ | ⟨_, taken, _, hsrc, hfound, hmeasure⟩ :=
    frameBoundary_cases src
  · exact absurd hheader (hnone _)
  · rw [hheader] at hfound
    cases hfound
  · rw [hheader] at hfound
    cases hfound
    rw [hmeasure, h.taken_eq hsrc]

theorem exists_line_of_boundary (h : frameBoundary src = some n) :
    ∃ line rest parsed, HeaderLine Proto.maxFrameSize line parsed ∧
      StartsWithLine src line rest := by
  obtain ⟨-, hmeasure⟩ | ⟨_, _, rest, -, hfound, -⟩ | ⟨_, _, rest, -, hfound, -⟩ :=
    frameBoundary_cases src
  · rw [h] at hmeasure
    cases hmeasure
  · obtain ⟨line, hline, hstarts⟩ := decodeHeader_eq_ok.mp hfound
    exact ⟨line, rest, _, hline, hstarts⟩
  · obtain ⟨line, hline, hstarts⟩ := decodeHeader_eq_ok.mp hfound
    exact ⟨line, rest, _, hline, hstarts⟩

theorem frameBoundary_le (h : frameBoundary src = some n) : 0 < n ∧ n ≤ src.length := by
  have hend : (octets "\r\n").length = 2 := rfl
  obtain ⟨line, rest, parsed, hline, hstarts⟩ := exists_line_of_boundary h
  have hlength := congrArg List.length hstarts.1
  simp only [List.length_append, hend] at hlength
  cases parsed with
  | seq frame =>
      rw [frameBoundary_of_seq hline hstarts] at h
      cases h
      rw [List.length_append, hend]
      omega
  | data header =>
      rw [frameBoundary_of_data hline hstarts] at h
      split at h
      · cases h
      · cases h
        rw [List.length_append, hend]
        omega

theorem frameBoundary_append (h : frameBoundary src = some n) (more : Octets) :
    frameBoundary (src ++ more) = some n := by
  obtain ⟨line, rest, parsed, hline, hstarts⟩ := exists_line_of_boundary h
  cases parsed with
  | seq frame =>
      rw [frameBoundary_of_seq hline hstarts] at h
      rw [frameBoundary_of_seq hline (hstarts.append more), h]
  | data header =>
      rw [frameBoundary_of_data hline hstarts] at h
      split at h
      · cases h
      · rename_i hlong
        rw [frameBoundary_of_data hline (hstarts.append more), List.length_append,
          if_neg (by omega), h]

theorem frameBoundary_encode (frame : Frame) (rest : Octets) :
    frameBoundary (frame.encode ++ rest) = some frame.encode.length := by
  have hdenotes := Frame.denotes_encode frame.fits_maxFrameSize rest
  cases frame with
  | seq frame =>
      obtain ⟨line, hline, hstarts⟩ := hdenotes
      rw [frameBoundary_of_seq hline hstarts, ← hstarts.taken_eq rfl]
  | data frame =>
      obtain ⟨line, hline, hstarts⟩ := hdenotes
      have hsize : frame.header.size.toNat = frame.payload.length := frame.toNat_size
      have hencode : (Frame.data frame).encode =
          line ++ octets "\r\n" ++ (frame.payload ++ trailer) := by
        have hsrc := hstarts.1
        rw [← List.append_assoc] at hsrc
        exact List.append_cancel_right hsrc
      rw [frameBoundary_of_data hline hstarts, hencode, hsize,
        if_neg (by simp only [List.length_append]; omega)]
      simp only [List.length_append, Nat.add_assoc]

end Decoder

/-! ## Cuts -/

/-- Pieces cut off the front of `src`, each of them measured as a frame. -/
inductive Cut : Octets → List Octets → Octets → Prop where
  | refl (src : Octets) : Cut src [] src
  | step {src rest : Octets} {pieces : List Octets} {n : Nat} : frameBoundary src = some n →
      Cut (src.drop n) pieces rest → Cut src (src.take n :: pieces) rest

namespace Cut

variable {pieces : List Octets}

theorem flatten_append (h : Cut src pieces rest) : pieces.flatten ++ rest = src := by
  induction h with
  | refl src => rfl
  | step _ _ ih => rw [List.flatten_cons, List.append_assoc, ih, List.take_append_drop]

theorem eq_nil (h : Cut src pieces rest) (hnone : frameBoundary src = none) : pieces = [] := by
  cases h with
  | refl => rfl
  | step hsome =>
      rw [hnone] at hsome
      cases hsome

theorem frames {frames : List Frame} (h : Cut src pieces rest)
    (hsrc : src <+: encodeAll frames) : ∃ done left, frames = done ++ left ∧
      pieces = done.map Frame.encode ∧ rest <+: encodeAll left := by
  induction h generalizing frames with
  | refl src => exact ⟨[], frames, rfl, rfl, hsrc⟩
  | @step src rest pieces n hmeasure _ ih =>
      obtain ⟨hpos, hlong⟩ := Decoder.frameBoundary_le hmeasure
      obtain ⟨back, hback⟩ := hsrc
      have hwhole := Decoder.frameBoundary_append hmeasure back
      cases frames with
      | nil =>
          have hnil : src = [] := (List.append_eq_nil_iff.mp hback).1
          rw [hnil] at hlong
          exact absurd hlong (Nat.not_le.mpr hpos)
      | cons frame frames =>
          rw [encodeAll_cons] at hback
          rw [hback, Decoder.frameBoundary_encode] at hwhole
          cases hwhole
          have htake : src.take frame.encode.length = frame.encode := calc
            _ = (src ++ back).take frame.encode.length :=
              (List.take_append_of_le_length hlong).symm
            _ = frame.encode := by rw [hback, List.take_left]
          have hdrop : src.drop frame.encode.length ++ back = encodeAll frames := by
            rw [← List.drop_append_of_le_length hlong, hback, List.drop_left]
          obtain ⟨done, left, rfl, rfl, hrest⟩ := ih ⟨back, hdrop⟩
          exact ⟨frame :: done, left, rfl, by rw [htake, List.map_cons], hrest⟩

end Cut

theorem eq_nil_of_encodeAll {frames : List Frame} (h : frameBoundary (encodeAll frames) = none) :
    frames = [] := by
  cases frames with
  | nil => rfl
  | cons frame frames =>
      rw [encodeAll_cons, Decoder.frameBoundary_encode] at h
      cases h

end Vortice.Proto
