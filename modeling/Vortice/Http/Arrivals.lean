import Vortice.Http.Client
import Vortice.Ws.Handshake

/-!
# However a head arrives

Reading a head comes to the same however its octets arrive, except that a head which
exceeds the limit by at least two octets, but by no more than a read, is refused or not
as its last octets arrive.
-/

namespace Vortice.Http

open Vortice.Foundation
open Reader (come)

/-- Every way a stream arrives leads to one outcome, and with it a head is the stream up
to the first blank line and what is left is the rest. -/
def HeadReadsAlike (stream : Octets) : Prop :=
  ∀ ending, ∃ outcome,
    (∀ arrival : Arrival chunkSize Ws.Handshake.maxHead stream,
      come (Ws.Handshake.readHead arrival.seed ⟨arrival.pieces, ending⟩) = outcome) ∧
    ∀ head rest, outcome = .ok (head, rest) →
      findBlankLine stream = some (octets head).length ∧ octets head ++ rest = stream

/-- The same of an answer, whose head is not kept. -/
def SwitchingReadsAlike (stream : Octets) : Prop :=
  ∀ ending, ∃ outcome,
    (∀ pieces, unread pieces = stream →
      come (Client.readSwitchingProtocols ⟨pieces, ending⟩) = outcome) ∧
    ∀ rest, outcome = .ok ((), rest) →
      ∃ place, findBlankLine stream = some place ∧ stream.take place ++ rest = stream

variable {stream : Octets}

theorem headReadsAlike_of_not
    (h : ¬ Straddles blankLineMark Ws.Handshake.maxHead chunkSize stream) :
    HeadReadsAlike stream := by
  intro ending
  let slow := Arrival.slow chunkSize_pos Ws.Handshake.maxHead stream
  refine ⟨come (Ws.Handshake.readHead slow.seed ⟨slow.pieces, ending⟩),
    fun arrival => Reader.come_read_eq Ws.Handshake.headReader ending h arrival slow,
    fun head rest hok => ?_⟩
  obtain ⟨place, hplace, hhead, rfl⟩ := Reader.eq_of_come_read Ws.Handshake.headReader slow hok
  have hoctets := Ws.Handshake.octets_of_headText hhead
  have hle : place ≤ stream.length := blankLineMark.seek_le hplace
  refine ⟨?_, by rw [hoctets, List.take_append_drop]⟩
  rw [hplace, hoctets, List.length_take_of_le hle]

theorem switchingReadsAlike_of_not
    (h : ¬ Straddles blankLineMark Client.maxHead chunkSize stream) :
    SwitchingReadsAlike stream := by
  intro ending
  let slow := Arrival.slow chunkSize_pos Client.maxHead stream
  refine ⟨come (Client.readSwitchingProtocols ⟨slow.pieces, ending⟩),
    fun pieces hpieces => ?_, fun rest hok => ?_⟩
  · exact Reader.come_read_eq Client.responseReader ending h
      ⟨[], pieces, hpieces, Nat.zero_le _⟩ slow
  · obtain ⟨place, hplace, -, rfl⟩ := Reader.eq_of_come_read Client.responseReader slow hok
    exact ⟨place, hplace, List.take_append_drop _ _⟩

theorem not_headReadsAlike
    (h : Straddles blankLineMark Ws.Handshake.maxHead chunkSize stream) :
    ¬ HeadReadsAlike stream := by
  intro halike
  obtain ⟨outcome, hsame, -⟩ := halike .closed
  obtain ⟨first, second, -, -, hne⟩ := Reader.exists_come_read_ne
    Ws.Handshake.headReader .closed Ws.Handshake.headText_ne_tooLong h
  exact hne ((hsame first).trans (hsame second).symm)

/-- Both readers come to the same in every way a stream arrives unless its first blank
line ends past the limit by two octets or more, and by a read at most. -/
theorem readAlike_iff (stream : Octets) :
    HeadReadsAlike stream ∧ SwitchingReadsAlike stream ↔
      ¬ Straddles blankLineMark Ws.Handshake.maxHead chunkSize stream :=
  ⟨fun halike hstraddles => not_headReadsAlike hstraddles halike.1,
    fun h => ⟨headReadsAlike_of_not h, switchingReadsAlike_of_not h⟩⟩

/-- Letters and a blank line. -/
def lettersHead (letters : Nat) : Octets := List.replicate letters 65 ++ blankLine

theorem findBlankLine_lettersHead (letters : Nat) :
    findBlankLine (lettersHead letters) = some (letters + 4) := by
  have hfront : (13 : UInt8) ∉ List.replicate letters 65 := fun hmem =>
    absurd (List.eq_of_mem_replicate hmem) (by decide)
  have hfind := findBlankLine_append hfront []
  rwa [List.append_nil, List.length_replicate] at hfind

theorem straddles_lettersHead {letters : Nat} (h : 16381 < letters)
    (hletters : letters ≤ 17404) :
    Straddles blankLineMark Ws.Handshake.maxHead chunkSize (lettersHead letters) := by
  refine ⟨letters + 4, findBlankLine_lettersHead letters, ?_, ?_⟩
  · rw [Ws.Handshake.maxHead]
    omega
  · rw [Ws.Handshake.maxHead, chunkSize]
    omega

theorem lettersHead_not_readAlike :
    ¬ (HeadReadsAlike (lettersHead 16400) ∧ SwitchingReadsAlike (lettersHead 16400)) :=
  fun halike => not_headReadsAlike (straddles_lettersHead (by decide) (by decide)) halike.1

end Vortice.Http
