import Vortice.Foundation.Ascii
import Vortice.Foundation.Intake

/-!
# Heads

What the two handshakes share: a head ends with a blank line, and is read from a
transport in pieces of at most a kibibyte.  Both come to the same however the octets
arrive, but for a head that is longer than allowed by less than such a piece.
-/

namespace Vortice.Http

open Vortice.Foundation

/-- How a transport ends once it has delivered everything. -/
inductive Ending where
  | closed
  | failed
  deriving DecidableEq

/-- The size of the buffer that is handed to each read. -/
def chunkSize : Nat := 1024

theorem chunkSize_pos : 0 < chunkSize := by decide

structure Transport where
  pieces : List (Piece UInt8 chunkSize)
  ending : Ending

def blankLine : Octets := octets "\r\n\r\n"

/-- The offset just past the `CRLF CRLF` that ends a head. -/
def findBlankLine (buffer : Octets) : Option Nat :=
  ((List.range (buffer.length - 3)).find? fun i =>
    blankLine.isPrefixOf (buffer.drop i)).map (· + 4)

theorem length_blankLine : blankLine.length = 4 := rfl

theorem findBlankLine_eq_some {buffer : Octets} {place : Nat} :
    findBlankLine buffer = some place ↔ ∃ i, i + 4 = place ∧ blankLine <+: buffer.drop i ∧
      ∀ j < i, ¬ blankLine <+: buffer.drop j := by
  rw [findBlankLine, Option.map_eq_some_iff]
  refine exists_congr fun i => ?_
  rw [List.find?_range_eq_some, List.isPrefixOf_iff_prefix, List.mem_range]
  constructor
  · rintro ⟨⟨hstarts, -, hfirst⟩, rfl⟩
    refine ⟨rfl, hstarts, fun j hj => ?_⟩
    have hnot := hfirst j hj
    rwa [Bool.not_eq_true', ← Bool.not_eq_true, List.isPrefixOf_iff_prefix] at hnot
  · rintro ⟨rfl, hstarts, hfirst⟩
    have hlength := hstarts.length_le
    rw [length_blankLine, List.length_drop] at hlength
    refine ⟨⟨hstarts, by omega, fun j hj => ?_⟩, rfl⟩
    rw [Bool.not_eq_true', ← Bool.not_eq_true, List.isPrefixOf_iff_prefix]
    exact hfirst j hj

theorem exists_findBlankLine {buffer : Octets} {i : Nat} (h : blankLine <+: buffer.drop i) :
    ∃ place, findBlankLine buffer = some place := by
  have hlength := h.length_le
  rw [length_blankLine, List.length_drop] at hlength
  rw [← Option.isSome_iff_exists, findBlankLine, Option.isSome_map, List.find?_isSome]
  refine ⟨i, List.mem_range.mpr (by omega), ?_⟩
  rwa [List.isPrefixOf_iff_prefix]

theorem prefix_drop_take {pattern source : Octets} {i n : Nat} :
    pattern <+: (source.take n).drop i ↔ pattern <+: source.drop i ∧
      pattern.length ≤ n - i := by
  rw [List.drop_take, List.prefix_take_iff]

theorem findBlankLine_take (stream : Octets) (n : Nat) :
    findBlankLine (stream.take n) = (findBlankLine stream).filter (· ≤ n) := by
  refine Option.ext fun place => ?_
  rw [Option.filter_eq_some_iff, findBlankLine_eq_some, findBlankLine_eq_some]
  simp only [prefix_drop_take, length_blankLine, decide_eq_true_eq]
  constructor
  · rintro ⟨i, rfl, ⟨hstarts, hi⟩, hfirst⟩
    refine ⟨⟨i, rfl, hstarts, fun j hj hearlier => hfirst j hj ⟨hearlier, by omega⟩⟩, by omega⟩
  · rintro ⟨⟨i, rfl, hstarts, hfirst⟩, hi⟩
    exact ⟨i, rfl, ⟨hstarts, by omega⟩, fun j hj hearlier => hfirst j hj hearlier.1⟩

theorem findBlankLine_append {front : Octets} (h : 13 ∉ front) (rest : Octets) :
    findBlankLine (front ++ blankLine ++ rest) = some (front.length + 4) := by
  rw [findBlankLine_eq_some, List.append_assoc]
  refine ⟨front.length, rfl, ?_, fun j hj hstarts => ?_⟩
  · rw [List.drop_left]
    exact List.prefix_append _ _
  · rw [List.drop_append_of_le_length (Nat.le_of_lt hj), List.drop_eq_getElem_cons hj,
      List.cons_append] at hstarts
    obtain ⟨hfirst, -⟩ := List.cons_prefix_cons.mp hstarts
    have hreturn : 13 = front[j] := hfirst
    exact h (hreturn ▸ List.getElem_mem hj)

def blankLineMark : Mark UInt8 := ⟨findBlankLine, findBlankLine_take⟩

/-! ## Reading up to the blank line -/

/-- What is left behind a head: octets that were read with it, and the transport. -/
structure Left where
  leftover : Octets
  transport : Transport

def Left.whole (left : Left) : Octets := left.leftover ++ unread left.transport.pieces

/-- A reader of heads: how long a head may be, what it fails with, and what it makes of
the head. -/
structure Reader (ε β : Type) where
  maxHead : Nat
  tooLong : ε
  closed : ε
  io : ε
  check : Octets → Except ε β

namespace Reader

variable {ε β : Type}

def read (reader : Reader ε β) (seed : Octets) (transport : Transport) :
    Except ε (β × Left) :=
  match intake blankLineMark reader.maxHead seed transport.pieces with
  | .found place buffer pieces => do
      let value ← reader.check (buffer.take place)
      return (value, { leftover := buffer.drop place,
                       transport := { transport with pieces } })
  | .full => .error reader.tooLong
  | .dry =>
      match transport.ending with
      | .closed => .error reader.closed
      | .failed => .error reader.io

/-- What a reading came to, with the octets behind the head together again. -/
def come (result : Except ε (β × Left)) : Except ε (β × Octets) :=
  result.map fun (value, left) => (value, left.whole)

/-- What it comes to if it is the whole stream that decides. -/
def outcome (reader : Reader ε β) (ending : Ending) (whole : Option (Option (Nat × Octets))) :
    Except ε (β × Octets) :=
  match whole with
  | some (some (place, stream)) =>
      (reader.check (stream.take place)).map fun value => (value, stream.drop place)
  | some none => .error reader.tooLong
  | none =>
      match ending with
      | .closed => .error reader.closed
      | .failed => .error reader.io

theorem come_read {reader : Reader ε β} {seed : Octets} {transport : Transport} :
    come (reader.read seed transport) = reader.outcome transport.ending
      (intake blankLineMark reader.maxHead seed transport.pieces).whole := by
  rw [read]
  cases hintake : intake blankLineMark reader.maxHead seed transport.pieces with
  | full => rfl
  | dry =>
      rw [Intake.whole, outcome.eq_def]
      cases transport.ending <;> rfl
  | found place buffer pieces =>
      have hplace := Mark.seek_le (seek_of_intake hintake).1
      rw [Intake.whole, outcome, List.take_append_of_le_length hplace,
        List.drop_append_of_le_length hplace]
      cases hcheck : reader.check (buffer.take place) <;> simp only [hcheck] <;> rfl

variable (reader : Reader ε β) {stream : Octets} (ending : Ending)

/-- A head that is read is that of the stream, up to and with the blank line. -/
theorem eq_of_come_read {ending : Ending} {value : β} {rest : Octets}
    (arrival : Arrival chunkSize reader.maxHead stream)
    (h : come (reader.read arrival.seed ⟨arrival.pieces, ending⟩) = .ok (value, rest)) :
    ∃ place, findBlankLine stream = some place ∧
      reader.check (stream.take place) = .ok value ∧ rest = stream.drop place := by
  rw [come_read] at h
  cases hwhole : (intake blankLineMark reader.maxHead arrival.seed arrival.pieces).whole with
  | none =>
      rw [hwhole, outcome.eq_def] at h
      cases ending <;> cases h
  | some found =>
      cases found with
      | none =>
          rw [hwhole] at h
          cases h
      | some found =>
          obtain ⟨place, taken⟩ := found
          obtain ⟨hseek, rfl⟩ := seek_of_whole arrival.whole hwhole
          rw [hwhole, outcome] at h
          cases hcheck : reader.check (taken.take place) with
          | error => rw [hcheck] at h; cases h
          | ok =>
              rw [hcheck] at h
              cases h
              exact ⟨place, hseek, hcheck, rfl⟩

theorem come_read_eq (h : ¬ Straddles blankLineMark reader.maxHead chunkSize stream)
    (first second : Arrival chunkSize reader.maxHead stream) :
    come (reader.read first.seed ⟨first.pieces, ending⟩) =
      come (reader.read second.seed ⟨second.pieces, ending⟩) := by
  rw [come_read, come_read, whole_intake_eq h first second]

theorem exists_come_read_ne (hcheck : ∀ head, reader.check head ≠ .error reader.tooLong)
    (h : Straddles blankLineMark reader.maxHead chunkSize stream) :
    ∃ first second : Arrival chunkSize reader.maxHead stream,
      first.seed = [] ∧ second.seed = [] ∧
      come (reader.read first.seed ⟨first.pieces, ending⟩) ≠
        come (reader.read second.seed ⟨second.pieces, ending⟩) := by
  obtain ⟨first, hfirst, hfull⟩ := exists_full h
  obtain ⟨second, hsecond, place, hfound⟩ := exists_found h
  refine ⟨first, second, hfirst, hsecond, ?_⟩
  rw [come_read, come_read, hfull, hfound, Intake.whole, outcome, outcome]
  intro heq
  cases hhead : reader.check (stream.take place) with
  | ok => rw [hhead] at heq; cases heq
  | error =>
      rw [hhead] at heq
      cases heq
      exact hcheck _ hhead

end Reader

end Vortice.Http
