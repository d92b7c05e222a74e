import Mathlib.Data.List.Basic

/-!
# Taking in a stream up to a mark

A reader takes a stream in pieces, as they arrive, until what it has holds a mark.
Between two pieces it gives up if it has more than it may.  How the stream is cut
then shows in one case: when the mark ends past the limit, but within one piece of
it.
-/

namespace Vortice.Foundation

variable {α : Type*}

/-- What one read gives, which is something and not more than was asked for. -/
structure Piece (α : Type*) (size : Nat) where
  items : List α
  ne_nil : items ≠ []
  length_le : items.length ≤ size

/-- What has not arrived yet. -/
def unread {size : Nat} (pieces : List (Piece α size)) : List α := pieces.flatMap Piece.items

@[simp] theorem unread_nil {size : Nat} : unread ([] : List (Piece α size)) = [] := rfl

@[simp] theorem unread_cons {size : Nat} (piece : Piece α size) (pieces : List (Piece α size)) :
    unread (piece :: pieces) = piece.items ++ unread pieces := rfl

/-- A search that finds a mark as soon as all of it is there, and the same one from then
on.  It gives the place behind the mark. -/
structure Mark (α : Type*) where
  seek : List α → Option Nat
  seek_take : ∀ stream n, seek (stream.take n) = (seek stream).filter (· ≤ n)

inductive Intake (α : Type*) (size : Nat) where
  | found (place : Nat) (buffer : List α) (pieces : List (Piece α size))
  | full
  | dry

def intake {size : Nat} (mark : Mark α) (limit : Nat) (buffer : List α)
    (pieces : List (Piece α size)) : Intake α size :=
  match mark.seek buffer with
  | some place => .found place buffer pieces
  | none =>
      if limit < buffer.length then .full
      else
        match pieces with
        | [] => .dry
        | piece :: pieces => intake mark limit (buffer ++ piece.items) pieces

/-- What came of it, whatever the pieces were. -/
def Intake.whole {size : Nat} : Intake α size → Option (Option (Nat × List α))
  | .found place buffer pieces => some (some (place, buffer ++ unread pieces))
  | .full => some none
  | .dry => none

section Outcomes

variable {mark : Mark α} {limit size place : Nat} {stream buffer : List α}
  {pieces : List (Piece α size)}

theorem Mark.seek_le (h : mark.seek stream = some place) : place ≤ stream.length := by
  have hwhole := mark.seek_take stream stream.length
  rw [List.take_length, h] at hwhole
  by_contra hlong
  rw [Option.filter_some_neg (by simpa using hlong)] at hwhole
  cases hwhole

theorem Mark.seek_prefix (h : buffer ++ unread pieces = stream) :
    mark.seek buffer = (mark.seek stream).filter (· ≤ buffer.length) := by
  rw [← mark.seek_take, ← h, List.take_left]

/-- A round of the reader. -/
theorem intake_next (hseek : mark.seek buffer = none) (hroom : buffer.length ≤ limit)
    (piece : Piece α size) (pieces : List (Piece α size)) :
    intake mark limit buffer (piece :: pieces) =
      intake mark limit (buffer ++ piece.items) pieces := by
  rw [intake, hseek]
  exact if_neg (Nat.not_lt.mpr hroom)

theorem intake_full (hseek : mark.seek buffer = none) (hroom : limit < buffer.length) :
    intake mark limit buffer pieces = .full := by
  rw [intake.eq_def, hseek]
  exact if_pos hroom

theorem intake_dry (hseek : mark.seek buffer = none) (hroom : buffer.length ≤ limit) :
    intake mark limit buffer ([] : List (Piece α size)) = .dry := by
  rw [intake, hseek]
  exact if_neg (Nat.not_lt.mpr hroom)

theorem intake_found (hseek : mark.seek buffer = some place) :
    intake mark limit buffer pieces = .found place buffer pieces := by
  rw [intake.eq_def, hseek]

/-- What is found is where the mark is in what was taken in. -/
theorem seek_of_intake {taken : List α} {later : List (Piece α size)}
    (h : intake mark limit buffer pieces = .found place taken later) :
    mark.seek taken = some place ∧ taken ++ unread later = buffer ++ unread pieces := by
  fun_induction intake mark limit buffer pieces with
  | case1 _ _ _ hseek =>
      cases h
      exact ⟨hseek, rfl⟩
  | case2 => cases h
  | case3 => cases h
  | case4 _ _ _ _ _ ih =>
      obtain ⟨hseek, htaken⟩ := ih h
      exact ⟨hseek, by rw [htaken, List.append_assoc, unread_cons]⟩

theorem seek_of_whole {taken : List α} (hstream : buffer ++ unread pieces = stream)
    (h : (intake mark limit buffer pieces).whole = some (some (place, taken))) :
    mark.seek stream = some place ∧ taken = stream := by
  cases hintake : intake mark limit buffer pieces with
  | full => rw [hintake] at h; cases h
  | dry => rw [hintake] at h; cases h
  | found _ buffer' later =>
      rw [hintake] at h
      cases h
      obtain ⟨hseek, htaken⟩ := seek_of_intake hintake
      rw [hstream] at htaken
      have hstarts := mark.seek_prefix htaken
      rw [hseek] at hstarts
      exact ⟨(Option.filter_eq_some_iff.mp hstarts.symm).1, htaken⟩

/-- A mark that ends within the limit is found. -/
theorem whole_intake_of_le (hseek : mark.seek stream = some place) (hplace : place ≤ limit + 1)
    (hstream : buffer ++ unread pieces = stream) :
    (intake mark limit buffer pieces).whole = some (some (place, stream)) := by
  induction pieces generalizing buffer with
  | nil =>
      rw [unread_nil, List.append_nil] at hstream
      rw [intake_found (hstream ▸ hseek), Intake.whole, unread_nil, List.append_nil, hstream]
  | cons piece pieces ih =>
      have hstarts := mark.seek_prefix hstream
      rw [hseek] at hstarts
      by_cases hthere : place ≤ buffer.length
      · rw [Option.filter_some_pos (by simpa using hthere)] at hstarts
        rw [intake_found hstarts, Intake.whole, hstream]
      · rw [Option.filter_some_neg (by simpa using hthere)] at hstarts
        rw [intake_next hstarts (by omega)]
        exact ih (by rw [List.append_assoc]; exact hstream)

/-- A mark that ends more than a piece past the limit is not. -/
theorem intake_of_lt (hseek : mark.seek stream = some place) (hplace : limit + size < place)
    (hstream : buffer ++ unread pieces = stream) (hbuffer : buffer.length ≤ limit + size) :
    intake mark limit buffer pieces = .full := by
  induction pieces generalizing buffer with
  | nil =>
      have hstarts := mark.seek_prefix hstream
      rw [hseek, Option.filter_some_neg (by simpa using by omega)] at hstarts
      rw [unread_nil, List.append_nil] at hstream
      rw [hstream, hseek] at hstarts
      cases hstarts
  | cons piece pieces ih =>
      have hstarts := mark.seek_prefix hstream
      rw [hseek, Option.filter_some_neg (by simpa using by omega)] at hstarts
      by_cases hroom : limit < buffer.length
      · exact intake_full hstarts hroom
      · rw [intake_next hstarts (Nat.not_lt.mp hroom)]
        have hpiece := piece.length_le
        refine ih (by rw [List.append_assoc]; exact hstream) ?_
        rw [List.length_append]
        omega

/-- Without a mark it is the length of the stream that decides. -/
theorem intake_of_none (hseek : mark.seek stream = none)
    (hstream : buffer ++ unread pieces = stream) :
    intake mark limit buffer pieces = if limit < stream.length then .full else .dry := by
  induction pieces generalizing buffer with
  | nil =>
      rw [unread_nil, List.append_nil] at hstream
      subst hstream
      split
      · exact intake_full hseek ‹_›
      · exact intake_dry hseek (Nat.not_lt.mp ‹_›)
  | cons piece pieces ih =>
      have hstarts := mark.seek_prefix hstream
      rw [hseek, Option.filter_none] at hstarts
      by_cases hroom : limit < buffer.length
      · have hlong : limit < stream.length := by
          rw [← hstream, List.length_append]
          omega
        rw [intake_full hstarts hroom, if_pos hlong]
      · rw [intake_next hstarts (Nat.not_lt.mp hroom)]
        exact ih (by rw [List.append_assoc]; exact hstream)

end Outcomes

/-! ## The ways a stream arrives -/

/-- A way that a stream arrives: some of it before, and the rest in pieces. -/
structure Arrival (size limit : Nat) (stream : List α) where
  seed : List α
  pieces : List (Piece α size)
  whole : seed ++ unread pieces = stream
  seed_le : seed.length ≤ limit

/-- The mark ends past the limit, within one piece of it. -/
def Straddles (mark : Mark α) (limit size : Nat) (stream : List α) : Prop :=
  ∃ place, mark.seek stream = some place ∧ limit + 1 < place ∧ place ≤ limit + size

/-- Short of that case every way a stream arrives comes to the same. -/
theorem whole_intake_eq {mark : Mark α} {limit size : Nat} {stream : List α}
    (h : ¬ Straddles mark limit size stream) (first second : Arrival size limit stream) :
    (intake mark limit first.seed first.pieces).whole =
      (intake mark limit second.seed second.pieces).whole := by
  have hfirst := first.seed_le
  have hsecond := second.seed_le
  cases hseek : mark.seek stream with
  | none => rw [intake_of_none hseek first.whole, intake_of_none hseek second.whole]
  | some place =>
      by_cases hplace : place ≤ limit + 1
      · rw [whole_intake_of_le hseek hplace first.whole,
          whole_intake_of_le hseek hplace second.whole]
      · have hfar : limit + size < place := by
          by_contra hnear
          exact h ⟨place, hseek, by omega, by omega⟩
        rw [intake_of_lt hseek hfar first.whole (by omega),
          intake_of_lt hseek hfar second.whole (by omega)]

/-- One item at a time. -/
def singles {size : Nat} (hsize : 0 < size) (items : List α) : List (Piece α size) :=
  items.map fun item => ⟨[item], List.cons_ne_nil item [], hsize⟩

theorem unread_append {size : Nat} (first second : List (Piece α size)) :
    unread (first ++ second) = unread first ++ unread second :=
  List.flatMap_append

theorem unread_singles {size : Nat} (hsize : 0 < size) (items : List α) :
    unread (singles hsize items) = items := by
  induction items with
  | nil => rfl
  | cons item items ih =>
      change item :: unread (singles hsize items) = _
      rw [ih]

/-- The stream one item at a time. -/
def Arrival.slow {size : Nat} (hsize : 0 < size) (limit : Nat) (stream : List α) :
    Arrival size limit stream :=
  ⟨[], singles hsize stream, unread_singles hsize stream, Nat.zero_le limit⟩

section Slow

variable {mark : Mark α} {limit size place : Nat} {stream : List α}

theorem intake_singles (hsize : 0 < size) (hseek : mark.seek stream = some place)
    {buffer items : List α} {pieces : List (Piece α size)}
    (hstream : buffer ++ (items ++ unread pieces) = stream)
    (hroom : (buffer ++ items).length ≤ limit + 1) (hplace : (buffer ++ items).length ≤ place) :
    intake mark limit buffer (singles hsize items ++ pieces) =
      intake mark limit (buffer ++ items) pieces := by
  induction items generalizing buffer with
  | nil => rw [List.append_nil]; rfl
  | cons item items ih =>
      simp only [List.length_append, List.length_cons] at hroom hplace
      have htake : stream.take buffer.length = buffer := by rw [← hstream, List.take_left]
      have hstarts : mark.seek buffer = none := by
        rw [← htake, mark.seek_take, hseek]
        exact Option.filter_some_neg (by simpa using by omega)
      have hcons : singles hsize (item :: items) ++ pieces =
          ⟨[item], List.cons_ne_nil item [], hsize⟩ :: (singles hsize items ++ pieces) := rfl
      rw [hcons, intake_next hstarts (by omega), ih]
      · rw [List.append_assoc, List.singleton_append]
      · rw [← hstream, List.append_assoc, List.singleton_append, List.cons_append]
      · simp only [List.length_append, List.length_cons, List.length_nil]
        omega
      · simp only [List.length_append, List.length_cons, List.length_nil]
        omega

/-- In that case one way of arriving is refused. -/
theorem exists_full (h : Straddles mark limit size stream) :
    ∃ arrival : Arrival size limit stream, arrival.seed = [] ∧
      intake mark limit arrival.seed arrival.pieces = .full := by
  obtain ⟨place, hseek, hlow, hhigh⟩ := h
  have hsize : 0 < size := by omega
  have hlength := Mark.seek_le hseek
  have hcut : stream.take (limit + 1) ++ unread (singles hsize (stream.drop (limit + 1))) =
      stream := by
    rw [unread_singles, List.take_append_drop]
  have htake : ([] ++ stream.take (limit + 1)).length = limit + 1 := by
    rw [List.nil_append, List.length_take]
    omega
  refine ⟨⟨[], singles hsize (stream.take (limit + 1)) ++ singles hsize (stream.drop (limit + 1)),
    ?_, Nat.zero_le _⟩, rfl, ?_⟩
  · rw [unread_append, unread_singles, List.nil_append]
    exact hcut
  · change intake mark limit [] (_ ++ _) = _
    rw [intake_singles hsize hseek (by rw [List.nil_append]; exact hcut) (by omega) (by omega)]
    refine intake_full ?_ (by omega)
    rw [List.nil_append, mark.seek_take, hseek]
    exact Option.filter_some_neg (by simpa using by omega)

/-- And another is not: what is past the limit arrives in one piece. -/
theorem exists_found (h : Straddles mark limit size stream) :
    ∃ arrival : Arrival size limit stream, arrival.seed = [] ∧ ∃ place,
      (intake mark limit arrival.seed arrival.pieces).whole = some (some (place, stream)) := by
  obtain ⟨place, hseek, hlow, hhigh⟩ := h
  have hsize : 0 < size := by omega
  have hlength := Mark.seek_le hseek
  let rest := stream.drop limit
  have hne : rest.take size ≠ [] := by
    refine List.ne_nil_of_length_pos ?_
    rw [List.length_take, List.length_drop]
    omega
  let piece : Piece α size := ⟨rest.take size, hne, List.length_take_le _ _⟩
  let later : List (Piece α size) := piece :: singles hsize (rest.drop size)
  have hlater : unread later = rest := by
    change rest.take size ++ unread (singles hsize (rest.drop size)) = rest
    rw [unread_singles, List.take_append_drop]
  have hcut : stream.take limit ++ unread later = stream := by
    rw [hlater, List.take_append_drop]
  have htake : ([] ++ stream.take limit).length = limit := by
    rw [List.nil_append, List.length_take]
    omega
  refine ⟨⟨[], singles hsize (stream.take limit) ++ later, ?_, Nat.zero_le _⟩, rfl, place, ?_⟩
  · rw [unread_append, unread_singles, List.nil_append]
    exact hcut
  · change (intake mark limit [] (_ ++ _)).whole = _
    rw [intake_singles hsize hseek (by rw [List.nil_append]; exact hcut) (by omega) (by omega),
      List.nil_append]
    have hbefore : mark.seek (stream.take limit) = none := by
      rw [mark.seek_take, hseek]
      exact Option.filter_some_neg (by simpa using by omega)
    have hbehind : mark.seek (stream.take limit ++ rest.take size) = some place := by
      rw [← List.take_add, mark.seek_take, hseek]
      exact Option.filter_some_pos (by simpa using hhigh)
    rw [intake_next hbefore (by rw [List.nil_append] at htake; omega), intake_found hbehind,
      Intake.whole, unread_singles, List.append_assoc, List.take_append_drop,
      List.take_append_drop]

end Slow

end Vortice.Foundation
