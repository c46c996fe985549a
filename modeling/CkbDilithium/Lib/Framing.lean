import CkbDilithium.Lib.Bytes

/-!
# Two length-prefixed strings

The framing of a pair of byte strings, each behind its 32-bit little-endian length. A parser reads
the two length fields and cuts at the positions they give (`firstEnd`, `secondEnd`); when the
positions lie inside the input, the input is the frame of the two cuts and whatever follows
(`frame_append_drop`), and on a frame the cuts are the two strings (`cut_frame`).
-/

namespace CkbDilithium

/-- Two strings, each with its length before it. -/
def frame (a b : Bytes) : Bytes := leBytes 4 a.length ++ a ++ leBytes 4 b.length ++ b

theorem frame_length (a b : Bytes) : (frame a b).length = 4 + a.length + 4 + b.length := by
  simp [frame, Nat.add_assoc]

/-- Where the first string ends, by its length field. -/
def firstEnd (data : Bytes) : Nat := 4 + leVal (slice data 0 4)

/-- Where the second string ends, by its length field. -/
def secondEnd (data : Bytes) : Nat :=
  firstEnd data + 4 + leVal (slice data (firstEnd data) (firstEnd data + 4))

section

variable {data : Bytes}

theorem firstField_length (h : 4 ≤ data.length) : (slice data 0 4).length = 4 := slice_length h

theorem secondField_length (h : firstEnd data + 4 ≤ data.length) :
    (slice data (firstEnd data) (firstEnd data + 4)).length = 4 := by
  rw [slice_length h]
  omega

theorem firstEnd_lt (h : 4 ≤ data.length) : firstEnd data < 4 + 2 ^ 32 := by
  have := leVal_lt_of_length_four (firstField_length h)
  unfold firstEnd
  omega

theorem secondEnd_lt (h : firstEnd data + 4 ≤ data.length) : secondEnd data < firstEnd data + 4 + 2 ^ 32 := by
  have := leVal_lt_of_length_four (secondField_length h)
  unfold secondEnd
  omega

theorem firstEnd_le_secondEnd (data : Bytes) : firstEnd data + 4 ≤ secondEnd data := Nat.le_add_right ..

theorem firstPart_length (h : secondEnd data ≤ data.length) :
    (slice data 4 (firstEnd data)).length = leVal (slice data 0 4) := by
  have := firstEnd_le_secondEnd data
  rw [slice_length (by omega), firstEnd]
  omega

theorem secondPart_length (h : secondEnd data ≤ data.length) :
    (slice data (firstEnd data + 4) (secondEnd data)).length =
      leVal (slice data (firstEnd data) (firstEnd data + 4)) := by
  rw [slice_length h, secondEnd]
  omega

/-- The input is the frame of its two cuts, and what follows. -/
theorem frame_append_drop (h : secondEnd data ≤ data.length) :
    frame (slice data 4 (firstEnd data)) (slice data (firstEnd data + 4) (secondEnd data)) ++
      data.drop (secondEnd data) = data := by
  have hle := firstEnd_le_secondEnd data
  have hfirst : 4 ≤ firstEnd data := by rw [firstEnd]; omega
  have hcut : ∀ s e, s ≤ e → data.take s ++ slice data s e = data.take e := by
    intro s e hse
    have hthree := take_append_slice_append_drop data hse
    conv_rhs at hthree => rw [← List.take_append_drop e data]
    exact List.append_cancel_right hthree
  have hzero : slice data 0 4 = data.take 4 := rfl
  rw [frame, firstPart_length h, secondPart_length h, leBytes_four_leVal (firstField_length (by omega)),
    leBytes_four_leVal (secondField_length (by omega)), hzero, hcut _ _ hfirst, hcut _ _ (by omega),
    hcut _ _ hle, List.take_append_drop]

end

/-- On a frame the cuts are the framed strings. -/
theorem cut_frame {a b : Bytes} (ha : a.length < 2 ^ 32) (hb : b.length < 2 ^ 32) (rest : Bytes) :
    firstEnd (frame a b ++ rest) = 4 + a.length ∧
      secondEnd (frame a b ++ rest) = 4 + a.length + 4 + b.length ∧
      slice (frame a b ++ rest) 4 (4 + a.length) = a ∧
      slice (frame a b ++ rest) (4 + a.length + 4) (4 + a.length + 4 + b.length) = b := by
  have hhead : slice (frame a b ++ rest) 0 4 = leBytes 4 a.length := by
    rw [frame, show leBytes 4 a.length ++ a ++ leBytes 4 b.length ++ b ++ rest =
      [] ++ leBytes 4 a.length ++ (a ++ leBytes 4 b.length ++ b ++ rest) by simp]
    exact slice_append rfl (by simp)
  have hfirst : firstEnd (frame a b ++ rest) = 4 + a.length := by
    rw [firstEnd, hhead, leVal_leBytes_four ha]
  have hmid : slice (frame a b ++ rest) (4 + a.length) (4 + a.length + 4) = leBytes 4 b.length := by
    rw [frame, show leBytes 4 a.length ++ a ++ leBytes 4 b.length ++ b ++ rest =
      (leBytes 4 a.length ++ a) ++ leBytes 4 b.length ++ (b ++ rest) by simp]
    exact slice_append (by simp) (by simp)
  refine ⟨hfirst, ?_, ?_, ?_⟩
  · rw [secondEnd, hfirst, hmid, leVal_leBytes_four hb]
  · rw [frame, show leBytes 4 a.length ++ a ++ leBytes 4 b.length ++ b ++ rest =
      leBytes 4 a.length ++ a ++ (leBytes 4 b.length ++ b ++ rest) by simp]
    exact slice_append (by simp) (by simp)
  · unfold frame
    exact slice_append (by simp [Nat.add_assoc]) (by simp [Nat.add_assoc])

end CkbDilithium
