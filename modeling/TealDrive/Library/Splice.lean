import Mathlib.Data.List.Basic

/-!
# Writing into the middle of a sequence

A write at a position replaces what was there, keeps what lies before and
behind it, and lengthens the sequence where it reaches past the end.  A
position beyond the end leaves a gap, which is filled.
-/

namespace Splice

universe u

variable {Element : Type u}

/-- The sequence after a write at a position. -/
def overwrite (filler : Element) (content : List Element) (offset : Nat) (data : List Element) :
    List Element :=
  content.take offset ++ List.replicate (offset - content.length) filler ++ data ++
    content.drop (offset + data.length)

variable {filler : Element} {content data : List Element} {offset : Nat}

/-- A write that starts inside the sequence leaves no gap. -/
theorem overwrite_of_le (inside : offset ≤ content.length) :
    overwrite filler content offset data =
      content.take offset ++ data ++ content.drop (offset + data.length) := by
  unfold overwrite
  rw [Nat.sub_eq_zero_of_le inside, List.replicate_zero, List.append_nil]

/-- What lies before the write stays. -/
theorem take_overwrite (inside : offset ≤ content.length) :
    (overwrite filler content offset data).take offset = content.take offset := by
  have length : (content.take offset).length = offset := by
    rw [List.length_take]
    omega
  rw [overwrite_of_le inside, List.append_assoc, List.take_append_of_le_length (Nat.le_of_eq length.symm)]
  rw [List.take_take, Nat.min_self]

/-- Up to its end, the sequence is what was before the write and the data. -/
theorem take_overwrite_end (inside : offset ≤ content.length) :
    (overwrite filler content offset data).take (offset + data.length) =
      content.take offset ++ data := by
  have length : (content.take offset ++ data).length = offset + data.length := by
    rw [List.length_append, List.length_take]
    omega
  rw [overwrite_of_le inside, ← length]
  exact List.take_left

theorem length_overwrite (inside : offset ≤ content.length) :
    (overwrite filler content offset data).length = max content.length (offset + data.length) := by
  rw [overwrite_of_le inside]
  simp only [List.length_append, List.length_take, List.length_drop]
  omega

/-- A write into a sequence that ends with filler, behind a gap of filler. -/
theorem overwrite_filler {front : List Element} {total gap rest : Nat}
    (place : offset = front.length + gap) (room : total = gap + data.length + rest) :
    overwrite filler (front ++ List.replicate total filler) offset data =
      front ++ List.replicate gap filler ++ data ++ List.replicate rest filler := by
  have inside : offset ≤ (front ++ List.replicate total filler).length := by
    rw [List.length_append, List.length_replicate]
    omega
  rw [overwrite_of_le inside, place, Nat.add_assoc, List.take_length_add_append,
    List.drop_length_add_append, List.take_replicate, List.drop_replicate]
  have before : min gap total = gap := Nat.min_eq_left (by omega)
  have behind : total - (gap + data.length) = rest := by omega
  rw [before, behind]

end Splice
