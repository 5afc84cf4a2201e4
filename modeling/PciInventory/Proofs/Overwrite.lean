import PciInventory.Bytes

/-!
# Writing over a byte string

A write is known by the byte it leaves at each position.  Two writes of which
one ends where the other begins are, in either order, the write of both pieces
at once; the gap before the first piece is filled with zeros all the same.
-/

namespace PciInventory.Bytes

@[simp] theorem overwrite_nil (bytes : Bytes) (offset : Nat) :
    bytes.overwrite offset [] = bytes := by
  simp [overwrite]

theorem overwrite_of_ne_nil {piece : Bytes} (hpiece : piece ≠ [])
    (bytes : Bytes) (offset : Nat) :
    bytes.overwrite offset piece =
      bytes.take offset ++ List.replicate (offset - bytes.length) 0 ++
        piece ++ bytes.drop (offset + piece.length) := by
  have hempty : piece.isEmpty = false := by simpa using hpiece
  simp [overwrite, hempty]

theorem getElem?_overwrite {piece : Bytes} (hpiece : piece ≠ [])
    (bytes : Bytes) (offset position : Nat) :
    (bytes.overwrite offset piece)[position]? =
      if position < offset then some (bytes[position]?.getD 0)
      else if position < offset + piece.length then
        piece[position - offset]?
      else bytes[position]? := by
  rw [overwrite_of_ne_nil hpiece]
  have hfront :
      (bytes.take offset ++
        List.replicate (offset - bytes.length) 0).length = offset := by
    simp only [List.length_append, List.length_take, List.length_replicate]
    omega
  rw [List.append_assoc _ piece]
  by_cases hbefore : position < offset
  · rw [if_pos hbefore, List.getElem?_append_left (by omega)]
    by_cases hold : position < bytes.length
    · rw [List.getElem?_append_left (by simp; omega)]
      simp [hbefore, hold]
    · rw [List.getElem?_append_right (by simp; omega)]
      simp only [List.length_take, List.getElem?_replicate]
      rw [if_pos (by omega), List.getElem?_eq_none (by omega)]
      rfl
  · rw [if_neg hbefore, List.getElem?_append_right (by omega), hfront]
    by_cases hinside : position < offset + piece.length
    · rw [if_pos hinside, List.getElem?_append_left (by omega)]
    · rw [if_neg hinside, List.getElem?_append_right (by omega),
        List.getElem?_drop]
      congr 1
      omega

/-- Going on where the last write ended. -/
theorem overwrite_append (bytes : Bytes) (offset : Nat)
    (first second : Bytes) :
    (bytes.overwrite offset first).overwrite
        (offset + first.length) second =
      bytes.overwrite offset (first ++ second) := by
  by_cases hfirst : first = []
  · simp [hfirst]
  by_cases hsecond : second = []
  · simp [hsecond]
  have hboth : first ++ second ≠ [] := by simp [hfirst]
  apply List.ext_getElem?
  intro position
  rw [getElem?_overwrite hsecond, getElem?_overwrite hfirst,
    getElem?_overwrite hboth, List.length_append]
  grind

/-- Writing the front after what stands behind it. -/
theorem overwrite_prepend (bytes : Bytes) (offset : Nat)
    (first second : Bytes) :
    (bytes.overwrite (offset + first.length) second).overwrite
        offset first =
      bytes.overwrite offset (first ++ second) := by
  by_cases hfirst : first = []
  · simp [hfirst]
  by_cases hsecond : second = []
  · simp [hsecond]
  have hboth : first ++ second ≠ [] := by simp [hfirst]
  apply List.ext_getElem?
  intro position
  rw [getElem?_overwrite hfirst, getElem?_overwrite hsecond,
    getElem?_overwrite hboth, List.length_append]
  grind

theorem nil_overwrite_zero (piece : Bytes) :
    overwrite [] 0 piece = piece := by
  cases piece with
  | nil => rfl
  | cons byte rest => simp [overwrite]

theorem drop_overwrite (bytes : Bytes) (offset : Nat) (piece : Bytes) :
    (bytes.overwrite offset piece).drop offset =
      piece ++ bytes.drop (offset + piece.length) := by
  by_cases hpiece : piece = []
  · simp [hpiece]
  apply List.ext_getElem?
  intro position
  rw [List.getElem?_drop, getElem?_overwrite hpiece]
  grind

/-- A piece that ends where the bytes end can be taken out again. -/
theorem drop_overwrite_of_length {bytes piece : Bytes} {offset : Nat}
    (hend : (bytes.overwrite offset piece).length =
      offset + piece.length) :
    (bytes.overwrite offset piece).drop offset = piece := by
  have hdrop := bytes.drop_overwrite offset piece
  have hrest : bytes.drop (offset + piece.length) = [] := by
    apply List.eq_nil_of_length_eq_zero
    have hlength := congrArg List.length hdrop
    rw [List.length_append, List.length_drop, hend] at hlength
    omega
  rw [hdrop, hrest, List.append_nil]

/-- Writing over a field of the same length leaves what stands around it. -/
theorem overwrite_field (front back : Bytes) {field piece : Bytes}
    (hlength : field.length = piece.length) :
    (front ++ (field ++ back)).overwrite front.length piece =
      front ++ (piece ++ back) := by
  by_cases hpiece : piece = []
  · have hfield : field = [] := by
      simpa [hpiece] using hlength
    rw [hpiece, hfield, overwrite_nil]
  · have hback : (front ++ (field ++ back)).drop
        (front.length + piece.length) = back := by
      rw [← List.append_assoc, ← hlength, ← List.length_append,
        List.drop_left]
    rw [overwrite_of_ne_nil hpiece, hback, List.take_left,
      Nat.sub_eq_zero_of_le (by simp)]
    simp

end PciInventory.Bytes
