import Mathlib.Data.List.Basic

namespace libsoup.transfer

/-- `remove_block_at_index (arr, offset, length)`: compacts
    `arr[offset, offset + length)` out of the buffer. `g_return_if_fail (length != 0)`
    returns with `arr` untouched; a failed `g_assert (arr->len >= offset + length)`
    aborts the process (`none`). -/
def remove_block_at_index (arr : List UInt8) (offset length : Nat) : Option (List UInt8) :=
  if length = 0 then some arr
  else if offset + length ≤ arr.length then some (arr.take offset ++ arr.drop (offset + length))
  else none

/-- `strncpy (dest, src, n)`: the bytes of `src` up to its first NUL, padded
    with NULs to `n` bytes. -/
def strncpy (src : List UInt8) (n : Nat) : List UInt8 :=
  let copied := (src.take n).takeWhile (· ≠ 0)
  copied ++ List.replicate (n - copied.length) 0

theorem remove_block_at_index_of_le {arr : List UInt8} {offset length : Nat}
    (hlength : length ≠ 0) (hle : offset + length ≤ arr.length) :
    remove_block_at_index arr offset length = some (arr.take offset ++ arr.drop (offset + length)) := by
  simp [remove_block_at_index, hlength, hle]

theorem remove_block_at_index_of_lt {arr : List UInt8} {offset length : Nat}
    (hlength : length ≠ 0) (hlt : arr.length < offset + length) :
    remove_block_at_index arr offset length = none := by
  simp [remove_block_at_index, hlength, Nat.not_le.mpr hlt]

/-- Removing a non-empty block that sits at `offset` in the buffer. -/
theorem remove_block_at_index_append {pre block post : List UInt8} (hblock : block ≠ []) :
    remove_block_at_index (pre ++ block ++ post) pre.length block.length = some (pre ++ post) := by
  rw [remove_block_at_index_of_le (by simpa using hblock) (by simp)]
  simp [List.append_assoc]

theorem remove_block_at_index_length {arr out : List UInt8} {offset length : Nat}
    (h : remove_block_at_index arr offset length = some out) :
    out.length = arr.length - length ∧ offset + length ≤ arr.length ∨ length = 0 ∧ out = arr := by
  unfold remove_block_at_index at h
  split_ifs at h with hlength hle
  · exact .inr ⟨hlength, (Option.some.inj h).symm⟩
  · cases h
    left
    simp only [List.length_append, List.length_take, List.length_drop]
    omega

theorem strncpy_take {src : List UInt8} {n m : Nat} (h : n ≤ m) :
    strncpy (src.take m) n = strncpy src n := by
  simp only [strncpy, List.take_take, Nat.min_eq_left h]

/-- `strncpy` of a source's own length ignores what follows it. -/
theorem strncpy_append_length (src rest : List UInt8) :
    strncpy (src ++ rest) src.length = strncpy src src.length := by
  rw [← strncpy_take (le_refl src.length), List.take_left]

theorem strncpy_length (src : List UInt8) (n : Nat) : (strncpy src n).length = n := by
  have hcopied : ((src.take n).takeWhile (· ≠ 0)).length ≤ n :=
    (List.takeWhile_prefix _).length_le.trans (List.length_take_le _ _)
  simp only [strncpy, List.length_append, List.length_replicate]
  omega

/-- With no NUL among the first `n` bytes of a source of at least `n` bytes,
    `strncpy` copies them unchanged. -/
theorem strncpy_of_not_mem {src : List UInt8} {n : Nat} (hn : n ≤ src.length) (h : 0 ∉ src.take n) :
    strncpy src n = src.take n := by
  have hall : (src.take n).takeWhile (· ≠ 0) = src.take n :=
    List.takeWhile_eq_self_iff.mpr fun x hx => by simpa using ne_of_mem_of_not_mem hx h
  simp only [strncpy, hall, List.length_take, Nat.min_eq_left hn, Nat.sub_self, List.replicate_zero,
    List.append_nil]

end libsoup.transfer
