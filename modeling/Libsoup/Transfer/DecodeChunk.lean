import Libsoup.Misc.SubstringIndex
import Libsoup.Transfer.Buffer
import Libsoup.Transfer.DecodeHex
import Libsoup.Transfer.Types

open libsoup.misc

namespace libsoup.transfer

/-- How one pass of the `while (TRUE)` loop of `decode_chunk` ends: at a
    `break`, going round again with the updated `*s`, `arr`, `*datalen` and `ret`,
    or in a failed `g_assert`. -/
inductive ChunkPass
  | brk
  | next (s : SoupTransferChunkState) (arr : List UInt8) (datalen : Nat) (ret : Bool)
  | abort
  deriving DecidableEq, Repr

/-- The CRLF search that decides whether a chunk header is complete: after the
    previous chunk's body and its CRLF when `s->len` is set, from the buffer's
    head otherwise. -/
def chunk_header_end (s : SoupTransferChunkState) (arr : List UInt8) : Int :=
  if s.len ≠ 0 then
    soup_substring_index (arr.drop (s.idx + s.len + 2))
      ((arr.length : Int) - s.idx - s.len - 2) (bytesOf "\r\n")
  else soup_substring_index arr arr.length (bytesOf "\r\n")

/-- "Remove trailing \r\n after previous chunk body": the two bytes after the
    previous chunk's body, when `s->len` is set. -/
def strip_chunk_crlf (s : SoupTransferChunkState) (arr : List UInt8) : Option (List UInt8) :=
  if s.len ≠ 0 then remove_block_at_index arr (s.idx + s.len) 2 else some arr

/-- The size line at `idx`: `decode_hex` and its `g_assert (new_len >= 0)`, the
    CRLF search after the digits, and the compaction of the line (with the final
    CRLF after a zero size). Returns the new `s->len`, the buffer and `ret`. -/
def decode_chunk_size (idx : Nat) (arr : List UInt8) (ret : Bool) :
    Option (Nat × List UInt8 × Bool) :=
  let new_len := (decode_hex (arr.drop idx)).1
  let width := (decode_hex (arr.drop idx)).2
  if new_len < 0 then none
  else
    let len : Int := width + soup_substring_index (arr.drop (idx + width))
      ((arr.length : Int) - idx - width) (bytesOf "\r\n")
    let len := if new_len = 0 then len + 2 else len
    (remove_block_at_index arr idx (len + 2).toNat).map
      fun arr => (new_len.toNat, arr, if new_len = 0 then true else ret)

/-- One pass of the loop of `decode_chunk`. The pointer `i` is
    `&arr->data [s->idx + s->len]`; the buffer only shrinks, so after the first
    removal the same address holds the bytes that followed. -/
def decode_chunk_pass (s : SoupTransferChunkState) (arr : List UInt8) (datalen : Nat)
    (ret : Bool) : ChunkPass :=
  if arr.length < s.idx + s.len + 5 then .brk
  else if chunk_header_end s arr ≤ 0 then .brk
  else
    match (strip_chunk_crlf s arr).bind (decode_chunk_size (s.idx + s.len) · ret) with
    | none => .abort
    | some (new_len, arr, ret) => .next ⟨new_len, s.idx + s.len⟩ arr (datalen + s.len) ret

/-- At most `fuel` passes of the loop of `decode_chunk`, returning
    `(*s, arr, *datalen, ret)`, or `none` when a `g_assert` fails. -/
def decode_chunk_loop : Nat → SoupTransferChunkState → List UInt8 → Nat → Bool →
    Option (SoupTransferChunkState × List UInt8 × Nat × Bool)
  | 0, s, arr, datalen, ret => some (s, arr, datalen, ret)
  | fuel + 1, s, arr, datalen, ret =>
    match decode_chunk_pass s arr datalen ret with
    | .brk => some (s, arr, datalen, ret)
    | .next s arr datalen ret => decode_chunk_loop fuel s arr datalen ret
    | .abort => none

/-- `decode_chunk (s, arr, &datalen)`. Every pass that goes round again
    shortens the buffer (`decode_chunk_pass_length`), so `arr->len + 1` passes
    always reach the `break` (`decode_chunk_loop_fuel`). -/
def decode_chunk (s : SoupTransferChunkState) (arr : List UInt8) :
    Option (SoupTransferChunkState × List UInt8 × Nat × Bool) :=
  decode_chunk_loop (arr.length + 1) s arr 0 false

theorem soup_substring_index_crlf_ge (str : List UInt8) (len : Int) :
    -1 ≤ soup_substring_index str len (bytesOf "\r\n") := by
  rcases @soup_substring_index_cases len (bytesOf "\r\n") (by simp) str with
    ⟨h, -⟩ | ⟨t, h, -⟩ <;> omega

theorem strip_chunk_crlf_length {s : SoupTransferChunkState} {arr arr' : List UInt8}
    (h : strip_chunk_crlf s arr = some arr') : arr'.length ≤ arr.length := by
  unfold strip_chunk_crlf at h
  split_ifs at h
  · rcases remove_block_at_index_length h with ⟨_, _⟩ | ⟨_, rfl⟩ <;> omega
  · cases h; exact le_rfl

theorem decode_chunk_size_length {idx : Nat} {arr arr' : List UInt8} {ret ret' : Bool}
    {new_len : Nat} (h : decode_chunk_size idx arr ret = some (new_len, arr', ret')) :
    arr'.length < arr.length := by
  unfold decode_chunk_size at h
  dsimp only at h
  split_ifs at h
  all_goals
    obtain ⟨arr₂, hremove, hout⟩ := Option.map_eq_some'.mp h
    cases hout
    have hge := soup_substring_index_crlf_ge (arr.drop (idx + (decode_hex (arr.drop idx)).2))
      ((arr.length : Int) - idx - (decode_hex (arr.drop idx)).2)
    rcases remove_block_at_index_length hremove with ⟨_, _⟩ | ⟨_, _⟩ <;> omega

theorem decode_chunk_pass_length {s s' : SoupTransferChunkState} {arr arr' : List UInt8}
    {datalen datalen' : Nat} {ret ret' : Bool}
    (h : decode_chunk_pass s arr datalen ret = .next s' arr' datalen' ret') :
    arr'.length < arr.length := by
  unfold decode_chunk_pass at h
  split_ifs at h
  split at h
  · cases h
  · rename_i new_len arr₂ ret₂ hsize
    cases h
    obtain ⟨arr₁, hstrip, hdecode⟩ := Option.bind_eq_some.mp hsize
    exact lt_of_lt_of_le (decode_chunk_size_length hdecode) (strip_chunk_crlf_length hstrip)

/-- Once the fuel exceeds the buffer's length, more fuel changes nothing. -/
theorem decode_chunk_loop_fuel (fuel : Nat) : ∀ (extra : Nat) (s : SoupTransferChunkState)
    (arr : List UInt8) (datalen : Nat) (ret : Bool), arr.length < fuel →
    decode_chunk_loop (fuel + extra) s arr datalen ret = decode_chunk_loop fuel s arr datalen ret := by
  induction fuel with
  | zero => intro extra s arr datalen ret h; omega
  | succ fuel ih =>
    intro extra s arr datalen ret hlt
    rw [Nat.add_right_comm]
    simp only [decode_chunk_loop]
    split
    · rfl
    · rename_i hpass
      exact ih extra _ _ _ _ (by have := decode_chunk_pass_length hpass; omega)
    · rfl

/-- A size line of eight hex digits with the top bit set: `decode_hex` returns a
    negative `gint`, and `decode_chunk` fails its `g_assert (new_len >= 0)`. -/
theorem decode_hex_80000000 :
    decode_hex (bytesOf "80000000\r\nab") = (-2147483648, 8) ∧
      decode_chunk ⟨0, 0⟩ (bytesOf "80000000\r\nab") = none := by
  decide

end libsoup.transfer
