import Libsoup.Reader.Chunked
import Libsoup.Reader.ContentLength

open libsoup.misc

namespace libsoup.transfer

/-- The chunked body from the data of the chunk `cur` on: the data, its CRLF,
    the chunks after it, the terminating size line and the final CRLF. -/
def chunkTail (cur : Chunk) (rest : List Chunk) (last : SizeLine) : List UInt8 :=
  cur.data ++ bytesOf "\r\n" ++ chunkedBody rest last

theorem chunkTail_cons (cur c : Chunk) (rest : List Chunk) (last : SizeLine) :
    chunkTail cur (c :: rest) last =
      cur.data ++ bytesOf "\r\n" ++ c.line.bytes ++ chunkTail c rest last := by
  simp [chunkTail, List.append_assoc]

theorem chunkTail_nil (cur : Chunk) (last : SizeLine) :
    chunkTail cur [] last = cur.data ++ bytesOf "\r\n" ++ last.bytes ++ bytesOf "\r\n" := by
  simp [chunkTail, chunkedBody, List.append_assoc]

theorem chunkedBody_cons_tail (c : Chunk) (rest : List Chunk) (last : SizeLine) :
    chunkedBody (c :: rest) last = c.line.bytes ++ chunkTail c rest last := by
  simp [chunkTail, List.append_assoc]

theorem chunkTail_length (cur : Chunk) (rest : List Chunk) (last : SizeLine) :
    cur.data.length + rest.length + 4 ≤ (chunkTail cur rest last).length := by
  have := chunkedBody_length last rest
  simp only [chunkTail, List.length_append, bytesOf_crlf, List.length_cons, List.length_nil]
  omega

/-- No CRLF occurs in bytes that hold no CR but perhaps a last one. -/
theorem soup_substring_index_no_crlf {pre str : List UInt8} (hpre : 0x0d ∉ pre)
    (hstr : str <+: pre ++ [0x0d]) (len : Int) :
    soup_substring_index str len (bytesOf "\r\n") = -1 := by
  rcases @soup_substring_index_cases len (bytesOf "\r\n") (by simp) str with
    ⟨h, -⟩ | ⟨t, -, -, ⟨rest, hrest⟩, -⟩
  · exact h
  · exfalso
    have hlen : t + 2 ≤ str.length := by
      have := congrArg List.length hrest
      simp only [List.length_append, List.length_drop, bytesOf_crlf, List.length_cons,
        List.length_nil] at this
      omega
    have hcr : str[t]? = some 0x0d := by
      have := congrArg List.head? hrest
      rw [List.head?_drop, bytesOf_crlf] at this
      rw [← this]
      rfl
    obtain ⟨u, hu⟩ := hstr
    have hlt : t < pre.length := by
      have := congrArg List.length hu
      simp only [List.length_append, List.length_singleton] at this
      omega
    have hpre_t : (pre ++ [0x0d])[t]? = some 0x0d := by
      rw [← hu, List.getElem?_append_left (by omega), hcr]
    rw [List.getElem?_append_left hlt] at hpre_t
    exact hpre (List.getElem?_mem hpre_t)

section SizeLine

variable {l : SizeLine} {value : Nat}

/-- A size line cut short holds no CRLF. -/
theorem SizeLine.Spells.no_crlf_take (hl : l.Spells value) {m : Nat} (hm : m < l.bytes.length)
    (Y : List UInt8) (len : Int) :
    soup_substring_index ((l.bytes ++ Y).take m) len (bytesOf "\r\n") = -1 := by
  have hcr : 0x0d ∉ l.digits ++ l.ext := by simpa using ⟨hl.no_cr_digits, hl.2.2.2.2.2⟩
  refine soup_substring_index_no_crlf hcr ?_ len
  have hbytes : l.bytes ++ Y = (l.digits ++ l.ext ++ [0x0d]) ++ (0x0a :: Y) := by
    simp [SizeLine.bytes]
  have hlen : m ≤ (l.digits ++ l.ext ++ [0x0d]).length := by
    simp only [SizeLine.bytes, List.length_append, bytesOf_crlf, List.length_cons,
      List.length_nil] at hm
    simp only [List.length_append, List.length_singleton]
    omega
  rw [hbytes, List.take_append_of_le_length hlen]
  exact List.take_prefix _ _

/-- A pass of `decode_chunk` after the data `d` of a chunk breaks while the
    size line after it is not complete in the buffer. -/
theorem decode_chunk_pass_wait (hl : l.Spells value) {P d Y : List UInt8} (hd : d ≠ [])
    {k : Nat} (hk : k < d.length + 2 + l.bytes.length) (datalen : Nat) (ret : Bool) :
    decode_chunk_pass ⟨d.length, P.length⟩ (P ++ (d ++ bytesOf "\r\n" ++ l.bytes ++ Y).take k)
      datalen ret = .brk := by
  have hd0 := List.length_pos.mpr hd
  unfold decode_chunk_pass
  by_cases hshort : (P ++ (d ++ bytesOf "\r\n" ++ l.bytes ++ Y).take k).length < P.length + d.length + 5
  · rw [if_pos hshort]
  · rw [if_neg hshort, if_pos]
    have hk5 : d.length + 5 ≤ k := by
      simp only [List.length_append, List.length_take] at hshort
      omega
    have hdrop : (P ++ (d ++ bytesOf "\r\n" ++ l.bytes ++ Y).take k).drop (P.length + d.length + 2) =
        (l.bytes ++ Y).take (k - (d.length + 2)) := by
      rw [List.drop_append_eq_append_drop, List.drop_eq_nil_of_le (by omega), List.nil_append,
        List.drop_take, show P.length + d.length + 2 - P.length = d.length + 2 by omega,
        show d ++ bytesOf "\r\n" ++ l.bytes ++ Y = (d ++ bytesOf "\r\n") ++ (l.bytes ++ Y) by
          simp only [List.append_assoc],
        List.drop_left' (by simp)]
    simp only [chunk_header_end, ne_eq, List.length_eq_zero, hd, not_false_eq_true, if_true,
      hdrop, hl.no_crlf_take (by omega : k - (d.length + 2) < l.bytes.length)]
    decide

/-- The first pass of `decode_chunk` breaks while the first size line is not
    complete, or the buffer holds fewer than five bytes. -/
theorem decode_chunk_pass_wait_first (hl : l.Spells value) {Y : List UInt8} {k : Nat}
    (hk : k < l.bytes.length ∨ k < 5) (datalen : Nat) (ret : Bool) :
    decode_chunk_pass ⟨0, 0⟩ ((l.bytes ++ Y).take k) datalen ret = .brk := by
  unfold decode_chunk_pass
  dsimp only
  by_cases hshort : ((l.bytes ++ Y).take k).length < 0 + 0 + 5
  · rw [if_pos hshort]
  · rw [if_neg hshort, if_pos]
    have hk' : k < l.bytes.length := by
      simp only [List.length_take, List.length_append] at hshort
      omega
    simp only [chunk_header_end, ne_eq, not_true_eq_false, if_false, hl.no_crlf_take hk']
    decide

/-- The terminating size line with less than the final CRLF after it: removing
    the line and the two bytes after it fails the assertion of
    `remove_block_at_index`. -/
theorem decode_chunk_size_last_short (hl : l.Spells 0) (P : List UInt8) {Y : List UInt8}
    (hY : Y.length < 2) (ret : Bool) : decode_chunk_size P.length (P ++ l.bytes ++ Y) ret = none := by
  rw [decode_chunk_size_sizeLine hl]
  simp only [↓reduceIte]
  rw [remove_block_at_index_of_lt (by omega) (by simp only [List.length_append]; omega)]
  rfl

end SizeLine

/-- The first pass of `decode_chunk` on a body whose first chunk `c` has its
    size line complete in a buffer of at least five bytes: it moves into the
    data of `c`. -/
theorem decode_chunk_pass_start {c : Chunk} (hc : c.WellFormed) {rest : List Chunk} {last : SizeLine}
    {j : Nat} (h5 : 5 ≤ c.line.bytes.length + j) (hj : j ≤ (chunkTail c rest last).length) :
    decode_chunk_pass ⟨0, 0⟩ (c.line.bytes ++ (chunkTail c rest last).take j) 0 false =
      .next ⟨c.data.length, 0⟩ ((chunkTail c rest last).take j) 0 false := by
  have hsize : decode_chunk_size 0 (c.line.bytes ++ (chunkTail c rest last).take j) false =
      some (c.data.length, (chunkTail c rest last).take j, false) := by
    simpa using decode_chunk_size_data hc.2 (by simpa using hc.1) [] ((chunkTail c rest last).take j) false
  exact decode_chunk_pass_first hc.2 (by simp; omega) hsize 0

/-- A pass of `decode_chunk` in the data of `cur` with the size line of the
    next chunk `c` complete in the buffer: it moves into the data of `c`. -/
theorem decode_chunk_pass_chunkTail {cur c : Chunk} (hcur : cur.WellFormed) (hc : c.WellFormed)
    (rest : List Chunk) (last : SizeLine) (P : List UInt8) (j datalen : Nat) :
    decode_chunk_pass ⟨cur.data.length, P.length⟩
        (P ++ (cur.data ++ bytesOf "\r\n" ++ c.line.bytes ++ (chunkTail c rest last).take j)) datalen false =
      .next ⟨c.data.length, (P ++ cur.data).length⟩ (P ++ cur.data ++ (chunkTail c rest last).take j)
        (datalen + cur.data.length) false := by
  have hpass := decode_chunk_pass_next hc.2 hcur.1
    (decode_chunk_size_data hc.2 (by simpa using hc.1) (P ++ cur.data) ((chunkTail c rest last).take j)
      false) datalen
  simp only [List.append_assoc, List.length_append] at hpass ⊢
  exact hpass

/-- A cut inside the CRLF that ends `X ++ CRLF` keeps `X` and less than the
    CRLF. -/
theorem take_crlf_short {X : List UInt8} {k : Nat} (hle : (X ++ bytesOf "\r\n").length ≤ k + 2)
    (hlt : k < (X ++ bytesOf "\r\n").length) :
    ∃ Y : List UInt8, Y.length < 2 ∧ (X ++ bytesOf "\r\n").take k = X ++ Y := by
  simp only [List.length_append, bytesOf_crlf, List.length_cons, List.length_nil] at hle hlt
  refine ⟨(bytesOf "\r\n").take (k - X.length), ?_, ?_⟩
  · simp only [List.length_take, bytesOf_crlf, List.length_cons, List.length_nil]
    omega
  · rw [List.take_append_eq_append_take, List.take_of_length_le (by omega)]

section Partial

variable {last : SizeLine} (hlast : last.Spells 0)
include hlast

/-- The loop of `decode_chunk` from the data of the chunk `cur`, on a buffer
    that holds `P` and then the first `k` bytes of the rest of the body, at
    least three bytes short of its end: it goes through every size line that is
    complete and stops in a chunk `cur'`, with the same bytes still to come. -/
theorem decode_chunk_loop_partial : ∀ (fuel : Nat) (cur : Chunk) (rest : List Chunk),
    cur.WellFormed → (∀ c ∈ rest, c.WellFormed) → ∀ (P : List UInt8) (k datalen : Nat),
    k + 3 ≤ (chunkTail cur rest last).length →
    ∃ mid cur' rest' k', cur :: rest = mid ++ cur' :: rest' ∧
      k' + 3 ≤ (chunkTail cur' rest' last).length ∧
      (chunkTail cur rest last).drop k = (chunkTail cur' rest' last).drop k' ∧
      decode_chunk_loop fuel ⟨cur.data.length, P.length⟩ (P ++ (chunkTail cur rest last).take k)
          datalen false =
        some (⟨cur'.data.length, (P ++ chunkedData mid).length⟩,
          P ++ chunkedData mid ++ (chunkTail cur' rest' last).take k',
          datalen + (chunkedData mid).length, false)
  | 0, cur, rest, _, _, P, k, datalen, hk => ⟨[], cur, rest, k, rfl, hk, rfl, by simp [decode_chunk_loop]⟩
  | fuel + 1, cur, rest, hcur, hrest, P, k, datalen, hk => by
    by_cases hbrk : decode_chunk_pass ⟨cur.data.length, P.length⟩ (P ++ (chunkTail cur rest last).take k)
        datalen false = .brk
    · exact ⟨[], cur, rest, k, rfl, hk, rfl, by simp [decode_chunk_loop, hbrk]⟩
    cases rest with
    | nil =>
      -- the terminating size line cannot be complete so far from the end
      refine absurd ?_ hbrk
      rw [chunkTail_nil] at hk ⊢
      refine decode_chunk_pass_wait hlast hcur.1 ?_ _ _
      simp only [List.length_append, bytesOf_crlf, List.length_cons, List.length_nil] at hk
      omega
    | cons c rest =>
      -- the next size line is complete: `cur` is done and the loop goes on in `c`
      have hc := hrest c (List.mem_cons_self _ _)
      have hlen : (cur.data ++ bytesOf "\r\n" ++ c.line.bytes).length ≤ k := by
        by_contra hlt
        refine hbrk ?_
        rw [chunkTail_cons]
        exact decode_chunk_pass_wait hc.2 hcur.1 (by
          simp only [List.length_append, bytesOf_crlf, List.length_cons, List.length_nil] at hlt
          omega) _ _
      obtain ⟨j, rfl⟩ := Nat.exists_eq_add_of_le hlen
      have hj : j + 3 ≤ (chunkTail c rest last).length := by
        simp only [chunkTail_cons, List.length_append] at hk ⊢
        omega
      obtain ⟨mid, cur', rest', k', heq, hk', hdrop, hloop⟩ := decode_chunk_loop_partial fuel c rest hc
        (fun c' hc' => hrest c' (List.mem_cons_of_mem _ hc')) (P ++ cur.data) j (datalen + cur.data.length) hj
      refine ⟨cur :: mid, cur', rest', k', by rw [heq]; rfl, hk', ?_, ?_⟩
      · rw [chunkTail_cons, List.drop_append, hdrop]
      · rw [decode_chunk_loop, chunkTail_cons, List.take_append, decode_chunk_pass_chunkTail hcur hc]
        simpa [List.append_assoc, Nat.add_assoc] using hloop

/-- The loop of `decode_chunk` from the start of a chunked body, on a buffer
    that holds its first `k` bytes, at least three short of its end: it waits
    for the first size line, or goes on as `decode_chunk_loop_partial`. -/
theorem decode_chunk_loop_start_partial : ∀ (fuel : Nat) (chunks : List Chunk),
    (∀ c ∈ chunks, c.WellFormed) → ∀ k, k + 3 ≤ (chunkedBody chunks last).length →
    decode_chunk_loop fuel ⟨0, 0⟩ ((chunkedBody chunks last).take k) 0 false =
        some (⟨0, 0⟩, (chunkedBody chunks last).take k, 0, false) ∨
      ∃ mid cur' rest' k', chunks = mid ++ cur' :: rest' ∧
        k' + 3 ≤ (chunkTail cur' rest' last).length ∧
        (chunkedBody chunks last).drop k = (chunkTail cur' rest' last).drop k' ∧
        decode_chunk_loop fuel ⟨0, 0⟩ ((chunkedBody chunks last).take k) 0 false =
          some (⟨cur'.data.length, (chunkedData mid).length⟩,
            chunkedData mid ++ (chunkTail cur' rest' last).take k', (chunkedData mid).length, false)
  | 0, _, _, _, _ => .inl rfl
  | fuel + 1, chunks, hchunks, k, hk => by
    by_cases hbrk : decode_chunk_pass ⟨0, 0⟩ ((chunkedBody chunks last).take k) 0 false = .brk
    · exact .inl (by simp [decode_chunk_loop, hbrk])
    cases chunks with
    | nil =>
      refine absurd ?_ hbrk
      have hE : chunkedBody [] last = last.bytes ++ bytesOf "\r\n" := by simp [chunkedBody]
      rw [hE] at hk ⊢
      refine decode_chunk_pass_wait_first hlast (.inl ?_) _ _
      simp only [List.length_append, bytesOf_crlf, List.length_cons, List.length_nil] at hk
      omega
    | cons c rest =>
      have hc := hchunks c (List.mem_cons_self _ _)
      have hlen : c.line.bytes.length ≤ k ∧ 5 ≤ k := by
        by_contra hlt
        refine hbrk ?_
        rw [chunkedBody_cons_tail]
        exact decode_chunk_pass_wait_first hc.2 (by omega) _ _
      obtain ⟨j, rfl⟩ := Nat.exists_eq_add_of_le hlen.1
      have hj : j + 3 ≤ (chunkTail c rest last).length := by
        rw [chunkedBody_cons_tail, List.length_append] at hk
        omega
      obtain ⟨mid, cur', rest', k', heq, hk', hdrop, hloop⟩ := decode_chunk_loop_partial hlast fuel c rest hc
        (fun c' hc' => hchunks c' (List.mem_cons_of_mem _ hc')) [] j 0 hj
      refine .inr ⟨mid, cur', rest', k', heq, hk', ?_, ?_⟩
      · rw [chunkedBody_cons_tail, List.drop_append, hdrop]
      · rw [decode_chunk_loop, chunkedBody_cons_tail, List.take_append,
          decode_chunk_pass_start hc (by omega) (by omega)]
        simpa using hloop

/-- The loop of `decode_chunk` from the data of the chunk `cur`, on a buffer
    that holds `P` and all the rest of the body but its last one or two bytes:
    every size line is complete, and removing the terminating one with the
    final CRLF, which is not all in, fails the assertion of
    `remove_block_at_index`. -/
theorem decode_chunk_loop_short : ∀ (fuel : Nat) (cur : Chunk) (rest : List Chunk),
    cur.WellFormed → (∀ c ∈ rest, c.WellFormed) → rest.length < fuel → ∀ (P : List UInt8) (k datalen : Nat),
    (chunkTail cur rest last).length ≤ k + 2 → k < (chunkTail cur rest last).length →
    decode_chunk_loop fuel ⟨cur.data.length, P.length⟩ (P ++ (chunkTail cur rest last).take k) datalen false =
      none
  | fuel + 1, cur, [], hcur, _, _, P, k, datalen, hle, hlt => by
    -- the terminating size line is complete, its CRLF is not
    rw [chunkTail_nil] at hle hlt ⊢
    obtain ⟨Y, hY, htake⟩ := take_crlf_short hle hlt
    have hpass := decode_chunk_pass_next_eq hlast hcur.1 (P := P) (X := Y) datalen false
    rw [decode_chunk_size_last_short hlast (P ++ cur.data) hY] at hpass
    rw [htake, decode_chunk_loop]
    simp only [List.append_assoc] at hpass ⊢
    rw [hpass]
    rfl
  | fuel + 1, cur, c :: rest, hcur, hrest, hfuel, P, k, datalen, hle, hlt => by
    -- the next size line is complete: the loop goes on in `c`
    have hc := hrest c (List.mem_cons_self _ _)
    have htail := chunkTail_length c rest last
    rw [chunkTail_cons, List.length_append] at hle hlt
    obtain ⟨j, rfl⟩ := Nat.exists_eq_add_of_le
      (show (cur.data ++ bytesOf "\r\n" ++ c.line.bytes).length ≤ k by omega)
    rw [decode_chunk_loop, chunkTail_cons, List.take_append, decode_chunk_pass_chunkTail hcur hc]
    exact decode_chunk_loop_short fuel c rest hc (fun c' hc' => hrest c' (List.mem_cons_of_mem _ hc'))
      (by simp only [List.length_cons] at hfuel; omega) (P ++ cur.data) j _ (by omega) (by omega)

/-- `decode_chunk` from the start of a body, on a buffer that holds all of it
    but its last one or two bytes: it fails as `decode_chunk_loop_short` says,
    or, when the body has no data chunk and fewer than five bytes are in,
    waits. -/
theorem decode_chunk_start_short {chunks : List Chunk} (hchunks : ∀ c ∈ chunks, c.WellFormed) {k : Nat}
    (hle : (chunkedBody chunks last).length ≤ k + 2) (hlt : k < (chunkedBody chunks last).length) :
    decode_chunk ⟨0, 0⟩ ((chunkedBody chunks last).take k) = none ∨
      decode_chunk ⟨0, 0⟩ ((chunkedBody chunks last).take k) =
        some (⟨0, 0⟩, (chunkedBody chunks last).take k, 0, false) := by
  cases chunks with
  | nil =>
    have hE : chunkedBody [] last = last.bytes ++ bytesOf "\r\n" := by simp [chunkedBody]
    rw [hE] at hle hlt ⊢
    obtain ⟨Y, hY, htake⟩ := take_crlf_short hle hlt
    rw [htake, decode_chunk, decode_chunk_loop]
    by_cases h5 : (last.bytes ++ Y).length < 5
    · -- too short for `decode_chunk` to look at
      right
      simp only [decode_chunk_pass, Nat.add_zero, if_pos h5]
    · left
      have hsize := decode_chunk_size_last_short hlast [] hY false
      rw [List.nil_append, List.length_nil] at hsize
      rw [decode_chunk_pass_first_eq hlast (by omega), hsize]
      rfl
  | cons c rest =>
    left
    have hc := hchunks c (List.mem_cons_self _ _)
    have htail := chunkTail_length c rest last
    rw [chunkedBody_cons_tail] at hle hlt ⊢
    rw [List.length_append] at hle hlt
    obtain ⟨j, rfl⟩ := Nat.exists_eq_add_of_le (show c.line.bytes.length ≤ k by omega)
    have h5 : 5 ≤ c.line.bytes.length + j := by
      have hline := List.length_pos.mpr hc.2.1
      simp only [SizeLine.bytes, List.length_append, bytesOf_crlf, List.length_cons, List.length_nil] at hline ⊢
      omega
    rw [decode_chunk, List.take_append, decode_chunk_loop, decode_chunk_pass_start hc h5 (by omega)]
    simpa using decode_chunk_loop_short hlast (c.line.bytes ++ (chunkTail c rest last).take j).length c rest hc
      (fun c' hc' => hchunks c' (List.mem_cons_of_mem _ hc'))
      (by rw [List.length_append, List.length_take]; omega) [] j 0 (by omega) (by omega)

end Partial

/-- `read_chunk` once `decode_chunk` has run: no callback when no chunk was
    completed; otherwise the chunk callback gets the first `s->idx` bytes of
    the buffer, which overwrite mode then drops. -/
theorem read_chunk_decoded {r : SoupReader} {env : ReadEnv} {s : SoupTransferChunkState}
    {arr : List UInt8} {datalen : Nat} {ret : Bool}
    (hdec : decode_chunk r.chunk_state r.recv_buf = some (s, arr, datalen, ret)) (hcb : r.read_chunk_cb)
    (hcont : env.nextChunkReply.1 = .SOUP_TRANSFER_CONTINUE)
    (hidx : datalen ≠ 0 → s.idx ≠ 0 ∧ s.idx ≤ arr.length) :
    read_chunk r env false =
      if datalen = 0 then (.ok { r with chunk_state := s, recv_buf := arr } ret false, env)
      else
        (.ok (if r.overwrite_chunks then
            { r with callback_issued := true, chunk_state := { s with idx := 0 }, recv_buf := arr.drop s.idx }
          else { r with callback_issued := true, chunk_state := s, recv_buf := arr }) ret false,
          env.nextChunkReply.2.call (.read_chunk_cb (arr.take s.idx) .SOUP_TRANSFER_CONTINUE)) := by
  unfold read_chunk
  rw [hdec]
  by_cases hzero : datalen = 0
  · simp [hzero]
  · obtain ⟨hne, hle⟩ := hidx hzero
    have hcb' : ({ r with chunk_state := s, recv_buf := arr } : SoupReader).read_chunk_cb := hcb
    simp only [hzero, if_false]
    rw [issue_chunk_callback_eq hcb' hne]
    cases hover : r.overwrite_chunks
    · simp [hcont, hover]
    · simp [hcont, hover, @remove_block_at_index_of_le arr 0 s.idx hne (by simpa using hle)]

/-- No cut between reads leaves one or two bytes of the stream still to come:
    the last read brings at least the last three bytes. -/
def CutsGood (reads : List ReadResult) : Prop :=
  ∀ pre post, reads = pre ++ post → okBytes post = [] ∨ 3 ≤ (okBytes post).length

/-- The cuts are checked at each of the finitely many places a list of reads
    can be split. -/
theorem cutsGood_iff_drop (reads : List ReadResult) :
    CutsGood reads ↔ ∀ i < reads.length + 1, okBytes (reads.drop i) = [] ∨ 3 ≤ (okBytes (reads.drop i)).length := by
  constructor
  · intro h i _
    exact h (reads.take i) (reads.drop i) (List.take_append_drop i reads).symm
  · rintro h pre post rfl
    simpa using h pre.length (by simp only [List.length_append]; omega)

instance (reads : List ReadResult) : Decidable (CutsGood reads) :=
  decidable_of_iff' _ (cutsGood_iff_drop reads)

section Split

variable (H : List UInt8) (chunks : List Chunk) (last : SizeLine) (overwrite_chunks : Bool)
  (start : ReadEnv)

/-- The data of the chunks `done` that the reader keeps in its buffer: all of
    it, or none in overwrite mode. -/
def keptData (done : List Chunk) : List UInt8 := if overwrite_chunks then [] else chunkedData done

/-- The calls once the chunks `done` have been decoded: `headers_done_cb` with
    the header block, then chunk callbacks that went on, whose buffers make up
    the data of `done` in overwrite mode and are prefixes of it otherwise. -/
def ChunkCalls (done : List Chunk) (calls : List ReadCall) : Prop :=
  ∃ chs, calls = .headers_done_cb (strncpy H H.length) .SOUP_TRANSFER_CONTINUE :: chs ∧ OpenChunks chs ∧
    if overwrite_chunks then (chunkPayloads chs).flatten = chunkedData done
    else ∀ buf ∈ chunkPayloads chs, buf <+: chunkedData done

/-- Where `decode_chunk` stands between batches on the body
    `chunkedBody chunks last`, with `remaining` the bytes still to come: at the
    start of the body, or in the data of a chunk `cur` after the chunks `done`,
    whose data the buffer keeps unless overwriting. -/
def ChunkedAt (r : SoupReader) (calls : List ReadCall) (remaining : List UInt8) : Prop :=
  (r.chunk_state = ⟨0, 0⟩ ∧
    (∃ k, r.recv_buf = (chunkedBody chunks last).take k ∧ remaining = (chunkedBody chunks last).drop k) ∧
    ChunkCalls H overwrite_chunks [] calls) ∨
  ∃ done cur rest k, chunks = done ++ cur :: rest ∧
    r.chunk_state = ⟨cur.data.length, (keptData overwrite_chunks done).length⟩ ∧
    r.recv_buf = keptData overwrite_chunks done ++ (chunkTail cur rest last).take k ∧
    remaining = (chunkTail cur rest last).drop k ∧ ChunkCalls H overwrite_chunks done calls

/-- A reader with every callback set, past the header block `H`, decoding the
    chunked body `chunkedBody chunks last`. -/
structure ChunkedBody (r : SoupReader) (env : ReadEnv) (reads : List ReadResult) : Prop where
  header_len : r.header_len = H.length
  encoding : r.encoding = .SOUP_TRANSFER_CHUNKED
  overwrite : r.overwrite_chunks = overwrite_chunks
  callbacks : AllSet r
  replies : ∀ c ∈ env.chunkReplies, c = .SOUP_TRANSFER_CONTINUE
  position : ChunkedAt H chunks last overwrite_chunks r env.calls (okBytes reads)

/-- The reader on the stream `H ++ chunkedBody chunks last`, started in
    `start`: before the header boundary only bytes have been buffered; after
    it, `ChunkedBody`; and between batches some bytes are still to come. -/
def ChunkedMid (r : SoupReader) (env : ReadEnv) (total_read : Nat) (reads : List ReadResult) : Prop :=
  (total_read = 0 → okBytes reads ≠ []) ∧
    ((∃ buf, env = start ∧
      r = { soup_transfer_read overwrite_chunks true true true true with recv_buf := buf } ∧
      buf ++ okBytes reads = H ++ chunkedBody chunks last ∧ (total_read = 0 → buf.length < H.length)) ∨
    ChunkedBody H chunks last overwrite_chunks r env reads)

/-- The transfer is over. Either every byte was read, and `read_done_cb` was
    called last, with the data of all the chunks (nothing in overwrite mode);
    or the process aborted in `decode_chunk`, with one or both bytes of the
    final CRLF still to come, after the calls for some first chunks. -/
def ChunkedDone (st : ReaderStatus) (env : ReadEnv) (reads : List ReadResult) : Prop :=
  (st = .freed false ∧ okBytes reads = [] ∧
    ∃ calls₀, env.calls = calls₀ ++ [.read_done_cb (keptData overwrite_chunks chunks)] ∧
      ChunkCalls H overwrite_chunks chunks calls₀) ∨
  (st = .aborted ∧ okBytes reads ≠ [] ∧ okBytes reads <:+ bytesOf "\r\n" ∧
    ∃ done rest, chunks = done ++ rest ∧ ChunkCalls H overwrite_chunks done env.calls)

variable {H chunks last overwrite_chunks start}

theorem keptData_nil : keptData overwrite_chunks [] = [] := by
  simp [keptData]

theorem ChunkCalls.extend {done mid : List Chunk} {calls : List ReadCall}
    (h : ChunkCalls H overwrite_chunks done calls) (hmid : chunkedData mid = []) :
    ChunkCalls H overwrite_chunks (done ++ mid) calls := by
  simpa [ChunkCalls, hmid] using h

/-- A chunk callback handed what the buffer keeps of the chunks `done` and the
    data of the chunks `mid` decoded since. -/
theorem ChunkCalls.chunk {done : List Chunk} {calls : List ReadCall}
    (h : ChunkCalls H overwrite_chunks done calls) (mid : List Chunk) :
    ChunkCalls H overwrite_chunks (done ++ mid)
      (calls ++ [.read_chunk_cb (keptData overwrite_chunks done ++ chunkedData mid) .SOUP_TRANSFER_CONTINUE]) := by
  obtain ⟨chs, rfl, hopen, hpayloads⟩ := h
  refine ⟨chs ++ [.read_chunk_cb (keptData overwrite_chunks done ++ chunkedData mid) .SOUP_TRANSFER_CONTINUE],
    by simp, hopen.append fun c hc => ⟨_, by simpa using hc⟩, ?_⟩
  cases overwrite_chunks
  · simp only [keptData, Bool.false_eq_true, if_false] at hpayloads ⊢
    intro buf hbuf
    rw [chunkPayloads_append, List.mem_append] at hbuf
    rcases hbuf with hbuf | hbuf
    · exact (hpayloads buf hbuf).trans (by simp)
    · simp only [chunkPayloads_read_chunk_cb, List.mem_singleton] at hbuf
      simp [hbuf]
  · simp only [keptData, if_true] at hpayloads ⊢
    simp [hpayloads]

/-- `read_chunk` after `decode_chunk` has gone through the data of the chunks
    `mid`, leaving `X` of the body in the buffer: the reader keeps what it
    should of `done ++ mid`, and a chunk callback got the data decoded so far
    (overwrite mode: since the last callback). -/
theorem read_chunk_step {r : SoupReader} {env : ReadEnv} {done mid : List Chunk} {X : List UInt8}
    {len : Nat} {ret : Bool} (hover : r.overwrite_chunks = overwrite_chunks) (hset : AllSet r)
    (hreplies : ∀ c ∈ env.chunkReplies, c = .SOUP_TRANSFER_CONTINUE)
    (hdec : decode_chunk r.chunk_state r.recv_buf =
      some (⟨len, (keptData overwrite_chunks done ++ chunkedData mid).length⟩,
        keptData overwrite_chunks done ++ chunkedData mid ++ X, (chunkedData mid).length, ret))
    (hcalls : ChunkCalls H overwrite_chunks done env.calls) :
    ∃ r' env', read_chunk r env false = (.ok r' ret false, env') ∧
      r'.recv_buf = keptData overwrite_chunks (done ++ mid) ++ X ∧
      r'.chunk_state = ⟨len, (keptData overwrite_chunks (done ++ mid)).length⟩ ∧
      r'.header_len = r.header_len ∧ r'.encoding = r.encoding ∧ r'.overwrite_chunks = overwrite_chunks ∧
      AllSet r' ∧ (∀ c ∈ env'.chunkReplies, c = .SOUP_TRANSFER_CONTINUE) ∧
      ChunkCalls H overwrite_chunks (done ++ mid) env'.calls := by
  have hcont := ReadEnv.nextChunkReply_continue hreplies
  rw [read_chunk_decoded hdec hset.2.1 hcont.1 fun hne => ⟨by dsimp only; rw [List.length_append]; omega, by simp⟩]
  by_cases hmid : chunkedData mid = []
  · have hkept : keptData overwrite_chunks (done ++ mid) = keptData overwrite_chunks done := by
      simp [keptData, hmid]
    simp only [hmid, List.length_nil, if_true]
    exact ⟨_, _, rfl, by simp [hkept], by simp [hkept], rfl, rfl, hover, hset, hreplies,
      hcalls.extend hmid⟩
  · rw [if_neg (by simpa using hmid), hover]
    have hcalls' := hcalls.chunk mid
    cases overwrite_chunks <;>
    · simp only [keptData, Bool.false_eq_true, if_false, if_true, List.nil_append] at hcalls' ⊢
      refine ⟨_, _, rfl, by simp, by simp, rfl, rfl, rfl, hset, by simpa using hcont.2, ?_⟩
      simpa only [ReadEnv.call_calls, ReadEnv.nextChunkReply_calls, List.take_left] using hcalls'

/-- Bytes read move the position on: the buffer gets them, and they are no
    longer to come. -/
theorem ChunkedAt.append {r : SoupReader} {calls : List ReadCall} {x rest : List UInt8}
    (hat : ChunkedAt H chunks last overwrite_chunks r calls (x ++ rest)) :
    ChunkedAt H chunks last overwrite_chunks { r with recv_buf := r.recv_buf ++ x } calls rest := by
  rcases hat with ⟨hstate, ⟨k, hbuf, hrest⟩, hcalls⟩ | ⟨done, cur, rest', k, hsplit, hstate, hbuf, hrest, hcalls⟩
  · obtain ⟨htake, hdrop⟩ := take_append_of_drop hrest
    exact .inl ⟨hstate, ⟨k + x.length, by rw [← htake, ← hbuf], hdrop⟩, hcalls⟩
  · obtain ⟨htake, hdrop⟩ := take_append_of_drop hrest
    exact .inr ⟨done, cur, rest', k + x.length, hsplit, hstate, by rw [← htake, ← List.append_assoc, ← hbuf],
      hdrop, hcalls⟩

/-- The calls so far are those for some first chunks. -/
theorem ChunkedAt.calls {r : SoupReader} {calls : List ReadCall} {remaining : List UInt8}
    (hat : ChunkedAt H chunks last overwrite_chunks r calls remaining) :
    ∃ done rest, chunks = done ++ rest ∧ ChunkCalls H overwrite_chunks done calls := by
  rcases hat with ⟨-, -, hcalls⟩ | ⟨done, cur, rest, -, hsplit, -, -, -, hcalls⟩
  exacts [⟨[], chunks, rfl, hcalls⟩, ⟨done, cur :: rest, hsplit, hcalls⟩]

/-- The bytes still to come end the body, which ends with a CRLF: at most two
    of them are the end of that CRLF. -/
theorem ChunkedAt.remaining_crlf {r : SoupReader} {calls : List ReadCall} {remaining : List UInt8}
    (hat : ChunkedAt H chunks last overwrite_chunks r calls remaining) (hshort : remaining.length ≤ 2) :
    remaining <:+ bytesOf "\r\n" := by
  have hcrlf : ∀ (X : List UInt8) (k : Nat), ((X ++ bytesOf "\r\n").drop k).length ≤ 2 →
      (X ++ bytesOf "\r\n").drop k <:+ bytesOf "\r\n" := fun X k h => by
    rw [List.drop_append_eq_append_drop, List.drop_eq_nil_of_le (by simp at h; omega), List.nil_append]
    exact List.drop_suffix _ _
  rcases hat with ⟨-, ⟨k, -, rfl⟩, -⟩ | ⟨-, cur, rest, k, -, -, -, rfl, -⟩
  · exact hcrlf _ k hshort
  · have hE : chunkTail cur rest last = cur.data ++ bytesOf "\r\n" ++
        ((rest.map fun c => c.line.bytes ++ c.data ++ bytesOf "\r\n").flatten ++ last.bytes) ++
        bytesOf "\r\n" := by
      simp [chunkTail, chunkedBody, List.append_assoc]
    rw [hE] at hshort ⊢
    exact hcrlf _ k hshort

theorem wellFormed_of_split {done rest : List Chunk} {cur : Chunk} (hchunks : ∀ c ∈ chunks, c.WellFormed)
    (hsplit : chunks = done ++ cur :: rest) : cur.WellFormed ∧ ∀ c ∈ rest, c.WellFormed :=
  ⟨hchunks cur (by rw [hsplit]; simp), fun c hc => hchunks c (by rw [hsplit]; simp [hc])⟩

section Decode

variable (hlast : last.Spells 0) (hchunks : ∀ c ∈ chunks, c.WellFormed)
include hlast hchunks

/-- `decode_chunk` on a batch: from where it stood, with the bytes received so
    far and a good cut, it goes through the data of some chunks `mid` after the
    chunks `done`, and either ends the body, which has then been read whole, or
    stops at a position from which some bytes are still to come. -/
theorem chunked_decode {r : SoupReader} {calls : List ReadCall} {remaining : List UInt8}
    (hat : ChunkedAt H chunks last overwrite_chunks r calls remaining)
    (hgood : remaining = [] ∨ 3 ≤ remaining.length) :
    ∃ done mid X len ret, ChunkCalls H overwrite_chunks done calls ∧
      decode_chunk r.chunk_state r.recv_buf =
        some (⟨len, (keptData overwrite_chunks done ++ chunkedData mid).length⟩,
          keptData overwrite_chunks done ++ chunkedData mid ++ X, (chunkedData mid).length, ret) ∧
      (ret = true → done ++ mid = chunks ∧ X = [] ∧ remaining = []) ∧
      (ret = false → remaining ≠ [] ∧ ∀ (r' : SoupReader) (calls' : List ReadCall),
        r'.recv_buf = keptData overwrite_chunks (done ++ mid) ++ X →
        r'.chunk_state = ⟨len, (keptData overwrite_chunks (done ++ mid)).length⟩ →
        ChunkCalls H overwrite_chunks (done ++ mid) calls' →
        ChunkedAt H chunks last overwrite_chunks r' calls' remaining) := by
  rcases hat with ⟨hstate, ⟨k, hbuf, rfl⟩, hcalls⟩ | ⟨done, cur, rest, k, hsplit, hstate, hbuf, rfl, hcalls⟩
  · -- at the start of the body
    rw [hstate, hbuf]
    rcases hgood with hend | hmore
    · have hall : (chunkedBody chunks last).take k = chunkedBody chunks last :=
        List.take_of_length_le (List.drop_eq_nil_iff.mp hend)
      refine ⟨[], chunks, [], 0, true, hcalls, ?_, fun _ => ⟨rfl, rfl, hend⟩, fun h => absurd h (by decide)⟩
      rw [hall]
      simpa [keptData_nil] using decode_chunk_chunkedBody hlast hchunks
    · have hk : k + 3 ≤ (chunkedBody chunks last).length := by simp at hmore; omega
      have hne : (chunkedBody chunks last).drop k ≠ [] := List.ne_nil_of_length_pos (by omega)
      rcases decode_chunk_loop_start_partial hlast (((chunkedBody chunks last).take k).length + 1) chunks
          hchunks k hk with hstay | ⟨mid, cur', rest', k', hsplit, -, hdrop, hloop⟩
      · refine ⟨[], [], (chunkedBody chunks last).take k, 0, false, hcalls, ?_, fun h => absurd h (by decide),
          fun _ => ⟨hne, fun r' calls' hb hs hc => .inl ⟨by simpa [keptData_nil] using hs,
            ⟨k, by simpa [keptData_nil] using hb, rfl⟩, by simpa using hc⟩⟩⟩
        simpa [keptData_nil, decode_chunk] using hstay
      · refine ⟨[], mid, (chunkTail cur' rest' last).take k', cur'.data.length, false, hcalls, ?_,
          fun h => absurd h (by decide), fun _ => ⟨hne, fun r' calls' hb hs hc =>
            .inr ⟨[] ++ mid, cur', rest', k', by simpa using hsplit, hs, hb, hdrop, hc⟩⟩⟩
        simpa [keptData_nil, decode_chunk] using hloop
  · -- in the data of the chunk `cur`
    obtain ⟨hcur, hrest⟩ := wellFormed_of_split hchunks hsplit
    rw [hstate, hbuf]
    rcases hgood with hend | hmore
    · have hall : (chunkTail cur rest last).take k = chunkTail cur rest last :=
        List.take_of_length_le (List.drop_eq_nil_iff.mp hend)
      have hfuel : rest.length + 2 ≤ (keptData overwrite_chunks done ++ chunkTail cur rest last).length + 1 := by
        have := chunkTail_length cur rest last
        rw [List.length_append]
        omega
      refine ⟨done, cur :: rest, [], 0, true, hcalls, ?_, fun _ => ⟨hsplit.symm, rfl, hend⟩,
        fun h => absurd h (by decide)⟩
      rw [hall, decode_chunk]
      have hloop := decode_chunk_loop_chunks hlast rest hrest (keptData overwrite_chunks done) cur.data hcur.1 0
        _ hfuel
      simp only [chunkTail, List.append_assoc] at hloop ⊢
      simpa [Nat.add_assoc] using hloop
    · have hk : k + 3 ≤ (chunkTail cur rest last).length := by simp at hmore; omega
      have hne : (chunkTail cur rest last).drop k ≠ [] := List.ne_nil_of_length_pos (by omega)
      obtain ⟨mid, cur', rest', k', heq, -, hdrop, hloop⟩ := decode_chunk_loop_partial hlast
        ((keptData overwrite_chunks done ++ (chunkTail cur rest last).take k).length + 1) cur rest hcur hrest
        (keptData overwrite_chunks done) k 0 hk
      refine ⟨done, mid, (chunkTail cur' rest' last).take k', cur'.data.length, false, hcalls, ?_,
        fun h => absurd h (by decide), fun _ => ⟨hne, fun r' calls' hb hs hc =>
          .inr ⟨done ++ mid, cur', rest', k', by rw [hsplit, heq]; simp, hs, hb, hdrop, hc⟩⟩⟩
      simpa [decode_chunk] using hloop

/-- `decode_chunk` on a batch that leaves one or two bytes of the body still
    to come: it fails, or, at the start of a body with no data chunk, waits. -/
theorem chunked_decode_short {r : SoupReader} {calls : List ReadCall} {remaining : List UInt8}
    (hat : ChunkedAt H chunks last overwrite_chunks r calls remaining) (hne : remaining ≠ [])
    (hshort : remaining.length ≤ 2) :
    decode_chunk r.chunk_state r.recv_buf = none ∨
      decode_chunk r.chunk_state r.recv_buf = some (r.chunk_state, r.recv_buf, 0, false) := by
  have hpos := List.length_pos.mpr hne
  rcases hat with ⟨hstate, ⟨k, hbuf, rfl⟩, -⟩ | ⟨done, cur, rest, k, hsplit, hstate, hbuf, rfl, -⟩
  · rw [List.length_drop] at hpos hshort
    rw [hstate, hbuf]
    exact decode_chunk_start_short hlast hchunks (by omega) (by omega)
  · obtain ⟨hcur, hrest⟩ := wellFormed_of_split hchunks hsplit
    have htail := chunkTail_length cur rest last
    rw [List.length_drop] at hpos hshort
    rw [hstate, hbuf, decode_chunk]
    exact .inl (decode_chunk_loop_short hlast _ cur rest hcur hrest
      (by rw [List.length_append, List.length_take]; omega) _ k 0 (by omega) (by omega))

/-- `PROCESS_READ` on a batch past the header block keeps the invariant: the
    reader goes on reading; or it has read the whole body and hands it to
    `read_done_cb`; or the batch ended one or two bytes short of the end of the
    body and the process aborted. -/
theorem chunked_process_body {r : SoupReader} {env : ReadEnv} {total_read : Nat} {reads : List ReadResult}
    (htotal : total_read ≠ 0) (hbody : ChunkedBody H chunks last overwrite_chunks r env reads) :
    ProcessStep.holds (fun st env => StatusInv (ChunkedMid H chunks last overwrite_chunks start)
      (ChunkedDone H chunks overwrite_chunks) st env reads) (process_body r env total_read) := by
  have hbody_read := read_body_chunked hbody.encoding env htotal
  by_cases hgood : okBytes reads = [] ∨ 3 ≤ (okBytes reads).length
  swap
  · -- the batch ends one or two bytes short of the end
    have hne : okBytes reads ≠ [] := fun h => hgood (.inl h)
    have hshort : (okBytes reads).length ≤ 2 := Nat.le_of_lt_succ (Nat.not_le.mp fun h => hgood (.inr h))
    rcases chunked_decode_short hlast hchunks hbody.position hne hshort with hnone | hwait
    · have hread : read_chunk r env false = (.aborted, env) := by unfold read_chunk; rw [hnone]
      unfold process_body
      rw [hbody_read, hread]
      exact .inr ⟨rfl, hne, hbody.position.remaining_crlf hshort, hbody.position.calls⟩
    · have hread : read_chunk r env false = (.ok r false false, env) := by unfold read_chunk; rw [hwait]; rfl
      rw [process_body_of_read_body (hbody_read.trans hread)]
      exact ⟨fun _ => hne, .inr hbody⟩
  obtain ⟨done, mid, X, len, ret, hcalls, hdec, hdone, hnext⟩ := chunked_decode hlast hchunks hbody.position hgood
  obtain ⟨r', env', hread, hbuf, hstate, hheader, henc, hover, hset, hreplies, hcalls'⟩ :=
    read_chunk_step hbody.overwrite hbody.callbacks hbody.replies hdec hcalls
  rw [process_body_of_read_body (hbody_read.trans hread)]
  cases ret
  · -- the body goes on: read again
    obtain ⟨hne, hat⟩ := hnext rfl
    exact ⟨fun _ => hne, .inr ⟨hheader.trans hbody.header_len, henc.trans hbody.encoding, hover, hset,
      hreplies, hat r' env'.calls hbuf hstate hcalls'⟩⟩
  · -- the whole body is in: `read_done_cb` and the reader is freed
    obtain ⟨hall, rfl, hrest⟩ := hdone rfl
    obtain ⟨hfreed, hcall⟩ := issue_final_callback_cancel hset.2.2.1 env'
    refine .inl ⟨hfreed, hrest, env'.calls, by rw [hcall, ReadEnv.call_calls, hbuf, hall, List.append_nil], ?_⟩
    exact hall ▸ hcalls'

/-- The reader started by `soup_transfer_read` on the stream
    `H ++ chunkedBody chunks last`, whose first headers reply selects the
    chunked encoding and whose chunk callbacks all return
    `SOUP_TRANSFER_CONTINUE`, keeps the invariant at every step. -/
theorem chunked_steps (hk : HeaderEnd (H ++ chunkedBody chunks last) H.length) (content_length : UInt32)
    (hreply : start.nextHeadersReply.1 =
      ⟨.SOUP_TRANSFER_CONTINUE, .SOUP_TRANSFER_CHUNKED, content_length⟩)
    (h₀ : start.calls = []) (hchunk : ∀ c ∈ start.chunkReplies, c = .SOUP_TRANSFER_CONTINUE) :
    SplitSteps (ChunkedMid H chunks last overwrite_chunks start) (ChunkedDone H chunks overwrite_chunks) where
  append r env total b bytes reads h := by
    obtain ⟨-, hphase⟩ := h
    refine ⟨fun h => absurd h (by simp), ?_⟩
    rcases hphase with ⟨buf, henv, rfl, hbuf, -⟩ | hbody
    · exact .inl ⟨buf ++ b :: bytes, henv, rfl, by simpa using hbuf, by simp⟩
    · exact .inr { hbody with position := hbody.position.append }
  skip _ _ _ _ h := by
    obtain ⟨hne, h | hbody⟩ := h
    · exact ⟨hne, .inl h⟩
    · exact ⟨hne, .inr { hbody with position := hbody.position }⟩
  process r env total reads htotal h := by
    obtain ⟨-, hphase⟩ := h
    rcases hphase with ⟨buf, rfl, rfl, hbuf, -⟩ | hbody
    · rcases process_read_start hk (r := { soup_transfer_read overwrite_chunks true true true true with
          recv_buf := buf }) rfl rfl hbuf (by rw [hreply]) total with ⟨hlt, hwait⟩ | ⟨-, hrest, hproc⟩
      · -- the header block is not in yet
        rw [hwait]
        dsimp only at hlt
        refine ⟨fun _ hnil => ?_, .inl ⟨buf, rfl, rfl, hbuf, fun _ => hlt⟩⟩
        have hS := congrArg List.length hbuf
        simp only [hnil, List.append_nil, List.length_append] at hS
        omega
      · -- `headers_done_cb` selects the chunked encoding; decoding starts
        dsimp only at hrest hproc
        rw [hproc, hreply]
        exact chunked_process_body hlast hchunks htotal
          { header_len := rfl
            encoding := rfl
            overwrite := rfl
            callbacks := ⟨rfl, rfl, rfl, rfl⟩
            replies := by simpa using hchunk
            position := .inl ⟨rfl, ⟨_, rfl, hrest⟩, ⟨[], by simp [h₀],
              fun _ h => absurd h (List.not_mem_nil _), by cases overwrite_chunks <;> simp⟩⟩ }
    · unfold process_read
      rw [if_neg (by rw [hbody.header_len]; have := hk.1; omega)]
      exact chunked_process_body hlast hchunks htotal hbody

end Decode

end Split

/-- A run of at least as many readable events as reads, from the reader that
    `soup_transfer_read` starts on a header block and a well-formed chunked
    body cut into reads in any way, ends the transfer as `ChunkedDone` says. -/
theorem chunked_run {H : List UInt8} {chunks : List Chunk} {last : SizeLine}
    (hk : HeaderEnd (H ++ chunkedBody chunks last) H.length) (hchunks : ∀ c ∈ chunks, c.WellFormed)
    (hlast : last.Spells 0) {reads : List ReadResult} (hsplit : SplitOf (H ++ chunkedBody chunks last) reads)
    (overwrite_chunks : Bool) (content_length : UInt32) (more : List HeadersReply)
    {chunkReplies : List SoupTransferDone} (hcont : ∀ c ∈ chunkReplies, c = .SOUP_TRANSFER_CONTINUE)
    {n : Nat} (hn : reads.length ≤ n) :
    let res := readerRun (.running (soup_transfer_read overwrite_chunks true true true true))
      ⟨⟨.SOUP_TRANSFER_CONTINUE, .SOUP_TRANSFER_CHUNKED, content_length⟩ :: more, chunkReplies, []⟩
      reads (List.replicate n .G_IO_IN)
    ChunkedDone H chunks overwrite_chunks res.1 res.2.1 res.2.2 := by
  intro res
  have hinv : StatusInv (ChunkedMid H chunks last overwrite_chunks
      ⟨⟨.SOUP_TRANSFER_CONTINUE, .SOUP_TRANSFER_CHUNKED, content_length⟩ :: more, chunkReplies, []⟩)
      (ChunkedDone H chunks overwrite_chunks) res.1 res.2.1 res.2.2 := by
    refine (readerRun_split (chunked_steps hlast hchunks hk content_length ?_ ?_ hcont) n _ _ reads
      hsplit.1 ?_).2
    · rfl
    · rfl
    · have hH := hk.1
      refine ⟨fun _ hnil => ?_, .inl ⟨[], rfl, rfl, by simpa using hsplit.2, fun _ => ?_⟩⟩
      · have hS := congrArg List.length hsplit.2
        simp only [hnil, List.length_nil, List.length_append] at hS
        omega
      · simp only [List.length_nil]
        omega
  -- a reader still watched after every read would have bytes still to come
  rcases hst : res.1 with r | b | _
  · have hleft : res.2.2.length ≤ reads.length - n := readerRun_replicate_length n _ _ reads ⟨r, hst⟩
    have hnil : res.2.2 = [] := List.eq_nil_of_length_eq_zero (by omega)
    rw [hst, hnil] at hinv
    exact absurd rfl (hinv.1 rfl)
  all_goals rw [hst] at hinv; exact hinv

/-- A chunked body read in any split: for a header block `H` (its first CRLF
    CRLF at its end) followed by a well-formed chunked body (chunks of any
    sizes below `2^31`, hex size lines of any width and case, extensions, the
    terminating zero-size line and the final CRLF, no trailers), cut into reads
    in any way that does not leave the last one or two bytes alone in a read,
    chunk callbacks that go on, and at least as many readable events as reads,
    the reader reads everything and is freed, having called `headers_done_cb`
    with the header, then chunk callbacks whose buffers make up the body in
    overwrite mode and are prefixes of it otherwise, and last `read_done_cb`
    with the body (nothing in overwrite mode). -/
theorem readerRun_chunked_split {H : List UInt8} {chunks : List Chunk} {last : SizeLine}
    (hk : HeaderEnd (H ++ chunkedBody chunks last) H.length) (hchunks : ∀ c ∈ chunks, c.WellFormed)
    (hlast : last.Spells 0) {reads : List ReadResult} (hsplit : SplitOf (H ++ chunkedBody chunks last) reads)
    (hcuts : CutsGood reads) (overwrite_chunks : Bool) (content_length : UInt32) (more : List HeadersReply)
    {chunkReplies : List SoupTransferDone} (hcont : ∀ c ∈ chunkReplies, c = .SOUP_TRANSFER_CONTINUE)
    {n : Nat} (hn : reads.length ≤ n) :
    let res := readerRun (.running (soup_transfer_read overwrite_chunks true true true true))
      ⟨⟨.SOUP_TRANSFER_CONTINUE, .SOUP_TRANSFER_CHUNKED, content_length⟩ :: more, chunkReplies, []⟩
      reads (List.replicate n .G_IO_IN)
    res.1 = .freed false ∧ okBytes res.2.2 = [] ∧
      ∃ chs, res.2.1.calls = .headers_done_cb (strncpy H H.length) .SOUP_TRANSFER_CONTINUE :: chs ++
          [.read_done_cb (if overwrite_chunks then [] else chunkedData chunks)] ∧ OpenChunks chs ∧
        if overwrite_chunks then (chunkPayloads chs).flatten = chunkedData chunks
        else ∀ buf ∈ chunkPayloads chs, buf <+: chunkedData chunks := by
  intro res
  rcases chunked_run hk hchunks hlast hsplit overwrite_chunks content_length more hcont hn with
    ⟨hfreed, hrest, calls₀, hcalls, chs, rfl, hopen, hpayloads⟩ | ⟨-, hne, hcrlf, -⟩
  · exact ⟨hfreed, hrest, chs, hcalls, hopen, hpayloads⟩
  · -- an abort leaves the end of the final CRLF alone after a cut, which good cuts never do
    obtain ⟨pre, hpre⟩ := readerRun_suffix n _ _ reads
    have hshort := hcrlf.length_le
    simp only [bytesOf_crlf, List.length_cons, List.length_nil] at hshort
    rcases hcuts pre _ hpre.symm with hnil | hlong
    · exact absurd hnil hne
    · omega

/-- A chunked body read in any split, with no condition on the cuts: for the
    header block and chunked body of `readerRun_chunked_split` cut into reads
    in any way, the reader either reads everything and ends as that theorem
    says, or the process aborts in `decode_chunk` with the last one or two
    bytes of the stream, the end of the final CRLF, never read, after
    `headers_done_cb` and the chunk callbacks for some first chunks only:
    neither `read_done_cb` nor `error_cb` is called. -/
theorem readerRun_chunked_any_split {H : List UInt8} {chunks : List Chunk} {last : SizeLine}
    (hk : HeaderEnd (H ++ chunkedBody chunks last) H.length) (hchunks : ∀ c ∈ chunks, c.WellFormed)
    (hlast : last.Spells 0) {reads : List ReadResult} (hsplit : SplitOf (H ++ chunkedBody chunks last) reads)
    (overwrite_chunks : Bool) (content_length : UInt32) (more : List HeadersReply)
    {chunkReplies : List SoupTransferDone} (hcont : ∀ c ∈ chunkReplies, c = .SOUP_TRANSFER_CONTINUE)
    {n : Nat} (hn : reads.length ≤ n) :
    let res := readerRun (.running (soup_transfer_read overwrite_chunks true true true true))
      ⟨⟨.SOUP_TRANSFER_CONTINUE, .SOUP_TRANSFER_CHUNKED, content_length⟩ :: more, chunkReplies, []⟩
      reads (List.replicate n .G_IO_IN)
    (res.1 = .freed false ∧ okBytes res.2.2 = [] ∧
      ∃ chs, res.2.1.calls = .headers_done_cb (strncpy H H.length) .SOUP_TRANSFER_CONTINUE :: chs ++
          [.read_done_cb (if overwrite_chunks then [] else chunkedData chunks)] ∧ OpenChunks chs ∧
        if overwrite_chunks then (chunkPayloads chs).flatten = chunkedData chunks
        else ∀ buf ∈ chunkPayloads chs, buf <+: chunkedData chunks) ∨
    (res.1 = .aborted ∧ okBytes res.2.2 ≠ [] ∧ okBytes res.2.2 <:+ bytesOf "\r\n" ∧
      ∃ done rest chs, chunks = done ++ rest ∧
        res.2.1.calls = .headers_done_cb (strncpy H H.length) .SOUP_TRANSFER_CONTINUE :: chs ∧ OpenChunks chs ∧
        if overwrite_chunks then (chunkPayloads chs).flatten = chunkedData done
        else ∀ buf ∈ chunkPayloads chs, buf <+: chunkedData done) := by
  intro res
  rcases chunked_run hk hchunks hlast hsplit overwrite_chunks content_length more hcont hn with
    ⟨hfreed, hrest, calls₀, hcalls, chs, rfl, hopen, hpayloads⟩ |
      ⟨habort, hne, hcrlf, done, rest, hdone, chs, hcalls, hopen, hpayloads⟩
  · exact .inl ⟨hfreed, hrest, chs, hcalls, hopen, hpayloads⟩
  · exact .inr ⟨habort, hne, hcrlf, done, rest, chs, hdone, hcalls, hopen, hpayloads⟩

/-- The header block and the body of `readerRun_chunked_body_two`, cut just
    after the CR of the final CRLF: the process aborts with the LF never read,
    after the callbacks for both chunks. -/
theorem readerRun_chunked_any_split_lf :
    let H := bytesOf "H\r\n\r\n"
    let chunks : List Chunk := [⟨⟨bytesOf "5", bytesOf ";e"⟩, bytesOf "hello"⟩,
      ⟨⟨bytesOf "02", []⟩, bytesOf "hi"⟩]
    let last : SizeLine := ⟨bytesOf "0", []⟩
    let reads : List ReadResult := [.ok (bytesOf "H\r\n\r\n5;e\r\nhello\r\n02\r\nhi\r\n0\r\n\r"), .again,
      .ok (bytesOf "\n")]
    HeaderEnd (H ++ chunkedBody chunks last) H.length ∧ (∀ c ∈ chunks, c.WellFormed) ∧ last.Spells 0 ∧
    SplitOf (H ++ chunkedBody chunks last) reads ∧
    (∀ c ∈ ([] : List SoupTransferDone), c = .SOUP_TRANSFER_CONTINUE) ∧ reads.length ≤ 3 ∧
    let res := readerRun (.running (soup_transfer_read true true true true true))
      ⟨[⟨.SOUP_TRANSFER_CONTINUE, .SOUP_TRANSFER_CHUNKED, 0⟩], [], []⟩ reads (List.replicate 3 .G_IO_IN)
    (res.1 = .freed false ∧ okBytes res.2.2 = [] ∧
      ∃ chs, res.2.1.calls = .headers_done_cb (strncpy H H.length) .SOUP_TRANSFER_CONTINUE :: chs ++
          [.read_done_cb (if true then [] else chunkedData chunks)] ∧ OpenChunks chs ∧
        if true then (chunkPayloads chs).flatten = chunkedData chunks
        else ∀ buf ∈ chunkPayloads chs, buf <+: chunkedData chunks) ∨
    (res.1 = .aborted ∧ okBytes res.2.2 ≠ [] ∧ okBytes res.2.2 <:+ bytesOf "\r\n" ∧
      ∃ done rest chs, chunks = done ++ rest ∧
        res.2.1.calls = .headers_done_cb (strncpy H H.length) .SOUP_TRANSFER_CONTINUE :: chs ∧ OpenChunks chs ∧
        if true then (chunkPayloads chs).flatten = chunkedData done
        else ∀ buf ∈ chunkPayloads chs, buf <+: chunkedData done) :=
  ⟨by decide, by decide, by decide, by decide, by simp, by decide,
    readerRun_chunked_any_split (by decide) (by decide) (show (SizeLine.mk (bytesOf "0") []).Spells 0 by decide)
      (by decide) true 0 [] (by simp) (by decide)⟩

/-- The body of `readerRun_chunked_body_two` in five reads cut inside an
    extension, chunk data, the CRLF after it and a size line, with reads that
    would block in between. -/
theorem readerRun_chunked_split_hello :
    let H := bytesOf "H\r\n\r\n"
    let chunks : List Chunk := [⟨⟨bytesOf "5", bytesOf ";e"⟩, bytesOf "hello"⟩,
      ⟨⟨bytesOf "02", []⟩, bytesOf "hi"⟩]
    let last : SizeLine := ⟨bytesOf "0", []⟩
    let reads : List ReadResult := [.ok (bytesOf "H\r\n\r\n5;"), .again, .ok (bytesOf "e\r\nhel"),
      .ok (bytesOf "lo\r"), .ok (bytesOf "\n0"), .again, .ok (bytesOf "2\r\nhi\r\n0\r\n\r\n")]
    HeaderEnd (H ++ chunkedBody chunks last) H.length ∧ (∀ c ∈ chunks, c.WellFormed) ∧ last.Spells 0 ∧
    SplitOf (H ++ chunkedBody chunks last) reads ∧ CutsGood reads ∧
    (∀ c ∈ ([] : List SoupTransferDone), c = .SOUP_TRANSFER_CONTINUE) ∧ reads.length ≤ 7 ∧
    let res := readerRun (.running (soup_transfer_read false true true true true))
      ⟨[⟨.SOUP_TRANSFER_CONTINUE, .SOUP_TRANSFER_CHUNKED, 0⟩], [], []⟩ reads (List.replicate 7 .G_IO_IN)
    res.1 = .freed false ∧ okBytes res.2.2 = [] ∧
      ∃ chs, res.2.1.calls = .headers_done_cb (strncpy H H.length) .SOUP_TRANSFER_CONTINUE :: chs ++
          [.read_done_cb (if false then [] else chunkedData chunks)] ∧ OpenChunks chs ∧
        if false then (chunkPayloads chs).flatten = chunkedData chunks
        else ∀ buf ∈ chunkPayloads chs, buf <+: chunkedData chunks :=
  ⟨by decide, by decide, by decide, by decide, by decide, by simp, by decide,
    readerRun_chunked_split (by decide) (by decide) (show (SizeLine.mk (bytesOf "0") []).Spells 0 by decide)
      (by decide) (by decide) false 0 [] (by simp) (by decide)⟩

end libsoup.transfer
