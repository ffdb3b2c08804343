import Libsoup.Reader.Chunked
import Libsoup.Reader.Headers

open libsoup.misc

namespace libsoup.transfer

/-- The first pass of `decode_chunk` breaks on a buffer that holds the start of
    a body beginning with a CRLF: too short to look at, or with its first CRLF
    at index 0. -/
theorem decode_chunk_pass_crlf (Y : List UInt8) (k datalen : Nat) (ret : Bool) :
    decode_chunk_pass ⟨0, 0⟩ ((bytesOf "\r\n" ++ Y).take k) datalen ret = .brk := by
  unfold decode_chunk_pass
  dsimp only
  by_cases h5 : ((bytesOf "\r\n" ++ Y).take k).length < 0 + 0 + 5
  · rw [if_pos h5]
  · rw [if_neg h5, if_pos]
    have hk : 2 ≤ k := by
      simp only [List.length_take, List.length_append, bytesOf_crlf, List.length_cons, List.length_nil] at h5
      omega
    have htake : (bytesOf "\r\n" ++ Y).take k = [] ++ bytesOf "\r\n" ++ Y.take (k - 2) := by
      rw [List.nil_append, List.take_append_eq_append_take,
        List.take_of_length_le (by simp only [bytesOf_crlf, List.length_cons, List.length_nil]; omega)]
      rfl
    simp only [chunk_header_end, ne_eq, not_true_eq_false, if_false]
    rw [htake, soup_substring_index_crlf (List.not_mem_nil _) _ (by simp; omega)]
    simp

/-- `decode_chunk` on such a buffer changes nothing. -/
theorem decode_chunk_crlf (Y : List UInt8) (k : Nat) :
    decode_chunk ⟨0, 0⟩ ((bytesOf "\r\n" ++ Y).take k) =
      some (⟨0, 0⟩, (bytesOf "\r\n" ++ Y).take k, 0, false) := by
  rw [decode_chunk, decode_chunk_loop, decode_chunk_pass_crlf]

/-- `read_chunk` at the start of such a body: no chunk, no callback, and the
    body not done. -/
theorem read_chunk_crlf {r : SoupReader} {Y : List UInt8} {k : Nat} (hstate : r.chunk_state = ⟨0, 0⟩)
    (hbuf : r.recv_buf = (bytesOf "\r\n" ++ Y).take k) (env : ReadEnv) :
    read_chunk r env false = (.ok r false false, env) := by
  have hdec : decode_chunk r.chunk_state r.recv_buf = some (r.chunk_state, r.recv_buf, 0, false) := by
    rw [hstate, hbuf, decode_chunk_crlf]
  unfold read_chunk
  rw [hdec]
  rfl

section Stall

variable (H Y : List UInt8) (overwrite_chunks : Bool) (start : ReadEnv)

/-- A chunked reader past the header block `H`, with every callback set, that
    has not moved from the start of the body `CRLF ++ Y`: its buffer holds the
    bytes of the body received so far, and only `headers_done_cb` was called. -/
structure StallBody (r : SoupReader) (env : ReadEnv) (reads : List ReadResult) : Prop where
  header_len : r.header_len = H.length
  encoding : r.encoding = .SOUP_TRANSFER_CHUNKED
  callbacks : AllSet r
  state : r.chunk_state = ⟨0, 0⟩
  position : ∃ k, r.recv_buf = (bytesOf "\r\n" ++ Y).take k ∧ okBytes reads = (bytesOf "\r\n" ++ Y).drop k
  calls : env.calls = [.headers_done_cb (strncpy H H.length) .SOUP_TRANSFER_CONTINUE]

/-- The reader on the stream `H ++ (CRLF ++ Y)`, started in `start`: before
    the header boundary only bytes have been buffered; after it, `StallBody`. -/
def StallMid (r : SoupReader) (env : ReadEnv) (total_read : Nat) (reads : List ReadResult) : Prop :=
  (∃ buf, env = start ∧ r = { soup_transfer_read overwrite_chunks true true true true with recv_buf := buf } ∧
    buf ++ okBytes reads = H ++ (bytesOf "\r\n" ++ Y) ∧ (total_read = 0 → buf.length < H.length)) ∨
  StallBody H Y r env reads

variable {H Y overwrite_chunks start}

/-- `PROCESS_READ` on a batch of some bytes past the header block leaves the
    reader where it was, reading on. -/
theorem stall_process_body {r : SoupReader} {env : ReadEnv} {total_read : Nat} {reads : List ReadResult}
    (htotal : total_read ≠ 0) (hbody : StallBody H Y r env reads) :
    ProcessStep.holds (fun st env => StatusInv (StallMid H Y overwrite_chunks start) (fun _ _ _ => False)
      st env reads) (process_body r env total_read) := by
  obtain ⟨k, hbuf, -⟩ := hbody.position
  rw [process_body_of_read_body
    ((read_body_chunked hbody.encoding env htotal).trans (read_chunk_crlf hbody.state hbuf env))]
  exact .inr hbody

/-- The reader started by `soup_transfer_read` on the stream
    `H ++ (CRLF ++ Y)`, whose first headers reply selects the chunked encoding,
    keeps the invariant at every step and is never done. -/
theorem stall_steps (hk : HeaderEnd (H ++ (bytesOf "\r\n" ++ Y)) H.length) (content_length : UInt32)
    (hreply : start.nextHeadersReply.1 =
      ⟨.SOUP_TRANSFER_CONTINUE, .SOUP_TRANSFER_CHUNKED, content_length⟩)
    (h₀ : start.calls = []) :
    SplitSteps (StallMid H Y overwrite_chunks start) (fun _ _ _ => False) where
  append r env total b bytes reads h := by
    rcases h with ⟨buf, henv, rfl, hbuf, -⟩ | hbody
    · exact .inl ⟨buf ++ b :: bytes, henv, rfl, by simpa using hbuf, by simp⟩
    · obtain ⟨k, hbuf, hrest⟩ := hbody.position
      have hread : (b :: bytes) ++ okBytes reads = okBytes (.ok (b :: bytes) :: reads) := rfl
      obtain ⟨htake, hdrop⟩ := take_append_of_drop (hread.trans hrest)
      exact .inr { hbody with position := ⟨k + (b :: bytes).length, by rw [← htake, ← hbuf], hdrop⟩ }
  skip _ _ _ _ h := by
    rcases h with h | hbody
    · exact .inl h
    · exact .inr { hbody with position := hbody.position }
  process r env total reads htotal h := by
    rcases h with ⟨buf, rfl, rfl, hbuf, -⟩ | hbody
    · rcases process_read_start hk (r := { soup_transfer_read overwrite_chunks true true true true with
          recv_buf := buf }) rfl rfl hbuf (by rw [hreply]) total with ⟨hlt, hwait⟩ | ⟨-, hrest, hproc⟩
      · -- the header block is not in yet
        rw [hwait]
        exact .inl ⟨buf, rfl, rfl, hbuf, fun _ => hlt⟩
      · -- `headers_done_cb` selects the chunked encoding; the body starts
        dsimp only at hrest hproc
        rw [hproc, hreply]
        exact stall_process_body htotal
          { header_len := rfl
            encoding := rfl
            callbacks := ⟨rfl, rfl, rfl, rfl⟩
            state := rfl
            position := ⟨_, rfl, hrest⟩
            calls := by simp [h₀] }
    · unfold process_read
      rw [if_neg (by rw [hbody.header_len]; have := hk.1; omega)]
      exact stall_process_body htotal hbody

end Stall

/-- A run of at least as many readable events as reads over the stream
    `H ++ (CRLF ++ Y)` cut in any way, whose headers select the chunked
    encoding: the reader has read everything and is still watched, past the
    header block with the whole body in its buffer, after `headers_done_cb`
    and nothing else. -/
theorem stall_run {H Y : List UInt8} (hk : HeaderEnd (H ++ (bytesOf "\r\n" ++ Y)) H.length)
    {reads : List ReadResult} (hsplit : SplitOf (H ++ (bytesOf "\r\n" ++ Y)) reads)
    (overwrite_chunks : Bool) (content_length : UInt32) (more : List HeadersReply)
    (chunkReplies : List SoupTransferDone) {n : Nat} (hn : reads.length ≤ n) :
    let res := readerRun (.running (soup_transfer_read overwrite_chunks true true true true))
      ⟨⟨.SOUP_TRANSFER_CONTINUE, .SOUP_TRANSFER_CHUNKED, content_length⟩ :: more, chunkReplies, []⟩
      reads (List.replicate n .G_IO_IN)
    ∃ r, res.1 = .running r ∧ res.2.2 = [] ∧ r.header_len = H.length ∧ r.read_done_cb ∧
      r.recv_buf = bytesOf "\r\n" ++ Y ∧
      res.2.1.calls = [.headers_done_cb (strncpy H H.length) .SOUP_TRANSFER_CONTINUE] := by
  intro res
  have hinv : StatusInv (StallMid H Y overwrite_chunks
      ⟨⟨.SOUP_TRANSFER_CONTINUE, .SOUP_TRANSFER_CHUNKED, content_length⟩ :: more, chunkReplies, []⟩)
      (fun _ _ _ => False) res.1 res.2.1 res.2.2 := by
    refine (readerRun_split (stall_steps hk content_length ?_ ?_) n _ _ reads hsplit.1 ?_).2
    · rfl
    · rfl
    · exact .inl ⟨[], rfl, rfl, by simpa using hsplit.2, fun _ => by have := hk.1; simp; omega⟩
  -- the reader is never done, so it is still watched and has read everything
  obtain ⟨r, hst⟩ : ∃ r, res.1 = .running r := by
    rcases hres : res.1 with r | _ | _
    · exact ⟨r, rfl⟩
    all_goals rw [hres] at hinv; exact hinv.elim
  have hrest : res.2.2 = [] := by
    have hleft : res.2.2.length ≤ reads.length - n := readerRun_replicate_length n _ _ reads ⟨r, hst⟩
    exact List.eq_nil_of_length_eq_zero (by omega)
  rw [hst, hrest] at hinv
  rcases hinv with ⟨buf, -, -, hbuf, hlt⟩ | hbody
  · have hS := congrArg List.length hbuf
    have := hlt rfl
    simp only [okBytes_nil, List.append_nil, List.length_append] at hS
    omega
  · obtain ⟨k, hbuf, hdrop⟩ := hbody.position
    refine ⟨r, hst, hrest, hbody.header_len, hbody.callbacks.2.2.1, ?_, hbody.calls⟩
    rw [hbuf, List.take_of_length_le (List.drop_eq_nil_iff.mp hdrop.symm)]

end libsoup.transfer
