import Libsoup.Transfer.Read

open libsoup.misc

namespace libsoup.transfer

/-- The first CRLF CRLF of `buf` ends at `index`. -/
def HeaderEnd (buf : List UInt8) (index : Nat) : Prop :=
  4 ≤ index ∧ bytesOf "\r\n\r\n" <+: buf.drop (index - 4) ∧
    ∀ u < index - 4, ¬ bytesOf "\r\n\r\n" <+: buf.drop u

instance (buf : List UInt8) (index : Nat) : Decidable (HeaderEnd buf index) :=
  inferInstanceAs (Decidable (4 ≤ index ∧ bytesOf "\r\n\r\n" <+: buf.drop (index - 4) ∧
    ∀ u < index - 4, ¬ bytesOf "\r\n\r\n" <+: buf.drop u))

theorem crlf_crlf_not_prefix_of_short {buf : List UInt8} {t : Nat} (ht : buf.length < t + 4) :
    ¬ bytesOf "\r\n\r\n" <+: buf.drop t := fun h => by
  have := h.length_le
  simp at this
  omega

theorem HeaderEnd.unique {buf : List UInt8} {i j : Nat} (hi : HeaderEnd buf i) (hj : HeaderEnd buf j) :
    i = j := by
  obtain ⟨hi4, hiocc, hifirst⟩ := hi
  obtain ⟨hj4, hjocc, hjfirst⟩ := hj
  by_contra hne
  rcases Nat.lt_or_gt_of_ne hne with h | h
  · exact hjfirst (i - 4) (by omega) hiocc
  · exact hifirst (j - 4) (by omega) hjocc

private theorem prefix_of_drop_take {S x : List UInt8} {m t : Nat} (h : x <+: (S.take m).drop t) :
    x <+: S.drop t := by
  rw [List.drop_take] at h
  exact h.trans (List.take_prefix _ _)

/-- Once the first `m ≥ k` bytes of a stream whose first CRLF CRLF ends at `k`
    have arrived, the buffer's first CRLF CRLF ends at `k` as well. -/
theorem HeaderEnd.take {S : List UInt8} {k m : Nat} (h : HeaderEnd S k) (hkm : k ≤ m) :
    HeaderEnd (S.take m) k := by
  obtain ⟨h4, hocc, hfirst⟩ := h
  refine ⟨h4, ?_, fun u hu hpre => hfirst u hu (prefix_of_drop_take hpre)⟩
  rw [List.drop_take]
  exact List.prefix_take_iff.mpr ⟨hocc, by simp; omega⟩

/-- Bytes after a header block leave its end where it is. -/
theorem HeaderEnd.append {S : List UInt8} {k : Nat} (h : HeaderEnd S k) (T : List UInt8) :
    HeaderEnd (S ++ T) k := by
  obtain ⟨h4, hocc, hfirst⟩ := h
  have hkS : k ≤ S.length := by have := hocc.length_le; simp at this; omega
  refine ⟨h4, ?_, fun u hu hpre => hfirst u hu ?_⟩
  · rw [List.drop_append_of_le_length (by omega)]
    exact hocc.trans (List.prefix_append _ _)
  · rw [List.drop_append_of_le_length (by omega)] at hpre
    exact List.prefix_of_prefix_length_le hpre (List.prefix_append _ _) (by simp; omega)

/-- Before byte `k` has arrived, the buffer holds no CRLF CRLF. -/
theorem HeaderEnd.not_take {S : List UInt8} {k m : Nat} (h : HeaderEnd S k) (hmk : m < k) (t : Nat) :
    ¬ bytesOf "\r\n\r\n" <+: (S.take m).drop t := fun hpre => by
  by_cases ht : t < k - 4
  · exact h.2.2 t ht (prefix_of_drop_take hpre)
  · exact crlf_crlf_not_prefix_of_short (by simp; omega) hpre

/-- `issue_final_callback` hands `read_done_cb`, when set, the buffer as it
    was before the NUL was appended. -/
theorem issue_final_callback_eq (r : SoupReader) (env : ReadEnv) :
    issue_final_callback r env =
      ({ r with recv_buf := r.recv_buf ++ [0], callback_issued := r.callback_issued || r.read_done_cb },
        if r.read_done_cb then env.call (.read_done_cb r.recv_buf) else env) := by
  unfold issue_final_callback
  cases r.read_done_cb <;> simp

theorem issue_chunk_callback_eq {r : SoupReader} (hcb : r.read_chunk_cb) {len : Nat} (hlen : len ≠ 0)
    (env : ReadEnv) (data : List UInt8) (cancelled : Bool) :
    issue_chunk_callback r env data len cancelled =
      ({ r with callback_issued := true },
        env.nextChunkReply.2.call (.read_chunk_cb (data.take len) env.nextChunkReply.1),
        decide (env.nextChunkReply.1 = .SOUP_TRANSFER_END)) := by
  simp [issue_chunk_callback, hcb, hlen]

theorem read_content_length_empty {r : SoupReader} (hbuf : r.recv_buf = []) (env : ReadEnv)
    (cancelled : Bool) :
    read_content_length r env cancelled =
      (.ok r (r.content_length = UInt32.ofNat 0) cancelled, env) := by
  simp [read_content_length, hbuf]

/-- `read_content_length` on a non-empty buffer whose chunk callback lets the
    transfer go on: the buffer goes to `read_chunk_cb`; in overwrite mode it is
    dropped and `content_length` counts it off. -/
theorem read_content_length_continue {r : SoupReader} {env : ReadEnv} (hcb : r.read_chunk_cb)
    (hne : r.recv_buf ≠ []) (hcont : env.nextChunkReply.1 = .SOUP_TRANSFER_CONTINUE) :
    read_content_length r env false =
      let env' := env.nextChunkReply.2.call (.read_chunk_cb r.recv_buf .SOUP_TRANSFER_CONTINUE)
      if r.overwrite_chunks then
        (.ok { r with
            callback_issued := true
            content_length := r.content_length - UInt32.ofNat r.recv_buf.length
            recv_buf := [] }
          (r.content_length - UInt32.ofNat r.recv_buf.length = UInt32.ofNat 0) false, env')
      else
        (.ok { r with callback_issued := true }
          (r.content_length = UInt32.ofNat r.recv_buf.length) false, env') := by
  have hlen : r.recv_buf.length ≠ 0 := by simpa using hne
  unfold read_content_length
  rw [if_neg hlen, issue_chunk_callback_eq hcb hlen]
  simp only [hcont, List.take_length]
  split_ifs <;> simp_all

theorem read_unknown_empty {r : SoupReader} (hbuf : r.recv_buf = []) (env : ReadEnv) (cancelled : Bool) :
    read_unknown r env cancelled = (.ok r false cancelled, env) := by
  simp [read_unknown, hbuf]

/-- `read_unknown` on a non-empty buffer whose chunk callback lets the
    transfer go on: the buffer goes to `read_chunk_cb`, and in overwrite mode it
    is dropped. -/
theorem read_unknown_continue {r : SoupReader} {env : ReadEnv} (hcb : r.read_chunk_cb)
    (hne : r.recv_buf ≠ []) (hcont : env.nextChunkReply.1 = .SOUP_TRANSFER_CONTINUE) :
    read_unknown r env false =
      (.ok (if r.overwrite_chunks then { r with callback_issued := true, recv_buf := [] }
          else { r with callback_issued := true }) false false,
        env.nextChunkReply.2.call (.read_chunk_cb r.recv_buf .SOUP_TRANSFER_CONTINUE)) := by
  have hlen : r.recv_buf.length ≠ 0 := by simpa using hne
  unfold read_unknown
  rw [if_neg hlen, issue_chunk_callback_eq hcb hlen]
  simp only [hcont, List.take_length]
  split_ifs <;> simp_all

theorem read_body_unknown {r : SoupReader} (henc : r.encoding = .SOUP_TRANSFER_UNKNOWN)
    (env : ReadEnv) {total_read : Nat} (htotal : total_read ≠ 0) :
    read_body r env total_read = read_unknown r env false := by
  simp [read_body, henc, htotal]

theorem read_body_content_length {r : SoupReader} (henc : r.encoding = .SOUP_TRANSFER_CONTENT_LENGTH)
    (env : ReadEnv) {total_read : Nat} (htotal : total_read ≠ 0) :
    read_body r env total_read = read_content_length r env false := by
  simp [read_body, henc, htotal]

theorem read_body_chunked {r : SoupReader} (henc : r.encoding = .SOUP_TRANSFER_CHUNKED)
    (env : ReadEnv) {total_read : Nat} (htotal : total_read ≠ 0) :
    read_body r env total_read = read_chunk r env false := by
  simp [read_body, henc, htotal]

/-- `process_body` after a body step that did not cancel: `goto READ_AGAIN`,
    or the final callback. -/
theorem process_body_of_read_body {r r' : SoupReader} {env env' : ReadEnv} {total_read : Nat}
    {read_done : Bool} (h : read_body r env total_read = (.ok r' read_done false, env')) :
    process_body r env total_read =
      if read_done then
        (.ret (soup_transfer_read_cancel (issue_final_callback r' env').1), (issue_final_callback r' env').2)
      else (.read_again r', env') := by
  cases read_done <;> simp [process_body, h]

/-- A zero-byte read that starts a batch after the header block ends the
    body: `issue_final_callback`, then the reader is freed. -/
theorem soup_transfer_read_cb_zero_read {r : SoupReader} (hlen : r.header_len ≠ 0) (env : ReadEnv) :
    soup_transfer_read_cb r env [.ok []] =
      (soup_transfer_read_cancel (issue_final_callback r env).1, (issue_final_callback r env).2, []) := by
  have hbody : read_body r env 0 = (.ok r true false, env) := by simp [read_body]
  simp [soup_transfer_read_cb, read_again, process_read, hlen, process_body_of_read_body hbody,
    after_process]

/-- A read that fails at the start of a batch runs the hangup handler. -/
theorem soup_transfer_read_cb_error (r : SoupReader) (env : ReadEnv) (reads : List ReadResult) :
    soup_transfer_read_cb r env (.error :: reads) =
      ((soup_transfer_read_error_cb r env).1, (soup_transfer_read_error_cb r env).2, reads) :=
  rfl

/-- The hangup handler once the headers have selected a framed encoding: the
    reader is freed after `error_cb`, told whether the buffer holds more bytes than
    the header block had. -/
theorem soup_transfer_read_error_cb_framed {r : SoupReader} (henc : r.encoding ≠ .SOUP_TRANSFER_UNKNOWN)
    (env : ReadEnv) :
    soup_transfer_read_error_cb r env =
      (soup_transfer_read_cancel r,
        if r.error_cb then env.call (.error_cb (decide (r.recv_buf.length > r.header_len))) else env) := by
  simp [soup_transfer_read_error_cb, henc]

/-- The hangup handler once the headers have left the encoding unknown: the
    end of the stream ends the body, as a zero-byte read does. -/
theorem soup_transfer_read_error_cb_unknown {r : SoupReader} (henc : r.encoding = .SOUP_TRANSFER_UNKNOWN)
    (env : ReadEnv) :
    soup_transfer_read_error_cb r env =
      (soup_transfer_read_cancel (issue_final_callback r env).1, (issue_final_callback r env).2) := by
  simp [soup_transfer_read_error_cb, henc]

/-- The final callback of a reader with `read_done_cb` set, and the reader
    freed after it, without its buffer. -/
theorem issue_final_callback_cancel {r : SoupReader} (hdone : r.read_done_cb) (env : ReadEnv) :
    soup_transfer_read_cancel (issue_final_callback r env).1 = .freed false ∧
      (issue_final_callback r env).2 = env.call (.read_done_cb r.recv_buf) := by
  simp [issue_final_callback_eq, soup_transfer_read_cancel, hdone]

/-- The end of the stream, seen by a watched reader past its header block as a
    read of no bytes at the start of a batch: it hands its buffer to
    `read_done_cb` and is freed. -/
theorem readerRun_zero_read {r : SoupReader} (hlen : r.header_len ≠ 0) (hdone : r.read_done_cb)
    (env : ReadEnv) :
    readerRun (.running r) env [.ok []] [.G_IO_IN] = (.freed false, env.call (.read_done_cb r.recv_buf), []) := by
  obtain ⟨hfreed, hcall⟩ := issue_final_callback_cancel hdone env
  simp only [readerRun, soup_transfer_read_cb_zero_read hlen, hfreed, hcall, readerRun_freed]

/-- The header scan waits while the buffer holds no CRLF CRLF, and otherwise
    accepts the block up to just past the first one. -/
theorem scan_headers_cases (r : SoupReader) (env : ReadEnv) :
    (scan_headers r env = (.wait, env) ∧ ∀ t, ¬ bytesOf "\r\n\r\n" <+: r.recv_buf.drop t) ∨
    ∃ index, HeaderEnd r.recv_buf index ∧ index ≤ r.recv_buf.length ∧
      scan_headers r env = accept_headers r env index := by
  rcases @soup_substring_index_cases (r.recv_buf.length : Int) (bytesOf "\r\n\r\n") (by simp)
    r.recv_buf with
    ⟨hfound, hnone⟩ | ⟨t, hfound, hbound, hocc, hfirst⟩
  · refine .inl ⟨by simp only [scan_headers, hfound]; rfl, fun t h => ?_⟩
    by_cases ht : (t : Int) ≤ r.recv_buf.length - (bytesOf "\r\n\r\n").length
    · exact hnone t ht h
    · exact crlf_crlf_not_prefix_of_short (by simp at ht; omega) h
  · have hle : t + 4 ≤ r.recv_buf.length := by simp at hbound; omega
    refine .inr ⟨t + 4, ⟨by omega, by simpa using hocc, by simpa using hfirst⟩, hle, ?_⟩
    simp only [scan_headers, hfound]
    rw [if_neg (by omega)]
    rfl

/-- Accepting a header block that lies within the buffer: the compaction
    cannot fail. -/
theorem accept_headers_eq (r : SoupReader) (env : ReadEnv) {index : Nat} (h0 : index ≠ 0)
    (hle : index ≤ r.recv_buf.length) :
    accept_headers r env index =
      if r.headers_done_cb then
        if env.nextHeadersReply.1.ret = .SOUP_TRANSFER_END then
          (.stop (.freed !r.callback_issued), env.nextHeadersReply.2.call
            (.headers_done_cb (strncpy r.recv_buf index) env.nextHeadersReply.1.ret))
        else
          (.body { r with
              recv_buf := r.recv_buf.drop index
              header_len := index
              encoding := env.nextHeadersReply.1.encoding
              content_length := env.nextHeadersReply.1.content_length },
            env.nextHeadersReply.2.call
              (.headers_done_cb (strncpy r.recv_buf index) env.nextHeadersReply.1.ret))
      else (.body { r with recv_buf := r.recv_buf.drop index, header_len := index }, env) := by
  have hremove : remove_block_at_index r.recv_buf 0 index = some (r.recv_buf.drop index) := by
    simpa using @remove_block_at_index_of_le r.recv_buf 0 index h0 (by simpa using hle)
  unfold accept_headers
  split_ifs <;> simp [*, soup_transfer_read_cancel]

/-- `PROCESS_READ` before the header boundary: the handler returns and waits. -/
theorem process_read_wait {r : SoupReader} (hlen : r.header_len = 0)
    (hnone : ∀ t, ¬ bytesOf "\r\n\r\n" <+: r.recv_buf.drop t) (env : ReadEnv) (total_read : Nat) :
    process_read r env total_read = (.ret (.running r), env) := by
  rcases scan_headers_cases r env with ⟨hscan, -⟩ | ⟨index, hindex, -, -⟩
  · unfold process_read
    rw [if_pos hlen, hscan]
  · exact absurd hindex.2.1 (hnone _)

/-- `PROCESS_READ` once the buffer holds the first `m` bytes of a stream whose
    first CRLF CRLF ends at `k ≤ m`: `headers_done_cb` gets the header block, and
    unless it ends the transfer the body step runs on the bytes after it. -/
theorem process_read_header {S : List UInt8} {k m : Nat} (hk : HeaderEnd S k) (hkm : k ≤ m)
    {r : SoupReader} (hlen : r.header_len = 0) (hcb : r.headers_done_cb)
    (hbuf : r.recv_buf = S.take m) (env : ReadEnv) (total_read : Nat) :
    process_read r env total_read =
      let reply := env.nextHeadersReply.1
      let env' := env.nextHeadersReply.2.call (.headers_done_cb (strncpy S k) reply.ret)
      if reply.ret = .SOUP_TRANSFER_END then (.ret (.freed !r.callback_issued), env')
      else process_body { r with
          recv_buf := (S.drop k).take (m - k)
          header_len := k
          encoding := reply.encoding
          content_length := reply.content_length } env' total_read := by
  have hend : HeaderEnd r.recv_buf k := hbuf ▸ hk.take hkm
  rcases scan_headers_cases r env with ⟨-, hnone⟩ | ⟨index, hindex, hindex_le, hscan⟩
  · exact absurd hend.2.1 (hnone _)
  · obtain rfl := hindex.unique hend
    unfold process_read
    rw [if_pos hlen, hscan, accept_headers_eq r env (by have := hk.1; omega) hindex_le, if_pos hcb]
    simp only [hbuf, strncpy_take hkm, List.drop_take]
    split_ifs <;> rfl

end libsoup.transfer
