import Libsoup.Reader.ContentLength

namespace libsoup.transfer

section Unknown

variable (H B : List UInt8) (overwrite_chunks : Bool) (start : ReadEnv)

/-- A reader with every callback set, past the header block `H`, whose
    headers left the encoding unknown, on a body `B` that only the end of the
    stream ends: `d` body bytes received, `e` of them (none unless overwriting)
    handed over and dropped, and the rest in the buffer. -/
structure UnknownBody (r : SoupReader) (env : ReadEnv) (reads : List ReadResult) (d e : Nat) : Prop where
  received : d ≤ B.length
  rest : okBytes reads = B.drop d
  handed : e ≤ d
  kept : overwrite_chunks = false → e = 0
  header_len : r.header_len = H.length
  encoding : r.encoding = .SOUP_TRANSFER_UNKNOWN
  overwrite : r.overwrite_chunks = overwrite_chunks
  callbacks : AllSet r
  recv_buf : r.recv_buf = (B.drop e).take (d - e)
  replies : ∀ c ∈ env.chunkReplies, c = .SOUP_TRANSFER_CONTINUE
  calls : BodyChunksCL H B overwrite_chunks env.calls e

/-- The reader on the stream `H ++ B`, started in `start`: before the header
    boundary only bytes have been buffered; after it, `UnknownBody`, and between
    batches, in overwrite mode, every byte received has been handed over. -/
def UnknownMid (r : SoupReader) (env : ReadEnv) (total_read : Nat) (reads : List ReadResult) : Prop :=
  (∃ buf, env = start ∧ r = { soup_transfer_read overwrite_chunks true true true true with recv_buf := buf } ∧
    buf ++ okBytes reads = H ++ B ∧ (total_read = 0 → buf.length < H.length)) ∨
  ∃ d e, UnknownBody H B overwrite_chunks r env reads d e ∧
    (total_read = 0 → overwrite_chunks = true → e = d)

variable {H B overwrite_chunks start}

/-- `PROCESS_READ` on a batch of some bytes past the header block keeps the
    invariant: `read_unknown` hands the buffer to `read_chunk_cb`, drops it in
    overwrite mode, and never ends the body. -/
theorem unknown_process_body {r : SoupReader} {env : ReadEnv} {reads : List ReadResult}
    {total_read : Nat} (htotal : total_read ≠ 0) {d e : Nat}
    (hbody : UnknownBody H B overwrite_chunks r env reads d e) :
    ProcessStep.holds (fun st env => StatusInv (UnknownMid H B overwrite_chunks start)
      (fun _ _ _ => False) st env reads) (process_body r env total_read) := by
  have hbuf_len : r.recv_buf.length = d - e := by
    rw [hbody.recv_buf, List.length_take, List.length_drop]
    have := hbody.received
    omega
  by_cases hempty : r.recv_buf = []
  · -- nothing new in the buffer: everything received was handed over
    have hde : d = e := by
      have hzero : d - e = 0 := by rw [← hbuf_len, hempty]; rfl
      have := hbody.handed
      omega
    rw [process_body_of_read_body (by rw [read_body_unknown hbody.encoding env htotal,
      read_unknown_empty hempty])]
    exact .inr ⟨d, e, hbody, fun _ _ => hde.symm⟩
  have hreply := ReadEnv.nextChunkReply_continue hbody.replies
  rw [process_body_of_read_body (by rw [read_body_unknown hbody.encoding env htotal,
    read_unknown_continue hbody.callbacks.2.1 hempty hreply.1])]
  cases overwrite_chunks
  · -- the buffer stays and grows; the chunk callback sees all of it
    refine .inr ⟨d, e, ?_, fun _ h => absurd h (by simp)⟩
    simp only [hbody.overwrite, Bool.false_eq_true, if_false]
    exact
      { hbody with
        overwrite := rfl
        replies := by simpa using hreply.2
        calls := by
          rw [ReadEnv.call_calls, ReadEnv.nextChunkReply_calls]
          refine hbody.calls.chunk_keep ?_
          rw [hbody.recv_buf, hbody.kept rfl]
          exact List.take_prefix _ _ }
  · -- the buffer is handed over and dropped
    refine .inr ⟨d, d, ?_, fun _ _ => rfl⟩
    simp only [hbody.overwrite, if_true]
    exact
      { hbody with
        overwrite := rfl
        handed := le_rfl
        kept := by simp
        recv_buf := by simp
        replies := by simpa using hreply.2
        calls := by
          rw [ReadEnv.call_calls, ReadEnv.nextChunkReply_calls, hbody.recv_buf]
          exact hbody.calls.chunk_overwrite hbody.handed }

/-- The reader started by `soup_transfer_read` on the stream `H ++ B`, whose
    first headers reply leaves the encoding unknown and whose chunk callbacks all
    return `SOUP_TRANSFER_CONTINUE`, keeps the invariant at every step and is
    never done while the stream goes on. -/
theorem unknown_steps (hk : HeaderEnd (H ++ B) H.length) (content_length : UInt32)
    (hreply : start.nextHeadersReply.1 =
      ⟨.SOUP_TRANSFER_CONTINUE, .SOUP_TRANSFER_UNKNOWN, content_length⟩)
    (h₀ : start.calls = []) (hchunk : ∀ c ∈ start.chunkReplies, c = .SOUP_TRANSFER_CONTINUE) :
    SplitSteps (UnknownMid H B overwrite_chunks start) (fun _ _ _ => False) where
  append r env total b bytes reads h := by
    rcases h with ⟨buf, henv, rfl, hbuf, -⟩ | ⟨d, e, hbody, -⟩
    · exact .inl ⟨buf ++ b :: bytes, henv, rfl, by simpa using hbuf, by simp⟩
    · have hrest : (b :: bytes) ++ okBytes reads = (B.take B.length).drop d := by
        rw [List.take_length, ← hbody.rest]
        rfl
      obtain ⟨hp, hrest', hbuf⟩ := body_append hbody.handed hbody.received hrest
      refine .inr ⟨d + (b :: bytes).length, e,
        { hbody with
          received := hp
          rest := by rw [hrest', List.take_length]
          handed := by have := hbody.handed; omega
          recv_buf := by simp only [hbody.recv_buf]; exact hbuf }, by simp⟩
  skip _ _ _ _ h := by
    rcases h with h | ⟨d, e, hbody, hb⟩
    · exact .inl h
    · exact .inr ⟨d, e, { hbody with rest := hbody.rest }, hb⟩
  process r env total reads htotal h := by
    rcases h with ⟨buf, rfl, rfl, hbuf, -⟩ | ⟨d, e, hbody, -⟩
    · rcases process_read_start hk (r := { soup_transfer_read overwrite_chunks true true true true with
          recv_buf := buf }) rfl rfl hbuf (by rw [hreply]) total with ⟨hlt, hwait⟩ | ⟨hle, hrest, hproc⟩
      · rw [hwait]
        exact .inl ⟨buf, rfl, rfl, hbuf, fun _ => hlt⟩
      · dsimp only at hle hrest hproc
        have hS := congrArg List.length hbuf
        simp only [List.length_append] at hS
        rw [hproc, hreply]
        exact unknown_process_body htotal
          { received := by omega
            rest := hrest
            handed := Nat.zero_le _
            kept := fun _ => rfl
            header_len := rfl
            encoding := rfl
            overwrite := rfl
            callbacks := ⟨rfl, rfl, rfl, rfl⟩
            recv_buf := by simp
            replies := by simpa using hchunk
            calls := ⟨[], by simp [h₀], fun _ h => absurd h (List.not_mem_nil _),
              by cases overwrite_chunks <;> simp⟩ }
    · unfold process_read
      rw [if_neg (by rw [hbody.header_len]; have := hk.1; omega)]
      exact unknown_process_body htotal hbody

/-- What the invariant says of the reader once it has read the whole stream:
    it is still watched, past the header block, with the whole body in its buffer
    (nothing in overwrite mode), after `headers_done_cb` and chunk callbacks whose
    buffers make up the body in overwrite mode and are prefixes of it otherwise. -/
theorem unknown_result {r : SoupReader} {env : ReadEnv}
    (h : UnknownMid H B overwrite_chunks start r env 0 []) :
    r.header_len = H.length ∧ r.encoding = .SOUP_TRANSFER_UNKNOWN ∧ AllSet r ∧
      r.recv_buf = (if overwrite_chunks then [] else B) ∧
      ∃ chunks, env.calls = .headers_done_cb (strncpy H H.length) .SOUP_TRANSFER_CONTINUE :: chunks ∧
        OpenChunks chunks ∧
        if overwrite_chunks then (chunkPayloads chunks).flatten = B
        else ∀ buf ∈ chunkPayloads chunks, buf <+: B := by
  rcases h with ⟨buf, -, -, hbuf, hlt⟩ | ⟨d, e, hbody, hover⟩
  · have hS := congrArg List.length hbuf
    have := hlt rfl
    simp only [okBytes_nil, List.append_nil, List.length_append] at hS
    omega
  · have hdB : d = B.length := by
      have hlen := congrArg List.length hbody.rest
      simp only [okBytes_nil, List.length_nil, List.length_drop] at hlen
      have := hbody.received
      omega
    obtain ⟨chunks, hcalls, hopen, hpayloads⟩ := hbody.calls
    refine ⟨hbody.header_len, hbody.encoding, hbody.callbacks, ?_, chunks, hcalls, hopen, ?_⟩
    · rw [hbody.recv_buf]
      cases overwrite_chunks
      · simp [hbody.kept rfl, hdB]
      · simp [hover rfl rfl, hdB]
    · cases overwrite_chunks
      · exact hpayloads
      · simpa [hover rfl rfl, hdB] using hpayloads

end Unknown

/-- A run of at least as many readable events as reads over the stream
    `H ++ B` cut in any way, whose headers leave the encoding unknown: the reader
    has read everything and is still watched, past the header block with the
    whole body in its buffer (nothing in overwrite mode), after `headers_done_cb`
    and chunk callbacks whose buffers make up the body in overwrite mode and are
    prefixes of it otherwise. -/
theorem unknown_run {H B : List UInt8} (hk : HeaderEnd (H ++ B) H.length)
    {reads : List ReadResult} (hsplit : SplitOf (H ++ B) reads) (content_length : UInt32)
    (overwrite_chunks : Bool) (more : List HeadersReply) {chunkReplies : List SoupTransferDone}
    (hcont : ∀ c ∈ chunkReplies, c = .SOUP_TRANSFER_CONTINUE) {n : Nat} (hn : reads.length ≤ n) :
    let res := readerRun (.running (soup_transfer_read overwrite_chunks true true true true))
      ⟨⟨.SOUP_TRANSFER_CONTINUE, .SOUP_TRANSFER_UNKNOWN, content_length⟩ :: more, chunkReplies, []⟩
      reads (List.replicate n .G_IO_IN)
    ∃ r, res.1 = .running r ∧ res.2.2 = [] ∧ r.header_len = H.length ∧
      r.encoding = .SOUP_TRANSFER_UNKNOWN ∧ AllSet r ∧ r.recv_buf = (if overwrite_chunks then [] else B) ∧
      ∃ chunks, res.2.1.calls = .headers_done_cb (strncpy H H.length) .SOUP_TRANSFER_CONTINUE :: chunks ∧
        OpenChunks chunks ∧
        if overwrite_chunks then (chunkPayloads chunks).flatten = B
        else ∀ buf ∈ chunkPayloads chunks, buf <+: B := by
  intro res
  have hinv : StatusInv (UnknownMid H B overwrite_chunks
      ⟨⟨.SOUP_TRANSFER_CONTINUE, .SOUP_TRANSFER_UNKNOWN, content_length⟩ :: more, chunkReplies, []⟩)
      (fun _ _ _ => False) res.1 res.2.1 res.2.2 := by
    refine (readerRun_split (unknown_steps hk content_length ?_ ?_ hcont) n _ _ reads hsplit.1 ?_).2
    · rfl
    · rfl
    · exact .inl ⟨[], rfl, rfl, by simpa using hsplit.2, fun _ => by have := hk.1; simp; omega⟩
  -- the reader is never done while the stream goes on, so it is still watched
  obtain ⟨r, hst⟩ : ∃ r, res.1 = .running r := by
    rcases hres : res.1 with r | _ | _
    · exact ⟨r, rfl⟩
    all_goals rw [hres] at hinv; exact hinv.elim
  have hrest : res.2.2 = [] := by
    have hleft : res.2.2.length ≤ reads.length - n := readerRun_replicate_length n _ _ reads ⟨r, hst⟩
    exact List.eq_nil_of_length_eq_zero (by omega)
  rw [hst, hrest] at hinv
  exact ⟨r, hst, hrest, unknown_result hinv⟩

/-- A transfer whose headers leave the encoding unknown: for a header block
    `H` (its first CRLF CRLF at its end) and a body `B`, the stream `H ++ B` cut
    into reads in any way, chunk callbacks that go on, and at least as many
    readable events as reads, the reader reads everything and is still watched,
    having called `headers_done_cb` and then chunk callbacks whose buffers make up
    the body in overwrite mode and are prefixes of it otherwise. The end of the
    stream then ends the body: a zero-byte read, a failed read or a hangup makes
    it call `read_done_cb` with the body (nothing in overwrite mode) and free
    itself, never `error_cb`. -/
theorem readerRun_unknown_body {H B : List UInt8} (hk : HeaderEnd (H ++ B) H.length)
    {reads : List ReadResult} (hsplit : SplitOf (H ++ B) reads) (content_length : UInt32)
    (overwrite_chunks : Bool) (more : List HeadersReply) {chunkReplies : List SoupTransferDone}
    (hcont : ∀ c ∈ chunkReplies, c = .SOUP_TRANSFER_CONTINUE) {n : Nat} (hn : reads.length ≤ n) :
    let res := readerRun (.running (soup_transfer_read overwrite_chunks true true true true))
      ⟨⟨.SOUP_TRANSFER_CONTINUE, .SOUP_TRANSFER_UNKNOWN, content_length⟩ :: more, chunkReplies, []⟩
      reads (List.replicate n .G_IO_IN)
    let body := if overwrite_chunks then [] else B
    ∃ r, res.1 = .running r ∧ res.2.2 = [] ∧
      (∃ chunks, res.2.1.calls = .headers_done_cb (strncpy H H.length) .SOUP_TRANSFER_CONTINUE :: chunks ∧
        OpenChunks chunks ∧
        if overwrite_chunks then (chunkPayloads chunks).flatten = B
        else ∀ buf ∈ chunkPayloads chunks, buf <+: B) ∧
      soup_transfer_read_cb r res.2.1 [.ok []] = (.freed false, res.2.1.call (.read_done_cb body), []) ∧
      soup_transfer_read_cb r res.2.1 [.error] = (.freed false, res.2.1.call (.read_done_cb body), []) ∧
      soup_transfer_read_error_cb r res.2.1 = (.freed false, res.2.1.call (.read_done_cb body)) := by
  intro res body
  obtain ⟨r, hst, hrest, hheader, henc, hset, hbuf, hcalls⟩ :=
    unknown_run hk hsplit content_length overwrite_chunks more hcont hn
  have hfinal := issue_final_callback_cancel hset.2.2.1 res.2.1
  rw [hbuf] at hfinal
  refine ⟨r, hst, hrest, hcalls, ?_, ?_, ?_⟩
  · rw [soup_transfer_read_cb_zero_read (by rw [hheader]; have := hk.1; omega), hfinal.1, hfinal.2]
  · rw [soup_transfer_read_cb_error, soup_transfer_read_error_cb_unknown henc, hfinal.1, hfinal.2]
  · rw [soup_transfer_read_error_cb_unknown henc, hfinal.1, hfinal.2]

/-- The header block `H\r\n\r\n` and the body "abc" read in two pieces,
    keeping the buffer. -/
theorem readerRun_unknown_body_abc :
    let H := bytesOf "H\r\n\r\n"
    let B := bytesOf "abc"
    let reads : List ReadResult := [.ok (bytesOf "H\r\n\r\na"), .again, .ok (bytesOf "bc")]
    HeaderEnd (H ++ B) H.length ∧ SplitOf (H ++ B) reads ∧
    (∀ c ∈ ([] : List SoupTransferDone), c = .SOUP_TRANSFER_CONTINUE) ∧ reads.length ≤ 3 ∧
    let res := readerRun (.running (soup_transfer_read false true true true true))
      ⟨[⟨.SOUP_TRANSFER_CONTINUE, .SOUP_TRANSFER_UNKNOWN, 0⟩], [], []⟩ reads (List.replicate 3 .G_IO_IN)
    let body := if false then [] else B
    ∃ r, res.1 = .running r ∧ res.2.2 = [] ∧
      (∃ chunks, res.2.1.calls = .headers_done_cb (strncpy H H.length) .SOUP_TRANSFER_CONTINUE :: chunks ∧
        OpenChunks chunks ∧
        if false then (chunkPayloads chunks).flatten = B
        else ∀ buf ∈ chunkPayloads chunks, buf <+: B) ∧
      soup_transfer_read_cb r res.2.1 [.ok []] = (.freed false, res.2.1.call (.read_done_cb body), []) ∧
      soup_transfer_read_cb r res.2.1 [.error] = (.freed false, res.2.1.call (.read_done_cb body), []) ∧
      soup_transfer_read_error_cb r res.2.1 = (.freed false, res.2.1.call (.read_done_cb body)) :=
  ⟨by decide, by decide, by simp, by decide,
    readerRun_unknown_body (by decide) (by decide) 0 false [] (by simp) (by decide)⟩

end libsoup.transfer
