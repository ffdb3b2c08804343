import Libsoup.Reader.Headers

namespace libsoup.transfer

/-- The buffers handed to `read_chunk_cb`, in order. -/
def chunkPayloads : List ReadCall → List (List UInt8)
  | [] => []
  | .read_chunk_cb buf _ :: calls => buf :: chunkPayloads calls
  | _ :: calls => chunkPayloads calls

@[simp] theorem chunkPayloads_nil : chunkPayloads [] = [] := rfl

@[simp] theorem chunkPayloads_append (xs ys : List ReadCall) :
    chunkPayloads (xs ++ ys) = chunkPayloads xs ++ chunkPayloads ys := by
  induction xs with
  | nil => rfl
  | cons c xs ih => cases c <;> simp [chunkPayloads, ih]

@[simp] theorem chunkPayloads_read_chunk_cb (buf : List UInt8) (ret : SoupTransferDone) :
    chunkPayloads [.read_chunk_cb buf ret] = [buf] := rfl

@[simp] theorem chunkPayloads_headers_done_cb (str : List UInt8) (ret : SoupTransferDone)
    (calls : List ReadCall) :
    chunkPayloads (.headers_done_cb str ret :: calls) = chunkPayloads calls := rfl

/-- `guint` equality with a length below `2^32` is equality of the numbers. -/
theorem eq_ofNat_iff_toNat {c : UInt32} {x : Nat} (hx : x < 2 ^ 32) :
    c = UInt32.ofNat x ↔ c.toNat = x :=
  ⟨fun h => h ▸ UInt32.toNat_ofNat_of_lt hx,
    fun h => UInt32.toNat.inj (h.trans (UInt32.toNat_ofNat_of_lt hx).symm)⟩

/-- `guint` subtraction of at most what is there does not wrap. -/
theorem toNat_sub_ofNat {c : UInt32} {x : Nat} (hx : x ≤ c.toNat) :
    (c - UInt32.ofNat x).toNat = c.toNat - x := by
  have hlt : x < 2 ^ 32 := lt_of_le_of_lt hx c.toBitVec.isLt
  have hofNat := UInt32.toNat_ofNat_of_lt hlt
  rw [UInt32.toNat_sub_of_le _ _ (show (UInt32.ofNat x).toNat ≤ c.toNat by omega), hofNat]

section ContentLength

variable (H B : List UInt8) (m : Nat) (overwrite_chunks : Bool) (env₀ : ReadEnv)

/-- The calls of a content-length transfer of the body `B` once the header
    block `H` has been accepted: `headers_done_cb`, then chunk callbacks that
    returned `SOUP_TRANSFER_CONTINUE`; in overwrite mode their buffers are the
    first `e` body bytes in order, and otherwise each is a prefix of the body. -/
def BodyChunksCL (calls : List ReadCall) (e : Nat) : Prop :=
  ∃ chunks, calls = .headers_done_cb (strncpy H H.length) .SOUP_TRANSFER_CONTINUE :: chunks ∧
    OpenChunks chunks ∧
    if overwrite_chunks then (chunkPayloads chunks).flatten = B.take e
    else ∀ buf ∈ chunkPayloads chunks, buf <+: B

/-- A reader with every callback set, past the header block `H`, on the
    first `m` bytes of a body `B` whose length `headers_done_cb` declared: `d`
    body bytes received, `e` of them (none unless overwriting) handed over and
    dropped, the rest in the buffer, and `content_length` counting what is still
    expected. -/
structure CLBody (r : SoupReader) (env : ReadEnv) (reads : List ReadResult) (d e : Nat) : Prop where
  received : d ≤ m
  rest : okBytes reads = (B.take m).drop d
  handed : e ≤ d
  kept : overwrite_chunks = false → e = 0
  header_len : r.header_len = H.length
  encoding : r.encoding = .SOUP_TRANSFER_CONTENT_LENGTH
  overwrite : r.overwrite_chunks = overwrite_chunks
  callbacks : AllSet r
  recv_buf : r.recv_buf = (B.drop e).take (d - e)
  content_length : r.content_length.toNat + e = B.length
  replies : ∀ c ∈ env.chunkReplies, c = .SOUP_TRANSFER_CONTINUE
  calls : BodyChunksCL H B overwrite_chunks env.calls e

/-- The reader on `H` and the first `m` bytes of `B`, started in `env₀`:
    before the header boundary only bytes have been buffered; after it, `CLBody`,
    and between batches the transfer is not over and, in overwrite mode, every
    byte received has been handed over. -/
def CLMid (r : SoupReader) (env : ReadEnv) (total_read : Nat) (reads : List ReadResult) : Prop :=
  (∃ buf, env = env₀ ∧ r = { soup_transfer_read overwrite_chunks true true true true with recv_buf := buf } ∧
    buf ++ okBytes reads = H ++ B.take m ∧ (total_read = 0 → buf.length < H.length)) ∨
  ∃ d e, CLBody H B m overwrite_chunks r env reads d e ∧
    (total_read = 0 → d < B.length ∧ (overwrite_chunks = true → e = d))

/-- The transfer is over: the whole body arrived, every byte was read and
    `read_done_cb` was called last, with nothing in overwrite mode and with the
    body otherwise. -/
def CLDone (st : ReaderStatus) (env : ReadEnv) (reads : List ReadResult) : Prop :=
  m = B.length ∧ (∃ b, st = .freed b) ∧ okBytes reads = [] ∧
    ∃ calls₀, env.calls = calls₀ ++ [.read_done_cb (if overwrite_chunks then [] else B)] ∧
      BodyChunksCL H B overwrite_chunks calls₀ B.length

variable {H B m overwrite_chunks env₀}

theorem BodyChunksCL.chunk_overwrite {calls : List ReadCall} {e d : Nat}
    (h : BodyChunksCL H B true calls e) (he : e ≤ d) :
    BodyChunksCL H B true
      (calls ++ [.read_chunk_cb ((B.drop e).take (d - e)) .SOUP_TRANSFER_CONTINUE]) d := by
  obtain ⟨chunks, rfl, hopen, hpayloads⟩ := h
  refine ⟨chunks ++ [.read_chunk_cb ((B.drop e).take (d - e)) .SOUP_TRANSFER_CONTINUE],
    List.cons_append _ _ _, hopen.append fun c hc => ⟨_, by simpa using hc⟩, ?_⟩
  simp only [if_true] at hpayloads ⊢
  rw [chunkPayloads_append, List.flatten_append, hpayloads, chunkPayloads_read_chunk_cb,
    List.flatten_singleton, ← List.take_add, Nat.add_sub_cancel' he]

theorem BodyChunksCL.chunk_keep {calls : List ReadCall} {e : Nat} {buf : List UInt8}
    (h : BodyChunksCL H B false calls e) (hbuf : buf <+: B) :
    BodyChunksCL H B false (calls ++ [.read_chunk_cb buf .SOUP_TRANSFER_CONTINUE]) e := by
  obtain ⟨chunks, rfl, hopen, hpayloads⟩ := h
  refine ⟨chunks ++ [.read_chunk_cb buf .SOUP_TRANSFER_CONTINUE], List.cons_append _ _ _,
    hopen.append fun c hc => ⟨_, by simpa using hc⟩, ?_⟩
  simp only [Bool.false_eq_true, if_false] at hpayloads ⊢
  intro b hb
  rw [chunkPayloads_append, List.mem_append] at hb
  rcases hb with hb | hb
  · exact hpayloads b hb
  · simp only [chunkPayloads_read_chunk_cb, List.mem_singleton] at hb
    exact hb ▸ hbuf

/-- Without overwriting, what the chunk callbacks saw does not depend on how
    much was handed over. -/
theorem BodyChunksCL.keep_any {calls : List ReadCall} {e e' : Nat} (h : BodyChunksCL H B false calls e) :
    BodyChunksCL H B false calls e' :=
  h

/-- The end of `PROCESS_READ` on a content-length body, once the body step
    has re-established the invariant: the final callback exactly when the whole
    body has been received, and otherwise `goto READ_AGAIN`, with everything
    received handed over in overwrite mode. -/
private theorem cl_after_body (hm : m ≤ B.length) {r : SoupReader} {env : ReadEnv} {reads : List ReadResult}
    {d e : Nat} (hbody : CLBody H B m overwrite_chunks r env reads d e) {read_done : Bool}
    (hdone : read_done ↔ d = B.length) (hover : overwrite_chunks = true → e = d) :
    ProcessStep.holds (fun st env => StatusInv (CLMid H B m overwrite_chunks env₀)
      (CLDone H B m overwrite_chunks) st env reads)
      (if read_done then
        (.ret (soup_transfer_read_cancel (issue_final_callback r env).1), (issue_final_callback r env).2)
      else (.read_again r, env)) := by
  split_ifs with hread
  · -- the whole body is in: `read_done_cb` gets it, or nothing in overwrite mode
    have hdB := hdone.mp hread
    have hmB : m = B.length := le_antisymm hm (hdB ▸ hbody.received)
    refine ⟨hmB, ⟨_, rfl⟩, by rw [hbody.rest, hmB, List.take_length, hdB, List.drop_length], env.calls, ?_, ?_⟩
    · rw [issue_final_callback_eq, if_pos hbody.callbacks.2.2.1, ReadEnv.call_calls, hbody.recv_buf]
      cases overwrite_chunks
      · simp [hbody.kept rfl, hdB]
      · simp [hover rfl, hdB]
    · cases overwrite_chunks
      · exact hbody.calls.keep_any
      · exact (hover rfl).trans hdB ▸ hbody.calls
  · exact .inr ⟨d, e, hbody, fun _ => ⟨lt_of_le_of_ne (hbody.received.trans hm) (mt hdone.mpr hread), hover⟩⟩

/-- `PROCESS_READ` on a batch of some bytes past the header block keeps the
    content-length invariant. -/
theorem cl_process_body (hm : m ≤ B.length) {r : SoupReader} {env : ReadEnv} {reads : List ReadResult}
    {total_read : Nat} (htotal : total_read ≠ 0) {d e : Nat}
    (hbody : CLBody H B m overwrite_chunks r env reads d e) :
    ProcessStep.holds (fun st env => StatusInv (CLMid H B m overwrite_chunks env₀)
      (CLDone H B m overwrite_chunks) st env reads) (process_body r env total_read) := by
  have hdB : d ≤ B.length := hbody.received.trans hm
  have hbuf_len : r.recv_buf.length = d - e := by
    rw [hbody.recv_buf, List.length_take, List.length_drop]
    omega
  have hcl := hbody.content_length
  have he := hbody.handed
  by_cases hempty : r.recv_buf = []
  · -- nothing new in the buffer: done exactly when nothing more is expected
    have hde : d = e := by
      have hzero : d - e = 0 := by rw [← hbuf_len, hempty]; rfl
      omega
    rw [process_body_of_read_body (by rw [read_body_content_length hbody.encoding env htotal,
      read_content_length_empty hempty])]
    refine cl_after_body hm hbody ?_ fun _ => hde.symm
    rw [decide_eq_true_iff, eq_ofNat_iff_toNat (Nat.two_pow_pos 32)]
    omega
  have hreply := ReadEnv.nextChunkReply_continue hbody.replies
  have hcont := read_content_length_continue hbody.callbacks.2.1 hempty hreply.1
  cases overwrite_chunks
  · -- the buffer stays and grows; the chunk callback sees all of it
    have he0 := hbody.kept rfl
    rw [if_neg (by simp [hbody.overwrite])] at hcont
    rw [process_body_of_read_body (by rw [read_body_content_length hbody.encoding env htotal, hcont])]
    have hbody' : CLBody H B m false { r with callback_issued := true }
        (env.nextChunkReply.2.call (.read_chunk_cb r.recv_buf .SOUP_TRANSFER_CONTINUE)) reads d e :=
      { hbody with
        replies := by simpa using hreply.2
        calls := by
          rw [ReadEnv.call_calls, ReadEnv.nextChunkReply_calls]
          refine hbody.calls.chunk_keep ?_
          rw [hbody.recv_buf, he0]
          exact List.take_prefix _ _ }
    refine cl_after_body hm hbody' ?_ (by simp)
    have hlt : r.recv_buf.length < 2 ^ 32 := by
      have : r.content_length.toNat < 2 ^ 32 := r.content_length.toBitVec.isLt
      omega
    rw [decide_eq_true_iff, eq_ofNat_iff_toNat hlt]
    omega
  · -- the buffer is handed over and dropped; `content_length` counts it off
    rw [if_pos hbody.overwrite] at hcont
    rw [process_body_of_read_body (by rw [read_body_content_length hbody.encoding env htotal, hcont])]
    have hsub : (r.content_length - UInt32.ofNat r.recv_buf.length).toNat = B.length - d := by
      rw [toNat_sub_ofNat (show r.recv_buf.length ≤ r.content_length.toNat by omega)]
      omega
    have hbody' : CLBody H B m true
        { r with
          callback_issued := true
          content_length := r.content_length - UInt32.ofNat r.recv_buf.length
          recv_buf := [] }
        (env.nextChunkReply.2.call (.read_chunk_cb r.recv_buf .SOUP_TRANSFER_CONTINUE)) reads d d :=
      { hbody with
        handed := le_rfl
        kept := by simp
        recv_buf := by simp
        content_length := by simp only [hsub]; omega
        replies := by simpa using hreply.2
        calls := by
          rw [ReadEnv.call_calls, ReadEnv.nextChunkReply_calls, hbody.recv_buf]
          exact hbody.calls.chunk_overwrite he }
    refine cl_after_body hm hbody' ?_ fun _ => rfl
    rw [decide_eq_true_iff, eq_ofNat_iff_toNat (Nat.two_pow_pos 32), hsub]
    omega

/-- A read's bytes appended to the body bytes already buffered. -/
theorem body_append {B piece rest : List UInt8} {m d e : Nat} (he : e ≤ d) (hd : d ≤ m)
    (hrest : piece ++ rest = (B.take m).drop d) :
    d + piece.length ≤ m ∧ rest = (B.take m).drop (d + piece.length) ∧
      (B.drop e).take (d - e) ++ piece = (B.drop e).take (d + piece.length - e) := by
  have hlen := congrArg List.length hrest
  simp only [List.length_append, List.length_drop, List.length_take] at hlen
  have hp : d + piece.length ≤ m := by omega
  refine ⟨hp, ?_, ?_⟩
  · rw [← List.drop_left piece rest, hrest, List.drop_drop]
  · have hpiece : piece = (B.drop d).take piece.length :=
      calc piece = (piece ++ rest).take piece.length := (List.take_left _ _).symm
        _ = ((B.take m).drop d).take piece.length := by rw [hrest]
        _ = (B.drop d).take piece.length := by
          rw [List.drop_take, List.take_take, Nat.min_eq_left (by omega)]
    rw [show d + piece.length - e = d - e + piece.length by omega, List.take_add, List.drop_drop,
      Nat.add_sub_cancel' he, ← hpiece]

/-- The reader started by `soup_transfer_read` on the header `H` and the
    first `m` bytes of a body `B`, whose first headers reply declares the body's
    length and whose chunk callbacks all return `SOUP_TRANSFER_CONTINUE`, keeps the
    content-length invariant at every step. -/
theorem cl_steps (hk : HeaderEnd (H ++ B.take m) H.length) (hm : m ≤ B.length)
    {content_length : UInt32} (hlen : B.length = content_length.toNat)
    (hreply : env₀.nextHeadersReply.1 =
      ⟨.SOUP_TRANSFER_CONTINUE, .SOUP_TRANSFER_CONTENT_LENGTH, content_length⟩)
    (h₀ : env₀.calls = []) (hchunk : ∀ c ∈ env₀.chunkReplies, c = .SOUP_TRANSFER_CONTINUE) :
    SplitSteps (CLMid H B m overwrite_chunks env₀) (CLDone H B m overwrite_chunks) where
  append r env total b bytes reads h := by
    rcases h with ⟨buf, henv, rfl, hbuf, -⟩ | ⟨d, e, hbody, -⟩
    · exact .inl ⟨buf ++ b :: bytes, henv, rfl, by simpa using hbuf, by simp⟩
    · obtain ⟨hp, hrest, hbuf⟩ := body_append hbody.handed hbody.received hbody.rest
      refine .inr ⟨d + (b :: bytes).length, e,
        { hbody with
          received := hp
          rest := hrest
          handed := by have := hbody.handed; omega
          recv_buf := by simp only [hbody.recv_buf]; exact hbuf }, by simp⟩
  skip _ _ _ _ h := by
    rcases h with h | ⟨d, e, hbody, hb⟩
    · exact .inl h
    · exact .inr ⟨d, e, { hbody with rest := hbody.rest }, hb⟩
  process r env total reads htotal h := by
    rcases h with ⟨buf, rfl, rfl, hbuf, -⟩ | ⟨d, e, hbody, -⟩
    · rcases process_read_start hk (r := { soup_transfer_read overwrite_chunks true true true true with
          recv_buf := buf }) rfl rfl hbuf (by rw [hreply]) total with ⟨hlt, hwait⟩ | ⟨hle, hrest, hproc⟩
      · rw [hwait]
        exact .inl ⟨buf, rfl, rfl, hbuf, fun _ => hlt⟩
      · dsimp only at hle hrest hproc
        have hS := congrArg List.length hbuf
        simp only [List.length_append, List.length_take] at hS
        rw [hproc, hreply]
        refine cl_process_body hm htotal
          (?_ : CLBody H B m overwrite_chunks _ _ reads (buf.length - H.length) 0)
        exact
          { received := by omega
            rest := hrest
            handed := Nat.zero_le _
            kept := fun _ => rfl
            header_len := rfl
            encoding := rfl
            overwrite := rfl
            callbacks := ⟨rfl, rfl, rfl, rfl⟩
            recv_buf := by rw [List.take_take, Nat.min_eq_left (by omega), List.drop_zero]; rfl
            content_length := hlen.symm
            replies := by simpa using hchunk
            calls := ⟨[], by simp [h₀], fun _ h => absurd h (List.not_mem_nil _),
              by cases overwrite_chunks <;> simp⟩ }
    · unfold process_read
      rw [if_neg (by rw [hbody.header_len]; have := hk.1; omega)]
      exact cl_process_body hm htotal hbody

/-- What the content-length invariant says of the reader after a run over
    the whole body. -/
theorem cl_result {content_length : UInt32} (hlen : B.length = content_length.toNat)
    {st : ReaderStatus} {env : ReadEnv} {rest : List ReadResult}
    (h : StatusInv (CLMid H B B.length overwrite_chunks env₀) (CLDone H B B.length overwrite_chunks) st env
      rest)
    (h₀ : env₀.calls = []) :
    ((H ++ B).length - (okBytes rest).length < (H ++ B).length ∧ (env.calls = [] ∨ HeaderOpen env.calls) ∧
      ∃ r, st = .running r ∧ (r.header_len ≠ 0 → r.content_length.toNat +
        (if overwrite_chunks then (chunkPayloads env.calls).flatten.length else 0) = content_length.toNat)) ∨
    ((H ++ B).length - (okBytes rest).length = (H ++ B).length ∧ (∃ b, st = .freed b) ∧
      ∃ chunks, env.calls = .headers_done_cb (strncpy H H.length) .SOUP_TRANSFER_CONTINUE :: chunks ++
          [.read_done_cb (if overwrite_chunks then [] else B)] ∧ OpenChunks chunks ∧
        if overwrite_chunks then (chunkPayloads chunks).flatten = B
        else ∀ buf ∈ chunkPayloads chunks, buf <+: B) := by
  cases st with
  | running r =>
    rcases h with ⟨buf, rfl, rfl, hbuf, hlt⟩ | ⟨d, e, hbody, hbound⟩
    · have hS := congrArg List.length hbuf
      simp only [List.take_length, List.length_append] at hS
      exact .inl ⟨by simp only [List.length_append]; omega, .inl h₀, _, rfl, fun h => absurd rfl h⟩
    · obtain ⟨hdB, hover⟩ := hbound rfl
      obtain ⟨chunks, hcalls, hopen, hpayloads⟩ := hbody.calls
      have hrest := congrArg List.length hbody.rest
      have hcl := hbody.content_length
      simp only [List.take_length, List.length_drop] at hrest
      refine .inl ⟨by simp only [List.length_append]; omega, .inr ⟨_, chunks, hcalls, hopen⟩, r, rfl,
        fun _ => ?_⟩
      rw [hcalls, chunkPayloads_headers_done_cb]
      cases overwrite_chunks
      · simp only [Bool.false_eq_true, if_false, Nat.add_zero]
        have := hbody.kept rfl
        omega
      · simp only [if_true] at hpayloads ⊢
        rw [hpayloads, List.length_take, Nat.min_eq_left (by omega)]
        omega
  | freed b =>
    obtain ⟨-, -, hrest, calls₀, hcalls, chunks, rfl, hopen, hpayloads⟩ := h
    refine .inr ⟨by simp [hrest], ⟨b, rfl⟩, chunks, hcalls, hopen, ?_⟩
    simpa using hpayloads
  | aborted =>
    obtain ⟨-, ⟨_, h⟩, -⟩ := h
    cases h

/-- What the content-length invariant says of the reader once it has read a
    body cut short after `m` bytes. -/
theorem cl_truncated_result (hmB : m < B.length) {st : ReaderStatus} {env : ReadEnv}
    {rest : List ReadResult}
    (h : StatusInv (CLMid H B m overwrite_chunks env₀) (CLDone H B m overwrite_chunks) st env rest)
    (hrest : okBytes rest = []) :
    ∃ r, st = .running r ∧ r.header_len = H.length ∧ r.encoding = .SOUP_TRANSFER_CONTENT_LENGTH ∧
      AllSet r ∧ r.recv_buf = if overwrite_chunks then [] else B.take m := by
  cases st with
  | running r =>
    rcases h with ⟨buf, -, -, hbuf, hlt⟩ | ⟨d, e, hbody, hbound⟩
    · rw [hrest, List.append_nil] at hbuf
      have := hlt rfl
      rw [hbuf, List.length_append] at this
      omega
    · have hdm : d = m := by
        have hlen := congrArg List.length hbody.rest
        rw [hrest, List.length_drop, List.length_take] at hlen
        have := hbody.received
        simp only [List.length_nil] at hlen
        omega
      refine ⟨r, rfl, hbody.header_len, hbody.encoding, hbody.callbacks, ?_⟩
      rw [hbody.recv_buf]
      cases overwrite_chunks
      · simp [hbody.kept rfl, hdm]
      · simp [(hbound rfl).2 rfl, hdm]
  | freed _ => exact absurd h.1 (by omega)
  | aborted => exact absurd h.1 (by omega)

/-- The content-length invariant holds after any number of readable events
    on the reader started by `soup_transfer_read` on the header `H` and the first
    `m` bytes of a body `B`, cut into reads in any way. -/
theorem cl_run (hk : HeaderEnd (H ++ B.take m) H.length) (hm : m ≤ B.length) {reads : List ReadResult}
    (hsplit : SplitOf (H ++ B.take m) reads) {content_length : UInt32}
    (hlen : B.length = content_length.toNat) (more : List HeadersReply)
    {chunkReplies : List SoupTransferDone} (hcont : ∀ c ∈ chunkReplies, c = .SOUP_TRANSFER_CONTINUE)
    (n : Nat) :
    let start : ReadEnv :=
      ⟨⟨.SOUP_TRANSFER_CONTINUE, .SOUP_TRANSFER_CONTENT_LENGTH, content_length⟩ :: more, chunkReplies, []⟩
    let res := readerRun (.running (soup_transfer_read overwrite_chunks true true true true)) start reads
      (List.replicate n .G_IO_IN)
    StatusInv (CLMid H B m overwrite_chunks start) (CLDone H B m overwrite_chunks) res.1 res.2.1 res.2.2 := by
  intro start res
  refine (readerRun_split (cl_steps hk hm hlen ?_ ?_ hcont) n _ _ reads hsplit.1 ?_).2
  · rfl
  · rfl
  · exact .inl ⟨[], rfl, rfl, by simpa using hsplit.2, fun _ => by have := hk.1; simp only [List.length_nil]; omega⟩

end ContentLength

/-- A content-length transfer: for a header block `H` (its first CRLF CRLF at
    its end), a body `B` whose length `headers_done_cb` declares, a stream `H ++ B`
    cut into reads in any way, chunk callbacks that go on, and any number of
    readable events: until the last byte has been read the reader is open, with
    `headers_done_cb` first and chunk callbacks after it, and `content_length`
    counts off exactly what was handed over; once it has, `read_done_cb` has been
    called last, after chunk callbacks whose buffers make up the body in overwrite
    mode and are prefixes of it otherwise, with nothing in overwrite mode and the
    body otherwise. -/
theorem readerRun_content_length {H B : List UInt8} (hk : HeaderEnd (H ++ B) H.length)
    {reads : List ReadResult} (hsplit : SplitOf (H ++ B) reads) (content_length : UInt32)
    (hlen : B.length = content_length.toNat) (overwrite_chunks : Bool) (more : List HeadersReply)
    {chunkReplies : List SoupTransferDone} (hcont : ∀ c ∈ chunkReplies, c = .SOUP_TRANSFER_CONTINUE)
    (n : Nat) :
    let res := readerRun (.running (soup_transfer_read overwrite_chunks true true true true))
      ⟨⟨.SOUP_TRANSFER_CONTINUE, .SOUP_TRANSFER_CONTENT_LENGTH, content_length⟩ :: more, chunkReplies, []⟩
      reads (List.replicate n .G_IO_IN)
    let received := (H ++ B).length - (okBytes res.2.2).length
    (received < (H ++ B).length ∧ (res.2.1.calls = [] ∨ HeaderOpen res.2.1.calls) ∧
      ∃ r, res.1 = .running r ∧ (r.header_len ≠ 0 → r.content_length.toNat +
        (if overwrite_chunks then (chunkPayloads res.2.1.calls).flatten.length else 0) =
          content_length.toNat)) ∨
    (received = (H ++ B).length ∧ (∃ b, res.1 = .freed b) ∧
      ∃ chunks, res.2.1.calls = .headers_done_cb (strncpy H H.length) .SOUP_TRANSFER_CONTINUE :: chunks ++
          [.read_done_cb (if overwrite_chunks then [] else B)] ∧ OpenChunks chunks ∧
        if overwrite_chunks then (chunkPayloads chunks).flatten = B
        else ∀ buf ∈ chunkPayloads chunks, buf <+: B) := by
  have hk' : HeaderEnd (H ++ B.take B.length) H.length := by rwa [List.take_length]
  exact cl_result hlen (cl_run hk' le_rfl (by rwa [List.take_length]) hlen more hcont n) rfl

/-- The header block `H\r\n\r\n` and a three-byte body read in two pieces, in
    overwrite mode. -/
theorem readerRun_content_length_split :
    HeaderEnd (bytesOf "H\r\n\r\n" ++ bytesOf "abc") (bytesOf "H\r\n\r\n").length ∧
    SplitOf (bytesOf "H\r\n\r\n" ++ bytesOf "abc")
      [.ok (bytesOf "H\r\n\r\na"), .again, .ok (bytesOf "bc")] ∧
    (bytesOf "abc").length = (3 : UInt32).toNat ∧
    (∀ c ∈ ([] : List SoupTransferDone), c = .SOUP_TRANSFER_CONTINUE) ∧
    let H := bytesOf "H\r\n\r\n"
    let B := bytesOf "abc"
    let res := readerRun (.running (soup_transfer_read true true true true true))
      ⟨[⟨.SOUP_TRANSFER_CONTINUE, .SOUP_TRANSFER_CONTENT_LENGTH, 3⟩], [], []⟩
      [.ok (bytesOf "H\r\n\r\na"), .again, .ok (bytesOf "bc")] (List.replicate 2 .G_IO_IN)
    let received := (H ++ B).length - (okBytes res.2.2).length
    (received < (H ++ B).length ∧ (res.2.1.calls = [] ∨ HeaderOpen res.2.1.calls) ∧
      ∃ r, res.1 = .running r ∧ (r.header_len ≠ 0 → r.content_length.toNat +
        (if true then (chunkPayloads res.2.1.calls).flatten.length else 0) = (3 : UInt32).toNat)) ∨
    (received = (H ++ B).length ∧ (∃ b, res.1 = .freed b) ∧
      ∃ chunks, res.2.1.calls = .headers_done_cb (strncpy H H.length) .SOUP_TRANSFER_CONTINUE :: chunks ++
          [.read_done_cb (if true then [] else B)] ∧ OpenChunks chunks ∧
        if true then (chunkPayloads chunks).flatten = B else ∀ buf ∈ chunkPayloads chunks, buf <+: B) :=
  ⟨by decide, by decide, rfl, by simp,
    readerRun_content_length (by decide) (by decide) 3 (by rfl) true [] (by simp) 2⟩

/-- A read that runs past the declared length: the chunk callback is handed
    the byte beyond it, `read_done_cb` is not called, and in overwrite mode
    `content_length` wraps. -/
theorem readerRun_content_length_overrun :
    readerRun (.running (soup_transfer_read true true true true true))
        ⟨[⟨.SOUP_TRANSFER_CONTINUE, .SOUP_TRANSFER_CONTENT_LENGTH, 2⟩], [], []⟩
        [.ok (bytesOf "H\r\n\r\nabc")] [.G_IO_IN] =
      (.running
        { callback_issued := true
          recv_buf := []
          header_len := 5
          overwrite_chunks := true
          encoding := .SOUP_TRANSFER_CONTENT_LENGTH
          content_length := 4294967295
          chunk_state := ⟨0, 0⟩
          headers_done_cb := true
          read_chunk_cb := true
          read_done_cb := true
          error_cb := true },
        ⟨[], [], [.headers_done_cb (bytesOf "H\r\n\r\n") .SOUP_TRANSFER_CONTINUE,
          .read_chunk_cb (bytesOf "abc") .SOUP_TRANSFER_CONTINUE]⟩, []) := by
  decide

/-- A content-length body cut short after `m` of its bytes: once the reader
    has read all that arrived, a zero-byte read makes it call `read_done_cb` with
    what it buffered (nothing in overwrite mode, the `m` bytes otherwise), and a
    failed read or a hangup makes it call `error_cb`, reporting a started body
    only when the buffer holds more bytes than the header block had. -/
theorem readerRun_content_length_truncated {H B : List UInt8} {m : Nat} (hmB : m < B.length)
    (hk : HeaderEnd (H ++ B.take m) H.length) {reads : List ReadResult}
    (hsplit : SplitOf (H ++ B.take m) reads) (content_length : UInt32)
    (hlen : B.length = content_length.toNat) (overwrite_chunks : Bool) (more : List HeadersReply)
    {chunkReplies : List SoupTransferDone} (hcont : ∀ c ∈ chunkReplies, c = .SOUP_TRANSFER_CONTINUE)
    (n : Nat) :
    let res := readerRun (.running (soup_transfer_read overwrite_chunks true true true true))
      ⟨⟨.SOUP_TRANSFER_CONTINUE, .SOUP_TRANSFER_CONTENT_LENGTH, content_length⟩ :: more, chunkReplies, []⟩
      reads (List.replicate n .G_IO_IN)
    let buffered := if overwrite_chunks then [] else B.take m
    okBytes res.2.2 = [] → ∃ r, res.1 = .running r ∧
      soup_transfer_read_cb r res.2.1 [.ok []] = (.freed false, res.2.1.call (.read_done_cb buffered), []) ∧
      soup_transfer_read_cb r res.2.1 [.error] = (.freed !r.callback_issued,
        res.2.1.call (.error_cb (decide (buffered.length > H.length))), []) ∧
      soup_transfer_read_error_cb r res.2.1 = (.freed !r.callback_issued,
        res.2.1.call (.error_cb (decide (buffered.length > H.length)))) := by
  intro res buffered hrest
  obtain ⟨r, hst, hheader, henc, hset, hbuf⟩ :=
    cl_truncated_result hmB (cl_run hk hmB.le hsplit hlen more hcont n) hrest
  have hframed : r.encoding ≠ .SOUP_TRANSFER_UNKNOWN := by rw [henc]; decide
  refine ⟨r, hst, ?_, ?_, ?_⟩
  · rw [soup_transfer_read_cb_zero_read (by rw [hheader]; have := hk.1; omega), issue_final_callback_eq,
      if_pos hset.2.2.1, hbuf]
    simp [soup_transfer_read_cancel, hset.2.2.1]
  · rw [soup_transfer_read_cb_error, soup_transfer_read_error_cb_framed hframed, if_pos hset.2.2.2, hbuf,
      hheader]
    rfl
  · rw [soup_transfer_read_error_cb_framed hframed, if_pos hset.2.2.2, hbuf, hheader]
    rfl

/-- A ten-byte body cut after three bytes, read in one piece. -/
theorem readerRun_content_length_truncated_three :
    2 < (bytesOf "abcdefghij").length ∧
    HeaderEnd (bytesOf "H\r\n\r\n" ++ (bytesOf "abcdefghij").take 2) (bytesOf "H\r\n\r\n").length ∧
    SplitOf (bytesOf "H\r\n\r\n" ++ (bytesOf "abcdefghij").take 2) [.ok (bytesOf "H\r\n\r\nab")] ∧
    (bytesOf "abcdefghij").length = (10 : UInt32).toNat ∧
    (∀ c ∈ ([] : List SoupTransferDone), c = .SOUP_TRANSFER_CONTINUE) ∧
    let res := readerRun (.running (soup_transfer_read false true true true true))
      ⟨[⟨.SOUP_TRANSFER_CONTINUE, .SOUP_TRANSFER_CONTENT_LENGTH, 10⟩], [], []⟩
      [.ok (bytesOf "H\r\n\r\nab")] (List.replicate 1 .G_IO_IN)
    let buffered := if false then [] else (bytesOf "abcdefghij").take 2
    okBytes res.2.2 = [] ∧ ∃ r, res.1 = .running r ∧
      soup_transfer_read_cb r res.2.1 [.ok []] = (.freed false, res.2.1.call (.read_done_cb buffered), []) ∧
      soup_transfer_read_cb r res.2.1 [.error] = (.freed !r.callback_issued,
        res.2.1.call (.error_cb (decide (buffered.length > (bytesOf "H\r\n\r\n").length))), []) ∧
      soup_transfer_read_error_cb r res.2.1 = (.freed !r.callback_issued,
        res.2.1.call (.error_cb (decide (buffered.length > (bytesOf "H\r\n\r\n").length)))) :=
  ⟨by decide, by decide, by decide, by rfl, by simp, by decide,
    readerRun_content_length_truncated (by decide) (by decide) (by decide) 10 (by rfl) false [] (by simp) 1
      (by decide)⟩

/-- A content-length body of 10 bytes cut after 3: a zero-byte read hands the
    3 bytes to `read_done_cb` as the whole body, and a hangup tells `error_cb` the
    body had not started. -/
theorem readerRun_content_length_cut :
    (readerRun (.running (soup_transfer_read false true true true true))
      ⟨[⟨.SOUP_TRANSFER_CONTINUE, .SOUP_TRANSFER_CONTENT_LENGTH, 10⟩], [], []⟩
      [.ok (bytesOf "GET / HTTP/1.0\r\n\r\nabc"), .again, .ok []] [.G_IO_IN]).2.1.calls =
      [.headers_done_cb (bytesOf "GET / HTTP/1.0\r\n\r\n") .SOUP_TRANSFER_CONTINUE,
        .read_chunk_cb (bytesOf "abc") .SOUP_TRANSFER_CONTINUE, .read_done_cb (bytesOf "abc")] ∧
    (readerRun (.running (soup_transfer_read false true true true true))
      ⟨[⟨.SOUP_TRANSFER_CONTINUE, .SOUP_TRANSFER_CONTENT_LENGTH, 10⟩], [], []⟩
      [.ok (bytesOf "GET / HTTP/1.0\r\n\r\nabc")] [.G_IO_IN, .G_IO_HUP]).2.1.calls =
      [.headers_done_cb (bytesOf "GET / HTTP/1.0\r\n\r\n") .SOUP_TRANSFER_CONTINUE,
        .read_chunk_cb (bytesOf "abc") .SOUP_TRANSFER_CONTINUE, .error_cb false] := by
  decide

end libsoup.transfer
