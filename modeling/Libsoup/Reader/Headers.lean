import Libsoup.Reader.CallOrder
import Libsoup.Reader.Run

namespace libsoup.transfer

/-- A call to `headers_done_cb`. -/
def ReadCall.isHeadersDone : ReadCall → Bool
  | .headers_done_cb _ _ => true
  | _ => false

/-- Calls none of which is to `headers_done_cb`. -/
def NoHeaderCalls (calls : List ReadCall) : Prop :=
  ∀ c ∈ calls, c.isHeadersDone = false

theorem OpenChunks.noHeaderCalls {calls : List ReadCall} (h : OpenChunks calls) :
    NoHeaderCalls calls := fun c hc => by
  obtain ⟨buf, rfl⟩ := h c hc
  rfl

/-- `PROCESS_READ` after the header block keeps `header_len` and makes no
    call to `headers_done_cb`. -/
theorem process_body_keeps_header (r : SoupReader) (env : ReadEnv) (total_read : Nat) :
    ProcessStep.holds (fun st env' => (∀ r', st = .running r' → r'.header_len = r.header_len) ∧
      ∃ extra, env'.calls = env.calls ++ extra ∧ NoHeaderCalls extra) (process_body r env total_read) := by
  unfold process_body
  have hstep := read_body_calls r env total_read
  generalize read_body r env total_read = step at hstep ⊢
  obtain ⟨⟨r', read_done, cancelled⟩ | _, env'⟩ := step
  · obtain ⟨hlen, -, hcalls⟩ := hstep
    dsimp only
    split_ifs at hcalls ⊢
    · obtain ⟨buf, hbuf⟩ := hcalls
      exact ⟨by simp [soup_transfer_read_cancel], _, hbuf, by simp [NoHeaderCalls, ReadCall.isHeadersDone]⟩
    · obtain ⟨extra, hextra, hchunks⟩ := hcalls
      exact ⟨(fun _ h => by cases h; exact hlen), extra, hextra, hchunks.noHeaderCalls⟩
    · obtain ⟨extra, hextra, hchunks⟩ := hcalls
      refine ⟨by simp [soup_transfer_read_cancel], ?_⟩
      rw [issue_final_callback_eq]
      split_ifs
      · refine ⟨extra ++ [.read_done_cb r'.recv_buf], by simp [hextra], fun c hc => ?_⟩
        rcases List.mem_append.mp hc with hc | hc
        · exact hchunks.noHeaderCalls c hc
        · simp at hc; subst hc; rfl
      · exact ⟨extra, hextra, hchunks.noHeaderCalls⟩
  · obtain ⟨extra, hextra, hchunks⟩ := hstep
    exact ⟨(fun _ h => by cases h), extra, hextra, hchunks.noHeaderCalls⟩

section HeaderScan

variable (S : List UInt8) (k : Nat) (env₀ : ReadEnv)

/-- `headers_done_cb` was called first, with the header block as `strncpy`
    copies it and the verdict of the first reply, and never again. -/
def HeadersCalled (calls : List ReadCall) : Prop :=
  ∃ more, calls = .headers_done_cb (strncpy S k) env₀.nextHeadersReply.1.ret :: more ∧
    NoHeaderCalls more

/-- The reader on a stream `S` whose first CRLF CRLF ends at `k`, started in
    the world `env₀`: before the boundary nothing has happened but the buffering of
    the bytes read, and a batch is processed before the handler returns; after it,
    `headers_done_cb` has been called once and `header_len` is `k`. -/
def ScanMid (r : SoupReader) (env : ReadEnv) (total_read : Nat) (reads : List ReadResult) : Prop :=
  (env = env₀ ∧ r.header_len = 0 ∧ r.headers_done_cb ∧ r.recv_buf ++ okBytes reads = S ∧
    (total_read = 0 → r.recv_buf.length < k)) ∨
  (k ≤ S.length - (okBytes reads).length ∧ r.header_len = k ∧ HeadersCalled S k env₀ env.calls)

/-- `ScanMid` once the reader is freed or the process has aborted: only past
    the boundary. -/
def ScanDone (_st : ReaderStatus) (env : ReadEnv) (reads : List ReadResult) : Prop :=
  k ≤ S.length - (okBytes reads).length ∧ HeadersCalled S k env₀ env.calls

variable {S k env₀}

theorem HeadersCalled.append {calls extra : List ReadCall} (h : HeadersCalled S k env₀ calls)
    (hextra : NoHeaderCalls extra) : HeadersCalled S k env₀ (calls ++ extra) := by
  obtain ⟨more, rfl, hmore⟩ := h
  exact ⟨more ++ extra, rfl, fun c hc => (List.mem_append.mp hc).elim (hmore c) (hextra c)⟩

private theorem scan_process_body {r : SoupReader} {env : ReadEnv} {reads : List ReadResult}
    (total_read : Nat) (hrecv : k ≤ S.length - (okBytes reads).length) (hlen : r.header_len = k)
    (hcalled : HeadersCalled S k env₀ env.calls) :
    ProcessStep.holds (fun st env => StatusInv (ScanMid S k env₀) (ScanDone S k env₀) st env reads)
      (process_body r env total_read) :=
  (process_body_keeps_header r env total_read).mono fun st env' ⟨hst, extra, hextra, hno⟩ => by
    have hcalled' : HeadersCalled S k env₀ env'.calls := hextra ▸ hcalled.append hno
    cases st with
    | running r' => exact .inr ⟨hrecv, (hst r' rfl).trans hlen, hcalled'⟩
    | freed _ => exact ⟨hrecv, hcalled'⟩
    | aborted => exact ⟨hrecv, hcalled'⟩

theorem scan_steps (hk : HeaderEnd S k) (h₀ : env₀.calls = []) :
    SplitSteps (ScanMid S k env₀) (ScanDone S k env₀) where
  append r env total b bytes reads h := by
    rcases h with ⟨henv, hlen, hcb, hbuf, -⟩ | ⟨hrecv, hlen, hcalled⟩
    · exact .inl ⟨henv, hlen, hcb, by simpa using hbuf, by simp⟩
    · refine .inr ⟨?_, hlen, hcalled⟩
      simp only [okBytes_ok, List.length_append, List.length_cons] at hrecv
      omega
  skip _ _ _ _ h := h
  process r env total reads _ h := by
    rcases h with ⟨henv, hlen, hcb, hbuf, -⟩ | ⟨hrecv, hlen, hcalled⟩
    · subst henv
      have hS : S.length = r.recv_buf.length + (okBytes reads).length := by
        rw [← hbuf, List.length_append]
      have htake : r.recv_buf = S.take r.recv_buf.length := by
        rw [← hbuf, List.take_left]
      by_cases hm : r.recv_buf.length < k
      · have hnone : ∀ t, ¬ bytesOf "\r\n\r\n" <+: r.recv_buf.drop t := by
          rw [htake]
          exact hk.not_take hm
        rw [process_read_wait hlen hnone]
        exact .inl ⟨rfl, hlen, hcb, hbuf, fun _ => hm⟩
      · have hcalled : HeadersCalled S k env (env.nextHeadersReply.2.call
            (.headers_done_cb (strncpy S k) env.nextHeadersReply.1.ret)).calls :=
          ⟨[], by simp [h₀], by simp [NoHeaderCalls]⟩
        rw [process_read_header hk (Nat.le_of_not_lt hm) hlen hcb htake]
        dsimp only
        split_ifs
        · exact ⟨by omega, hcalled⟩
        · exact scan_process_body total (by omega) rfl hcalled
    · unfold process_read
      rw [if_neg (by have := hk.1; omega)]
      exact scan_process_body total hrecv hlen hcalled

/-- What the scan's invariant says of the reader after a run. -/
theorem scan_result {st : ReaderStatus} {env : ReadEnv} {rest : List ReadResult}
    (h : StatusInv (ScanMid S k env₀) (ScanDone S k env₀) st env rest) (h₀ : env₀.calls = []) :
    (S.length - (okBytes rest).length < k ∧ env.calls = [] ∧
        ∃ r, st = .running r ∧ r.header_len = 0 ∧ r.recv_buf = S.take (S.length - (okBytes rest).length)) ∨
      (k ≤ S.length - (okBytes rest).length ∧ HeadersCalled S k env₀ env.calls ∧
        ∀ r, st = .running r → r.header_len = k) := by
  cases st with
  | running r =>
    rcases h with ⟨rfl, hlen, -, hbuf, hlt⟩ | ⟨hrecv, hlen, hcalled⟩
    · have hreceived : S.length - (okBytes rest).length = r.recv_buf.length := by
        rw [← hbuf, List.length_append]
        omega
      rw [hreceived]
      exact .inl ⟨hlt rfl, h₀, r, rfl, hlen, by rw [← hbuf, List.take_left]⟩
    · exact .inr ⟨hrecv, hcalled, fun r' h => by cases h; exact hlen⟩
  | freed _ => exact .inr ⟨h.1, h.2, fun _ h => by cases h⟩
  | aborted => exact .inr ⟨h.1, h.2, fun _ h => by cases h⟩

end HeaderScan

/-- `PROCESS_READ` before the header boundary on the first bytes of a stream
    `H ++ X`, where `H` is the header block: the handler waits while the buffer is
    shorter than `H`, and otherwise hands `H` to `headers_done_cb` and, when that
    goes on, runs the body step on the bytes of `X` received. -/
theorem process_read_start {H X : List UInt8} (hk : HeaderEnd (H ++ X) H.length) {r : SoupReader}
    (hlen : r.header_len = 0) (hcb : r.headers_done_cb) {reads : List ReadResult}
    (hbuf : r.recv_buf ++ okBytes reads = H ++ X) {env : ReadEnv}
    (hreply : env.nextHeadersReply.1.ret = .SOUP_TRANSFER_CONTINUE) (total_read : Nat) :
    (r.recv_buf.length < H.length ∧ process_read r env total_read = (.ret (.running r), env)) ∨
    (H.length ≤ r.recv_buf.length ∧ okBytes reads = X.drop (r.recv_buf.length - H.length) ∧
      process_read r env total_read =
        process_body { r with
            recv_buf := X.take (r.recv_buf.length - H.length)
            header_len := H.length
            encoding := env.nextHeadersReply.1.encoding
            content_length := env.nextHeadersReply.1.content_length }
          (env.nextHeadersReply.2.call (.headers_done_cb (strncpy H H.length) .SOUP_TRANSFER_CONTINUE))
          total_read) := by
  have htake : r.recv_buf = (H ++ X).take r.recv_buf.length := by rw [← hbuf, List.take_left]
  by_cases hlt : r.recv_buf.length < H.length
  · refine .inl ⟨hlt, process_read_wait hlen ?_ env total_read⟩
    rw [htake]
    exact hk.not_take hlt
  · have hS := congrArg List.length hbuf
    simp only [List.length_append] at hS
    refine .inr ⟨Nat.le_of_not_lt hlt, ?_, ?_⟩
    · have hdrop := congrArg (List.drop r.recv_buf.length) hbuf
      rwa [List.drop_left, List.drop_append_eq_append_drop, List.drop_eq_nil_of_le (by omega),
        List.nil_append] at hdrop
    · rw [process_read_header hk (Nat.le_of_not_lt hlt) hlen hcb htake]
      simp only [hreply, strncpy_append_length, List.drop_left]
      rfl

/-- For a stream `S` whose first CRLF CRLF ends at `k`, cut into reads in any
    way and delivered by readable events: after any number of events, either fewer
    than `k` bytes have been read, no callback has run and the buffer holds them,
    or at least `k` have, `headers_done_cb` was the first call, with
    `strncpy (S, k)`, and is never called again, and `header_len` is `k`. And when
    the header block is found, the body step runs on the bytes after it. -/
theorem readerRun_headers_done {S : List UInt8} {k : Nat} (hk : HeaderEnd S k)
    {reads : List ReadResult} (hsplit : SplitOf S reads)
    (overwrite_chunks read_chunk_cb read_done_cb error_cb : Bool)
    (headersReplies : List HeadersReply) (chunkReplies : List SoupTransferDone) (n : Nat) :
    let env₀ : ReadEnv := ⟨headersReplies, chunkReplies, []⟩
    let res := readerRun
      (.running (soup_transfer_read overwrite_chunks true read_chunk_cb read_done_cb error_cb))
      env₀ reads (List.replicate n .G_IO_IN)
    let received := S.length - (okBytes res.2.2).length
    (∀ r env total_read m, r.header_len = 0 → r.headers_done_cb → r.recv_buf = S.take m → k ≤ m →
      env.nextHeadersReply.1.ret = .SOUP_TRANSFER_CONTINUE →
      process_read r env total_read =
        process_body { r with
            recv_buf := (S.drop k).take (m - k)
            header_len := k
            encoding := env.nextHeadersReply.1.encoding
            content_length := env.nextHeadersReply.1.content_length }
          (env.nextHeadersReply.2.call (.headers_done_cb (strncpy S k) .SOUP_TRANSFER_CONTINUE))
          total_read) ∧
    ((received < k ∧ res.2.1.calls = [] ∧
        ∃ r, res.1 = .running r ∧ r.header_len = 0 ∧ r.recv_buf = S.take received) ∨
      (k ≤ received ∧ HeadersCalled S k env₀ res.2.1.calls ∧
        ∀ r, res.1 = .running r → r.header_len = k)) := by
  intro env₀ res received
  refine ⟨fun r env total_read m hlen hcb hbuf hkm hcont => ?_, ?_⟩
  · rw [process_read_header hk hkm hlen hcb hbuf]
    simp only [hcont]
    rfl
  · have hinit : StatusInv (ScanMid S k env₀) (ScanDone S k env₀)
        (.running (soup_transfer_read overwrite_chunks true read_chunk_cb read_done_cb error_cb)) env₀
        reads :=
      .inl ⟨rfl, rfl, rfl, by simpa [soup_transfer_read] using hsplit.2,
        fun _ => by simp only [soup_transfer_read, List.length_nil]; have := hk.1; omega⟩
    exact scan_result (readerRun_split (scan_steps hk rfl) n _ _ reads hsplit.1 hinit).2 rfl

/-- A header block cut inside its CRLF CRLF and followed by body bytes. -/
theorem readerRun_headers_done_split :
    HeaderEnd (bytesOf "A\r\n\r\nhi") 5 ∧
      SplitOf (bytesOf "A\r\n\r\nhi") [.ok (bytesOf "A\r\n"), .again, .ok (bytesOf "\r\nhi")] ∧
      let S := bytesOf "A\r\n\r\nhi"
      let env₀ : ReadEnv := ⟨[], [], []⟩
      let res := readerRun (.running (soup_transfer_read false true true true true)) env₀
        [.ok (bytesOf "A\r\n"), .again, .ok (bytesOf "\r\nhi")] (List.replicate 2 .G_IO_IN)
      let received := S.length - (okBytes res.2.2).length
      (∀ r env total_read m, r.header_len = 0 → r.headers_done_cb → r.recv_buf = S.take m → 5 ≤ m →
        env.nextHeadersReply.1.ret = .SOUP_TRANSFER_CONTINUE →
        process_read r env total_read =
          process_body { r with
              recv_buf := (S.drop 5).take (m - 5)
              header_len := 5
              encoding := env.nextHeadersReply.1.encoding
              content_length := env.nextHeadersReply.1.content_length }
            (env.nextHeadersReply.2.call (.headers_done_cb (strncpy S 5) .SOUP_TRANSFER_CONTINUE))
            total_read) ∧
      ((received < 5 ∧ res.2.1.calls = [] ∧
          ∃ r, res.1 = .running r ∧ r.header_len = 0 ∧ r.recv_buf = S.take received) ∨
        (5 ≤ received ∧ HeadersCalled S 5 env₀ res.2.1.calls ∧
          ∀ r, res.1 = .running r → r.header_len = 5)) :=
  ⟨by decide, by decide, readerRun_headers_done (by decide) (by decide) false true true true [] [] 2⟩

/-- A NUL byte in the header block: `headers_done_cb` is handed NULs in place
    of the bytes after it, not the header block. -/
theorem readerRun_headers_done_nul :
    (readerRun (.running (soup_transfer_read false true true true true)) ⟨[], [], []⟩
      [.ok [65, 0, 13, 10, 13, 10]] [.G_IO_IN]).2.1.calls =
      [.headers_done_cb [65, 0, 0, 0, 0, 0] .SOUP_TRANSFER_CONTINUE] := by
  decide

end libsoup.transfer
