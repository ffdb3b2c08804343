import Libsoup.Transfer.DecodeChunk

open libsoup.misc

namespace libsoup.transfer

/-- `soup_transfer_read_cancel`: the watches are removed and the reader freed,
    with the contents of `recv_buf` unless a callback has been handed them. -/
def soup_transfer_read_cancel (r : SoupReader) : ReaderStatus := .freed (!r.callback_issued)

/-- `issue_final_callback`: a NUL is appended to the buffer and `read_done_cb`
    is handed the buffer without it. -/
def issue_final_callback (r : SoupReader) (env : ReadEnv) : SoupReader × ReadEnv :=
  let r := { r with recv_buf := r.recv_buf ++ [0] }
  if r.read_done_cb then
    ({ r with callback_issued := true },
      env.call (.read_done_cb (r.recv_buf.take (r.recv_buf.length - 1))))
  else (r, env)

/-- `soup_transfer_read_error_cb`: the handler of the `G_IO_HUP` watch, also
    run by `soup_transfer_read_cb` when a read fails before any byte of the batch. -/
def soup_transfer_read_error_cb (r : SoupReader) (env : ReadEnv) : ReaderStatus × ReadEnv :=
  let body_started := decide (r.recv_buf.length > r.header_len)
  if r.encoding = .SOUP_TRANSFER_UNKNOWN then
    let (r, env) := issue_final_callback r env
    (soup_transfer_read_cancel r, env)
  else
    (soup_transfer_read_cancel r, if r.error_cb then env.call (.error_cb body_started) else env)

/-- `issue_chunk_callback (r, data, len, cancelled)`, returning `*cancelled`;
    `data` is the memory from the `data` pointer on. -/
def issue_chunk_callback (r : SoupReader) (env : ReadEnv) (data : List UInt8) (len : Nat)
    (cancelled : Bool) : SoupReader × ReadEnv × Bool :=
  if r.read_chunk_cb ∧ len ≠ 0 then
    let (cont, env) := env.nextChunkReply
    ({ r with callback_issued := true }, env.call (.read_chunk_cb (data.take len) cont),
      cont = .SOUP_TRANSFER_END)
  else (r, env, cancelled)

/-- How a body step (`read_chunk`, `read_content_length`, `read_unknown`) leaves
    the reader: its return value (`read_done`) and `*cancelled`, or a failed
    `g_assert`. -/
inductive BodyStep
  | ok (r : SoupReader) (read_done cancelled : Bool)
  | aborted

/-- `read_chunk (r, cancelled)`. -/
def read_chunk (r : SoupReader) (env : ReadEnv) (cancelled : Bool) : BodyStep × ReadEnv :=
  match decode_chunk r.chunk_state r.recv_buf with
  | none => (.aborted, env)
  | some (s, arr, datalen, ret) =>
    let r := { r with chunk_state := s, recv_buf := arr }
    if datalen = 0 then (.ok r ret cancelled, env)
    else
      let (r, env, cancelled) := issue_chunk_callback r env r.recv_buf r.chunk_state.idx cancelled
      if cancelled then (.ok r ret cancelled, env)
      else if r.overwrite_chunks then
        match remove_block_at_index r.recv_buf 0 r.chunk_state.idx with
        | none => (.aborted, env)
        | some arr =>
          (.ok { r with recv_buf := arr, chunk_state := { r.chunk_state with idx := 0 } } ret
            cancelled, env)
      else (.ok r ret cancelled, env)

/-- `read_content_length (r, cancelled)`; `r->content_length` and `arr->len`
    are compared and subtracted as `guint`s. -/
def read_content_length (r : SoupReader) (env : ReadEnv) (cancelled : Bool) : BodyStep × ReadEnv :=
  let finish (r : SoupReader) (env : ReadEnv) (cancelled : Bool) : BodyStep × ReadEnv :=
    (.ok r (r.content_length = UInt32.ofNat r.recv_buf.length) cancelled, env)
  if r.recv_buf.length = 0 then finish r env cancelled
  else
    let (r, env, cancelled) := issue_chunk_callback r env r.recv_buf r.recv_buf.length cancelled
    if cancelled then finish r env cancelled
    else if r.overwrite_chunks then
      let content_length := r.content_length - UInt32.ofNat r.recv_buf.length
      finish { r with content_length, recv_buf := [] } env cancelled
    else finish r env cancelled

/-- `read_unknown (r, cancelled)`: the body ends only with the stream. -/
def read_unknown (r : SoupReader) (env : ReadEnv) (cancelled : Bool) : BodyStep × ReadEnv :=
  if r.recv_buf.length = 0 then (.ok r false cancelled, env)
  else
    let (r, env, cancelled) := issue_chunk_callback r env r.recv_buf r.recv_buf.length cancelled
    if cancelled then (.ok r false cancelled, env)
    else if r.overwrite_chunks then (.ok { r with recv_buf := [] } false cancelled, env)
    else (.ok r false cancelled, env)

/-- How the header scan of `soup_transfer_read_cb` ends: no CRLF CRLF yet
    (`return TRUE`), at `FINISH_READ` or a failed `g_assert`, or with the header
    block compacted out of the buffer. -/
inductive HeaderStep
  | wait
  | stop (st : ReaderStatus)
  | body (r : SoupReader)

/-- The header block `[0, index)` found: it goes to `headers_done_cb`, which
    may end the transfer, and is compacted out of the buffer. -/
def accept_headers (r : SoupReader) (env : ReadEnv) (index : Nat) : HeaderStep × ReadEnv :=
  let compact (r : SoupReader) (env : ReadEnv) : HeaderStep × ReadEnv :=
    match remove_block_at_index r.recv_buf 0 index with
    | none => (.stop .aborted, env)
    | some buf => (.body { r with recv_buf := buf, header_len := index }, env)
  if r.headers_done_cb then
    let (reply, env) := env.nextHeadersReply
    let env := env.call (.headers_done_cb (strncpy r.recv_buf index) reply.ret)
    let r := { r with encoding := reply.encoding, content_length := reply.content_length }
    if reply.ret = .SOUP_TRANSFER_END then (.stop (soup_transfer_read_cancel r), env)
    else compact r env
  else compact r env

/-- The header scan of `soup_transfer_read_cb`, run while `header_len` is 0. -/
def scan_headers (r : SoupReader) (env : ReadEnv) : HeaderStep × ReadEnv :=
  let index := soup_substring_index r.recv_buf r.recv_buf.length (bytesOf "\r\n\r\n")
  if index < 0 then (.wait, env) else accept_headers r env (index + 4).toNat

/-- The `switch (r->encoding)` of `soup_transfer_read_cb`, with `cancelled`
    still `FALSE`; a batch of no bytes means the stream has ended. -/
def read_body (r : SoupReader) (env : ReadEnv) (total_read : Nat) : BodyStep × ReadEnv :=
  if total_read = 0 then (.ok r true false, env)
  else
    match r.encoding with
    | .SOUP_TRANSFER_CHUNKED => read_chunk r env false
    | .SOUP_TRANSFER_CONTENT_LENGTH => read_content_length r env false
    | .SOUP_TRANSFER_UNKNOWN => read_unknown r env false

/-- How the code from the label `PROCESS_READ` ends: `goto READ_AGAIN` with
    `total_read = 0`, or a return from the handler. -/
inductive ProcessStep
  | read_again (r : SoupReader)
  | ret (st : ReaderStatus)

/-- `soup_transfer_read_cb` after the header block: the body step, then
    `FINISH_READ`, `goto READ_AGAIN`, or `issue_final_callback` and `FINISH_READ`. -/
def process_body (r : SoupReader) (env : ReadEnv) (total_read : Nat) : ProcessStep × ReadEnv :=
  match read_body r env total_read with
  | (.aborted, env) => (.ret .aborted, env)
  | (.ok r read_done cancelled, env) =>
    if cancelled then (.ret (soup_transfer_read_cancel r), env)
    else if !read_done then (.read_again r, env)
    else
      let (r, env) := issue_final_callback r env
      (.ret (soup_transfer_read_cancel r), env)

/-- `soup_transfer_read_cb` from the label `PROCESS_READ`. -/
def process_read (r : SoupReader) (env : ReadEnv) (total_read : Nat) : ProcessStep × ReadEnv :=
  if r.header_len = 0 then
    match scan_headers r env with
    | (.wait, env) => (.ret (.running r), env)
    | (.stop st, env) => (.ret st, env)
    | (.body r, env) => process_body r env total_read
  else process_body r env total_read

/-- A property of the reader and its world, read at the end of `PROCESS_READ`:
    of the reader about to read again, or of the handler's result. -/
def ProcessStep.holds (P : ReaderStatus → ReadEnv → Prop) : ProcessStep × ReadEnv → Prop
  | (.read_again r, env) => P (.running r) env
  | (.ret st, env) => P st env

/-- Leave `PROCESS_READ`: go on reading with `k`, or return. -/
def after_process (p : ProcessStep × ReadEnv) (reads : List ReadResult)
    (k : SoupReader → ReadEnv → ReaderStatus × ReadEnv × List ReadResult) :
    ReaderStatus × ReadEnv × List ReadResult :=
  match p with
  | (.read_again r, env) => k r env
  | (.ret st, env) => (st, env, reads)

/-- `soup_transfer_read_cb` from the label `READ_AGAIN`, with `total_read`
    bytes read in the current batch; `reads` are the results of the next
    `g_io_channel_read` calls, `G_IO_ERROR_AGAIN` once they run out. -/
def read_again (r : SoupReader) (env : ReadEnv) (total_read : Nat) :
    List ReadResult → ReaderStatus × ReadEnv × List ReadResult
  | [] =>
    if total_read = 0 then (.running r, env, [])
    -- after `goto READ_AGAIN` the next read returns `G_IO_ERROR_AGAIN` again
    else after_process (process_read r env total_read) [] fun r env => (.running r, env, [])
  | .again :: reads =>
    if total_read = 0 then (.running r, env, reads)
    else after_process (process_read r env total_read) reads fun r env => read_again r env 0 reads
  | .error :: reads =>
    if total_read = 0 then
      let (st, env) := soup_transfer_read_error_cb r env
      (st, env, reads)
    else after_process (process_read r env total_read) reads fun r env => read_again r env 0 reads
  | .ok [] :: reads =>
    after_process (process_read r env total_read) reads fun r env => read_again r env 0 reads
  | .ok (b :: bytes) :: reads =>
    read_again { r with recv_buf := r.recv_buf ++ b :: bytes } env (total_read + (b :: bytes).length)
      reads

/-- `soup_transfer_read_cb`: the handler of the `G_IO_IN` watch. -/
def soup_transfer_read_cb (r : SoupReader) (env : ReadEnv) (reads : List ReadResult) :
    ReaderStatus × ReadEnv × List ReadResult :=
  read_again r env 0 reads

/-- `soup_transfer_read`: a new reader; its two watches are then armed. -/
def soup_transfer_read (overwrite_chunks headers_done_cb read_chunk_cb read_done_cb error_cb : Bool) :
    SoupReader where
  callback_issued := false
  recv_buf := []
  header_len := 0
  overwrite_chunks := overwrite_chunks
  encoding := .SOUP_TRANSFER_UNKNOWN
  content_length := 0
  chunk_state := ⟨0, 0⟩
  headers_done_cb := headers_done_cb
  read_chunk_cb := read_chunk_cb
  read_done_cb := read_done_cb
  error_cb := error_cb

/-- The reader under the event loop: each event fires one watch's handler,
    which consumes channel results from `reads`; once the reader is freed, or the
    process has aborted, nothing runs. -/
def readerRun : ReaderStatus → ReadEnv → List ReadResult → List ReadEvent →
    ReaderStatus × ReadEnv × List ReadResult
  | .running r, env, reads, .G_IO_IN :: events =>
    let (st, env, reads) := soup_transfer_read_cb r env reads
    readerRun st env reads events
  | .running r, env, reads, .G_IO_HUP :: events =>
    let (st, env) := soup_transfer_read_error_cb r env
    readerRun st env reads events
  | st, env, reads, _ => (st, env, reads)

@[simp] theorem readerRun_freed (free_segment : Bool) (env : ReadEnv) (reads : List ReadResult)
    (events : List ReadEvent) :
    readerRun (.freed free_segment) env reads events = (.freed free_segment, env, reads) := by
  cases events <;> rfl

@[simp] theorem readerRun_aborted (env : ReadEnv) (reads : List ReadResult) (events : List ReadEvent) :
    readerRun .aborted env reads events = (.aborted, env, reads) := by
  cases events <;> rfl

end libsoup.transfer
