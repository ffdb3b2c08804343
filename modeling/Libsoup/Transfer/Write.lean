import Libsoup.Transfer.Buffer
import Libsoup.Transfer.Types

namespace libsoup.transfer

/-- The fields of `SoupWriter` that the write path uses. A callback field is
    `true` when the function pointer is not `NULL`. -/
structure SoupWriter where
  encoding : SoupTransferEncoding
  write_buf : List UInt8
  header_len : Nat
  headers_done : Bool
  chunk_cnt : Nat
  headers_done_cb : Bool
  write_chunk_cb : Bool
  write_done_cb : Bool
  error_cb : Bool
  deriving DecidableEq, Repr

/-- The writer once a handler has returned: still watched, freed by
    `soup_transfer_write_cancel`, or gone because a `g_assert` failed. -/
inductive WriterStatus
  | running (w : SoupWriter)
  | freed
  | aborted
  deriving DecidableEq, Repr

/-- One `g_io_channel_write`: `G_IO_ERROR_NONE` with `bytes_written`,
    `G_IO_ERROR_AGAIN`, or any other `GIOError`. -/
inductive WriteResult
  | ok (bytes_written : Nat)
  | again
  | error
  deriving DecidableEq, Repr

/-- The watch that fires: `G_IO_OUT`, or the one on `G_IO_HUP | G_IO_ERR | G_IO_NVAL`. -/
inductive WriteEvent
  | G_IO_OUT
  | G_IO_HUP
  deriving DecidableEq, Repr

/-- What `write_chunk_cb` returns: `*buf` (`NULL`, or the bytes of a
    `SoupDataBuffer`), its verdict, and the value it leaves in `errno` when it
    changes it. -/
structure WriteChunkReply where
  buf : Option (List UInt8)
  ret : SoupTransferDone
  errno : Option Nat
  deriving DecidableEq, Repr

/-- What a producer that sets nothing returns: the code's initial values
    `buf = NULL` and `ret = SOUP_TRANSFER_END`. -/
def WriteChunkReply.initial : WriteChunkReply := ⟨none, .SOUP_TRANSFER_END, none⟩

/-- The next reply of the producer; once the given replies have run out it
    sets nothing. -/
def nextWriteChunkReply : List WriteChunkReply → WriteChunkReply × List WriteChunkReply
  | [] => (.initial, [])
  | reply :: replies => (reply, replies)

/-- A call of the writer into the application, with what the producer hands back. -/
inductive WriteCall
  | headers_done_cb
  | write_chunk_cb (buf : Option (List UInt8)) (ret : SoupTransferDone)
  | write_done_cb
  | error_cb (headers_done : Bool)
  deriving DecidableEq, Repr

/-- The writer's world: the `errno` values successive `headers_done_cb` calls
    leave (`none`: unchanged), `errno`, the calls made so far, and the bytes the
    channel has accepted. -/
structure WriteEnv where
  headersErrno : List (Option Nat)
  errno : Nat
  calls : List WriteCall
  wire : List UInt8
  deriving DecidableEq, Repr

namespace WriteEnv

def call (env : WriteEnv) (c : WriteCall) : WriteEnv := { env with calls := env.calls ++ [c] }

def setErrno (env : WriteEnv) : Option Nat → WriteEnv
  | none => env
  | some e => { env with errno := e }

/-- `headers_done_cb` is called. -/
def headersDone (env : WriteEnv) : WriteEnv :=
  match env.headersErrno with
  | [] => env.call .headers_done_cb
  | e :: rest => ({ env with headersErrno := rest }.call .headers_done_cb).setErrno e

@[simp] theorem call_calls (env : WriteEnv) (c : WriteCall) : (env.call c).calls = env.calls ++ [c] := rfl

@[simp] theorem call_wire (env : WriteEnv) (c : WriteCall) : (env.call c).wire = env.wire := rfl

@[simp] theorem setErrno_calls (env : WriteEnv) (e : Option Nat) : (env.setErrno e).calls = env.calls := by
  cases e <;> rfl

@[simp] theorem setErrno_wire (env : WriteEnv) (e : Option Nat) : (env.setErrno e).wire = env.wire := by
  cases e <;> rfl

@[simp] theorem headersDone_calls (env : WriteEnv) :
    env.headersDone.calls = env.calls ++ [.headers_done_cb] := by
  unfold headersDone; split <;> simp

@[simp] theorem headersDone_wire (env : WriteEnv) : env.headersDone.wire = env.wire := by
  unfold headersDone; split <;> simp

end WriteEnv

/-- `soup_transfer_write_cancel`: the watches are removed, the staging buffer
    and the writer freed. -/
def soup_transfer_write_cancel : WriterStatus := .freed

/-- `soup_transfer_write_error_cb`: the handler of the `G_IO_HUP` watch, also
    run by `soup_transfer_write_cb` when a write fails. -/
def soup_transfer_write_error_cb (w : SoupWriter) (env : WriteEnv) : WriterStatus × WriteEnv :=
  (soup_transfer_write_cancel, if w.error_cb then env.call (.error_cb w.headers_done) else env)

/-- `write_chunk_sep (arr, len, first_chunk)`. -/
def write_chunk_sep (arr : List UInt8) (len : Nat) (first_chunk : Bool) : List UInt8 :=
  if len ≠ 0 then
    arr ++ (if first_chunk then printfHex len ++ bytesOf "\r\n"
      else bytesOf "\r\n" ++ printfHex len ++ bytesOf "\r\n")
  else arr ++ bytesOf "\r\n0\r\n"

/-- `write_chunk (w, buf)`: the `gint` `chunk_cnt` is passed as `first_chunk`. -/
def write_chunk (w : SoupWriter) (buf : List UInt8) : SoupWriter :=
  let w :=
    if w.encoding = .SOUP_TRANSFER_CHUNKED then
      { w with
        write_buf := write_chunk_sep w.write_buf buf.length (w.chunk_cnt ≠ 0)
        chunk_cnt := w.chunk_cnt + 1 }
    else w
  { w with write_buf := w.write_buf ++ buf }

/-- After the producer has ended: the terminating chunk is appended to the
    staging buffer in chunked mode. -/
def end_chunks (w : SoupWriter) : SoupWriter :=
  if w.encoding = .SOUP_TRANSFER_CHUNKED then
    { w with write_buf := write_chunk_sep w.write_buf 0 (w.chunk_cnt ≠ 0) }
  else w

/-- A successful `g_io_channel_write` of `bytes_written` bytes in the loop of
    `soup_transfer_write_cb`: they reach the wire, and the header check runs. -/
def wrote (w : SoupWriter) (env : WriteEnv) (bytes_written : Nat) : SoupWriter × WriteEnv :=
  let env := { env with wire := env.wire ++ w.write_buf.take bytes_written }
  if ¬w.headers_done ∧ w.header_len ≤ bytes_written then
    ({ w with headers_done := true }, if w.headers_done_cb then env.headersDone else env)
  else (w, env)

/-- How the `while (w->write_buf->len)` loop of `soup_transfer_write_cb` ends:
    with the buffer drained, at `TRY_AGAIN`, in a failed write, or in a failed
    `g_assert`. -/
inductive DrainStep
  | drained (w : SoupWriter)
  | try_again (w : SoupWriter)
  | failed (w : SoupWriter)
  | aborted

/-- The drain loop; `writes` are the results of the next `g_io_channel_write`
    calls, `G_IO_ERROR_AGAIN` once they run out. The `errno != 0` test comes
    after the write, so a write the channel took still fails the writer when a
    callback left `errno` set, with its bytes on the wire. -/
def drain (w : SoupWriter) (env : WriteEnv) :
    List WriteResult → DrainStep × WriteEnv × List WriteResult
  | [] => if w.write_buf = [] then (.drained w, env, []) else (.try_again w, env, [])
  | .again :: writes =>
    if w.write_buf = [] then (.drained w, env, .again :: writes) else (.try_again w, env, writes)
  | .error :: writes =>
    if w.write_buf = [] then (.drained w, env, .error :: writes) else (.failed w, env, writes)
  | .ok n :: writes =>
    if w.write_buf = [] then (.drained w, env, .ok n :: writes)
    else if env.errno ≠ 0 then (.failed w, { env with wire := env.wire ++ w.write_buf.take n }, writes)
    else if n = 0 then (.try_again w, env, writes)
    else
      let (w, env) := wrote w env n
      match remove_block_at_index w.write_buf 0 n with
      | none => (.aborted, env, writes)
      | some buf => drain { w with write_buf := buf } env writes

/-- The end of `soup_transfer_write_cb` and of the writer: `write_done_cb`,
    then `soup_transfer_write_cancel`. -/
def write_done (w : SoupWriter) (env : WriteEnv) : WriterStatus × WriteEnv :=
  (soup_transfer_write_cancel, if w.write_done_cb then env.call .write_done_cb else env)

/-- What `soup_transfer_write_cb` does with the producer's reply: a non-empty
    buffer is framed and `goto WRITE_AGAIN` runs `k`; otherwise it waits
    (`SOUP_TRANSFER_CONTINUE`) or ends the transfer. -/
def after_write_chunk (w : SoupWriter) (env : WriteEnv) (reply : WriteChunkReply)
    (writes : List WriteResult) (replies : List WriteChunkReply)
    (k : SoupWriter → WriteEnv → WriterStatus × WriteEnv × List WriteResult × List WriteChunkReply) :
    WriterStatus × WriteEnv × List WriteResult × List WriteChunkReply :=
  let env := (env.call (.write_chunk_cb reply.buf reply.ret)).setErrno reply.errno
  if reply.buf.getD [] ≠ [] then k (write_chunk w (reply.buf.getD [])) env
  else if reply.ret = .SOUP_TRANSFER_CONTINUE then (.running w, env, writes, replies)
  else
    let (st, env) := write_done (end_chunks w) env
    (st, env, writes, replies)

/-- Leave the drain loop: on an empty buffer `produce` asks the producer when
    there is one, and the transfer is done when there is none. -/
def after_drain (d : DrainStep × WriteEnv × List WriteResult) (replies : List WriteChunkReply)
    (produce : SoupWriter → WriteEnv → List WriteResult →
      WriterStatus × WriteEnv × List WriteResult × List WriteChunkReply) :
    WriterStatus × WriteEnv × List WriteResult × List WriteChunkReply :=
  match d with
  | (.try_again w, env, writes) => (.running w, env, writes, replies)
  | (.failed w, env, writes) =>
    let (st, env) := soup_transfer_write_error_cb w env
    (st, env, writes, replies)
  | (.aborted, env, writes) => (.aborted, env, writes, replies)
  | (.drained w, env, writes) =>
    if w.write_chunk_cb then produce w env writes
    else
      let (st, env) := write_done w env
      (st, env, writes, replies)

/-- `soup_transfer_write_cb` from the label `WRITE_AGAIN`; `replies` are the
    producer's next replies. -/
def write_again (w : SoupWriter) (env : WriteEnv) (writes : List WriteResult) :
    List WriteChunkReply → WriterStatus × WriteEnv × List WriteResult × List WriteChunkReply
  | [] =>
    -- the initial reply has no buffer, so the continuation is never run
    after_drain (drain w env writes) [] fun w env writes =>
      after_write_chunk w env .initial writes [] fun w env => (.running w, env, writes, [])
  | reply :: replies =>
    after_drain (drain w env writes) (reply :: replies) fun w env writes =>
      after_write_chunk w env reply writes replies fun w env => write_again w env writes replies

/-- `soup_transfer_write_cb`: the handler of the `G_IO_OUT` watch. -/
def soup_transfer_write_cb (w : SoupWriter) (env : WriteEnv) (writes : List WriteResult)
    (replies : List WriteChunkReply) :
    WriterStatus × WriteEnv × List WriteResult × List WriteChunkReply :=
  write_again w { env with errno := 0 } writes replies

/-- `soup_transfer_write`: a new writer with the header and the initial body
    staged and the producer asked once; its two watches are then armed. -/
def soup_transfer_write (header src : Option (List UInt8)) (encoding : SoupTransferEncoding)
    (headers_done_cb write_chunk_cb write_done_cb error_cb : Bool) (env : WriteEnv)
    (replies : List WriteChunkReply) : SoupWriter × WriteEnv × List WriteChunkReply :=
  let w : SoupWriter := ⟨encoding, [], 0, false, 0, headers_done_cb, write_chunk_cb,
    write_done_cb, error_cb⟩
  let w := if header.getD [] ≠ [] then
      { w with
        write_buf := w.write_buf ++ header.getD []
        header_len := (header.getD []).length }
    else w
  let w := if src.getD [] ≠ [] then write_chunk w (src.getD []) else w
  if write_chunk_cb then
    let (reply, replies) := nextWriteChunkReply replies
    let env := (env.call (.write_chunk_cb reply.buf reply.ret)).setErrno reply.errno
    let w := if reply.buf.getD [] ≠ [] then write_chunk w (reply.buf.getD []) else w
    if reply.ret = .SOUP_TRANSFER_END then (end_chunks { w with write_chunk_cb := false }, env, replies)
    else (w, env, replies)
  else (w, env, replies)

/-- The writer under the event loop; once it is freed, or the process has
    aborted, nothing runs. -/
def writerRun : WriterStatus → WriteEnv → List WriteResult → List WriteChunkReply →
    List WriteEvent → WriterStatus × WriteEnv × List WriteResult × List WriteChunkReply
  | .running w, env, writes, replies, .G_IO_OUT :: events =>
    let (st, env, writes, replies) := soup_transfer_write_cb w env writes replies
    writerRun st env writes replies events
  | .running w, env, writes, replies, .G_IO_HUP :: events =>
    let (st, env) := soup_transfer_write_error_cb w env
    writerRun st env writes replies events
  | st, env, writes, replies, _ => (st, env, writes, replies)

/-- A writer made by `soup_transfer_write` in a world where nothing has been
    called or written yet, then driven by the event loop. -/
def writerSession (header src : Option (List UInt8)) (encoding : SoupTransferEncoding)
    (headers_done_cb write_chunk_cb write_done_cb error_cb : Bool) (headersErrno : List (Option Nat))
    (replies : List WriteChunkReply) (writes : List WriteResult) (events : List WriteEvent) :
    WriterStatus × WriteEnv × List WriteResult × List WriteChunkReply :=
  let c := soup_transfer_write header src encoding headers_done_cb write_chunk_cb write_done_cb
    error_cb ⟨headersErrno, 0, [], []⟩ replies
  writerRun (.running c.1) c.2.1 writes c.2.2 events

end libsoup.transfer
