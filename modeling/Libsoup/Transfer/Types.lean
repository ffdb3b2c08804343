import Libsoup.Bytes

namespace libsoup.transfer

/-- Modelled from the spec: `SoupTransferEncoding`, declared in
    `soup-transfer.h`, which is not under src/: the three framings of a body. -/
inductive SoupTransferEncoding
  | SOUP_TRANSFER_UNKNOWN
  | SOUP_TRANSFER_CHUNKED
  | SOUP_TRANSFER_CONTENT_LENGTH
  deriving DecidableEq, Repr

/-- Modelled from the spec: the verdict of a callback, `SoupTransferDone` for
    the reader and `SoupTransferStatus` for the writer, declared in
    `soup-transfer.h` with the same two values. -/
inductive SoupTransferDone
  | SOUP_TRANSFER_CONTINUE
  | SOUP_TRANSFER_END
  deriving DecidableEq, Repr

structure SoupTransferChunkState where
  len : Nat
  idx : Nat
  deriving DecidableEq, Repr

/-- The fields of `SoupReader` that the read path uses. A callback field is
    `true` when the function pointer is not `NULL`. -/
structure SoupReader where
  callback_issued : Bool
  recv_buf : List UInt8
  header_len : Nat
  overwrite_chunks : Bool
  encoding : SoupTransferEncoding
  content_length : UInt32
  chunk_state : SoupTransferChunkState
  headers_done_cb : Bool
  read_chunk_cb : Bool
  read_done_cb : Bool
  error_cb : Bool
  deriving DecidableEq, Repr

/-- The reader once a handler has returned: still watched, freed by
    `soup_transfer_read_cancel` (whose `g_byte_array_free` frees the buffer's
    contents when `free_segment`), or gone because a `g_assert` failed. -/
inductive ReaderStatus
  | running (r : SoupReader)
  | freed (free_segment : Bool)
  | aborted
  deriving DecidableEq, Repr

/-- One `g_io_channel_read`: `G_IO_ERROR_NONE` with the bytes read (none at the
    end of the stream), `G_IO_ERROR_AGAIN`, or any other `GIOError`. -/
inductive ReadResult
  | ok (bytes : List UInt8)
  | again
  | error
  deriving DecidableEq, Repr

/-- The watch that fires: `G_IO_IN`, or the one on `G_IO_HUP | G_IO_ERR | G_IO_NVAL`. -/
inductive ReadEvent
  | G_IO_IN
  | G_IO_HUP
  deriving DecidableEq, Repr

/-- What `headers_done_cb` returns and stores through its `&r->encoding` and
    `&r->content_length` arguments. -/
structure HeadersReply where
  ret : SoupTransferDone
  encoding : SoupTransferEncoding
  content_length : UInt32
  deriving DecidableEq, Repr

/-- A call of the reader into the application, with the data it passes and the
    verdict it gets back. -/
inductive ReadCall
  | headers_done_cb (str : List UInt8) (ret : SoupTransferDone)
  | read_chunk_cb (buf : List UInt8) (ret : SoupTransferDone)
  | read_done_cb (buf : List UInt8)
  | error_cb (body_started : Bool)
  deriving DecidableEq, Repr

/-- The application as the reader sees it: the replies of its callbacks, in
    order, and the calls made so far. A callback whose replies have run out returns
    `SOUP_TRANSFER_CONTINUE` and stores nothing new. -/
structure ReadEnv where
  headersReplies : List HeadersReply
  chunkReplies : List SoupTransferDone
  calls : List ReadCall
  deriving DecidableEq, Repr

namespace ReadEnv

def call (env : ReadEnv) (c : ReadCall) : ReadEnv := { env with calls := env.calls ++ [c] }

def nextHeadersReply (env : ReadEnv) : HeadersReply × ReadEnv :=
  match env.headersReplies with
  | [] => (⟨.SOUP_TRANSFER_CONTINUE, .SOUP_TRANSFER_UNKNOWN, 0⟩, env)
  | reply :: rest => (reply, { env with headersReplies := rest })

def nextChunkReply (env : ReadEnv) : SoupTransferDone × ReadEnv :=
  match env.chunkReplies with
  | [] => (.SOUP_TRANSFER_CONTINUE, env)
  | reply :: rest => (reply, { env with chunkReplies := rest })

@[simp] theorem call_calls (env : ReadEnv) (c : ReadCall) : (env.call c).calls = env.calls ++ [c] := rfl

@[simp] theorem nextHeadersReply_calls (env : ReadEnv) : env.nextHeadersReply.2.calls = env.calls := by
  unfold nextHeadersReply; split <;> rfl

@[simp] theorem nextChunkReply_calls (env : ReadEnv) : env.nextChunkReply.2.calls = env.calls := by
  unfold nextChunkReply; split <;> rfl

@[simp] theorem nextHeadersReply_chunkReplies (env : ReadEnv) :
    env.nextHeadersReply.2.chunkReplies = env.chunkReplies := by
  unfold nextHeadersReply; split <;> rfl

@[simp] theorem call_chunkReplies (env : ReadEnv) (c : ReadCall) :
    (env.call c).chunkReplies = env.chunkReplies := rfl

/-- While every queued chunk reply is `SOUP_TRANSFER_CONTINUE`, so is the next
    one, and so are those left after it. -/
theorem nextChunkReply_continue {env : ReadEnv}
    (h : ∀ c ∈ env.chunkReplies, c = .SOUP_TRANSFER_CONTINUE) :
    env.nextChunkReply.1 = .SOUP_TRANSFER_CONTINUE ∧
      ∀ c ∈ env.nextChunkReply.2.chunkReplies, c = .SOUP_TRANSFER_CONTINUE := by
  unfold nextChunkReply
  split
  · exact ⟨rfl, h⟩
  · rename_i reply rest hreplies
    rw [hreplies] at h
    exact ⟨h reply (List.mem_cons_self _ _), fun c hc => h c (List.mem_cons_of_mem _ hc)⟩

end ReadEnv

end libsoup.transfer
