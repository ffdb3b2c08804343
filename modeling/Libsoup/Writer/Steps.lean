import Libsoup.Transfer.Write

namespace libsoup.transfer

theorem write_chunk_sep_eq (arr : List UInt8) (len : Nat) (first_chunk : Bool) :
    write_chunk_sep arr len first_chunk = arr ++ write_chunk_sep [] len first_chunk := by
  unfold write_chunk_sep; split_ifs <;> simp

/-- `write_chunk` appends the chunk, after its separator in chunked mode, and
    counts it there. -/
theorem write_chunk_eq (w : SoupWriter) (buf : List UInt8) :
    write_chunk w buf =
      { w with
        write_buf := w.write_buf ++ ((if w.encoding = .SOUP_TRANSFER_CHUNKED then
          write_chunk_sep [] buf.length (w.chunk_cnt ≠ 0) else []) ++ buf)
        chunk_cnt := if w.encoding = .SOUP_TRANSFER_CHUNKED then w.chunk_cnt + 1 else w.chunk_cnt } := by
  unfold write_chunk; split_ifs <;> simp [write_chunk_sep_eq w.write_buf]

/-- `end_chunks` appends the terminating chunk in chunked mode. -/
theorem end_chunks_eq (w : SoupWriter) :
    end_chunks w =
      { w with
        write_buf := w.write_buf ++
          (if w.encoding = .SOUP_TRANSFER_CHUNKED then bytesOf "\r\n0\r\n" else []) } := by
  unfold end_chunks; split_ifs <;> simp [write_chunk_sep]

/-- A write of `n` bytes sets `headers_done` once the whole header fits in it. -/
theorem wrote_fst (w : SoupWriter) (env : WriteEnv) (n : Nat) :
    (wrote w env n).1 = { w with headers_done := w.headers_done || decide (w.header_len ≤ n) } := by
  unfold wrote
  cases w with
  | mk _ _ _ headers_done =>
    cases headers_done <;> split_ifs <;> simp_all

theorem wrote_calls (w : SoupWriter) (env : WriteEnv) (n : Nat) :
    (wrote w env n).2.calls = env.calls ++
      if w.headers_done = false ∧ w.header_len ≤ n ∧ w.headers_done_cb then [.headers_done_cb] else [] := by
  unfold wrote
  by_cases hcb : w.headers_done_cb <;> split_ifs <;> simp_all

@[simp] theorem wrote_write_buf (w : SoupWriter) (env : WriteEnv) (n : Nat) :
    (wrote w env n).1.write_buf = w.write_buf := by
  unfold wrote; split_ifs <;> rfl

@[simp] theorem wrote_wire (w : SoupWriter) (env : WriteEnv) (n : Nat) :
    (wrote w env n).2.wire = env.wire ++ w.write_buf.take n := by
  unfold wrote; split_ifs <;> simp

@[simp] theorem write_done_wire (w : SoupWriter) (env : WriteEnv) :
    (write_done w env).2.wire = env.wire := by
  unfold write_done; split_ifs <;> rfl

@[simp] theorem write_done_calls (w : SoupWriter) (env : WriteEnv) :
    (write_done w env).2.calls = env.calls ++ if w.write_done_cb then [.write_done_cb] else [] := by
  unfold write_done; split_ifs <;> simp

@[simp] theorem soup_transfer_write_error_cb_wire (w : SoupWriter) (env : WriteEnv) :
    (soup_transfer_write_error_cb w env).2.wire = env.wire := by
  unfold soup_transfer_write_error_cb; split_ifs <;> rfl

@[simp] theorem soup_transfer_write_error_cb_calls (w : SoupWriter) (env : WriteEnv) :
    (soup_transfer_write_error_cb w env).2.calls =
      env.calls ++ if w.error_cb then [.error_cb w.headers_done] else [] := by
  unfold soup_transfer_write_error_cb; split_ifs <;> simp

theorem remove_block_at_index_zero {arr : List UInt8} {n : Nat} (hn : n ≠ 0) :
    remove_block_at_index arr 0 n = if n ≤ arr.length then some (arr.drop n) else none := by
  split_ifs with hle
  · simpa using @remove_block_at_index_of_le arr 0 n hn (by simpa using hle)
  · exact remove_block_at_index_of_lt hn (by omega)

/-- A buffer as the pieces `write_chunk` is given: none when it is empty, since
    both `soup_transfer_write` and `soup_transfer_write_cb` skip empty buffers. -/
def pieceOf (buf : List UInt8) : List (List UInt8) := if buf = [] then [] else [buf]

@[simp] theorem flatten_pieceOf (buf : List UInt8) : (pieceOf buf).flatten = buf := by
  unfold pieceOf; split_ifs with h <;> simp [h]

/-- What `write_chunk` appends for the piece `buf` as the chunk numbered `i`. -/
def chunkBytes (encoding : SoupTransferEncoding) (i : Nat) (buf : List UInt8) : List UInt8 :=
  (if encoding = .SOUP_TRANSFER_CHUNKED then write_chunk_sep [] buf.length (i ≠ 0) else []) ++ buf

/-- The bytes `write_chunk` stages for the pieces `ps`, numbered from `i`. -/
def framed (encoding : SoupTransferEncoding) : Nat → List (List UInt8) → List UInt8
  | _, [] => []
  | i, p :: ps => chunkBytes encoding i p ++ framed encoding (i + 1) ps

theorem framed_append (encoding : SoupTransferEncoding) (i : Nat) (ps qs : List (List UInt8)) :
    framed encoding i (ps ++ qs) = framed encoding i ps ++ framed encoding (i + ps.length) qs := by
  induction ps generalizing i with
  | nil => rfl
  | cons p ps ih => simp [framed, ih, Nat.add_right_comm i 1, Nat.add_assoc]

theorem framed_pieceOf (encoding : SoupTransferEncoding) (i : Nat) (buf : List UInt8) :
    framed encoding i (pieceOf buf) = if buf = [] then [] else chunkBytes encoding i buf := by
  unfold pieceOf; split_ifs <;> simp [framed]

theorem chunkBytes_congr {encoding : SoupTransferEncoding} {i j : Nat}
    (h : encoding = .SOUP_TRANSFER_CHUNKED → i = j) (buf : List UInt8) :
    chunkBytes encoding i buf = chunkBytes encoding j buf := by
  unfold chunkBytes
  split_ifs with hc
  · rw [h hc]
  · rfl

/-- Without chunked framing the pieces are staged as they are. -/
theorem framed_eq_flatten {encoding : SoupTransferEncoding} (h : encoding ≠ .SOUP_TRANSFER_CHUNKED)
    (i : Nat) (ps : List (List UInt8)) : framed encoding i ps = ps.flatten := by
  induction ps generalizing i with
  | nil => rfl
  | cons p ps ih => simp [framed, chunkBytes, h, ih]

/-- Chunk numbers matter only to chunked framing. -/
theorem framed_congr {encoding : SoupTransferEncoding} {i j : Nat}
    (h : encoding = .SOUP_TRANSFER_CHUNKED → i = j) (ps : List (List UInt8)) :
    framed encoding i ps = framed encoding j ps := by
  induction ps generalizing i j with
  | nil => rfl
  | cons p ps ih =>
    simp only [framed]
    rw [chunkBytes_congr h, ih fun hc => by rw [h hc]]

/-- Chunked framing puts at least two bytes before every piece. -/
theorem chunkBytes_chunked_length (i : Nat) (buf : List UInt8) :
    buf.length + 2 ≤ (chunkBytes .SOUP_TRANSFER_CHUNKED i buf).length := by
  have hend : (bytesOf "\r\n0\r\n").length = 5 := rfl
  simp only [chunkBytes, if_true, write_chunk_sep, List.nil_append]
  split_ifs <;> simp [hend] <;> omega

theorem framed_chunked_length (i : Nat) (ps : List (List UInt8)) :
    ps.flatten.length + 2 * ps.length ≤ (framed .SOUP_TRANSFER_CHUNKED i ps).length := by
  induction ps generalizing i with
  | nil => simp [framed]
  | cons p ps ih =>
    have hp := chunkBytes_chunked_length i p
    have hps := ih (i + 1)
    simp only [framed, List.flatten_cons, List.length_append, List.length_cons]
    omega

/-- The first chunk is numbered 0, which `write_chunk_sep` takes for "not the
    first chunk": its framing starts with the CRLF meant to end a chunk before
    it. -/
theorem chunkBytes_chunked_zero (buf : List UInt8) :
    ∃ Y, chunkBytes .SOUP_TRANSFER_CHUNKED 0 buf = bytesOf "\r\n" ++ Y := by
  by_cases hb : buf.length = 0
  · exact ⟨bytesOf "0\r\n" ++ buf, by simp only [chunkBytes, write_chunk_sep, hb]; rfl⟩
  · exact ⟨printfHex buf.length ++ bytesOf "\r\n" ++ buf, by simp [chunkBytes, write_chunk_sep, hb]⟩

theorem write_chunk_if (w : SoupWriter) (buf : List UInt8) :
    (if buf ≠ [] then write_chunk w buf else w) =
      { w with
        write_buf := w.write_buf ++ framed w.encoding w.chunk_cnt (pieceOf buf)
        chunk_cnt := if w.encoding = .SOUP_TRANSFER_CHUNKED then w.chunk_cnt + (pieceOf buf).length
          else w.chunk_cnt } := by
  by_cases hb : buf = []
  · cases w; simp [hb, pieceOf, framed]
  · simp [hb, pieceOf, framed, write_chunk_eq, chunkBytes]

/-- A new writer: the header, then the initial body and the producer's first
    buffer as pieces, and the terminating chunk when the producer ended at
    once; the producer is dropped then. -/
theorem soup_transfer_write_eq (header src : Option (List UInt8)) (encoding : SoupTransferEncoding)
    (headers_done_cb write_chunk_cb write_done_cb error_cb : Bool) (env : WriteEnv)
    (replies : List WriteChunkReply) :
    let reply := (nextWriteChunkReply replies).1
    let pieces := pieceOf (src.getD []) ++ if write_chunk_cb then pieceOf (reply.buf.getD []) else []
    let ended := write_chunk_cb ∧ reply.ret = .SOUP_TRANSFER_END
    soup_transfer_write header src encoding headers_done_cb write_chunk_cb write_done_cb error_cb
        env replies =
      ({ encoding
         write_buf := header.getD [] ++ framed encoding 0 pieces ++
           if ended ∧ encoding = .SOUP_TRANSFER_CHUNKED then bytesOf "\r\n0\r\n" else []
         header_len := (header.getD []).length
         headers_done := false
         chunk_cnt := if encoding = .SOUP_TRANSFER_CHUNKED then pieces.length else 0
         headers_done_cb
         write_chunk_cb := write_chunk_cb && !decide (reply.ret = .SOUP_TRANSFER_END)
         write_done_cb
         error_cb },
        if write_chunk_cb then (env.call (.write_chunk_cb reply.buf reply.ret)).setErrno reply.errno
        else env,
        if write_chunk_cb then (nextWriteChunkReply replies).2 else replies) := by
  unfold soup_transfer_write
  dsimp only
  simp only [write_chunk_if]
  by_cases hc : encoding = .SOUP_TRANSFER_CHUNKED <;>
    by_cases hH : header.getD [] = [] <;> cases write_chunk_cb <;>
    simp [hH, hc, end_chunks_eq, framed_append, framed_eq_flatten] <;> split_ifs <;> simp_all

section Lifting

variable (Inv : SoupWriter → WriteEnv → Prop) (Done : WriterStatus → WriteEnv → Prop)

/-- `Inv` for a watched writer, `Done` once it is freed or the process has
    aborted. -/
def WStatusInv : WriterStatus → WriteEnv → Prop
  | .running w, env => Inv w env
  | st, env => Done st env

/-- The steps of the write handler that an invariant `Inv` of a watched writer
    and its world has to survive, and what holds when the writer ends: a write
    that the channel accepted, a failed write or a hangup (after the channel took
    the bytes `k` of a write made with `errno` set), the producer's reply on
    a drained buffer, and the end of a transfer without producer. -/
structure WriteSteps : Prop where
  wrote : ∀ w env n, Inv w env → w.write_buf ≠ [] → env.errno = 0 → n ≠ 0 →
    (n ≤ w.write_buf.length →
      Inv { (wrote w env n).1 with write_buf := w.write_buf.drop n } (wrote w env n).2) ∧
    (w.write_buf.length < n → Done .aborted (wrote w env n).2)
  failed : ∀ w env (k : List UInt8), Inv w env → k <+: w.write_buf →
    Done .freed (soup_transfer_write_error_cb w { env with wire := env.wire ++ k }).2
  produced : ∀ w env (reply : WriteChunkReply), Inv w env → w.write_buf = [] → w.write_chunk_cb →
    let env' := (env.call (.write_chunk_cb reply.buf reply.ret)).setErrno reply.errno
    (reply.buf.getD [] ≠ [] → Inv (write_chunk w (reply.buf.getD [])) env') ∧
    (reply.buf.getD [] = [] → reply.ret = .SOUP_TRANSFER_CONTINUE → Inv w env') ∧
    (reply.buf.getD [] = [] → reply.ret = .SOUP_TRANSFER_END → Done .freed (write_done (end_chunks w) env').2)
  finished : ∀ w env, Inv w env → w.write_buf = [] → w.write_chunk_cb = false →
    Done .freed (write_done w env).2
  start : ∀ w env, Inv w env → Inv w { env with errno := 0 }

/-- What `Inv` says of the writer when the drain loop ends. -/
def DrainHolds : DrainStep × WriteEnv × List WriteResult → Prop
  | (.drained w, env, _) => Inv w env ∧ w.write_buf = []
  | (.try_again w, env, _) => Inv w env
  | (.failed w, env, _) => Done .freed (soup_transfer_write_error_cb w env).2
  | (.aborted, env, _) => Done .aborted env

variable {Inv Done}

theorem drain_holds (hsteps : WriteSteps Inv Done) :
    ∀ (writes : List WriteResult) (w : SoupWriter) (env : WriteEnv), Inv w env →
    DrainHolds Inv Done (drain w env writes)
  | [], w, env, h => by
    unfold drain
    split_ifs with hbuf
    exacts [⟨h, hbuf⟩, h]
  | .again :: _, w, env, h => by
    unfold drain
    split_ifs with hbuf
    exacts [⟨h, hbuf⟩, h]
  | .error :: _, w, env, h => by
    unfold drain
    split_ifs with hbuf
    exacts [⟨h, hbuf⟩, by simpa using hsteps.failed w env [] h (List.nil_prefix)]
  | .ok n :: writes, w, env, h => by
    unfold drain
    split_ifs with hbuf herrno hn
    · exact ⟨h, hbuf⟩
    · exact hsteps.failed w env _ h (List.take_prefix n _)
    · exact h
    · obtain ⟨hok, habort⟩ := hsteps.wrote w env n h hbuf (by simpa using herrno) hn
      dsimp only
      rw [wrote_write_buf, remove_block_at_index_zero hn]
      split_ifs with hle
      · exact drain_holds hsteps writes _ _ (hok hle)
      · exact habort (by omega)

theorem after_drain_holds (hsteps : WriteSteps Inv Done) {d : DrainStep × WriteEnv × List WriteResult}
    (hd : DrainHolds Inv Done d) (replies : List WriteChunkReply)
    {produce : SoupWriter → WriteEnv → List WriteResult →
      WriterStatus × WriteEnv × List WriteResult × List WriteChunkReply}
    (hproduce : ∀ w env writes, Inv w env → w.write_buf = [] → w.write_chunk_cb →
      WStatusInv Inv Done (produce w env writes).1 (produce w env writes).2.1) :
    WStatusInv Inv Done (after_drain d replies produce).1 (after_drain d replies produce).2.1 := by
  obtain ⟨w | w | w | _, env, writes⟩ := d
  · obtain ⟨h, hbuf⟩ := hd
    dsimp only [after_drain]
    split_ifs with hcb
    · exact hproduce w env writes h hbuf hcb
    · exact hsteps.finished w env h hbuf (by simpa using hcb)
  · exact hd
  · exact hd
  · exact hd

theorem after_write_chunk_holds (hsteps : WriteSteps Inv Done) {w : SoupWriter} {env : WriteEnv}
    (h : Inv w env) (hbuf : w.write_buf = []) (hcb : w.write_chunk_cb) (reply : WriteChunkReply)
    (writes : List WriteResult) (replies : List WriteChunkReply)
    {k : SoupWriter → WriteEnv → WriterStatus × WriteEnv × List WriteResult × List WriteChunkReply}
    (hk : ∀ w env, Inv w env → WStatusInv Inv Done (k w env).1 (k w env).2.1) :
    WStatusInv Inv Done (after_write_chunk w env reply writes replies k).1
      (after_write_chunk w env reply writes replies k).2.1 := by
  obtain ⟨hmore, hwait, hend⟩ := hsteps.produced w env reply h hbuf hcb
  unfold after_write_chunk
  split_ifs with hne hcont
  · exact hk _ _ (hmore hne)
  · exact hwait (by simpa using hne) hcont
  · exact hend (by simpa using hne) (by cases hret : reply.ret <;> simp_all)

/-- One run of the write handler keeps an invariant that its steps keep. -/
theorem write_again_holds (hsteps : WriteSteps Inv Done) :
    ∀ (replies : List WriteChunkReply) (w : SoupWriter) (env : WriteEnv) (writes : List WriteResult),
    Inv w env → WStatusInv Inv Done (write_again w env writes replies).1
      (write_again w env writes replies).2.1
  | [], w, env, writes, h =>
    after_drain_holds hsteps (drain_holds hsteps writes w env h) []
      fun _ _ _ h hbuf hcb => after_write_chunk_holds hsteps h hbuf hcb _ _ _ fun _ _ h => h
  | _ :: replies, w, env, writes, h =>
    after_drain_holds hsteps (drain_holds hsteps writes w env h) _
      fun _ _ _ h hbuf hcb => after_write_chunk_holds hsteps h hbuf hcb _ _ _
        fun w env h => write_again_holds hsteps replies w env _ h

/-- The writer under the event loop keeps an invariant that the handlers'
    steps keep. -/
theorem writerRun_holds (hsteps : WriteSteps Inv Done) :
    ∀ (events : List WriteEvent) (st : WriterStatus) (env : WriteEnv) (writes : List WriteResult)
      (replies : List WriteChunkReply), WStatusInv Inv Done st env →
    WStatusInv Inv Done (writerRun st env writes replies events).1 (writerRun st env writes replies events).2.1
  | [], st, _, _, _, h => by cases st <;> exact h
  | .G_IO_OUT :: events, .running w, env, writes, replies, h =>
    writerRun_holds hsteps events _ _ _ _ (write_again_holds hsteps replies w _ writes (hsteps.start w env h))
  | .G_IO_HUP :: events, .running w, env, writes, replies, h =>
    writerRun_holds hsteps events _ _ _ _ (by simpa using hsteps.failed w env [] h (List.nil_prefix))
  | _ :: _, .freed, _, _, _, h => h
  | _ :: _, .aborted, _, _, _, h => h

end Lifting

end libsoup.transfer
