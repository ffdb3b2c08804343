import Libsoup.Writer.CallOrder

namespace libsoup.transfer

/-- The non-empty buffers the producer has handed back, in order. -/
@[simp] def produced : List WriteCall → List (List UInt8)
  | [] => []
  | .write_chunk_cb buf _ :: calls => pieceOf (buf.getD []) ++ produced calls
  | _ :: calls => produced calls

@[simp] theorem produced_append (xs ys : List WriteCall) :
    produced (xs ++ ys) = produced xs ++ produced ys := by
  induction xs with
  | nil => rfl
  | cons c xs ih => cases c <;> simp [produced, ih]

section Wire

variable (H : List UInt8) (encoding : SoupTransferEncoding) (S : List (List UInt8))
  (tail : List UInt8)

/-- The bytes a writer owes the channel once the producer has made `calls`:
    the header, the initial body and the producer's buffers as `write_chunk`
    frames them, and what `end_chunks` appended at construction. -/
def expectedWire (calls : List WriteCall) : List UInt8 :=
  H ++ framed encoding 0 (S ++ produced calls) ++ tail

/-- The wire invariant of a watched writer: sent and staged bytes together are
    what it owes, its chunk count numbers the pieces, and `headers_done` and a
    call of `headers_done_cb` mean the header has been sent. -/
structure WireInv (w : SoupWriter) (env : WriteEnv) : Prop where
  same_encoding : w.encoding = encoding
  chunks : encoding = .SOUP_TRANSFER_CHUNKED → w.chunk_cnt = (S ++ produced env.calls).length
  staged : env.wire ++ w.write_buf = expectedWire H encoding S tail env.calls
  tail_nil : w.write_chunk_cb → tail = []
  header_len : w.header_len = H.length
  headers_done : w.headers_done → H.length ≤ env.wire.length
  headers_cb : WriteCall.headers_done_cb ∈ env.calls → H.length ≤ env.wire.length
  not_ended : ∀ c ∈ env.calls, c.ends = false

/-- What the channel has received from a writer in any state: a prefix of what
    it owes, all of it once `write_done_cb` was called, and the whole header
    when `headers_done_cb` was called or `error_cb` was told so. -/
structure WireDone (env : WriteEnv) : Prop where
  sent : env.wire <+: expectedWire H encoding S tail env.calls
  done : WriteCall.write_done_cb ∈ env.calls → env.wire = expectedWire H encoding S tail env.calls
  headers_cb : WriteCall.headers_done_cb ∈ env.calls → H.length ≤ env.wire.length
  error_cb : WriteCall.error_cb true ∈ env.calls → H.length ≤ env.wire.length

variable {H encoding S tail}

theorem WireDone.of_complete {env : WriteEnv}
    (h : env.wire = expectedWire H encoding S tail env.calls) : WireDone H encoding S tail env where
  sent := h ▸ List.prefix_refl _
  done _ := h
  headers_cb _ := by simp [h, expectedWire]
  error_cb _ := by simp [h, expectedWire]

theorem WireInv.wireDone {w : SoupWriter} {env : WriteEnv} (h : WireInv H encoding S tail w env) :
    WireDone H encoding S tail env where
  sent := h.staged ▸ List.prefix_append _ _
  done hd := absurd (h.not_ended _ hd) (by simp [WriteCall.ends])
  headers_cb := h.headers_cb
  error_cb he := absurd (h.not_ended _ he) (by simp [WriteCall.ends])

theorem produced_wrote (w : SoupWriter) (env : WriteEnv) (n : Nat) :
    produced (wrote w env n).2.calls = produced env.calls := by
  rw [wrote_calls]; split_ifs <;> simp

/-- A write the channel accepted moves bytes from the staging buffer to the
    wire and sets `headers_done` only when it carried the whole header. -/
theorem wrote_wireInv {w : SoupWriter} {env : WriteEnv} (h : WireInv H encoding S tail w env)
    {n : Nat} (hn : n ≤ w.write_buf.length) :
    WireInv H encoding S tail { (wrote w env n).1 with write_buf := w.write_buf.drop n }
      (wrote w env n).2 := by
  have hcalls := produced_wrote w env n
  have hwire : (wrote w env n).2.wire.length = env.wire.length + n := by
    simp [hn]
  refine ⟨by simp [wrote_fst, h.same_encoding], by simpa [wrote_fst, hcalls] using h.chunks, ?_,
    by simpa [wrote_fst] using h.tail_nil, by simpa [wrote_fst] using h.header_len, ?_, ?_, ?_⟩
  · simpa [expectedWire, hcalls] using h.staged
  · simp only [wrote_fst, Bool.or_eq_true, decide_eq_true_eq, hwire]
    rintro (hd | hle)
    · exact (h.headers_done hd).trans (Nat.le_add_right _ _)
    · have := h.header_len; omega
  · rw [wrote_calls, hwire]
    split_ifs with hnew
    · simp only [List.mem_append, List.mem_singleton]
      rintro (hd | -)
      · exact (h.headers_cb hd).trans (Nat.le_add_right _ _)
      · have := h.header_len; omega
    · simpa using fun hd => (h.headers_cb hd).trans (Nat.le_add_right _ _)
  · rw [wrote_calls]
    split_ifs
    · exact List.forall_mem_append.2 ⟨h.not_ended, by simp [WriteCall.ends]⟩
    · simpa using h.not_ended

/-- The producer's reply on a drained buffer: a non-empty buffer is staged as
    the next piece. -/
theorem WireInv.produce {w : SoupWriter} {env : WriteEnv} (h : WireInv H encoding S tail w env)
    (hbuf : w.write_buf = []) (hcb : w.write_chunk_cb) (reply : WriteChunkReply) :
    WireInv H encoding S tail (if reply.buf.getD [] ≠ [] then write_chunk w (reply.buf.getD []) else w)
      ((env.call (.write_chunk_cb reply.buf reply.ret)).setErrno reply.errno) := by
  have htail := h.tail_nil hcb
  have hwire : env.wire = H ++ framed encoding 0 (S ++ produced env.calls) := by
    simpa [hbuf, htail, expectedWire] using h.staged
  rw [write_chunk_if]
  refine ⟨h.same_encoding, fun hc => ?_, ?_, h.tail_nil, h.header_len,
    fun hd => by simpa using h.headers_done hd, ?_, ?_⟩
  · simp [h.same_encoding, hc, h.chunks hc, Nat.add_assoc]
  · rw [expectedWire, WriteEnv.setErrno_wire, WriteEnv.call_wire, hwire, hbuf, htail, h.same_encoding]
    simp only [WriteEnv.setErrno_calls, WriteEnv.call_calls, produced_append, produced,
      List.nil_append, List.append_nil, ← List.append_assoc, framed_append]
    rw [framed_congr (j := (S ++ produced env.calls).length) h.chunks]
    simp
  · simpa using h.headers_cb
  · simp only [WriteEnv.setErrno_calls, WriteEnv.call_calls]
    exact List.forall_mem_append.2 ⟨h.not_ended, by simp [WriteCall.ends]⟩

/-- A writer whose buffer is drained, whatever the producer said last, has
    put on the wire all it owes. -/
theorem WireInv.complete {w : SoupWriter} {env env' : WriteEnv} (h : WireInv H encoding S tail w env)
    (hbuf : w.write_buf = []) (hwire : env'.wire = env.wire)
    (hcalls : produced env'.calls = produced env.calls) : WireDone H encoding S tail env' :=
  WireDone.of_complete (by rw [hwire, expectedWire, hcalls, ← expectedWire, ← h.staged, hbuf,
    List.append_nil])

/-- The steps of the write handler keep the wire invariant. -/
theorem wireInv_steps :
    WriteSteps (WireInv H encoding S tail) (fun _ env => WireDone H encoding S tail env) where
  wrote w env n h _ _ _ := by
    refine ⟨wrote_wireInv h, fun hlt => WireDone.of_complete ?_⟩
    rw [wrote_wire, List.take_of_length_le hlt.le, expectedWire, produced_wrote]
    exact h.staged
  failed w env k h hk := by
    let env' : WriteEnv := { env with wire := env.wire ++ k }
    have hcalls : produced (soup_transfer_write_error_cb w env').2.calls = produced env.calls := by
      simp [env', apply_ite produced]
    have hlen : env.wire.length ≤ env'.wire.length := by simp [env']
    refine ⟨?_, fun hd => ?_, fun hd => ?_, fun he => ?_⟩
    · rw [soup_transfer_write_error_cb_wire, expectedWire, hcalls, ← expectedWire, ← h.staged]
      exact (List.prefix_append_right_inj _).2 hk
    · exact absurd (h.not_ended _ (by simpa [env'] using hd)) (by simp [WriteCall.ends])
    · simpa using (h.headers_cb (by simpa [env'] using hd)).trans hlen
    · simp only [soup_transfer_write_error_cb_calls, List.mem_append, List.mem_ite_nil_right,
        List.mem_singleton, WriteCall.error_cb.injEq, env'] at he
      rcases he with he | ⟨-, he⟩
      · exact absurd (h.not_ended _ he) (by simp [WriteCall.ends])
      · simpa using (h.headers_done he.symm).trans hlen
  produced w env reply h hbuf hcb := by
    have hstep := h.produce hbuf hcb reply
    refine ⟨fun hne => by simpa [hne] using hstep, fun hnil _ => by simpa [hnil] using hstep,
      fun hnil _ => h.complete hbuf (by simp)
      (by simp [hnil, pieceOf, apply_ite produced])⟩
  finished w env h hbuf _ := h.complete hbuf (by simp) (by simp [apply_ite produced])
  start _ _ h := { h with }

/-- A new writer starts with the wire invariant: nothing is on the wire yet,
    and the terminating chunk is staged when the producer ended at once. -/
theorem soup_transfer_write_wireInv (header src : Option (List UInt8))
    (encoding : SoupTransferEncoding) (headers_done_cb write_chunk_cb write_done_cb error_cb : Bool)
    (env : WriteEnv) (replies : List WriteChunkReply) (hcalls : env.calls = []) (hwire : env.wire = []) :
    let c := soup_transfer_write header src encoding headers_done_cb write_chunk_cb write_done_cb
      error_cb env replies
    WireInv (header.getD []) encoding (pieceOf (src.getD []))
      (if write_chunk_cb ∧ (nextWriteChunkReply replies).1.ret = .SOUP_TRANSFER_END ∧
        encoding = .SOUP_TRANSFER_CHUNKED then bytesOf "\r\n0\r\n" else []) c.1 c.2.1 := by
  show WireInv _ _ _ _ (soup_transfer_write _ _ _ _ _ _ _ _ _).1 (soup_transfer_write _ _ _ _ _ _ _ _ _).2.1
  rw [soup_transfer_write_eq]
  cases write_chunk_cb <;>
    exact ⟨rfl, fun hc => by simp [hc, hcalls], by simp [expectedWire, hcalls, hwire],
      fun h => by simp_all, rfl, by simp, by simp [hcalls], by simp [hcalls, WriteCall.ends]⟩

theorem wireDone_of_statusInv {st : WriterStatus} {env : WriteEnv}
    (h : WStatusInv (WireInv H encoding S tail) (fun _ env => WireDone H encoding S tail env) st env) :
    WireDone H encoding S tail env := by
  cases st with
  | running w => exact h.wireDone
  | freed => exact h
  | aborted => exact h

end Wire

/-- A writer that has called `write_done_cb` has put on the wire its header,
    then its initial body and the producer's non-empty buffers as
    `write_chunk` frames them, then the terminating chunk when the producer
    ended at construction under chunked framing. -/
theorem writerSession_wire_expected {H : List UInt8} (src : Option (List UInt8))
    (encoding : SoupTransferEncoding) (headers_done_cb write_chunk_cb write_done_cb error_cb : Bool)
    (headersErrno : List (Option Nat)) (replies : List WriteChunkReply) (writes : List WriteResult)
    (events : List WriteEvent)
    (hdone : .write_done_cb ∈ (writerSession (some H) src encoding headers_done_cb write_chunk_cb
      write_done_cb error_cb headersErrno replies writes events).2.1.calls) :
    (writerSession (some H) src encoding headers_done_cb write_chunk_cb write_done_cb error_cb headersErrno
        replies writes events).2.1.wire =
      H ++ framed encoding 0 (pieceOf (src.getD []) ++ produced (writerSession (some H) src encoding
        headers_done_cb write_chunk_cb write_done_cb error_cb headersErrno replies writes events).2.1.calls) ++
      if write_chunk_cb ∧ (nextWriteChunkReply replies).1.ret = .SOUP_TRANSFER_END ∧
        encoding = .SOUP_TRANSFER_CHUNKED then bytesOf "\r\n0\r\n" else [] := by
  have hwireDone : WireDone H encoding (pieceOf (src.getD [])) _
      (writerSession (some H) src encoding headers_done_cb write_chunk_cb write_done_cb error_cb
        headersErrno replies writes events).2.1 :=
    wireDone_of_statusInv (writerRun_holds wireInv_steps events _ _ writes _
      (soup_transfer_write_wireInv (some H) src _ _ _ _ _ _ replies rfl rfl))
  exact hwireDone.done hdone

/-- A writer whose framing is not chunked, once it has called
    `write_done_cb`, has put on the wire its header and then its body: the
    initial body and the producer's non-empty buffers, unframed. -/
theorem writerSession_wire_done {H : List UInt8} (src : Option (List UInt8)) {encoding : SoupTransferEncoding}
    (henc : encoding ≠ .SOUP_TRANSFER_CHUNKED) (headers_done_cb write_chunk_cb write_done_cb error_cb : Bool)
    (headersErrno : List (Option Nat)) (replies : List WriteChunkReply) (writes : List WriteResult)
    (events : List WriteEvent)
    (hdone : .write_done_cb ∈ (writerSession (some H) src encoding headers_done_cb write_chunk_cb
      write_done_cb error_cb headersErrno replies writes events).2.1.calls) :
    (writerSession (some H) src encoding headers_done_cb write_chunk_cb write_done_cb error_cb headersErrno
        replies writes events).2.1.wire =
      H ++ (src.getD [] ++ (produced (writerSession (some H) src encoding headers_done_cb write_chunk_cb
        write_done_cb error_cb headersErrno replies writes events).2.1.calls).flatten) := by
  rw [writerSession_wire_expected src encoding _ _ _ _ _ _ _ _ hdone, framed_eq_flatten henc]
  simp [henc]

/-- Under any interleaving of the two watches, any channel results and any
    producer replies, the channel has received a prefix of the header followed
    by the initial body and the producer's non-empty buffers as `write_chunk`
    frames them, and of the terminating chunk when the producer ended at
    construction; all of it once `write_done_cb` is called; and the whole
    header when `headers_done_cb` is called or `error_cb` is told so. -/
theorem writerRun_wire (header src : Option (List UInt8)) (encoding : SoupTransferEncoding)
    (headers_done_cb write_chunk_cb write_done_cb error_cb : Bool) (headersErrno : List (Option Nat))
    (replies : List WriteChunkReply) (writes : List WriteResult) (events : List WriteEvent) :
    let tail := if write_chunk_cb ∧ (nextWriteChunkReply replies).1.ret = .SOUP_TRANSFER_END ∧
      encoding = .SOUP_TRANSFER_CHUNKED then bytesOf "\r\n0\r\n" else []
    WireDone (header.getD []) encoding (pieceOf (src.getD [])) tail
      (writerSession header src encoding headers_done_cb write_chunk_cb write_done_cb error_cb
        headersErrno replies writes events).2.1 :=
  wireDone_of_statusInv (writerRun_holds wireInv_steps events _ _ writes _
    (soup_transfer_write_wireInv header src encoding _ _ _ _ _ replies rfl rfl))

/-- A chunked body "hi" from a producer that then gives the initial reply:
    the only chunk goes out with a leading CRLF and without its trailing one,
    and the terminating chunk never reaches the wire. -/
theorem writerRun_chunked_unterminated :
    (writerSession (some (bytesOf "H\r\n\r\n")) none .SOUP_TRANSFER_CHUNKED true true true true []
      [⟨some (bytesOf "hi"), .SOUP_TRANSFER_CONTINUE, none⟩] [.ok 12] [.G_IO_OUT]).2.1 =
      ⟨[], 0, [.write_chunk_cb (some (bytesOf "hi")) .SOUP_TRANSFER_CONTINUE, .headers_done_cb,
        .write_chunk_cb none .SOUP_TRANSFER_END, .write_done_cb],
        bytesOf "H\r\n\r\n\r\n2\r\nhi"⟩ := by
  decide

/-- A 9-byte header sent as 4 and then 5 bytes: `headers_done_cb` is never
    called, and a failed write after it tells `error_cb` the header was not
    sent. -/
theorem writerRun_header_in_two_writes :
    (writerSession (some (bytesOf "GET /\r\n\r\n")) (some (bytesOf "ab"))
      .SOUP_TRANSFER_CONTENT_LENGTH true false true true [] [] [.ok 4, .ok 5, .error]
      [.G_IO_OUT]).2.1 =
      ⟨[], 0, [.error_cb false], bytesOf "GET /\r\n\r\n"⟩ := by
  decide

end libsoup.transfer
