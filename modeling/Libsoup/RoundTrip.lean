import Libsoup.Writer.Wire
import Libsoup.Reader.ChunkedStall
import Libsoup.Reader.Unknown

namespace libsoup.transfer

/-- The writer's chunked output for the body "hi", fed to a reader that
    selects the chunked encoding: the reader finds the CRLF that opens the
    first chunk where a size line should start, so it decodes no chunk, and
    when the stream ends it hands `read_done_cb` the framing bytes as the
    body. -/
theorem round_trip_chunked_hi :
    (writerSession (some (bytesOf "H\r\n\r\n")) none .SOUP_TRANSFER_CHUNKED true true true true []
      [⟨some (bytesOf "hi"), .SOUP_TRANSFER_CONTINUE, none⟩] [.ok 12] [.G_IO_OUT]).2.1.wire =
      bytesOf "H\r\n\r\n\r\n2\r\nhi" ∧
    (readerRun (.running (soup_transfer_read false true true true true))
      ⟨[⟨.SOUP_TRANSFER_CONTINUE, .SOUP_TRANSFER_CHUNKED, 0⟩], [], []⟩
      [.ok (writerSession (some (bytesOf "H\r\n\r\n")) none .SOUP_TRANSFER_CHUNKED true true true true []
        [⟨some (bytesOf "hi"), .SOUP_TRANSFER_CONTINUE, none⟩] [.ok 12] [.G_IO_OUT]).2.1.wire,
        .again, .ok []] [.G_IO_IN, .G_IO_IN]).2.1.calls =
      [.headers_done_cb (bytesOf "H\r\n\r\n") .SOUP_TRANSFER_CONTINUE,
        .read_done_cb (bytesOf "\r\n2\r\nhi")] := by
  decide

/-- A content-length transfer from a writer to a reader. A writer given a
    header block `H` (its first CRLF CRLF at its end), run under any channel
    results, producer replies and events until it calls `write_done_cb`, has
    put on the wire `H` and then the body: its initial body followed by the
    producer's buffers. A reader whose `headers_done_cb` declares that body's
    length, given the wire cut into reads in any way and at least as many
    readable events as reads, reads all of it and is freed, having called
    `headers_done_cb` with the header, then chunk callbacks, and last
    `read_done_cb` with the body (nothing in overwrite mode); the chunk buffers
    make up the body in overwrite mode and are prefixes of it otherwise. -/
theorem round_trip_content_length {H : List UInt8} (hH : HeaderEnd H H.length)
    (src : Option (List UInt8)) (headers_done_cb write_chunk_cb write_done_cb error_cb : Bool)
    (headersErrno : List (Option Nat)) (replies : List WriteChunkReply) (writes : List WriteResult)
    (events : List WriteEvent) {wenv : WriteEnv}
    (hw : (writerSession (some H) src .SOUP_TRANSFER_CONTENT_LENGTH headers_done_cb write_chunk_cb
      write_done_cb error_cb headersErrno replies writes events).2.1 = wenv)
    (hdone : .write_done_cb ∈ wenv.calls) {reads : List ReadResult} (hsplit : SplitOf wenv.wire reads)
    (content_length : UInt32)
    (hlen : (src.getD [] ++ (produced wenv.calls).flatten).length = content_length.toNat)
    (overwrite_chunks : Bool) (more : List HeadersReply) {chunkReplies : List SoupTransferDone}
    (hcont : ∀ c ∈ chunkReplies, c = .SOUP_TRANSFER_CONTINUE) {n : Nat} (hn : reads.length ≤ n) :
    let B := src.getD [] ++ (produced wenv.calls).flatten
    let res := readerRun (.running (soup_transfer_read overwrite_chunks true true true true))
      ⟨⟨.SOUP_TRANSFER_CONTINUE, .SOUP_TRANSFER_CONTENT_LENGTH, content_length⟩ :: more, chunkReplies, []⟩
      reads (List.replicate n .G_IO_IN)
    wenv.wire = H ++ B ∧ (∃ b, res.1 = .freed b) ∧ okBytes res.2.2 = [] ∧
      ∃ chunks, res.2.1.calls = .headers_done_cb (strncpy H H.length) .SOUP_TRANSFER_CONTINUE :: chunks ++
          [.read_done_cb (if overwrite_chunks then [] else B)] ∧ OpenChunks chunks ∧
        if overwrite_chunks then (chunkPayloads chunks).flatten = B
        else ∀ buf ∈ chunkPayloads chunks, buf <+: B := by
  intro B res
  -- the writer's half: once `write_done_cb` is called the wire holds all it owes
  have hwire : wenv.wire = H ++ B := by
    subst hw
    exact writerSession_wire_done src (by decide) _ _ _ _ _ _ _ _ hdone
  -- the reader's half: the content-length invariant over the whole run
  have hinv : StatusInv (CLMid H B B.length overwrite_chunks _) (CLDone H B B.length overwrite_chunks)
      res.1 res.2.1 res.2.2 :=
    cl_run (by rw [List.take_length]; exact hH.append B) le_rfl (by rwa [List.take_length, ← hwire])
      hlen more hcont n
  have hrest : okBytes res.2.2 = [] := by
    rcases hst : res.1 with r | b | _
    · have hleft : res.2.2.length ≤ reads.length - n := readerRun_replicate_length n _ _ reads ⟨r, hst⟩
      rw [List.eq_nil_of_length_eq_zero (show res.2.2.length = 0 by omega), okBytes_nil]
    · rw [hst] at hinv
      exact hinv.2.2.1
    · rw [hst] at hinv
      exact absurd hinv.2.1 (by simp)
  rcases cl_result hlen hinv rfl with ⟨hlt, -⟩ | ⟨-, hfreed, chunks, hcalls, hopen, hpayloads⟩
  · simp [hrest] at hlt
  · exact ⟨hwire, hfreed, hrest, chunks, hcalls, hopen, hpayloads⟩

/-- The header `H\r\n\r\n`, the initial body "ab" and the producer's "cd",
    sent in two writes and read in two pieces, in overwrite mode. -/
theorem round_trip_content_length_abcd :
    let wenv : WriteEnv := ⟨[], 0, [.write_chunk_cb (some (bytesOf "cd")) .SOUP_TRANSFER_CONTINUE,
      .headers_done_cb, .write_chunk_cb none .SOUP_TRANSFER_END, .write_done_cb], bytesOf "H\r\n\r\nabcd"⟩
    let reads : List ReadResult := [.ok (bytesOf "H\r\n\r\na"), .again, .ok (bytesOf "bcd")]
    HeaderEnd (bytesOf "H\r\n\r\n") (bytesOf "H\r\n\r\n").length ∧
    (writerSession (some (bytesOf "H\r\n\r\n")) (some (bytesOf "ab")) .SOUP_TRANSFER_CONTENT_LENGTH true true
      true true [] [⟨some (bytesOf "cd"), .SOUP_TRANSFER_CONTINUE, none⟩] [.ok 4, .ok 5]
      [.G_IO_OUT, .G_IO_OUT]).2.1 = wenv ∧
    .write_done_cb ∈ wenv.calls ∧ SplitOf wenv.wire reads ∧
    ((some (bytesOf "ab")).getD [] ++ (produced wenv.calls).flatten).length = (4 : UInt32).toNat ∧
    (∀ c ∈ ([] : List SoupTransferDone), c = .SOUP_TRANSFER_CONTINUE) ∧ reads.length ≤ 3 ∧
    let B := (some (bytesOf "ab")).getD [] ++ (produced wenv.calls).flatten
    let res := readerRun (.running (soup_transfer_read true true true true true))
      ⟨[⟨.SOUP_TRANSFER_CONTINUE, .SOUP_TRANSFER_CONTENT_LENGTH, 4⟩], [], []⟩
      reads (List.replicate 3 .G_IO_IN)
    wenv.wire = bytesOf "H\r\n\r\n" ++ B ∧ (∃ b, res.1 = .freed b) ∧ okBytes res.2.2 = [] ∧
      ∃ chunks, res.2.1.calls = .headers_done_cb (strncpy (bytesOf "H\r\n\r\n") (bytesOf "H\r\n\r\n").length)
          .SOUP_TRANSFER_CONTINUE :: chunks ++ [.read_done_cb (if true then [] else B)] ∧ OpenChunks chunks ∧
        if true then (chunkPayloads chunks).flatten = B
        else ∀ buf ∈ chunkPayloads chunks, buf <+: B :=
  ⟨by decide, by decide, by decide, by decide, by rfl, by simp, by decide,
    round_trip_content_length (by decide) (some (bytesOf "ab")) true true true true []
      [⟨some (bytesOf "cd"), .SOUP_TRANSFER_CONTINUE, none⟩] [.ok 4, .ok 5] [.G_IO_OUT, .G_IO_OUT]
      (by decide) (by decide) (by decide) 4 (by rfl) true [] (by simp) (by decide)⟩

/-- A transfer of unknown length from a writer to a reader. A writer given a
    header block `H` (its first CRLF CRLF at its end) and the unknown
    encoding, run under any channel results, producer replies and events until
    it calls `write_done_cb`, has put on the wire `H` and then the body. A
    reader whose `headers_done_cb` leaves the encoding unknown, given the wire
    cut into reads in any way and at least as many readable events as reads,
    reads all of it and stays watched; when the stream then ends (the next
    read returns no bytes) it calls `read_done_cb` with the body (nothing in
    overwrite mode) and is freed. Before that it called `headers_done_cb` with
    the header and chunk callbacks whose buffers make up the body in overwrite
    mode and are prefixes of it otherwise. -/
theorem round_trip_unknown {H : List UInt8} (hH : HeaderEnd H H.length)
    (src : Option (List UInt8)) (headers_done_cb write_chunk_cb write_done_cb error_cb : Bool)
    (headersErrno : List (Option Nat)) (replies : List WriteChunkReply) (writes : List WriteResult)
    (events : List WriteEvent) {wenv : WriteEnv}
    (hw : (writerSession (some H) src .SOUP_TRANSFER_UNKNOWN headers_done_cb write_chunk_cb
      write_done_cb error_cb headersErrno replies writes events).2.1 = wenv)
    (hdone : .write_done_cb ∈ wenv.calls) {reads : List ReadResult} (hsplit : SplitOf wenv.wire reads)
    (content_length : UInt32) (overwrite_chunks : Bool) (more : List HeadersReply)
    {chunkReplies : List SoupTransferDone} (hcont : ∀ c ∈ chunkReplies, c = .SOUP_TRANSFER_CONTINUE)
    {n : Nat} (hn : reads.length ≤ n) :
    let B := src.getD [] ++ (produced wenv.calls).flatten
    let res := readerRun (.running (soup_transfer_read overwrite_chunks true true true true))
      ⟨⟨.SOUP_TRANSFER_CONTINUE, .SOUP_TRANSFER_UNKNOWN, content_length⟩ :: more, chunkReplies, []⟩
      reads (List.replicate n .G_IO_IN)
    let fin := readerRun res.1 res.2.1 [.ok []] [.G_IO_IN]
    wenv.wire = H ++ B ∧ (∃ r, res.1 = .running r) ∧ res.2.2 = [] ∧ fin.1 = .freed false ∧
      ∃ chunks, fin.2.1.calls = .headers_done_cb (strncpy H H.length) .SOUP_TRANSFER_CONTINUE :: chunks ++
          [.read_done_cb (if overwrite_chunks then [] else B)] ∧ OpenChunks chunks ∧
        if overwrite_chunks then (chunkPayloads chunks).flatten = B
        else ∀ buf ∈ chunkPayloads chunks, buf <+: B := by
  intro B res fin
  -- the writer's half: once `write_done_cb` is called the wire holds all it owes
  have hwire : wenv.wire = H ++ B := by
    subst hw
    exact writerSession_wire_done src (by decide) _ _ _ _ _ _ _ _ hdone
  -- the reader's half: it reads the whole wire and waits for the end of the stream
  obtain ⟨r, hst, hrest, hheader, -, hset, hbuf, chunks, hcalls, hopen, hpayloads⟩ :=
    unknown_run (hH.append B) (hwire ▸ hsplit) content_length overwrite_chunks more hcont hn
  have hend : fin = (.freed false, res.2.1.call (.read_done_cb (if overwrite_chunks then [] else B)), []) := by
    show readerRun res.1 res.2.1 [.ok []] [.G_IO_IN] = _
    rw [hst, readerRun_zero_read (by rw [hheader]; have := hH.1; omega) hset.2.2.1, hbuf]
  rw [hend]
  exact ⟨hwire, ⟨r, hst⟩, hrest, rfl, chunks, by rw [ReadEnv.call_calls, hcalls, List.cons_append], hopen, hpayloads⟩

/-- The writer of `round_trip_content_length_abcd` with the unknown encoding,
    read in two pieces while keeping the buffer. -/
theorem round_trip_unknown_abcd :
    let wenv : WriteEnv := ⟨[], 0, [.write_chunk_cb (some (bytesOf "cd")) .SOUP_TRANSFER_CONTINUE,
      .headers_done_cb, .write_chunk_cb none .SOUP_TRANSFER_END, .write_done_cb], bytesOf "H\r\n\r\nabcd"⟩
    let reads : List ReadResult := [.ok (bytesOf "H\r\n\r\na"), .again, .ok (bytesOf "bcd")]
    HeaderEnd (bytesOf "H\r\n\r\n") (bytesOf "H\r\n\r\n").length ∧
    (writerSession (some (bytesOf "H\r\n\r\n")) (some (bytesOf "ab")) .SOUP_TRANSFER_UNKNOWN true true
      true true [] [⟨some (bytesOf "cd"), .SOUP_TRANSFER_CONTINUE, none⟩] [.ok 4, .ok 5]
      [.G_IO_OUT, .G_IO_OUT]).2.1 = wenv ∧
    .write_done_cb ∈ wenv.calls ∧ SplitOf wenv.wire reads ∧
    (∀ c ∈ ([] : List SoupTransferDone), c = .SOUP_TRANSFER_CONTINUE) ∧ reads.length ≤ 3 ∧
    let B := (some (bytesOf "ab")).getD [] ++ (produced wenv.calls).flatten
    let res := readerRun (.running (soup_transfer_read false true true true true))
      ⟨[⟨.SOUP_TRANSFER_CONTINUE, .SOUP_TRANSFER_UNKNOWN, 0⟩], [], []⟩
      reads (List.replicate 3 .G_IO_IN)
    let fin := readerRun res.1 res.2.1 [.ok []] [.G_IO_IN]
    wenv.wire = bytesOf "H\r\n\r\n" ++ B ∧ (∃ r, res.1 = .running r) ∧ res.2.2 = [] ∧ fin.1 = .freed false ∧
      ∃ chunks, fin.2.1.calls = .headers_done_cb (strncpy (bytesOf "H\r\n\r\n") (bytesOf "H\r\n\r\n").length)
          .SOUP_TRANSFER_CONTINUE :: chunks ++ [.read_done_cb (if false then [] else B)] ∧ OpenChunks chunks ∧
        if false then (chunkPayloads chunks).flatten = B
        else ∀ buf ∈ chunkPayloads chunks, buf <+: B :=
  ⟨by decide, by decide, by decide, by decide, by simp, by decide,
    round_trip_unknown (by decide) (some (bytesOf "ab")) true true true true []
      [⟨some (bytesOf "cd"), .SOUP_TRANSFER_CONTINUE, none⟩] [.ok 4, .ok 5] [.G_IO_OUT, .G_IO_OUT]
      (by decide) (by decide) (by decide) 0 false [] (by simp) (by decide)⟩

/-- A chunked transfer from a writer to a reader never goes through. A writer
    given a header block `H` (its first CRLF CRLF at its end) and the chunked
    encoding, run under any channel results, producer replies and events until
    it calls `write_done_cb` with a non-empty body `B` (its initial body and
    the producer's buffers), frames its first chunk with a leading CRLF. A
    reader whose `headers_done_cb` selects the chunked encoding, given the wire
    cut into reads in any way and at least as many readable events as reads,
    reads all of it, decodes no chunk and calls no chunk callback; when the
    stream then ends it hands `read_done_cb` the framed bytes after the header,
    which are not `B`, and is freed. -/
theorem round_trip_chunked_stall {H : List UInt8} (hH : HeaderEnd H H.length)
    (src : Option (List UInt8)) (headers_done_cb write_chunk_cb write_done_cb error_cb : Bool)
    (headersErrno : List (Option Nat)) (replies : List WriteChunkReply) (writes : List WriteResult)
    (events : List WriteEvent) {wenv : WriteEnv}
    (hw : (writerSession (some H) src .SOUP_TRANSFER_CHUNKED headers_done_cb write_chunk_cb
      write_done_cb error_cb headersErrno replies writes events).2.1 = wenv)
    (hdone : .write_done_cb ∈ wenv.calls) (hB : src.getD [] ++ (produced wenv.calls).flatten ≠ [])
    {reads : List ReadResult} (hsplit : SplitOf wenv.wire reads) (overwrite_chunks : Bool)
    (content_length : UInt32) (more : List HeadersReply) (chunkReplies : List SoupTransferDone)
    {n : Nat} (hn : reads.length ≤ n) :
    let B := src.getD [] ++ (produced wenv.calls).flatten
    let res := readerRun (.running (soup_transfer_read overwrite_chunks true true true true))
      ⟨⟨.SOUP_TRANSFER_CONTINUE, .SOUP_TRANSFER_CHUNKED, content_length⟩ :: more, chunkReplies, []⟩
      reads (List.replicate n .G_IO_IN)
    let fin := readerRun res.1 res.2.1 [.ok []] [.G_IO_IN]
    (∃ r, res.1 = .running r) ∧ res.2.2 = [] ∧
      res.2.1.calls = [.headers_done_cb (strncpy H H.length) .SOUP_TRANSFER_CONTINUE] ∧
      fin.1 = .freed false ∧
      fin.2.1.calls = [.headers_done_cb (strncpy H H.length) .SOUP_TRANSFER_CONTINUE,
        .read_done_cb (wenv.wire.drop H.length)] ∧
      bytesOf "\r\n" <+: wenv.wire.drop H.length ∧ wenv.wire.drop H.length ≠ B ∧
      B.length + 2 ≤ (wenv.wire.drop H.length).length := by
  intro B res fin
  -- the writer's half: the body on the wire is the framed pieces, the first
  -- one opened by a CRLF, and then perhaps the terminating chunk
  obtain ⟨tail, hwire⟩ : ∃ tail, wenv.wire =
      H ++ framed .SOUP_TRANSFER_CHUNKED 0 (pieceOf (src.getD []) ++ produced wenv.calls) ++ tail := by
    subst hw
    exact ⟨_, writerSession_wire_expected src _ _ _ _ _ _ _ _ _ hdone⟩
  have hflat : (pieceOf (src.getD []) ++ produced wenv.calls).flatten = B := by simp [B]
  generalize pieceOf (src.getD []) ++ produced wenv.calls = pieces at hwire hflat
  have hpieces : pieces ≠ [] := by
    rintro rfl
    exact hB hflat.symm
  obtain ⟨p, ps, rfl⟩ := List.exists_cons_of_ne_nil hpieces
  obtain ⟨Y₀, hY₀⟩ := chunkBytes_chunked_zero p
  have hwire' : wenv.wire = H ++ (bytesOf "\r\n" ++ (Y₀ ++ framed .SOUP_TRANSFER_CHUNKED 1 ps ++ tail)) := by
    rw [hwire]
    simp only [framed, hY₀, List.append_assoc]
  have hbody : wenv.wire.drop H.length = bytesOf "\r\n" ++ (Y₀ ++ framed .SOUP_TRANSFER_CHUNKED 1 ps ++ tail) := by
    rw [hwire', List.drop_left]
  have hlong : B.length + 2 ≤ (wenv.wire.drop H.length).length := by
    have hf := framed_chunked_length 0 (p :: ps)
    rw [hflat, List.length_cons] at hf
    have hdrop : wenv.wire.drop H.length = framed .SOUP_TRANSFER_CHUNKED 0 (p :: ps) ++ tail := by
      rw [hwire, List.append_assoc, List.drop_left]
    rw [hdrop, List.length_append (framed .SOUP_TRANSFER_CHUNKED 0 (p :: ps)) tail]
    omega
  -- the reader's half: it never leaves the start of the body
  obtain ⟨r, hst, hrest, hheader, hread_done, hbuf, hcalls⟩ :=
    stall_run (hH.append _) (hwire' ▸ hsplit) overwrite_chunks content_length more chunkReplies hn
  have hend : fin = (.freed false, res.2.1.call (.read_done_cb (wenv.wire.drop H.length)), []) := by
    show readerRun res.1 res.2.1 [.ok []] [.G_IO_IN] = _
    rw [hst, readerRun_zero_read (by rw [hheader]; have := hH.1; omega) hread_done, hbuf, hbody]
  rw [hend]
  exact ⟨⟨r, hst⟩, hrest, hcalls, rfl, by rw [ReadEnv.call_calls, hcalls, List.singleton_append],
    ⟨_, hbody.symm⟩, fun h => by rw [h] at hlong; omega, hlong⟩

/-- The chunked writer of `writerRun_chunked_unterminated`, its wire read in
    two pieces: the reader hands the framed bytes to `read_done_cb`. -/
theorem round_trip_chunked_stall_hi :
    let wenv : WriteEnv := ⟨[], 0, [.write_chunk_cb (some (bytesOf "hi")) .SOUP_TRANSFER_CONTINUE,
      .headers_done_cb, .write_chunk_cb none .SOUP_TRANSFER_END, .write_done_cb],
      bytesOf "H\r\n\r\n\r\n2\r\nhi"⟩
    let reads : List ReadResult := [.ok (bytesOf "H\r\n\r\n\r\n2"), .again, .ok (bytesOf "\r\nhi")]
    HeaderEnd (bytesOf "H\r\n\r\n") (bytesOf "H\r\n\r\n").length ∧
    (writerSession (some (bytesOf "H\r\n\r\n")) none .SOUP_TRANSFER_CHUNKED true true true true []
      [⟨some (bytesOf "hi"), .SOUP_TRANSFER_CONTINUE, none⟩] [.ok 12] [.G_IO_OUT]).2.1 = wenv ∧
    .write_done_cb ∈ wenv.calls ∧ (none : Option (List UInt8)).getD [] ++ (produced wenv.calls).flatten ≠ [] ∧
    SplitOf wenv.wire reads ∧ reads.length ≤ 3 ∧
    let B := (none : Option (List UInt8)).getD [] ++ (produced wenv.calls).flatten
    let res := readerRun (.running (soup_transfer_read false true true true true))
      ⟨[⟨.SOUP_TRANSFER_CONTINUE, .SOUP_TRANSFER_CHUNKED, 0⟩], [], []⟩ reads (List.replicate 3 .G_IO_IN)
    let fin := readerRun res.1 res.2.1 [.ok []] [.G_IO_IN]
    (∃ r, res.1 = .running r) ∧ res.2.2 = [] ∧
      res.2.1.calls = [.headers_done_cb (strncpy (bytesOf "H\r\n\r\n") (bytesOf "H\r\n\r\n").length)
        .SOUP_TRANSFER_CONTINUE] ∧
      fin.1 = .freed false ∧
      fin.2.1.calls = [.headers_done_cb (strncpy (bytesOf "H\r\n\r\n") (bytesOf "H\r\n\r\n").length)
        .SOUP_TRANSFER_CONTINUE, .read_done_cb (wenv.wire.drop (bytesOf "H\r\n\r\n").length)] ∧
      bytesOf "\r\n" <+: wenv.wire.drop (bytesOf "H\r\n\r\n").length ∧
      wenv.wire.drop (bytesOf "H\r\n\r\n").length ≠ B ∧
      B.length + 2 ≤ (wenv.wire.drop (bytesOf "H\r\n\r\n").length).length :=
  ⟨by decide, by decide, by decide, by decide, by decide, by decide,
    round_trip_chunked_stall (by decide) none true true true true []
      [⟨some (bytesOf "hi"), .SOUP_TRANSFER_CONTINUE, none⟩] [.ok 12] [.G_IO_OUT]
      (by decide) (by decide) (by decide) (by decide) false 0 [] [] (by decide)⟩

end libsoup.transfer
