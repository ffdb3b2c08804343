import Libsoup.Reader.Run

namespace libsoup.transfer

/-- A call that is handed memory of `recv_buf` (`SOUP_BUFFER_SYSTEM_OWNED`);
    `headers_done_cb` gets a copy made by `strncpy`. -/
def ReadCall.handsBuffer : ReadCall → Bool
  | .read_chunk_cb _ _ => true
  | .read_done_cb _ => true
  | _ => false

/-- Whether the calls so far have handed out memory of `recv_buf`. -/
def bufferHanded (calls : List ReadCall) : Bool := calls.any ReadCall.handsBuffer

@[simp] theorem bufferHanded_append (xs ys : List ReadCall) :
    bufferHanded (xs ++ ys) = (bufferHanded xs || bufferHanded ys) :=
  List.any_append

@[simp] theorem bufferHanded_singleton (c : ReadCall) : bufferHanded [c] = c.handsBuffer := by
  simp [bufferHanded]

/-- `callback_issued` records the calls made so far. -/
def Issued (r : SoupReader) (env : ReadEnv) : Prop := r.callback_issued = bufferHanded env.calls

/-- The ownership invariant in each status: a watched reader's flag records
    its calls, and a freed reader freed the contents of `recv_buf` exactly when
    no call was handed them. -/
def OwnerInv : ReaderStatus → ReadEnv → Prop
  | .running r, env => Issued r env
  | .freed free_segment, env => free_segment = !bufferHanded env.calls
  | .aborted, _ => True

/-- What a body step leaves: a reader whose flag records its calls. -/
def BodyIssued : BodyStep × ReadEnv → Prop
  | (.ok r _ _, env) => Issued r env
  | (.aborted, _) => True

/-- What the header scan leaves, for the reader `r` it started from. -/
def HeaderIssued (r : SoupReader) : HeaderStep × ReadEnv → Prop
  | (.wait, env) => Issued r env
  | (.stop st, env) => OwnerInv st env
  | (.body r, env) => Issued r env

section Steps

variable {r : SoupReader} {env : ReadEnv}

theorem Issued.cancel (h : Issued r env) : OwnerInv (soup_transfer_read_cancel r) env :=
  congrArg (!·) h

theorem Issued.call (h : Issued r env) {c : ReadCall} (hc : c.handsBuffer = false) :
    Issued r (env.call c) := by
  unfold Issued at h ⊢
  simp [h, hc]

theorem Issued.nextHeadersReply (h : Issued r env) : Issued r env.nextHeadersReply.2 := by
  unfold Issued at h ⊢
  rw [ReadEnv.nextHeadersReply_calls, h]

theorem Issued.issue_chunk_callback (h : Issued r env) (data : List UInt8) (len : Nat) (cancelled : Bool) :
    Issued (issue_chunk_callback r env data len cancelled).1
      (issue_chunk_callback r env data len cancelled).2.1 := by
  unfold libsoup.transfer.issue_chunk_callback
  split_ifs
  · simp [Issued, ReadCall.handsBuffer]
  · exact h

theorem Issued.issue_final_callback (h : Issued r env) :
    Issued (issue_final_callback r env).1 (issue_final_callback r env).2 := by
  unfold Issued at h
  rw [issue_final_callback_eq]
  cases hdone : r.read_done_cb <;> simp [Issued, ReadCall.handsBuffer, h]

theorem read_chunk_issued (h : Issued r env) (cancelled : Bool) :
    BodyIssued (read_chunk r env cancelled) := by
  unfold read_chunk
  cases decode_chunk r.chunk_state r.recv_buf with
  | none => trivial
  | some v =>
    obtain ⟨s, arr, datalen, ret⟩ := v
    dsimp only
    have hcb := Issued.issue_chunk_callback (r := { r with chunk_state := s, recv_buf := arr }) h arr
      s.idx cancelled
    generalize issue_chunk_callback { r with chunk_state := s, recv_buf := arr } env arr s.idx cancelled
      = res at hcb ⊢
    obtain ⟨r', env', c⟩ := res
    dsimp only
    split_ifs
    · exact h
    · exact hcb
    · split
      · trivial
      · exact hcb
    · exact hcb

theorem read_content_length_issued (h : Issued r env) (cancelled : Bool) :
    BodyIssued (read_content_length r env cancelled) := by
  unfold read_content_length
  have hcb := h.issue_chunk_callback r.recv_buf r.recv_buf.length cancelled
  generalize issue_chunk_callback r env r.recv_buf r.recv_buf.length cancelled = res at hcb ⊢
  obtain ⟨r', env', c⟩ := res
  dsimp only
  split_ifs
  · exact h
  all_goals exact hcb

theorem read_unknown_issued (h : Issued r env) (cancelled : Bool) :
    BodyIssued (read_unknown r env cancelled) := by
  unfold read_unknown
  have hcb := h.issue_chunk_callback r.recv_buf r.recv_buf.length cancelled
  generalize issue_chunk_callback r env r.recv_buf r.recv_buf.length cancelled = res at hcb ⊢
  obtain ⟨r', env', c⟩ := res
  dsimp only
  split_ifs
  · exact h
  all_goals exact hcb

theorem read_body_issued (h : Issued r env) (total_read : Nat) : BodyIssued (read_body r env total_read) := by
  unfold read_body
  split_ifs
  · exact h
  · split
    exacts [read_chunk_issued h false, read_content_length_issued h false, read_unknown_issued h false]

theorem process_body_issued (h : Issued r env) (total_read : Nat) :
    ProcessStep.holds OwnerInv (process_body r env total_read) := by
  unfold process_body
  have hbody := read_body_issued h total_read
  generalize read_body r env total_read = step at hbody ⊢
  obtain ⟨⟨r', read_done, cancelled⟩ | _, env'⟩ := step
  · dsimp only
    split_ifs
    · exact Issued.cancel hbody
    · exact hbody
    · exact Issued.cancel hbody.issue_final_callback
  · trivial

theorem accept_headers_issued (h : Issued r env) (index : Nat) :
    HeaderIssued r (accept_headers r env index) := by
  unfold accept_headers
  dsimp only
  have hcall := h.nextHeadersReply.call
    (c := .headers_done_cb (strncpy r.recv_buf index) env.nextHeadersReply.1.ret) rfl
  split_ifs
  · exact Issued.cancel hcall
  · split
    · trivial
    · exact hcall
  · split
    · trivial
    · exact h

theorem process_read_issued (h : Issued r env) (total_read : Nat) :
    ProcessStep.holds OwnerInv (process_read r env total_read) := by
  unfold process_read
  split_ifs
  · have hscan : HeaderIssued r (scan_headers r env) := by
      unfold scan_headers
      dsimp only
      split_ifs
      exacts [h, accept_headers_issued h _]
    generalize scan_headers r env = res at hscan ⊢
    obtain ⟨_ | _ | r', env'⟩ := res
    exacts [hscan, hscan, process_body_issued hscan total_read]
  · exact process_body_issued h total_read

theorem soup_transfer_read_error_cb_issued (h : Issued r env) :
    OwnerInv (soup_transfer_read_error_cb r env).1 (soup_transfer_read_error_cb r env).2 := by
  unfold soup_transfer_read_error_cb
  dsimp only
  split_ifs
  · exact Issued.cancel h.issue_final_callback
  · exact Issued.cancel (h.call rfl)
  · exact Issued.cancel h

end Steps

theorem read_again_issued : ∀ (reads : List ReadResult) (r : SoupReader) (env : ReadEnv)
    (total_read : Nat), Issued r env →
    OwnerInv (read_again r env total_read reads).1 (read_again r env total_read reads).2.1
  | [], r, env, total_read, h => by
    unfold read_again
    split_ifs
    · exact h
    · exact after_process_holds (fun res => OwnerInv res.1 res.2.1) (process_read_issued h total_read)
        fun _ _ h => h
  | .again :: reads, r, env, total_read, h => by
    unfold read_again
    split_ifs
    · exact h
    · exact after_process_holds (fun res => OwnerInv res.1 res.2.1) (process_read_issued h total_read)
        fun r env h => read_again_issued reads r env 0 h
  | .error :: reads, r, env, total_read, h => by
    unfold read_again
    split_ifs
    · exact soup_transfer_read_error_cb_issued h
    · exact after_process_holds (fun res => OwnerInv res.1 res.2.1) (process_read_issued h total_read)
        fun r env h => read_again_issued reads r env 0 h
  | .ok [] :: reads, r, env, total_read, h =>
    after_process_holds (fun res => OwnerInv res.1 res.2.1) (process_read_issued h total_read)
      fun r env h => read_again_issued reads r env 0 h
  | .ok (_ :: _) :: reads, r, env, _, h => read_again_issued reads _ env _ h

theorem readerRun_issued : ∀ (events : List ReadEvent) (st : ReaderStatus) (env : ReadEnv)
    (reads : List ReadResult), OwnerInv st env →
    OwnerInv (readerRun st env reads events).1 (readerRun st env reads events).2.1
  | [], st, env, reads, h => by cases st <;> exact h
  | .G_IO_IN :: events, .running r, env, reads, h =>
    readerRun_issued events _ _ _ (read_again_issued reads r env 0 h)
  | .G_IO_HUP :: events, .running r, env, reads, h =>
    readerRun_issued events _ _ _ (soup_transfer_read_error_cb_issued h)
  | _ :: _, .freed _, _, _, h => h
  | _ :: _, .aborted, _, _, h => h

/-- For any callbacks, callback replies, channel results and events, the
    reader's `callback_issued` records whether `read_chunk_cb` or `read_done_cb`
    has been handed memory of `recv_buf`, and a freed reader has freed the
    buffer's contents exactly when neither was. -/
theorem readerRun_buffer_owner (overwrite_chunks headers_done_cb read_chunk_cb read_done_cb error_cb : Bool)
    (headersReplies : List HeadersReply) (chunkReplies : List SoupTransferDone)
    (reads : List ReadResult) (events : List ReadEvent) :
    let res := readerRun (.running (soup_transfer_read overwrite_chunks headers_done_cb read_chunk_cb
      read_done_cb error_cb)) ⟨headersReplies, chunkReplies, []⟩ reads events
    (∃ r, res.1 = .running r ∧ r.callback_issued = bufferHanded res.2.1.calls) ∨
      res.1 = .freed (!bufferHanded res.2.1.calls) ∨ res.1 = .aborted := by
  have h := readerRun_issued events _ ⟨headersReplies, chunkReplies, []⟩ reads
    (show OwnerInv (.running (soup_transfer_read overwrite_chunks headers_done_cb read_chunk_cb
      read_done_cb error_cb)) ⟨headersReplies, chunkReplies, []⟩ from rfl)
  generalize readerRun _ _ reads events = res at h ⊢
  obtain ⟨_ | _ | _, env, _⟩ := res
  · exact .inl ⟨_, rfl, h⟩
  · exact .inr (.inl (congrArg _ h))
  · exact .inr (.inr rfl)

/-- A content-length body whose first bytes went to `read_chunk_cb` before the
    read failed: `error_cb` runs, and the buffer's contents are neither freed nor
    handed to `read_done_cb`. -/
example : readerRun (.running (soup_transfer_read false true true true true))
      ⟨[⟨.SOUP_TRANSFER_CONTINUE, .SOUP_TRANSFER_CONTENT_LENGTH, 5⟩], [], []⟩
      [.ok (bytesOf "H\r\n\r\nab"), .again, .error] [.G_IO_IN] =
    (.freed false, ⟨[], [], [.headers_done_cb (bytesOf "H\r\n\r\n") .SOUP_TRANSFER_CONTINUE,
      .read_chunk_cb (bytesOf "ab") .SOUP_TRANSFER_CONTINUE, .error_cb false]⟩, []) := by
  decide

end libsoup.transfer
