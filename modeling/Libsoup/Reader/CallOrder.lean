import Libsoup.Reader.Steps

namespace libsoup.transfer

/-- All four callbacks of a reader are set. -/
def AllSet (r : SoupReader) : Prop :=
  r.headers_done_cb ∧ r.read_chunk_cb ∧ r.read_done_cb ∧ r.error_cb

/-- Chunk callbacks that all returned `SOUP_TRANSFER_CONTINUE`. -/
def OpenChunks (calls : List ReadCall) : Prop :=
  ∀ c ∈ calls, ∃ buf, c = .read_chunk_cb buf .SOUP_TRANSFER_CONTINUE

/-- A call that can end the calls of a reader whose header was accepted. -/
def BodyEnd : ReadCall → Prop
  | .read_chunk_cb _ ret => ret = .SOUP_TRANSFER_END
  | .read_done_cb _ => True
  | .error_cb _ => True
  | .headers_done_cb _ _ => False

/-- The calls of a reader whose header was accepted and which is still open. -/
def HeaderOpen (calls : List ReadCall) : Prop :=
  ∃ str chunks, calls = .headers_done_cb str .SOUP_TRANSFER_CONTINUE :: chunks ∧ OpenChunks chunks

/-- The calls of a reader that has been freed: a final delivery of what came
    before any header, a refused header, or an accepted header followed by chunk
    callbacks and one last call. -/
def Closed (calls : List ReadCall) : Prop :=
  (∃ buf, calls = [.read_done_cb buf]) ∨
  (∃ str, calls = [.headers_done_cb str .SOUP_TRANSFER_END]) ∨
  ∃ calls₀ last, calls = calls₀ ++ [last] ∧ HeaderOpen calls₀ ∧ BodyEnd last

/-- The order of the calls of a reader in each status: no call before the
    header boundary, and the encoding still `SOUP_TRANSFER_UNKNOWN` there. -/
def CallsInv : ReaderStatus → List ReadCall → Prop
  | .running r, calls =>
    AllSet r ∧ if r.header_len = 0 then calls = [] ∧ r.encoding = .SOUP_TRANSFER_UNKNOWN
      else HeaderOpen calls
  | .freed _, calls => Closed calls
  | .aborted, calls => calls = [] ∨ HeaderOpen calls

theorem OpenChunks.append {xs ys : List ReadCall} (hxs : OpenChunks xs) (hys : OpenChunks ys) :
    OpenChunks (xs ++ ys) := by
  intro c hc
  rcases List.mem_append.mp hc with h | h
  · exact hxs c h
  · exact hys c h

theorem HeaderOpen.append {calls extra : List ReadCall} (hopen : HeaderOpen calls)
    (hextra : OpenChunks extra) : HeaderOpen (calls ++ extra) := by
  obtain ⟨str, chunks, rfl, hchunks⟩ := hopen
  exact ⟨str, chunks ++ extra, rfl, hchunks.append hextra⟩

theorem HeaderOpen.close {calls : List ReadCall} (hopen : HeaderOpen calls) (last : ReadCall)
    (hlast : BodyEnd last) : Closed (calls ++ [last]) :=
  .inr (.inr ⟨calls, last, rfl, hopen, hlast⟩)

/-- What a body step does to a reader whose header was accepted: it keeps
    `header_len` and the callbacks, and adds chunk callbacks that returned
    `SOUP_TRANSFER_CONTINUE`, or one that returned `SOUP_TRANSFER_END` when it
    reports `*cancelled`. -/
def BodyCalls (r : SoupReader) (env : ReadEnv) : BodyStep × ReadEnv → Prop
  | (.ok r' _ cancelled, env') => r'.header_len = r.header_len ∧ (AllSet r → AllSet r') ∧
    if cancelled then ∃ buf, env'.calls = env.calls ++ [.read_chunk_cb buf .SOUP_TRANSFER_END]
    else ∃ extra, env'.calls = env.calls ++ extra ∧ OpenChunks extra
  | (.aborted, env') => ∃ extra, env'.calls = env.calls ++ extra ∧ OpenChunks extra

theorem issue_chunk_callback_calls (r : SoupReader) (env : ReadEnv) (data : List UInt8) (len : Nat) :
    let res := issue_chunk_callback r env data len false
    (∃ b, res.1 = { r with callback_issued := b }) ∧
    if res.2.2 then ∃ buf, res.2.1.calls = env.calls ++ [.read_chunk_cb buf .SOUP_TRANSFER_END]
    else ∃ extra, res.2.1.calls = env.calls ++ extra ∧ OpenChunks extra := by
  unfold issue_chunk_callback
  split_ifs with hcall
  · cases hv : env.nextChunkReply.1 with
    | SOUP_TRANSFER_CONTINUE =>
      refine ⟨⟨true, rfl⟩, ?_⟩
      simp only [hv, reduceCtorEq, decide_False, Bool.false_eq_true, ↓reduceIte]
      exact ⟨[.read_chunk_cb (data.take len) .SOUP_TRANSFER_CONTINUE], by simp [hv],
        fun c hc => ⟨data.take len, by simpa using hc⟩⟩
    | SOUP_TRANSFER_END =>
      refine ⟨⟨true, rfl⟩, ?_⟩
      simp only [hv, decide_True, ↓reduceIte]
      exact ⟨data.take len, by simp [hv]⟩
  · exact ⟨⟨r.callback_issued, rfl⟩, [], by simp, by simp [OpenChunks]⟩

theorem read_chunk_calls (r : SoupReader) (env : ReadEnv) :
    BodyCalls r env (read_chunk r env false) := by
  unfold read_chunk
  split
  · exact ⟨[], by simp, by simp [OpenChunks]⟩
  · rename_i s arr datalen ret _
    have hspec := issue_chunk_callback_calls { r with chunk_state := s, recv_buf := arr } env arr s.idx
    dsimp only at hspec ⊢
    generalize issue_chunk_callback _ env arr s.idx false = res at hspec ⊢
    obtain ⟨r', env', cancelled⟩ := res
    obtain ⟨⟨b, rfl⟩, hcalls⟩ := hspec
    dsimp only at hcalls ⊢
    split_ifs
    · exact ⟨rfl, id, [], by simp, by simp [OpenChunks]⟩
    · exact ⟨rfl, id, by simpa [*] using hcalls⟩
    · split
      · simpa [*] using hcalls
      · exact ⟨rfl, id, by simpa [*] using hcalls⟩
    · exact ⟨rfl, id, by simpa [*] using hcalls⟩

theorem read_content_length_calls (r : SoupReader) (env : ReadEnv) :
    BodyCalls r env (read_content_length r env false) := by
  unfold read_content_length
  have hspec := issue_chunk_callback_calls r env r.recv_buf r.recv_buf.length
  dsimp only at hspec ⊢
  generalize issue_chunk_callback r env r.recv_buf r.recv_buf.length false = res at hspec ⊢
  obtain ⟨r', env', cancelled⟩ := res
  obtain ⟨⟨b, rfl⟩, hcalls⟩ := hspec
  dsimp only at hcalls ⊢
  split_ifs <;> first
    | exact ⟨rfl, id, [], by simp, by simp [OpenChunks]⟩
    | exact ⟨rfl, id, by simpa [*] using hcalls⟩

theorem read_unknown_calls (r : SoupReader) (env : ReadEnv) :
    BodyCalls r env (read_unknown r env false) := by
  unfold read_unknown
  have hspec := issue_chunk_callback_calls r env r.recv_buf r.recv_buf.length
  dsimp only at hspec ⊢
  generalize issue_chunk_callback r env r.recv_buf r.recv_buf.length false = res at hspec ⊢
  obtain ⟨r', env', cancelled⟩ := res
  obtain ⟨⟨b, rfl⟩, hcalls⟩ := hspec
  dsimp only at hcalls ⊢
  split_ifs <;> first
    | exact ⟨rfl, id, [], by simp, by simp [OpenChunks]⟩
    | exact ⟨rfl, id, by simpa [*] using hcalls⟩

theorem read_body_calls (r : SoupReader) (env : ReadEnv) (total_read : Nat) :
    BodyCalls r env (read_body r env total_read) := by
  unfold read_body
  split_ifs
  · exact ⟨rfl, id, [], by simp, by simp [OpenChunks]⟩
  · split
    · exact read_chunk_calls r env
    · exact read_content_length_calls r env
    · exact read_unknown_calls r env

theorem issue_final_callback_calls {r : SoupReader} (env : ReadEnv) (hdone : r.read_done_cb) :
    ∃ buf, (issue_final_callback r env).2.calls = env.calls ++ [.read_done_cb buf] := by
  simp [issue_final_callback, hdone]

theorem soup_transfer_read_error_cb_calls {r : SoupReader} {env : ReadEnv}
    (hinv : CallsInv (.running r) env.calls) :
    CallsInv (soup_transfer_read_error_cb r env).1 (soup_transfer_read_error_cb r env).2.calls := by
  obtain ⟨⟨-, -, hdone, herror⟩, hcalls⟩ : AllSet r ∧ _ := hinv
  unfold soup_transfer_read_error_cb
  by_cases hunknown : r.encoding = .SOUP_TRANSFER_UNKNOWN
  · rw [if_pos hunknown]
    obtain ⟨buf, hbuf⟩ := issue_final_callback_calls env hdone
    show Closed (issue_final_callback r env).2.calls
    rw [hbuf]
    split_ifs at hcalls
    · exact .inl ⟨buf, by simp [hcalls.1]⟩
    · exact hcalls.close _ trivial
  · rw [if_neg hunknown]
    split_ifs at hcalls
    · exact absurd hcalls.2 hunknown
    · show Closed (if r.error_cb then _ else env).calls
      simpa [herror] using hcalls.close (.error_cb _) trivial

theorem accept_headers_calls {r : SoupReader} {env : ReadEnv} {index : Nat} (hset : AllSet r)
    (hcalls : env.calls = []) (h4 : 4 ≤ index) (hle : index ≤ r.recv_buf.length) :
    (∃ st, (accept_headers r env index).1 = .stop st ∧
      CallsInv st (accept_headers r env index).2.calls) ∨
    ∃ r', (accept_headers r env index).1 = .body r' ∧ AllSet r' ∧ r'.header_len ≠ 0 ∧
      HeaderOpen (accept_headers r env index).2.calls := by
  rw [accept_headers_eq r env (by omega) hle, if_pos hset.1]
  split_ifs with hend
  · exact .inl ⟨_, rfl, .inr (.inl ⟨strncpy r.recv_buf index, by simp [hcalls, hend]⟩)⟩
  · refine .inr ⟨_, rfl, hset, by simp; omega, strncpy r.recv_buf index, [], ?_, by simp [OpenChunks]⟩
    cases hret : env.nextHeadersReply.1.ret
    · simp [hcalls, hret]
    · exact absurd hret hend

theorem process_body_calls {r : SoupReader} {env : ReadEnv} (total_read : Nat) (hset : AllSet r)
    (hlen : r.header_len ≠ 0) (hopen : HeaderOpen env.calls) :
    ProcessStep.holds (fun st env => CallsInv st env.calls) (process_body r env total_read) := by
  unfold process_body
  have hstep := read_body_calls r env total_read
  generalize read_body r env total_read = step at hstep ⊢
  obtain ⟨⟨r', read_done, cancelled⟩ | _, env'⟩ := step
  · obtain ⟨hlen', hset', hcalls'⟩ := hstep
    dsimp only
    split_ifs at hcalls' ⊢
    · obtain ⟨buf, hbuf⟩ := hcalls'
      show Closed env'.calls
      exact hbuf ▸ hopen.close (.read_chunk_cb buf _) rfl
    · obtain ⟨extra, hextra, hchunks⟩ := hcalls'
      exact ⟨hset' hset, by simpa [hlen', hlen] using hextra ▸ hopen.append hchunks⟩
    · obtain ⟨extra, hextra, hchunks⟩ := hcalls'
      obtain ⟨buf, hbuf⟩ := issue_final_callback_calls env' (hset' hset).2.2.1
      show Closed (issue_final_callback r' env').2.calls
      rw [hbuf, hextra]
      exact (hopen.append hchunks).close _ trivial
  · obtain ⟨extra, hextra, hchunks⟩ := hstep
    exact Or.inr (hextra ▸ hopen.append hchunks)

theorem process_read_calls {r : SoupReader} {env : ReadEnv} (total_read : Nat)
    (hinv : CallsInv (.running r) env.calls) :
    ProcessStep.holds (fun st env => CallsInv st env.calls) (process_read r env total_read) := by
  obtain ⟨hset, hcalls⟩ : AllSet r ∧ _ := hinv
  unfold process_read
  split_ifs at hcalls ⊢ with hlen
  · rcases scan_headers_cases r env with ⟨hscan, -⟩ | ⟨index, ⟨h4, -⟩, hle, hscan⟩
    · rw [hscan]
      exact ⟨hset, by simpa [hlen] using hcalls⟩
    · rw [hscan]
      have haccept := accept_headers_calls hset hcalls.1 h4 hle
      generalize accept_headers r env index = res at haccept ⊢
      obtain ⟨hs, env'⟩ := res
      rcases haccept with ⟨st, rfl, hst⟩ | ⟨r', rfl, hset', hlen', hopen'⟩
      · exact hst
      · exact process_body_calls total_read hset' hlen' hopen'
  · exact process_body_calls total_read hset hlen hcalls

theorem after_process_calls {p : ProcessStep × ReadEnv} {reads : List ReadResult}
    {k : SoupReader → ReadEnv → ReaderStatus × ReadEnv × List ReadResult}
    (hp : ProcessStep.holds (fun st env => CallsInv st env.calls) p)
    (hk : ∀ r env, CallsInv (.running r) env.calls → CallsInv (k r env).1 (k r env).2.1.calls) :
    CallsInv (after_process p reads k).1 (after_process p reads k).2.1.calls := by
  obtain ⟨_ | _, env⟩ := p
  · exact hk _ _ hp
  · exact hp

theorem read_again_calls : ∀ (reads : List ReadResult) (r : SoupReader) (env : ReadEnv)
    (total_read : Nat), CallsInv (.running r) env.calls →
    CallsInv (read_again r env total_read reads).1 (read_again r env total_read reads).2.1.calls
  | [], r, env, total_read, hinv => by
    unfold read_again
    split_ifs
    · exact hinv
    · exact after_process_calls (process_read_calls total_read hinv) fun _ _ h => h
  | .again :: reads, r, env, total_read, hinv => by
    unfold read_again
    split_ifs
    · exact hinv
    · exact after_process_calls (process_read_calls total_read hinv)
        fun r env h => read_again_calls reads r env 0 h
  | .error :: reads, r, env, total_read, hinv => by
    unfold read_again
    split_ifs
    · exact soup_transfer_read_error_cb_calls hinv
    · exact after_process_calls (process_read_calls total_read hinv)
        fun r env h => read_again_calls reads r env 0 h
  | .ok [] :: reads, r, env, total_read, hinv =>
    after_process_calls (process_read_calls total_read hinv)
      fun r env h => read_again_calls reads r env 0 h
  | .ok (_ :: _) :: reads, r, env, _, hinv => read_again_calls reads _ env _ hinv

theorem readerRun_calls : ∀ (events : List ReadEvent) (st : ReaderStatus) (env : ReadEnv)
    (reads : List ReadResult), CallsInv st env.calls →
    CallsInv (readerRun st env reads events).1 (readerRun st env reads events).2.1.calls
  | [], st, env, reads, h => by cases st <;> exact h
  | .G_IO_IN :: events, .running r, env, reads, h =>
    readerRun_calls events _ _ _ (read_again_calls reads r env 0 h)
  | .G_IO_HUP :: events, .running r, env, reads, h =>
    readerRun_calls events _ _ _ (soup_transfer_read_error_cb_calls h)
  | _ :: _, .freed _, _, _, h => h
  | _ :: _, .aborted, _, _, h => h

/-- Whatever the channel does and whatever the callbacks answer, a reader with
    all four callbacks set calls `headers_done_cb` first and at most once, then
    chunk callbacks, then at most one of `read_done_cb` and `error_cb`, and nothing
    after a callback that returned `SOUP_TRANSFER_END`; the one exception is a lone
    `read_done_cb`, when the stream ends before the header boundary. -/
theorem readerRun_call_order (overwrite_chunks : Bool) (headersReplies : List HeadersReply)
    (chunkReplies : List SoupTransferDone) (reads : List ReadResult) (events : List ReadEvent) :
    let calls := (readerRun (.running (soup_transfer_read overwrite_chunks true true true true))
      ⟨headersReplies, chunkReplies, []⟩ reads events).2.1.calls
    calls = [] ∨ HeaderOpen calls ∨ Closed calls := by
  have h := readerRun_calls events (.running (soup_transfer_read overwrite_chunks true true true true))
    ⟨headersReplies, chunkReplies, []⟩ reads ⟨⟨rfl, rfl, rfl, rfl⟩, by simp [soup_transfer_read]⟩
  generalize readerRun _ _ reads events = res at h ⊢
  obtain ⟨_ | _ | _, env, _⟩ := res
  · obtain ⟨-, hcalls⟩ := h
    split_ifs at hcalls
    · exact .inl hcalls.1
    · exact .inr (.inl hcalls)
  · exact .inr (.inr h)
  · exact h.elim .inl (.inr ∘ .inl)

/-- A hangup before the header boundary: `read_done_cb` gets the bytes read so
    far and `headers_done_cb` is never called. -/
theorem readerRun_hangup_before_headers :
    (readerRun (.running (soup_transfer_read false true true true true)) ⟨[], [], []⟩
      [.ok (bytesOf "HTTP/1.1 200 OK\r\n")] [.G_IO_IN, .G_IO_HUP]).2.1.calls =
      [.read_done_cb (bytesOf "HTTP/1.1 200 OK\r\n")] := by
  decide

end libsoup.transfer
