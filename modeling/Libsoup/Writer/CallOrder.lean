import Libsoup.Writer.Steps

namespace libsoup.transfer

/-- A call that ends the transfer: `write_done_cb` or `error_cb`. -/
def WriteCall.ends : WriteCall → Bool
  | .write_done_cb => true
  | .error_cb _ => true
  | _ => false

/-- A call of the producer `write_chunk_cb`. -/
def WriteCall.produces : WriteCall → Bool
  | .write_chunk_cb _ _ => true
  | _ => false

/-- Once the producer has returned `SOUP_TRANSFER_END` on its first call, or
    without handing back bytes, it is not called again. -/
def ProducerStops (calls : List WriteCall) : Prop :=
  ∀ pre buf post, calls = pre ++ .write_chunk_cb buf .SOUP_TRANSFER_END :: post →
    (pre = [] ∨ buf.getD [] = []) → ∀ c ∈ post, c.produces = false

/-- Every `SOUP_TRANSFER_END` of the producer so far came after its first call
    and handed back bytes. -/
def ProducerOpen (calls : List WriteCall) : Prop :=
  ∀ pre buf post, calls = pre ++ .write_chunk_cb buf .SOUP_TRANSFER_END :: post →
    pre ≠ [] ∧ buf.getD [] ≠ []

theorem snoc_eq_append_cons {α : Type} {xs pre post : List α} {c x : α}
    (h : xs ++ [c] = pre ++ x :: post) :
    (post = [] ∧ pre = xs ∧ x = c) ∨ ∃ post', post = post' ++ [c] ∧ xs = pre ++ x :: post' := by
  rcases List.eq_nil_or_concat post with rfl | ⟨post', y, rfl⟩
  · have hsplit := List.append_inj' h rfl
    exact .inl ⟨rfl, hsplit.1.symm, (List.cons.inj hsplit.2).1.symm⟩
  · rw [List.concat_eq_append, ← List.cons_append, ← List.append_assoc] at h
    have hsplit := List.append_inj' h rfl
    exact .inr ⟨post', by rw [List.concat_eq_append, (List.cons.inj hsplit.2).1], hsplit.1⟩

theorem ProducerStops.nil : ProducerStops [] := by
  intro pre _ _ h
  simp at h

theorem ProducerOpen.nil : ProducerOpen [] := by
  intro pre _ _ h
  simp at h

theorem ProducerStops.snoc {calls : List WriteCall} {c : WriteCall} (h : ProducerStops calls)
    (hc : c.produces → ProducerOpen calls) : ProducerStops (calls ++ [c]) := by
  intro pre buf post heq hstop c' hc'
  rcases snoc_eq_append_cons heq with ⟨rfl, -, -⟩ | ⟨post', rfl, rfl⟩
  · simp at hc'
  · rcases List.mem_append.mp hc' with hc' | hc'
    · exact h pre buf post' rfl hstop c' hc'
    · rw [List.mem_singleton.mp hc']
      by_contra hprod
      have hopen := hc (by simpa using hprod) pre buf post' rfl
      rcases hstop with hpre | hbuf
      exacts [hopen.1 hpre, hopen.2 hbuf]

theorem ProducerOpen.snoc {calls : List WriteCall} {c : WriteCall} (h : ProducerOpen calls)
    (hc : ∀ buf, c = .write_chunk_cb buf .SOUP_TRANSFER_END → calls ≠ [] ∧ buf.getD [] ≠ []) :
    ProducerOpen (calls ++ [c]) := by
  intro pre buf post heq
  rcases snoc_eq_append_cons heq with ⟨-, rfl, rfl⟩ | ⟨post', -, heq'⟩
  · exact hc buf rfl
  · exact h pre buf post' heq'

/-- The calls of a writer that is still watched, given its `headers_done` and
    whether it still has a producer: none has ended the transfer,
    `headers_done_cb` was called exactly when `headers_done` is set, and a
    producer still asked has been called and has not stopped. -/
structure CallsOpen (headers_done producing : Bool) (calls : List WriteCall) : Prop where
  not_ended : ∀ c ∈ calls, c.ends = false
  headers : calls.count .headers_done_cb = if headers_done then 1 else 0
  stops : ProducerStops calls
  producer : producing → calls ≠ [] ∧ ProducerOpen calls

/-- The calls once the writer is gone: `headers_done_cb` came at most once, the
    producer stopped when it should, and a freed writer's last call, and only
    that one, ended the transfer. -/
def CallsDone : WriterStatus → List WriteCall → Prop
  | .freed, calls => calls.count .headers_done_cb ≤ 1 ∧ ProducerStops calls ∧
      ∃ pre last, calls = pre ++ [last] ∧ last.ends ∧ ∀ c ∈ pre, c.ends = false
  | _, calls => calls.count .headers_done_cb ≤ 1 ∧ ProducerStops calls ∧ ∀ c ∈ calls, c.ends = false

/-- The call-order invariant of a watched writer whose three callbacks are set. -/
def WriterCallsInv (w : SoupWriter) (env : WriteEnv) : Prop :=
  (w.headers_done_cb ∧ w.write_done_cb ∧ w.error_cb) ∧
    CallsOpen w.headers_done w.write_chunk_cb env.calls

section CallsOpen

variable {headers_done producing : Bool} {calls : List WriteCall}

theorem CallsOpen.count_le (h : CallsOpen headers_done producing calls) :
    calls.count .headers_done_cb ≤ 1 := by
  rw [h.headers]; split <;> omega

theorem CallsOpen.aborted (h : CallsOpen headers_done producing calls) :
    CallsDone .aborted calls :=
  ⟨h.count_le, h.stops, h.not_ended⟩

theorem CallsOpen.ended (h : CallsOpen headers_done producing calls) {c : WriteCall}
    (hc : c.ends) : CallsDone .freed (calls ++ [c]) := by
  have hprod : c.produces = false := by cases c <;> simp_all [WriteCall.ends, WriteCall.produces]
  refine ⟨?_, h.stops.snoc (by simp [hprod]), calls, c, rfl, hc, h.not_ended⟩
  have hne : c ≠ .headers_done_cb := by rintro rfl; simp [WriteCall.ends] at hc
  simpa [List.count_singleton, Ne.symm hne] using h.count_le

theorem CallsOpen.headers_called (h : CallsOpen false producing calls) :
    CallsOpen true producing (calls ++ [.headers_done_cb]) where
  not_ended := List.forall_mem_append.2 ⟨h.not_ended, by simp [WriteCall.ends]⟩
  headers := by simpa using h.headers
  stops := h.stops.snoc (by simp [WriteCall.produces])
  producer hp := ⟨by simp, (h.producer hp).2.snoc (by simp)⟩

theorem CallsOpen.produced (h : CallsOpen headers_done true calls) (buf : Option (List UInt8))
    (ret : SoupTransferDone) (hbuf : ret = .SOUP_TRANSFER_END → buf.getD [] ≠ []) :
    CallsOpen headers_done true (calls ++ [.write_chunk_cb buf ret]) where
  not_ended := List.forall_mem_append.2 ⟨h.not_ended, by simp [WriteCall.ends]⟩
  headers := by simpa using h.headers
  stops := h.stops.snoc fun _ => (h.producer rfl).2
  producer _ := ⟨by simp, (h.producer rfl).2.snoc fun buf' heq => by
    cases heq
    exact ⟨(h.producer rfl).1, hbuf rfl⟩⟩

theorem CallsOpen.stopped (h : CallsOpen headers_done true calls) (buf : Option (List UInt8))
    (ret : SoupTransferDone) :
    CallsOpen headers_done false (calls ++ [.write_chunk_cb buf ret]) where
  not_ended := List.forall_mem_append.2 ⟨h.not_ended, by simp [WriteCall.ends]⟩
  headers := by simpa using h.headers
  stops := h.stops.snoc fun _ => (h.producer rfl).2
  producer := by simp

/-- The calls of a new writer that has asked its producer once. -/
theorem CallsOpen.first (buf : Option (List UInt8)) (ret : SoupTransferDone) (producing : Bool)
    (hp : producing → ret ≠ .SOUP_TRANSFER_END) :
    CallsOpen false producing [.write_chunk_cb buf ret] where
  not_ended := by simp [WriteCall.ends]
  headers := by simp
  stops := by simpa using ProducerStops.nil.snoc (c := .write_chunk_cb buf ret) fun _ => ProducerOpen.nil
  producer hprod := ⟨by simp, by
    simpa using ProducerOpen.nil.snoc (c := .write_chunk_cb buf ret)
      fun _ heq => absurd (WriteCall.write_chunk_cb.inj heq).2 (hp hprod)⟩

end CallsOpen

theorem wrote_callsInv {w : SoupWriter} {env : WriteEnv} (h : WriterCallsInv w env) (n : Nat) :
    WriterCallsInv (wrote w env n).1 (wrote w env n).2 := by
  refine ⟨by simpa [wrote_fst] using h.1, ?_⟩
  rw [wrote_fst, wrote_calls]
  cases hdone : w.headers_done
  · by_cases hn : w.header_len ≤ n
    · simpa [hn, h.1.1] using (show CallsOpen false _ _ from hdone ▸ h.2).headers_called
    · simpa [hn, hdone] using h.2
  · simpa [hdone] using h.2

/-- The steps of the write handler keep the call-order invariant. -/
theorem writerCallsInv_steps :
    WriteSteps WriterCallsInv (fun st env => CallsDone st env.calls) where
  wrote w env n h _ _ _ := by
    have hw := wrote_callsInv h n
    exact ⟨fun _ => hw, fun _ => hw.2.aborted⟩
  failed w env _ h _ := by
    simpa [soup_transfer_write_error_cb, h.1.2.2] using h.2.ended (c := .error_cb w.headers_done) rfl
  produced w env reply h _ hcb := by
    have hopen : CallsOpen w.headers_done true env.calls := hcb ▸ h.2
    refine ⟨fun hne => ⟨by simpa [write_chunk_eq] using h.1, ?_⟩, fun _ hcont => ⟨h.1, ?_⟩,
      fun hnil _ => ?_⟩
    · simpa [write_chunk_eq, hcb] using hopen.produced reply.buf reply.ret fun _ => hne
    · simpa [hcb] using hopen.produced reply.buf reply.ret fun hend => by simp_all
    · simpa [write_done, end_chunks_eq, h.1.2.1] using
        (hopen.stopped reply.buf reply.ret).ended (c := .write_done_cb) rfl
  finished w env h _ hcb := by
    simpa [write_done, h.1.2.1] using h.2.ended (c := .write_done_cb) rfl
  start _ _ h := h

/-- A new writer with its three callbacks set starts with the call-order
    invariant. -/
theorem soup_transfer_write_writerCallsInv (header src : Option (List UInt8))
    (encoding : SoupTransferEncoding) (write_chunk_cb : Bool) (env : WriteEnv)
    (replies : List WriteChunkReply) (henv : env.calls = []) :
    let c := soup_transfer_write header src encoding true write_chunk_cb true true env replies
    WriterCallsInv c.1 c.2.1 := by
  show WriterCallsInv (soup_transfer_write _ _ _ _ _ _ _ _ _).1 (soup_transfer_write _ _ _ _ _ _ _ _ _).2.1
  rw [soup_transfer_write_eq]
  refine ⟨⟨rfl, rfl, rfl⟩, ?_⟩
  cases write_chunk_cb
  · simpa [henv] using (⟨by simp, by simp, ProducerStops.nil, by simp⟩ : CallsOpen false false [])
  · simpa [henv] using CallsOpen.first _ _ _ (by simp)

theorem calls_of_statusInv {st : WriterStatus} {env : WriteEnv}
    (h : WStatusInv WriterCallsInv (fun st env => CallsDone st env.calls) st env) :
    env.calls.count .headers_done_cb ≤ 1 ∧ ProducerStops env.calls ∧
      ((∀ call ∈ env.calls, call.ends = false) ∨
        (st = .freed ∧ ∃ pre last, env.calls = pre ++ [last] ∧ last.ends ∧
          ∀ call ∈ pre, call.ends = false)) := by
  cases st with
  | running w => exact ⟨h.2.count_le, h.2.stops, .inl h.2.not_ended⟩
  | freed => exact ⟨h.1, h.2.1, .inr ⟨rfl, h.2.2⟩⟩
  | aborted => exact ⟨h.1, h.2.1, .inl h.2.2⟩

/-- Under any interleaving of the two watches, any channel results and any
    producer replies, a writer with its three callbacks set calls
    `headers_done_cb` at most once, ends the transfer with `write_done_cb` or
    `error_cb` at most once, as its last call and only when it is freed, and
    does not ask again a producer that ended at once or without bytes. -/
theorem writerRun_call_order (header src : Option (List UInt8)) (encoding : SoupTransferEncoding)
    (write_chunk_cb : Bool) (headersErrno : List (Option Nat)) (replies : List WriteChunkReply)
    (writes : List WriteResult) (events : List WriteEvent) :
    let res := writerSession header src encoding true write_chunk_cb true true headersErrno replies
      writes events
    res.2.1.calls.count .headers_done_cb ≤ 1 ∧ ProducerStops res.2.1.calls ∧
      ((∀ call ∈ res.2.1.calls, call.ends = false) ∨
        (res.1 = .freed ∧ ∃ pre last, res.2.1.calls = pre ++ [last] ∧ last.ends ∧
          ∀ call ∈ pre, call.ends = false)) :=
  calls_of_statusInv (writerRun_holds writerCallsInv_steps events _ _ writes _
    (soup_transfer_write_writerCallsInv header src encoding write_chunk_cb _ replies rfl))

/-- A producer that returns `SOUP_TRANSFER_END` together with bytes after its
    first call is asked again once they are written. -/
theorem writerRun_end_with_bytes :
    (writerSession none none .SOUP_TRANSFER_CONTENT_LENGTH true true true true []
      [⟨none, .SOUP_TRANSFER_CONTINUE, none⟩, ⟨some (bytesOf "x"), .SOUP_TRANSFER_END, none⟩]
      [.ok 1] [.G_IO_OUT]).2.1 =
      ⟨[], 0, [.write_chunk_cb none .SOUP_TRANSFER_CONTINUE,
        .write_chunk_cb (some (bytesOf "x")) .SOUP_TRANSFER_END, .headers_done_cb,
        .write_chunk_cb none .SOUP_TRANSFER_END, .write_done_cb], bytesOf "x"⟩ := by
  decide

end libsoup.transfer
