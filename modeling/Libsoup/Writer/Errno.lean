import Libsoup.Writer.Steps

namespace libsoup.transfer

/-- The world of a writer whose callbacks leave `errno` clear: `errno` is zero,
    each coming `headers_done_cb` leaves it so, and `error_cb` has not run. -/
structure ErrnoClear (env : WriteEnv) : Prop where
  errno : env.errno = 0
  headers : ∀ e ∈ env.headersErrno, e.getD 0 = 0
  no_error_cb : ∀ b, WriteCall.error_cb b ∉ env.calls

/-- The producer's replies leave `errno` clear. -/
def RepliesClear (replies : List WriteChunkReply) : Prop := ∀ r ∈ replies, r.errno.getD 0 = 0

section Clear

variable {env : WriteEnv}

theorem ErrnoClear.setErrno (h : ErrnoClear env) {e : Option Nat} (he : e.getD 0 = 0) :
    ErrnoClear (env.setErrno e) := by
  cases e with
  | none => exact h
  | some e => exact ⟨he, h.headers, h.no_error_cb⟩

theorem ErrnoClear.call (h : ErrnoClear env) {c : WriteCall} (hc : ∀ b, c ≠ .error_cb b) :
    ErrnoClear (env.call c) :=
  ⟨h.errno, h.headers, fun b hb => by
    rcases List.mem_append.1 hb with hb | hb
    exacts [h.no_error_cb b hb, hc b (List.mem_singleton.1 hb).symm]⟩

theorem ErrnoClear.headersDone (h : ErrnoClear env) : ErrnoClear env.headersDone := by
  unfold WriteEnv.headersDone
  split
  · exact h.call (by simp)
  · next e rest hrest =>
    have hrest' : ErrnoClear { env with headersErrno := rest } :=
      ⟨h.errno, fun x hx => h.headers x (by simp [hrest, hx]), h.no_error_cb⟩
    exact (hrest'.call (by simp)).setErrno (h.headers e (by simp [hrest]))

theorem ErrnoClear.of_wrote (h : ErrnoClear env) (w : SoupWriter) (n : Nat) :
    ErrnoClear (wrote w env n).2 := by
  have hwire : ErrnoClear { env with wire := env.wire ++ w.write_buf.take n } :=
    ⟨h.errno, h.headers, h.no_error_cb⟩
  unfold wrote
  split_ifs
  exacts [hwire.headersDone, hwire, hwire]

theorem ErrnoClear.of_write_done (h : ErrnoClear env) (w : SoupWriter) :
    ErrnoClear (write_done w env).2 := by
  unfold write_done
  split_ifs
  exacts [h.call (by simp), h]

theorem nextWriteChunkReply_clear {replies : List WriteChunkReply} (h : RepliesClear replies) :
    (nextWriteChunkReply replies).1.errno.getD 0 = 0 ∧ RepliesClear (nextWriteChunkReply replies).2 := by
  cases replies with
  | nil => exact ⟨rfl, fun _ h => absurd h (List.not_mem_nil _)⟩
  | cons r rs => exact ⟨h r (List.mem_cons_self _ _), fun x hx => h x (List.mem_cons_of_mem _ hx)⟩

end Clear

/-- How the drain loop ends when `errno` stays clear: never in a failed write,
    with no failed write to come. -/
def DrainClear : DrainStep × WriteEnv × List WriteResult → Prop
  | (.failed _, _, _) => False
  | (_, env, writes) => ErrnoClear env ∧ .error ∉ writes

/-- A run of the handler, or of the writer, that keeps `errno` clear. -/
def RunClear (r : WriterStatus × WriteEnv × List WriteResult × List WriteChunkReply) : Prop :=
  ErrnoClear r.2.1 ∧ .error ∉ r.2.2.1 ∧ RepliesClear r.2.2.2

theorem drain_clear : ∀ (writes : List WriteResult) (w : SoupWriter) (env : WriteEnv),
    ErrnoClear env → .error ∉ writes → DrainClear (drain w env writes)
  | [], w, env, h, _ => by
    unfold drain
    split_ifs <;> exact ⟨h, List.not_mem_nil _⟩
  | .again :: _, w, env, h, hw => by
    unfold drain
    split_ifs <;> exact ⟨h, by simpa using hw⟩
  | .error :: _, _, _, _, hw => absurd (List.mem_cons_self _ _) hw
  | .ok n :: writes, w, env, h, hw => by
    have hw' : .error ∉ writes := fun hm => hw (List.mem_cons_of_mem _ hm)
    unfold drain
    split_ifs with hbuf herrno
    · exact ⟨h, hw⟩
    · exact absurd h.errno herrno
    · exact ⟨h, hw'⟩
    · dsimp only
      split
      · exact ⟨h.of_wrote w n, hw'⟩
      · exact drain_clear writes _ _ (h.of_wrote w n) hw'

theorem after_drain_clear {d : DrainStep × WriteEnv × List WriteResult} (hd : DrainClear d)
    {replies : List WriteChunkReply} (hr : RepliesClear replies)
    {produce : SoupWriter → WriteEnv → List WriteResult →
      WriterStatus × WriteEnv × List WriteResult × List WriteChunkReply}
    (hproduce : ∀ w env writes, ErrnoClear env → .error ∉ writes → RunClear (produce w env writes)) :
    RunClear (after_drain d replies produce) := by
  obtain ⟨w | w | w | _, env, writes⟩ := d
  · dsimp only [after_drain]
    split_ifs
    · exact hproduce w env writes hd.1 hd.2
    · exact ⟨hd.1.of_write_done w, hd.2, hr⟩
  · exact ⟨hd.1, hd.2, hr⟩
  · exact hd.elim
  · exact ⟨hd.1, hd.2, hr⟩

theorem after_write_chunk_clear {w : SoupWriter} {env : WriteEnv} (h : ErrnoClear env)
    {reply : WriteChunkReply} (he : reply.errno.getD 0 = 0) {writes : List WriteResult}
    (hw : .error ∉ writes) {replies : List WriteChunkReply} (hr : RepliesClear replies)
    {k : SoupWriter → WriteEnv → WriterStatus × WriteEnv × List WriteResult × List WriteChunkReply}
    (hk : ∀ w env, ErrnoClear env → RunClear (k w env)) :
    RunClear (after_write_chunk w env reply writes replies k) := by
  have h' := (h.call (c := .write_chunk_cb reply.buf reply.ret) (by simp)).setErrno he
  unfold after_write_chunk
  split_ifs
  · exact hk _ _ h'
  · exact ⟨h', hw, hr⟩
  · exact ⟨h'.of_write_done _, hw, hr⟩

theorem write_again_clear : ∀ (replies : List WriteChunkReply) (w : SoupWriter) (env : WriteEnv)
    (writes : List WriteResult), ErrnoClear env → .error ∉ writes → RepliesClear replies →
    RunClear (write_again w env writes replies)
  | [], w, env, writes, h, hw, hr =>
    after_drain_clear (drain_clear writes w env h hw) hr fun _ _ _ h hw =>
      after_write_chunk_clear h (show WriteChunkReply.initial.errno.getD 0 = 0 from rfl) hw hr
        fun _ _ h => ⟨h, hw, hr⟩
  | reply :: replies, w, env, writes, h, hw, hr =>
    have hrs : RepliesClear replies := fun x hx => hr x (List.mem_cons_of_mem _ hx)
    after_drain_clear (drain_clear writes w env h hw) hr fun _ _ _ h hw =>
      after_write_chunk_clear h (hr reply (List.mem_cons_self _ _)) hw hrs
        fun w env h => write_again_clear replies w env _ h hw hrs

theorem writerRun_clear : ∀ (events : List WriteEvent) (st : WriterStatus) (env : WriteEnv)
    (writes : List WriteResult) (replies : List WriteChunkReply), .G_IO_HUP ∉ events →
    RunClear (st, env, writes, replies) → RunClear (writerRun st env writes replies events)
  | [], st, _, _, _, _, h => by cases st <;> exact h
  | .G_IO_OUT :: events, .running w, env, writes, replies, hev, ⟨h, hw, hr⟩ =>
    writerRun_clear events _ _ _ _ (fun hm => hev (List.mem_cons_of_mem _ hm))
      (write_again_clear replies w _ writes ⟨rfl, h.headers, h.no_error_cb⟩ hw hr)
  | .G_IO_HUP :: _, .running _, _, _, _, hev, _ => absurd (List.mem_cons_self _ _) hev
  | _ :: _, .freed, _, _, _, _, h => h
  | _ :: _, .aborted, _, _, _, _, h => h

/-- With callbacks that leave `errno` clear, the writer reports an error only
    when the channel does: a session whose writes never fail and whose error
    watch never fires makes no `error_cb` call. -/
theorem writerSession_no_error_cb (header src : Option (List UInt8)) (encoding : SoupTransferEncoding)
    (headers_done_cb write_chunk_cb write_done_cb error_cb : Bool) (headersErrno : List (Option Nat))
    (replies : List WriteChunkReply) (writes : List WriteResult) (events : List WriteEvent)
    (hheaders : ∀ e ∈ headersErrno, e.getD 0 = 0) (hreplies : ∀ r ∈ replies, r.errno.getD 0 = 0)
    (hwrites : .error ∉ writes) (hevents : .G_IO_HUP ∉ events) (b : Bool) :
    WriteCall.error_cb b ∉ (writerSession header src encoding headers_done_cb write_chunk_cb
      write_done_cb error_cb headersErrno replies writes events).2.1.calls := by
  have h0 : ErrnoClear ⟨headersErrno, 0, [], []⟩ := ⟨rfl, hheaders, fun _ => List.not_mem_nil _⟩
  obtain ⟨he, hrs⟩ := nextWriteChunkReply_clear hreplies
  have hstart : RunClear (.running (soup_transfer_write header src encoding headers_done_cb
      write_chunk_cb write_done_cb error_cb ⟨headersErrno, 0, [], []⟩ replies).1,
      (soup_transfer_write header src encoding headers_done_cb write_chunk_cb write_done_cb
        error_cb ⟨headersErrno, 0, [], []⟩ replies).2.1, writes,
      (soup_transfer_write header src encoding headers_done_cb write_chunk_cb write_done_cb
        error_cb ⟨headersErrno, 0, [], []⟩ replies).2.2) := by
    rw [soup_transfer_write_eq]
    cases write_chunk_cb
    exacts [⟨h0, hwrites, hreplies⟩, ⟨(h0.call (by simp)).setErrno he, hwrites, hrs⟩]
  exact (writerRun_clear events _ _ writes _ hevents hstart).1.no_error_cb b

theorem writerSession_no_error_cb_clean :
    (∀ e ∈ [some 0], e.getD 0 = 0) ∧ (∀ r ∈ ([] : List WriteChunkReply), r.errno.getD 0 = 0) ∧
      WriteResult.error ∉ [.ok 9, .ok 2] ∧ WriteEvent.G_IO_HUP ∉ [.G_IO_OUT] ∧
      WriteCall.error_cb true ∉ (writerSession (some (bytesOf "GET /\r\n\r\n")) (some (bytesOf "ab"))
        .SOUP_TRANSFER_CONTENT_LENGTH true false true true [some 0] [] [.ok 9, .ok 2]
        [.G_IO_OUT]).2.1.calls :=
  ⟨by decide, by decide, by decide, by decide,
    writerSession_no_error_cb _ _ _ _ _ _ _ _ _ _ _ (by decide) (by decide) (by decide) (by decide) _⟩

/-- The same session with a `headers_done_cb` that leaves `errno` set: the
    channel takes the header, then the body, and the writer still calls
    `error_cb`, with the whole request on the wire. -/
theorem writerSession_errno_after_headers :
    writerSession (some (bytesOf "GET /\r\n\r\n")) (some (bytesOf "ab")) .SOUP_TRANSFER_CONTENT_LENGTH
        true false true true [some 5] [] [.ok 9, .ok 2] [.G_IO_OUT] =
      (.freed, ⟨[], 5, [.headers_done_cb, .error_cb true], bytesOf "GET /\r\n\r\nab"⟩, [], []) := by
  decide

end libsoup.transfer
