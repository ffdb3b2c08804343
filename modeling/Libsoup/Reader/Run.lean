import Libsoup.Reader.Steps

namespace libsoup.transfer

/-- The bytes returned by the successful reads of `reads`. -/
def okBytes : List ReadResult → List UInt8
  | [] => []
  | .ok bytes :: reads => bytes ++ okBytes reads
  | .again :: reads => okBytes reads
  | .error :: reads => okBytes reads

@[simp] theorem okBytes_nil : okBytes [] = [] := rfl

@[simp] theorem okBytes_ok (bytes : List UInt8) (reads : List ReadResult) :
    okBytes (.ok bytes :: reads) = bytes ++ okBytes reads := rfl

@[simp] theorem okBytes_again (reads : List ReadResult) : okBytes (.again :: reads) = okBytes reads :=
  rfl

/-- A channel result of a stream cut into reads: a read that returns some
    bytes, or one that would block. -/
def ReadResult.isPiece : ReadResult → Bool
  | .ok (_ :: _) => true
  | .again => true
  | _ => false

/-- Channel results of a byte stream cut into reads: the stream neither ends
    (a zero-byte read) nor fails. -/
def SplitReads (reads : List ReadResult) : Prop :=
  ∀ x ∈ reads, x.isPiece

/-- `reads` cut the byte stream `S` into reads. -/
def SplitOf (S : List UInt8) (reads : List ReadResult) : Prop :=
  SplitReads reads ∧ okBytes reads = S

instance (reads : List ReadResult) : Decidable (SplitReads reads) :=
  inferInstanceAs (Decidable (∀ x ∈ reads, x.isPiece))

instance (S : List UInt8) (reads : List ReadResult) : Decidable (SplitOf S reads) :=
  inferInstanceAs (Decidable (SplitReads reads ∧ okBytes reads = S))

theorem SplitReads.tail {x : ReadResult} {reads : List ReadResult} (h : SplitReads (x :: reads)) :
    SplitReads reads :=
  fun y hy => h y (List.mem_cons_of_mem x hy)

theorem ProcessStep.holds.mono {P Q : ReaderStatus → ReadEnv → Prop}
    (hPQ : ∀ st env, P st env → Q st env) {p : ProcessStep × ReadEnv}
    (hp : ProcessStep.holds P p) : ProcessStep.holds Q p := by
  obtain ⟨_ | _, env⟩ := p
  exacts [hPQ _ _ hp, hPQ _ _ hp]

/-- Leaving `PROCESS_READ` keeps a property of the handler's result when the
    continuation keeps it from a reader about to read again. -/
theorem after_process_holds (Q : ReaderStatus × ReadEnv × List ReadResult → Prop)
    {p : ProcessStep × ReadEnv} {reads : List ReadResult}
    {k : SoupReader → ReadEnv → ReaderStatus × ReadEnv × List ReadResult}
    (hp : ProcessStep.holds (fun st env => Q (st, env, reads)) p)
    (hk : ∀ r env, Q (.running r, env, reads) → Q (k r env)) : Q (after_process p reads k) := by
  obtain ⟨_ | _, env⟩ := p
  · exact hk _ _ hp
  · exact hp

/-- Leaving `PROCESS_READ` leaves a suffix of the channel results when the
    continuation does. -/
theorem after_process_suffix (p : ProcessStep × ReadEnv) {reads : List ReadResult}
    {k : SoupReader → ReadEnv → ReaderStatus × ReadEnv × List ReadResult}
    (hk : ∀ r env, (k r env).2.2 <:+ reads) : (after_process p reads k).2.2 <:+ reads := by
  obtain ⟨_ | _, env⟩ := p
  exacts [hk _ _, List.suffix_refl _]

/-- A run of the read handler consumes the first channel result, if there is
    one, and perhaps more. -/
theorem read_again_suffix : ∀ (reads : List ReadResult) (r : SoupReader) (env : ReadEnv) (total_read : Nat),
    (read_again r env total_read reads).2.2 <:+ reads.tail
  | [], r, env, total_read => by
    unfold read_again
    split_ifs
    exacts [List.suffix_refl _, after_process_suffix _ fun _ _ => List.suffix_refl _]
  | .again :: reads, r, env, total_read => by
    unfold read_again
    split_ifs
    exacts [List.suffix_refl _,
      after_process_suffix _ fun r env => (read_again_suffix reads r env 0).trans (List.tail_suffix _)]
  | .error :: reads, r, env, total_read => by
    unfold read_again
    split_ifs
    exacts [List.suffix_refl _,
      after_process_suffix _ fun r env => (read_again_suffix reads r env 0).trans (List.tail_suffix _)]
  | .ok [] :: reads, r, env, total_read =>
    after_process_suffix _ fun r env => (read_again_suffix reads r env 0).trans (List.tail_suffix _)
  | .ok (_ :: _) :: reads, r, env, _ => (read_again_suffix reads _ env _).trans (List.tail_suffix _)

/-- Each readable event on a watched reader consumes at least one channel
    result: a reader still watched after `n` events has at most `reads.length - n`
    of them left. -/
theorem readerRun_replicate_length : ∀ (n : Nat) (r : SoupReader) (env : ReadEnv) (reads : List ReadResult),
    (∃ r', (readerRun (.running r) env reads (List.replicate n .G_IO_IN)).1 = .running r') →
    (readerRun (.running r) env reads (List.replicate n .G_IO_IN)).2.2.length ≤ reads.length - n
  | 0, _, _, _, _ => le_rfl
  | n + 1, r, env, reads, h => by
    have hlen := (read_again_suffix reads r env 0).length_le
    simp only [List.replicate_succ, readerRun, soup_transfer_read_cb] at h ⊢
    generalize read_again r env 0 reads = res at h hlen ⊢
    obtain ⟨st, env', rest⟩ := res
    cases st with
    | running r' =>
      have := readerRun_replicate_length n r' env' rest h
      simp only [List.length_tail] at hlen ⊢
      omega
    | freed b => simp at h
    | aborted => simp at h

/-- A read of the stream `L` past its first `k` bytes. -/
theorem take_append_of_drop {L x rest : List UInt8} {k : Nat} (h : x ++ rest = L.drop k) :
    L.take k ++ x = L.take (k + x.length) ∧ rest = L.drop (k + x.length) := by
  constructor
  · rw [List.take_add, ← h, List.take_left]
  · rw [← List.drop_drop, ← h, List.drop_left]

/-- Readable events leave a suffix of the channel results. -/
theorem readerRun_suffix : ∀ (n : Nat) (st : ReaderStatus) (env : ReadEnv) (reads : List ReadResult),
    (readerRun st env reads (List.replicate n .G_IO_IN)).2.2 <:+ reads
  | 0, st, _, _ => by cases st <;> exact List.suffix_refl _
  | n + 1, .running r, env, reads => by
    simp only [List.replicate_succ, readerRun, soup_transfer_read_cb]
    exact (readerRun_suffix n _ _ _).trans ((read_again_suffix reads r env 0).trans (List.tail_suffix _))
  | _ + 1, .freed _, _, _ => by simp
  | _ + 1, .aborted, _, _ => by simp

section Lifting

variable (Mid : SoupReader → ReadEnv → Nat → List ReadResult → Prop)
  (Done : ReaderStatus → ReadEnv → List ReadResult → Prop)

/-- An invariant of the reader between handler runs: `Mid` with no byte in
    the current batch while the reader is watched, `Done` once it is freed or the
    process has aborted. -/
def StatusInv : ReaderStatus → ReadEnv → List ReadResult → Prop
  | .running r, env, reads => Mid r env 0 reads
  | st, env, reads => Done st env reads

/-- The steps of the read handler over a stream cut into reads that an
    invariant `Mid` of the reader, its world, the bytes of the current batch and
    the channel results still to come has to survive: a read's bytes appended, a
    would-block result passed, and `PROCESS_READ` on a batch of some bytes. -/
structure SplitSteps : Prop where
  append : ∀ r env total b bytes reads, Mid r env total (.ok (b :: bytes) :: reads) →
    Mid { r with recv_buf := r.recv_buf ++ b :: bytes } env (total + (b :: bytes).length) reads
  skip : ∀ r env total reads, Mid r env total (.again :: reads) → Mid r env total reads
  process : ∀ r env total reads, total ≠ 0 → Mid r env total reads →
    ProcessStep.holds (fun st env => StatusInv Mid Done st env reads) (process_read r env total)

variable {Mid Done}

/-- One run of the read handler over a stream cut into reads keeps an
    invariant that its steps keep. -/
theorem read_again_split (hsteps : SplitSteps Mid Done) :
    ∀ (reads : List ReadResult) (r : SoupReader) (env : ReadEnv) (total_read : Nat),
    SplitReads reads → Mid r env total_read reads →
    SplitReads (read_again r env total_read reads).2.2 ∧
      StatusInv Mid Done (read_again r env total_read reads).1 (read_again r env total_read reads).2.1
        (read_again r env total_read reads).2.2
  | [], r, env, total_read, hsplit, hmid => by
    unfold read_again
    split_ifs with h
    · exact ⟨hsplit, show Mid r env 0 [] from h ▸ hmid⟩
    · exact after_process_holds (fun res => SplitReads res.2.2 ∧ StatusInv Mid Done res.1 res.2.1 res.2.2)
        ((hsteps.process r env total_read [] h hmid).mono fun _ _ hinv => ⟨hsplit, hinv⟩)
        fun _ _ h => h
  | .again :: reads, r, env, total_read, hsplit, hmid => by
    have hmid' := hsteps.skip _ _ _ _ hmid
    unfold read_again
    split_ifs with h
    · exact ⟨hsplit.tail, show Mid r env 0 reads from h ▸ hmid'⟩
    · exact after_process_holds (fun res => SplitReads res.2.2 ∧ StatusInv Mid Done res.1 res.2.1 res.2.2)
        ((hsteps.process r env total_read reads h hmid').mono fun _ _ hinv => ⟨hsplit.tail, hinv⟩)
        fun r env h => read_again_split hsteps reads r env 0 h.1 h.2
  | .error :: _, _, _, _, hsplit, _ => absurd (hsplit _ (List.mem_cons_self _ _)) (by decide)
  | .ok [] :: _, _, _, _, hsplit, _ => absurd (hsplit _ (List.mem_cons_self _ _)) (by decide)
  | .ok (_ :: _) :: reads, _, env, _, hsplit, hmid =>
    read_again_split hsteps reads _ env _ hsplit.tail (hsteps.append _ _ _ _ _ _ hmid)

/-- Readable events on a stream cut into reads keep an invariant that the
    handler's steps keep. -/
theorem readerRun_split (hsteps : SplitSteps Mid Done) :
    ∀ (n : Nat) (st : ReaderStatus) (env : ReadEnv) (reads : List ReadResult),
    SplitReads reads → StatusInv Mid Done st env reads →
    SplitReads (readerRun st env reads (List.replicate n .G_IO_IN)).2.2 ∧
      StatusInv Mid Done (readerRun st env reads (List.replicate n .G_IO_IN)).1
        (readerRun st env reads (List.replicate n .G_IO_IN)).2.1
        (readerRun st env reads (List.replicate n .G_IO_IN)).2.2
  | 0, st, _, _, hsplit, hinv => by cases st <;> exact ⟨hsplit, hinv⟩
  | n + 1, .running r, env, reads, hsplit, hinv =>
    have h := read_again_split hsteps reads r env 0 hsplit hinv
    readerRun_split hsteps n _ _ _ h.1 h.2
  | _ + 1, .freed _, _, _, hsplit, hinv => ⟨hsplit, hinv⟩
  | _ + 1, .aborted, _, _, hsplit, hinv => ⟨hsplit, hinv⟩

end Lifting

end libsoup.transfer
