import Libsoup.Reader.Steps

open libsoup.misc

namespace libsoup.transfer

/-- A chunk size line: hex digits, an extension, and CRLF. -/
structure SizeLine where
  digits : List UInt8
  ext : List UInt8
  deriving DecidableEq, Repr

def SizeLine.bytes (l : SizeLine) : List UInt8 := l.digits ++ l.ext ++ bytesOf "\r\n"

/-- The size line gives the size `value`: its digits are hex digits of any
    width and case that spell `value`, which fits a `gint`, and its extension,
    if any, starts with ';' and holds no CR. -/
def SizeLine.Spells (l : SizeLine) (value : Nat) : Prop :=
  l.digits ≠ [] ∧ (∀ c ∈ l.digits, isxdigit c) ∧ hexValue l.digits = value ∧ value < 2 ^ 31 ∧
    (l.ext = [] ∨ l.ext.head? = some 0x3b) ∧ 0x0d ∉ l.ext

instance (l : SizeLine) (value : Nat) : Decidable (l.Spells value) :=
  inferInstanceAs (Decidable (l.digits ≠ [] ∧ (∀ c ∈ l.digits, isxdigit c) ∧
    hexValue l.digits = value ∧ value < 2 ^ 31 ∧ (l.ext = [] ∨ l.ext.head? = some 0x3b) ∧
    0x0d ∉ l.ext))

/-- A data chunk: a size line and the bytes it announces. -/
structure Chunk where
  line : SizeLine
  data : List UInt8
  deriving DecidableEq, Repr

def Chunk.WellFormed (c : Chunk) : Prop := c.data ≠ [] ∧ c.line.Spells c.data.length

instance (c : Chunk) : Decidable c.WellFormed :=
  inferInstanceAs (Decidable (c.data ≠ [] ∧ c.line.Spells c.data.length))

/-- The chunked encoding of `chunks`, closed by the zero-size line `last` and
    the final CRLF, without trailers. -/
def chunkedBody (chunks : List Chunk) (last : SizeLine) : List UInt8 :=
  (chunks.map fun c => c.line.bytes ++ c.data ++ bytesOf "\r\n").flatten ++ last.bytes ++
    bytesOf "\r\n"

/-- The body that `chunks` carry. -/
def chunkedData (chunks : List Chunk) : List UInt8 := (chunks.map Chunk.data).flatten

@[simp] theorem chunkedBody_cons (c : Chunk) (chunks : List Chunk) (last : SizeLine) :
    chunkedBody (c :: chunks) last =
      c.line.bytes ++ c.data ++ bytesOf "\r\n" ++ chunkedBody chunks last := by
  simp [chunkedBody]

@[simp] theorem chunkedData_nil : chunkedData [] = [] := rfl

@[simp] theorem chunkedData_append (xs ys : List Chunk) :
    chunkedData (xs ++ ys) = chunkedData xs ++ chunkedData ys := by
  simp [chunkedData]

@[simp] theorem chunkedData_cons (c : Chunk) (chunks : List Chunk) :
    chunkedData (c :: chunks) = c.data ++ chunkedData chunks := rfl

/-- A CRLF after bytes with no CR is the first one. -/
theorem soup_substring_index_crlf {pre : List UInt8} (hpre : 0x0d ∉ pre) (X : List UInt8)
    {len : Int} (hlen : (pre.length : Int) + 2 ≤ len) :
    soup_substring_index (pre ++ bytesOf "\r\n" ++ X) len (bytesOf "\r\n") = pre.length := by
  have hocc : bytesOf "\r\n" <+: (pre ++ bytesOf "\r\n" ++ X).drop pre.length := by
    simp [List.append_assoc]
  have hnone : ∀ u < pre.length, ¬ bytesOf "\r\n" <+: (pre ++ bytesOf "\r\n" ++ X).drop u := by
    rintro u hu ⟨rest, hrest⟩
    have hhead := congrArg List.head? hrest
    rw [List.head?_drop, List.append_assoc, List.getElem?_append_left hu] at hhead
    exact hpre (List.getElem?_mem (by simpa using hhead.symm))
  rcases @soup_substring_index_cases len (bytesOf "\r\n") (by simp) (pre ++ bytesOf "\r\n" ++ X) with
    ⟨-, hno⟩ | ⟨t, ht, -, htocc, hfirst⟩
  · exact absurd hocc (hno _ (by simp; omega))
  · rw [ht]
    rcases Nat.lt_trichotomy t pre.length with hlt | heq | hgt
    · exact absurd htocc (hnone t hlt)
    · rw [heq]
    · exact absurd hocc (hfirst _ hgt)

section SizeLine

variable {l : SizeLine} {value : Nat}

theorem SizeLine.Spells.no_cr_digits (hl : l.Spells value) : 0x0d ∉ l.digits := fun h =>
  absurd (hl.2.1 _ h) (by decide)

/-- `decode_hex` reads exactly the digits of a size line. -/
theorem decode_hex_sizeLine (hl : l.Spells value) (X : List UInt8) :
    decode_hex (l.bytes ++ X) = ((value : Int), l.digits.length) := by
  obtain ⟨-, hhex, hvalue, hsmall, hext, -⟩ := hl
  have htake : (l.bytes ++ X).takeWhile isxdigit = l.digits := by
    rw [SizeLine.bytes, List.append_assoc, List.append_assoc,
      List.takeWhile_append_of_pos hhex]
    rcases hext with hnil | hsemi
    · simp [hnil, isxdigit, isdigit]
    · obtain ⟨rest, hrest⟩ : ∃ rest, l.ext = 0x3b :: rest := by
        cases hE : l.ext with
        | nil => simp [hE] at hsemi
        | cons c rest => exact ⟨rest, by simp_all⟩
      simp [hrest, isxdigit, isdigit]
  rw [decode_hex_eq _ (by rw [htake, hvalue]; omega), htake, hvalue, toGint, if_pos hsmall]

/-- The size line's CRLF, searched for from its start. -/
theorem crlf_sizeLine (hl : l.Spells value) (X : List UInt8) :
    soup_substring_index (l.bytes ++ X) (l.bytes ++ X).length (bytesOf "\r\n") =
      l.digits.length + l.ext.length := by
  have hcr : 0x0d ∉ l.digits ++ l.ext := by simpa using ⟨hl.no_cr_digits, hl.2.2.2.2.2⟩
  simpa [SizeLine.bytes] using
    @soup_substring_index_crlf _ hcr X (l.bytes ++ X).length (by simp [SizeLine.bytes]; omega)

/-- `decode_chunk_size` on a size line at `idx`: the line is removed, and after
    a zero size the two bytes after it. -/
theorem decode_chunk_size_sizeLine (hl : l.Spells value) (P X : List UInt8) (ret : Bool) :
    decode_chunk_size P.length (P ++ l.bytes ++ X) ret =
      (remove_block_at_index (P ++ l.bytes ++ X) P.length
        (l.bytes.length + if value = 0 then 2 else 0)).map
        fun arr => (value, arr, if value = 0 then true else ret) := by
  have hdrop : (P ++ l.bytes ++ X).drop P.length = l.bytes ++ X := by simp
  have hext : (P ++ l.bytes ++ X).drop (P.length + l.digits.length) =
      l.ext ++ bytesOf "\r\n" ++ X := by
    simp [SizeLine.bytes, ← List.drop_drop, List.append_assoc]
  have hsearch := @soup_substring_index_crlf _ hl.2.2.2.2.2 X
    (((P ++ l.bytes ++ X).length : Int) - P.length - l.digits.length)
    (by simp [SizeLine.bytes]; omega)
  have hlen : l.bytes.length = l.digits.length + l.ext.length + 2 := by
    simp [SizeLine.bytes]; omega
  unfold decode_chunk_size
  simp only [hdrop, decode_hex_sizeLine hl, hext, hsearch]
  by_cases hv : value = 0
  · subst hv
    have hwidth : ((l.digits.length : Int) + l.ext.length + 2 + 2).toNat =
        l.digits.length + l.ext.length + 2 + 2 := by omega
    simp [hlen, hwidth]
  · have hpos : ¬ (value : Int) < 0 := by omega
    have hne : ¬ (value : Int) = 0 := by omega
    have hwidth : ((l.digits.length : Int) + l.ext.length + 2).toNat =
        l.digits.length + l.ext.length + 2 := by omega
    simp [hv, hpos, hne, hlen, hwidth]

theorem decode_chunk_size_data (hl : l.Spells value) (hv : value ≠ 0) (P X : List UInt8)
    (ret : Bool) : decode_chunk_size P.length (P ++ l.bytes ++ X) ret = some (value, P ++ X, ret) := by
  rw [decode_chunk_size_sizeLine hl]
  simp only [hv, if_false, Nat.add_zero]
  rw [remove_block_at_index_append (by simp [SizeLine.bytes])]
  rfl

theorem decode_chunk_size_last (hl : l.Spells 0) (P Y : List UInt8) (ret : Bool) :
    decode_chunk_size P.length (P ++ l.bytes ++ (bytesOf "\r\n" ++ Y)) ret = some (0, P ++ Y, true) := by
  have hblock : (l.bytes ++ bytesOf "\r\n").length = l.bytes.length + 2 := by simp
  rw [decode_chunk_size_sizeLine hl]
  simp only [↓reduceIte]
  rw [← hblock, ← List.append_assoc, List.append_assoc P, remove_block_at_index_append (by simp)]
  rfl

/-- The first pass of `decode_chunk` over a buffer of at least five bytes that
    starts with a size line: the pass does what `decode_chunk_size` does to it. -/
theorem decode_chunk_pass_first_eq (hl : l.Spells value) {X : List UInt8}
    (h5 : 5 ≤ (l.bytes ++ X).length) (datalen : Nat) (ret : Bool) :
    decode_chunk_pass ⟨0, 0⟩ (l.bytes ++ X) datalen ret =
      (decode_chunk_size 0 (l.bytes ++ X) ret).elim .abort fun p => .next ⟨p.1, 0⟩ p.2.1 datalen p.2.2 := by
  have hcrlf := crlf_sizeLine hl X
  have hdigits := List.length_pos.mpr hl.1
  simp only [decode_chunk_pass, chunk_header_end, strip_chunk_crlf, ne_eq, not_true_eq_false,
    ↓reduceIte, Option.some_bind, Nat.add_zero, hcrlf]
  rw [if_neg (by omega), if_neg (by omega)]
  cases decode_chunk_size 0 (l.bytes ++ X) ret <;> rfl

theorem decode_chunk_pass_first (hl : l.Spells value) {X arr : List UInt8} {n : Nat} {ret ret' : Bool}
    (h5 : 5 ≤ (l.bytes ++ X).length)
    (hsize : decode_chunk_size 0 (l.bytes ++ X) ret = some (n, arr, ret')) (datalen : Nat) :
    decode_chunk_pass ⟨0, 0⟩ (l.bytes ++ X) datalen ret = .next ⟨n, 0⟩ arr datalen ret' := by
  rw [decode_chunk_pass_first_eq hl h5, hsize]
  rfl

/-- A pass of `decode_chunk` after the data `d` of a chunk, when its CRLF and
    the next size line are in the buffer: the CRLF is stripped, and the pass
    does what `decode_chunk_size` does to the size line. -/
theorem decode_chunk_pass_next_eq (hl : l.Spells value) {P d X : List UInt8} (hd : d ≠ [])
    (datalen : Nat) (ret : Bool) :
    decode_chunk_pass ⟨d.length, P.length⟩ (P ++ d ++ bytesOf "\r\n" ++ l.bytes ++ X) datalen ret =
      (decode_chunk_size (P ++ d).length (P ++ d ++ l.bytes ++ X) ret).elim .abort
        fun p => .next ⟨p.1, P.length + d.length⟩ p.2.1 (datalen + d.length) p.2.2 := by
  have hdrop : (P ++ d ++ bytesOf "\r\n" ++ l.bytes ++ X).drop (P.length + d.length + 2) =
      l.bytes ++ X := by
    simp [← List.drop_drop, List.append_assoc]
  have hbound : ((P ++ d ++ bytesOf "\r\n" ++ l.bytes ++ X).length : Int) - P.length - d.length - 2 =
      (l.bytes ++ X).length := by
    simp; omega
  have hstrip : strip_chunk_crlf ⟨d.length, P.length⟩ (P ++ d ++ bytesOf "\r\n" ++ l.bytes ++ X) =
      some (P ++ d ++ l.bytes ++ X) := by
    have := @remove_block_at_index_append (P ++ d) (bytesOf "\r\n") (l.bytes ++ X) (by simp)
    simpa [strip_chunk_crlf, hd, List.append_assoc, Nat.add_comm P.length] using this
  have hdigits := List.length_pos.mpr hl.1
  have hd0 := List.length_pos.mpr hd
  simp only [decode_chunk_pass, chunk_header_end, hstrip, Option.some_bind]
  rw [if_neg (by simp [SizeLine.bytes]; omega), if_pos (show d.length ≠ 0 by omega), hdrop, hbound,
    crlf_sizeLine hl X, if_neg (by omega), List.length_append]
  cases decode_chunk_size (P.length + d.length) (P ++ d ++ l.bytes ++ X) ret <;> rfl

theorem decode_chunk_pass_next (hl : l.Spells value) {P d X arr : List UInt8} (hd : d ≠ [])
    {n : Nat} {ret ret' : Bool}
    (hsize : decode_chunk_size (P ++ d).length (P ++ d ++ l.bytes ++ X) ret = some (n, arr, ret'))
    (datalen : Nat) :
    decode_chunk_pass ⟨d.length, P.length⟩ (P ++ d ++ bytesOf "\r\n" ++ l.bytes ++ X) datalen ret =
      .next ⟨n, P.length + d.length⟩ arr (datalen + d.length) ret' := by
  rw [decode_chunk_pass_next_eq hl hd, hsize]
  rfl

end SizeLine

theorem decode_chunk_pass_end (n datalen : Nat) (arr : List UInt8) (ret : Bool) (hlen : arr.length = n) :
    decode_chunk_pass ⟨0, n⟩ arr datalen ret = .brk := by
  simp [decode_chunk_pass, hlen]

theorem chunkedBody_length (last : SizeLine) :
    ∀ chunks : List Chunk, chunks.length + 2 ≤ (chunkedBody chunks last).length
  | [] => by simp [chunkedBody]
  | c :: chunks => by
    have := chunkedBody_length last chunks
    simp only [chunkedBody_cons, List.length_append, List.length_cons]
    simp; omega

/-- A batch of one non-empty read: the bytes are appended and `PROCESS_READ`
    runs. -/
theorem read_again_ok_single (r : SoupReader) (env : ReadEnv) {S : List UInt8} (hS : S ≠ []) :
    read_again r env 0 [.ok S] =
      after_process (process_read { r with recv_buf := r.recv_buf ++ S } env S.length) []
        fun r env => (.running r, env, []) := by
  obtain ⟨b, bytes, rfl⟩ := List.exists_cons_of_ne_nil hS
  simp [read_again]

section Loop

variable {last : SizeLine} (hlast : last.Spells 0)
include hlast

/-- The loop of `decode_chunk` from the data `d` of a chunk, with the rest of
    a well-formed chunked body in the buffer: each pass strips a CRLF and a
    size line, and the terminating size line ends the body. -/
theorem decode_chunk_loop_chunks : ∀ (chunks : List Chunk), (∀ c ∈ chunks, c.WellFormed) →
    ∀ (P d : List UInt8), d ≠ [] → ∀ (datalen fuel : Nat), chunks.length + 2 ≤ fuel →
    decode_chunk_loop fuel ⟨d.length, P.length⟩ (P ++ d ++ bytesOf "\r\n" ++ chunkedBody chunks last)
        datalen false =
      some (⟨0, (P ++ d ++ chunkedData chunks).length⟩, P ++ d ++ chunkedData chunks,
        datalen + (d ++ chunkedData chunks).length, true)
  | [], _, P, d, hd, datalen, fuel + 2, _ => by
    have hpass := decode_chunk_pass_next hlast hd
      (decode_chunk_size_last hlast (P ++ d) [] false) datalen
    simp only [List.append_nil] at hpass
    simp only [decode_chunk_loop, chunkedBody, List.map_nil, List.flatten_nil, List.nil_append,
      ← List.append_assoc, hpass, chunkedData, List.append_nil]
    rw [decode_chunk_pass_end _ _ _ _ (by simp)]
    simp
  | c :: chunks, hchunks, P, d, hd, datalen, fuel + 1, hfuel => by
    obtain ⟨hdata, hline⟩ := hchunks c (List.mem_cons_self _ _)
    have hpass := decode_chunk_pass_next hline hd
      (decode_chunk_size_data hline (by simpa using hdata) (P ++ d)
        (c.data ++ bytesOf "\r\n" ++ chunkedBody chunks last) false) datalen
    have ih := decode_chunk_loop_chunks chunks (fun c' hc' => hchunks c' (List.mem_cons_of_mem _ hc'))
      (P ++ d) c.data hdata (datalen + d.length) fuel (by simp at hfuel; omega)
    simp only [chunkedBody_cons, ← List.append_assoc] at hpass ⊢
    rw [decode_chunk_loop, hpass]
    dsimp only
    rw [List.length_append] at ih
    rw [ih]
    simp [Nat.add_assoc]

/-- `decode_chunk` on a whole well-formed chunked body: the data of all its
    chunks, `*datalen` their length, and the end of the body. -/
theorem decode_chunk_chunkedBody {chunks : List Chunk} (hchunks : ∀ c ∈ chunks, c.WellFormed) :
    decode_chunk ⟨0, 0⟩ (chunkedBody chunks last) =
      some (⟨0, (chunkedData chunks).length⟩, chunkedData chunks, (chunkedData chunks).length, true) := by
  have hfuel := chunkedBody_length last chunks
  cases chunks with
  | nil =>
    have hdigits := List.length_pos.mpr hlast.1
    have hpass := decode_chunk_pass_first hlast (X := bytesOf "\r\n")
      (by simp [SizeLine.bytes]; omega) (decode_chunk_size_last hlast [] [] false) 0
    obtain ⟨fuel, hfuel'⟩ := Nat.exists_eq_add_one_of_ne_zero (show (chunkedBody [] last).length ≠ 0 by
      simp at hfuel; omega)
    simp only [chunkedBody, List.map_nil, List.flatten_nil, List.nil_append] at hpass hfuel' ⊢
    rw [decode_chunk, hfuel', decode_chunk_loop, hpass]
    dsimp only
    rw [decode_chunk_loop, decode_chunk_pass_end 0 0 [] true rfl]
    rfl
  | cons c chunks =>
    obtain ⟨hdata, hline⟩ := hchunks c (List.mem_cons_self _ _)
    have hrest := decode_chunk_loop_chunks hlast chunks
      (fun c' hc' => hchunks c' (List.mem_cons_of_mem _ hc')) [] c.data hdata 0
    have hline3 : 3 ≤ c.line.bytes.length := by
      have := List.length_pos.mpr hline.1
      simp [SizeLine.bytes]; omega
    have hdata1 := List.length_pos.mpr hdata
    have hpass := decode_chunk_pass_first hline
      (X := c.data ++ bytesOf "\r\n" ++ chunkedBody chunks last) (by simp; omega)
      (decode_chunk_size_data hline (by simpa using hdata) [] _ false) 0
    have hE : chunkedBody (c :: chunks) last =
        c.line.bytes ++ (c.data ++ bytesOf "\r\n" ++ chunkedBody chunks last) := by
      simp [List.append_assoc]
    simp only [List.nil_append, List.length_nil] at hrest hpass
    rw [decode_chunk, hE, decode_chunk_loop, hpass]
    dsimp only
    rw [hrest _ (by rw [hE] at hfuel; simp at hfuel ⊢; omega)]
    simp

/-- `read_chunk` on a whole well-formed chunked body: one chunk callback with
    all the data, which overwrite mode then drops, and the end of the body. -/
theorem read_chunk_chunkedBody {chunks : List Chunk} (hchunks : ∀ c ∈ chunks, c.WellFormed)
    {r : SoupReader} (hstate : r.chunk_state = ⟨0, 0⟩) (hbuf : r.recv_buf = chunkedBody chunks last)
    (hcb : r.read_chunk_cb) {env : ReadEnv} (hcont : env.nextChunkReply.1 = .SOUP_TRANSFER_CONTINUE) :
    read_chunk r env false =
      (.ok { r with
          callback_issued := r.callback_issued || decide (chunkedData chunks ≠ [])
          chunk_state := ⟨0, if r.overwrite_chunks then 0 else (chunkedData chunks).length⟩
          recv_buf := if r.overwrite_chunks then [] else chunkedData chunks } true false,
        if chunkedData chunks = [] then env
        else env.nextChunkReply.2.call (.read_chunk_cb (chunkedData chunks) .SOUP_TRANSFER_CONTINUE)) := by
  unfold read_chunk
  rw [hstate, hbuf, decode_chunk_chunkedBody hlast hchunks]
  dsimp only
  by_cases hB : chunkedData chunks = []
  · cases r; simp_all
  · have hlen : (chunkedData chunks).length ≠ 0 := by simpa using hB
    have hremove := @remove_block_at_index_append [] (chunkedData chunks) [] hB
    simp only [List.nil_append, List.append_nil, List.length_nil] at hremove
    cases hover : r.overwrite_chunks <;>
      simp [issue_chunk_callback, hcb, hlen, hcont, hB, hover, hremove]

/-- `PROCESS_READ` on a header block followed by a whole well-formed chunked
    body, when `headers_done_cb` selects the chunked encoding. -/
theorem process_read_chunked {H : List UInt8} (hH : HeaderEnd H H.length) {chunks : List Chunk}
    (hchunks : ∀ c ∈ chunks, c.WellFormed) {r : SoupReader} (hlen : r.header_len = 0)
    (hcbs : r.headers_done_cb ∧ r.read_chunk_cb ∧ r.read_done_cb)
    (hstate : r.chunk_state = ⟨0, 0⟩) (hbuf : r.recv_buf = H ++ chunkedBody chunks last)
    {env : ReadEnv} (hreply : env.nextHeadersReply.1.ret = .SOUP_TRANSFER_CONTINUE ∧
      env.nextHeadersReply.1.encoding = .SOUP_TRANSFER_CHUNKED)
    (hcont : ∀ c ∈ env.chunkReplies, c = .SOUP_TRANSFER_CONTINUE) :
    let env' := env.nextHeadersReply.2.call (.headers_done_cb (strncpy H H.length) .SOUP_TRANSFER_CONTINUE)
    process_read r env (H ++ chunkedBody chunks last).length =
      (.ret (.freed false),
        ((if chunkedData chunks = [] then env'
          else env'.nextChunkReply.2.call (.read_chunk_cb (chunkedData chunks) .SOUP_TRANSFER_CONTINUE)).call
          (.read_done_cb (if r.overwrite_chunks then [] else chunkedData chunks)))) := by
  intro env'
  have hk := hH.append (chunkedBody chunks last)
  have hcont' : env'.nextChunkReply.1 = .SOUP_TRANSFER_CONTINUE :=
    (ReadEnv.nextChunkReply_continue (by simpa [env'] using hcont)).1
  have hread := read_chunk_chunkedBody hlast hchunks (r := { r with
      recv_buf := ((H ++ chunkedBody chunks last).drop H.length).take
        ((H ++ chunkedBody chunks last).length - H.length)
      header_len := H.length
      encoding := env.nextHeadersReply.1.encoding
      content_length := env.nextHeadersReply.1.content_length }) hstate (by simp) hcbs.2.1 hcont'
  have htotal : (H ++ chunkedBody chunks last).length ≠ 0 := by
    rw [List.length_append]; have := hH.1; omega
  rw [process_read_header (m := (H ++ chunkedBody chunks last).length) hk (by simp) hlen hcbs.1
    (by simp [hbuf]) env]
  dsimp only
  rw [strncpy_append_length, hreply.1, if_neg (by decide),
    process_body_of_read_body ((read_body_chunked hreply.2 _ htotal).trans hread)]
  by_cases hB : chunkedData chunks = [] <;> cases r.overwrite_chunks <;>
    simp [issue_final_callback_eq, soup_transfer_read_cancel, hcbs.2.2, hB]

/-- A header block and a whole well-formed chunked body in one read: the
    reader calls `headers_done_cb`, then one chunk callback with the data of
    all the chunks, then `read_done_cb` with the data (nothing in overwrite
    mode), and is freed. -/
theorem readerRun_chunked_body {H : List UInt8} (hH : HeaderEnd H H.length) {chunks : List Chunk}
    (hchunks : ∀ c ∈ chunks, c.WellFormed) (overwrite_chunks : Bool) (content_length : UInt32)
    (more : List HeadersReply) {chunkReplies : List SoupTransferDone}
    (hcont : ∀ c ∈ chunkReplies, c = .SOUP_TRANSFER_CONTINUE) (events : List ReadEvent) :
    let res := readerRun (.running (soup_transfer_read overwrite_chunks true true true true))
      ⟨⟨.SOUP_TRANSFER_CONTINUE, .SOUP_TRANSFER_CHUNKED, content_length⟩ :: more, chunkReplies, []⟩
      [.ok (H ++ chunkedBody chunks last)] (.G_IO_IN :: events)
    res.1 = .freed false ∧
      res.2.1.calls = .headers_done_cb (strncpy H H.length) .SOUP_TRANSFER_CONTINUE ::
        ((if chunkedData chunks = [] then []
          else [.read_chunk_cb (chunkedData chunks) .SOUP_TRANSFER_CONTINUE]) ++
          [.read_done_cb (if overwrite_chunks then [] else chunkedData chunks)]) := by
  have hne : H ++ chunkedBody chunks last ≠ [] :=
    List.append_ne_nil_of_left_ne_nil (List.ne_nil_of_length_pos (by have := hH.1; omega)) _
  have hproc := process_read_chunked hlast hH hchunks
    (r := { soup_transfer_read overwrite_chunks true true true true with
      recv_buf := (soup_transfer_read overwrite_chunks true true true true).recv_buf ++
        (H ++ chunkedBody chunks last) })
    rfl ⟨rfl, rfl, rfl⟩ rfl (by simp [soup_transfer_read])
    (show (⟨⟨.SOUP_TRANSFER_CONTINUE, .SOUP_TRANSFER_CHUNKED, content_length⟩ :: more, chunkReplies, []⟩ :
      ReadEnv).nextHeadersReply.1.ret = .SOUP_TRANSFER_CONTINUE ∧ _ from ⟨rfl, rfl⟩) hcont
  dsimp only at hproc
  simp only [readerRun, soup_transfer_read_cb, read_again_ok_single _ _ hne, hproc, after_process,
    readerRun_freed]
  by_cases hB : chunkedData chunks = [] <;>
    simp [hB, ReadEnv.call, ReadEnv.nextHeadersReply, soup_transfer_read]

end Loop

/-- Two chunks, one with an extension and one with a zero-padded size, in
    overwrite mode. -/
theorem readerRun_chunked_body_two :
    let chunks : List Chunk := [⟨⟨bytesOf "5", bytesOf ";e"⟩, bytesOf "hello"⟩,
      ⟨⟨bytesOf "02", []⟩, bytesOf "hi"⟩]
    (SizeLine.mk (bytesOf "0") []).Spells 0 ∧ HeaderEnd (bytesOf "H\r\n\r\n") (bytesOf "H\r\n\r\n").length ∧
    (∀ c ∈ chunks, c.WellFormed) ∧
    (∀ c ∈ ([] : List SoupTransferDone), c = .SOUP_TRANSFER_CONTINUE) ∧
    let res := readerRun (.running (soup_transfer_read true true true true true))
      ⟨[⟨.SOUP_TRANSFER_CONTINUE, .SOUP_TRANSFER_CHUNKED, 0⟩], [], []⟩
      [.ok (bytesOf "H\r\n\r\n" ++ chunkedBody chunks ⟨bytesOf "0", []⟩)] [.G_IO_IN]
    res.1 = .freed false ∧
      res.2.1.calls = .headers_done_cb (strncpy (bytesOf "H\r\n\r\n") (bytesOf "H\r\n\r\n").length)
          .SOUP_TRANSFER_CONTINUE ::
        ((if chunkedData chunks = [] then []
          else [.read_chunk_cb (chunkedData chunks) .SOUP_TRANSFER_CONTINUE]) ++
          [.read_done_cb (if true then [] else chunkedData chunks)]) :=
  ⟨by decide, by decide, by decide, by decide,
    readerRun_chunked_body (show (SizeLine.mk (bytesOf "0") []).Spells 0 by decide) (by decide)
      (by decide) true 0 [] (by decide) []⟩

/-- The same chunked body decoded in one read, and aborted when a read ends
    between the terminating size line and the final CRLF: the size line is
    parsed, and removing it with the missing CRLF fails the assertion of
    `remove_block_at_index`. -/
theorem readerRun_chunked_terminator_split :
    (readerRun (.running (soup_transfer_read false true true true true))
      ⟨[⟨.SOUP_TRANSFER_CONTINUE, .SOUP_TRANSFER_CHUNKED, 0⟩], [], []⟩
      [.ok (bytesOf "H\r\n\r\n5\r\nhello\r\n0\r\n\r\n")] [.G_IO_IN]).2.1.calls =
      [.headers_done_cb (bytesOf "H\r\n\r\n") .SOUP_TRANSFER_CONTINUE,
        .read_chunk_cb (bytesOf "hello") .SOUP_TRANSFER_CONTINUE, .read_done_cb (bytesOf "hello")] ∧
    (readerRun (.running (soup_transfer_read false true true true true))
      ⟨[⟨.SOUP_TRANSFER_CONTINUE, .SOUP_TRANSFER_CHUNKED, 0⟩], [], []⟩
      [.ok (bytesOf "H\r\n\r\n5\r\nhello\r\n0\r\n"), .again, .ok (bytesOf "\r\n")]
      [.G_IO_IN, .G_IO_IN]).1 = .aborted := by
  decide

/-- A chunk size of `80000000` is negative as a `gint`, so `decode_chunk`
    fails `g_assert (new_len >= 0)`. -/
theorem readerRun_chunked_size_overflow :
    readerRun (.running (soup_transfer_read false true true true true))
      ⟨[⟨.SOUP_TRANSFER_CONTINUE, .SOUP_TRANSFER_CHUNKED, 0⟩], [], []⟩
      [.ok (bytesOf "H\r\n\r\n80000000\r\nab")] [.G_IO_IN] =
      (.aborted, ⟨[], [], [.headers_done_cb (bytesOf "H\r\n\r\n") .SOUP_TRANSFER_CONTINUE]⟩, []) := by
  decide

end libsoup.transfer
