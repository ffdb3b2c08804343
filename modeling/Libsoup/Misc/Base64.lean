import Libsoup.Bytes

namespace libsoup.misc

/-- `base64_alphabet [65]`: the 64 characters of Base64 and the pad `=`; the
    string literal's NUL does not fit the declared size. -/
def base64_alphabet : List UInt8 :=
  bytesOf "ABCDEFGHIJKLMNOPQRSTUVWXYZabcdefghijklmnopqrstuvwxyz0123456789+/="

/-- A byte of `text`, read through `const gchar *` (signed) and promoted to
    `int`. An `int` is a `BitVec 32` here, so the shifts and masks on it are
    computed as the compiled code computes them. -/
def gcharToInt (c : UInt8) : BitVec 32 := c.toBitVec.signExtend 32

/-- How a run of `soup_base64_encode` goes wrong. -/
inductive Base64Fault
  /-- `base64_alphabet [i]` at an index outside the array's 65 bytes. -/
  | alphabet_index (i : Int)
  /-- A write at `buffer [k]`, past the `outlen + 1` bytes allocated. -/
  | buffer_overrun (k : Nat)
  /-- `g_malloc` of a negative `outlen + 1`, which `g_error` aborts. -/
  | alloc_failed (size : Int)
  deriving DecidableEq, Repr

/-- `base64_alphabet [i]` at the `int` index `i`. -/
def alphabetAt (i : BitVec 32) : Except Base64Fault UInt8 :=
  if 0 ≤ i.toInt ∧ i.toInt < 65 then .ok (base64_alphabet.getD i.toNat 0)
  else .error (.alphabet_index i.toInt)

/-- `g_malloc (outlen + 1)`: the `int` size is converted to `gulong`, so a
    negative one asks for more than any memory and `g_error` aborts before the
    encoder writes; any other size is the buffer's byte count, `0` giving
    `NULL`. -/
def g_malloc (size : Int) : Except Base64Fault Int :=
  if size < 0 then .error (.alloc_failed size) else .ok size

theorem g_malloc_bind {α : Type} {size : Int} (h : 0 ≤ size) (f : Int → Except Base64Fault α) :
    (g_malloc size >>= f) = f size := by
  rw [g_malloc, if_neg (by omega)]; rfl

/-- `*(point++) = v`, where `out` holds the bytes written so far into the `size`
    bytes of `buffer` (a write into the `NULL` of `g_malloc (0)` is past them). -/
def put (size : Int) (out : List UInt8) (v : UInt8) : Except Base64Fault (List UInt8) :=
  if (out.length : Int) < size then .ok (out ++ [v]) else .error (.buffer_overrun out.length)

/-- `*(point++) = base64_alphabet [i]`. -/
def putAt (size : Int) (out : List UInt8) (i : BitVec 32) : Except Base64Fault (List UInt8) :=
  alphabetAt i >>= put size out

/-- The loop `for (point = buffer; inlen >= 3; inlen -= 3, text += 3)`, the
    trailing bytes after it and the final `*point = '\0'`, writing into `size`
    bytes. The list is the `inlen` bytes left at `text`; `out` is what `point`
    has passed. -/
def encodeFrom (size : Int) : List UInt8 → List UInt8 → Except Base64Fault (List UInt8)
  | a :: b :: c :: text, out => do
    let out ← putAt size out ((gcharToInt a).sshiftRight 2)
    let out ← putAt size out ((gcharToInt a <<< 4 &&& 0x30#32) ||| (gcharToInt b).sshiftRight 4)
    let out ← putAt size out ((gcharToInt b <<< 2 &&& 0x3c#32) ||| (gcharToInt c).sshiftRight 6)
    let out ← putAt size out (gcharToInt c &&& 0x3f#32)
    encodeFrom size text out
  | [a, b], out => do
    let out ← putAt size out ((gcharToInt a).sshiftRight 2)
    let out ← putAt size out ((gcharToInt a <<< 4 &&& 0x30#32) ||| (gcharToInt b).sshiftRight 4)
    let out ← putAt size out (gcharToInt b <<< 2 &&& 0x3c#32)
    let out ← put size out 0x3d
    put size out 0
  | [a], out => do
    let out ← putAt size out ((gcharToInt a).sshiftRight 2)
    let out ← putAt size out ((gcharToInt a <<< 4 &&& 0x30#32) ||| 0#32)
    let out ← put size out 0x3d
    let out ← put size out 0x3d
    put size out 0
  | [], out => put size out 0

/-- `outlen` in `int`: `(inlen*4)/3`, the product wrapping and the division
    truncating, then `4 - (inlen % 3)` more when `(inlen % 3) > 0`. -/
def base64_outlen (inlen : BitVec 32) : BitVec 32 :=
  let outlen := (inlen * 4#32).sdiv 3#32
  if BitVec.slt 0#32 (inlen.srem 3#32) then outlen + (4#32 - inlen.srem 3#32) else outlen

/-- `soup_base64_encode (text, inlen)` for the `inlen` bytes at a non-`NULL`
    `text`: the bytes written into the buffer it returns, its NUL last. -/
def soup_base64_encode (text : List UInt8) : Except Base64Fault (List UInt8) :=
  let inlen : BitVec 32 := BitVec.ofNat 32 text.length
  if inlen = 0#32 then .ok [0]
  else do
    let size ← g_malloc (base64_outlen inlen + 1#32).toInt
    encodeFrom size text []

/-- The Base64 alphabet of RFC 4648, §4. -/
def rfc4648_alphabet : List UInt8 :=
  bytesOf "ABCDEFGHIJKLMNOPQRSTUVWXYZabcdefghijklmnopqrstuvwxyz0123456789+/"

/-- The character of the 6-bit group `v`. -/
def sextet (v : Nat) : UInt8 := rfc4648_alphabet.getD v 0

/-- Base64 with padding, RFC 4648 §4: each 24-bit group of input, read as four
    6-bit groups, becomes four characters; a final group of one or two bytes is
    completed with zero bits and its missing characters are `=`. -/
def rfc4648Encode : List UInt8 → List UInt8
  | a :: b :: c :: rest =>
    let v := a.toNat * 65536 + b.toNat * 256 + c.toNat
    [sextet (v / 262144), sextet (v / 4096 % 64), sextet (v / 64 % 64), sextet (v % 64)] ++
      rfc4648Encode rest
  | [a, b] =>
    let v := a.toNat * 65536 + b.toNat * 256
    [sextet (v / 262144), sextet (v / 4096 % 64), sextet (v / 64 % 64), 0x3d]
  | [a] =>
    let v := a.toNat * 65536
    [sextet (v / 262144), sextet (v / 4096 % 64), 0x3d, 0x3d]
  | [] => []

example : rfc4648Encode (bytesOf "Man") = bytesOf "TWFu" := by decide
example : soup_base64_encode (bytesOf "user:pass") = .ok (bytesOf "dXNlcjpwYXNz" ++ [0]) := rfl

/-- A byte below `0x80` is a non-negative `gchar`: `>>` shifts in zeros. -/
private theorem signExtend_sshiftRight (k : Nat) {x : BitVec 8} (hx : x.toNat < 0x80) :
    (x.signExtend 32).sshiftRight k = BitVec.ofNat 32 (x.toNat / 2 ^ k) := by
  have hmsb : x.msb = false := by
    rw [BitVec.msb_eq_decide]
    exact decide_eq_false (by omega)
  rw [BitVec.signExtend_eq_not_setWidth_not_of_msb_false hmsb, BitVec.sshiftRight_eq_of_msb_false]
  · apply BitVec.eq_of_toNat_eq
    rw [BitVec.toNat_ushiftRight, BitVec.toNat_setWidth, BitVec.toNat_ofNat, Nat.shiftRight_eq_div_pow,
      Nat.mod_eq_of_lt (by omega), Nat.mod_eq_of_lt (Nat.lt_of_le_of_lt (Nat.div_le_self _ _) (by omega))]
  · rw [BitVec.msb_eq_decide, BitVec.toNat_setWidth]
    exact decide_eq_false (by omega)

set_option maxRecDepth 4000 in
private theorem signExtend_mask :
    ∀ x : BitVec 8, (x.signExtend 32 <<< 4 &&& 0x30#32) = BitVec.ofNat 32 (x.toNat % 4 * 16) ∧
      (x.signExtend 32 <<< 2 &&& 0x3c#32) = BitVec.ofNat 32 (x.toNat % 16 * 4) ∧
      (x.signExtend 32 &&& 0x3f#32) = BitVec.ofNat 32 (x.toNat % 64) := by
  decide

/-- Two bit fields that do not overlap: their `|` is their sum. -/
private theorem ofNat_or_ofNat :
    (∀ x < 4, ∀ y < 16, BitVec.ofNat 32 (x * 16) ||| BitVec.ofNat 32 y = BitVec.ofNat 32 (x * 16 + y)) ∧
    ∀ x < 16, ∀ y < 4, BitVec.ofNat 32 (x * 4) ||| BitVec.ofNat 32 y = BitVec.ofNat 32 (x * 4 + y) := by
  decide

theorem mask_eq (a : UInt8) :
    (gcharToInt a <<< 4 &&& 0x30#32) = BitVec.ofNat 32 (a.toNat % 4 * 16) ∧
      (gcharToInt a <<< 2 &&& 0x3c#32) = BitVec.ofNat 32 (a.toNat % 16 * 4) ∧
      (gcharToInt a &&& 0x3f#32) = BitVec.ofNat 32 (a.toNat % 64) :=
  signExtend_mask a.toBitVec

/-- `*text>>2` for a byte below `0x80`. -/
theorem index0_eq {a : UInt8} (ha : a.toNat < 0x80) :
    (gcharToInt a).sshiftRight 2 = BitVec.ofNat 32 (a.toNat / 4) :=
  signExtend_sshiftRight 2 ha

/-- `(*text<<4 & 0x30) | *(text+1)>>4` when the second byte is below `0x80`. -/
theorem index1_eq (a : UInt8) {b : UInt8} (hb : b.toNat < 0x80) :
    ((gcharToInt a <<< 4 &&& 0x30#32) ||| (gcharToInt b).sshiftRight 4) =
      BitVec.ofNat 32 (a.toNat % 4 * 16 + b.toNat / 16) := by
  rw [(mask_eq a).1, gcharToInt, signExtend_sshiftRight 4 hb]
  exact ofNat_or_ofNat.1 _ (Nat.mod_lt _ (by decide)) _ (by simp only [UInt8.toNat] at hb ⊢; omega)

/-- `(*(text+1)<<2 & 0x3c) | *(text+2)>>6` when the third byte is below `0x80`. -/
theorem index2_eq (b : UInt8) {c : UInt8} (hc : c.toNat < 0x80) :
    ((gcharToInt b <<< 2 &&& 0x3c#32) ||| (gcharToInt c).sshiftRight 6) =
      BitVec.ofNat 32 (b.toNat % 16 * 4 + c.toNat / 64) := by
  rw [(mask_eq b).2.1, gcharToInt, signExtend_sshiftRight 6 hc]
  exact ofNat_or_ofNat.2 _ (Nat.mod_lt _ (by decide)) _ (by simp only [UInt8.toNat] at hc ⊢; omega)

/-- A byte from `0x80` on is a negative `gchar`. -/
theorem gcharToInt_msb (c : UInt8) : (gcharToInt c).msb = decide (0x80 ≤ c.toNat) := by
  rw [gcharToInt, BitVec.msb_eq_getLsbD_last, BitVec.getLsbD_signExtend, BitVec.msb_eq_decide]
  rfl

theorem alphabetAt_ofNat {k : Nat} (hk : k < 64) : alphabetAt (BitVec.ofNat 32 k) = .ok (sextet k) := by
  have hint : (BitVec.ofNat 32 k).toInt = k := by
    rw [BitVec.toInt_eq_toNat_cond, BitVec.toNat_ofNat, Nat.mod_eq_of_lt (by omega), if_pos (by omega)]
  have hpad : base64_alphabet = rfc4648_alphabet ++ [0x3d] := rfl
  have hlen : rfc4648_alphabet.length = 64 := rfl
  rw [alphabetAt, if_pos (by omega), BitVec.toNat_ofNat, Nat.mod_eq_of_lt (by omega), hpad,
    List.getD_eq_getElem?_getD, List.getElem?_append_left (by omega), ← List.getD_eq_getElem?_getD]
  rfl

theorem putAt_ofNat (size : Int) (out : List UInt8) {k : Nat} (hk : k < 64) :
    putAt size out (BitVec.ofNat 32 k) = put size out (sextet k) := by
  rw [putAt, alphabetAt_ofNat hk]; rfl

/-- The bytes `ws` written one after the other into `buffer` after `out`. -/
def putAll (size : Int) (out ws : List UInt8) : Except Base64Fault (List UInt8) :=
  ws.foldlM (put size) out

/-- Writing `ws` after `out` succeeds when they fit the `size` bytes, and
    otherwise stops at the first byte past them. -/
theorem putAll_eq (size : Int) : ∀ (ws out : List UInt8), (ws ≠ [] ∨ (out.length : Int) ≤ size) →
    putAll size out ws = if (out.length + ws.length : Int) ≤ size then .ok (out ++ ws)
      else .error (.buffer_overrun (max size.toNat out.length))
  | [], out, h => by
    have hle : (out.length : Int) ≤ size := h.resolve_left (fun h => h rfl)
    rw [putAll, List.foldlM_nil, List.length_nil, if_pos (by omega), List.append_nil]
    rfl
  | v :: ws, out, _ => by
    rw [putAll, List.foldlM_cons, put]
    by_cases hlt : (out.length : Int) < size
    · rw [if_pos hlt]
      show putAll size (out ++ [v]) ws = _
      rw [putAll_eq size ws (out ++ [v]) (.inr (by simp; omega))]
      simp only [List.length_append, List.length_singleton, List.length_cons, List.length_nil, List.append_assoc,
        List.singleton_append]
      split_ifs <;> first | rfl | omega | (congr 2; omega)
    · rw [if_neg hlt, if_neg (by simp; omega), Nat.max_eq_right (by omega)]
      rfl

/-- The sextets of the 24-bit group `v` of the bytes `x y z`, as
    `rfc4648Encode` and the code take them apart. -/
theorem sextets_eq {v x y z : Nat} (hv : v = x * 65536 + y * 256 + z) (hy : y < 256) (hz : z < 256) :
    v / 262144 = x / 4 ∧ v / 4096 % 64 = x % 4 * 16 + y / 16 ∧ v / 64 % 64 = y % 16 * 4 + z / 64 ∧
      v % 64 = z % 64 := by
  subst hv
  exact ⟨by omega, by omega, by omega, by omega⟩

/-- On bytes below `0x80` the loop writes the RFC 4648 encoding of the bytes
    left, then the NUL, one byte after the other. -/
theorem encodeFrom_ascii (size : Int) : ∀ (text out : List UInt8), (∀ b ∈ text, b.toNat < 0x80) →
    encodeFrom size text out = putAll size out (rfc4648Encode text ++ [0])
  | a :: b :: c :: text, out, h => by
    have ha := h a (by simp)
    have hb := h b (by simp)
    have hc := h c (by simp)
    have ih : ∀ out, encodeFrom size text out = putAll size out (rfc4648Encode text ++ [0]) :=
      fun out => encodeFrom_ascii size text out fun x hx => h x (by simp [hx])
    obtain ⟨e0, e1, e2, e3⟩ := sextets_eq (v := a.toNat * 65536 + b.toNat * 256 + c.toNat) rfl
      (by omega : b.toNat < 256) (by omega : c.toNat < 256)
    simp (disch := omega) only [encodeFrom, index0_eq ha, index1_eq a hb, index2_eq b hc, (mask_eq c).2.2,
      putAt_ofNat, ih, rfc4648Encode, e0, e1, e2, e3, putAll, List.cons_append, List.nil_append,
      List.append_assoc, List.foldlM_cons]
  | [a, b], out, h => by
    have ha := h a (by simp)
    have hb := h b (by simp)
    obtain ⟨e0, e1, e2, -⟩ := sextets_eq (v := a.toNat * 65536 + b.toNat * 256) (z := 0)
      (Nat.add_zero _).symm (by omega : b.toNat < 256) (by omega)
    rw [Nat.zero_div, Nat.add_zero] at e2
    simp (disch := omega) only [encodeFrom, index0_eq ha, index1_eq a hb, (mask_eq b).2.1, putAt_ofNat,
      rfc4648Encode, e0, e1, e2, putAll, List.cons_append, List.nil_append, List.foldlM_cons,
      List.foldlM_nil, bind_pure]
  | [a], out, h => by
    have ha := h a (by simp)
    have i1 : (gcharToInt a <<< 4 &&& 0x30#32 ||| 0#32) = BitVec.ofNat 32 (a.toNat % 4 * 16) := by
      rw [BitVec.or_zero, (mask_eq a).1]
    obtain ⟨e0, e1, -, -⟩ := sextets_eq (v := a.toNat * 65536) (x := a.toNat) (y := 0) (z := 0) (by omega) (by omega)
      (by omega)
    rw [Nat.zero_div, Nat.add_zero] at e1
    simp (disch := omega) only [encodeFrom, index0_eq ha, i1, putAt_ofNat, rfc4648Encode, e0, e1,
      putAll, List.cons_append, List.nil_append, List.foldlM_cons, List.foldlM_nil, bind_pure]
  | [], out, _ => by
    simp only [encodeFrom, rfc4648Encode, putAll, List.nil_append, List.foldlM_cons, List.foldlM_nil,
      bind_pure]

theorem rfc4648Encode_length : ∀ text : List UInt8,
    (rfc4648Encode text).length = 4 * ((text.length + 2) / 3)
  | _ :: _ :: _ :: text => by
    simp only [rfc4648Encode, List.length_append, List.length_cons, List.length_nil,
      rfc4648Encode_length text]
    omega
  | [_, _] => by simp [rfc4648Encode]
  | [_] => by simp [rfc4648Encode]
  | [] => rfl

/-- `(inlen*4)/3` plus the padding is four bytes for every three input bytes
    or part of them. -/
theorem outlen_arith (n : Nat) :
    4 * n / 3 + (if 0 < n % 3 then 4 - n % 3 else 0) = 4 * ((n + 2) / 3) := by
  split_ifs <;> omega

theorem inlen_toNat {n : Nat} (hn : n ≤ 2147483647) : (BitVec.ofNat 32 n).toNat = n := by
  rw [BitVec.toNat_ofNat]; exact Nat.mod_eq_of_lt (by omega)

/-- `(inlen*4)/3` for `0 ≤ inlen ≤ G_MAXINT`: the product wraps at 32 bits and
    `sdiv` truncates toward zero, so a product with the sign bit set gives a
    negative quotient. -/
theorem quot_toNat {n : Nat} (hn : n ≤ 2147483647) :
    ((BitVec.ofNat 32 n * 4#32).sdiv 3#32).toNat =
      if 4 * n % 2 ^ 32 < 2 ^ 31 then 4 * n % 2 ^ 32 / 3
      else (2 ^ 32 - (2 ^ 32 - 4 * n % 2 ^ 32) / 3) % 2 ^ 32 := by
  have hprod : (BitVec.ofNat 32 n * 4#32).toNat = 4 * n % 2 ^ 32 := by
    simp only [BitVec.toNat_mul, inlen_toNat hn, BitVec.toNat_ofNat]; omega
  rw [BitVec.sdiv_eq, BitVec.msb_eq_decide, hprod]
  by_cases h : 4 * n % 2 ^ 32 < 2 ^ 31
  · rw [if_pos h, decide_eq_false (by omega)]
    show (BitVec.ofNat 32 n * 4#32 / 3#32).toNat = _
    rw [BitVec.toNat_udiv, hprod]; rfl
  · rw [if_neg h, decide_eq_true (by omega)]
    show (-((-(BitVec.ofNat 32 n * 4#32)) / 3#32)).toNat = _
    rw [BitVec.toNat_neg, BitVec.toNat_udiv, BitVec.toNat_neg, hprod]
    simp only [BitVec.toNat_ofNat, Nat.reducePow, Nat.reduceMod]
    congr 2
    omega

/-- `outlen += 4 - (inlen % 3)` when `(inlen % 3) > 0`. -/
theorem base64_outlen_toNat {n : Nat} (hn : n ≤ 2147483647) :
    (base64_outlen (BitVec.ofNat 32 n)).toNat =
      (((BitVec.ofNat 32 n * 4#32).sdiv 3#32).toNat + if 0 < n % 3 then 4 - n % 3 else 0) % 2 ^ 32 := by
  have hrem : ((BitVec.ofNat 32 n).srem 3#32).toNat = n % 3 := by
    rw [BitVec.srem_eq, BitVec.msb_eq_decide, inlen_toNat hn, decide_eq_false (by omega)]
    show (BitVec.ofNat 32 n % 3#32).toNat = _
    rw [BitVec.toNat_umod, inlen_toNat hn]; rfl
  have hslt : BitVec.slt 0#32 ((BitVec.ofNat 32 n).srem 3#32) = decide (0 < n % 3) := by
    rw [BitVec.slt, BitVec.toInt_eq_toNat_cond, BitVec.toInt_eq_toNat_cond, hrem]
    simp only [BitVec.toNat_ofNat, Nat.zero_mod]
    split_ifs <;> simp <;> omega
  unfold base64_outlen
  rw [hslt]
  by_cases h : 0 < n % 3
  · have hsub : (2 ^ 32 - n % 3 + 4 % 2 ^ 32) % 2 ^ 32 = 4 - n % 3 := by omega
    rw [if_pos (decide_eq_true h), if_pos h, BitVec.toNat_add, BitVec.toNat_sub, hrem,
      BitVec.toNat_ofNat, hsub]
  · rw [if_neg (by simpa using h), if_neg h, Nat.add_zero, Nat.mod_eq_of_lt (BitVec.isLt _)]

/-- While `inlen*4` fits an `int`, the buffer holds exactly the `4 * ceil(n / 3)`
    characters and the NUL. -/
theorem base64_outlen_eq {n : Nat} (hn : n ≤ 536870911) :
    (base64_outlen (BitVec.ofNat 32 n) + 1#32).toInt = 4 * ((n + 2) / 3) + 1 := by
  have hprod : 4 * n % 2 ^ 32 = 4 * n := Nat.mod_eq_of_lt (by omega)
  have houtlen : (base64_outlen (BitVec.ofNat 32 n)).toNat = 4 * ((n + 2) / 3) := by
    rw [base64_outlen_toNat (by omega), quot_toNat (by omega), hprod, if_pos (by omega), outlen_arith,
      Nat.mod_eq_of_lt (by omega)]
  have hsum : (base64_outlen (BitVec.ofNat 32 n) + 1#32).toNat = 4 * ((n + 2) / 3) + 1 := by
    rw [BitVec.toNat_add, houtlen, BitVec.toNat_ofNat]; omega
  rw [BitVec.toInt_eq_toNat_cond, hsum, if_pos (by omega)]
  omega

/-- Once `inlen*4` overflows an `int`, the buffer is smaller than the
    `4 * ceil(n / 3)` characters and the NUL written into it. -/
theorem base64_outlen_lt {n : Nat} (hlo : 536870911 < n) (hhi : n ≤ 2147483647) :
    (base64_outlen (BitVec.ofNat 32 n) + 1#32).toInt < 4 * ((n + 2) / 3) + 1 := by
  have hbound : 715827884 ≤ 4 * ((n + 2) / 3) := by omega
  rw [BitVec.toInt_eq_toNat_cond, BitVec.toNat_add, base64_outlen_toNat hhi, quot_toNat hhi,
    BitVec.toNat_ofNat]
  generalize hpad : (if 0 < n % 3 then 4 - n % 3 else 0) = pad
  have hsmall : pad ≤ 3 := by rw [← hpad]; split_ifs <;> omega
  by_cases hsign : 4 * n % 2 ^ 32 < 2 ^ 31
  · -- the wrapped product is `4 * n - 2^32`, and a third of it is far below the need
    have hwrap : 4 * n % 2 ^ 32 = 4 * n - 2 ^ 32 := by omega
    rw [if_pos hsign, hwrap]
    have hq : 3 * ((4 * n - 2 ^ 32) / 3) ≤ 4 * n - 2 ^ 32 := Nat.mul_div_le _ _
    generalize (4 * n - 2 ^ 32) / 3 = q at hq
    have hsum : ((q + pad) % 2 ^ 32 + 1 % 2 ^ 32) % 2 ^ 32 = q + pad + 1 := by omega
    rw [hsum, if_pos (by omega)]
    omega
  · -- the wrapped product reads as negative, and so does the quotient
    rw [if_neg hsign]
    generalize 4 * n % 2 ^ 32 = p at hsign
    have hm3 : (2 ^ 32 - p) / 3 ≤ 715827882 := by omega
    generalize (2 ^ 32 - p) / 3 = m at hm3
    split_ifs <;> omega

theorem inlen_ne_zero {n : Nat} (hpos : 0 < n) (hn : n ≤ 2147483647) : BitVec.ofNat 32 n ≠ 0#32 :=
  fun h => by
    have := congrArg BitVec.toNat h
    rw [inlen_toNat hn] at this
    exact absurd this (by simp; omega)

/-- For every text of at most `536870911` bytes (so that `inlen*4` does not
    overflow), all below `0x80` (so that no byte reads as a negative `gchar`),
    `soup_base64_encode` writes the RFC 4648 encoding, `4 * ceil(n / 3)`
    characters, and the NUL, all within its buffer. -/
theorem soup_base64_encode_ascii (text : List UInt8) (hlen : text.length ≤ 536870911)
    (hascii : ∀ b ∈ text, b.toNat < 0x80) :
    soup_base64_encode text = .ok (rfc4648Encode text ++ [0]) ∧
      (rfc4648Encode text).length = 4 * ((text.length + 2) / 3) := by
  refine ⟨?_, rfc4648Encode_length text⟩
  unfold soup_base64_encode
  by_cases hnil : text = []
  · subst hnil; rfl
  · rw [if_neg (inlen_ne_zero (List.length_pos.mpr hnil) (by omega)), base64_outlen_eq hlen,
      g_malloc_bind (by omega), encodeFrom_ascii _ _ _ hascii, putAll_eq _ _ _ (.inl (by simp)),
      if_pos (by simp [rfc4648Encode_length])]
    rfl

theorem soup_base64_encode_ascii_user_pass :
    (bytesOf "user:pass").length ≤ 536870911 ∧ (∀ b ∈ bytesOf "user:pass", b.toNat < 0x80) ∧
      (soup_base64_encode (bytesOf "user:pass") = .ok (rfc4648Encode (bytesOf "user:pass") ++ [0]) ∧
        (rfc4648Encode (bytesOf "user:pass")).length = 4 * (((bytesOf "user:pass").length + 2) / 3)) :=
  ⟨by decide, by decide, soup_base64_encode_ascii _ (by decide) (by decide)⟩

theorem putAt_ofNat_bind {α : Type} {k : Nat} (hk : k < 64) {size : Int} {out : List UInt8}
    (hcap : (out.length : Int) < size) (f : List UInt8 → Except Base64Fault α) :
    (putAt size out (BitVec.ofNat 32 k) >>= f) = f (out ++ [sextet k]) := by
  rw [putAt_ofNat size out hk, put, if_pos hcap]; rfl

/-- An index with the sign bit set is a read before `base64_alphabet`. -/
theorem putAt_msb_bind {α : Type} {i : BitVec 32} (h : i.msb = true) (size : Int) (out : List UInt8)
    (f : List UInt8 → Except Base64Fault α) :
    (putAt size out i >>= f) = .error (.alphabet_index i.toInt) := by
  have hneg : i.toInt < 0 := by simpa [BitVec.msb_eq_toInt] using h
  rw [putAt, alphabetAt, if_neg (by omega)]; rfl

theorem toInt_neg_of_msb {i : BitVec 32} (h : i.msb = true) : i.toInt < 0 := by
  simpa [BitVec.msb_eq_toInt] using h

theorem index0_msb {a : UInt8} (ha : 0x80 ≤ a.toNat) : ((gcharToInt a).sshiftRight 2).msb = true := by
  rw [BitVec.msb_sshiftRight, gcharToInt_msb, decide_eq_true ha]

theorem or_index_msb (x : BitVec 32) {b : UInt8} (hb : 0x80 ≤ b.toNat) (k : Nat) :
    (x ||| (gcharToInt b).sshiftRight k).msb = true := by
  rw [BitVec.msb_or, BitVec.msb_sshiftRight, gcharToInt_msb, decide_eq_true hb, Bool.or_true]

/-- Once a byte from `0x80` on is left, and the buffer holds what the
    encoding needs, the loop reads `base64_alphabet` at a negative index. -/
theorem encodeFrom_high (size : Int) : ∀ (text out : List UInt8), (∃ b ∈ text, 0x80 ≤ b.toNat) →
    (out.length + (rfc4648Encode text).length : Int) < size →
    ∃ i < 0, encodeFrom size text out = .error (.alphabet_index i)
  | a :: b :: c :: text, out, ⟨x, hx, hhigh⟩, hcap => by
    simp only [rfc4648Encode_length, List.length_cons] at hcap
    by_cases ha : a.toNat < 0x80
    · by_cases hb : b.toNat < 0x80
      · by_cases hc : c.toNat < 0x80
        · have htext : ∃ y ∈ text, 0x80 ≤ y.toNat := by
            simp only [List.mem_cons] at hx
            rcases hx with rfl | rfl | rfl | hx
            exacts [absurd hhigh (by omega), absurd hhigh (by omega), absurd hhigh (by omega), ⟨x, hx, hhigh⟩]
          rw [encodeFrom, index0_eq ha, putAt_ofNat_bind, index1_eq a hb, putAt_ofNat_bind, index2_eq b hc,
            putAt_ofNat_bind, (mask_eq c).2.2, putAt_ofNat_bind]
          · exact encodeFrom_high size text _ htext (by simp [rfc4648Encode_length]; omega)
          all_goals first | omega | (simp; omega)
        · have hmsb := or_index_msb (gcharToInt b <<< 2 &&& 0x3c#32) (by omega : 0x80 ≤ c.toNat) 6
          refine ⟨_, toInt_neg_of_msb hmsb, ?_⟩
          rw [encodeFrom, index0_eq ha, putAt_ofNat_bind, index1_eq a hb, putAt_ofNat_bind,
            putAt_msb_bind hmsb]
          all_goals first | omega | (simp; omega)
      · have hmsb := or_index_msb (gcharToInt a <<< 4 &&& 0x30#32) (by omega : 0x80 ≤ b.toNat) 4
        refine ⟨_, toInt_neg_of_msb hmsb, ?_⟩
        rw [encodeFrom, index0_eq ha, putAt_ofNat_bind, putAt_msb_bind hmsb]
        all_goals omega
    · have hmsb := index0_msb (by omega : 0x80 ≤ a.toNat)
      exact ⟨_, toInt_neg_of_msb hmsb, by rw [encodeFrom, putAt_msb_bind hmsb]⟩
  | [a, b], out, ⟨x, hx, hhigh⟩, hcap => by
    by_cases ha : a.toNat < 0x80
    · have hb : 0x80 ≤ b.toNat := by
        simp only [List.mem_cons, List.mem_singleton, List.not_mem_nil, or_false] at hx
        rcases hx with rfl | rfl <;> omega
      have hmsb := or_index_msb (gcharToInt a <<< 4 &&& 0x30#32) hb 4
      refine ⟨_, toInt_neg_of_msb hmsb, ?_⟩
      rw [encodeFrom, index0_eq ha, putAt_ofNat_bind, putAt_msb_bind hmsb]
      all_goals omega
    · have hmsb := index0_msb (by omega : 0x80 ≤ a.toNat)
      exact ⟨_, toInt_neg_of_msb hmsb, by rw [encodeFrom, putAt_msb_bind hmsb]⟩
  | [a], out, ⟨x, hx, hhigh⟩, _ => by
    have ha : 0x80 ≤ a.toNat := by
      simp only [List.mem_singleton] at hx
      rwa [← hx]
    have hmsb := index0_msb ha
    exact ⟨_, toInt_neg_of_msb hmsb, by rw [encodeFrom, putAt_msb_bind hmsb]⟩
  | [], _, ⟨_, hx, _⟩, _ => absurd hx (List.not_mem_nil _)

/-- For every text of at most `536870911` bytes that holds a byte from `0x80`
    on, `soup_base64_encode` reads `base64_alphabet` at a negative index: the
    byte is a negative `gchar`, and an arithmetic shift keeps it negative. -/
theorem soup_base64_encode_high (text : List UInt8) (hlen : text.length ≤ 536870911)
    (hhigh : ∃ b ∈ text, 0x80 ≤ b.toNat) :
    ∃ i < 0, soup_base64_encode text = .error (.alphabet_index i) := by
  obtain ⟨b, hb, _⟩ := hhigh
  have hpos : 0 < text.length := List.length_pos_of_mem hb
  unfold soup_base64_encode
  rw [if_neg (inlen_ne_zero hpos (by omega)), base64_outlen_eq hlen, g_malloc_bind (by omega)]
  exact encodeFrom_high _ _ _ ⟨b, hb, by assumption⟩
    (by rw [List.length_nil, rfc4648Encode_length]; omega)

theorem soup_base64_encode_high_e_acute :
    [0xc3, 0xa9].length ≤ 536870911 ∧ (∃ b ∈ [(0xc3 : UInt8), 0xa9], 0x80 ≤ b.toNat) ∧
      ∃ i < 0, soup_base64_encode [0xc3, 0xa9] = .error (.alphabet_index i) :=
  ⟨by decide, by decide, soup_base64_encode_high _ (by decide) (by decide)⟩

/-- The UTF-8 bytes of `é`: RFC 4648 encodes them as `w6k=`, but the first
    byte, `0xc3`, is the `gchar` -61, and `-61 >> 2` indexes `base64_alphabet`
    at -16. -/
theorem soup_base64_encode_e_acute :
    rfc4648Encode [0xc3, 0xa9] = bytesOf "w6k=" ∧
      soup_base64_encode [0xc3, 0xa9] = .error (.alphabet_index (-16)) :=
  ⟨by decide, rfl⟩

/-- For every text of `536870912` to `G_MAXINT` bytes, all below `0x80`,
    `inlen*4` overflows and `outlen + 1` falls short of the encoding: where it
    is negative `g_malloc` aborts before any write, and otherwise the encoder
    writes at `buffer [outlen + 1]`, past its allocation. -/
theorem soup_base64_encode_overrun (text : List UInt8) (hlo : 536870911 < text.length)
    (hhi : text.length ≤ 2147483647) (hascii : ∀ b ∈ text, b.toNat < 0x80) :
    soup_base64_encode text =
      if (base64_outlen (BitVec.ofNat 32 text.length) + 1#32).toInt < 0 then
        .error (.alloc_failed (base64_outlen (BitVec.ofNat 32 text.length) + 1#32).toInt)
      else .error (.buffer_overrun (base64_outlen (BitVec.ofNat 32 text.length) + 1#32).toInt.toNat) := by
  have hlt := base64_outlen_lt hlo hhi
  unfold soup_base64_encode
  rw [if_neg (inlen_ne_zero (by omega) hhi)]
  generalize (base64_outlen (BitVec.ofNat 32 text.length) + 1#32).toInt = size at hlt ⊢
  by_cases hneg : size < 0
  · rw [if_pos hneg, g_malloc, if_pos hneg]; rfl
  · rw [if_neg hneg, g_malloc_bind (by omega), encodeFrom_ascii _ _ _ hascii,
      putAll_eq _ _ _ (.inl (by simp)), if_neg (by simp only [List.length_nil, List.length_append,
        rfc4648Encode_length, List.length_singleton]; omega)]
    simp

/-- `2^30` bytes: `inlen*4` wraps to 0, so `outlen` is the padding alone, 3,
    and the fifth write is past the 4 bytes allocated. -/
theorem soup_base64_encode_overrun_two_pow_30 :
    536870911 < (List.replicate 1073741824 (0x41 : UInt8)).length ∧
      (List.replicate 1073741824 (0x41 : UInt8)).length ≤ 2147483647 ∧
      (∀ b ∈ List.replicate 1073741824 (0x41 : UInt8), b.toNat < 0x80) ∧
      soup_base64_encode (List.replicate 1073741824 0x41) = .error (.buffer_overrun 4) :=
  have h1 : 536870911 < (List.replicate 1073741824 (0x41 : UInt8)).length := by
    rw [List.length_replicate]; decide
  have h2 : (List.replicate 1073741824 (0x41 : UInt8)).length ≤ 2147483647 := by
    rw [List.length_replicate]; decide
  have h3 : ∀ b ∈ List.replicate 1073741824 (0x41 : UInt8), b.toNat < 0x80 := fun b hb => by
    rw [List.eq_of_mem_replicate hb]; decide
  ⟨h1, h2, h3, (soup_base64_encode_overrun _ h1 h2 h3).trans (by rw [List.length_replicate]; rfl)⟩

end libsoup.misc
