import Libsoup.Bytes

namespace libsoup.misc

/-- `soup_substring_index (str, len, substr)`: the loop
    `for (i = 0; i <= len - sublen; ++i)` comparing `str[i]` with `substr[0]` and
    then `memcmp`. The list is the memory from `str` on; a byte past its end reads
    as a mismatch. -/
def soup_substring_index (str : List UInt8) (len : Int) (substr : List UInt8) : Int :=
  scan str 0
where
  /-- The loop from index `i`, over the bytes `str[i], str[i+1], ...`. -/
  scan : List UInt8 → Nat → Int
    | [], _ => -1
    | c :: rest, i =>
      if (i : Int) ≤ len - substr.length then
        if c = substr.headD 0 ∧ substr.isPrefixOf (c :: rest) then i else scan rest (i + 1)
      else -1

variable {len : Int} {substr : List UInt8}

private theorem prefix_cons_iff (hsub : substr ≠ []) (c : UInt8) (rest : List UInt8) :
    (c = substr.headD 0 ∧ substr.isPrefixOf (c :: rest)) ↔ substr <+: c :: rest := by
  rw [List.isPrefixOf_iff_prefix]
  refine ⟨fun h => h.2, fun h => ⟨?_, h⟩⟩
  obtain ⟨b, bs, rfl⟩ := List.exists_cons_of_ne_nil hsub
  exact (List.cons_prefix_cons.mp h).1.symm

/-- The loop from index `i` over the suffix `l` finds the least offset `t` at
    which `substr` occurs in `l`, provided `i + t` is within the bound
    `len - sublen`, and returns `-1` when there is none. -/
theorem scan_cases (hsub : substr ≠ []) : ∀ (l : List UInt8) (i : Nat),
    (soup_substring_index.scan len substr l i = -1 ∧
      ∀ t, ((i + t : Nat) : Int) ≤ len - substr.length → ¬ substr <+: l.drop t) ∨
    ∃ t, soup_substring_index.scan len substr l i = ((i + t : Nat) : Int) ∧
      ((i + t : Nat) : Int) ≤ len - substr.length ∧ substr <+: l.drop t ∧
      ∀ u < t, ¬ substr <+: l.drop u
  | [], i => by
    refine .inl ⟨rfl, fun t _ h => hsub ?_⟩
    simpa using h
  | c :: rest, i => by
    simp only [soup_substring_index.scan]
    by_cases hbound : (i : Int) ≤ len - substr.length
    · rw [if_pos hbound]
      by_cases hmatch : c = substr.headD 0 ∧ substr.isPrefixOf (c :: rest)
      · rw [if_pos hmatch]
        exact .inr ⟨0, by simp, by simpa using hbound, (prefix_cons_iff hsub c rest).mp hmatch,
          fun u hu => absurd hu (Nat.not_lt_zero u)⟩
      · rw [if_neg hmatch]
        have hhead : ¬ substr <+: c :: rest := fun h => hmatch ((prefix_cons_iff hsub c rest).mpr h)
        rcases scan_cases hsub rest (i + 1) with ⟨hscan, hnone⟩ | ⟨t, hscan, htb, hocc, hfirst⟩
        · refine .inl ⟨hscan, fun t ht => ?_⟩
          cases t with
          | zero => simpa using hhead
          | succ t => exact hnone t (by simpa [Nat.add_assoc, Nat.add_comm 1] using ht)
        · refine .inr ⟨t + 1, by simpa [Nat.add_assoc, Nat.add_comm 1] using hscan,
            by simpa [Nat.add_assoc, Nat.add_comm 1] using htb, by simpa using hocc, fun u hu => ?_⟩
          cases u with
          | zero => simpa using hhead
          | succ u => simpa using hfirst u (by omega)
    · rw [if_neg hbound]
      exact .inl ⟨rfl, fun t ht => absurd (by omega : (i : Int) ≤ len - substr.length) hbound⟩

/-- `soup_substring_index` returns the least index at which a non-empty
    `substr` occurs within the bound `len - sublen`, and `-1` when there is none. -/
theorem soup_substring_index_cases (hsub : substr ≠ []) (str : List UInt8) :
    (soup_substring_index str len substr = -1 ∧
      ∀ t : Nat, (t : Int) ≤ len - substr.length → ¬ substr <+: str.drop t) ∨
    ∃ t : Nat, soup_substring_index str len substr = t ∧ (t : Int) ≤ len - substr.length ∧
      substr <+: str.drop t ∧ ∀ u < t, ¬ substr <+: str.drop u := by
  simpa using scan_cases hsub str 0

private theorem prefix_append_iff {p l : List UInt8} (extra : List UInt8) (h : p.length ≤ l.length) :
    p <+: l ++ extra ↔ p <+: l := by
  rw [List.prefix_iff_eq_take, List.prefix_iff_eq_take, List.take_append_of_le_length h]

/-- The loop over the bytes `l` from index `i`, where `l` ends at `len`, reads
    none of the bytes after it. -/
theorem scan_append (hsub : substr ≠ []) (extra : List UInt8) :
    ∀ (l : List UInt8) (i : Nat), (i + l.length : Int) = len →
      soup_substring_index.scan len substr (l ++ extra) i = soup_substring_index.scan len substr l i
  | [], i, hlen => by
    have hpos : 0 < substr.length := List.length_pos.mpr hsub
    cases extra with
    | nil => rfl
    | cons c rest =>
      simp only [List.nil_append, soup_substring_index.scan]
      rw [if_neg (by simp at hlen; omega)]
  | c :: rest, i, hlen => by
    rw [List.cons_append, soup_substring_index.scan, soup_substring_index.scan]
    by_cases hbound : (i : Int) ≤ len - substr.length
    · have hle : substr.length ≤ (c :: rest).length := by simp at hlen ⊢; omega
      have hprefix : substr.isPrefixOf (c :: (rest ++ extra)) = substr.isPrefixOf (c :: rest) := by
        rw [Bool.eq_iff_iff, List.isPrefixOf_iff_prefix, List.isPrefixOf_iff_prefix,
          ← List.cons_append, prefix_append_iff extra hle]
      rw [if_pos hbound, if_pos hbound, hprefix,
        scan_append hsub extra rest (i + 1) (by simp at hlen ⊢; omega)]
    · rw [if_neg hbound, if_neg hbound]

/-- `soup_substring_index (str, len, p)` over the `len` bytes of `str`, for a
    non-empty pattern: the result is the least `i` with `str[i, i + |p|) = p`,
    it is `-1` exactly when there is no such `i`, and the bytes after `str[len - 1]`
    are never read. -/
theorem soup_substring_index_least (str p : List UInt8) (hp : p ≠ []) :
    (∀ i : Nat, soup_substring_index str str.length p = i ↔
      i + p.length ≤ str.length ∧ p <+: str.drop i ∧ ∀ u < i, ¬ p <+: str.drop u) ∧
    (soup_substring_index str str.length p = -1 ↔
      ∀ i, i + p.length ≤ str.length → ¬ p <+: str.drop i) ∧
    ∀ extra, soup_substring_index (str ++ extra) str.length p =
      soup_substring_index str str.length p := by
  refine ⟨?_, ?_, fun extra => scan_append hp extra str 0 (by simp)⟩ <;>
    rcases @soup_substring_index_cases (str.length : Int) p hp str with
      ⟨hres, hnone⟩ | ⟨t, hres, hbound, hocc, hfirst⟩
  · intro i
    rw [hres]
    refine ⟨fun h => by omega, fun ⟨hi, hocc, _⟩ => absurd hocc (hnone i (by omega))⟩
  · intro i
    rw [hres, Int.ofNat_inj]
    refine ⟨fun h => h ▸ ⟨by omega, hocc, hfirst⟩, fun ⟨hi, hocci, hfirsti⟩ => ?_⟩
    rcases Nat.lt_trichotomy t i with hlt | heq | hgt
    · exact absurd hocc (hfirsti t hlt)
    · exact heq
    · exact absurd hocci (hfirst i hgt)
  · exact ⟨fun _ i hi => hnone i (by omega), fun _ => hres⟩
  · rw [hres]
    exact ⟨fun h => by omega, fun h => absurd hocc (h t (by omega))⟩

theorem soup_substring_index_least_crlf :
    bytesOf "\r\n" ≠ [] ∧
      ((∀ i : Nat, soup_substring_index (bytesOf "ab\r\ncd") 6 (bytesOf "\r\n") = i ↔
        i + 2 ≤ 6 ∧ bytesOf "\r\n" <+: (bytesOf "ab\r\ncd").drop i ∧
          ∀ u < i, ¬ bytesOf "\r\n" <+: (bytesOf "ab\r\ncd").drop u) ∧
      (soup_substring_index (bytesOf "ab\r\ncd") 6 (bytesOf "\r\n") = -1 ↔
        ∀ i, i + 2 ≤ 6 → ¬ bytesOf "\r\n" <+: (bytesOf "ab\r\ncd").drop i) ∧
      ∀ extra, soup_substring_index (bytesOf "ab\r\ncd" ++ extra) 6 (bytesOf "\r\n") =
        soup_substring_index (bytesOf "ab\r\ncd") 6 (bytesOf "\r\n")) :=
  ⟨by decide, soup_substring_index_least _ _ (by decide)⟩

example : soup_substring_index (bytesOf "ab\r\ncd") 6 (bytesOf "\r\n") = 2 := by decide

end libsoup.misc
