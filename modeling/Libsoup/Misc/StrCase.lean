import Libsoup.Bytes

namespace libsoup.misc

/-- `g_strcasecmp (s1, s2)` (glib, not under src/): the C library's
    `strcasecmp`, which in the C locale compares the bytes through `tolower`
    until they differ or the first string ends. A string is the memory from its
    first byte on: it ends at its first NUL, and the end of the list stands for
    that NUL. -/
def g_strcasecmp : List UInt8 → List UInt8 → Int
  | [], s2 => -((tolower (s2.headD 0)).toNat : Int)
  | c1 :: s1, s2 =>
    let result : Int := (tolower c1).toNat - (tolower (s2.headD 0)).toNat
    if result = 0 ∧ c1 ≠ 0 then g_strcasecmp s1 s2.tail else result

/-- `g_strncasecmp (s1, s2, n)` (glib, not under src/): `strncasecmp`, which
    compares at most `n` bytes the same way. -/
def g_strncasecmp : List UInt8 → List UInt8 → Nat → Int
  | _, _, 0 => 0
  | s1, s2, n + 1 =>
    let result : Int := (tolower (s1.headD 0)).toNat - (tolower (s2.headD 0)).toNat
    if result = 0 ∧ s1.headD 0 ≠ 0 ∧ n ≠ 0 then g_strncasecmp s1.tail s2.tail n else result

/-- The `int` that glibc's `toupper` returns for a `char` (signed on the
    targets libsoup builds for), converted to `guint`, given the byte the C
    locale maps the `char` to. The locale's table maps the `char`s -128 to -2 to
    their unsigned values, so only the `char` -1, the byte `0xff`, is `EOF` and
    comes back negative: it wraps to `0xffffffff`. -/
def charToGuint (c : UInt8) : UInt32 := if c = 0xff then 0xffffffff else c.toUInt32

/-- `soup_str_case_hash (key)`: `h = toupper (*p)`, then, when `h` is not zero,
    `h = (h << 5) - h + toupper (*p)` for each further byte up to the NUL. -/
def soup_str_case_hash (key : List UInt8) : UInt32 :=
  let h := charToGuint (toupper (key.headD 0))
  if h ≠ 0 then hashLoop key.tail h else h
where
  /-- The loop `for (p += 1; *p != '\0'; p++)`. -/
  hashLoop : List UInt8 → UInt32 → UInt32
    | [], h => h
    | c :: rest, h => if c = 0 then h else hashLoop rest ((h <<< 5) - h + charToGuint (toupper c))

/-- `soup_str_case_equal (v1, v2)`. -/
def soup_str_case_equal (v1 v2 : List UInt8) : Bool := g_strcasecmp v1 v2 = 0

/-- The byte-level case lemma: in the C locale two bytes have the same upper
    case exactly when they have the same lower case. -/
theorem toupper_eq_iff_tolower_eq (a b : UInt8) :
    toupper a = toupper b ↔ tolower a = tolower b := by
  have ha := byte_toNat_lt a
  have hb := byte_toNat_lt b
  rw [← byte_toNat_inj, ← byte_toNat_inj, toupper_toNat, toupper_toNat, tolower_toNat, tolower_toNat]
  split_ifs <;> omega

theorem tolower_eq_zero_iff (c : UInt8) : tolower c = 0 ↔ c = 0 := by
  rw [← byte_toNat_inj, ← byte_toNat_inj, tolower_toNat]
  split_ifs <;> simp; omega

/-- What `g_strcasecmp` returning 0 says of the first bytes: both strings end
    there, or both go on with bytes of the same lower case and the rests compare
    equal. -/
theorem g_strcasecmp_eq_zero {s1 s2 : List UInt8} (h : g_strcasecmp s1 s2 = 0) :
    (s1.headD 0 = 0 ∧ s2.headD 0 = 0) ∨
      (s1.headD 0 ≠ 0 ∧ tolower (s1.headD 0) = tolower (s2.headD 0) ∧
        g_strcasecmp s1.tail s2.tail = 0) := by
  cases s1 with
  | nil =>
    have hlow : tolower (s2.headD 0) = 0 := by
      simp only [g_strcasecmp] at h
      rw [← byte_toNat_inj, UInt8.toNat_zero]; omega
    exact .inl ⟨rfl, (tolower_eq_zero_iff _).mp hlow⟩
  | cons c1 r1 =>
    simp only [g_strcasecmp, List.headD_cons, List.tail_cons] at h ⊢
    split_ifs at h with hc
    · exact .inr ⟨hc.2, byte_toNat_inj.mp (by omega), h⟩
    · have hc1 : c1 = 0 := by by_contra hne; exact hc ⟨h, hne⟩
      have hlow : tolower (s2.headD 0) = 0 := by
        have h0 : (tolower 0).toNat = 0 := rfl
        rw [hc1, h0] at h
        rw [← byte_toNat_inj, UInt8.toNat_zero]; omega
      exact .inl ⟨hc1, (tolower_eq_zero_iff _).mp hlow⟩

/-- `g_strncasecmp (key, tok, strlen (tok))` is 0 exactly when the NUL-free
    `tok` is a case-insensitive prefix of `key`. -/
theorem g_strncasecmp_eq_zero_iff (tok : List UInt8) (htok : 0 ∉ tok) :
    ∀ key : List UInt8, g_strncasecmp key tok tok.length = 0 ↔ tok.map tolower <+: key.map tolower := by
  induction tok with
  | nil => intro key; simp [g_strncasecmp]
  | cons t ts ih =>
    intro key
    have ht : tolower t ≠ 0 := fun h => htok (by rw [(tolower_eq_zero_iff t).mp h]; exact .head _)
    have ih := ih (fun h => htok (.tail _ h))
    cases key with
    | nil =>
      have : ((tolower 0).toNat : Int) - (tolower t).toNat ≠ 0 := by
        have := mt byte_toNat_inj.mp ht
        rw [UInt8.toNat_zero] at this
        show (0 : Int) - _ ≠ 0
        omega
      simp [g_strncasecmp, this]
    | cons k ks =>
      simp only [List.length_cons, g_strncasecmp, List.headD_cons, List.tail_cons, List.map_cons,
        List.cons_prefix_cons]
      by_cases hkt : tolower k = tolower t
      · have hk : k ≠ 0 := fun h => ht (by rw [← hkt, h]; rfl)
        have hres : ((tolower k).toNat : Int) - (tolower t).toNat = 0 := by rw [hkt]; omega
        cases ts with
        | nil => rw [if_neg (fun h => h.2.2 rfl)]; simp [hres, hkt]
        | cons t' ts' =>
          rw [if_pos ⟨hres, hk, Nat.succ_ne_zero _⟩, ih]
          exact ⟨fun h => ⟨hkt.symm, h⟩, fun h => h.2⟩
      · have hres : ((tolower k).toNat : Int) - (tolower t).toNat ≠ 0 := by
          have := mt byte_toNat_inj.mp hkt
          omega
        rw [if_neg (fun h => hres h.1)]
        exact ⟨fun h => absurd h hres, fun h => absurd h.1.symm hkt⟩

theorem hashLoop_eq (s : List UInt8) (h : UInt32) :
    soup_str_case_hash.hashLoop s h =
      if s.headD 0 = 0 then h
      else soup_str_case_hash.hashLoop s.tail ((h <<< 5) - h + charToGuint (toupper (s.headD 0))) := by
  cases s <;> rfl

/-- The hash loop gives the same value on two strings that `g_strcasecmp`
    finds equal. -/
theorem hashLoop_congr (s1 : List UInt8) :
    ∀ (s2 : List UInt8) (h : UInt32), g_strcasecmp s1 s2 = 0 →
      soup_str_case_hash.hashLoop s1 h = soup_str_case_hash.hashLoop s2 h := by
  induction s1 with
  | nil =>
    intro s2 h hcmp
    rcases g_strcasecmp_eq_zero hcmp with ⟨-, h2⟩ | ⟨h1, -⟩
    · rw [hashLoop_eq s2, if_pos h2]; rfl
    · exact absurd rfl h1
  | cons c1 r1 ih =>
    intro s2 h hcmp
    rcases g_strcasecmp_eq_zero hcmp with ⟨h1, h2⟩ | ⟨h1, hlow, htail⟩
    · rw [hashLoop_eq, hashLoop_eq s2, if_pos h1, if_pos h2]
    · have h2 : s2.headD 0 ≠ 0 := fun h2 =>
        h1 ((tolower_eq_zero_iff _).mp (hlow.trans (by rw [h2]; rfl)))
      rw [hashLoop_eq, hashLoop_eq s2, if_neg h1, if_neg h2,
        (toupper_eq_iff_tolower_eq _ _).mpr hlow]
      exact ih _ _ htail

/-- `soup_str_case_hash` and `soup_str_case_equal` are a valid pair for one
    `GHashTable`: strings that compare equal hash alike. -/
theorem soup_str_case_hash_eq_of_equal (s1 s2 : List UInt8) (h : soup_str_case_equal s1 s2 = true) :
    soup_str_case_hash s1 = soup_str_case_hash s2 := by
  have hcmp : g_strcasecmp s1 s2 = 0 := by simpa [soup_str_case_equal] using h
  simp only [soup_str_case_hash]
  rcases g_strcasecmp_eq_zero hcmp with ⟨h1, h2⟩ | ⟨-, hlow, htail⟩
  · have h0 : ¬ charToGuint (toupper 0) ≠ 0 := by decide
    rw [h1, h2, if_neg h0, if_neg h0]
  · rw [(toupper_eq_iff_tolower_eq _ _).mpr hlow, hashLoop_congr _ _ _ htail]

theorem soup_str_case_hash_eq_of_equal_content_type :
    soup_str_case_equal (bytesOf "Content-Type") (bytesOf "content-TYPE") = true ∧
      soup_str_case_hash (bytesOf "Content-Type") = soup_str_case_hash (bytesOf "content-TYPE") :=
  ⟨by decide, soup_str_case_hash_eq_of_equal _ _ (by decide)⟩

end libsoup.misc
