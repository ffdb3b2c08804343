import Libsoup.Bytes

namespace libsoup.transfer

/-- The value `decode_hex` gives one digit: `*src - 0x30` for a decimal digit,
    `tolower (*src) - 0x57` for a letter. -/
def hexDigitValue (c : UInt8) : Nat :=
  if isdigit c then c.toNat - 0x30 else (tolower c).toNat - 0x57

/-- A 32-bit pattern read as a `gint`. -/
def toGint (x : Nat) : Int := if x < 2 ^ 31 then x else (x : Int) - 2 ^ 32

/-- The `for (j = *width - 1; j + 1; j--)` loop of `decode_hex`: each digit is
    shifted left by `4*j` and added to `new_len`, both in 32-bit two's complement
    as the compiled code computes them. The shift is x86 `SHL`, which takes its
    count modulo 32, so a digit eight or more places from the end is shifted by
    `4*j mod 32`. -/
def hexAccumulate : List UInt8 → Nat → Nat
  | [], new_len => new_len
  | c :: rest, new_len =>
    hexAccumulate rest ((new_len + hexDigitValue c * 2 ^ (4 * rest.length % 32)) % 2 ^ 32)

/-- `decode_hex (src, &width)`, returning `(new_len, *width)`. The list is the
    memory from `src` on; the `isxdigit` scan stops at its end. -/
def decode_hex (src : List UInt8) : Int × Nat :=
  let digits := src.takeWhile isxdigit
  (toGint (hexAccumulate digits 0), digits.length)

/-- The base-16 value of a run of hex digits. -/
def hexValue : List UInt8 → Nat
  | [] => 0
  | c :: rest => hexDigitValue c * 16 ^ rest.length + hexValue rest

/-- A digit whose place value fits 32 bits is shifted by its place: either the
    shift count is below 32 or the digit is 0. -/
private theorem digit_shift_eq {d n : Nat} (h : d * 16 ^ n < 2 ^ 32) :
    d * 2 ^ (4 * n % 32) = d * 16 ^ n := by
  by_cases hn : n < 8
  · rw [Nat.mod_eq_of_lt (by omega), Nat.pow_mul]
  · have h16 : 2 ^ 32 ≤ 16 ^ n :=
      calc 2 ^ 32 = 16 ^ 8 := rfl
        _ ≤ 16 ^ n := Nat.pow_le_pow_right (by decide) (by omega)
    have hd : d = 0 := by
      by_contra hd
      have := Nat.le_mul_of_pos_left (16 ^ n) (Nat.pos_of_ne_zero hd)
      omega
    rw [hd, Nat.zero_mul, Nat.zero_mul]

theorem hexAccumulate_eq (digits : List UInt8) (h : hexValue digits < 2 ^ 32) :
    ∀ acc, acc < 2 ^ 32 → hexAccumulate digits acc = (acc + hexValue digits) % 2 ^ 32 := by
  induction digits with
  | nil => intro acc hacc; rw [hexAccumulate, hexValue, Nat.add_zero, Nat.mod_eq_of_lt hacc]
  | cons c rest ih =>
    intro acc _
    rw [hexValue] at h
    have hc : hexDigitValue c * 16 ^ rest.length < 2 ^ 32 := by omega
    rw [hexAccumulate, digit_shift_eq hc, ih (by omega) _ (Nat.mod_lt _ (Nat.two_pow_pos 32)),
      Nat.mod_add_mod, hexValue, Nat.add_assoc]

theorem decode_hex_eq (src : List UInt8) (h : hexValue (src.takeWhile isxdigit) < 2 ^ 32) :
    decode_hex src = (toGint (hexValue (src.takeWhile isxdigit)), (src.takeWhile isxdigit).length) := by
  simp only [decode_hex, hexAccumulate_eq _ h 0 (Nat.two_pow_pos 32), Nat.zero_add, Nat.mod_eq_of_lt h]

example : decode_hex (bytesOf "800000000") = (8, 9) := by decide

/-- `decode_hex` sets `width` to the length of the leading run of hex digits and
    returns the run's base-16 value whenever that value fits a `gint`. -/
theorem decode_hex_of_lt (src : List UInt8) (h : hexValue (src.takeWhile isxdigit) < 2 ^ 31) :
    decode_hex src = ((hexValue (src.takeWhile isxdigit) : Int), (src.takeWhile isxdigit).length) := by
  rw [decode_hex_eq _ (by omega), toGint, if_pos h]

theorem decode_hex_of_lt_1aF :
    hexValue ((bytesOf "1aF;x").takeWhile isxdigit) < 2 ^ 31 ∧
      decode_hex (bytesOf "1aF;x") =
        ((hexValue ((bytesOf "1aF;x").takeWhile isxdigit) : Int),
          ((bytesOf "1aF;x").takeWhile isxdigit).length) :=
  ⟨by decide, decode_hex_of_lt _ (by decide)⟩

example : decode_hex (bytesOf "1aF;x") = (431, 3) := by decide

/-- When the run's value fits 32 bits, as it does for at most eight digits,
    `decode_hex` returns a negative value exactly when the top bit is set. -/
theorem decode_hex_neg_iff (src : List UInt8) (h : hexValue (src.takeWhile isxdigit) < 2 ^ 32) :
    (decode_hex src).1 < 0 ↔ 2 ^ 31 ≤ hexValue (src.takeWhile isxdigit) := by
  rw [decode_hex_eq _ h, toGint]
  split_ifs <;> omega

theorem decode_hex_neg_iff_80000000 :
    hexValue ((bytesOf "80000000\r\n").takeWhile isxdigit) < 2 ^ 32 ∧
      ((decode_hex (bytesOf "80000000\r\n")).1 < 0 ↔
        2 ^ 31 ≤ hexValue ((bytesOf "80000000\r\n").takeWhile isxdigit)) :=
  ⟨by decide, decode_hex_neg_iff _ (by decide)⟩

end libsoup.transfer
