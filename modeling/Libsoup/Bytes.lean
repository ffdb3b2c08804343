import Mathlib.Algebra.Group.Int
import Mathlib.Algebra.Group.Nat.Basic
import Mathlib.Data.List.Basic

namespace libsoup

/-- The bytes of an ASCII C string literal as they sit in memory, without the
    terminating NUL. -/
def bytesOf (s : String) : List UInt8 := s.toList.map fun c => c.toNat.toUInt8

/-- `isdigit` in the C locale. -/
def isdigit (c : UInt8) : Bool := 0x30 ≤ c && c ≤ 0x39

/-- `isxdigit` in the C locale. -/
def isxdigit (c : UInt8) : Bool :=
  isdigit c || (0x61 ≤ c && c ≤ 0x66) || (0x41 ≤ c && c ≤ 0x46)

/-- `tolower` in the C locale. -/
def tolower (c : UInt8) : UInt8 := if 0x41 ≤ c && c ≤ 0x5a then c + 0x20 else c

/-- `toupper` in the C locale. -/
def toupper (c : UInt8) : UInt8 := if 0x61 ≤ c && c ≤ 0x7a then c - 0x20 else c

/-- `isspace` in the C locale: space, `\t`, `\n`, `\v`, `\f` and `\r`. -/
def isspace (c : UInt8) : Bool := c = 0x20 || (0x09 ≤ c && c ≤ 0x0d)

/-- The `%x` conversion of `g_strdup_printf`: lowercase hexadecimal digits with
    no leading zeros. -/
def printfHex (n : Nat) : List UInt8 := bytesOf (String.mk (Nat.toDigits 16 n))

theorem byte_le_iff {a b : UInt8} : a ≤ b ↔ a.toNat ≤ b.toNat := by
  rw [UInt8.le_def, BitVec.le_def]; rfl

theorem byte_toNat_inj {a b : UInt8} : a.toNat = b.toNat ↔ a = b := ⟨UInt8.toNat.inj, congrArg _⟩

theorem byte_toNat_lt (a : UInt8) : a.toNat < 256 := a.toNat_lt_size

theorem byte_toNat_add (a b : UInt8) : (a + b).toNat = (a.toNat + b.toNat) % 256 :=
  BitVec.toNat_add a.toBitVec b.toBitVec

theorem byte_toNat_sub (a b : UInt8) : (a - b).toNat = (256 - b.toNat + a.toNat) % 256 :=
  BitVec.toNat_sub a.toBitVec b.toBitVec

theorem tolower_toNat (c : UInt8) :
    (tolower c).toNat = if 0x41 ≤ c.toNat ∧ c.toNat ≤ 0x5a then c.toNat + 0x20 else c.toNat := by
  have hlt := byte_toNat_lt c
  have hcond : (0x41 ≤ c && c ≤ 0x5a) = true ↔ 0x41 ≤ c.toNat ∧ c.toNat ≤ 0x5a := by
    simp only [Bool.and_eq_true, decide_eq_true_eq]
    exact and_congr byte_le_iff byte_le_iff
  unfold tolower
  split_ifs with h1 h2 h2
  · rw [byte_toNat_add]
    show (c.toNat + 32) % 256 = _
    omega
  · exact absurd (hcond.1 h1) h2
  · exact absurd (hcond.2 h2) h1
  · rfl

theorem toupper_toNat (c : UInt8) :
    (toupper c).toNat = if 0x61 ≤ c.toNat ∧ c.toNat ≤ 0x7a then c.toNat - 0x20 else c.toNat := by
  have hlt := byte_toNat_lt c
  have hcond : (0x61 ≤ c && c ≤ 0x7a) = true ↔ 0x61 ≤ c.toNat ∧ c.toNat ≤ 0x7a := by
    simp only [Bool.and_eq_true, decide_eq_true_eq]
    exact and_congr byte_le_iff byte_le_iff
  unfold toupper
  split_ifs with h1 h2 h2
  · rw [byte_toNat_sub]
    show (256 - 32 + c.toNat) % 256 = _
    omega
  · exact absurd (hcond.1 h1) h2
  · exact absurd (hcond.2 h2) h1
  · rfl

@[simp] theorem bytesOf_crlf : bytesOf "\r\n" = [13, 10] := rfl

@[simp] theorem bytesOf_crlf_crlf : bytesOf "\r\n\r\n" = [13, 10, 13, 10] := rfl

end libsoup
