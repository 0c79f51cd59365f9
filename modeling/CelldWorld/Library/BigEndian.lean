import Mathlib.Algebra.Group.Nat.Defs
import Mathlib.Data.List.Induction

/-! Unsigned and signed numbers of a fixed width in network byte order, and the view of a
byte string that reads them at an offset. -/

namespace BigEndian

/-- The `width` low bytes of a number, the highest first. -/
def encode : Nat → Nat → List UInt8
  | 0, _ => []
  | width + 1, value => encode width (value / 256) ++ [UInt8.ofNat value]

def decode (bytes : List UInt8) : Nat := bytes.foldl (fun total byte => total * 256 + byte.toNat) 0

@[simp] theorem encode_length {width value : Nat} : (encode width value).length = width := by
  induction width generalizing value with
  | zero => rfl
  | succ width ih => rw [encode, List.length_append, ih, List.length_singleton]

@[simp] theorem decode_nil : decode [] = 0 := rfl

@[simp] theorem decode_append {bytes : List UInt8} {byte : UInt8} :
    decode (bytes ++ [byte]) = decode bytes * 256 + byte.toNat := by
  simp only [decode, List.foldl_append, List.foldl_cons, List.foldl_nil]

theorem decode_lt {bytes : List UInt8} : decode bytes < 256 ^ bytes.length := by
  induction bytes using List.reverseRecOn with
  | nil => exact Nat.one_pos
  | append_singleton bytes byte ih =>
    have small := byte.toNat_lt
    rw [decode_append, List.length_append, List.length_singleton, Nat.pow_succ]
    omega

/-- A number that fits its width is read back. -/
theorem decode_encode {width value : Nat} (fits : value < 256 ^ width) : decode (encode width value) = value := by
  induction width generalizing value with
  | zero =>
    rw [Nat.pow_zero] at fits
    rw [encode, decode_nil]
    omega
  | succ width ih =>
    rw [Nat.pow_succ] at fits
    rw [encode, decode_append, ih (Nat.div_lt_of_lt_mul (by omega)), UInt8.toNat_ofNat']
    omega

/-- Bytes are the encoding of the number that they are read as. -/
theorem encode_decode {bytes : List UInt8} {width : Nat} (length : bytes.length = width) :
    encode width (decode bytes) = bytes := by
  subst length
  induction bytes using List.reverseRecOn with
  | nil => rfl
  | append_singleton bytes byte ih =>
    have small := byte.toNat_lt
    rw [List.length_append, List.length_singleton, encode, decode_append]
    have quotient : (decode bytes * 256 + byte.toNat) / 256 = decode bytes := by omega
    have last : UInt8.ofNat (decode bytes * 256 + byte.toNat) = byte := by
      apply UInt8.toNat_inj.mp
      rw [UInt8.toNat_ofNat']
      omega
    rw [quotient, last, ih]

/-- Two's complement of `width` bytes. -/
def toSigned (width value : Nat) : Int :=
  if 2 * value < 256 ^ width then value else (value : Int) - (256 ^ width : Nat)

def ofSigned (width : Nat) (value : Int) : Nat := (value % (256 ^ width : Nat)).toNat

theorem toSigned_ofSigned {width : Nat} {value : Int} (low : -(256 ^ width : Nat) ≤ 2 * value)
    (high : 2 * value < (256 ^ width : Nat)) : toSigned width (ofSigned width value) = value := by
  unfold toSigned ofSigned
  generalize 256 ^ width = bound at low high ⊢
  rcases Int.lt_or_le value 0 with negative | natural
  · have wrapped : value % (bound : Int) = value + bound := by
      rw [← Int.add_emod_right]
      exact Int.emod_eq_of_lt (by omega) (by omega)
    rw [wrapped]
    split <;> omega
  · rw [Int.emod_eq_of_lt natural (by omega)]
    split <;> omega

theorem ofSigned_toSigned {width value : Nat} (fits : value < 256 ^ width) :
    ofSigned width (toSigned width value) = value := by
  unfold toSigned ofSigned
  generalize 256 ^ width = bound at fits ⊢
  split
  · rw [Int.emod_eq_of_lt (by omega) (by omega)]
    exact Int.toNat_natCast value
  · rw [← Int.add_emod_right, Int.sub_add_cancel, Int.emod_eq_of_lt (by omega) (by omega)]
    exact Int.toNat_natCast value

/-- The bytes from an offset on, where that many are there. -/
def slice (view : List UInt8) (offset width : Nat) : List UInt8 := (view.drop offset).take width

theorem slice_length {view : List UInt8} {offset width : Nat} (inside : offset + width ≤ view.length) :
    (slice view offset width).length = width := by
  rw [slice, List.length_take, List.length_drop]
  omega

theorem slice_mid {before middle after : List UInt8} :
    slice (before ++ (middle ++ after)) before.length middle.length = middle := by
  rw [slice, List.drop_left, List.take_left]

/-- A view from an offset on starts with a slice there. -/
theorem drop_slice {view : List UInt8} {offset width : Nat} :
    view.drop offset = slice view offset width ++ view.drop (offset + width) := by
  rw [slice, ← List.drop_drop, List.take_append_drop]

end BigEndian
