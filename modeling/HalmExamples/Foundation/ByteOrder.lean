import Mathlib.Data.List.Basic
import Mathlib.Tactic.Ring

/-!
# Fixed-width byte orders

Naturals as byte strings of a given width, least or most significant byte
first.  `byteSwap` is the conversion between the two orders as a
little-endian machine sees it: what it stores is the big-endian string.
-/

set_option autoImplicit false

namespace Foundation.ByteOrder

def littleEndian : Nat → Nat → List UInt8
  | 0, _ => []
  | width + 1, value => UInt8.ofNat (value % 256) :: littleEndian width (value / 256)

def ofLittleEndian : List UInt8 → Nat
  | [] => 0
  | byte :: rest => byte.toNat + 256 * ofLittleEndian rest

def bigEndian (width value : Nat) : List UInt8 := (littleEndian width value).reverse

def ofBigEndian (bytes : List UInt8) : Nat := ofLittleEndian bytes.reverse

/-- The value whose little-endian bytes are the big-endian bytes of `value`. -/
def byteSwap (width value : Nat) : Nat := ofLittleEndian (bigEndian width value)

@[simp] theorem littleEndian_length (width value : Nat) :
    (littleEndian width value).length = width := by
  induction width generalizing value with
  | zero => rfl
  | succ width ih => simp [littleEndian, ih]

@[simp] theorem bigEndian_length (width value : Nat) :
    (bigEndian width value).length = width := by
  simp [bigEndian]

theorem ofLittleEndian_lt (bytes : List UInt8) :
    ofLittleEndian bytes < 256 ^ bytes.length := by
  induction bytes with
  | nil => simp [ofLittleEndian]
  | cons byte rest ih =>
      have byteBound : byte.toNat < 256 := byte.toNat_lt
      simp only [ofLittleEndian, List.length_cons, pow_succ]
      omega

theorem ofBigEndian_lt (bytes : List UInt8) :
    ofBigEndian bytes < 256 ^ bytes.length := by
  simpa [ofBigEndian] using ofLittleEndian_lt bytes.reverse

theorem ofLittleEndian_littleEndian (width value : Nat) :
    ofLittleEndian (littleEndian width value) = value % 256 ^ width := by
  induction width generalizing value with
  | zero => simp [littleEndian, ofLittleEndian, Nat.mod_one]
  | succ width ih =>
      have digit : (UInt8.ofNat (value % 256)).toNat = value % 256 := by
        simp [UInt8.toNat_ofNat']
      rw [littleEndian, ofLittleEndian, ih, digit, pow_succ', Nat.mod_mul]

theorem littleEndian_ofLittleEndian (bytes : List UInt8) :
    littleEndian bytes.length (ofLittleEndian bytes) = bytes := by
  induction bytes with
  | nil => rfl
  | cons byte rest ih =>
      have byteBound : byte.toNat < 256 := byte.toNat_lt
      have low : (byte.toNat + 256 * ofLittleEndian rest) % 256 = byte.toNat := by omega
      have high : (byte.toNat + 256 * ofLittleEndian rest) / 256 = ofLittleEndian rest := by
        omega
      simp only [List.length_cons, ofLittleEndian, littleEndian, low, high, ih]
      rw [UInt8.ofNat_toNat]

theorem ofBigEndian_bigEndian (width value : Nat) :
    ofBigEndian (bigEndian width value) = value % 256 ^ width := by
  rw [ofBigEndian, bigEndian, List.reverse_reverse, ofLittleEndian_littleEndian]

theorem bigEndian_ofBigEndian (bytes : List UInt8) :
    bigEndian bytes.length (ofBigEndian bytes) = bytes := by
  have back := littleEndian_ofLittleEndian bytes.reverse
  rw [List.length_reverse] at back
  rw [bigEndian, ofBigEndian, back, List.reverse_reverse]

theorem littleEndian_byteSwap (width value : Nat) :
    littleEndian width (byteSwap width value) = bigEndian width value := by
  have back := littleEndian_ofLittleEndian (bigEndian width value)
  rwa [bigEndian_length] at back

theorem byteSwap_ofLittleEndian (bytes : List UInt8) :
    byteSwap bytes.length (ofLittleEndian bytes) = ofBigEndian bytes := by
  rw [byteSwap, bigEndian, littleEndian_ofLittleEndian, ofBigEndian]

end Foundation.ByteOrder
