import CratonHsm.PrefixFreeCode

/-!
# Reading fields back

The decoding side of fixed-width integers in both byte orders, a range of bytes, zero padding to a
block size, and a write over bytes already in place.
-/

namespace PrefixFreeCode
open List

/-- The integer whose bytes these are, most significant first. -/
def ofBigEndian (bytes : Bytes) : Nat := bytes.foldl (fun acc b => acc * 256 + b.toNat) 0

theorem foldl_bigEndian (w n acc : Nat) :
    (bigEndian w n).foldl (fun acc b => acc * 256 + b.toNat) acc = acc * 256 ^ w + n % 256 ^ w := by
  induction w generalizing acc with
  | zero => simp [bigEndian, Nat.mod_one]
  | succ w ih =>
    have hbyte : (UInt8.ofNat (n / 256 ^ w)).toNat = n / 256 ^ w % 256 := by simp
    rw [bigEndian, foldl_cons, ih, hbyte, Nat.pow_succ, Nat.mod_mul]
    ring

theorem ofBigEndian_bigEndian {w n : Nat} (h : n < 256 ^ w) : ofBigEndian (bigEndian w n) = n := by
  rw [ofBigEndian, foldl_bigEndian, Nat.zero_mul, Nat.zero_add, Nat.mod_eq_of_lt h]

/-- The least significant byte is the last one. -/
theorem bigEndian_succ_eq_snoc (w n : Nat) :
    bigEndian (w + 1) n = bigEndian w (n / 256) ++ [UInt8.ofNat n] := by
  induction w with
  | zero => simp [bigEndian]
  | succ w ih =>
    have hdiv : n / 256 / 256 ^ w = n / 256 ^ (w + 1) := by
      rw [Nat.div_div_eq_div_mul, Nat.pow_succ']
    rw [bigEndian, ih, bigEndian, hdiv, cons_append]

/-- Bytes are those of the integer that they stand for. -/
theorem bigEndian_ofBigEndian (bytes : Bytes) :
    bigEndian bytes.length (ofBigEndian bytes) = bytes := by
  induction bytes using List.reverseRecOn with
  | nil => rfl
  | append_singleton bytes b ih =>
    have hb := b.toNat_lt
    have hsnoc : ofBigEndian (bytes ++ [b]) = ofBigEndian bytes * 256 + b.toNat := by
      rw [ofBigEndian, foldl_append]
      rfl
    have hhigh : (ofBigEndian bytes * 256 + b.toNat) / 256 = ofBigEndian bytes := by omega
    have hlow : UInt8.ofNat (ofBigEndian bytes * 256 + b.toNat) = b := by
      apply UInt8.toNat_inj.mp
      rw [UInt8.toNat_ofNat']
      omega
    rw [length_append, length_singleton, bigEndian_succ_eq_snoc, hsnoc, hhigh, hlow, ih]

/-! ## Little-endian integers -/

/-- A number in bytes, lowest first. -/
def littleEndian (w n : Nat) : Bytes := (bigEndian w n).reverse

/-- The number that bytes stand for. -/
def ofLittleEndian (bytes : Bytes) : Nat := ofBigEndian bytes.reverse

@[simp] theorem littleEndian_length (w n : Nat) : (littleEndian w n).length = w := by
  rw [littleEndian, length_reverse, bigEndian_length]

theorem ofLittleEndian_littleEndian {w n : Nat} (h : n < 256 ^ w) :
    ofLittleEndian (littleEndian w n) = n := by
  rw [ofLittleEndian, littleEndian, reverse_reverse, ofBigEndian_bigEndian h]

theorem littleEndian_ofLittleEndian (bytes : Bytes) :
    littleEndian bytes.length (ofLittleEndian bytes) = bytes := by
  rw [littleEndian, ofLittleEndian, ← length_reverse, bigEndian_ofBigEndian,
    reverse_reverse]

/-! ## Ranges -/

/-- `bytes[start..stop]`. -/
def slice (bytes : Bytes) (start stop : Nat) : Bytes := (bytes.take stop).drop start

variable {start stop : Nat}

theorem slice_of_eq {bytes a b c : Bytes} (h : bytes = a ++ b ++ c)
    (hstart : start = a.length) (hstop : stop = a.length + b.length) :
    slice bytes start stop = b := by
  rw [slice, h, hstart, hstop, ← length_append, take_left, drop_left]

theorem length_slice {bytes : Bytes} (h : stop ≤ bytes.length) :
    (slice bytes start stop).length = stop - start := by
  rw [slice, length_drop, length_take, Nat.min_eq_left h]

/-- A range ends what comes before its end. -/
theorem take_append_slice {bytes : Bytes} (h : start ≤ stop) :
    bytes.take start ++ slice bytes start stop = bytes.take stop := by
  have htake : (bytes.take stop).take start = bytes.take start := by
    rw [take_take, Nat.min_eq_left h]
  rw [slice, ← htake, take_append_drop]

/-! ## Writing in place -/

/-- The bytes from `pos` on, overwritten. -/
def overwrite (out : Bytes) (pos : Nat) (bytes : Bytes) : Bytes :=
  out.take pos ++ bytes ++ out.drop (pos + bytes.length)

theorem overwrite_append (a old b new : Bytes) (h : old.length = new.length) :
    overwrite (a ++ old ++ b) a.length new = a ++ new ++ b := by
  unfold overwrite
  congr 1
  · rw [append_assoc, take_left]
  · rw [← h, ← length_append, drop_left]

end PrefixFreeCode
