import Mathlib.Data.Nat.Bitwise

namespace LoraRan.Library.LittleEndian

abbrev Bytes := List UInt8

-- A read past the end yields zero: the reader of a fixed layout checks the length once and never again.
def u8At (bytes : Bytes) (offset : Nat) : UInt8 := bytes.getD offset 0

def u16Of (low high : UInt8) : UInt16 := low.toUInt16 ||| (high.toUInt16 <<< 8)

def u32Of (first second third fourth : UInt8) : UInt32 :=
  first.toUInt32 ||| (second.toUInt32 <<< 8) ||| (third.toUInt32 <<< 16) ||| (fourth.toUInt32 <<< 24)

def u16At (bytes : Bytes) (offset : Nat) : UInt16 := u16Of (u8At bytes offset) (u8At bytes (offset+1))

def u32At (bytes : Bytes) (offset : Nat) : UInt32 :=
  u32Of (u8At bytes offset) (u8At bytes (offset+1)) (u8At bytes (offset+2)) (u8At bytes (offset+3))

def u16Bytes (value : UInt16) : Bytes := [value.toUInt8,(value >>> 8).toUInt8]

def u32Bytes (value : UInt32) : Bytes :=
  [value.toUInt8,(value >>> 8).toUInt8,(value >>> 16).toUInt8,(value >>> 24).toUInt8]

@[simp] theorem u8At_cons_zero (head : UInt8) (tail : Bytes) : u8At (head :: tail) 0 = head := rfl

@[simp] theorem u8At_cons_succ (head : UInt8) (tail : Bytes) (offset : Nat) :
    u8At (head :: tail) (offset+1) = u8At tail offset := rfl

theorem u8At_append_left (front rest : Bytes) (offset : Nat) (inside : offset < front.length) :
    u8At (front ++ rest) offset = u8At front offset := by
  simp only [u8At,List.getD_eq_getElem?_getD,List.getElem?_append_left inside]

theorem u8At_append_right (front rest : Bytes) (offset : Nat) (outside : front.length ≤ offset) :
    u8At (front ++ rest) offset = u8At rest (offset-front.length) := by
  simp only [u8At,List.getD_eq_getElem?_getD,List.getElem?_append_right outside]

@[simp] theorem u16Bytes_length (value : UInt16) : (u16Bytes value).length = 2 := rfl

@[simp] theorem u32Bytes_length (value : UInt32) : (u32Bytes value).length = 4 := rfl

-- Disjoint bit fields add: the only fact about `|||` the word readers need.
theorem or_shift_toNat (low high shift : Nat) (fits : low < 2 ^ shift) :
    low ||| (high <<< shift) = low + high * 2 ^ shift := by
  rw [Nat.or_comm,← Nat.shiftLeft_add_eq_or_of_lt fits,Nat.shiftLeft_eq,Nat.add_comm]

theorem u16Of_toNat (low high : UInt8) : (u16Of low high).toNat = low.toNat + high.toNat * 256 := by
  have lowBound := low.toNat_lt
  have highBound := high.toNat_lt
  have shifted : (high.toNat <<< 8) % 2 ^ 16 = high.toNat <<< 8 := by
    rw [Nat.shiftLeft_eq]; exact Nat.mod_eq_of_lt (by omega)
  simp only [u16Of,UInt16.toNat_or,UInt16.toNat_shiftLeft,UInt8.toNat_toUInt16]
  change low.toNat ||| (high.toNat <<< 8) % 2 ^ 16 = _
  rw [shifted,or_shift_toNat _ _ 8 (by omega)]
  omega

theorem u32Of_toNat (first second third fourth : UInt8) :
    (u32Of first second third fourth).toNat =
      first.toNat + second.toNat * 256 + third.toNat * 65536 + fourth.toNat * 16777216 := by
  have firstBound := first.toNat_lt
  have secondBound := second.toNat_lt
  have thirdBound := third.toNat_lt
  have fourthBound := fourth.toNat_lt
  have shifted (value shift : Nat) (fits : value * 2 ^ shift < 2 ^ 32) :
      (value <<< shift) % 2 ^ 32 = value <<< shift := by
    rw [Nat.shiftLeft_eq]; exact Nat.mod_eq_of_lt fits
  simp only [u32Of,UInt32.toNat_or,UInt32.toNat_shiftLeft,UInt8.toNat_toUInt32]
  change first.toNat ||| (second.toNat <<< 8) % 2 ^ 32 ||| (third.toNat <<< 16) % 2 ^ 32 |||
    (fourth.toNat <<< 24) % 2 ^ 32 = _
  rw [shifted _ 8 (by omega),shifted _ 16 (by omega),shifted _ 24 (by omega)]
  rw [or_shift_toNat _ _ 8 (by omega),or_shift_toNat _ _ 16 (by omega),or_shift_toNat _ _ 24 (by omega)]
  omega

theorem u16Of_bytes (value : UInt16) : u16Of value.toUInt8 (value >>> 8).toUInt8 = value := by
  apply UInt16.toNat_inj.mp
  have bound := value.toNat_lt
  rw [u16Of_toNat]
  simp only [UInt16.toNat_toUInt8,UInt16.toNat_shiftRight]
  change value.toNat % 256 + (value.toNat >>> 8) % 256 * 256 = value.toNat
  rw [Nat.shiftRight_eq_div_pow]
  omega

theorem u32Of_bytes (value : UInt32) :
    u32Of value.toUInt8 (value >>> 8).toUInt8 (value >>> 16).toUInt8 (value >>> 24).toUInt8 = value := by
  apply UInt32.toNat_inj.mp
  have bound := value.toNat_lt
  rw [u32Of_toNat]
  simp only [UInt32.toNat_toUInt8,UInt32.toNat_shiftRight]
  change value.toNat % 256 + (value.toNat >>> 8) % 256 * 256 + (value.toNat >>> 16) % 256 * 65536 +
    (value.toNat >>> 24) % 256 * 16777216 = value.toNat
  simp only [Nat.shiftRight_eq_div_pow]
  omega

theorem u16Bytes_of (low high : UInt8) : u16Bytes (u16Of low high) = [low,high] := by
  have lowBound := low.toNat_lt
  have highBound := high.toNat_lt
  have firstEqual : (u16Of low high).toUInt8 = low := by
    apply UInt8.toNat_inj.mp
    rw [UInt16.toNat_toUInt8,u16Of_toNat]
    omega
  have secondEqual : ((u16Of low high) >>> 8).toUInt8 = high := by
    apply UInt8.toNat_inj.mp
    rw [UInt16.toNat_toUInt8,UInt16.toNat_shiftRight,u16Of_toNat]
    change ((low.toNat + high.toNat * 256) >>> 8) % 256 = high.toNat
    rw [Nat.shiftRight_eq_div_pow]
    omega
  simp only [u16Bytes,firstEqual,secondEqual]

theorem u32Bytes_of (first second third fourth : UInt8) :
    u32Bytes (u32Of first second third fourth) = [first,second,third,fourth] := by
  have firstBound := first.toNat_lt
  have secondBound := second.toNat_lt
  have thirdBound := third.toNat_lt
  have fourthBound := fourth.toNat_lt
  have byteEqual (shift : UInt32) (amount : Nat) (byte : UInt8) (small : shift.toNat % 32 = amount)
      (equal : (first.toNat + second.toNat * 256 + third.toNat * 65536 + fourth.toNat * 16777216) /
        2 ^ amount % 256 = byte.toNat) :
      ((u32Of first second third fourth) >>> shift).toUInt8 = byte := by
    apply UInt8.toNat_inj.mp
    rw [UInt32.toNat_toUInt8,UInt32.toNat_shiftRight,u32Of_toNat,small,Nat.shiftRight_eq_div_pow]
    exact equal
  have lowEqual : (u32Of first second third fourth).toUInt8 = first := by
    apply UInt8.toNat_inj.mp
    rw [UInt32.toNat_toUInt8,u32Of_toNat]
    omega
  simp only [u32Bytes,lowEqual]
  rw [byteEqual 8 8 second rfl (by omega),byteEqual 16 16 third rfl (by omega),byteEqual 24 24 fourth rfl (by omega)]

end LoraRan.Library.LittleEndian
