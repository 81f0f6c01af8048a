import LoraRan.Library.LittleEndian
import LoraRan.Library.Staging

namespace LoraRan.Library.CheckedReads
open LittleEndian Staging

-- A buffer as a program reads it, byte by byte. `none` is a read the buffer does not cover.
abbrev Memory := Nat → Option UInt8

def memoryOf (bytes : Bytes) : Memory := fun i => bytes[i]?

def readRange (mem : Memory) (off : Nat) : Nat → Option Bytes
  | 0 => some []
  | n+1 => do
      let byte ← mem off
      let rest ← readRange mem (off + 1) n
      return byte :: rest

def readU16 (mem : Memory) (off : Nat) : Option UInt16 := do
  let low ← mem off
  let high ← mem (off + 1)
  return u16Of low high

def readU32 (mem : Memory) (off : Nat) : Option UInt32 := do
  let first ← mem off
  let second ← mem (off + 1)
  let third ← mem (off + 2)
  let fourth ← mem (off + 3)
  return u32Of first second third fourth

variable (bytes : Bytes)

-- A read inside the buffer is the byte there.
theorem memoryOf_inside (i : Nat) (inside : i < bytes.length) : memoryOf bytes i = some (u8At bytes i) := by
  simp [memoryOf,u8At,inside]

theorem readU16_inside (off : Nat) (inside : off + 2 ≤ bytes.length) : readU16 (memoryOf bytes) off = some (u16At bytes off) := by
  rw [readU16,memoryOf_inside bytes off (by omega),memoryOf_inside bytes (off + 1) (by omega)]
  rfl

theorem readU32_inside (off : Nat) (inside : off + 4 ≤ bytes.length) : readU32 (memoryOf bytes) off = some (u32At bytes off) := by
  rw [readU32,memoryOf_inside bytes off (by omega),memoryOf_inside bytes (off + 1) (by omega),memoryOf_inside bytes (off + 2) (by omega),
    memoryOf_inside bytes (off + 3) (by omega)]
  rfl

theorem readRange_inside (off n : Nat) (inside : off + n ≤ bytes.length) :
    readRange (memoryOf bytes) off n = some (window bytes off n) := by
  induction n generalizing off with
  | zero => simp [readRange,window]
  | succ n ih =>
      rw [readRange,memoryOf_inside bytes off (by omega),ih (off + 1) (by omega)]
      have drop : bytes.drop off = u8At bytes off :: bytes.drop (off + 1) := by
        rw [List.drop_eq_getElem_cons (by omega)]
        simp [u8At,List.getD_eq_getElem?_getD,List.getElem?_eq_getElem (show off < bytes.length by omega)]
      simp [window,drop]

theorem u8At_window (off n i : Nat) (inside : i < n) : u8At (window bytes off n) i = u8At bytes (off + i) := by
  simp [u8At,window,List.getD_eq_getElem?_getD,List.getElem?_take_of_lt inside]

theorem window_length (off n : Nat) (inside : off + n ≤ bytes.length) : (window bytes off n).length = n := by
  simp only [window,List.length_take,List.length_drop]
  omega

end LoraRan.Library.CheckedReads
