import LoraRan.Library.Crc
import LoraRan.Protocol.Codec

namespace LoraRan.Protocol
open Library.LittleEndian
open Library.Crc

-- x^16 + x^12 + x^5 + 1, its leading term left out.
def generator : BitVec 16 := 0x1021#16

def byteBits (byte : UInt8) : List Bool := (List.range 8).map byte.toBitVec.getMsbD

-- The order in which the generator meets the bits: the stored pair turned back to big-endian.
def frameBits (buf : Bytes) : List Bool :=
  (buf.take (buf.length - crcLen) ++ [u8At buf (buf.length - 1),u8At buf (buf.length - 2)]).flatMap byteBits

@[simp] theorem byteBits_length (byte : UInt8) : (byteBits byte).length = 8 := by
  simp [byteBits]

theorem byteBits_get (byte : UInt8) (i : Nat) : (byteBits byte)[i]?.getD false = byte.toBitVec.getMsbD i := by
  unfold byteBits
  rw [List.getElem?_map]
  by_cases inside : i < 8
  · rw [List.getElem?_range inside]
    rfl
  · rw [List.getElem?_eq_none (by simp; omega),BitVec.getMsbD_of_ge _ _ (by omega)]
    rfl

theorem bits_length (bytes : Bytes) : (bytes.flatMap byteBits).length = 8 * bytes.length := by
  induction bytes with
  | nil => rfl
  | cons byte bytes ih =>
    rw [List.flatMap_cons,List.length_append,byteBits_length,ih,List.length_cons]
    omega

theorem frameBits_length (buf : Bytes) (long : crcLen ≤ buf.length) : (frameBits buf).length = 8 * buf.length := by
  unfold frameBits
  rw [bits_length,List.length_append,List.length_take]
  simp only [crcLen,List.length_cons,List.length_nil] at *
  omega

theorem generator_odd : generator.getLsbD 0 = true := rfl

theorem top_iff (crc : UInt16) : crc &&& 0x8000 ≠ 0 ↔ crc.toBitVec.msb = true := by
  have masked : (crc &&& 0x8000).toBitVec = if crc.toBitVec.getLsbD 15 then BitVec.twoPow 16 15 else 0#16 :=
    BitVec.and_twoPow crc.toBitVec 15
  rw [BitVec.msb_eq_getLsbD_last]
  constructor
  · intro some
    by_contra clear
    rw [if_neg clear] at masked
    exact some (UInt16.toBitVec_inj.mp masked)
  · intro set_ none
    rw [if_pos set_,none] at masked
    exact absurd masked (by decide)

theorem crcShift_feed (crc : UInt16) : (crcShift crc).toBitVec = feed generator crc.toBitVec false := by
  have top := top_iff crc
  unfold crcShift feed
  split
  · rename_i set_
    rw [top.mp set_]
    rfl
  · rename_i clear
    rw [Bool.eq_false_iff.mpr (fun set_ => clear (top.mpr set_))]
    simp

theorem repeat_run (n : Nat) (crc : UInt16) : (Nat.repeat crcShift n crc).toBitVec = run generator crc.toBitVec (List.replicate n false) := by
  induction n with
  | zero => rfl
  | succ n ih =>
    rw [Nat.repeat,crcShift_feed,ih,List.replicate_succ',run_append]
    rfl

theorem high_bits (byte : UInt8) (i : Nat) : (byte.toUInt16 <<< 8).toBitVec.getMsbD i = byte.toBitVec.getMsbD i := by
  have widened : (byte.toUInt16 <<< 8).toBitVec = byte.toBitVec.setWidth 16 <<< 8 := rfl
  rw [widened,BitVec.getMsbD_shiftLeft]
  by_cases inside : i < 8
  · have place : 15 - (i + 8) = 7 - i := by omega
    have room : i + 8 < 16 := by omega
    have low : 7 - i < 16 := by omega
    simp [BitVec.getMsbD,inside,place,room,low]
  · rw [BitVec.getMsbD_of_ge _ _ (by omega),BitVec.getMsbD_of_ge _ _ (by omega)]

theorem crcByte_run (crc : UInt16) (byte : UInt8) : (crcByte crc byte).toBitVec = run generator crc.toBitVec (byteBits byte) := by
  unfold crcByte
  rw [repeat_run,UInt16.toBitVec_xor]
  have laid := run_held generator_odd (byteBits byte) (by simp) (byte.toUInt16 <<< 8).toBitVec crc.toBitVec ?_
  · rw [byteBits_length] at laid
    exact laid
  · intro i inside
    rw [byteBits_get]
    exact high_bits byte i

theorem crc16_run (data : Bytes) : (crc16CcittFalse data).toBitVec = run generator 0xFFFF#16 (data.flatMap byteBits) := by
  have from_ : ∀ crc : UInt16, (data.foldl crcByte crc).toBitVec = run generator crc.toBitVec (data.flatMap byteBits) := by
    induction data with
    | nil => intro crc; rfl
    | cons byte data ih =>
      intro crc
      rw [List.foldl_cons,ih,crcByte_run,List.flatMap_cons,run_append]
  exact from_ 0xFFFF

theorem u16Of_bits (low high : UInt8) (i : Nat) (inside : i < 16) :
    (u16Of low high).toBitVec.getMsbD i = (byteBits high ++ byteBits low)[i]?.getD false := by
  have joined : (u16Of low high).toBitVec = low.toBitVec.setWidth 16 ||| (high.toUInt16 <<< 8).toBitVec := rfl
  rw [joined,BitVec.getMsbD_or,high_bits,List.getElem?_append,byteBits_length]
  by_cases upper : i < 8
  · have away : low.toBitVec.getLsbD (15 - i) = false := BitVec.getLsbD_of_ge _ _ (by omega)
    rw [if_pos upper,byteBits_get]
    simp [BitVec.getMsbD,away]
  · have place : 15 - i = 7 - (i - 8) := by omega
    rw [if_neg upper,byteBits_get,BitVec.getMsbD_of_ge high.toBitVec _ (by omega),Bool.or_false]
    have room : i - 8 < 8 := by omega
    have low_ : 7 - (i - 8) < 16 := by omega
    simp [BitVec.getMsbD,place,inside,room,low_]

-- The stored check agrees exactly when the whole frame, the check as its last bits, leaves nothing.
theorem crc_agrees_iff (buf : Bytes) (long : crcLen ≤ buf.length) :
    crc16CcittFalse (buf.take (buf.length - crcLen)) = u16At buf (buf.length - 2) ↔ run generator 0xFFFF#16 (frameBits buf) = 0#16 := by
  unfold frameBits
  rw [List.flatMap_append,run_append,← crc16_run]
  have pair : [u8At buf (buf.length - 1),u8At buf (buf.length - 2)].flatMap byteBits =
      byteBits (u8At buf (buf.length - 1)) ++ byteBits (u8At buf (buf.length - 2)) := by
    simp
  rw [pair,run_eq_zero_iff generator_odd _ (by simp)]
  have next : buf.length - 2 + 1 = buf.length - 1 := by
    simp only [crcLen] at long
    omega
  have stored := u16Of_bits (u8At buf (buf.length - 2)) (u8At buf (buf.length - 1))
  unfold u16At
  rw [next]
  constructor
  · intro agree i inside
    rw [agree]
    exact stored i inside
  · intro held
    refine UInt16.toBitVec_inj.mp (BitVec.eq_of_getMsbD_eq ?_)
    intro i inside
    rw [held i inside,stored i inside]

-- The register comes back to the generator after no fewer steps than the longest frame has bits.
def apart : Nat → BitVec 16 → Bool
  | 0,_ => true
  | n + 1,c => feed generator c false != generator && apart n (feed generator c false)

theorem apart_steps (n : Nat) (c : BitVec 16) (checked : apart n c = true) (k : Nat) (within : k < n) :
    run generator c (List.replicate (k + 1) false) ≠ generator := by
  induction n generalizing c k with
  | zero => omega
  | succ n ih =>
    rw [apart,Bool.and_eq_true] at checked
    rw [List.replicate_succ,run_cons]
    cases k with
    | zero => exact bne_iff_ne.mp checked.1
    | succ k => exact ih _ checked.2 k (by omega)

theorem no_short_period (k : Nat) (positive : 0 < k) (within : k < 8 * maxFrame) :
    run generator generator (List.replicate k false) ≠ generator := by
  have checked : apart (8 * maxFrame) generator = true := by decide +kernel
  have stepped := apart_steps _ generator checked (k - 1) (by omega)
  rw [Nat.sub_add_cancel positive] at stepped
  exact stepped

-- One bit, two bits, or any change inside a window.
def FlipsPair (xs ys : List Bool) : Prop := ∃ i j, ∀ k : Nat, xs[k]? ≠ ys[k]? ↔ k = i ∨ k = j

def FlipsWithin (count : Nat) (xs ys : List Bool) : Prop :=
  xs ≠ ys ∧ ∃ first, ∀ k : Nat, xs[k]? ≠ ys[k]? → first ≤ k ∧ k < first + count

theorem difference_empty (xs ys : List Bool) (same : xs.length = ys.length)
    (equal : run generator 0xFFFF#16 xs = run generator 0xFFFF#16 ys) :
    run generator 0#16 (List.zipWith (· ^^ ·) xs ys) = 0#16 := by
  have parted := run_xor generator 0xFFFF#16 0xFFFF#16 xs ys same
  rw [BitVec.xor_self] at parted
  rw [parted,equal,BitVec.xor_self]

theorem window_detected (xs ys : List Bool) (same : xs.length = ys.length) (flips : FlipsWithin 16 xs ys) :
    run generator 0xFFFF#16 xs ≠ run generator 0xFFFF#16 ys := by
  intro equal
  obtain ⟨apart,first,within⟩ := flips
  refine burst_left generator_odd (List.zipWith (· ^^ ·) xs ys) first 16 (Nat.le_refl _) ?_ ?_ ?_
  · intro k set_
    exact within k ((differ_at xs ys same k).mpr set_)
  · by_contra none
    refine apart (List.ext_getElem? ?_)
    intro k
    by_contra differ
    exact none ⟨k,(differ_at xs ys same k).mp differ⟩
  · exact difference_empty xs ys same equal

theorem pair_detected (xs ys : List Bool) (same : xs.length = ys.length) (short : xs.length ≤ 8 * maxFrame) (flips : FlipsPair xs ys) :
    run generator 0xFFFF#16 xs ≠ run generator 0xFFFF#16 ys := by
  obtain ⟨i,j,differ⟩ := flips
  have ones : ∀ k : Nat, (List.zipWith (· ^^ ·) xs ys)[k]? = some true ↔ k = i ∨ k = j :=
    fun k => (differ_at xs ys same k).symm.trans (differ k)
  have inside : ∀ k : Nat, k = i ∨ k = j → k < 8 * maxFrame := by
    intro k one
    obtain ⟨long,_⟩ := List.getElem?_eq_some_iff.mp ((ones k).mpr one)
    rw [List.length_zipWith] at long
    omega
  rcases Nat.lt_trichotomy i j with before | alone | after
  · intro equal
    have period := pair_left generator_odd _ i j before ones (difference_empty xs ys same equal)
    exact no_short_period (j - i) (by omega) (by have := inside j (Or.inr rfl); omega) period
  · refine window_detected xs ys same ⟨?_,i,?_⟩
    · intro equal
      exact (differ i).mpr (Or.inl rfl) (by rw [equal])
    · intro k parted
      have := (differ k).mp parted
      omega
  · intro equal
    have swapped : ∀ k : Nat, (List.zipWith (· ^^ ·) xs ys)[k]? = some true ↔ k = j ∨ k = i := fun k => (ones k).trans Or.comm
    have period := pair_left generator_odd _ j i after swapped (difference_empty xs ys same equal)
    exact no_short_period (i - j) (by omega) (by have := inside i (Or.inl rfl); omega) period

theorem checks_crc (buf : Bytes) (ctx : DecodeCtx) (long : minFrame ≤ buf.length) (short : buf.length ≤ maxFrame) :
    (decodeHeader buf ctx).1 = .badCrc ↔ run generator 0xFFFF#16 (frameBits buf) ≠ 0#16 := by
  rw [Ne,← crc_agrees_iff buf (by simp only [crcLen,minFrame] at *; omega)]
  unfold decodeHeader
  rw [if_neg (by omega),if_neg (by omega)]
  split
  · rename_i apart
    exact ⟨fun _ => apart,fun _ => rfl⟩
  · rename_i agree
    refine ⟨fun refused => absurd refused ?_,fun apart => absurd apart agree⟩
    dsimp only
    repeat' split
    all_goals simp

-- A frame whose check held, and what the air made of it.
theorem flipped_frame_refused (buf other : Bytes) (ctx later : DecodeCtx) (long : minFrame ≤ buf.length) (short : buf.length ≤ maxFrame)
    (accepted : (decodeHeader buf ctx).1 ≠ .badCrc) (same : other.length = buf.length)
    (flips : FlipsPair (frameBits buf) (frameBits other) ∨ FlipsWithin 16 (frameBits buf) (frameBits other)) :
    (decodeHeader other later).1 = .badCrc := by
  have empty := not_not.mp (fun left => accepted ((checks_crc buf ctx long short).mpr left))
  have bits : ∀ b : Bytes, b.length = buf.length → (frameBits b).length = 8 * buf.length := by
    intro b equal
    rw [frameBits_length b (by simp only [crcLen,minFrame] at *; omega),equal]
  have aligned : (frameBits buf).length = (frameBits other).length := by
    rw [bits buf rfl,bits other same]
  rw [checks_crc other later (same ▸ long) (same ▸ short),← empty]
  rcases flips with pair | window
  · exact (pair_detected _ _ aligned (by rw [bits buf rfl]; omega) pair).symm
  · exact (window_detected _ _ aligned window).symm

-- A ping, and the same with the first bit of its source and the last bit of its payload turned over.

def pingFrame : Bytes := withCrc [1,7,0,2,0,0,0,0,0,0,1,0,0,0,0,0,7]

def hitFrame : Bytes := [1,7,0x80,2,0,0,0,0,0,0,1,0,0,0,0,0,6] ++ (withCrc [1,7,0,2,0,0,0,0,0,0,1,0,0,0,0,0,7]).drop 17

theorem flipped_frame_refused_ping : (decodeHeader hitFrame {self := 2}).1 = .badCrc := by
  refine flipped_frame_refused pingFrame hitFrame {self := 2} {self := 2} (by decide) (by decide) (by decide +kernel) (by decide)
    (Or.inl ⟨16,135,?_⟩)
  intro k
  by_cases inside : k < 152
  · revert k
    decide +kernel
  · rw [List.getElem?_eq_none (by rw [frameBits_length _ (by decide)]; change 8 * 19 ≤ k; omega),
      List.getElem?_eq_none (by rw [frameBits_length _ (by decide)]; change 8 * 19 ≤ k; omega)]
    refine ⟨fun apart => absurd rfl apart,?_⟩
    omega

end LoraRan.Protocol
