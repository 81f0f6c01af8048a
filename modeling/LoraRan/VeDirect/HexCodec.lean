import LoraRan.VeDirect.Hex

namespace LoraRan.VeDirect
open Protocol
open Library.LittleEndian (u8At u16Of u32Of u16Of_bytes u32Of_bytes)

def kDigits : Bytes := [0x30,0x31,0x32,0x33,0x34,0x35,0x36,0x37,0x38,0x39,0x41,0x42,0x43,0x44,0x45,0x46]

def digitOf (n : UInt8) : UInt8 := kDigits.getD n.toNat 0

def digitPair (b : UInt8) : Bytes := [digitOf (b >>> 4),digitOf (b &&& 0xF)]

-- The byte that makes the command and the data sum to 0x55.
def checkByte (cmd : UInt8) (data : Bytes) : UInt8 := 0x55 - data.foldl (· + ·) cmd

def encode (cmd : UInt8) (data : Bytes) (cap : Nat) : Option Bytes :=
  if 0xF < cmd ∨ maxData < data.length then none
  else if cap < 2 + 2 * data.length + 2 then none
  else some (colon :: digitOf cmd :: data.flatMap digitPair ++ digitPair (checkByte cmd data))

def encodeGet (reg : UInt16) (cap : Nat) : Option Bytes := encode cmdGet [reg.toUInt8,(reg >>> 8).toUInt8,0] cap

-- The value's lowest bytes, the first one first.
def valueBytes (value : UInt32) (width : Nat) : Bytes := (List.range width).map fun i => (value >>> UInt32.ofNat (8 * i)).toUInt8

def encodeSet (reg : UInt16) (value : UInt32) (width : UInt8) (cap : Nat) : Option Bytes :=
  if width ≠ 1 ∧ width ≠ 2 ∧ width ≠ 4 then none
  else encode cmdSet ([reg.toUInt8,(reg >>> 8).toUInt8,0] ++ valueBytes value width.toNat) cap

structure RegReply where
  cmd : UInt8
  reg : UInt16
  flags : UInt8
  value : UInt32
  width : UInt8
  deriving DecidableEq

-- Bytes put back at their places, the first one lowest.
def valueOf : Bytes → Nat → UInt32
  | [], _ => 0
  | b :: rest, i => (b.toUInt32 <<< UInt32.ofNat (8 * i)) ||| valueOf rest (i + 1)

def regReply (f : HexFrame) : Option RegReply :=
  if f.cmd ≠ cmdGet ∧ f.cmd ≠ cmdSet then none
  else if f.data.length < 3 ∨ 3 + 4 < f.data.length then none
  else some {
    cmd := f.cmd
    reg := u16Of (u8At f.data 0) (u8At f.data 1)
    flags := u8At f.data 2
    value := valueOf (f.data.drop 3) 0
    width := UInt8.ofNat (f.data.length - 3)}

-- A digit and its value.

theorem digitOf_reads (n : UInt8) (nibble : n ≤ 0xF) : digitValue (digitOf n) = some n := by
  have all : ∀ k : Fin 16, digitValue (digitOf (UInt8.ofNat k.val)) = some (UInt8.ofNat k.val) := by decide
  have here := all ⟨n.toNat,Nat.lt_succ_of_le (UInt8.le_iff_toNat_le.mp nibble)⟩
  rwa [UInt8.ofNat_toNat] at here

theorem digitValue_is (c n : UInt8) (reads : digitValue c = some n) : n ≤ 0xF ∧ digitOf n = c := by
  have all : ∀ k : Fin 256, (digitValue (UInt8.ofNat k.val)).all (fun v => v ≤ 0xF && digitOf v == UInt8.ofNat k.val) = true := by decide +kernel
  have here := all ⟨c.toNat,c.toNat_lt⟩
  rw [UInt8.ofNat_toNat,reads,Option.all_some,Bool.and_eq_true,decide_eq_true_eq,beq_iff_eq] at here
  exact here

theorem pair_digits (b : UInt8) : b >>> 4 ≤ 0xF ∧ b &&& 0xF ≤ 0xF ∧ ((b >>> 4) <<< 4) ||| (b &&& 0xF) = b := by
  have all : ∀ k : Fin 256, let b := UInt8.ofNat k.val; b >>> 4 ≤ 0xF ∧ b &&& 0xF ≤ 0xF ∧ ((b >>> 4) <<< 4) ||| (b &&& 0xF) = b := by decide +kernel
  have here := all ⟨b.toNat,b.toNat_lt⟩
  dsimp only at here
  rwa [UInt8.ofNat_toNat] at here

theorem nibbles_pair (high low : UInt8) (highNibble : high ≤ 0xF) (lowNibble : low ≤ 0xF) :
    ((high <<< 4) ||| low) >>> 4 = high ∧ ((high <<< 4) ||| low) &&& 0xF = low := by
  have all : ∀ h l : Fin 16, let high := UInt8.ofNat h.val; let low := UInt8.ofNat l.val
      ((high <<< 4) ||| low) >>> 4 = high ∧ ((high <<< 4) ||| low) &&& 0xF = low := by decide +kernel
  have here := all ⟨high.toNat,Nat.lt_succ_of_le (UInt8.le_iff_toNat_le.mp highNibble)⟩ ⟨low.toNat,Nat.lt_succ_of_le (UInt8.le_iff_toNat_le.mp lowNibble)⟩
  dsimp only at here
  rwa [UInt8.ofNat_toNat,UInt8.ofNat_toNat] at here

theorem digitOr_digitOf (n : UInt8) (nibble : n ≤ 0xF) : digitOr (digitOf n) = n := by
  unfold digitOr
  rw [digitOf_reads n nibble]
  rfl

-- Bytes and their pairs of digits.

theorem hexBytes_pairs (bytes : Bytes) : hexBytes (bytes.flatMap digitPair) = bytes := by
  induction bytes with
  | nil => rfl
  | cons b rest ih =>
      obtain ⟨high,low,whole⟩ := pair_digits b
      rw [List.flatMap_cons]
      change ((digitOr (digitOf (b >>> 4)) <<< 4) ||| digitOr (digitOf (b &&& 0xF))) :: hexBytes (rest.flatMap digitPair) = b :: rest
      rw [digitOr_digitOf _ high,digitOr_digitOf _ low,whole,ih]

theorem pairs_hexBytes (s : Bytes) (digits : ∀ c ∈ s, (digitValue c).isSome = true) (even : s.length % 2 = 0) :
    (hexBytes s).flatMap digitPair = s := by
  match s with
  | [] => rfl
  | [_] => cases even
  | high :: low :: rest =>
      obtain ⟨h,highReads⟩ := Option.isSome_iff_exists.mp (digits high (by simp))
      obtain ⟨l,lowReads⟩ := Option.isSome_iff_exists.mp (digits low (by simp))
      obtain ⟨highNibble,highIs⟩ := digitValue_is high h highReads
      obtain ⟨lowNibble,lowIs⟩ := digitValue_is low l lowReads
      obtain ⟨upper,lower⟩ := nibbles_pair h l highNibble lowNibble
      have later := pairs_hexBytes rest (fun c inside => digits c (by simp [inside])) (by simp only [List.length_cons] at even; omega)
      rw [hexBytes,List.flatMap_cons,later]
      unfold digitPair digitOr
      rw [highReads,lowReads,Option.getD_some,Option.getD_some,upper,lower,highIs,lowIs]
      rfl

theorem pairs_length (bytes : Bytes) : (bytes.flatMap digitPair).length = 2 * bytes.length := by
  induction bytes with
  | nil => rfl
  | cons b rest ih =>
      rw [List.flatMap_cons,List.length_append,ih,List.length_cons]
      change 2 + _ = _
      omega

theorem pairs_digits (bytes : Bytes) : (bytes.flatMap digitPair).all (fun c => (digitValue c).isSome) = true := by
  rw [List.all_eq_true]
  intro c inside
  obtain ⟨b,_,here⟩ := List.mem_flatMap.mp inside
  obtain ⟨high,low,_⟩ := pair_digits b
  rcases List.mem_cons.mp here with rfl | here
  · rw [digitOf_reads _ high]
    rfl
  · rw [List.mem_singleton.mp here,digitOf_reads _ low]
    rfl

-- A frame's text: a colon, one digit and whole bytes that with it sum to 0x55.
def frameText (cmd : UInt8) (bytes : Bytes) : Bytes := colon :: digitOf cmd :: bytes.flatMap digitPair

structure GoodFrame (cmd : UInt8) (bytes : Bytes) : Prop where
  nibble : cmd ≤ 0xF
  some : bytes ≠ []
  short : bytes.length ≤ maxData + 1
  sum : bytes.foldl (· + ·) cmd = 0x55

theorem decode_frameText {cmd : UInt8} {bytes : Bytes} (good : GoodFrame cmd bytes) : decode (frameText cmd bytes) = .ok ⟨cmd,bytes.dropLast⟩ := by
  have pos := List.length_pos_iff.mpr good.some
  have short := good.short
  have long := pairs_length bytes
  have digits : (digitOf cmd :: bytes.flatMap digitPair).all (fun c => (digitValue c).isSome) = true := by
    rw [List.all_cons,digitOf_reads cmd good.nibble,pairs_digits]
    rfl
  unfold decode frameText
  dsimp only
  rw [if_neg (by simp),if_neg (by simp only [List.length_cons]; omega),if_neg (by rw [digits]; decide),
    if_neg (by simp only [List.length_cons]; omega),if_neg (by simp only [List.length_cons]; omega),List.headD_cons,List.tail_cons,hexBytes_pairs,
    digitOr_digitOf cmd good.nibble,if_pos good.sum]

theorem decode_is {s : Bytes} {f : HexFrame} (accepted : decode s = .ok f) : ∃ bytes, GoodFrame f.cmd bytes ∧ s = frameText f.cmd bytes ∧ f.data = bytes.dropLast := by
  unfold decode at accepted
  split at accepted
  · cases accepted
  · rename_i first rest
    split at accepted; · cases accepted
    rename_i isColon
    split at accepted; · cases accepted
    rename_i long
    split at accepted; · cases accepted
    rename_i digits
    split at accepted; · cases accepted
    rename_i even
    split at accepted; · cases accepted
    rename_i short
    dsimp only at accepted
    split at accepted
    · rename_i sum
      cases accepted
      have colonFirst : first = colon := by simpa using isColon
      cases rest with
      | nil => simp at long
      | cons digit rest =>
          simp only [Bool.not_eq_true,Bool.not_eq_false',List.all_cons,Bool.and_eq_true,List.all_eq_true] at digits
          obtain ⟨cmd,known⟩ := Option.isSome_iff_exists.mp digits.1
          obtain ⟨nibble,is⟩ := digitValue_is digit cmd known
          simp only [List.length_cons] at long short even
          have back := pairs_hexBytes rest digits.2 (by omega)
          have count := pairs_length (hexBytes rest)
          rw [back] at count
          have value : digitOr digit = cmd := by rw [← is,digitOr_digitOf cmd nibble]
          rw [List.headD_cons,List.tail_cons,value] at sum
          refine ⟨hexBytes rest,⟨by rw [List.headD_cons,value]; exact nibble,fun none => ?_,by omega,?_⟩,?_,rfl⟩
          · rw [none] at count
            simp only [List.length_nil] at count
            omega
          · rw [List.headD_cons,value]
            exact sum
          · unfold frameText
            rw [List.headD_cons,value,is,back,colonFirst]
    · cases accepted

theorem encode_frameText {cmd : UInt8} {data : Bytes} {cap : Nat} (nibble : cmd ≤ 0xF) (short : data.length ≤ maxData)
    (room : 2 + 2 * data.length + 2 ≤ cap) : encode cmd data cap = some (frameText cmd (data ++ [checkByte cmd data])) := by
  have low : ¬ (0xF < cmd ∨ maxData < data.length) := by
    rw [UInt8.lt_iff_toNat_lt]
    rw [UInt8.le_iff_toNat_le] at nibble
    omega
  unfold encode frameText
  rw [if_neg low,if_neg (by omega),List.flatMap_append,List.flatMap_cons,List.flatMap_nil,List.append_nil]
  rfl

theorem checked_frame {cmd : UInt8} {data : Bytes} (nibble : cmd ≤ 0xF) (short : data.length ≤ maxData) :
    GoodFrame cmd (data ++ [checkByte cmd data]) where
  nibble := nibble
  some := by simp
  short := by
    rw [List.length_append,List.length_singleton]
    omega
  sum := by
    rw [List.foldl_append]
    change data.foldl (· + ·) cmd + (0x55 - data.foldl (· + ·) cmd) = 0x55
    rw [UInt8.add_comm,UInt8.sub_add_cancel]

-- What is written reads back.
theorem frame_written {cmd : UInt8} {data : Bytes} {cap : Nat} (nibble : cmd ≤ 0xF) (short : data.length ≤ maxData) (room : 2 + 2 * data.length + 2 ≤ cap) :
    ∃ s, encode cmd data cap = some s ∧ decode s = .ok ⟨cmd,data⟩ := by
  refine ⟨_,encode_frameText nibble short room,?_⟩
  rw [decode_frameText (checked_frame nibble short),List.dropLast_concat]

-- What reads is what would be written.
theorem frame_read {s : Bytes} {f : HexFrame} (accepted : decode s = .ok f) : encode f.cmd f.data maxChars = some s := by
  obtain ⟨bytes,good,text,data⟩ := decode_is accepted
  have pos := List.length_pos_iff.mpr good.some
  have short := good.short
  have whole := List.dropLast_append_getLast good.some
  have count : f.data.length + 1 = bytes.length := by
    rw [data,List.length_dropLast]
    omega
  have last : bytes.getLast good.some = checkByte f.cmd f.data := by
    have sum := good.sum
    rw [← whole,List.foldl_append,← data] at sum
    change f.data.foldl (· + ·) f.cmd + bytes.getLast good.some = 0x55 at sum
    unfold checkByte
    rw [← sum,UInt8.add_comm,UInt8.add_sub_cancel]
  rw [encode_frameText good.nibble (by omega) (by simp only [maxChars]; omega),← last,data,whole,text]

-- A register's value, there and back.

theorem valueBytes_length (value : UInt32) (width : Nat) : (valueBytes value width).length = width := by
  unfold valueBytes
  rw [List.length_map,List.length_range]

theorem byte_zero (value : UInt32) (shift : UInt32) (small : value.toNat < 2 ^ (shift.toNat % 32)) : (value >>> shift).toUInt8 = 0 := by
  apply UInt8.toNat_inj.mp
  rw [UInt32.toNat_toUInt8,UInt32.toNat_shiftRight,Nat.shiftRight_eq_div_pow,Nat.div_eq_of_lt small]
  rfl

theorem valueOf_bytes (value : UInt32) (width : UInt8) (known : width = 1 ∨ width = 2 ∨ width = 4) (fits : value.toNat < 2 ^ (8 * width.toNat)) :
    valueOf (valueBytes value width.toNat) 0 = value := by
  have whole := u32Of_bytes value
  rcases known with rfl | rfl | rfl
  · change value.toNat < 2 ^ 8 at fits
    rw [byte_zero value 8 fits,byte_zero value 16 (Nat.lt_trans fits (by decide)),byte_zero value 24 (Nat.lt_trans fits (by decide))] at whole
    refine Eq.trans ?_ whole
    change (value >>> 0).toUInt8.toUInt32 <<< 0 ||| 0 = _
    simp [u32Of]
  · change value.toNat < 2 ^ 16 at fits
    rw [byte_zero value 16 fits,byte_zero value 24 (Nat.lt_trans fits (by decide))] at whole
    refine Eq.trans ?_ whole
    change (value >>> 0).toUInt8.toUInt32 <<< 0 ||| ((value >>> 8).toUInt8.toUInt32 <<< 8 ||| 0) = _
    simp [u32Of]
  · refine Eq.trans ?_ whole
    change (value >>> 0).toUInt8.toUInt32 <<< 0 ||| ((value >>> 8).toUInt8.toUInt32 <<< 8 |||
      ((value >>> 16).toUInt8.toUInt32 <<< 16 ||| ((value >>> 24).toUInt8.toUInt32 <<< 24 ||| 0))) = _
    simp [u32Of,UInt32.or_assoc]

theorem regReply_encodeSet (reg : UInt16) (value : UInt32) (width : UInt8) (cap : Nat) (known : width = 1 ∨ width = 2 ∨ width = 4)
    (fits : value.toNat < 2 ^ (8 * width.toNat)) (room : 2 + 2 * (3 + width.toNat) + 2 ≤ cap) :
    ∃ s f, encodeSet reg value width cap = some s ∧ decode s = .ok f ∧ regReply f = some ⟨cmdSet,reg,0,value,width⟩ := by
  have count := valueBytes_length value width.toNat
  have small : width.toNat ≤ 4 := by rcases known with rfl | rfl | rfl <;> decide
  have data : ([reg.toUInt8,(reg >>> 8).toUInt8,0] ++ valueBytes value width.toNat).length = 3 + width.toNat := by
    rw [List.length_append,count]
    rfl
  have fit : 2 + 2 * ([reg.toUInt8,(reg >>> 8).toUInt8,0] ++ valueBytes value width.toNat).length + 2 ≤ cap := by
    rw [data]
    exact room
  obtain ⟨s,written,read⟩ := frame_written (by decide : cmdSet ≤ 0xF) (by rw [data]; simp only [maxData]; omega) fit
  refine ⟨s,_,?_,read,?_⟩
  · unfold encodeSet
    rw [if_neg (by rcases known with rfl | rfl | rfl <;> decide)]
    exact written
  · have back := valueOf_bytes value width known fits
    unfold regReply
    dsimp only
    rw [if_neg (by decide),if_neg (by rw [data]; omega),data,Nat.add_sub_cancel_left,UInt8.ofNat_toNat]
    change some (RegReply.mk cmdSet (u16Of reg.toUInt8 (reg >>> 8).toUInt8) 0 (valueOf (valueBytes value width.toNat) 0) width) = _
    rw [u16Of_bytes,back]

end LoraRan.VeDirect
