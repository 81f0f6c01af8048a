import LoraRan.GateLink.Readings
import LoraRan.Library.DecimalText

namespace LoraRan.GateLink
open Protocol VeDirect
open Library.LittleEndian (or_shift_toNat)
open Library.DecimalText (isDigit digitsValue decimalValue signedValue digitsValue_grows isDigit_iff)

-- What a block says under a label, read off the text alone: the first value, where it is a numeral.

def naturalAt (block : List TextField) (label : Bytes) : Option Int := (findValue block label).bind fun v => (decimalValue v).map fun n : Nat => (n : Int)

def signedAt (block : List TextField) (label : Bytes) : Option Int := (findValue block label).bind signedValue

-- "0x" and one to four hex digits in either case.
def hexValue : Bytes → Option Nat
  | zero :: x :: digits =>
      if zero = 0x30 ∧ (x = 0x78 ∨ x = 0x58) ∧ digits ≠ [] ∧ digits.length ≤ 4 ∧ digits.all (fun c => (hexNibble c).isSome) = true then
        some (digits.foldl (fun v c => v * 16 + ((hexNibble c).getD 0).toNat) 0)
      else none
  | _ => none

def within (low high : Int) (n : Option Int) : Option Int := n.filter fun n => decide (low ≤ n ∧ n ≤ high)

-- A field's number, unless it holds its sentinel.
def reading {α : Type} [DecidableEq α] (absent : α) (value : α → Int) (v : α) : Option Int := if v = absent then none else some (value v)

def readU16 : UInt16 → Option Int := reading u16NotAvailable fun v => v.toNat
def readI16 : Int16 → Option Int := reading i16NotAvailable Int16.toInt
def readU32 : UInt32 → Option Int := reading u32NotAvailable fun v => v.toNat
def readCode : UInt8 → Option Int := reading codeNotAvailable fun v => v.toNat

-- Every reading of the snapshot is the number under its label where the field has room for it, and none where not.
structure TrueReadings (block : List TextField) (s : MpptSnapshot) : Prop where
  battMv : readU16 s.battMv = within 0 65534 (naturalAt block labelV)
  battMa : readI16 s.battMa = within (-32767) 32767 (signedAt block labelI)
  -- In steps of 10 mV.
  pvCv : readU16 s.pvCv = within 0 65534 ((naturalAt block labelVpv).map (· / 10))
  pvW : readU16 s.pvW = within 0 65534 (naturalAt block labelPpv)
  loadMa : readI16 s.loadMa = within (-32767) 32767 (signedAt block labelIl)
  yieldToday : readU16 s.yieldToday = within 0 65534 (naturalAt block labelH20)
  yieldYest : readU16 s.yieldYest = within 0 65534 (naturalAt block labelH22)
  pmaxToday : readU16 s.pmaxToday = within 0 65534 (naturalAt block labelH21)
  yieldTotal : readU32 s.yieldTotal = within 0 4294967294 (naturalAt block labelH19)
  chargeState : readCode s.chargeState = within 0 254 (naturalAt block labelCs)
  mpptErr : readCode s.mpptErr = within 0 254 (naturalAt block labelErr)
  mpptTracker : readCode s.mpptTracker = within 0 254 (naturalAt block labelMppt)

-- The day sequence goes by either spelling, the upper one first.
def labelDaySeq (block : List TextField) : Bytes := if (findValue block labelHsds).isSome then labelHsds else labelHsdsLower

-- The three values the decoder reads beside them.
structure TrueDecode (block : List TextField) (m : MpptText) : Prop where
  pid : readU16 m.pid = within 0 65534 ((findValue block labelPid).bind fun v => (hexValue v).map fun n : Nat => (n : Int))
  load : m.load = match findValue block labelLoad with
    | some v => if v = [0x4F,0x4E] then .on else if v = [0x4F,0x46,0x46] then .off else .notAvailable
    | none => .notAvailable
  daySeq : readU16 m.daySeq = within 0 65534 (naturalAt block (labelDaySeq block))

-- The labels the decoder knows, each with the values it takes.
def taken (low high : Int) (n : Option Int) : Bool := (within low high n).isSome

def labelRules (block : List TextField) : List (Bytes × (Bytes → Bool)) :=
  let u32 := fun v => taken 0 4294967294 ((decimalValue v).map fun n : Nat => (n : Int))
  let i32 := fun v => taken (-2147483647) 2147483647 (signedValue v)
  let u16 := fun v => taken 0 65534 ((decimalValue v).map fun n : Nat => (n : Int))
  [(labelPid,fun v => taken 0 65534 ((hexValue v).map fun n : Nat => (n : Int))),
    (labelV,u32),(labelI,i32),(labelVpv,u32),(labelPpv,u32),(labelIl,i32),
    (labelLoad,fun v => v == [0x4F,0x4E] || v == [0x4F,0x46,0x46]),
    (labelCs,u16),(labelMppt,u16),(labelErr,u16),(labelH19,u32),(labelH20,u32),(labelH21,u32),(labelH22,u32),
    (labelDaySeq block,u16)]

def refusedLabels (block : List TextField) : Nat := (labelRules block).countP fun r => (findValue block r.1).any fun v => !r.2 v

-- The filter of a range.

theorem within_some (low high n : Int) : within low high (some n) = if low ≤ n ∧ n ≤ high then some n else none := by
  unfold within
  by_cases inside : low ≤ n ∧ n ≤ high
  · rw [if_pos inside,Option.filter_some,if_pos (by simpa using inside)]
  · rw [if_neg inside,Option.filter_some,if_neg (by simpa using inside)]

theorem within_within {low high wideLow wideHigh : Int} (n : Option Int) (below : wideLow ≤ low) (above : high ≤ wideHigh) :
    within low high (within wideLow wideHigh n) = within low high n := by
  cases n with
  | none => rfl
  | some n =>
      rw [within_some wideLow]
      split
      · rfl
      · rename_i outside
        rw [within_some,if_neg (by omega)]
        rfl

theorem within_tens (n : Option Int) : within 0 65534 ((within 0 4294967294 n).map (· / 10)) = within 0 65534 (n.map (· / 10)) := by
  cases n with
  | none => rfl
  | some n =>
      rw [within_some 0 4294967294]
      split
      · rfl
      · rename_i outside
        rw [Option.map_some,within_some,if_neg (by omega)]
        rfl

-- The decoder's parsers take exactly the numerals in their range.

theorem parseDigits_eq (v : Nat) (s : Bytes) (small : v < 4294967295) :
    parseDigits v s = if s.all isDigit = true ∧ digitsValue v s < 4294967295 then some (digitsValue v s) else none := by
  induction s generalizing v with
  | nil => exact (if_pos ⟨rfl,small⟩).symm
  | cons c rest ih =>
      have grown := digitsValue_grows (v * 10 + (c.toNat - 0x30)) rest
      have first : (c :: rest).all isDigit = true ↔ ¬(c < 0x30 ∨ 0x39 < c) ∧ rest.all isDigit = true := by
        rw [List.all_cons,Bool.and_eq_true,isDigit_iff]
      unfold parseDigits
      change _ = if _ ∧ digitsValue (v * 10 + (c.toNat - 0x30)) rest < 4294967295 then some (digitsValue (v * 10 + (c.toNat - 0x30)) rest) else none
      simp only [first]
      by_cases bad : c < 0x30 ∨ 0x39 < c
      · rw [if_pos bad,if_neg fun both => both.1.1 bad]
      · have top : u32NotAvailable.toNat = 4294967295 := rfl
        rw [if_neg bad,top]
        by_cases big : 4294967295 ≤ v * 10 + (c.toNat - 0x30)
        · rw [if_pos big,if_neg (by omega)]
        · rw [if_neg big,ih _ (by omega)]
          simp only [bad,not_false_eq_true,true_and]

theorem parseU32_number (s : Bytes) :
    ((parseU32 s).map fun v : UInt32 => (v.toNat : Int)) = within 0 4294967294 ((decimalValue s).map fun n : Nat => (n : Int)) := by
  unfold parseU32 decimalValue
  cases s with
  | nil => rfl
  | cons c rest =>
      rw [if_neg (by simp),parseDigits_eq 0 (c :: rest) (by omega)]
      by_cases digits : (c :: rest).all isDigit = true
      · have numeral : c :: rest ≠ [] ∧ (c :: rest).all isDigit = true := ⟨List.cons_ne_nil c rest,digits⟩
        rw [if_pos numeral,Option.map_some (f := fun n : Nat => (n : Int)),within_some]
        by_cases small : digitsValue 0 (c :: rest) < 4294967295
        · rw [if_pos ⟨digits,small⟩,if_pos (by omega),Option.map_some,Option.map_some,UInt32.toNat_ofNat_of_lt' (by simp only [UInt32.size]; omega)]
        · rw [if_neg fun both => small both.2,if_neg (by omega)]
          rfl
      · rw [if_neg fun both => digits both.1,if_neg fun both => digits both.2]
        rfl

theorem parseU16_number (s : Bytes) :
    ((parseU16 s).map fun v : UInt16 => (v.toNat : Int)) = within 0 65534 ((decimalValue s).map fun n : Nat => (n : Int)) := by
  have number := congrArg (within 0 65534) (parseU32_number s)
  rw [within_within _ (Int.le_refl 0) (by decide)] at number
  rw [← number]
  unfold parseU16
  cases read : parseU32 s with
  | none => rfl
  | some v =>
      dsimp only
      have top : u16NotAvailable.toNat = 65535 := rfl
      rw [Option.map_some,within_some,top]
      by_cases small : v.toNat < 65535
      · rw [if_neg (by omega),if_pos (by omega),Option.map_some,UInt32.toNat_toUInt16,Nat.mod_eq_of_lt (by omega)]
      · rw [if_pos (by omega),if_neg (by omega)]
        rfl

theorem toInt32_small (mag : UInt32) (small : mag.toNat ≤ 2147483647) : mag.toInt32.toInt = mag.toNat :=
  BitVec.toInt_eq_toNat_of_lt (by change 2 * mag.toNat < 2 ^ 32; omega)

-- A magnitude with its sign, when the magnitude was read for the number it stands for.
theorem signed_magnitude (neg : Bool) (mag : Option UInt32) (n : Option Nat)
    (read : (mag.map fun v : UInt32 => (v.toNat : Int)) = within 0 4294967294 (n.map fun n : Nat => (n : Int))) :
    (match mag with
      | none => none
      | some mag => if 0x7FFFFFFF < mag then none else some (if neg then -mag.toInt32 else mag.toInt32)).map Int32.toInt =
      within (-2147483647) 2147483647 (n.map fun n : Nat => if neg then -(n : Int) else n) := by
  cases n with
  | none =>
      cases mag with
      | none => rfl
      | some mag => cases read
  | some n =>
      rw [Option.map_some,within_some] at read
      rw [Option.map_some,within_some]
      cases mag with
      | none =>
          have far : ¬(n : Int) ≤ 4294967294 := by
            intro near
            rw [if_pos ⟨Int.natCast_nonneg n,near⟩] at read
            cases read
          rw [if_neg (by cases neg <;> simp only [if_true,if_false,Bool.false_eq_true] <;> omega)]
          rfl
      | some mag =>
          have same : (mag.toNat : Int) = n := by
            split at read
            · exact Option.some.inj read
            · cases read
          have top : 0x7FFFFFFF < mag ↔ 2147483647 < mag.toNat := UInt32.lt_iff_toNat_lt
          dsimp only
          by_cases big : 2147483647 < mag.toNat
          · rw [if_pos (top.mpr big),if_neg (by cases neg <;> simp only [if_true,if_false,Bool.false_eq_true] <;> omega)]
            rfl
          · have plain := toInt32_small mag (by omega)
            rw [if_neg fun above => big (top.mp above),Option.map_some]
            cases neg with
            | false =>
                have inside : -2147483647 ≤ (n : Int) ∧ (n : Int) ≤ 2147483647 := by omega
                exact (congrArg some (plain.trans same)).trans (if_pos inside).symm
            | true =>
                have inside : -2147483647 ≤ -(n : Int) ∧ -(n : Int) ≤ 2147483647 := by omega
                have turned : (-mag.toInt32).toInt = -(n : Int) := by
                  rw [Int32.toInt_neg,plain,same]
                  exact Int.bmod_eq_of_le (by omega) (by omega)
                exact (congrArg some turned).trans (if_pos inside).symm

theorem parseI32_number (s : Bytes) : (parseI32 s).map Int32.toInt = within (-2147483647) 2147483647 (signedValue s) := by
  unfold parseI32 signedValue
  by_cases minus : s.head? = some 0x2D
  · have neg : (s.head? == some 0x2D) = true := beq_iff_eq.mpr minus
    rw [if_pos minus]
    simp only [neg]
    exact signed_magnitude true _ _ (parseU32_number s.tail)
  · have neg : (s.head? == some 0x2D) = false := beq_eq_false_iff_ne.mpr minus
    rw [if_neg minus]
    simp only [neg]
    exact signed_magnitude false _ _ (parseU32_number s)

theorem hexNibble_small (c d : UInt8) (is : hexNibble c = some d) : d.toNat < 16 := by
  have all : ∀ k : Fin 256, (hexNibble (UInt8.ofNat k.val)).all (fun d => d < 16) = true := by decide +kernel
  have here := all ⟨c.toNat,c.toNat_lt⟩
  rw [UInt8.ofNat_toNat,is,Option.all_some,decide_eq_true_eq,UInt8.lt_iff_toNat_lt] at here
  exact here

theorem parseHexDigits_value (digits : Bytes) (v : UInt32) (room : (v.toNat + 1) * 16 ^ digits.length ≤ 2 ^ 32)
    (good : digits.all (fun c => (hexNibble c).isSome) = true) :
    ∃ w, parseHexDigits v digits = some w ∧ w.toNat = digits.foldl (fun v c => v * 16 + ((hexNibble c).getD 0).toNat) v.toNat := by
  induction digits generalizing v with
  | nil => exact ⟨v,rfl,rfl⟩
  | cons c rest ih =>
      rw [List.all_cons,Bool.and_eq_true] at good
      obtain ⟨d,is⟩ := Option.isSome_iff_exists.mp good.1
      have small := hexNibble_small c d is
      rw [List.length_cons,Nat.pow_succ] at room
      have pos : 1 ≤ 16 ^ rest.length := Nat.one_le_pow _ _ (by omega)
      have high : (v.toNat + 1) * 16 ≤ 2 ^ 32 := by
        calc (v.toNat + 1) * 16 = (v.toNat + 1) * (1 * 16) := by omega
          _ ≤ (v.toNat + 1) * (16 ^ rest.length * 16) := Nat.mul_le_mul_left _ (Nat.mul_le_mul_right _ pos)
          _ ≤ 2 ^ 32 := room
      have next : ((v <<< 4) ||| d.toUInt32).toNat = v.toNat * 16 + d.toNat := by
        have shifted : v.toNat <<< 4 % 2 ^ 32 = v.toNat <<< 4 := Nat.mod_eq_of_lt (by rw [Nat.shiftLeft_eq]; omega)
        rw [UInt32.toNat_or,UInt32.toNat_shiftLeft,Nat.or_comm]
        change d.toNat ||| v.toNat <<< 4 % 2 ^ 32 = _
        rw [shifted,or_shift_toNat d.toNat v.toNat 4 small]
        exact Nat.add_comm _ _
      have rest_room : (v.toNat * 16 + d.toNat + 1) * 16 ^ rest.length ≤ 2 ^ 32 := by
        calc (v.toNat * 16 + d.toNat + 1) * 16 ^ rest.length ≤ (v.toNat + 1) * 16 * 16 ^ rest.length := Nat.mul_le_mul_right _ (by omega)
          _ = (v.toNat + 1) * (16 ^ rest.length * 16) := by rw [Nat.mul_assoc,Nat.mul_comm 16]
          _ ≤ 2 ^ 32 := room
      obtain ⟨w,read,value⟩ := ih ((v <<< 4) ||| d.toUInt32) (by rw [next]; exact rest_room) good.2
      refine ⟨w,?_,?_⟩
      · unfold parseHexDigits
        rw [is]
        exact read
      · rw [value,next,List.foldl_cons,is]
        rfl

theorem parseHexDigits_bad (digits : Bytes) (v : UInt32) (bad : ¬digits.all (fun c => (hexNibble c).isSome) = true) :
    parseHexDigits v digits = none := by
  induction digits generalizing v with
  | nil => exact absurd rfl bad
  | cons c rest ih =>
      unfold parseHexDigits
      cases is : hexNibble c with
      | none => rfl
      | some d =>
          rw [List.all_cons,is] at bad
          exact ih _ bad

theorem parseHex16_number (s : Bytes) :
    ((parseHex16 s).map fun v : UInt16 => (v.toNat : Int)) = within 0 65534 ((hexValue s).map fun n : Nat => (n : Int)) := by
  unfold parseHex16
  split
  · rename_i x digits
    unfold hexValue
    dsimp only
    by_cases shape : (x = 0x78 ∨ x = 0x58) ∧ digits ≠ [] ∧ digits.length ≤ 4
    · obtain ⟨letter,some_,short⟩ := shape
      have taken : ¬((x ≠ 0x78 ∧ x ≠ 0x58) ∨ digits.isEmpty = true ∨ 4 < digits.length) := by
        rw [List.isEmpty_iff]
        rintro (other | none_ | long)
        · exact letter.elim other.1 other.2
        · exact some_ none_
        · omega
      rw [if_neg taken]
      by_cases good : digits.all (fun c => (hexNibble c).isSome) = true
      · have room : (0 + 1) * 16 ^ digits.length ≤ 2 ^ 32 := by
          have top : 16 ^ digits.length ≤ 16 ^ 4 := Nat.pow_le_pow_right (by omega) short
          omega
        obtain ⟨w,read,value⟩ := parseHexDigits_value digits 0 room good
        rw [if_pos ⟨rfl,letter,some_,short,good⟩,read]
        change _ = digits.foldl _ 0 at value
        have top : u16NotAvailable.toNat = 65535 := rfl
        dsimp only
        rw [← value,Option.map_some (f := fun n : Nat => (n : Int)),within_some,top]
        by_cases small : w.toNat < 65535
        · rw [if_neg (by omega),if_pos (by omega),Option.map_some,UInt32.toNat_toUInt16,Nat.mod_eq_of_lt (by omega)]
        · rw [if_pos (by omega),if_neg (by omega)]
          rfl
      · rw [if_neg fun all => good all.2.2.2.2,parseHexDigits_bad digits 0 good]
        rfl
    · have refused : (x ≠ 0x78 ∧ x ≠ 0x58) ∨ digits.isEmpty = true ∨ 4 < digits.length := by
        rw [List.isEmpty_iff]
        rcases Decidable.not_and_iff_or_not.mp shape with letter | rest
        · exact .inl (not_or.mp letter)
        · rcases Decidable.not_and_iff_or_not.mp rest with none_ | long
          · exact .inr (.inl (Decidable.not_not.mp none_))
          · exact .inr (.inr (by omega))
      rw [if_pos refused,if_neg fun all => shape ⟨all.2.1,all.2.2.1,all.2.2.2.1⟩]
      rfl
  · rename_i other
    unfold hexValue
    split
    · rename_i zero x digits
      rw [if_neg fun all => other x digits (by rw [all.1])]
      rfl
    · rfl

-- A parser that takes exactly a range of what its text denotes fills its field with it.
theorem readLabel_reading {α : Type} [DecidableEq α] {absent : α} {value : α → Int} {low high : Int} {parse : Bytes → Option α}
    {denoted : Bytes → Option Int} (block : List TextField) (label : Bytes) (exact_ : ∀ s, (parse s).map value = within low high (denoted s))
    (apart : ∀ s v, parse s = some v → v ≠ absent) :
    reading absent value (readLabel block parse absent label).1 = within low high ((findValue block label).bind denoted) := by
  unfold readLabel
  cases findValue block label with
  | none => exact if_pos rfl
  | some s =>
      dsimp only
      rw [Option.bind_some,← exact_ s]
      cases read : parse s with
      | none => exact if_pos rfl
      | some v => exact if_neg (apart s v read)

theorem readLabel_refused {α : Type} (absent : α) {value : α → Int} {low high : Int} {parse : Bytes → Option α} {denoted : Bytes → Option Int}
    (block : List TextField) (label : Bytes) (exact_ : ∀ s, (parse s).map value = within low high (denoted s)) :
    (readLabel block parse absent label).2 = if ((findValue block label).any fun s => !taken low high (denoted s)) = true then 1 else 0 := by
  unfold readLabel taken
  cases findValue block label with
  | none => rfl
  | some s =>
      dsimp only
      rw [Option.any_some,← exact_ s,Option.isSome_map]
      cases parse s <;> rfl

theorem parsed_inside {α : Type} {value : α → Int} {low high : Int} {denoted : Option Int} {parsed : Option α} {v : α}
    (exact_ : parsed.map value = within low high denoted) (read : parsed = some v) : low ≤ value v ∧ value v ≤ high := by
  rw [read,Option.map_some] at exact_
  cases denoted with
  | none => cases exact_
  | some n =>
      rw [within_some] at exact_
      split at exact_
      · rename_i inside
        cases exact_
        exact inside
      · cases exact_

section
variable (block : List TextField) (label : Bytes)

theorem u32_reading : readU32 (readLabel block parseU32 u32NotAvailable label).1 = within 0 4294967294 (naturalAt block label) := by
  refine readLabel_reading block label parseU32_number fun s v read same => ?_
  have inside := parsed_inside (parseU32_number s) read
  rw [same] at inside
  exact absurd inside.2 (by decide)

theorem u16_reading : readU16 (readLabel block parseU16 u16NotAvailable label).1 = within 0 65534 (naturalAt block label) := by
  refine readLabel_reading block label parseU16_number fun s v read same => ?_
  have inside := parsed_inside (parseU16_number s) read
  rw [same] at inside
  exact absurd inside.2 (by decide)

theorem i32_reading : reading i32NotAvailable Int32.toInt (readLabel block parseI32 i32NotAvailable label).1 =
    within (-2147483647) 2147483647 (signedAt block label) := by
  refine readLabel_reading block label parseI32_number fun s v read same => ?_
  have inside := parsed_inside (parseI32_number s) read
  rw [same] at inside
  exact absurd inside.1 (by decide)

theorem pid_reading : readU16 (readLabel block parseHex16 u16NotAvailable label).1 =
    within 0 65534 ((findValue block label).bind fun v => (hexValue v).map fun n : Nat => (n : Int)) := by
  refine readLabel_reading block label parseHex16_number fun s v read same => ?_
  have inside := parsed_inside (parseHex16_number s) read
  rw [same] at inside
  exact absurd inside.2 (by decide)

end

-- Each narrowing step keeps what fits below its sentinel and drops the rest whole.

theorem narrowed_reading {α : Type} [DecidableEq α] {absent : α} {value : α → Int} {low high : Int} (narrowed : α) (n : Option Int)
    (fits : ∀ k, n = some k → low ≤ k → k ≤ high → narrowed ≠ absent ∧ value narrowed = k)
    (drops : (∀ k, n = some k → ¬(low ≤ k ∧ k ≤ high)) → narrowed = absent) :
    reading absent value narrowed = within low high n := by
  unfold reading
  cases n with
  | none => exact if_pos (drops fun k is => by cases is)
  | some k =>
      rw [within_some]
      by_cases inside : low ≤ k ∧ k ≤ high
      · obtain ⟨apart,same⟩ := fits k rfl inside.1 inside.2
        rw [if_neg apart,if_pos inside,same]
      · rw [if_neg inside]
        exact if_pos (drops fun k' is => by cases is; exact inside)

theorem toU16_reading (v : UInt32) : readU16 (toU16 v) = within 0 65534 (readU32 v) := by
  have top : u16NotAvailable.toNat = 65535 := rfl
  have number (k : Int) (is : readU32 v = some k) : v ≠ u32NotAvailable ∧ (v.toNat : Int) = k := by
    unfold readU32 reading at is
    split at is
    · cases is
    · exact ⟨‹_›,Option.some.inj is⟩
  refine narrowed_reading (toU16 v) (readU32 v) (fun k is _ high => ?_) fun outside => ?_
  · obtain ⟨present,same⟩ := number k is
    have low : v.toUInt16.toNat = v.toNat := by rw [UInt32.toNat_toUInt16]; exact Nat.mod_eq_of_lt (by omega)
    unfold toU16
    rw [if_neg (not_or.mpr ⟨present,by omega⟩)]
    refine ⟨fun absent => ?_,?_⟩
    · rw [absent] at low
      omega
    · rw [low]
      exact same
  · unfold toU16
    refine if_pos ?_
    by_cases absent : v = u32NotAvailable
    · exact .inl absent
    · have far := outside v.toNat (if_neg absent)
      exact .inr (by omega)

theorem toI16_reading (v : Int32) : readI16 (toI16 v) = within (-32767) 32767 (reading i32NotAvailable Int32.toInt v) := by
  have least : Int16.minValue.toInt = -32768 := rfl
  have most : Int16.maxValue.toInt = 32767 := rfl
  have number (k : Int) (is : reading i32NotAvailable Int32.toInt v = some k) : v ≠ i32NotAvailable ∧ v.toInt = k := by
    unfold reading at is
    split at is
    · cases is
    · exact ⟨‹_›,Option.some.inj is⟩
  refine narrowed_reading (toI16 v) _ (fun k is _ high => ?_) fun outside => ?_
  · obtain ⟨present,same⟩ := number k is
    have low : v.toInt16.toInt = v.toInt := by
      rw [Int32.toInt_toInt16]
      exact Int.bmod_eq_of_le (by omega) (by omega)
    unfold toI16
    rw [if_neg (not_or.mpr ⟨present,by omega⟩)]
    refine ⟨fun absent => ?_,low.trans same⟩
    rw [absent] at low
    change Int16.minValue.toInt = _ at low
    omega
  · unfold toI16
    refine if_pos ?_
    by_cases absent : v = i32NotAvailable
    · exact .inl absent
    · have far := outside v.toInt (if_neg absent)
      exact .inr (by omega)

theorem toCode_reading (v : UInt16) : readCode (toCode v) = within 0 254 (readU16 v) := by
  have top : codeNotAvailable.toNat = 255 := rfl
  have number (k : Int) (is : readU16 v = some k) : (v.toNat : Int) = k := by
    unfold readU16 reading at is
    split at is
    · cases is
    · exact Option.some.inj is
  refine narrowed_reading (toCode v) (readU16 v) (fun k is _ high => ?_) fun outside => ?_
  · have same := number k is
    have low : v.toUInt8.toNat = v.toNat := by rw [UInt16.toNat_toUInt8]; exact Nat.mod_eq_of_lt (by omega)
    unfold toCode
    rw [if_neg (by omega)]
    refine ⟨fun absent => ?_,?_⟩
    · rw [absent] at low
      omega
    · rw [low]
      exact same
  · unfold toCode
    refine if_pos ?_
    by_cases absent : v = u16NotAvailable
    · rw [absent]
      decide
    · have far := outside v.toNat (if_neg absent)
      omega

theorem pvCv_reading (v : UInt32) :
    readU16 (if v = u32NotAvailable then u16NotAvailable else toU16 (v / 10)) = within 0 65534 ((readU32 v).map (· / 10)) := by
  by_cases absent : v = u32NotAvailable
  · rw [if_pos absent,absent]
    rfl
  · have tenth : (v / 10).toNat = v.toNat / 10 := UInt32.toNat_div v 10
    have bound := v.toNat_lt
    have apart : v / 10 ≠ u32NotAvailable := by
      intro same
      rw [same] at tenth
      change 4294967295 = _ at tenth
      omega
    rw [if_neg absent,toU16_reading,readU32,reading,if_neg apart,reading,if_neg absent,tenth]
    rfl

-- The readings and the count.

section
variable (block : List TextField) (label : Bytes)

theorem toU16_label : readU16 (toU16 (readLabel block parseU32 u32NotAvailable label).1) = within 0 65534 (naturalAt block label) := by
  rw [toU16_reading,u32_reading,within_within _ (Int.le_refl 0) (by decide : (65534 : Int) ≤ 4294967294)]

theorem toI16_label : readI16 (toI16 (readLabel block parseI32 i32NotAvailable label).1) = within (-32767) 32767 (signedAt block label) := by
  rw [toI16_reading,i32_reading,within_within _ (by decide : (-2147483647 : Int) ≤ -32767) (by decide : (32767 : Int) ≤ 2147483647)]

theorem toCode_label : readCode (toCode (readLabel block parseU16 u16NotAvailable label).1) = within 0 254 (naturalAt block label) := by
  rw [toCode_reading,u16_reading,within_within _ (Int.le_refl 0) (by decide : (254 : Int) ≤ 65534)]

end

theorem mpptFromText_true (block : List TextField) : TrueReadings block (mpptFromText (decodeMppt block).2) where
  battMv := toU16_label block labelV
  battMa := toI16_label block labelI
  pvCv := by
    rw [← within_tens,naturalAt,← naturalAt,← u32_reading]
    exact pvCv_reading _
  pvW := toU16_label block labelPpv
  loadMa := toI16_label block labelIl
  yieldToday := toU16_label block labelH20
  yieldYest := toU16_label block labelH22
  pmaxToday := toU16_label block labelH21
  yieldTotal := u32_reading block labelH19
  chargeState := toCode_label block labelCs
  mpptErr := toCode_label block labelErr
  mpptTracker := toCode_label block labelMppt

theorem decodeMppt_true (block : List TextField) : TrueDecode block (decodeMppt block).2 where
  pid := pid_reading block labelPid
  load := by
    change (readLabel block parseLoad .notAvailable labelLoad).1 = _
    unfold readLabel parseLoad
    cases findValue block labelLoad with
    | none => rfl
    | some v =>
        by_cases on : v = [0x4F,0x4E]
        · simp only [if_pos on]
        · by_cases off : v = [0x4F,0x46,0x46]
          · simp only [if_neg on,if_pos off]
          · simp only [if_neg on,if_neg off]
  daySeq := u16_reading block (labelDaySeq block)

theorem load_refused (block : List TextField) :
    (readLabel block parseLoad .notAvailable labelLoad).2 =
      if ((findValue block labelLoad).any fun v => !(v == [0x4F,0x4E] || v == [0x4F,0x46,0x46])) = true then 1 else 0 := by
  unfold readLabel parseLoad
  cases findValue block labelLoad with
  | none => rfl
  | some v =>
      rw [Option.any_some]
      by_cases on : v = [0x4F,0x4E]
      · rw [on]
        rfl
      · by_cases off : v = [0x4F,0x46,0x46]
        · rw [off]
          rfl
        · simp only [if_neg on,if_neg off,beq_eq_false_iff_ne.mpr on,beq_eq_false_iff_ne.mpr off]
          rfl

theorem decodeMppt_count (block : List TextField) : (decodeMppt block).1 = refusedLabels block := by
  have u32 (label : Bytes) := readLabel_refused u32NotAvailable block label parseU32_number
  have i32 (label : Bytes) := readLabel_refused i32NotAvailable block label parseI32_number
  have u16 (label : Bytes) := readLabel_refused u16NotAvailable block label parseU16_number
  unfold refusedLabels labelRules
  simp only [List.countP_cons,List.countP_nil]
  rw [← readLabel_refused u16NotAvailable block labelPid parseHex16_number,← load_refused,← u32,← i32,← u32,← u32,← i32,← u16,← u16,← u16,
    ← u32,← u32,← u32,← u32,← u16]
  unfold decodeMppt labelDaySeq
  dsimp only
  omega

-- Each reading is the number under its label or none, and the count is of the present labels whose value was refused.
theorem text_values_reach_status (block : List TextField) :
    TrueReadings block (mpptFromText (decodeMppt block).2) ∧ TrueDecode block (decodeMppt block).2 ∧ (decodeMppt block).1 = refusedLabels block :=
  ⟨mpptFromText_true block,decodeMppt_true block,decodeMppt_count block⟩

-- A signed numeral is read only where the label carries a sign: "-0" volts is zero, and none is shown.
theorem signed_volts_refused : ¬∀ block, readU16 (mpptFromText (decodeMppt block).2).battMv = within 0 65534 (signedAt block labelV) := by
  intro all
  exact absurd (all [⟨labelV,[0x2D,0x30]⟩]) (by decide)

end LoraRan.GateLink
