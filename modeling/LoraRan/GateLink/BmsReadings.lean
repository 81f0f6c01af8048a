import LoraRan.BmsBle.TdtProtocol
import LoraRan.GateLink.TextReadings

namespace LoraRan.GateLink
open Protocol VeDirect
open BmsBle (TdtFrame be16 cmdCellsPack)
open Library.LittleEndian (u8At or_shift_toNat)

def maxCells : Nat := 16

-- 0.1 K to 0.1 C.
def tempOf (raw : UInt16) : Int16 := Int16.ofInt (raw.toNat - 2731)

-- Bit 15 is set while discharging and the low 14 bits are the magnitude in 0.1 A. Bit 14 carries no direction.
def currentOf (raw : UInt16) : Int32 :=
  let magnitude := (raw &&& 0x3FFF).toUInt32.toInt32 * 100
  if raw &&& 0x8000 ≠ 0 then -magnitude else magnitude

-- Two counts in the payload place every field behind the cells.
def decodeCellsAndPack (f : TdtFrame) : Option BmsData :=
  if f.cmd ≠ cmdCellsPack then none
  else
    let p := f.payload
    if p.length < 1 then none
    else
      let cells := u8At p 0
      if cells = 0 ∨ maxCells < cells.toNat then none
      else
        let off := 1 + cells.toNat * 2
        if p.length < off + 1 then none
        else
          let temps := u8At p off
          if maxTemps < temps.toNat then none
          else
            let off := off + 1
            let tail := off + temps.toNat * 2
            if p.length < tail + 14 then none
            else some
              {cellCount := cells
               cellMv := (List.range cells.toNat).map fun i => be16 p (1 + i * 2)
               tempCount := temps
               tempDc := (List.range temps.toNat).map fun i => tempOf (be16 p (off + i * 2))
               currentMa := currentOf (be16 p tail)
               packMv := (be16 p (tail + 2)).toUInt32 * 10
               nominalDah := be16 p (tail + 6)
               cycles := be16 p (tail + 8)
               socPct := (be16 p (tail + 12)).toUInt8}

-- The numbers a frame's fields denote, read off the layout alone.
section
variable (f : TdtFrame)

def byteAt (at_ : Nat) : Nat := (u8At f.payload at_).toNat
def fieldAt (at_ : Nat) : Nat := byteAt f at_ * 256 + byteAt f (at_ + 1)

def cellCountOf : Nat := byteAt f 0
def tempCountOf : Nat := byteAt f (1 + cellCountOf f * 2)
def cellRaw (i : Nat) : Nat := fieldAt f (1 + i * 2)
def tempRaw (i : Nat) : Nat := fieldAt f (2 + cellCountOf f * 2 + i * 2)
def tailField (at_ : Nat) : Nat := fieldAt f (2 + cellCountOf f * 2 + tempCountOf f * 2 + at_)

def currentRaw : Nat := tailField f 0
def packRaw : Nat := tailField f 2
def nominalRaw : Nat := tailField f 6
def cyclesRaw : Nat := tailField f 8
def socRaw : Nat := tailField f 12

-- In mA, positive on charge.
def currentMaOf : Int := if 32768 ≤ currentRaw f then -((currentRaw f % 16384 : Nat) * 100) else (currentRaw f % 16384 : Nat) * 100

-- In 0.1 C, and in whole degrees rounded half away from zero.
def tempDcOf (i : Nat) : Int := tempRaw f i - 2731

end

def wholeDegrees (dc : Int) : Int := if 0 ≤ dc then (dc + 5) / 10 else -((5 - dc) / 10)

def clampTo (low high n : Int) : Int := max low (min n high)

-- A field tells its number, the nearest it can carry, or nothing.
def Tells (low high number : Int) (shown : Option Int) : Prop := shown = none ∨ shown = some (clampTo low high number)

def readSoc : UInt8 → Option Int := reading socNotAvailable fun v => v.toNat
def readTemp : Int8 → Option Int := reading tempNotAvailable Int8.toInt

structure ReadTrue (f : TdtFrame) (d : BmsData) (s : BmsBlock) : Prop where
  soc : Tells 0 254 (socRaw f) (readSoc s.bmsSoc)
  packMv : Tells 0 65534 (packRaw f * 10 : Nat) (readU16 s.packMv)
  packMa : Tells (-32767) 32767 (currentMaOf f) (readI16 s.packMa)
  cellMv : ∀ i < schemaCells, (cellCountOf f ≤ i → readU16 (s.cellMv.getD i 0) = none) ∧ Tells 0 65534 (cellRaw f i) (readU16 (s.cellMv.getD i 0))
  cellTempC : ∀ i < schemaCells, (tempCountOf f ≤ i → readTemp (s.cellTempC.getD i 0) = none) ∧
    Tells (-127) 127 (wholeDegrees (tempDcOf f i)) (readTemp (s.cellTempC.getD i 0))
  cycles : Tells 0 65534 (cyclesRaw f) (readU16 s.bmsCycles)
  capacity : Tells 0 65534 (nominalRaw f) (readU16 s.bmsCapacityDah)
  -- What the charge watch compares has no unavailable value.
  compared : d.tempDc.length = tempCountOf f ∧ ∀ i < tempCountOf f, (d.tempDc.getD i 0).toInt = clampTo (-32768) 32767 (tempDcOf f i)

theorem be16_toNat (f : TdtFrame) (at_ : Nat) : (be16 f.payload at_).toNat = fieldAt f at_ := by
  have low := (u8At f.payload (at_ + 1)).toNat_lt
  have high := (u8At f.payload at_).toNat_lt
  have shifted : ((u8At f.payload at_).toNat <<< 8) % 2 ^ 16 = (u8At f.payload at_).toNat <<< 8 := by
    rw [Nat.shiftLeft_eq]
    exact Nat.mod_eq_of_lt (by omega)
  unfold be16 fieldAt byteAt
  simp only [UInt16.toNat_or,UInt16.toNat_shiftLeft,UInt8.toNat_toUInt16]
  change (u8At f.payload at_).toNat <<< 8 % 2 ^ 16 ||| _ = _
  rw [shifted,Nat.or_comm,or_shift_toNat _ _ 8 low]
  omega

theorem field_lt (f : TdtFrame) (at_ : Nat) : fieldAt f at_ < 65536 := by
  rw [← be16_toNat]
  exact (be16 f.payload at_).toNat_lt

-- What an accepted frame decodes to, its fields by their offsets.
structure Decoded (f : TdtFrame) (d : BmsData) : Prop where
  cellCount : d.cellCount.toNat = cellCountOf f
  cellMv : d.cellMv = (List.range (cellCountOf f)).map fun i => be16 f.payload (1 + i * 2)
  tempCount : d.tempCount.toNat = tempCountOf f
  tempDc : d.tempDc = (List.range (tempCountOf f)).map fun i => tempOf (be16 f.payload (2 + cellCountOf f * 2 + i * 2))
  current : ∃ raw : UInt16, raw.toNat = currentRaw f ∧ d.currentMa = currentOf raw
  pack : ∃ raw : UInt16, raw.toNat = packRaw f ∧ d.packMv = raw.toUInt32 * 10
  nominal : d.nominalDah.toNat = nominalRaw f
  cycles : d.cycles.toNat = cyclesRaw f
  soc : d.socPct.toNat = socRaw f % 256

theorem decode_parts {f : TdtFrame} {d : BmsData} (accepted : decodeCellsAndPack f = some d) : Decoded f d := by
  unfold decodeCellsAndPack at accepted
  split at accepted
  · cases accepted
  · dsimp only at accepted
    split at accepted
    · cases accepted
    · split at accepted
      · cases accepted
      · split at accepted
        · cases accepted
        · split at accepted
          · cases accepted
          · split at accepted
            · cases accepted
            · cases accepted
              have second : 1 + (u8At f.payload 0).toNat * 2 + 1 = 2 + cellCountOf f * 2 := by unfold cellCountOf byteAt; omega
              have place (k : Nat) : 1 + (u8At f.payload 0).toNat * 2 + 1 + (u8At f.payload (1 + (u8At f.payload 0).toNat * 2)).toNat * 2 + k =
                  2 + cellCountOf f * 2 + tempCountOf f * 2 + k := by unfold tempCountOf cellCountOf byteAt; omega
              constructor
              case cellCount => rfl
              case cellMv => rfl
              case tempCount => rfl
              case tempDc =>
                dsimp only
                rw [second]
                rfl
              case current => exact ⟨_,(be16_toNat f _).trans (congrArg (fieldAt f) (place 0)),rfl⟩
              case pack => exact ⟨_,(be16_toNat f _).trans (congrArg (fieldAt f) (place 2)),rfl⟩
              case nominal => exact (be16_toNat f _).trans (congrArg (fieldAt f) (place 6))
              case cycles => exact (be16_toNat f _).trans (congrArg (fieldAt f) (place 8))
              case soc =>
                dsimp only
                rw [UInt16.toNat_toUInt8,be16_toNat,place 12]
                rfl

-- Each field on its own.

theorem clampTo_inside {low high n : Int} (above : low ≤ n) (below : n ≤ high) : clampTo low high n = n := by
  unfold clampTo
  omega

theorem reading_some {α : Type} [DecidableEq α] {absent v : α} {value : α → Int} {n : Int} (present : v ≠ absent) (same : value v = n) :
    reading absent value v = some n := by
  unfold reading
  rw [if_neg present,same]

theorem u16_tells {v : UInt16} {n : Nat} (same : v.toNat = n) : Tells 0 65534 n (readU16 v) := by
  have bound := v.toNat_lt
  by_cases absent : v = u16NotAvailable
  · exact .inl (if_pos absent)
  · have apart : v.toNat ≠ 65535 := fun top => absent (UInt16.toNat_inj.mp top)
    refine .inr ?_
    rw [clampTo_inside (by omega) (by omega)]
    exact reading_some absent (congrArg Int.ofNat same)

theorem soc_tells_iff {pct : UInt8} {raw : Nat} (low : pct.toNat = raw % 256) :
    Tells 0 254 raw (readSoc (if pct ≤ 100 then pct else socNotAvailable)) ↔ raw < 256 ∨ 100 < raw % 256 := by
  have hundred : pct ≤ 100 ↔ pct.toNat ≤ 100 := UInt8.le_iff_toNat_le
  by_cases sensible : pct ≤ 100
  · have small := hundred.mp sensible
    have present : pct ≠ socNotAvailable := by
      intro absent
      rw [absent] at small
      exact absurd small (by decide)
    have shown : readSoc pct = some (pct.toNat : Int) := reading_some present rfl
    rw [if_pos sensible,shown]
    constructor
    · rintro (hidden | told)
      · cases hidden
      · have same := Option.some.inj told
        unfold clampTo at same
        omega
    · intro fits
      refine .inr (congrArg some ?_)
      unfold clampTo
      omega
  · rw [if_neg sensible]
    exact ⟨fun _ => .inr (by rw [hundred] at sensible; omega),fun _ => .inl rfl⟩

theorem pack_tells {mv : UInt32} {n : Nat} (same : mv.toNat = n) :
    Tells 0 65534 n (readU16 (if mv.toNat < u16NotAvailable.toNat then mv.toUInt16 else u16NotAvailable - 1)) := by
  have top : u16NotAvailable.toNat = 65535 := rfl
  rw [top]
  by_cases small : mv.toNat < 65535
  · rw [if_pos small]
    exact u16_tells (by rw [UInt32.toNat_toUInt16,same]; exact Nat.mod_eq_of_lt (by omega))
  · rw [if_neg small]
    refine .inr ?_
    have edge : clampTo 0 65534 n = 65534 := by unfold clampTo; omega
    rw [edge]
    rfl

theorem clampMa_tells (ma : Int32) : Tells (-32767) 32767 ma.toInt (readI16 (clampMa ma)) := by
  have least : Int16.minValue.toInt = -32768 := rfl
  have most : Int16.maxValue.toInt = 32767 := rfl
  refine .inr ?_
  unfold clampMa
  rw [least,most]
  by_cases above : 32767 < ma.toInt
  · have edge : clampTo (-32767) 32767 ma.toInt = 32767 := by unfold clampTo; omega
    rw [if_pos above,edge]
    rfl
  · rw [if_neg above]
    by_cases below : ma.toInt ≤ -32768
    · have edge : clampTo (-32767) 32767 ma.toInt = -32767 := by unfold clampTo; omega
      rw [if_pos below,edge]
      rfl
    · have kept : ma.toInt16.toInt = ma.toInt := by
        rw [Int32.toInt_toInt16]
        exact Int.bmod_eq_of_le (by omega) (by omega)
      rw [if_neg below,clampTo_inside (by omega) (by omega)]
      refine reading_some (fun absent => ?_) kept
      rw [absent] at kept
      change -32768 = _ at kept
      omega

theorem currentOf_number (raw : UInt16) :
    (currentOf raw).toInt = if 32768 ≤ raw.toNat then -((raw.toNat % 16384 : Nat) * 100 : Int) else (raw.toNat % 16384 : Nat) * 100 := by
  have bound := raw.toNat_lt
  have masked : (raw &&& 0x3FFF).toNat = raw.toNat % 16384 := by
    rw [UInt16.toNat_and]
    exact Nat.and_two_pow_sub_one_eq_mod raw.toNat 14
  have signed : raw &&& 0x8000 ≠ 0 ↔ 32768 ≤ raw.toNat := by
    have bit : (raw &&& 0x8000).toNat = (raw.toNat.testBit 15).toNat * 2 ^ 15 := by
      rw [UInt16.toNat_and]
      exact Nat.and_two_pow raw.toNat 15
    rw [ne_eq,← UInt16.toNat_inj,bit,Nat.testBit_eq_decide_div_mod_eq]
    by_cases high : 32768 ≤ raw.toNat
    · have one : raw.toNat / 32768 % 2 = 1 := by omega
      simp [one,high]
    · have zero : raw.toNat / 32768 % 2 = 0 := by omega
      simp [zero,high]
  have magnitude : ((raw &&& 0x3FFF).toUInt32.toInt32 * 100).toInt = (raw.toNat % 16384 : Nat) * 100 := by
    have small : (raw &&& 0x3FFF).toUInt32.toInt32.toInt = (raw.toNat % 16384 : Nat) := by
      rw [toInt32_small _ (by rw [UInt16.toNat_toUInt32,masked]; omega),UInt16.toNat_toUInt32,masked]
    rw [Int32.toInt_mul,small]
    exact Int.bmod_eq_of_le (by change _ ≤ (_ : Int) * 100; omega) (by change (_ : Int) * 100 < _; omega)
  unfold currentOf
  dsimp only
  by_cases discharging : raw &&& 0x8000 ≠ 0
  · rw [if_pos discharging,if_pos (signed.mp discharging),Int32.toInt_neg,magnitude]
    exact Int.bmod_eq_of_le (by omega) (by omega)
  · rw [if_neg discharging,if_neg (fun high => discharging (signed.mpr high)),magnitude]

theorem tempOf_number (raw : UInt16) : (tempOf raw).toInt = if raw.toNat ≤ 35498 then (raw.toNat : Int) - 2731 else (raw.toNat : Int) - 68267 := by
  have bound := raw.toNat_lt
  unfold tempOf
  rw [Int16.toInt_ofInt]
  change Int.bmod ((raw.toNat : Int) - 2731) 65536 = _
  rw [Int.bmod_def]
  split <;> split <;> omega

theorem wholeC_tells (dc : Int16) : Tells (-127) 127 (wholeDegrees dc.toInt) (readTemp (wholeC dc)) := by
  have least : Int8.minValue.toInt = -128 := rfl
  have most : Int8.maxValue.toInt = 127 := rfl
  have same : (if 0 ≤ dc.toInt then (dc.toInt + 5).tdiv 10 else (dc.toInt - 5).tdiv 10) = wholeDegrees dc.toInt := by
    unfold wholeDegrees
    split
    · exact Int.tdiv_eq_ediv_of_nonneg (by omega)
    · have turned : dc.toInt - 5 = -(5 - dc.toInt) := by omega
      rw [turned,Int.neg_tdiv,Int.tdiv_eq_ediv_of_nonneg (by omega)]
  refine .inr ?_
  unfold wholeC
  rw [same]
  dsimp only
  rw [least,most]
  by_cases above : 127 < wholeDegrees dc.toInt
  · have edge : clampTo (-127) 127 (wholeDegrees dc.toInt) = 127 := by unfold clampTo; omega
    rw [if_pos above,edge]
    rfl
  · rw [if_neg above]
    by_cases below : wholeDegrees dc.toInt ≤ -128
    · have edge : clampTo (-127) 127 (wholeDegrees dc.toInt) = -127 := by unfold clampTo; omega
      rw [if_pos below,edge]
      rfl
    · have kept : (Int8.ofInt (wholeDegrees dc.toInt)).toInt = wholeDegrees dc.toInt := by
        rw [Int8.toInt_ofInt]
        change Int.bmod _ 256 = _
        exact Int.bmod_eq_of_le (by omega) (by omega)
      rw [if_neg below,clampTo_inside (by omega) (by omega)]
      refine reading_some (fun absent => ?_) kept
      rw [absent] at kept
      change -128 = _ at kept
      omega

-- Of a frame that decodes.

section
variable {f : TdtFrame} {d : BmsData}

theorem row_getD {α : Type} (g : Nat → α) (count i : Nat) (fallback : α) (inside : i < count) :
    ((List.range count).map g).getD i fallback = g i := by
  rw [List.getD_eq_getElem?_getD,List.getElem?_map,List.getElem?_range inside]
  rfl

theorem Decoded.temp (decoded : Decoded f d) (i : Nat) (inside : i < tempCountOf f) :
    (d.tempDc.getD i 0).toInt = if tempRaw f i ≤ 35498 then tempDcOf f i else (tempRaw f i : Int) - 68267 := by
  have there : d.tempDc.getD i 0 = tempOf (be16 f.payload (2 + cellCountOf f * 2 + i * 2)) := by
    rw [decoded.tempDc,row_getD _ _ _ _ inside]
  rw [there,tempOf_number,be16_toNat]
  rfl

-- What the charge watch compares is true exactly below the wrap.
theorem Decoded.compared_iff (decoded : Decoded f d) (i : Nat) (inside : i < tempCountOf f) :
    (d.tempDc.getD i 0).toInt = clampTo (-32768) 32767 (tempDcOf f i) ↔ tempRaw f i ≤ 35498 := by
  have bound : tempRaw f i < 65536 := field_lt f _
  rw [decoded.temp i inside]
  by_cases low : tempRaw f i ≤ 35498
  · rw [if_pos low,clampTo_inside (by unfold tempDcOf; omega) (by unfold tempDcOf; omega)]
    exact ⟨fun _ => low,fun _ => rfl⟩
  · rw [if_neg low]
    unfold clampTo tempDcOf
    omega

theorem Decoded.cell_tells (decoded : Decoded f d) (i : Nat) (within_ : i < schemaCells) (b : BmsSnapshot) (nowMs : UInt32)
    (here : b.have_ = true) (read : b.data = d) :
    (cellCountOf f ≤ i → readU16 ((fillBmsBlock b nowMs).cellMv.getD i 0) = none) ∧
      Tells 0 65534 (cellRaw f i) (readU16 ((fillBmsBlock b nowMs).cellMv.getD i 0)) := by
  have shown : (fillBmsBlock b nowMs).cellMv.getD i 0 = if i < d.cellCount.toNat then d.cellMv.getD i 0 else u16NotAvailable := by
    unfold fillBmsBlock
    rw [here,read]
    exact row_getD _ _ _ _ within_
  rw [shown,decoded.cellCount]
  by_cases inside : i < cellCountOf f
  · rw [if_pos inside]
    refine ⟨fun past => absurd inside (by omega),u16_tells ?_⟩
    rw [decoded.cellMv,row_getD _ _ _ _ inside]
    exact be16_toNat f _
  · rw [if_neg inside]
    exact ⟨fun _ => rfl,.inl rfl⟩

theorem Decoded.degrees_tell (decoded : Decoded f d) (i : Nat) (within_ : i < schemaCells) (b : BmsSnapshot) (nowMs : UInt32)
    (here : b.have_ = true) (read : b.data = d) (low : ∀ i < tempCountOf f, tempRaw f i ≤ 35498) :
    (tempCountOf f ≤ i → readTemp ((fillBmsBlock b nowMs).cellTempC.getD i 0) = none) ∧
      Tells (-127) 127 (wholeDegrees (tempDcOf f i)) (readTemp ((fillBmsBlock b nowMs).cellTempC.getD i 0)) := by
  have shown : (fillBmsBlock b nowMs).cellTempC.getD i 0 =
      if i < d.tempCount.toNat then wholeC (d.tempDc.getD i 0) else tempNotAvailable := by
    unfold fillBmsBlock
    rw [here,read]
    exact row_getD _ _ _ _ within_
  rw [shown,decoded.tempCount]
  by_cases inside : i < tempCountOf f
  · have number := decoded.temp i inside
    rw [if_pos (low i inside)] at number
    rw [if_pos inside,← number]
    exact ⟨fun past => absurd inside (by omega),wholeC_tells _⟩
  · rw [if_neg inside]
    exact ⟨fun _ => rfl,.inl rfl⟩

end

-- A decoded read is told truly exactly when its SOC and temperatures do not wrap.
theorem bms_reading_true_iff (f : TdtFrame) (d : BmsData) (rssiDbm : Int16) (readMs nowMs : UInt32) (accepted : decodeCellsAndPack f = some d) :
    ReadTrue f d (fillBmsBlock ⟨true,d,rssiDbm,readMs⟩ nowMs) ↔
      (socRaw f < 256 ∨ 100 < socRaw f % 256) ∧ ∀ i < tempCountOf f, tempRaw f i ≤ 35498 := by
  have decoded := decode_parts accepted
  have soc := soc_tells_iff decoded.soc
  constructor
  · intro told
    exact ⟨soc.mp told.soc,fun i inside => (decoded.compared_iff i inside).mp (told.compared.2 i inside)⟩
  · rintro ⟨sensible,low⟩
    constructor
    case soc => exact soc.mpr sensible
    case packMv =>
      obtain ⟨raw,is,mv⟩ := decoded.pack
      refine pack_tells ?_
      have bound := raw.toNat_lt
      rw [mv,UInt32.toNat_mul,UInt16.toNat_toUInt32,is]
      rw [is] at bound
      exact Nat.mod_eq_of_lt (by change _ * 10 < _; omega)
    case packMa =>
      obtain ⟨raw,is,ma⟩ := decoded.current
      have number := currentOf_number raw
      rw [is] at number
      have tells := clampMa_tells d.currentMa
      rw [ma,number] at tells
      unfold currentMaOf
      rw [← ma] at tells
      exact tells
    case cellMv => exact fun i within_ => decoded.cell_tells i within_ _ _ rfl rfl
    case cellTempC => exact fun i within_ => decoded.degrees_tell i within_ _ _ rfl rfl low
    case cycles => exact u16_tells decoded.cycles
    case capacity => exact u16_tells decoded.nominal
    case compared =>
      refine ⟨?_,fun i inside => (decoded.compared_iff i inside).mpr (low i inside)⟩
      rw [decoded.tempDc,List.length_map,List.length_range]

-- One cell at 3.4 V and one sensor at 25 C, at rest.
def oneCell (socHigh socLow : UInt8) : TdtFrame :=
  ⟨cmdCellsPack,[1,0x0D,0x48,1,0x0B,0xA5,0x00,0x00,0x05,0x2E,0x03,0xE8,0x03,0xE8,0x00,0x01,0x03,0xE8,socHigh,socLow]⟩

def oneCellRead (soc : UInt8) : BmsData :=
  {cellCount := 1,cellMv := [3400],tempCount := 1,tempDc := [250],packMv := 13260,currentMa := 0,socPct := soc,nominalDah := 1000,cycles := 1}

theorem bms_reading_true_iff_half_full : ReadTrue (oneCell 0x00 0x32) (oneCellRead 50) (fillBmsBlock ⟨true,oneCellRead 50,-60,1000⟩ 4000) :=
  (bms_reading_true_iff (oneCell 0x00 0x32) (oneCellRead 50) (-60) 1000 4000 (by decide +kernel)).mpr ⟨.inl (by decide),by decide +kernel⟩

-- A field of 356 reads as a full battery.
theorem soc_wraps_to_full : ¬∀ f d rssiDbm readMs nowMs, decodeCellsAndPack f = some d → ReadTrue f d (fillBmsBlock ⟨true,d,rssiDbm,readMs⟩ nowMs) := by
  intro all
  have told := (all (oneCell 0x01 0x64) (oneCellRead 100) (-60) 1000 4000 (by decide +kernel)).soc
  rcases told with hidden | told
  · exact absurd hidden (by decide +kernel)
  · exact absurd told (by decide +kernel)

end LoraRan.GateLink
