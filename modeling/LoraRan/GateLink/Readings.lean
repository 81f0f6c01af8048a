import LoraRan.GateLink.VedLink
import LoraRan.VeDirect.Mppt

namespace LoraRan.GateLink
open Library.Clock Protocol VeDirect

def i16NotAvailable : Int16 := Int16.minValue
def codeNotAvailable : UInt8 := 0xFF
def socNotAvailable : UInt8 := 0xFF
def tempNotAvailable : Int8 := Int8.minValue

def mpptFlagLoadOn : UInt8 := 0x01
def mpptFlagStale : UInt8 := 0x02
def mpptFlagHexPending : UInt8 := 0x04

-- The MPPT block of a STATUS, in its units. A stale snapshot keeps the last block's values.
structure MpptSnapshot where
  battMv : UInt16 := u16NotAvailable
  battMa : Int16 := i16NotAvailable
  pvCv : UInt16 := u16NotAvailable
  pvW : UInt16 := u16NotAvailable
  loadMa : Int16 := i16NotAvailable
  yieldToday : UInt16 := u16NotAvailable
  yieldYest : UInt16 := u16NotAvailable
  pmaxToday : UInt16 := u16NotAvailable
  yieldTotal : UInt32 := u32NotAvailable
  chargeState : UInt8 := codeNotAvailable
  mpptErr : UInt8 := codeNotAvailable
  mpptTracker : UInt8 := codeNotAvailable
  mpptFlags : UInt8 := mpptFlagStale
  mpptTempC10 : Int16 := i16NotAvailable
  deriving DecidableEq

-- A value its field cannot hold reads as the sentinel, not as a clipped number.

def toU16 (v : UInt32) : UInt16 := if v = u32NotAvailable ∨ u16NotAvailable.toNat ≤ v.toNat then u16NotAvailable else v.toUInt16

def toI16 (v : Int32) : Int16 :=
  if v = i32NotAvailable ∨ v.toInt ≤ Int16.minValue.toInt ∨ Int16.maxValue.toInt < v.toInt then i16NotAvailable else v.toInt16

def toCode (v : UInt16) : UInt8 := if codeNotAvailable.toNat ≤ v.toNat then codeNotAvailable else v.toUInt8

def mpptFromText (m : MpptText) : MpptSnapshot :=
  {battMv := toU16 m.battMv
   battMa := toI16 m.battMa
   pvCv := if m.pvMv = u32NotAvailable then u16NotAvailable else toU16 (m.pvMv / 10)
   pvW := toU16 m.pvW
   loadMa := toI16 m.loadMa
   yieldToday := toU16 m.yieldToday
   yieldYest := toU16 m.yieldYest
   pmaxToday := toU16 m.pmaxToday
   yieldTotal := m.yieldTotal
   chargeState := toCode m.chargeState
   mpptErr := toCode m.err
   mpptTracker := toCode m.tracker
   mpptFlags := 0}

-- The whole of the UART's owner: the text cache beside the HEX transaction. Of the counters, only the one a block moves.
structure VedUart where
  staleMs : UInt32 := 5000
  text : TextParser := {}
  blocksUnparsed : UInt32 := 0
  last : MpptSnapshot := {}
  loadOn : Bool := false
  haveBlock : Bool := false
  lastBlockMs : UInt32 := 0
  link : VedLink := {}
  deriving DecidableEq

def VedUart.feed (u : VedUart) (b : UInt8) (nowMs : UInt32) : VedUart :=
  let (event,text) := u.text.feed b
  let u := {u with text := text}
  match event with
  | .block =>
      let (unparsed,m) := decodeMppt text.block
      {u with
        blocksUnparsed := u.blocksUnparsed + UInt32.ofNat unparsed
        last := mpptFromText m
        loadOn := m.load == .on
        haveBlock := true
        lastBlockMs := nowMs}
  | .hexLine => {u with link := u.link.onHexLine text.hex}
  | .dropped | .none => u

def VedUart.setParams (u : VedUart) (hexTimeoutMs staleMs : UInt32) : VedUart :=
  {u with staleMs := staleMs,link := {u.link with hexTimeoutMs := hexTimeoutMs}}

def VedUart.stale (u : VedUart) (nowMs : UInt32) : Bool := !u.haveBlock || reached nowMs (u.lastBlockMs + u.staleMs)

def VedUart.mppt (u : VedUart) (nowMs : UInt32) : MpptSnapshot :=
  {u.last with mpptFlags :=
    (if u.haveBlock && u.loadOn then mpptFlagLoadOn else 0) ||| (if u.stale nowMs then mpptFlagStale else 0) |||
      (if u.link.active then mpptFlagHexPending else 0)}

def schemaCells : Nat := 4
def maxTemps : Nat := 8

-- Of a decoded read, what the STATUS and the charge watch use. The lists stand for the record's arrays from their start.
structure BmsData where
  cellCount : UInt8 := 0
  cellMv : List UInt16 := []
  tempCount : UInt8 := 0
  tempDc : List Int16 := []
  packMv : UInt32 := 0
  currentMa : Int32 := 0
  socPct : UInt8 := 0
  nominalDah : UInt16 := 0
  cycles : UInt16 := 0
  deriving DecidableEq

structure BmsSnapshot where
  have_ : Bool := false
  data : BmsData := {}
  rssiDbm : Int16 := 0
  readMs : UInt32 := 0
  deriving DecidableEq

def bmsFlagValid : UInt8 := 0x01
def bmsSocSourceBle : UInt8 := 0x00
def bmsSocSourceUnknown : UInt8 := 0xC0

-- The BMS block of a STATUS.
structure BmsBlock where
  bmsSoc : UInt8
  bmsFlags : UInt8
  packMv : UInt16
  packMa : Int16
  cellCount : UInt8
  bmsRssiNeg : UInt8
  cellMv : List UInt16
  cellTempC : List Int8
  bmsCycles : UInt16
  bmsCapacityDah : UInt16
  bmsAlarms : UInt16
  bmsAgeS : UInt16
  deriving DecidableEq

-- 0.1 C to whole degrees, rounded half away from zero. The division truncates.
def wholeC (dc : Int16) : Int8 :=
  let c := if 0 ≤ dc.toInt then (dc.toInt + 5).tdiv 10 else (dc.toInt - 5).tdiv 10
  if Int8.maxValue.toInt < c then Int8.maxValue
  else if c ≤ Int8.minValue.toInt then Int8.minValue + 1
  else Int8.ofInt c

-- int16 mA holds 32.7 A. Clamped, with the sentinel left free.
def clampMa (ma : Int32) : Int16 :=
  if Int16.maxValue.toInt < ma.toInt then Int16.maxValue
  else if ma.toInt ≤ Int16.minValue.toInt then Int16.minValue + 1
  else ma.toInt16

def fillBmsBlock (b : BmsSnapshot) (nowMs : UInt32) : BmsBlock :=
  if !b.have_ then
    {bmsSoc := socNotAvailable
     bmsFlags := bmsSocSourceUnknown
     packMv := u16NotAvailable
     packMa := i16NotAvailable
     cellCount := 0
     bmsRssiNeg := 0
     cellMv := List.replicate schemaCells u16NotAvailable
     cellTempC := List.replicate schemaCells tempNotAvailable
     bmsCycles := u16NotAvailable
     bmsCapacityDah := u16NotAvailable
     bmsAlarms := u16NotAvailable
     bmsAgeS := u16NotAvailable}
  else
    let d := b.data
    let ageS := (nowMs - b.readMs) / 1000
    {bmsSoc := if d.socPct ≤ 100 then d.socPct else socNotAvailable
     bmsFlags := bmsFlagValid ||| bmsSocSourceBle
     packMv := if d.packMv.toNat < u16NotAvailable.toNat then d.packMv.toUInt16 else u16NotAvailable - 1
     packMa := clampMa d.currentMa
     -- What the pack reported, even past the four this schema carries.
     cellCount := d.cellCount
     bmsRssiNeg := if b.rssiDbm.toInt < 0 ∧ -255 ≤ b.rssiDbm.toInt then UInt8.ofNat b.rssiDbm.toInt.natAbs else 0
     cellMv := (List.range schemaCells).map fun i => if i < d.cellCount.toNat then d.cellMv.getD i 0 else u16NotAvailable
     cellTempC := (List.range schemaCells).map fun i => if i < d.tempCount.toNat then wholeC (d.tempDc.getD i 0) else tempNotAvailable
     bmsCycles := d.cycles
     bmsCapacityDah := d.nominalDah
     bmsAlarms := u16NotAvailable
     bmsAgeS := if ageS.toNat < u16NotAvailable.toNat then ageS.toUInt16 else u16NotAvailable}

-- What a byte can do to the cache: a completed block replaces it whole, and nothing else touches its time.
theorem feed_cache (u : VedUart) (b : UInt8) (nowMs : UInt32) :
    ((u.text.feed b).1 = .block ∧ (u.feed b nowMs).haveBlock = true ∧ (u.feed b nowMs).lastBlockMs = nowMs) ∨
    ((u.text.feed b).1 ≠ .block ∧ (u.feed b nowMs).haveBlock = u.haveBlock ∧ (u.feed b nowMs).lastBlockMs = u.lastBlockMs) := by
  unfold VedUart.feed
  dsimp only
  cases kind : (u.text.feed b).1 with
  | block => exact .inl ⟨rfl,rfl,rfl⟩
  | hexLine => exact .inr ⟨by decide,rfl,rfl⟩
  | dropped => exact .inr ⟨by decide,rfl,rfl⟩
  | none => exact .inr ⟨by decide,rfl,rfl⟩

theorem mppt_stale_bit (u : VedUart) (nowMs : UInt32) : (u.mppt nowMs).mpptFlags &&& mpptFlagStale ≠ 0 ↔ u.stale nowMs = true := by
  simp only [VedUart.mppt]
  cases u.haveBlock && u.loadOn <;> cases u.stale nowMs <;> cases u.link.active <;> decide

end LoraRan.GateLink
