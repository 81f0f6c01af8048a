import LoraRan.VeDirect.Text

namespace LoraRan.VeDirect
open Protocol

-- The first value under a label. Labels are case-sensitive.
def findValue (block : List TextField) (label : Bytes) : Option Bytes :=
  (block.find? fun f => cString f.label == label).map fun f => cString f.value

def u32NotAvailable : UInt32 := 0xFFFFFFFF
def i32NotAvailable : Int32 := Int32.minValue
def u16NotAvailable : UInt16 := 0xFFFF

-- The value is checked at each digit, before it can outgrow its type.
def parseDigits (v : Nat) : Bytes → Option Nat
  | [] => some v
  | c :: rest =>
      if c < 0x30 ∨ 0x39 < c then none
      else if u32NotAvailable.toNat ≤ v * 10 + (c.toNat - 0x30) then none
      else parseDigits (v * 10 + (c.toNat - 0x30)) rest

def parseU32 (s : Bytes) : Option UInt32 := if s.isEmpty then none else (parseDigits 0 s).map UInt32.ofNat

-- The most negative value accepted is one above the sentinel.
def parseI32 (s : Bytes) : Option Int32 :=
  let neg := s.head? == some 0x2D
  match parseU32 (if neg then s.tail else s) with
  | none => none
  | some mag => if 0x7FFFFFFF < mag then none else some (if neg then -mag.toInt32 else mag.toInt32)

def parseU16 (s : Bytes) : Option UInt16 :=
  match parseU32 s with
  | none => none
  | some v => if u16NotAvailable.toNat ≤ v.toNat then none else some v.toUInt16

def parseHexDigits (v : UInt32) : Bytes → Option UInt32
  | [] => some v
  | c :: rest =>
      match hexNibble c with
      | none => none
      | some d => parseHexDigits ((v <<< 4) ||| d.toUInt32) rest

-- "0x" and one to four hex digits in either case.
def parseHex16 (s : Bytes) : Option UInt16 :=
  match s with
  | 0x30 :: x :: digits =>
      if (x ≠ 0x78 ∧ x ≠ 0x58) ∨ digits.isEmpty ∨ 4 < digits.length then none
      else match parseHexDigits 0 digits with
        | none => none
        | some v => if u16NotAvailable.toNat ≤ v.toNat then none else some v.toUInt16
  | _ => none

inductive LoadState where
  | off | on | notAvailable
  deriving DecidableEq, Repr

def parseLoad (s : Bytes) : Option LoadState :=
  if s = [0x4F,0x4E] then some .on else if s = [0x4F,0x46,0x46] then some .off else none

structure MpptText where
  pid : UInt16 := u16NotAvailable
  battMv : UInt32 := u32NotAvailable
  battMa : Int32 := i32NotAvailable
  pvMv : UInt32 := u32NotAvailable
  pvW : UInt32 := u32NotAvailable
  loadMa : Int32 := i32NotAvailable
  load : LoadState := .notAvailable
  chargeState : UInt16 := u16NotAvailable
  tracker : UInt16 := u16NotAvailable
  err : UInt16 := u16NotAvailable
  yieldTotal : UInt32 := u32NotAvailable
  yieldToday : UInt32 := u32NotAvailable
  pmaxToday : UInt32 := u32NotAvailable
  yieldYest : UInt32 := u32NotAvailable
  daySeq : UInt16 := u16NotAvailable
  deriving DecidableEq

-- A label that is absent and one whose value is refused both leave the sentinel; only the second counts.
def readLabel {α : Type} (block : List TextField) (parse : Bytes → Option α) (absent : α) (label : Bytes) : α × Nat :=
  match findValue block label with
  | none => (absent,0)
  | some v => match parse v with
    | none => (absent,1)
    | some x => (x,0)

def labelPid : Bytes := [0x50,0x49,0x44]
def labelV : Bytes := [0x56]
def labelI : Bytes := [0x49]
def labelVpv : Bytes := [0x56,0x50,0x56]
def labelPpv : Bytes := [0x50,0x50,0x56]
def labelIl : Bytes := [0x49,0x4C]
def labelLoad : Bytes := [0x4C,0x4F,0x41,0x44]
def labelCs : Bytes := [0x43,0x53]
def labelMppt : Bytes := [0x4D,0x50,0x50,0x54]
def labelErr : Bytes := [0x45,0x52,0x52]
def labelH19 : Bytes := [0x48,0x31,0x39]
def labelH20 : Bytes := [0x48,0x32,0x30]
def labelH21 : Bytes := [0x48,0x32,0x31]
def labelH22 : Bytes := [0x48,0x32,0x32]
def labelHsds : Bytes := [0x48,0x53,0x44,0x53]
def labelHsdsLower : Bytes := [0x48,0x73,0x64,0x73]

-- The readings of a block, and how many known labels carried a value that did not parse.
def decodeMppt (block : List TextField) : Nat × MpptText :=
  let u32 := readLabel block parseU32 u32NotAvailable
  let i32 := readLabel block parseI32 i32NotAvailable
  let u16 := readLabel block parseU16 u16NotAvailable
  let pid := readLabel block parseHex16 u16NotAvailable labelPid
  let load := readLabel block parseLoad .notAvailable labelLoad
  -- Both spellings of the day sequence are taken.
  let daySeq := u16 (if (findValue block labelHsds).isSome then labelHsds else labelHsdsLower)
  (pid.2 + (u32 labelV).2 + (i32 labelI).2 + (u32 labelVpv).2 + (u32 labelPpv).2 + (i32 labelIl).2 + load.2 + (u16 labelCs).2 +
      (u16 labelMppt).2 + (u16 labelErr).2 + (u32 labelH19).2 + (u32 labelH20).2 + (u32 labelH21).2 + (u32 labelH22).2 + daySeq.2,
    {pid := pid.1
     battMv := (u32 labelV).1
     battMa := (i32 labelI).1
     pvMv := (u32 labelVpv).1
     pvW := (u32 labelPpv).1
     loadMa := (i32 labelIl).1
     load := load.1
     chargeState := (u16 labelCs).1
     tracker := (u16 labelMppt).1
     err := (u16 labelErr).1
     yieldTotal := (u32 labelH19).1
     yieldToday := (u32 labelH20).1
     pmaxToday := (u32 labelH21).1
     yieldYest := (u32 labelH22).1
     daySeq := daySeq.1})

end LoraRan.VeDirect
