import LoraRan.Config.Store

namespace LoraRan.Config
open Protocol
open Library.LittleEndian (u8At u16At u32At u16Bytes u32Bytes)

def phyBlobVersion : UInt8 := 2
def phyBlobMax : Nat := 5 + phyGroupSize * 6

-- The PHY group's nonvolatile record. One blob, so one write carries the group and the trial marker together.
structure PhyBlob where
  trialOpen : Bool := false
  ackOwed : Bool := false
  ackRows : UInt16 := 0
  rows : List (UInt16 × Value) := []
  deriving DecidableEq

def PhyBlob.encode (b : PhyBlob) (cap : Nat) : Option Bytes :=
  if phyGroupSize < b.rows.length ∨ cap < 5 + b.rows.length * 6 then none
  else
    let flags : UInt8 := (if b.trialOpen then 0x01 else 0) ||| (if b.ackOwed then 0x02 else 0)
    some ([phyBlobVersion,flags] ++ u16Bytes b.ackRows ++ [UInt8.ofNat b.rows.length] ++
      b.rows.flatMap fun row => u16Bytes row.1 ++ u32Bytes row.2.toUInt32)

-- Version 1 has no ack_rows, so its entries start two bytes earlier.
def PhyBlob.decode (bytes : Bytes) : Option PhyBlob :=
  if bytes.length < 3 then none
  else
    let body (hdr : Nat) : Option (List (UInt16 × Value)) :=
      let n := (u8At bytes (hdr - 1)).toNat
      if phyGroupSize < n ∨ bytes.length ≠ hdr + n * 6 then none
      else some ((List.range n).map fun i => (u16At bytes (hdr + i * 6),(u32At bytes (hdr + 2 + i * 6)).toInt32))
    if u8At bytes 0 = 1 then (body 3).map fun rows => {trialOpen := u8At bytes 1 &&& 0x01 != 0,rows := rows}
    else if u8At bytes 0 = phyBlobVersion ∧ 5 ≤ bytes.length then
      (body 5).map fun rows =>
        {trialOpen := u8At bytes 1 &&& 0x01 != 0,ackOwed := u8At bytes 1 &&& 0x02 != 0,ackRows := u16At bytes 2,rows := rows}
    else none

end LoraRan.Config
