import LoraRan.Protocol.Wire

namespace LoraRan.Protocol
open Library.LittleEndian

-- Operation, type and status codes travel as raw bytes; a peer may send any value.
def configOpSet : UInt8 := 0x01
def configOpGet : UInt8 := 0x02
def configOpGetAll : UInt8 := 0x03
def configOpRestoreDefaults : UInt8 := 0x04

def ptypeU8 : UInt8 := 0x01
def ptypeU16 : UInt8 := 0x02
def ptypeU32 : UInt8 := 0x03
def ptypeI16 : UInt8 := 0x04
def ptypeI32 : UInt8 := 0x05
def ptypeBool : UInt8 := 0x06

inductive PersistStatus where
  | persisted | appliedNotPersisted | notApplied
  deriving DecidableEq, Repr

def PersistStatus.code : PersistStatus → UInt8
  | .persisted => 0x00
  | .appliedNotPersisted => 0x01
  | .notApplied => 0x02

inductive ParamStatus where
  | ok | unknownParam | clamped | typeMismatch | readOnly | invalidValue
  deriving DecidableEq, Repr

def ParamStatus.code : ParamStatus → UInt8
  | .ok => 0x00
  | .unknownParam => 0x01
  | .clamped => 0x02
  | .typeMismatch => 0x03
  | .readOnly => 0x04
  | .invalidValue => 0x05

def maxParamValueLen : Nat := 4
def configEntryHdrLen : Nat := 4
def configAckEntryHdrLen : Nat := 5
def configHdrLen : Nat := 2
def configAckHdrLen : Nat := 3
def maxConfigEntries : Nat := (maxSchemaPayload - configHdrLen) / (configEntryHdrLen + 1)
def maxConfigAckEntries : Nat := (maxSchemaPayload - configAckHdrLen) / (configAckEntryHdrLen + 1)
def configStatusOverride : UInt8 := 0x80
def maxConfigAckMessages : Nat := 4

def zeroValue : Bytes := List.replicate maxParamValueLen 0

-- `len` is the length on the wire; the value is held only when it fits its four bytes.
structure ConfigEntry where
  paramId : UInt16 := 0
  ptype : UInt8 := ptypeU8
  len : UInt8 := 0
  value : Bytes := zeroValue
  deriving DecidableEq

structure ConfigAckEntry where
  paramId : UInt16 := 0
  status : UInt8 := ParamStatus.ok.code
  isOverride : Bool := false
  ptype : UInt8 := ptypeU8
  len : UInt8 := 0
  value : Bytes := zeroValue
  deriving DecidableEq

structure NodeConfigV1 where
  op : UInt8 := configOpGet
  entries : List ConfigEntry := []
  deriving DecidableEq

structure NodeConfigAckV1 where
  op : UInt8 := configOpGet
  moreFollows : Bool := false
  persistStatus : UInt8 := PersistStatus.persisted.code
  entries : List ConfigAckEntry := []
  deriving DecidableEq

def paramValueLen (ptype : UInt8) : Nat :=
  if ptype = ptypeU8 ∨ ptype = ptypeBool then 1
  else if ptype = ptypeU16 ∨ ptype = ptypeI16 then 2
  else if ptype = ptypeU32 ∨ ptype = ptypeI32 then 4
  else 0

def packValue (n : Nat) (raw : UInt32) : Bytes := (u32Bytes raw).take n ++ List.replicate (maxParamValueLen - n) 0

-- The source leaves an entry of an unknown type as it was.
def ConfigAckEntry.pack (e : ConfigAckEntry) (paramId : UInt16) (status : ParamStatus) (ptype : UInt8) (raw : UInt32) :
    ConfigAckEntry :=
  let n := paramValueLen ptype
  if n = 0 then e
  else {paramId := paramId,status := status.code,isOverride := false,ptype := ptype,len := UInt8.ofNat n,value := packValue n raw}

def ConfigEntry.pack (e : ConfigEntry) (paramId : UInt16) (ptype : UInt8) (raw : UInt32) : ConfigEntry :=
  let n := paramValueLen ptype
  if n = 0 then e else {paramId := paramId,ptype := ptype,len := UInt8.ofNat n,value := packValue n raw}

def entryRaw (value : Bytes) (len : UInt8) : UInt32 :=
  let v := value.take (min len.toNat maxParamValueLen)
  u32Of (u8At v 0) (u8At v 1) (u8At v 2) (u8At v 3)

def entrySigned (value : Bytes) (len : UInt8) (ptype : UInt8) : Int32 :=
  let raw := entryRaw value len
  if ptype = ptypeI16 then raw.toUInt16.toInt16.toInt32 else raw.toInt32

def ConfigEntry.serialize (e : ConfigEntry) : Bytes := u16Bytes e.paramId ++ [e.ptype,e.len] ++ e.value.take e.len.toNat

def NodeConfigV1.serialize (v : NodeConfigV1) : Option Bytes :=
  if maxConfigEntries < v.entries.length ∨ v.entries.any (fun e => decide (maxParamValueLen < e.len.toNat)) then none
  else
    let bytes := [v.op,UInt8.ofNat v.entries.length] ++ v.entries.flatMap ConfigEntry.serialize
    if maxSchemaPayload < bytes.length then none else some bytes

-- A value wider than the entry holds costs the entry, not the frame.
def readConfigEntries (buf : Bytes) : Nat → Nat → Option (List ConfigEntry × Nat)
  | 0, off => some ([],off)
  | count+1, off =>
      if buf.length < off + configEntryHdrLen then none
      else
        let len := u8At buf (off + 3)
        if buf.length < off + configEntryHdrLen + len.toNat then none
        else
          let bytes := (buf.drop (off + configEntryHdrLen)).take len.toNat
          let value := if maxParamValueLen < len.toNat then zeroValue
            else bytes ++ List.replicate (maxParamValueLen - len.toNat) 0
          match readConfigEntries buf count (off + configEntryHdrLen + len.toNat) with
          | none => none
          | some (rest,finish) => some ({paramId := u16At buf off,ptype := u8At buf (off + 2),len := len,value := value} :: rest,finish)

def NodeConfigV1.deserialize (buf : Bytes) : Option NodeConfigV1 :=
  if buf.length < configHdrLen then none
  else if maxConfigEntries < (u8At buf 1).toNat then none
  else match readConfigEntries buf (u8At buf 1).toNat configHdrLen with
    | none => none
    | some (entries,finish) => if finish = buf.length then some {op := u8At buf 0,entries := entries} else none

def ConfigAckEntry.serialize (e : ConfigAckEntry) : Bytes :=
  u16Bytes e.paramId ++
    [(e.status &&& ~~~configStatusOverride) ||| (if e.isOverride then configStatusOverride else 0),e.ptype,e.len] ++
    e.value.take e.len.toNat

def NodeConfigAckV1.serialize (v : NodeConfigAckV1) : Option Bytes :=
  if maxConfigAckEntries < v.entries.length ∨ v.entries.any (fun e => decide (maxParamValueLen < e.len.toNat)) then none
  else
    let bytes := [v.op,v.persistStatus,UInt8.ofNat v.entries.length ||| (if v.moreFollows then configAckMoreFollows else 0)] ++
      v.entries.flatMap ConfigAckEntry.serialize
    if maxSchemaPayload < bytes.length then none else some bytes

end LoraRan.Protocol
