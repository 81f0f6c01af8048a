import LoraRan.Library.ByteStream
import LoraRan.Protocol.Messages

namespace LoraRan.Protocol
open Library.LittleEndian Library.CheckedReads Library.ByteStream

def gateLinkStatusV1Len : Nat := 78
def gateLinkStatusV2Len : Nat := 80
def gateLinkEventV1Len : Nat := 16
def nodeHealthV1Len : Nat := 20

namespace Sentinels

def u16NotAvailable : UInt16 := 0xFFFF
def u32NotAvailable : UInt32 := 0xFFFFFFFF
def i16NotAvailable : Int16 := -32768
def socNotAvailable : UInt8 := 0xFF

end Sentinels
open Sentinels

-- An array of kMaxCells readings.
@[ext] structure Cells (α : Type) where
  cell0 : α
  cell1 : α
  cell2 : α
  cell3 : α

@[ext] structure GateLinkStatusV1 where
  gateState : UInt8 := 0
  inputBits : UInt8 := 0
  hold : UInt8 := 0
  movementCause : UInt8 := 0
  lastDirection : UInt8 := 0
  detectFlags : UInt8 := 0
  lastTraversalAgeS : UInt32 := u32NotAvailable
  battMv : UInt16 := 0
  battMa : Int16 := 0
  pvCv : UInt16 := 0
  pvW : UInt16 := 0
  loadMa : Int16 := i16NotAvailable
  yieldToday : UInt16 := 0
  yieldYest : UInt16 := 0
  pmaxToday : UInt16 := 0
  yieldTotal : UInt32 := 0
  chargeState : UInt8 := 0
  mpptErr : UInt8 := 0
  mpptTracker : UInt8 := 0
  mpptFlags : UInt8 := 0
  mpptTempC10 : Int16 := i16NotAvailable
  bmsSoc : UInt8 := socNotAvailable
  bmsFlags : UInt8 := 0
  packMv : UInt16 := 0
  packMa : Int16 := 0
  cellCount : UInt8 := 0
  bmsRssiNeg : UInt8 := 0
  cellMv : Cells UInt16 := ⟨0,0,0,0⟩
  cellTempC : Cells Int8 := ⟨0,0,0,0⟩
  bmsCycles : UInt16 := 0
  bmsCapacityDah : UInt16 := 0
  bmsAlarms : UInt16 := 0
  bmsAgeS : UInt16 := u16NotAvailable
  uptimeS : UInt32 := 0
  bootCount : UInt16 := 0
  nodeMv : UInt16 := 0
  nodeMa : Int16 := 0
  enclosureTempC10 : Int16 := i16NotAvailable
  nodeFlags : UInt8 := 0
  statusReason : UInt8 := 0

-- Version 2 holds a version 1 and adds one field behind it.
@[ext] structure GateLinkStatusV2 where
  v1 : GateLinkStatusV1 := {}
  ahDrawnDah : UInt16 := u16NotAvailable

@[ext] structure GateLinkEventV1 where
  eventType : UInt8 := 0
  eventFlags : UInt8 := 0
  holdSource : UInt8 := 0
  direction : UInt8 := 0
  gateState : UInt8 := 0
  inputBits : UInt8 := 0
  detail : UInt16 := 0
  eventId : UInt32 := 0
  uptimeS : UInt32 := 0
  deriving DecidableEq

@[ext] structure NodeHealthV1 where
  uptimeS : UInt32 := 0
  bootCount : UInt16 := 0
  rxFrames : UInt16 := 0
  txFrames : UInt16 := 0
  rxDropped : UInt16 := 0
  cadBackoffs : UInt16 := 0
  lastRssiDbm : Int16 := i16NotAvailable
  lastSnrDb10 : Int16 := i16NotAvailable
  protoVer : UInt8 := Protocol.protoVer
  healthFlags : UInt8 := 0
  deriving DecidableEq

structure Poll where
  pollFlags : UInt8 := 0
  deriving DecidableEq

@[ext] structure ErrorMsg where
  errCode : UInt8 := 0
  detail : UInt8 := 0
  refSeq : Seq := 0
  deriving DecidableEq

structure Ping where
  pingFlags : UInt8 := 0
  data : Bytes := []
  deriving DecidableEq

def i8Bytes (value : Int8) : Bytes := [value.toUInt8]
def i16Bytes (value : Int16) : Bytes := u16Bytes value.toUInt16

-- The writes of each serializer, in the order it makes them.

def GateLinkStatusV1.chunks (v : GateLinkStatusV1) : List Bytes :=
  [[v.gateState],[v.inputBits],[v.hold],[v.movementCause],[v.lastDirection],[v.detectFlags],u32Bytes v.lastTraversalAgeS,
    u16Bytes v.battMv,i16Bytes v.battMa,u16Bytes v.pvCv,u16Bytes v.pvW,i16Bytes v.loadMa,u16Bytes v.yieldToday,u16Bytes v.yieldYest,
    u16Bytes v.pmaxToday,u32Bytes v.yieldTotal,[v.chargeState],[v.mpptErr],[v.mpptTracker],[v.mpptFlags],i16Bytes v.mpptTempC10,
    [v.bmsSoc],[v.bmsFlags],u16Bytes v.packMv,i16Bytes v.packMa,[v.cellCount],[v.bmsRssiNeg],
    u16Bytes v.cellMv.cell0,u16Bytes v.cellMv.cell1,u16Bytes v.cellMv.cell2,u16Bytes v.cellMv.cell3,
    i8Bytes v.cellTempC.cell0,i8Bytes v.cellTempC.cell1,i8Bytes v.cellTempC.cell2,i8Bytes v.cellTempC.cell3,
    u16Bytes v.bmsCycles,u16Bytes v.bmsCapacityDah,u16Bytes v.bmsAlarms,u16Bytes v.bmsAgeS,
    u32Bytes v.uptimeS,u16Bytes v.bootCount,u16Bytes v.nodeMv,i16Bytes v.nodeMa,i16Bytes v.enclosureTempC10,[v.nodeFlags],[v.statusReason]]

def GateLinkEventV1.chunks (v : GateLinkEventV1) : List Bytes :=
  [[v.eventType],[v.eventFlags],[v.holdSource],[v.direction],[v.gateState],[v.inputBits],u16Bytes v.detail,u32Bytes v.eventId,
    u32Bytes v.uptimeS]

def NodeHealthV1.chunks (v : NodeHealthV1) : List Bytes :=
  [u32Bytes v.uptimeS,u16Bytes v.bootCount,u16Bytes v.rxFrames,u16Bytes v.txFrames,u16Bytes v.rxDropped,u16Bytes v.cadBackoffs,
    i16Bytes v.lastRssiDbm,i16Bytes v.lastSnrDb10,[v.protoVer],[v.healthFlags]]

def Command.chunks (v : Command) : List Bytes := [[v.cmd],[v.arg],u16Bytes v.arg2]

-- The last two bytes are reserved and written zero.
def CommandAck.chunks (v : CommandAck) : List Bytes := [u16Bytes v.ackSeq,[v.result],[v.detail],List.replicate 2 0]

def Poll.chunks (v : Poll) : List Bytes := [[v.pollFlags]]

def ErrorMsg.chunks (v : ErrorMsg) : List Bytes := [[v.errCode],[v.detail],u16Bytes v.refSeq]

def Ping.chunks (v : Ping) : List Bytes := [[v.pingFlags],[UInt8.ofNat v.data.length],v.data]

def HexReq.chunks (v : HexReq) : List Bytes := [[v.flags],[UInt8.ofNat v.hex.length],v.hex]

def HexRsp.chunks (v : HexRsp) : List Bytes := [[v.status],[UInt8.ofNat v.hex.length],v.hex]

-- A message's serializer checks the writer once, at its end.
def serializeMessage (chunks : List Bytes) (cap : Nat) : Except Status Bytes :=
  let w := write cap chunks
  if !w.ok then .error .bufferTooSmall else .ok w.out

-- A schema's serializer asks for its whole length first, and checks it again at the end.
def serializeSchema (len : Nat) (chunks : List Bytes) (cap : Nat) : Except Status Bytes :=
  if cap < len then .error .bufferTooSmall
  else
    let w := write cap chunks
    if !w.ok || w.out.length != len then .error .bufferTooSmall else .ok w.out

def GateLinkStatusV1.serialize (v : GateLinkStatusV1) (cap : Nat) : Except Status Bytes := serializeSchema gateLinkStatusV1Len v.chunks cap

def GateLinkStatusV2.serialize (v : GateLinkStatusV2) (cap : Nat) : Except Status Bytes :=
  if cap < gateLinkStatusV2Len then .error .bufferTooSmall
  else match v.v1.serialize cap with
    | .error why => .error why
    | .ok head =>
        let w := write (cap - head.length) [u16Bytes v.ahDrawnDah]
        if !w.ok || head.length + w.out.length != gateLinkStatusV2Len then .error .bufferTooSmall else .ok (head ++ w.out)

def GateLinkEventV1.serialize (v : GateLinkEventV1) (cap : Nat) : Except Status Bytes := serializeSchema gateLinkEventV1Len v.chunks cap

def NodeHealthV1.serialize (v : NodeHealthV1) (cap : Nat) : Except Status Bytes := serializeSchema nodeHealthV1Len v.chunks cap

def Command.serializeTo (v : Command) (cap : Nat) : Except Status Bytes := serializeMessage v.chunks cap

def CommandAck.serializeTo (v : CommandAck) (cap : Nat) : Except Status Bytes := serializeMessage v.chunks cap

def Poll.serialize (v : Poll) (cap : Nat) : Except Status Bytes := serializeMessage v.chunks cap

def ErrorMsg.serialize (v : ErrorMsg) (cap : Nat) : Except Status Bytes := serializeMessage v.chunks cap

def Ping.serialize (v : Ping) (cap : Nat) : Except Status Bytes :=
  if pingMaxEcho < v.data.length then .error .badLength else serializeMessage v.chunks cap

def HexReq.serializeTo (v : HexReq) (cap : Nat) : Except Status Bytes := serializeMessage v.chunks cap

def HexRsp.serializeTo (v : HexRsp) (cap : Nat) : Except Status Bytes := serializeMessage v.chunks cap

-- The reads of each deserializer. `none` from a deserializer is a read outside the buffer it was given.

def GateLinkStatusV1.read : Reading GateLinkStatusV1 := do
  let gateState ← u8
  let inputBits ← u8
  let hold ← u8
  let movementCause ← u8
  let lastDirection ← u8
  let detectFlags ← u8
  let lastTraversalAgeS ← u32
  let battMv ← u16
  let battMa ← i16
  let pvCv ← u16
  let pvW ← u16
  let loadMa ← i16
  let yieldToday ← u16
  let yieldYest ← u16
  let pmaxToday ← u16
  let yieldTotal ← u32
  let chargeState ← u8
  let mpptErr ← u8
  let mpptTracker ← u8
  let mpptFlags ← u8
  let mpptTempC10 ← i16
  let bmsSoc ← u8
  let bmsFlags ← u8
  let packMv ← u16
  let packMa ← i16
  let cellCount ← u8
  let bmsRssiNeg ← u8
  let cellMv0 ← u16
  let cellMv1 ← u16
  let cellMv2 ← u16
  let cellMv3 ← u16
  let cellTempC0 ← i8
  let cellTempC1 ← i8
  let cellTempC2 ← i8
  let cellTempC3 ← i8
  let bmsCycles ← u16
  let bmsCapacityDah ← u16
  let bmsAlarms ← u16
  let bmsAgeS ← u16
  let uptimeS ← u32
  let bootCount ← u16
  let nodeMv ← u16
  let nodeMa ← i16
  let enclosureTempC10 ← i16
  let nodeFlags ← u8
  let statusReason ← u8
  return ⟨gateState,inputBits,hold,movementCause,lastDirection,detectFlags,lastTraversalAgeS,battMv,battMa,pvCv,pvW,loadMa,yieldToday,
    yieldYest,pmaxToday,yieldTotal,chargeState,mpptErr,mpptTracker,mpptFlags,mpptTempC10,bmsSoc,bmsFlags,packMv,packMa,cellCount,bmsRssiNeg,
    ⟨cellMv0,cellMv1,cellMv2,cellMv3⟩,⟨cellTempC0,cellTempC1,cellTempC2,cellTempC3⟩,bmsCycles,bmsCapacityDah,bmsAlarms,bmsAgeS,uptimeS,
    bootCount,nodeMv,nodeMa,enclosureTempC10,nodeFlags,statusReason⟩

def GateLinkEventV1.read : Reading GateLinkEventV1 := do
  let eventType ← u8
  let eventFlags ← u8
  let holdSource ← u8
  let direction ← u8
  let gateState ← u8
  let inputBits ← u8
  let detail ← u16
  let eventId ← u32
  let uptimeS ← u32
  return ⟨eventType,eventFlags,holdSource,direction,gateState,inputBits,detail,eventId,uptimeS⟩

def NodeHealthV1.read : Reading NodeHealthV1 := do
  let uptimeS ← u32
  let bootCount ← u16
  let rxFrames ← u16
  let txFrames ← u16
  let rxDropped ← u16
  let cadBackoffs ← u16
  let lastRssiDbm ← i16
  let lastSnrDb10 ← i16
  let protoVer ← u8
  let healthFlags ← u8
  return ⟨uptimeS,bootCount,rxFrames,txFrames,rxDropped,cadBackoffs,lastRssiDbm,lastSnrDb10,protoVer,healthFlags⟩

def Command.read : Reading Command := do
  let cmd ← u8
  let arg ← u8
  let arg2 ← u16
  return ⟨cmd,arg,arg2⟩

def CommandAck.read : Reading CommandAck := do
  let ackSeq ← u16
  let result ← u8
  let detail ← u8
  skip 2
  return ⟨ackSeq,result,detail⟩

def ErrorMsg.read : Reading ErrorMsg := do
  let errCode ← u8
  let detail ← u8
  let refSeq ← u16
  return ⟨errCode,detail,refSeq⟩

-- A message's deserializer asks the reader once, at its end.
def deserializeMessage {α : Type} (len : Nat) (read : Reading α) (mem : Memory) (given : Nat) : Option (Except Status α) :=
  if given ≠ len then some (.error .badLength)
  else match read {mem := mem,len := given} with
    | none => none
    | some (v,r) => some (if r.ok then .ok v else .error .badLength)

-- A schema's also checks that the whole length was read.
def deserializeSchema {α : Type} (len : Nat) (read : Reading α) (mem : Memory) (given : Nat) : Option (Except Status α) :=
  if given ≠ len then some (.error .badLength)
  else match read {mem := mem,len := given} with
    | none => none
    | some (v,r) => some (if r.ok && r.pos == len then .ok v else .error .badLength)

def GateLinkStatusV1.deserialize : Memory → Nat → Option (Except Status GateLinkStatusV1) := deserializeSchema gateLinkStatusV1Len read

-- The version 1 in front is read as its own buffer, and what follows it as another.
def GateLinkStatusV2.deserialize (mem : Memory) (given : Nat) : Option (Except Status GateLinkStatusV2) :=
  if given ≠ gateLinkStatusV2Len then some (.error .badLength)
  else match GateLinkStatusV1.deserialize mem gateLinkStatusV1Len with
    | none => none
    | some (.error why) => some (.error why)
    | some (.ok v1) =>
        match u16 {mem := fun i => mem (gateLinkStatusV1Len + i),len := given - gateLinkStatusV1Len} with
        | none => none
        | some (ahDrawnDah,r) =>
            some (if r.ok && r.pos == given - gateLinkStatusV1Len then .ok ⟨v1,ahDrawnDah⟩ else .error .badLength)

def GateLinkEventV1.deserialize : Memory → Nat → Option (Except Status GateLinkEventV1) := deserializeSchema gateLinkEventV1Len read

def NodeHealthV1.deserialize : Memory → Nat → Option (Except Status NodeHealthV1) := deserializeSchema nodeHealthV1Len read

def Command.deserializeIn : Memory → Nat → Option (Except Status Command) := deserializeMessage 4 read

def CommandAck.deserializeIn : Memory → Nat → Option (Except Status CommandAck) := deserializeMessage 6 read

def Poll.deserialize (mem : Memory) (given : Nat) : Option (Except Status Poll) :=
  if given ≠ 1 then some (.error .badLength) else (mem 0).map fun flags => .ok ⟨flags⟩

def ErrorMsg.deserialize : Memory → Nat → Option (Except Status ErrorMsg) := deserializeMessage 4 read

-- The two header bytes and a view of what follows them. The view is fetched whole where the source keeps a pointer.
def deserializeView {α : Type} (most : Nat) (make : UInt8 → Bytes → α) (mem : Memory) (given : Nat) : Option (Except Status α) :=
  if given < 2 then some (.error .badLength)
  else do
    let flags ← mem 0
    let n ← mem 1
    if most < n.toNat then return .error .badLength
    else if given ≠ 2 + n.toNat then return .error .badLength
    else
      let view ← readRange mem 2 n.toNat
      return .ok (make flags view)

def Ping.deserialize : Memory → Nat → Option (Except Status Ping) := deserializeView pingMaxEcho fun flags data => ⟨flags,data⟩

-- A byte bounds the length of a HEX string, and nothing else does.
def HexReq.deserializeIn : Memory → Nat → Option (Except Status HexReq) := deserializeView 255 fun flags hex => ⟨flags,hex⟩

def HexRsp.deserializeIn : Memory → Nat → Option (Except Status HexRsp) := deserializeView 255 fun status hex => ⟨status,hex⟩

end LoraRan.Protocol
