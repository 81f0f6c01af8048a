import LoraRan.Protocol.Wire

namespace LoraRan.Protocol
open Library.LittleEndian

-- Command and result codes travel as raw bytes; a peer may send any value.
def cmdNop : UInt8 := 0x00
def cmdOpen : UInt8 := 0x01
def cmdClose : UInt8 := 0x02
def cmdHoldOpen : UInt8 := 0x03
def cmdReleaseHold : UInt8 := 0x04
def cmdRequestStatus : UInt8 := 0x10
def cmdRequestConfig : UInt8 := 0x11
def cmdRollContext : UInt8 := 0x12
def cmdSetDebugMode : UInt8 := 0x20
def cmdSetRelayDryRun : UInt8 := 0x21
def cmdSetBmsPolling : UInt8 := 0x22
def cmdReboot : UInt8 := 0x7F

def rebootGuard : UInt8 := 0xA5
def rollContextGuard : UInt8 := 0xA5

def isActuationCmd (cmd : UInt8) : Bool := decide (cmd ≤ 0x0F)

inductive AckResult where
  | accepted | rejectedMac | rejectedSeq | rejectedCtx | rejectedUnknownCmd | rejectedArg | rejectedNotSupported
  | duplicateCached | dryRun | actuatorBusy | rejectedUnsafe | actuatorFault
  deriving DecidableEq, Repr

def AckResult.code : AckResult → UInt8
  | .accepted => 0x00
  | .rejectedMac => 0x01
  | .rejectedSeq => 0x02
  | .rejectedCtx => 0x03
  | .rejectedUnknownCmd => 0x04
  | .rejectedArg => 0x05
  | .rejectedNotSupported => 0x06
  | .duplicateCached => 0x07
  | .dryRun => 0x10
  | .actuatorBusy => 0x11
  | .rejectedUnsafe => 0x12
  | .actuatorFault => 0x13

theorem AckResult.code_injective (a b : AckResult) (equal : a.code = b.code) : a = b := by
  cases a <;> cases b <;> first | rfl | exact absurd equal (by decide)

inductive HexStatus where
  | ok | timeout | rejectedUnauthenticated | busy | uartError | malformedRequest
  deriving DecidableEq, Repr

def HexStatus.code : HexStatus → UInt8
  | .ok => 0x00
  | .timeout => 0x01
  | .rejectedUnauthenticated => 0x02
  | .busy => 0x03
  | .uartError => 0x04
  | .malformedRequest => 0x05

theorem HexStatus.code_injective (a b : HexStatus) (equal : a.code = b.code) : a = b := by
  cases a <;> cases b <;> first | rfl | exact absurd equal (by decide)

structure Command where
  cmd : UInt8 := 0
  arg : UInt8 := 0
  arg2 : UInt16 := 0
  deriving DecidableEq

structure CommandAck where
  ackSeq : Seq := 0
  result : UInt8 := 0
  detail : UInt8 := 0
  deriving DecidableEq

structure HexReq where
  flags : UInt8 := 0
  hex : Bytes := []
  deriving DecidableEq

structure HexRsp where
  status : UInt8 := 0
  hex : Bytes := []
  deriving DecidableEq

def Command.serialize (v : Command) : Bytes := [v.cmd,v.arg] ++ u16Bytes v.arg2

def CommandAck.serialize (v : CommandAck) : Bytes := u16Bytes v.ackSeq ++ [v.result,v.detail,0,0]

def HexReq.serialize (v : HexReq) : Bytes := [v.flags,UInt8.ofNat v.hex.length] ++ v.hex

def HexRsp.serialize (v : HexRsp) : Bytes := [v.status,UInt8.ofNat v.hex.length] ++ v.hex

def Command.deserialize (payload : Bytes) : Option Command :=
  if payload.length ≠ 4 then none
  else some {cmd := u8At payload 0,arg := u8At payload 1,arg2 := u16At payload 2}

def CommandAck.deserialize (payload : Bytes) : Option CommandAck :=
  if payload.length ≠ 6 then none
  else some {ackSeq := u16At payload 0,result := u8At payload 2,detail := u8At payload 3}

def HexReq.deserialize (payload : Bytes) : Option HexReq :=
  if payload.length < 2 then none
  else if payload.length = 2 + (u8At payload 1).toNat then some {flags := u8At payload 0,hex := payload.drop 2}
  else none

def HexRsp.deserialize (payload : Bytes) : Option HexRsp :=
  if payload.length < 2 then none
  else if payload.length = 2 + (u8At payload 1).toNat then some {status := u8At payload 0,hex := payload.drop 2}
  else none

theorem Command.deserialize_serialize (v : Command) : Command.deserialize v.serialize = some v := by
  simp [Command.deserialize,Command.serialize,u16At,u16Bytes,u16Of_bytes]

theorem CommandAck.deserialize_serialize (v : CommandAck) : CommandAck.deserialize v.serialize = some v := by
  simp [CommandAck.deserialize,CommandAck.serialize,u16At,u16Bytes,u16Of_bytes]

theorem HexReq.deserialize_serialize (v : HexReq) (short : v.hex.length < 256) :
    HexReq.deserialize v.serialize = some v := by
  have length : (UInt8.ofNat v.hex.length).toNat = v.hex.length := by simp; omega
  simp only [HexReq.deserialize,HexReq.serialize,List.cons_append,List.nil_append,List.length_cons,u8At_cons_succ,
    u8At_cons_zero,length,List.drop_succ_cons,List.drop_zero]
  rw [if_neg (by omega),if_pos (by omega)]

theorem HexRsp.eq_of_deserialize {v w : HexRsp} (parsed : HexRsp.deserialize v.serialize = some w) : w = v := by
  unfold HexRsp.deserialize at parsed
  split at parsed; · cases parsed
  split at parsed
  · cases parsed
    rfl
  · cases parsed

end LoraRan.Protocol
