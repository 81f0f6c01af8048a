import Mathlib.Tactic.FinCases
import LoraRan.Library.LittleEndian

namespace LoraRan.Protocol
open Library.LittleEndian

abbrev Bytes := Library.LittleEndian.Bytes
abbrev NodeId := UInt8
abbrev SchemaId := UInt8
abbrev Seq := UInt16
abbrev CtxId := UInt32

def nodeBridge : NodeId := 0x00
def nodeGateLink : NodeId := 0x01
def nodeBroadcast : NodeId := 0xFF

def maxFrame : Nat := 222
def hdrLen : Nat := 16
def crcLen : Nat := 2
def macLen : Nat := 8
def maxPayloadAuth : Nat := maxFrame - hdrLen - macLen - crcLen
def maxPayloadPlain : Nat := maxFrame - hdrLen - crcLen
def maxSchemaPayload : Nat := maxPayloadAuth
def pingMaxEcho : Nat := maxPayloadPlain - 2
def minFrame : Nat := hdrLen + crcLen
def protoVer : UInt8 := 2
def maxFragments : UInt8 := 15
def nodeKeyLen : Nat := 32

def typeIsKnown (code : UInt8) : Bool := decide (0x01 ≤ code) && decide (code ≤ 0x0B)

-- The receiver casts any byte to the enumeration before it knows the type.
-- `reserved` holds exactly the bytes no named type owns, so the two directions below are inverse.
inductive MsgType where
  | command | commandAck | poll | status | event | error | ping | hexReq | hexRsp | config | configAck
  | reserved (code : UInt8) (unnamed : typeIsKnown code = false)
  deriving DecidableEq

def MsgType.code : MsgType → UInt8
  | .command => 0x01
  | .commandAck => 0x02
  | .poll => 0x03
  | .status => 0x04
  | .event => 0x05
  | .error => 0x06
  | .ping => 0x07
  | .hexReq => 0x08
  | .hexRsp => 0x09
  | .config => 0x0A
  | .configAck => 0x0B
  | .reserved code _ => code

def MsgType.ofCode (code : UInt8) : MsgType :=
  if unnamed : typeIsKnown code = false then .reserved code unnamed
  else match code with
    | 0x01 => .command
    | 0x02 => .commandAck
    | 0x03 => .poll
    | 0x04 => .status
    | 0x05 => .event
    | 0x06 => .error
    | 0x07 => .ping
    | 0x08 => .hexReq
    | 0x09 => .hexRsp
    | 0x0A => .config
    | _ => .configAck

theorem ofCode_code (type : MsgType) : MsgType.ofCode type.code = type := by
  cases type with
  | reserved code unnamed => simp [MsgType.code,MsgType.ofCode,unnamed]
  | _ => rfl

theorem code_ofCode (code : UInt8) : (MsgType.ofCode code).code = code := by
  by_cases unnamed : typeIsKnown code = false
  · simp [MsgType.ofCode,unnamed,MsgType.code]
  · have bounds : 0x01 ≤ code.toNat ∧ code.toNat ≤ 0x0B := by
      simpa [typeIsKnown,UInt8.le_iff_toNat_le] using unnamed
    obtain ⟨number,rfl⟩ : ∃ number : Nat, code = UInt8.ofNat number := ⟨code.toNat,by simp⟩
    have equal : (UInt8.ofNat number).toNat = number % 256 := by simp
    have listed : number % 256 ∈ [1,2,3,4,5,6,7,8,9,10,11] := by
      simp only [List.mem_cons,List.not_mem_nil,or_false]; omega
    have same : UInt8.ofNat number = UInt8.ofNat (number % 256) := by
      apply UInt8.toNat_inj.mp; simp
    rw [same]
    generalize number % 256 = reduced at listed
    fin_cases listed <;> rfl

-- Every verdict the receive path, the codec and the gate report.
inductive Status where
  | ok | runt | oversize | badCrc | badVersion | notAddressed | unknownHdrExt | badFrag | unknownType
  | unknownSchema | badLength | reassemblyTimeout | reassemblyAbandoned | fragLate | fragmentOverflow
  | notFragmentable | rejectedMac | rejectedCtx | unknownSrc | rejectedSeq | duplicateCached
  | duplicateInFlight | bufferTooSmall | missingMac | notImplemented
  deriving DecidableEq, Repr

def hdrFlagCriticalExt : UInt8 := 0x80

structure Header where
  ver : UInt8 := protoVer
  type : MsgType := .poll
  src : NodeId := 0
  dst : NodeId := 0
  seq : Seq := 0
  ctxId : CtxId := 0
  frag : UInt8 := 0x01
  schema : SchemaId := 0
  hdrFlags : UInt8 := 0
  reserved : UInt8 × UInt8 × UInt8 := (0,0,0)
  deriving DecidableEq

def Header.fragIndex (h : Header) : UInt8 := h.frag >>> 4

def Header.fragTotal (h : Header) : UInt8 := h.frag &&& 0x0F

def Header.criticalExt (h : Header) : Bool := h.hdrFlags &&& hdrFlagCriticalExt != 0

def Header.setFrag (h : Header) (index total : UInt8) : Header :=
  {h with frag := (index <<< 4) ||| (total &&& 0x0F)}

structure Frame where
  hdr : Header := {}
  payload : Bytes := []
  mac : Option Bytes := none
  macVerified : Bool := false
  deriving DecidableEq

-- Byte-addressed key material; its length belongs to the value.
structure NodeKey where
  bytes : Bytes
  length : bytes.length = nodeKeyLen

def zeroKey : NodeKey := ⟨List.replicate nodeKeyLen 0,List.length_replicate⟩

-- HMAC-SHA256 comes from the platform. Nothing below assumes more of it than the width of a truncated tag.
structure Mac where
  hmacSha256Trunc : NodeKey → Bytes → Bytes
  length : ∀ key data, (hmacSha256Trunc key data).length = macLen

theorem fragTotal_le (h : Header) : h.fragTotal ≤ maxFragments := by
  rw [UInt8.le_iff_toNat_le]
  simp only [Header.fragTotal,UInt8.toNat_and]
  exact Nat.and_le_right

end LoraRan.Protocol
