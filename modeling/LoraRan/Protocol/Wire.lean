import LoraRan.Protocol.Types

namespace LoraRan.Protocol
open Library.LittleEndian

-- The (type, schema) tables of the wire format. A reserved type answers as the source's `default` does.

def schemaGateLinkStatusV1 : SchemaId := 0x10
def schemaGateLinkEventV1 : SchemaId := 0x11
def schemaNodeConfigV1 : SchemaId := 0x12
def schemaGateLinkStatusV2 : SchemaId := 0x13
def schemaNodeHealthV1 : SchemaId := 0xF0
def schemaSimnodeStatusV1 : SchemaId := 0xFE

def typeCarriesSchema : MsgType → Bool
  | .status | .event | .config | .configAck => true
  | _ => false

def schemaIsKnown (type : MsgType) (schema : SchemaId) : Bool :=
  if !typeCarriesSchema type then true
  else match type with
    | .status => schema == schemaGateLinkStatusV1 || schema == schemaGateLinkStatusV2 ||
        schema == schemaNodeHealthV1 || schema == schemaSimnodeStatusV1
    | .event => schema == schemaGateLinkEventV1
    | .config | .configAck => schema == schemaNodeConfigV1
    | _ => false

-- `none` is the source's kVariableLen.
def fixedPayloadLen (type : MsgType) (schema : SchemaId) : Option Nat :=
  match type with
  | .command => some 4
  | .commandAck => some 6
  | .poll => some 1
  | .error => some 4
  | .ping | .hexReq | .hexRsp | .config | .configAck => none
  | .status | .event =>
      if schema == schemaGateLinkStatusV1 then some 78
      else if schema == schemaSimnodeStatusV1 then some 78
      else if schema == schemaGateLinkStatusV2 then some 80
      else if schema == schemaGateLinkEventV1 then some 16
      else if schema == schemaNodeHealthV1 then some 20
      else none
  | .reserved .. => none

def typeRequiresMac : MsgType → Bool
  | .command | .config => true
  | _ => false

def typeIsFragmentable : MsgType → Bool
  | .config | .configAck | .ping | .status | .event => true
  | _ => false

def defaultFragChunk (type : MsgType) : Nat :=
  if typeRequiresMac type then maxPayloadAuth else maxPayloadPlain

def reassemblyCap (type : MsgType) : Nat :=
  if type = .ping then maxPayloadPlain else maxSchemaPayload

def hexNibble (c : UInt8) : Option UInt8 :=
  if 0x30 ≤ c ∧ c ≤ 0x39 then some (c - 0x30)
  else if 0x41 ≤ c ∧ c ≤ 0x46 then some (c - 0x41 + 10)
  else if 0x61 ≤ c ∧ c ≤ 0x66 then some (c - 0x61 + 10)
  else none

def colon : UInt8 := 0x3A

-- Only the character after the leading colon decides; the rest of the string is not looked at.
def hexReqIsWriteClass (payload : Bytes) : Bool :=
  if payload.length < 4 then false
  else if u8At payload 1 < 2 ∨ payload.length < 2 + (u8At payload 1).toNat then false
  else if u8At payload 2 ≠ colon then false
  else match hexNibble (u8At payload 3) with
    | none => false
    | some nibble => nibble == 0x8 || nibble == 0x6

def frameHasMac (type : MsgType) (payload : Bytes) : Bool :=
  if typeRequiresMac type then true
  else if type = .hexReq then hexReqIsWriteClass payload
  else false

def frameLen (payloadLen : Nat) (hasMac : Bool) : Nat :=
  let total := hdrLen + payloadLen + (if hasMac then macLen else 0) + crcLen
  if maxFrame < total then 0 else total

-- The cursor over `count` records, each a fixed head whose last byte is the length of the value that follows.
def recordsEnd (headLen : Nat) (p : Bytes) : Nat → Nat → Option Nat
  | 0, off => some off
  | count+1, off =>
      if p.length < off + headLen then none
      else
        let vlen := (u8At p (off + headLen - 1)).toNat
        if p.length < off + headLen + vlen then none
        else recordsEnd headLen p count (off + headLen + vlen)

def configAckMoreFollows : UInt8 := 0x80

def checkVariablePayload (type : MsgType) (p : Bytes) : Status :=
  match type with
  | .ping =>
      if p.length < 2 then .badLength
      else if pingMaxEcho < (u8At p 1).toNat then .badLength
      else if p.length = 2 + (u8At p 1).toNat then .ok else .badLength
  | .hexReq | .hexRsp =>
      if p.length < 2 then .badLength
      else if p.length = 2 + (u8At p 1).toNat then .ok else .badLength
  | .config =>
      if p.length < 2 then .badLength
      else if recordsEnd 4 p (u8At p 1).toNat 2 = some p.length then .ok else .badLength
  | .configAck =>
      if p.length < 3 then .badLength
      else if recordsEnd 5 p (u8At p 2 &&& ~~~configAckMoreFollows).toNat 3 = some p.length then .ok else .badLength
  | _ => .ok

-- The length rule both directions of the codec apply: a fragment answers to the per-frame cap only, a single
-- frame to its (type, schema) row.
def checkPayloadLen (h : Header) (payload : Bytes) : Status :=
  if 1 < h.fragTotal then
    if payload.length = 0 ∨ reassemblyCap h.type < payload.length then .fragmentOverflow else .ok
  else match fixedPayloadLen h.type h.schema with
    | none => checkVariablePayload h.type payload
    | some want => if payload.length ≠ want then .badLength else .ok

theorem hexReq_not_fragmentable : typeIsFragmentable .hexReq = false := rfl

theorem frameLen_pos_iff (payloadLen : Nat) (hasMac : Bool) :
    frameLen payloadLen hasMac ≠ 0 ↔ hdrLen + payloadLen + (if hasMac then macLen else 0) + crcLen ≤ maxFrame := by
  have positive : 0 < hdrLen := by decide
  unfold frameLen
  generalize (if hasMac then macLen else 0) = tagLen
  dsimp only
  split <;> omega

theorem frameLen_eq (payloadLen : Nat) (hasMac : Bool) (fits : frameLen payloadLen hasMac ≠ 0) :
    frameLen payloadLen hasMac = hdrLen + payloadLen + (if hasMac then macLen else 0) + crcLen := by
  have bound := (frameLen_pos_iff payloadLen hasMac).mp fits
  unfold frameLen
  exact if_neg (by omega)

-- A well-formed HEX_REQ body states its own length.
theorem checkPayloadLen_hexReq (h : Header) (payload : Bytes) (hex : h.type = .hexReq)
    (single : ¬ 1 < h.fragTotal) (checked : checkPayloadLen h payload = .ok) :
    2 ≤ payload.length ∧ payload.length = 2 + (u8At payload 1).toNat := by
  unfold checkPayloadLen at checked
  rw [if_neg single,hex] at checked
  simp only [fixedPayloadLen,checkVariablePayload] at checked
  split at checked
  · cases checked
  · split at checked
    · exact ⟨by omega,by assumption⟩
    · cases checked

end LoraRan.Protocol
