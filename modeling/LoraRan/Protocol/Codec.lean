import LoraRan.Protocol.Wire

namespace LoraRan.Protocol
open Library.LittleEndian

def crcShift (crc : UInt16) : UInt16 :=
  if crc &&& 0x8000 ≠ 0 then (crc <<< 1) ^^^ 0x1021 else crc <<< 1

def crcByte (crc : UInt16) (byte : UInt8) : UInt16 :=
  Nat.repeat crcShift 8 (crc ^^^ (byte.toUInt16 <<< 8))

def crc16CcittFalse (data : Bytes) : UInt16 := data.foldl crcByte 0xFFFF

def ctEqual (a b : Bytes) : Bool := (List.zipWith (· ^^^ ·) a b).foldl (· ||| ·) 0 == 0

structure DecodeCtx where
  self : NodeId := nodeBridge
  acceptVerMin : UInt8 := protoVer
  acceptVerMax : UInt8 := protoVer
  mac : Option Mac := none
  nodeKey : Option NodeKey := none
  expectCtxId : CtxId := 0

structure EncodeCtx where
  mac : Option Mac := none
  nodeKey : Option NodeKey := none

-- Bits 6:0 of the flags and the three reserved bytes are written zero whatever the caller holds there.
def writeHeader (h : Header) : Bytes :=
  [h.ver,h.type.code,h.src,h.dst] ++ u16Bytes h.seq ++ u32Bytes h.ctxId ++
    [h.frag,h.schema,h.hdrFlags &&& hdrFlagCriticalExt,0,0,0]

def readHeader (buf : Bytes) : Header where
  ver := u8At buf 0
  type := MsgType.ofCode (u8At buf 1)
  src := u8At buf 2
  dst := u8At buf 3
  seq := u16At buf 4
  ctxId := u32At buf 6
  frag := u8At buf 10
  schema := u8At buf 11
  hdrFlags := u8At buf 12
  reserved := (u8At buf 13,u8At buf 14,u8At buf 15)

def decodeHeader (buf : Bytes) (ctx : DecodeCtx) : Status × Frame :=
  if buf.length < minFrame then (.runt,{})
  else if maxFrame < buf.length then (.oversize,{})
  else if crc16CcittFalse (buf.take (buf.length - crcLen)) ≠ u16At buf (buf.length - 2) then (.badCrc,{})
  else
    let hdr := readHeader buf
    let out : Frame := {hdr := hdr}
    if hdr.ver < ctx.acceptVerMin ∨ ctx.acceptVerMax < hdr.ver then (.badVersion,out)
    else if hdr.dst ≠ ctx.self ∧ hdr.dst ≠ nodeBroadcast then (.notAddressed,out)
    else if hdr.criticalExt then (.unknownHdrExt,out)
    else if hdr.fragTotal = 0 then (.badFrag,out)
    else if hdr.fragTotal ≤ hdr.fragIndex then (.fragmentOverflow,out)
    else if !typeIsKnown hdr.type.code then (.unknownType,out)
    else (.ok,out)

-- Where the payload ends and whether a MAC follows it, before the payload itself is judged.
-- HEX_REQ alone carries the boundary in its own second byte.
def payloadBoundary (h : Header) (buf : Bytes) : Except Status (Bool × Nat) :=
  let bodyLen := buf.length - hdrLen - crcLen
  if h.type = .hexReq then
    if 1 < h.fragTotal then .error .notFragmentable
    else if bodyLen < 2 then .error .badLength
    else
      let payloadLen := 2 + (u8At buf (hdrLen + 1)).toNat
      if bodyLen < payloadLen then .error .badLength
      else if bodyLen - payloadLen = macLen then .ok (true,payloadLen)
      else if bodyLen - payloadLen ≠ 0 then .error .badLength
      else .ok (typeRequiresMac h.type,payloadLen)
  else
    let macPresent := typeRequiresMac h.type
    if macPresent ∧ bodyLen < macLen then .error .badLength
    else .ok (macPresent,bodyLen - (if macPresent then macLen else 0))

-- Stage 9: context before MAC. `covered` is the header and payload as received.
def authenticate (ctx : DecodeCtx) (covered : Bytes) (frame : Frame) : Status × Frame :=
  if ctx.expectCtxId ≠ 0 ∧ frameHasMac frame.hdr.type frame.payload ∧ frame.hdr.ctxId ≠ ctx.expectCtxId then
    (.rejectedCtx,frame)
  else if frame.hdr.type = .hexReq ∧ frame.mac = none ∧ hexReqIsWriteClass frame.payload then (.rejectedMac,frame)
  else match frame.mac,ctx.mac,ctx.nodeKey with
    | some tag,some mac,some key =>
        if ctEqual (mac.hmacSha256Trunc key covered) tag then (.ok,{frame with macVerified := true})
        else (.rejectedMac,frame)
    | _,_,_ => (.ok,frame)

def decodePayload (buf : Bytes) (ctx : DecodeCtx) (inout : Frame) : Status × Frame :=
  let h := inout.hdr
  if buf.length < minFrame ∨ maxFrame < buf.length then (.runt,inout)
  else if h.fragTotal = 0 then (.badFrag,inout)
  else if maxFragments < h.fragTotal ∨ h.fragTotal ≤ h.fragIndex then (.fragmentOverflow,inout)
  else match payloadBoundary h buf with
    | .error failure => (failure,inout)
    | .ok (macPresent,payloadLen) =>
        let payload := (buf.drop hdrLen).take payloadLen
        if !schemaIsKnown h.type h.schema then (.unknownSchema,inout)
        else if 1 < h.fragTotal ∧ !typeIsFragmentable h.type then (.notFragmentable,inout)
        else if checkPayloadLen h payload ≠ .ok then (checkPayloadLen h payload,inout)
        else
          let mac := if macPresent then some ((buf.drop (hdrLen + payloadLen)).take macLen) else none
          authenticate ctx (buf.take (hdrLen + payloadLen)) {inout with payload := payload,mac := mac}

-- The MAC field of an outgoing frame: empty where none is due, `none` where one is due and cannot be made.
def macField (ctx : EncodeCtx) (present : Bool) (covered : Bytes) : Option Bytes :=
  if present then
    match ctx.mac,ctx.nodeKey with
    | some mac,some key => some (mac.hmacSha256Trunc key covered)
    | _,_ => none
  else some []

def withCrc (body : Bytes) : Bytes := body ++ u16Bytes (crc16CcittFalse body)

def encode (hdr : Header) (payload : Bytes) (ctx : EncodeCtx) (bufCap : Nat) : Except Status Bytes :=
  if !typeIsKnown hdr.type.code then .error .unknownType
  else if hdr.fragTotal = 0 then .error .badFrag
  else if maxFragments < hdr.fragTotal ∨ hdr.fragTotal ≤ hdr.fragIndex then .error .fragmentOverflow
  else if 1 < hdr.fragTotal ∧ !typeIsFragmentable hdr.type then .error .notFragmentable
  else if !schemaIsKnown hdr.type hdr.schema then .error .unknownSchema
  else if checkPayloadLen hdr payload ≠ .ok then .error (checkPayloadLen hdr payload)
  else
    let macPresent := frameHasMac hdr.type payload
    let total := frameLen payload.length macPresent
    if total = 0 then .error .badLength
    else if bufCap < total then .error .bufferTooSmall
    else match macField ctx macPresent (writeHeader hdr ++ payload) with
      | none => .error .missingMac
      | some tag => .ok (withCrc (writeHeader hdr ++ payload ++ tag))

def fragmentCount (payloadLen chunk : Nat) : Nat :=
  if chunk = 0 then 0
  else if payloadLen = 0 then 1
  else
    let n := (payloadLen + chunk - 1) / chunk
    if maxFragments.toNat < n then 0 else n

def encodeFragment (hdr : Header) (payload : Bytes) (index : UInt8) (fragChunk : Nat) (ctx : EncodeCtx)
    (bufCap : Nat) : Except Status Bytes :=
  if !typeIsKnown hdr.type.code then .error .unknownType
  else
    let chunk := if fragChunk = 0 then defaultFragChunk hdr.type else fragChunk
    let total := fragmentCount payload.length chunk
    if total = 0 then .error .fragmentOverflow
    else if total ≤ index.toNat then .error .fragmentOverflow
    else if 1 < total ∧ !typeIsFragmentable hdr.type then .error .notFragmentable
    else encode (hdr.setFrag index (UInt8.ofNat total)) ((payload.drop (index.toNat * chunk)).take chunk) ctx bufCap

end LoraRan.Protocol
