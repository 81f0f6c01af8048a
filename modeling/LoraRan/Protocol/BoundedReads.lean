import LoraRan.Library.CheckedReads
import LoraRan.Protocol.RoundTrip

namespace LoraRan.Protocol
open Library.CheckedReads Library.Staging
open Library.LittleEndian (u8At u16At)

-- The decoder once more, with each byte it looks at fetched by itself. A frame's payload and tag are fetched whole where the
-- source keeps a pointer, so the reads here cover the source's.

def readHeaderIn (mem : Memory) : Option Header := do
  let ver ← mem 0
  let type ← mem 1
  let src ← mem 2
  let dst ← mem 3
  let seq ← readU16 mem 4
  let ctxId ← readU32 mem 6
  let frag ← mem 10
  let schema ← mem 11
  let hdrFlags ← mem 12
  let first ← mem 13
  let second ← mem 14
  let third ← mem 15
  return ⟨ver,MsgType.ofCode type,src,dst,seq,ctxId,frag,schema,hdrFlags,(first,second,third)⟩

def decodeHeaderIn (mem : Memory) (len : Nat) (ctx : DecodeCtx) : Option (Status × Frame) :=
  if len < minFrame then some (.runt,{})
  else if maxFrame < len then some (.oversize,{})
  else do
    let covered ← readRange mem 0 (len - crcLen)
    let got ← readU16 mem (len - 2)
    if crc16CcittFalse covered ≠ got then return (.badCrc,{})
    else
      let hdr ← readHeaderIn mem
      let out : Frame := {hdr := hdr}
      if hdr.ver < ctx.acceptVerMin ∨ ctx.acceptVerMax < hdr.ver then return (.badVersion,out)
      else if hdr.dst ≠ ctx.self ∧ hdr.dst ≠ nodeBroadcast then return (.notAddressed,out)
      else if hdr.criticalExt then return (.unknownHdrExt,out)
      else if hdr.fragTotal = 0 then return (.badFrag,out)
      else if hdr.fragTotal ≤ hdr.fragIndex then return (.fragmentOverflow,out)
      else if !typeIsKnown hdr.type.code then return (.unknownType,out)
      else return (.ok,out)

-- `base` is where the payload starts and `len` is its length.
def hexReqIsWriteClassIn (mem : Memory) (base len : Nat) : Option Bool :=
  if len < 4 then some false
  else do
    let n ← mem (base + 1)
    if n < 2 ∨ len < 2 + n.toNat then return false
    else
      let lead ← mem (base + 2)
      if lead ≠ colon then return false
      else
        let c ← mem (base + 3)
        match hexNibble c with
        | none => return false
        | some nibble => return nibble == 0x8 || nibble == 0x6

def frameHasMacIn (type : MsgType) (mem : Memory) (base len : Nat) : Option Bool :=
  if typeRequiresMac type then some true
  else if type = .hexReq then hexReqIsWriteClassIn mem base len
  else some false

def recordsEndIn (headLen : Nat) (mem : Memory) (base len : Nat) : Nat → Nat → Option (Option Nat)
  | 0, off => some (some off)
  | count+1, off =>
      if len < off + headLen then some none
      else do
        let vlen ← mem (base + (off + headLen - 1))
        if len < off + headLen + vlen.toNat then return none
        else recordsEndIn headLen mem base len count (off + headLen + vlen.toNat)

def checkVariablePayloadIn (type : MsgType) (mem : Memory) (base len : Nat) : Option Status :=
  match type with
  | .ping =>
      if len < 2 then some .badLength
      else do
        let n ← mem (base + 1)
        if pingMaxEcho < n.toNat then return .badLength
        else return if len = 2 + n.toNat then .ok else .badLength
  | .hexReq | .hexRsp =>
      if len < 2 then some .badLength
      else do
        let n ← mem (base + 1)
        return if len = 2 + n.toNat then .ok else .badLength
  | .config =>
      if len < 2 then some .badLength
      else do
        let count ← mem (base + 1)
        let finish ← recordsEndIn 4 mem base len count.toNat 2
        return if finish = some len then .ok else .badLength
  | .configAck =>
      if len < 3 then some .badLength
      else do
        let count ← mem (base + 2)
        let finish ← recordsEndIn 5 mem base len (count &&& ~~~configAckMoreFollows).toNat 3
        return if finish = some len then .ok else .badLength
  | _ => some .ok

def checkPayloadLenIn (h : Header) (mem : Memory) (base len : Nat) : Option Status :=
  if 1 < h.fragTotal then some (if len = 0 ∨ reassemblyCap h.type < len then .fragmentOverflow else .ok)
  else match fixedPayloadLen h.type h.schema with
    | none => checkVariablePayloadIn h.type mem base len
    | some want => some (if len ≠ want then .badLength else .ok)

def payloadBoundaryIn (h : Header) (mem : Memory) (len : Nat) : Option (Except Status (Bool × Nat)) :=
  let bodyLen := len - hdrLen - crcLen
  if h.type = .hexReq then
    if 1 < h.fragTotal then some (.error .notFragmentable)
    else if bodyLen < 2 then some (.error .badLength)
    else do
      let n ← mem (hdrLen + 1)
      let payloadLen := 2 + n.toNat
      if bodyLen < payloadLen then return .error .badLength
      else if bodyLen - payloadLen = macLen then return .ok (true,payloadLen)
      else if bodyLen - payloadLen ≠ 0 then return .error .badLength
      else return .ok (typeRequiresMac h.type,payloadLen)
  else
    let macPresent := typeRequiresMac h.type
    if macPresent ∧ bodyLen < macLen then some (.error .badLength)
    else some (.ok (macPresent,bodyLen - (if macPresent then macLen else 0)))

def authenticateIn (ctx : DecodeCtx) (mem : Memory) (payloadLen : Nat) (frame : Frame) : Option (Status × Frame) := do
  let authenticated ← frameHasMacIn frame.hdr.type mem hdrLen payloadLen
  if ctx.expectCtxId ≠ 0 ∧ authenticated ∧ frame.hdr.ctxId ≠ ctx.expectCtxId then return (.rejectedCtx,frame)
  else
    let written ← hexReqIsWriteClassIn mem hdrLen payloadLen
    if frame.hdr.type = .hexReq ∧ frame.mac = none ∧ written then return (.rejectedMac,frame)
    else match frame.mac,ctx.mac,ctx.nodeKey with
      | some tag,some mac,some key =>
          let covered ← readRange mem 0 (hdrLen + payloadLen)
          if ctEqual (mac.hmacSha256Trunc key covered) tag then return (.ok,{frame with macVerified := true})
          else return (.rejectedMac,frame)
      | _,_,_ => return (.ok,frame)

def decodePayloadIn (mem : Memory) (len : Nat) (ctx : DecodeCtx) (inout : Frame) : Option (Status × Frame) :=
  let h := inout.hdr
  if len < minFrame ∨ maxFrame < len then some (.runt,inout)
  else if h.fragTotal = 0 then some (.badFrag,inout)
  else if maxFragments < h.fragTotal ∨ h.fragTotal ≤ h.fragIndex then some (.fragmentOverflow,inout)
  else do
    let boundary ← payloadBoundaryIn h mem len
    match boundary with
    | .error failure => return (failure,inout)
    | .ok (macPresent,payloadLen) =>
        if !schemaIsKnown h.type h.schema then return (.unknownSchema,inout)
        else if 1 < h.fragTotal ∧ !typeIsFragmentable h.type then return (.notFragmentable,inout)
        else
          let verdict ← checkPayloadLenIn h mem hdrLen payloadLen
          if verdict ≠ .ok then return (verdict,inout)
          else
            let payload ← readRange mem hdrLen payloadLen
            let tag ← readRange mem (hdrLen + payloadLen) (if macPresent then macLen else 0)
            authenticateIn ctx mem payloadLen {inout with payload := payload,mac := if macPresent then some tag else none}

section
variable (bytes : Bytes)

theorem readHeaderIn_inside (inside : hdrLen ≤ bytes.length) : readHeaderIn (memoryOf bytes) = some (readHeader bytes) := by
  have length : 16 ≤ bytes.length := inside
  have byte : ∀ i < 16, memoryOf bytes i = some (u8At bytes i) := by
    intro i small
    exact memoryOf_inside bytes i (by omega)
  rw [readHeaderIn,byte 0 (by omega),byte 1 (by omega),byte 2 (by omega),byte 3 (by omega),readU16_inside bytes 4 (by omega),
    readU32_inside bytes 6 (by omega),byte 10 (by omega),byte 11 (by omega),byte 12 (by omega),byte 13 (by omega),byte 14 (by omega),
    byte 15 (by omega)]
  rfl

theorem decodeHeaderIn_inside (ctx : DecodeCtx) : decodeHeaderIn (memoryOf bytes) bytes.length ctx = some (decodeHeader bytes ctx) := by
  unfold decodeHeaderIn decodeHeader
  split
  · rfl
  · rename_i long
    split
    · rfl
    · have length : 18 ≤ bytes.length := Nat.le_of_not_lt long
      have front : window bytes 0 (bytes.length - crcLen) = bytes.take (bytes.length - crcLen) := by simp [window]
      rw [readRange_inside bytes 0 _ (by omega),readU16_inside bytes _ (by omega),front]
      simp only [Option.bind_eq_bind,Option.bind_some]
      split
      · rfl
      · rw [readHeaderIn_inside bytes (by change 16 ≤ _; omega)]
        simp only [Option.bind_some]
        split; · rfl
        split; · rfl
        split; · rfl
        split; · rfl
        split; · rfl
        split; · rfl
        rfl

variable (base len : Nat)

theorem hexReqIsWriteClassIn_inside (inside : base + len ≤ bytes.length) :
    hexReqIsWriteClassIn (memoryOf bytes) base len = some (hexReqIsWriteClass (window bytes base len)) := by
  have length := window_length bytes base len inside
  unfold hexReqIsWriteClassIn hexReqIsWriteClass
  rw [length]
  split
  · rfl
  · rename_i long
    rw [memoryOf_inside bytes _ (by omega),memoryOf_inside bytes _ (by omega),memoryOf_inside bytes _ (by omega),
      u8At_window bytes base len 1 (by omega),u8At_window bytes base len 2 (by omega),u8At_window bytes base len 3 (by omega)]
    simp only [Option.bind_eq_bind,Option.bind_some]
    split; · rfl
    split; · rfl
    cases hexNibble (u8At bytes (base + 3)) with
    | none => rfl
    | some nibble => rfl

theorem frameHasMacIn_inside (type : MsgType) (inside : base + len ≤ bytes.length) :
    frameHasMacIn type (memoryOf bytes) base len = some (frameHasMac type (window bytes base len)) := by
  unfold frameHasMacIn frameHasMac
  split
  · rfl
  · split
    · exact hexReqIsWriteClassIn_inside bytes base len inside
    · rfl

theorem recordsEndIn_inside (headLen count off : Nat) (head : 0 < headLen) (inside : base + len ≤ bytes.length) :
    recordsEndIn headLen (memoryOf bytes) base len count off = some (recordsEnd headLen (window bytes base len) count off) := by
  have length := window_length bytes base len inside
  induction count generalizing off with
  | zero => rfl
  | succ count ih =>
      rw [recordsEndIn,recordsEnd,length]
      split
      · rfl
      · rename_i room
        rw [memoryOf_inside bytes _ (by omega),u8At_window bytes base len _ (by omega)]
        simp only [Option.bind_eq_bind,Option.bind_some]
        split
        · rfl
        · exact ih _

theorem checkVariablePayloadIn_inside (type : MsgType) (inside : base + len ≤ bytes.length) :
    checkVariablePayloadIn type (memoryOf bytes) base len = some (checkVariablePayload type (window bytes base len)) := by
  have length := window_length bytes base len inside
  have byte : ∀ i < len, memoryOf bytes (base + i) = some (u8At (window bytes base len) i) := by
    intro i small
    rw [memoryOf_inside bytes _ (by omega),u8At_window bytes base len i small]
  unfold checkVariablePayloadIn checkVariablePayload
  rw [length]
  cases type with
  | ping =>
      dsimp only
      split
      · rfl
      · rw [byte 1 (by omega)]
        simp only [Option.bind_eq_bind,Option.bind_some]
        split
        · rfl
        · rfl
  | hexReq =>
      dsimp only
      split
      · rfl
      · rw [byte 1 (by omega)]
        rfl
  | hexRsp =>
      dsimp only
      split
      · rfl
      · rw [byte 1 (by omega)]
        rfl
  | config =>
      dsimp only
      split
      · rfl
      · rw [byte 1 (by omega)]
        simp only [Option.bind_eq_bind,Option.bind_some]
        rw [recordsEndIn_inside bytes base len 4 _ _ (by omega) inside]
        rfl
  | configAck =>
      dsimp only
      split
      · rfl
      · rw [byte 2 (by omega)]
        simp only [Option.bind_eq_bind,Option.bind_some]
        rw [recordsEndIn_inside bytes base len 5 _ _ (by omega) inside]
        rfl
  | _ => rfl

theorem checkPayloadLenIn_inside (h : Header) (inside : base + len ≤ bytes.length) :
    checkPayloadLenIn h (memoryOf bytes) base len = some (checkPayloadLen h (window bytes base len)) := by
  have length := window_length bytes base len inside
  unfold checkPayloadLenIn checkPayloadLen
  rw [length]
  split
  · rfl
  · cases fixedPayloadLen h.type h.schema with
    | none => exact checkVariablePayloadIn_inside bytes base len h.type inside
    | some want => rfl

theorem payloadBoundaryIn_inside (h : Header) (long : minFrame ≤ bytes.length) :
    payloadBoundaryIn h (memoryOf bytes) bytes.length = some (payloadBoundary h bytes) := by
  have length : 18 ≤ bytes.length := long
  unfold payloadBoundaryIn payloadBoundary
  dsimp only
  split
  · split
    · rfl
    · split
      · rfl
      · rename_i room
        rw [memoryOf_inside bytes (hdrLen + 1) (by omega)]
        simp only [Option.bind_eq_bind,Option.bind_some]
        split; · rfl
        split; · rfl
        split; · rfl
        rfl
  · split
    · rfl
    · rfl

theorem authenticateIn_inside (ctx : DecodeCtx) (payloadLen : Nat) (frame : Frame) (inside : hdrLen + payloadLen ≤ bytes.length)
    (payload : frame.payload = window bytes hdrLen payloadLen) :
    authenticateIn ctx (memoryOf bytes) payloadLen frame = some (authenticate ctx (bytes.take (hdrLen + payloadLen)) frame) := by
  have front : window bytes 0 (hdrLen + payloadLen) = bytes.take (hdrLen + payloadLen) := by simp [window]
  unfold authenticateIn authenticate
  rw [frameHasMacIn_inside bytes hdrLen payloadLen _ inside,hexReqIsWriteClassIn_inside bytes hdrLen payloadLen inside,
    readRange_inside bytes 0 _ (by omega),front,payload]
  simp only [Option.bind_eq_bind,Option.bind_some]
  split; · rfl
  split; · rfl
  cases frame.mac with
  | none => rfl
  | some tag =>
      cases ctx.mac with
      | none => rfl
      | some mac =>
          cases ctx.nodeKey with
          | none => rfl
          | some key =>
              dsimp only
              split
              · rfl
              · rfl

end

-- Whatever the buffer holds, the decoder looks only at bytes of it.
theorem decodePayloadIn_inside (bytes : Bytes) (ctx : DecodeCtx) (inout : Frame) :
    decodePayloadIn (memoryOf bytes) bytes.length ctx inout = some (decodePayload bytes ctx inout) := by
  unfold decodePayloadIn decodePayload
  dsimp only
  split; · rfl
  rename_i sized
  split; · rfl
  split; · rfl
  have long : minFrame ≤ bytes.length := by omega
  rw [payloadBoundaryIn_inside bytes inout.hdr long]
  simp only [Option.bind_eq_bind,Option.bind_some]
  cases bounded : payloadBoundary inout.hdr bytes with
  | error failure => rfl
  | ok boundary =>
      obtain ⟨macPresent,payloadLen⟩ := boundary
      dsimp only
      obtain ⟨length,_⟩ := payloadBoundary_length _ _ _ _ long bounded
      split; · rfl
      split; · rfl
      have tagEnd : hdrLen + payloadLen + (if macPresent then macLen else 0) ≤ bytes.length := by omega
      rw [checkPayloadLenIn_inside bytes hdrLen payloadLen inout.hdr (by omega)]
      simp only [Option.bind_some]
      change (if checkPayloadLen inout.hdr (window bytes hdrLen payloadLen) ≠ .ok then _ else _) =
        some (if checkPayloadLen inout.hdr (window bytes hdrLen payloadLen) ≠ .ok then _ else _)
      split; · rfl
      rw [readRange_inside bytes hdrLen payloadLen (by omega),readRange_inside bytes _ _ tagEnd]
      simp only [Option.bind_some]
      rw [authenticateIn_inside bytes ctx payloadLen _ (by omega) rfl]
      cases macPresent with
      | true => rfl
      | false => rfl

end LoraRan.Protocol
