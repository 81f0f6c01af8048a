import LoraRan.GateLink.GateLinkApp
import LoraRan.Protocol.RoundTrip
import LoraRan.Protocol.SchemaTrip

namespace LoraRan.GateLink
open Protocol Node
open Library.LittleEndian (u8At u8At_append_left u8At_append_right)

def statusReasonCode : StatusReason → UInt8
  | .pollResponse => 0x00
  | .gateStateChange => 0x01
  | .holdStateChange => 0x02
  | .mpptError => 0x03
  | .vehicleDetected => 0x04
  | .bmsAlarm => 0x05
  | .hardShutdown => 0x06
  | .fire => 0x07
  | .configChange => 0x08
  | .boot => 0x09
  | .chargeInhibited => 0x0A
  | .debugSynthetic => 0xFF

theorem statusReasonCode_zero (reason : StatusReason) : statusReasonCode reason = 0 ↔ reason = .pollResponse := by
  cases reason <;> decide

-- Whether the bridge waits for a frame, read from its bytes: the type at 1, the schema at 11, the STATUS reason behind the header.
def replyAwaited (frame : Protocol.Bytes) : Bool :=
  if frame.length < hdrLen then false
  else match MsgType.ofCode (u8At frame 1) with
    | .commandAck | .configAck | .hexRsp => true
    | .status =>
        if u8At frame 11 ≠ schemaGateLinkStatusV1 ∧ u8At frame 11 ≠ schemaGateLinkStatusV2 then true
        else decide (hdrLen + 77 < frame.length) && u8At frame (hdrLen + 77) == statusReasonCode .pollResponse
    | _ => false

inductive TxGate where
  | go | wait | waitAbort | overrun
  deriving DecidableEq

def txGate (bleHolds : Bool) (windowMs capMs : UInt32) (awaited : Bool) : TxGate :=
  if !bleHolds then .go
  else if capMs ≤ windowMs then .overrun
  else if awaited then .waitAbort
  else .wait

-- A frame the bridge waits for ends the window it meets, and does not wait the window out.
theorem awaited_never_waits (bleHolds : Bool) (windowMs capMs : UInt32) (frame : Protocol.Bytes) (awaited : replyAwaited frame = true) :
    txGate bleHolds windowMs capMs (replyAwaited frame) ≠ .wait := by
  rw [awaited]
  unfold txGate
  split
  · decide
  · split <;> decide

def eventTypeCode : EventType → UInt8
  | .vehicleWhileHeldOpen => 0x01
  | .fireAsserted => 0x02
  | .hardShutdown => 0x03
  | .vehicleDetected => 0x04
  | .gateStateChange => 0x05
  | .holdStateChange => 0x06
  | .bmsAlarm => 0x07
  | .mpptError => 0x08
  | .chargeInhibited => 0x09
  | .boot => 0x0A
  | .phyReverted => 0x0B

-- build_event: the readings other tasks publish, and what is told of them under which id.
def eventPayload (readings : GateLinkApp → GateLinkEventV1) (a : GateLinkApp) (type : EventType) (detail : UInt16) (eventId : UInt32) :
    Protocol.Bytes :=
  match GateLinkEventV1.serialize {readings a with eventType := eventTypeCode type,detail := detail,eventId := eventId} maxSchemaPayload with
  | .ok bytes => bytes
  | .error _ => []

-- build_status: the readings other tasks publish, and the reason it was asked for.
@[irreducible] def statusPayload (readings : GateLinkApp → UInt32 → GateLinkStatusV2) (a : GateLinkApp) (reason : StatusReason) (nowMs : UInt32) :
    Protocol.Bytes :=
  let v := readings a nowMs
  match GateLinkStatusV2.serialize {v with v1 := {v.v1 with statusReason := statusReasonCode reason}} maxSchemaPayload with
  | .ok bytes => bytes
  | .error _ => []

theorem statusPayload_reason (readings : GateLinkApp → UInt32 → GateLinkStatusV2) (a : GateLinkApp) (reason : StatusReason) (nowMs : UInt32) :
    (statusPayload readings a reason nowMs).length = 80 ∧ u8At (statusPayload readings a reason nowMs) 77 = statusReasonCode reason := by
  let v := readings a nowMs
  let told : GateLinkStatusV2 := {v with v1 := {v.v1 with statusReason := statusReasonCode reason}}
  have written : statusPayload readings a reason nowMs = told.chunks.flatten := by
    have serialized := statusV2_writes told maxSchemaPayload (by decide)
    unfold statusPayload
    dsimp only
    rw [serialized]
  rw [written]
  exact ⟨statusV2_sized told,rfl⟩

section
variable {hdr : Header} {payload bytes : Protocol.Bytes} {ctx : EncodeCtx} {cap : Nat}

theorem encoded_header (encoded : encode hdr payload ctx cap = .ok bytes) :
    hdrLen ≤ bytes.length ∧ MsgType.ofCode (u8At bytes 1) = hdr.type ∧ u8At bytes 11 = hdr.schema := by
  obtain ⟨_,_,tag,_,rfl⟩ := encode_parts hdr payload ctx cap bytes encoded
  have long : hdrLen ≤ (withCrc (writeHeader hdr ++ payload ++ tag)).length := by
    rw [withCrc_length,List.length_append,List.length_append,writeHeader_length]
    omega
  exact ⟨long,ofCode_code hdr.type,rfl⟩

theorem awaited_of_ack (encoded : encode hdr payload ctx cap = .ok bytes)
    (ack : hdr.type = .commandAck ∨ hdr.type = .configAck ∨ hdr.type = .hexRsp) : replyAwaited bytes = true := by
  obtain ⟨long,typed,_⟩ := encoded_header encoded
  unfold replyAwaited
  rw [if_neg (by omega),typed]
  rcases ack with is | is | is <;> rw [is]

theorem not_awaited_of_event (encoded : encode hdr payload ctx cap = .ok bytes) (event : hdr.type = .event) : replyAwaited bytes = false := by
  obtain ⟨_,typed,_⟩ := encoded_header encoded
  unfold replyAwaited
  rw [typed,event]
  split <;> rfl

-- A STATUS in the gate's own schema is awaited if its reason byte says it answers a poll.
theorem status_awaited (encoded : encode hdr payload ctx cap = .ok bytes) (status : hdr.type = .status)
    (schema : hdr.schema = schemaGateLinkStatusV2) (long : 77 < payload.length) :
    replyAwaited bytes = (u8At payload 77 == statusReasonCode .pollResponse) := by
  obtain ⟨_,typed,schemed⟩ := encoded_header encoded
  obtain ⟨_,_,tag,_,rfl⟩ := encode_parts hdr payload ctx cap bytes encoded
  have whole : withCrc (writeHeader hdr ++ payload ++ tag) = writeHeader hdr ++ (payload ++ (tag ++
      Library.LittleEndian.u16Bytes (crc16CcittFalse (writeHeader hdr ++ payload ++ tag)))) := by
    simp only [withCrc,List.append_assoc]
  have covered : hdrLen + 77 < (withCrc (writeHeader hdr ++ payload ++ tag)).length := by
    rw [withCrc_length,List.length_append,List.length_append,writeHeader_length]
    omega
  have reason : u8At (withCrc (writeHeader hdr ++ payload ++ tag)) (hdrLen + 77) = u8At payload 77 := by
    rw [whole,u8At_append_right _ _ _ (by rw [writeHeader_length]; omega),writeHeader_length,Nat.add_sub_cancel_left,
      u8At_append_left _ _ _ long]
  unfold replyAwaited
  rw [if_neg (by omega),typed,status]
  dsimp only
  rw [if_neg (by rw [schemed,schema]; decide),reason,decide_eq_true covered,Bool.true_and]

end
end LoraRan.GateLink
