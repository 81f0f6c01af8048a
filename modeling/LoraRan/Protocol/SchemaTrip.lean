import LoraRan.Protocol.Schemas

namespace LoraRan.Protocol
open Library.LittleEndian Library.CheckedReads Library.ByteStream

section
variable {α : Type} (len : Nat) (chunks : List Bytes) (cap : Nat)

theorem serializeMessage_fits (room : chunks.flatten.length ≤ cap) : serializeMessage chunks cap = .ok chunks.flatten := by
  unfold serializeMessage
  rw [write_fits cap chunks room]
  rfl

theorem serializeSchema_fits (sized : chunks.flatten.length = len) (room : len ≤ cap) :
    serializeSchema len chunks cap = .ok chunks.flatten := by
  unfold serializeSchema
  rw [if_neg (by omega),write_fits cap chunks (by omega)]
  simp [sized]

section
variable (read : Reading α) (layout : Bytes → α)
  (reads : ∀ (mem : Memory) (bytes : Bytes), Covers mem len bytes → read (upTo mem len 0) = some (layout bytes,upTo mem len len))
include reads

theorem deserializeMessage_reads (mem : Memory) (given : Nat) (bytes : Bytes) (covers : Covers mem given bytes) :
    deserializeMessage len read mem given = some (if given = len then .ok (layout bytes) else .error .badLength) := by
  unfold deserializeMessage
  by_cases fits : given = len
  · subst given
    have opened : ({mem := mem,len := len} : ByteReader) = upTo mem len 0 := rfl
    rw [if_neg (fun other => other rfl),if_pos rfl,opened,reads mem bytes covers]
    rfl
  · rw [if_pos fits,if_neg fits]

theorem deserializeSchema_reads (mem : Memory) (given : Nat) (bytes : Bytes) (covers : Covers mem given bytes) :
    deserializeSchema len read mem given = some (if given = len then .ok (layout bytes) else .error .badLength) := by
  unfold deserializeSchema
  by_cases fits : given = len
  · subst given
    have opened : ({mem := mem,len := len} : ByteReader) = upTo mem len 0 := rfl
    rw [if_neg (fun other => other rfl),if_pos rfl,opened,reads mem bytes covers]
    simp [upTo]
  · rw [if_pos fits,if_neg fits]

end
end

-- A codec of one length that loses nothing. A byte string of that length comes back as `clean` leaves it.
structure Lossless {α : Type} (serialize : α → Nat → Except Status Bytes) (deserialize : Memory → Nat → Option (Except Status α))
    (clean : Bytes → Bytes) (len : Nat) : Prop where
  sent : ∀ v cap, len ≤ cap → ∃ bytes, serialize v cap = .ok bytes ∧ bytes.length = len ∧
    deserialize (memoryOf bytes) bytes.length = some (.ok v)
  received : ∀ bytes, bytes.length = len → ∃ v, deserialize (memoryOf bytes) bytes.length = some (.ok v) ∧
    ∀ cap, len ≤ cap → serialize v cap = .ok (clean bytes)
  refused : ∀ bytes, bytes.length ≠ len → deserialize (memoryOf bytes) bytes.length = some (.error .badLength)

-- The writes fill the length, what they write stands where the offset table says, and writing the table's fields gives it back.
theorem Lossless.of_layout {α : Type} {serialize : α → Nat → Except Status Bytes} {deserialize : Memory → Nat → Option (Except Status α)}
    {clean : Bytes → Bytes} {len : Nat} (chunks : α → List Bytes) (layout : Bytes → α)
    (writes : ∀ v cap, len ≤ cap → serialize v cap = .ok (chunks v).flatten) (sized : ∀ v, (chunks v).flatten.length = len)
    (reads : ∀ bytes : Bytes, deserialize (memoryOf bytes) bytes.length = some (if bytes.length = len then .ok (layout bytes) else .error .badLength))
    (back : ∀ v, layout (chunks v).flatten = v) (again : ∀ bytes : Bytes, bytes.length = len → (chunks (layout bytes)).flatten = clean bytes) :
    Lossless serialize deserialize clean len := by
  refine ⟨?_,?_,?_⟩
  · intro v cap room
    refine ⟨_,writes v cap room,sized v,?_⟩
    rw [reads,if_pos (sized v),back]
  · intro bytes length
    refine ⟨layout bytes,?_,?_⟩
    · rw [reads,if_pos length]
    · intro cap room
      rw [writes _ cap room,again bytes length]
  · intro bytes other
    rw [reads,if_neg other]

-- The offset tables.

def GateLinkStatusV1.layout (b : Bytes) : GateLinkStatusV1 where
  gateState := u8At b 0
  inputBits := u8At b 1
  hold := u8At b 2
  movementCause := u8At b 3
  lastDirection := u8At b 4
  detectFlags := u8At b 5
  lastTraversalAgeS := u32At b 6
  battMv := u16At b 10
  battMa := (u16At b 12).toInt16
  pvCv := u16At b 14
  pvW := u16At b 16
  loadMa := (u16At b 18).toInt16
  yieldToday := u16At b 20
  yieldYest := u16At b 22
  pmaxToday := u16At b 24
  yieldTotal := u32At b 26
  chargeState := u8At b 30
  mpptErr := u8At b 31
  mpptTracker := u8At b 32
  mpptFlags := u8At b 33
  mpptTempC10 := (u16At b 34).toInt16
  bmsSoc := u8At b 36
  bmsFlags := u8At b 37
  packMv := u16At b 38
  packMa := (u16At b 40).toInt16
  cellCount := u8At b 42
  bmsRssiNeg := u8At b 43
  cellMv := ⟨u16At b 44,u16At b 46,u16At b 48,u16At b 50⟩
  cellTempC := ⟨(u8At b 52).toInt8,(u8At b 53).toInt8,(u8At b 54).toInt8,(u8At b 55).toInt8⟩
  bmsCycles := u16At b 56
  bmsCapacityDah := u16At b 58
  bmsAlarms := u16At b 60
  bmsAgeS := u16At b 62
  uptimeS := u32At b 64
  bootCount := u16At b 68
  nodeMv := u16At b 70
  nodeMa := (u16At b 72).toInt16
  enclosureTempC10 := (u16At b 74).toInt16
  nodeFlags := u8At b 76
  statusReason := u8At b 77

theorem status_reads (mem : Memory) (b : Bytes) (covers : Covers mem 78 b) :
    GateLinkStatusV1.read (upTo mem 78 0) = some (GateLinkStatusV1.layout b,upTo mem 78 78) := by
  unfold GateLinkStatusV1.read
  simp (disch := omega) only [u8_bind covers,u16_bind covers,u32_bind covers,i8_bind covers,i16_bind covers,Nat.reduceAdd,Nat.zero_add]
  rfl

theorem i8Of_bytes (value : Int8) : value.toUInt8.toInt8 = value := by simp

theorem i16Of_bytes (value : Int16) : (u16Of value.toUInt16.toUInt8 (value.toUInt16 >>> 8).toUInt8).toInt16 = value := by
  rw [u16Of_bytes]
  simp

theorem i8Bytes_of (byte : UInt8) : i8Bytes byte.toInt8 = [byte] := by simp [i8Bytes]

theorem i16Bytes_of (low high : UInt8) : i16Bytes (u16Of low high).toInt16 = [low,high] := by
  simp [i16Bytes,u16Bytes_of]

theorem status_back (v : GateLinkStatusV1) : GateLinkStatusV1.layout v.chunks.flatten = v := by
  apply GateLinkStatusV1.ext
  case cellMv => apply Cells.ext <;> exact u16Of_bytes _
  case cellTempC => apply Cells.ext <;> exact i8Of_bytes _
  all_goals first | rfl | exact u16Of_bytes _ | exact u32Of_bytes _ | exact i16Of_bytes _

theorem status_again (b : Bytes) (length : b.length = 78) : (GateLinkStatusV1.layout b).chunks.flatten = b := by
  have listed := bytes_listed b
  rw [length] at listed
  simp only [GateLinkStatusV1.layout,GateLinkStatusV1.chunks,u16At,u32At,u16Bytes_of,u32Bytes_of,i8Bytes_of,i16Bytes_of]
  exact listed.symm

theorem status_sized (v : GateLinkStatusV1) : v.chunks.flatten.length = 78 := rfl

theorem statusV1_lossless : Lossless GateLinkStatusV1.serialize GateLinkStatusV1.deserialize id 78 := by
  refine Lossless.of_layout GateLinkStatusV1.chunks GateLinkStatusV1.layout ?_ status_sized ?_ status_back status_again
  · intro v cap room
    exact serializeSchema_fits _ _ cap (status_sized v) room
  · exact fun b => deserializeSchema_reads _ _ _ status_reads _ _ b (covers_whole b _ (Nat.le_refl _))

-- Version 2 is version 1 and two bytes more.

def GateLinkStatusV2.chunks (v : GateLinkStatusV2) : List Bytes := v.v1.chunks ++ [u16Bytes v.ahDrawnDah]

def GateLinkStatusV2.layout (b : Bytes) : GateLinkStatusV2 := ⟨GateLinkStatusV1.layout b,u16At b 78⟩

theorem statusV2_sized (v : GateLinkStatusV2) : v.chunks.flatten.length = 80 := rfl

theorem statusV2_writes (v : GateLinkStatusV2) (cap : Nat) (room : 80 ≤ cap) : v.serialize cap = .ok v.chunks.flatten := by
  have head : v.v1.serialize cap = .ok v.v1.chunks.flatten := serializeSchema_fits 78 _ cap (status_sized v.v1) (by omega)
  have tail : write (cap - 78) [u16Bytes v.ahDrawnDah] = {cap := cap - 78,out := u16Bytes v.ahDrawnDah} :=
    write_fits (cap - 78) [u16Bytes v.ahDrawnDah] (by change 2 ≤ _; omega)
  unfold GateLinkStatusV2.serialize
  rw [if_neg (by simpa [gateLinkStatusV2Len] using room),head]
  dsimp only
  rw [status_sized,tail]
  simp [GateLinkStatusV2.chunks,gateLinkStatusV2Len]

theorem statusV2_reads (b : Bytes) :
    GateLinkStatusV2.deserialize (memoryOf b) b.length = some (if b.length = 80 then .ok (GateLinkStatusV2.layout b) else .error .badLength) := by
  unfold GateLinkStatusV2.deserialize
  by_cases fits : b.length = 80
  · have head : GateLinkStatusV1.deserialize (memoryOf b) gateLinkStatusV1Len = some (.ok (GateLinkStatusV1.layout b)) :=
      deserializeSchema_reads _ _ _ status_reads _ 78 b (covers_whole b 78 (by omega))
    have tail := u16_read (covers_rest b 78 2 (by omega)) 0 (Nat.le_refl 2)
    have opened : ({mem := fun i => memoryOf b (gateLinkStatusV1Len + i),len := b.length - gateLinkStatusV1Len} : ByteReader) =
        upTo (fun i => memoryOf b (78 + i)) 2 0 := by
      rw [fits]
      rfl
    rw [if_neg (by simpa [gateLinkStatusV2Len] using fits),if_pos fits,head]
    dsimp only
    rw [opened,tail,fits]
    have read : u16At (b.drop 78) 0 = u16At b 78 := by
      simp [u16At,u8At]
    rw [read]
    rfl
  · rw [if_pos (by simpa [gateLinkStatusV2Len] using fits),if_neg fits]

theorem status_front (front rest : Bytes) (long : 78 ≤ front.length) : GateLinkStatusV1.layout (front ++ rest) = GateLinkStatusV1.layout front := by
  simp (disch := omega) only [GateLinkStatusV1.layout,u16At,u32At,u8At_append_left]

theorem statusV2_back (v : GateLinkStatusV2) : GateLinkStatusV2.layout v.chunks.flatten = v := by
  apply GateLinkStatusV2.ext
  · change GateLinkStatusV1.layout v.chunks.flatten = v.v1
    rw [GateLinkStatusV2.chunks,List.flatten_append,status_front _ _ (Nat.le_of_eq (status_sized v.v1).symm),status_back]
  · exact u16Of_bytes _

theorem statusV2_again (b : Bytes) (length : b.length = 80) : (GateLinkStatusV2.layout b).chunks.flatten = b := by
  have listed := bytes_listed b
  rw [length] at listed
  simp only [GateLinkStatusV2.layout,GateLinkStatusV2.chunks,GateLinkStatusV1.layout,GateLinkStatusV1.chunks,u16At,u32At,u16Bytes_of,
    u32Bytes_of,i8Bytes_of,i16Bytes_of]
  exact listed.symm

theorem statusV2_lossless : Lossless GateLinkStatusV2.serialize GateLinkStatusV2.deserialize id 80 :=
  Lossless.of_layout GateLinkStatusV2.chunks GateLinkStatusV2.layout statusV2_writes statusV2_sized statusV2_reads statusV2_back statusV2_again

def GateLinkEventV1.layout (b : Bytes) : GateLinkEventV1 where
  eventType := u8At b 0
  eventFlags := u8At b 1
  holdSource := u8At b 2
  direction := u8At b 3
  gateState := u8At b 4
  inputBits := u8At b 5
  detail := u16At b 6
  eventId := u32At b 8
  uptimeS := u32At b 12

theorem event_reads (mem : Memory) (b : Bytes) (covers : Covers mem 16 b) :
    GateLinkEventV1.read (upTo mem 16 0) = some (GateLinkEventV1.layout b,upTo mem 16 16) := by
  unfold GateLinkEventV1.read
  simp (disch := omega) only [u8_bind covers,u16_bind covers,u32_bind covers,Nat.reduceAdd,Nat.zero_add]
  rfl

theorem event_lossless : Lossless GateLinkEventV1.serialize GateLinkEventV1.deserialize id 16 := by
  refine Lossless.of_layout GateLinkEventV1.chunks GateLinkEventV1.layout ?_ (fun _ => rfl) ?_ ?_ ?_
  · exact fun v cap room => serializeSchema_fits _ _ cap rfl room
  · exact fun b => deserializeSchema_reads _ _ _ event_reads _ _ b (covers_whole b _ (Nat.le_refl _))
  · intro v
    apply GateLinkEventV1.ext
    all_goals first | rfl | exact u16Of_bytes _ | exact u32Of_bytes _
  · intro b length
    have listed := bytes_listed b
    rw [length] at listed
    simp only [GateLinkEventV1.layout,GateLinkEventV1.chunks,u16At,u32At,u16Bytes_of,u32Bytes_of]
    exact listed.symm

def NodeHealthV1.layout (b : Bytes) : NodeHealthV1 where
  uptimeS := u32At b 0
  bootCount := u16At b 4
  rxFrames := u16At b 6
  txFrames := u16At b 8
  rxDropped := u16At b 10
  cadBackoffs := u16At b 12
  lastRssiDbm := (u16At b 14).toInt16
  lastSnrDb10 := (u16At b 16).toInt16
  protoVer := u8At b 18
  healthFlags := u8At b 19

theorem health_reads (mem : Memory) (b : Bytes) (covers : Covers mem 20 b) :
    NodeHealthV1.read (upTo mem 20 0) = some (NodeHealthV1.layout b,upTo mem 20 20) := by
  unfold NodeHealthV1.read
  simp (disch := omega) only [u8_bind covers,u16_bind covers,u32_bind covers,i16_bind covers,Nat.reduceAdd,Nat.zero_add]
  rfl

theorem health_lossless : Lossless NodeHealthV1.serialize NodeHealthV1.deserialize id 20 := by
  refine Lossless.of_layout NodeHealthV1.chunks NodeHealthV1.layout ?_ (fun _ => rfl) ?_ ?_ ?_
  · exact fun v cap room => serializeSchema_fits _ _ cap rfl room
  · exact fun b => deserializeSchema_reads _ _ _ health_reads _ _ b (covers_whole b _ (Nat.le_refl _))
  · intro v
    apply NodeHealthV1.ext
    all_goals first | rfl | exact u16Of_bytes _ | exact u32Of_bytes _ | exact i16Of_bytes _
  · intro b length
    have listed := bytes_listed b
    rw [length] at listed
    simp only [NodeHealthV1.layout,NodeHealthV1.chunks,u16At,u32At,u16Bytes_of,u32Bytes_of,i16Bytes_of]
    exact listed.symm

-- The messages without a schema.

def Command.layout (b : Bytes) : Command := ⟨u8At b 0,u8At b 1,u16At b 2⟩

theorem command_reads (mem : Memory) (b : Bytes) (covers : Covers mem 4 b) :
    Command.read (upTo mem 4 0) = some (Command.layout b,upTo mem 4 4) := by
  unfold Command.read
  simp (disch := omega) only [u8_bind covers,u16_bind covers,Nat.reduceAdd,Nat.zero_add]
  rfl

theorem command_lossless : Lossless Command.serializeTo Command.deserializeIn id 4 := by
  refine Lossless.of_layout Command.chunks Command.layout (fun v cap room => serializeMessage_fits _ cap room) (fun _ => rfl)
    (fun b => deserializeMessage_reads _ _ _ command_reads _ _ b (covers_whole b _ (Nat.le_refl _))) ?_ ?_
  · intro v
    exact congrArg (Command.mk v.cmd v.arg) (u16Of_bytes v.arg2)
  · intro b length
    have listed := bytes_listed b
    rw [length] at listed
    simp only [Command.layout,Command.chunks,u16At,u16Bytes_of]
    exact listed.symm

def CommandAck.layout (b : Bytes) : CommandAck := ⟨u16At b 0,u8At b 2,u8At b 3⟩

-- The reserved bytes are ignored on receive and written zero.
def clearReserved (b : Bytes) : Bytes := b.take 4 ++ [0,0]

theorem commandAck_reads (mem : Memory) (b : Bytes) (covers : Covers mem 6 b) :
    CommandAck.read (upTo mem 6 0) = some (CommandAck.layout b,upTo mem 6 6) := by
  unfold CommandAck.read
  simp (disch := omega) only [u8_bind covers,u16_bind covers,skip_bind,Nat.reduceAdd,Nat.zero_add]
  rfl

theorem commandAck_lossless : Lossless CommandAck.serializeTo CommandAck.deserializeIn clearReserved 6 := by
  refine Lossless.of_layout CommandAck.chunks CommandAck.layout (fun v cap room => serializeMessage_fits _ cap room) (fun _ => rfl)
    (fun b => deserializeMessage_reads _ _ _ commandAck_reads _ _ b (covers_whole b _ (Nat.le_refl _))) ?_ ?_
  · intro v
    exact congrArg (fun seq => CommandAck.mk seq v.result v.detail) (u16Of_bytes v.ackSeq)
  · intro b length
    have listed := bytes_listed b
    rw [length] at listed
    simp only [CommandAck.layout,CommandAck.chunks,u16At,u16Bytes_of]
    rw [listed]
    rfl

theorem poll_lossless : Lossless Poll.serialize Poll.deserialize id 1 := by
  refine Lossless.of_layout Poll.chunks (fun b => ⟨u8At b 0⟩) (fun v cap room => serializeMessage_fits _ cap room) (fun _ => rfl) ?_
    (fun _ => rfl) ?_
  · intro b
    unfold Poll.deserialize
    by_cases fits : b.length = 1
    · rw [if_neg (by simpa using fits),if_pos fits,memoryOf_inside b 0 (by omega)]
      rfl
    · rw [if_pos fits,if_neg fits]
  · intro b length
    have listed := bytes_listed b
    rw [length] at listed
    exact listed.symm

def ErrorMsg.layout (b : Bytes) : ErrorMsg := ⟨u8At b 0,u8At b 1,u16At b 2⟩

theorem error_reads (mem : Memory) (b : Bytes) (covers : Covers mem 4 b) :
    ErrorMsg.read (upTo mem 4 0) = some (ErrorMsg.layout b,upTo mem 4 4) := by
  unfold ErrorMsg.read
  simp (disch := omega) only [u8_bind covers,u16_bind covers,Nat.reduceAdd,Nat.zero_add]
  rfl

theorem error_lossless : Lossless ErrorMsg.serialize ErrorMsg.deserialize id 4 := by
  refine Lossless.of_layout ErrorMsg.chunks ErrorMsg.layout (fun v cap room => serializeMessage_fits _ cap room) (fun _ => rfl)
    (fun b => deserializeMessage_reads _ _ _ error_reads _ _ b (covers_whole b _ (Nat.le_refl _))) ?_ ?_
  · intro v
    exact congrArg (ErrorMsg.mk v.errCode v.detail) (u16Of_bytes v.refSeq)
  · intro b length
    have listed := bytes_listed b
    rw [length] at listed
    simp only [ErrorMsg.layout,ErrorMsg.chunks,u16At,u16Bytes_of]
    exact listed.symm

-- A message of two header bytes and as many more as the second one counts.
structure LosslessView {α : Type} (serialize : α → Nat → Except Status Bytes) (deserialize : Memory → Nat → Option (Except Status α))
    (view : α → Bytes) (most : Nat) : Prop where
  sent : ∀ v cap, (view v).length ≤ most → 2 + (view v).length ≤ cap → ∃ bytes, serialize v cap = .ok bytes ∧
    bytes.length = 2 + (view v).length ∧ deserialize (memoryOf bytes) bytes.length = some (.ok v)
  received : ∀ bytes, 2 ≤ bytes.length → (u8At bytes 1).toNat ≤ most → bytes.length = 2 + (u8At bytes 1).toNat →
    ∃ v, deserialize (memoryOf bytes) bytes.length = some (.ok v) ∧ ∀ cap, bytes.length ≤ cap → serialize v cap = .ok bytes
  refused : ∀ bytes, ¬ (2 ≤ bytes.length ∧ (u8At bytes 1).toNat ≤ most ∧ bytes.length = 2 + (u8At bytes 1).toNat) →
    deserialize (memoryOf bytes) bytes.length = some (.error .badLength)

theorem deserializeView_reads {α : Type} (most : Nat) (make : UInt8 → Bytes → α) (b : Bytes) :
    deserializeView most make (memoryOf b) b.length =
      some (if 2 ≤ b.length ∧ (u8At b 1).toNat ≤ most ∧ b.length = 2 + (u8At b 1).toNat then .ok (make (u8At b 0) (b.drop 2))
        else .error .badLength) := by
  unfold deserializeView
  by_cases short : b.length < 2
  · rw [if_pos short,if_neg (by omega)]
  · rw [if_neg short,memoryOf_inside b 0 (by omega),memoryOf_inside b 1 (by omega)]
    simp only [Option.bind_eq_bind,Option.bind_some]
    by_cases large : most < (u8At b 1).toNat
    · rw [if_pos large,if_neg (by omega)]
      rfl
    · rw [if_neg large]
      by_cases fits : b.length = 2 + (u8At b 1).toNat
      · rw [if_neg (by omega),if_pos ⟨by omega,by omega,fits⟩,readRange_inside b 2 _ (by omega)]
        have rest : Library.Staging.window b 2 (u8At b 1).toNat = b.drop 2 := by
          rw [Library.Staging.window,List.take_of_length_le]
          rw [List.length_drop]
          omega
        rw [rest]
        rfl
      · rw [if_pos (by omega),if_neg (by omega)]
        rfl

theorem view_again (b : Bytes) (long : 2 ≤ b.length) (fits : b.length = 2 + (u8At b 1).toNat) :
    [[u8At b 0],[UInt8.ofNat (b.drop 2).length],b.drop 2].flatten = b := by
  have counted : UInt8.ofNat (b.drop 2).length = u8At b 1 := by
    rw [List.length_drop,fits,Nat.add_sub_cancel_left]
    simp
  rw [counted]
  obtain ⟨first,second,rest,rfl⟩ : ∃ first second rest, b = first :: second :: rest := by
    cases b with
    | nil => cases long
    | cons first tail =>
      cases tail with
      | nil => simp at long
      | cons second rest => exact ⟨first,second,rest,rfl⟩
  simp

theorem LosslessView.of_chunks {α : Type} {serialize : α → Nat → Except Status Bytes} {view : α → Bytes} (lead : α → UInt8)
    (make : UInt8 → Bytes → α) (most : Nat) (small : most < 256)
    (writes : ∀ v cap, (view v).length ≤ most → 2 + (view v).length ≤ cap →
      serialize v cap = .ok [[lead v],[UInt8.ofNat (view v).length],view v].flatten)
    (made : ∀ v, make (lead v) (view v) = v) (leads : ∀ flags data, lead (make flags data) = flags)
    (views : ∀ flags data, view (make flags data) = data) : LosslessView serialize (deserializeView most make) view most := by
  refine ⟨?_,?_,?_⟩
  · intro v cap few room
    have counted : (UInt8.ofNat (view v).length).toNat = (view v).length := by
      simp only [UInt8.toNat_ofNat']
      omega
    refine ⟨_,writes v cap few room,?_,?_⟩
    · simp
      omega
    · rw [deserializeView_reads,if_pos]
      · simp [made]
      · simp only [List.flatten_cons,List.flatten_nil,List.append_nil,List.singleton_append,List.length_cons,u8At_cons_succ,u8At_cons_zero,
          counted]
        omega
  · intro b long few fits
    refine ⟨make (u8At b 0) (b.drop 2),?_,?_⟩
    · rw [deserializeView_reads,if_pos ⟨long,few,fits⟩]
    · intro cap room
      rw [writes _ cap (by rw [views,List.length_drop]; omega) (by rw [views,List.length_drop]; omega),leads,views,view_again b long fits]
  · intro b refused
    rw [deserializeView_reads,if_neg refused]

theorem ping_lossless : LosslessView Ping.serialize Ping.deserialize Ping.data pingMaxEcho := by
  refine LosslessView.of_chunks Ping.pingFlags (fun flags data => ⟨flags,data⟩) pingMaxEcho (by decide) ?_ (fun _ => rfl) (fun _ _ => rfl)
    (fun _ _ => rfl)
  intro v cap few room
  unfold Ping.serialize
  rw [if_neg (by omega),serializeMessage_fits _ cap (by simp [Ping.chunks]; omega)]
  rfl

theorem hexReq_lossless : LosslessView HexReq.serializeTo HexReq.deserializeIn HexReq.hex 255 :=
  LosslessView.of_chunks HexReq.flags (fun flags hex => ⟨flags,hex⟩) 255 (by decide)
    (fun v cap _ room => serializeMessage_fits v.chunks cap (by simp [HexReq.chunks]; omega)) (fun _ => rfl) (fun _ _ => rfl) fun _ _ => rfl

theorem hexRsp_lossless : LosslessView HexRsp.serializeTo HexRsp.deserializeIn HexRsp.hex 255 :=
  LosslessView.of_chunks HexRsp.status (fun status hex => ⟨status,hex⟩) 255 (by decide)
    (fun v cap _ room => serializeMessage_fits v.chunks cap (by simp [HexRsp.chunks]; omega)) (fun _ => rfl) (fun _ _ => rfl) fun _ _ => rfl

-- The serializers and deserializers the node and the bridge call are these, with the capacity and the reads left out.

def answered {α : Type} : Option α → Except Status α
  | some v => .ok v
  | none => .error .badLength

theorem command_agrees (v : Command) (cap : Nat) (room : 4 ≤ cap) (b : Bytes) :
    v.serializeTo cap = .ok v.serialize ∧ Command.deserializeIn (memoryOf b) b.length = some (answered (Command.deserialize b)) := by
  refine ⟨serializeMessage_fits v.chunks cap room,?_⟩
  have reads := deserializeMessage_reads 4 _ _ command_reads _ _ b (covers_whole b _ (Nat.le_refl _))
  rw [Command.deserializeIn,reads,Command.deserialize]
  by_cases fits : b.length = 4
  · rw [if_pos fits,if_neg (by simpa using fits)]
    rfl
  · rw [if_neg fits,if_pos fits]
    rfl

theorem commandAck_agrees (v : CommandAck) (cap : Nat) (room : 6 ≤ cap) (b : Bytes) :
    v.serializeTo cap = .ok v.serialize ∧
      CommandAck.deserializeIn (memoryOf b) b.length = some (answered (CommandAck.deserialize b)) := by
  refine ⟨serializeMessage_fits v.chunks cap room,?_⟩
  have reads := deserializeMessage_reads 6 _ _ commandAck_reads _ _ b (covers_whole b _ (Nat.le_refl _))
  rw [CommandAck.deserializeIn,reads,CommandAck.deserialize]
  by_cases fits : b.length = 6
  · rw [if_pos fits,if_neg (by simpa using fits)]
    rfl
  · rw [if_neg fits,if_pos fits]
    rfl

theorem hexReq_agrees (v : HexReq) (cap : Nat) (room : 2 + v.hex.length ≤ cap) (b : Bytes) :
    v.serializeTo cap = .ok v.serialize ∧ HexReq.deserializeIn (memoryOf b) b.length = some (answered (HexReq.deserialize b)) := by
  have small := (u8At b 1).toNat_lt
  refine ⟨?_,?_⟩
  · rw [HexReq.serializeTo,serializeMessage_fits v.chunks cap (by simp [HexReq.chunks]; omega)]
    simp [HexReq.chunks,HexReq.serialize]
  · rw [HexReq.deserializeIn,deserializeView_reads,HexReq.deserialize]
    by_cases short : b.length < 2
    · rw [if_pos short,if_neg (by omega)]
      rfl
    · rw [if_neg short]
      by_cases fits : b.length = 2 + (u8At b 1).toNat
      · rw [if_pos ⟨by omega,by omega,fits⟩,if_pos fits]
        rfl
      · rw [if_neg (by omega),if_neg fits]
        rfl

theorem ping_excess (v : Ping) (cap : Nat) (large : pingMaxEcho < v.data.length) : v.serialize cap = .error .badLength := if_pos large

-- Every fixed message and schema fills the length the wire table gives it and comes back whole; so does a message that counts its own
-- bytes, a PING up to the largest echo.
theorem messages_lossless :
    (∀ schema, ∃ len, fixedPayloadLen .command schema = some len ∧ Lossless Command.serializeTo Command.deserializeIn id len) ∧
    (∀ schema, ∃ len, fixedPayloadLen .commandAck schema = some len ∧
      Lossless CommandAck.serializeTo CommandAck.deserializeIn clearReserved len) ∧
    (∀ schema, ∃ len, fixedPayloadLen .poll schema = some len ∧ Lossless Poll.serialize Poll.deserialize id len) ∧
    (∀ schema, ∃ len, fixedPayloadLen .error schema = some len ∧ Lossless ErrorMsg.serialize ErrorMsg.deserialize id len) ∧
    (∃ len, fixedPayloadLen .status schemaGateLinkStatusV1 = some len ∧ Lossless GateLinkStatusV1.serialize GateLinkStatusV1.deserialize id len) ∧
    (∃ len, fixedPayloadLen .status schemaGateLinkStatusV2 = some len ∧ Lossless GateLinkStatusV2.serialize GateLinkStatusV2.deserialize id len) ∧
    (∃ len, fixedPayloadLen .event schemaGateLinkEventV1 = some len ∧ Lossless GateLinkEventV1.serialize GateLinkEventV1.deserialize id len) ∧
    (∃ len, fixedPayloadLen .status schemaNodeHealthV1 = some len ∧ Lossless NodeHealthV1.serialize NodeHealthV1.deserialize id len) ∧
    (∀ schema, fixedPayloadLen .ping schema = none ∧ LosslessView Ping.serialize Ping.deserialize Ping.data pingMaxEcho ∧
      ∀ (v : Ping) (cap : Nat), pingMaxEcho < v.data.length → v.serialize cap = .error .badLength) ∧
    (∀ schema, fixedPayloadLen .hexReq schema = none ∧ LosslessView HexReq.serializeTo HexReq.deserializeIn HexReq.hex 255) ∧
    (∀ schema, fixedPayloadLen .hexRsp schema = none ∧ LosslessView HexRsp.serializeTo HexRsp.deserializeIn HexRsp.hex 255) :=
  ⟨fun _ => ⟨4,rfl,command_lossless⟩,fun _ => ⟨6,rfl,commandAck_lossless⟩,fun _ => ⟨1,rfl,poll_lossless⟩,fun _ => ⟨4,rfl,error_lossless⟩,
    ⟨78,rfl,statusV1_lossless⟩,⟨80,rfl,statusV2_lossless⟩,⟨16,rfl,event_lossless⟩,⟨20,rfl,health_lossless⟩,
    fun _ => ⟨rfl,ping_lossless,ping_excess⟩,fun _ => ⟨rfl,hexReq_lossless⟩,fun _ => ⟨rfl,hexRsp_lossless⟩⟩

-- A PING's count is a byte, and from 203 on the serializer refuses it whatever the buffer.
theorem long_echo_refused : ¬ ∀ v : Ping, v.data.length < 256 → ∃ bytes, v.serialize 257 = .ok bytes := by
  intro sent
  obtain ⟨bytes,made⟩ := sent ⟨0,List.replicate 203 0⟩ (by rw [List.length_replicate]; decide)
  rw [ping_excess _ _ (by rw [List.length_replicate]; decide)] at made
  cases made

end LoraRan.Protocol
