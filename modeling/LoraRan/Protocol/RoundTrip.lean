import LoraRan.Protocol.Codec

namespace LoraRan.Protocol
open Library.LittleEndian

-- What the wire keeps of a header: one flag bit, and zeros where the format reserves space.
def wireHeader (h : Header) : Header := {h with hdrFlags := h.hdrFlags &&& hdrFlagCriticalExt,reserved := (0,0,0)}

@[simp] theorem wireHeader_ver (h : Header) : (wireHeader h).ver = h.ver := rfl
@[simp] theorem wireHeader_type (h : Header) : (wireHeader h).type = h.type := rfl
@[simp] theorem wireHeader_dst (h : Header) : (wireHeader h).dst = h.dst := rfl
@[simp] theorem wireHeader_ctxId (h : Header) : (wireHeader h).ctxId = h.ctxId := rfl
@[simp] theorem wireHeader_schema (h : Header) : (wireHeader h).schema = h.schema := rfl
@[simp] theorem wireHeader_fragTotal (h : Header) : (wireHeader h).fragTotal = h.fragTotal := rfl
@[simp] theorem wireHeader_fragIndex (h : Header) : (wireHeader h).fragIndex = h.fragIndex := rfl

theorem wireHeader_plain (hdr : Header) (plain : hdr.criticalExt = false) :
    wireHeader hdr = {hdr with hdrFlags := 0,reserved := (0,0,0)} := by
  have zero : hdr.hdrFlags &&& hdrFlagCriticalExt = 0 := by simpa [Header.criticalExt] using plain
  simp [wireHeader,zero]

-- The frames the format admits. The encoder refuses everything else and the decoder accepts nothing else.
structure Admissible (hdr : Header) (payload : Bytes) : Prop where
  named : typeIsKnown hdr.type.code = true
  counted : hdr.fragTotal ≠ 0
  indexed : hdr.fragIndex < hdr.fragTotal
  fragmentable : 1 < hdr.fragTotal → typeIsFragmentable hdr.type = true
  schema : schemaIsKnown hdr.type hdr.schema = true
  sized : checkPayloadLen hdr payload = .ok
  fits : frameLen payload.length (frameHasMac hdr.type payload) ≠ 0

@[simp] theorem writeHeader_length (h : Header) : (writeHeader h).length = hdrLen := rfl

theorem withCrc_length (body : Bytes) : (withCrc body).length = body.length + crcLen := by
  simp [withCrc,crcLen]

theorem readHeader_writeHeader (h : Header) (rest : Bytes) : readHeader (writeHeader h ++ rest) = wireHeader h := by
  simp [readHeader,writeHeader,u16At,u32At,u16Bytes,u32Bytes,u16Of_bytes,u32Of_bytes,ofCode_code,wireHeader]

theorem macField_length (ctx : EncodeCtx) (present : Bool) (covered tag : Bytes)
    (made : macField ctx present covered = some tag) : tag.length = if present then macLen else 0 := by
  unfold macField at made
  split at made
  · split at made
    · cases made
      simp [*,Mac.length]
    · cases made
  · cases made
    simp [*]

theorem ctEqual_refl (bytes : Bytes) : ctEqual bytes bytes = true := by
  have folded (count : Nat) : (List.replicate count (0 : UInt8)).foldl (· ||| ·) 0 = 0 := by
    induction count with
    | zero => rfl
    | succ count ih => simpa [List.replicate_succ] using ih
  simp [ctEqual,folded]

theorem or_eq_zero (a b : UInt8) (zero : a ||| b = 0) : a = 0 ∧ b = 0 := by
  have numbers : a.toNat ||| b.toNat = 0 := by
    rw [← UInt8.toNat_or,zero]; rfl
  have both := Nat.or_eq_zero_iff.mp numbers
  exact ⟨UInt8.toNat_inj.mp both.1,UInt8.toNat_inj.mp both.2⟩

theorem ctEqual_sound (a b : Bytes) (lengths : a.length = b.length) (equal : ctEqual a b = true) : a = b := by
  -- A nonzero accumulator never returns to zero, so the fold is zero only if every difference is.
  have folded (differences : Bytes) (acc : UInt8) (zero : differences.foldl (· ||| ·) acc = 0) :
      acc = 0 ∧ ∀ difference ∈ differences, difference = 0 := by
    induction differences generalizing acc with
    | nil => exact ⟨zero,by simp⟩
    | cons head tail ih =>
        obtain ⟨accZero,tailZero⟩ := ih (acc ||| head) zero
        obtain ⟨first,second⟩ := or_eq_zero _ _ accZero
        refine ⟨first,?_⟩
        intro difference member
        rcases List.mem_cons.mp member with rfl | later
        · exact second
        · exact tailZero difference later
  have differences := (folded _ _ (by simpa [ctEqual] using equal)).2
  clear equal
  induction a generalizing b with
  | nil => exact (List.length_eq_zero_iff.mp lengths.symm).symm
  | cons head tail ih =>
      cases b with
      | nil => cases lengths
      | cons other rest =>
          have heads := differences (head ^^^ other) (by simp)
          have tails := ih rest (by simpa using lengths) (fun difference member => differences difference (by simp [member]))
          rw [UInt8.xor_eq_zero_iff.mp heads,tails]

theorem encode_parts (hdr : Header) (payload : Bytes) (ctx : EncodeCtx) (cap : Nat) (bytes : Bytes)
    (accepted : encode hdr payload ctx cap = .ok bytes) :
    Admissible hdr payload ∧ frameLen payload.length (frameHasMac hdr.type payload) ≤ cap ∧
      ∃ tag, macField ctx (frameHasMac hdr.type payload) (writeHeader hdr ++ payload) = some tag ∧
        bytes = withCrc (writeHeader hdr ++ payload ++ tag) := by
  unfold encode at accepted
  split at accepted; · cases accepted
  rename_i named
  split at accepted; · cases accepted
  rename_i counted
  split at accepted; · cases accepted
  rename_i indexed
  split at accepted; · cases accepted
  rename_i fragmentable
  split at accepted; · cases accepted
  rename_i schema
  split at accepted; · cases accepted
  rename_i sized
  dsimp only at accepted
  split at accepted; · cases accepted
  rename_i fits
  split at accepted; · cases accepted
  rename_i room
  split at accepted
  · cases accepted
  · rename_i tag made
    cases accepted
    refine ⟨⟨by simpa using named,counted,?_,?_,by simpa using schema,by simpa using sized,fits⟩,by omega,tag,made,rfl⟩
    · simp only [not_or,UInt8.not_le] at indexed
      exact indexed.2
    · intro several
      by_contra refused
      exact fragmentable ⟨several,by simpa using refused⟩

theorem encode_of_parts (hdr : Header) (payload : Bytes) (ctx : EncodeCtx) (cap : Nat) (tag : Bytes)
    (admitted : Admissible hdr payload) (room : frameLen payload.length (frameHasMac hdr.type payload) ≤ cap)
    (made : macField ctx (frameHasMac hdr.type payload) (writeHeader hdr ++ payload) = some tag) :
    encode hdr payload ctx cap = .ok (withCrc (writeHeader hdr ++ payload ++ tag)) := by
  have inRange : ¬ (maxFragments < hdr.fragTotal ∨ hdr.fragTotal ≤ hdr.fragIndex) := by
    rintro (many | late)
    · exact absurd (fragTotal_le hdr) (UInt8.not_le.mpr many)
    · exact absurd admitted.indexed (UInt8.not_lt.mpr late)
  have whole : ¬ (1 < hdr.fragTotal ∧ (!typeIsFragmentable hdr.type) = true) := by
    rintro ⟨several,refused⟩
    simp [admitted.fragmentable several] at refused
  unfold encode
  rw [if_neg (by simp [admitted.named]),if_neg admitted.counted,if_neg inRange,if_neg whole,
    if_neg (by simp [admitted.schema]),if_neg (by simp [admitted.sized])]
  dsimp only
  rw [if_neg admitted.fits,if_neg (by omega),made]

theorem withCrc_body (body : Bytes) : (withCrc body).take ((withCrc body).length - crcLen) = body := by
  rw [withCrc_length,Nat.add_sub_cancel]
  simp [withCrc]

theorem withCrc_crc (body : Bytes) : u16At (withCrc body) ((withCrc body).length - 2) = crc16CcittFalse body := by
  have offset : (withCrc body).length - 2 = body.length := by rw [withCrc_length]; simp [crcLen]
  rw [offset,u16At,withCrc,u8At_append_right _ _ _ (Nat.le_refl _),u8At_append_right _ _ _ (by omega)]
  simp [u16Bytes,u16Of_bytes]

-- The receiver's side of the agreement, as the round trip states it.
structure Listening (hdr : Header) (ctx : DecodeCtx) : Prop where
  oldest : ctx.acceptVerMin ≤ hdr.ver
  newest : hdr.ver ≤ ctx.acceptVerMax
  addressed : hdr.dst = ctx.self ∨ hdr.dst = nodeBroadcast
  context : ctx.expectCtxId = 0 ∨ ctx.expectCtxId = hdr.ctxId

theorem decodeHeader_encoded (hdr : Header) (rest : Bytes) (ctx : DecodeCtx)
    (named : typeIsKnown hdr.type.code = true) (counted : hdr.fragTotal ≠ 0) (indexed : hdr.fragIndex < hdr.fragTotal)
    (plain : hdr.criticalExt = false) (listening : Listening hdr ctx)
    (short : (writeHeader hdr ++ rest).length + crcLen ≤ maxFrame) :
    decodeHeader (withCrc (writeHeader hdr ++ rest)) ctx = (.ok,{hdr := wireHeader hdr}) := by
  have length := withCrc_length (writeHeader hdr ++ rest)
  have front : readHeader (withCrc (writeHeader hdr ++ rest)) = wireHeader hdr := by
    rw [withCrc,List.append_assoc,readHeader_writeHeader]
  unfold decodeHeader
  rw [if_neg (by rw [length]; simp [minFrame]),if_neg (by omega),withCrc_body,withCrc_crc,if_neg (by simp),front]
  have version : ¬ ((wireHeader hdr).ver < ctx.acceptVerMin ∨ ctx.acceptVerMax < (wireHeader hdr).ver) := by
    rintro (old | new)
    · exact absurd listening.oldest (UInt8.not_le.mpr old)
    · exact absurd listening.newest (UInt8.not_le.mpr new)
  have addressed : ¬ ((wireHeader hdr).dst ≠ ctx.self ∧ (wireHeader hdr).dst ≠ nodeBroadcast) := by
    rintro ⟨other,directed⟩
    rcases listening.addressed with own | broadcast
    · exact other own
    · exact directed broadcast
  have flags : ¬ (wireHeader hdr).criticalExt = true := by
    rw [wireHeader_plain hdr plain]
    simp [Header.criticalExt]
  have total : ¬ (wireHeader hdr).fragTotal = 0 := counted
  have index : ¬ (wireHeader hdr).fragTotal ≤ (wireHeader hdr).fragIndex := UInt8.not_le.mpr indexed
  have known : ¬ (!typeIsKnown (wireHeader hdr).type.code) = true := by simp [named]
  dsimp only
  rw [if_neg version,if_neg addressed,if_neg flags,if_neg total,if_neg index,if_neg known]

-- The payload boundary is recovered from the type, or for HEX_REQ from the payload's own length byte.
theorem payloadBoundary_encoded (hdr : Header) (front payload tag : Bytes) (head : front.length = hdrLen)
    (fragmentable : 1 < hdr.fragTotal → typeIsFragmentable hdr.type = true)
    (sized : checkPayloadLen hdr payload = .ok)
    (tagged : tag.length = if frameHasMac hdr.type payload then macLen else 0) :
    payloadBoundary hdr (withCrc (front ++ payload ++ tag)) = .ok (frameHasMac hdr.type payload,payload.length) := by
  have bodyLen : (withCrc (front ++ payload ++ tag)).length - hdrLen - crcLen = payload.length + tag.length := by
    rw [withCrc_length]
    simp only [List.length_append,head]
    omega
  unfold payloadBoundary
  rw [bodyLen]
  dsimp only
  split
  · rename_i hex
    have single : ¬ 1 < hdr.fragTotal := by
      intro several
      have refused := fragmentable several
      rw [hex,hexReq_not_fragmentable] at refused
      cases refused
    obtain ⟨least,selfLength⟩ := checkPayloadLen_hexReq hdr payload hex single sized
    have lengthByte : u8At (withCrc (front ++ payload ++ tag)) (hdrLen + 1) = u8At payload 1 := by
      rw [withCrc,List.append_assoc,List.append_assoc,u8At_append_right _ _ _ (by omega)]
      rw [show hdrLen + 1 - front.length = 1 by omega,u8At_append_left _ _ _ (by omega)]
    rw [if_neg single,if_neg (by omega),lengthByte,← selfLength,if_neg (by omega)]
    rw [Nat.add_sub_cancel_left,tagged]
    have written : frameHasMac hdr.type payload = hexReqIsWriteClass payload := by
      simp [frameHasMac,hex,typeRequiresMac]
    rw [written]
    cases hexReqIsWriteClass payload with
    | true => simp
    | false => simp [macLen,hex,typeRequiresMac]
  · rename_i other
    have present : frameHasMac hdr.type payload = typeRequiresMac hdr.type := by
      cases required : typeRequiresMac hdr.type <;> simp [frameHasMac,required,other]
    rw [present] at tagged ⊢
    rw [tagged]
    cases typeRequiresMac hdr.type <;> simp

theorem authenticate_own (hdr : Header) (payload tag covered : Bytes) (sender : EncodeCtx) (ctx : DecodeCtx)
    (context : ctx.expectCtxId ≠ 0 → frameHasMac hdr.type payload = true → hdr.ctxId = ctx.expectCtxId) (sameMac : ctx.mac = sender.mac) (sameKey : ctx.nodeKey = sender.nodeKey)
    (made : macField sender (frameHasMac hdr.type payload) covered = some tag) :
    authenticate ctx covered {hdr := hdr,payload := payload,mac := if frameHasMac hdr.type payload then some tag else none} =
      (.ok,{hdr := hdr,payload := payload,mac := if frameHasMac hdr.type payload then some tag else none,
            macVerified := frameHasMac hdr.type payload}) := by
  unfold authenticate
  rw [if_neg (by rintro ⟨expects,present,differs⟩; exact differs (context expects present))]
  cases present : frameHasMac hdr.type payload with
  | false =>
      have readClass : ¬ (hdr.type = .hexReq ∧ hexReqIsWriteClass payload = true) := by
        rintro ⟨hex,written⟩
        simp [frameHasMac,hex,typeRequiresMac,written] at present
      rw [if_neg (by rintro ⟨hex,_,written⟩; exact readClass ⟨hex,written⟩)]
      simp
  | true =>
      rw [if_neg (by simp)]
      rw [present] at made
      simp only [macField,if_true] at made
      split at made
      · rename_i mac key hmac hkey
        cases made
        simp [sameMac,sameKey,hmac,hkey,ctEqual_refl]
      · cases made

-- An encoded frame passes every stage of the decoder up to the last, whatever context reads it.
theorem decodePayload_authenticate (hdr : Header) (payload tag : Bytes) (sender : EncodeCtx) (ctx : DecodeCtx)
    (admitted : Admissible hdr payload)
    (made : macField sender (frameHasMac hdr.type payload) (writeHeader hdr ++ payload) = some tag) :
    decodePayload (withCrc (writeHeader hdr ++ payload ++ tag)) ctx {hdr := wireHeader hdr} =
      authenticate ctx (writeHeader hdr ++ payload)
        {hdr := wireHeader hdr,payload := payload,mac := if frameHasMac hdr.type payload then some tag else none} := by
  have tagged := macField_length _ _ _ _ made
  have bound := (frameLen_pos_iff _ _).mp admitted.fits
  have length : (withCrc (writeHeader hdr ++ payload ++ tag)).length = hdrLen + payload.length + tag.length + crcLen := by
    rw [withCrc_length]; simp only [List.length_append,writeHeader_length]
  have boundary := payloadBoundary_encoded (wireHeader hdr) (writeHeader hdr) payload tag rfl admitted.fragmentable
    admitted.sized tagged
  have dropped : (withCrc (writeHeader hdr ++ payload ++ tag)).drop hdrLen = payload ++ (tag ++
      u16Bytes (crc16CcittFalse (writeHeader hdr ++ payload ++ tag))) := by
    rw [withCrc,List.append_assoc,List.append_assoc,List.drop_left' (writeHeader_length hdr)]
  have tail : (withCrc (writeHeader hdr ++ payload ++ tag)).drop (hdrLen + payload.length) = tag ++
      u16Bytes (crc16CcittFalse (writeHeader hdr ++ payload ++ tag)) := by
    rw [← List.drop_drop,dropped,List.drop_left' rfl]
  have covered : (withCrc (writeHeader hdr ++ payload ++ tag)).take (hdrLen + payload.length) = writeHeader hdr ++ payload := by
    rw [withCrc,List.append_assoc,List.take_left' (by simp)]
  have field : (if frameHasMac hdr.type payload then
      some ((tag ++ u16Bytes (crc16CcittFalse (writeHeader hdr ++ payload ++ tag))).take macLen) else none) =
      if frameHasMac hdr.type payload then some tag else none := by
    cases present : frameHasMac hdr.type payload with
    | false => rfl
    | true => rw [if_pos rfl,if_pos rfl,List.take_left' (by rw [tagged,present]; rfl)]
  unfold decodePayload
  rw [if_neg (by rw [length,tagged]; simp only [minFrame]; omega)]
  simp only [wireHeader_type,wireHeader_fragTotal,wireHeader_fragIndex,wireHeader_schema]
  rw [if_neg admitted.counted,if_neg (by rintro (many | late)
                                         · exact absurd (fragTotal_le hdr) (UInt8.not_le.mpr many)
                                         · exact absurd admitted.indexed (UInt8.not_lt.mpr late)),boundary]
  simp only [wireHeader_type,dropped,tail,covered,List.take_left']
  rw [if_neg (by simp [admitted.schema]),if_neg (by rintro ⟨several,refused⟩; simp [admitted.fragmentable several] at refused)]
  have sized : checkPayloadLen (wireHeader hdr) payload = .ok := admitted.sized
  rw [if_neg (by simp [sized]),field]

theorem decodePayload_encoded (hdr : Header) (payload tag : Bytes) (sender : EncodeCtx) (ctx : DecodeCtx)
    (admitted : Admissible hdr payload) (listening : Listening hdr ctx)
    (sameMac : ctx.mac = sender.mac) (sameKey : ctx.nodeKey = sender.nodeKey)
    (made : macField sender (frameHasMac hdr.type payload) (writeHeader hdr ++ payload) = some tag) :
    decodePayload (withCrc (writeHeader hdr ++ payload ++ tag)) ctx {hdr := wireHeader hdr} =
      (.ok,{hdr := wireHeader hdr,payload := payload,
            mac := if frameHasMac hdr.type payload then some tag else none,
            macVerified := frameHasMac hdr.type payload}) := by
  rw [decodePayload_authenticate hdr payload tag sender ctx admitted made]
  refine authenticate_own (wireHeader hdr) payload tag _ sender ctx ?_ sameMac sameKey made
  intro expects _
  rcases listening.context with none | same
  · exact absurd none expects
  · exact same.symm

theorem readHeader_encoded (hdr : Header) (payload tag : Bytes) :
    readHeader (withCrc (writeHeader hdr ++ payload ++ tag)) = wireHeader hdr := by
  rw [withCrc,List.append_assoc,List.append_assoc]
  exact readHeader_writeHeader hdr _


theorem decode_encode (hdr : Header) (payload : Bytes) (sender : EncodeCtx) (cap : Nat) (bytes : Bytes) (ctx : DecodeCtx)
    (accepted : encode hdr payload sender cap = .ok bytes) (listening : Listening hdr ctx)
    (sameMac : ctx.mac = sender.mac) (sameKey : ctx.nodeKey = sender.nodeKey) (plain : hdr.criticalExt = false) :
    ∃ header frame, decodeHeader bytes ctx = (.ok,header) ∧ decodePayload bytes ctx header = (.ok,frame) ∧
      frame.hdr = {hdr with hdrFlags := 0,reserved := (0,0,0)} ∧ frame.payload = payload ∧
      frame.macVerified = frameHasMac hdr.type payload ∧
      bytes.length = frameLen payload.length (frameHasMac hdr.type payload) ∧ bytes.length ≤ maxFrame := by
  obtain ⟨admitted,_,tag,made,rfl⟩ := encode_parts _ _ _ _ _ accepted
  have tagged := macField_length _ _ _ _ made
  have bound := (frameLen_pos_iff _ _).mp admitted.fits
  have length : (withCrc (writeHeader hdr ++ payload ++ tag)).length =
      frameLen payload.length (frameHasMac hdr.type payload) := by
    rw [withCrc_length,frameLen_eq _ _ admitted.fits]
    simp only [List.length_append,writeHeader_length,tagged]
  have short : (writeHeader hdr ++ (payload ++ tag)).length + crcLen ≤ maxFrame := by
    simp only [List.length_append,writeHeader_length,tagged]
    omega
  refine ⟨{hdr := wireHeader hdr},_,?_,decodePayload_encoded hdr payload tag sender ctx admitted listening sameMac sameKey made,
    wireHeader_plain hdr plain,rfl,rfl,length,?_⟩
  · rw [List.append_assoc]
    exact decodeHeader_encoded hdr (payload ++ tag) ctx admitted.named admitted.counted admitted.indexed plain listening short
  · rw [length,frameLen_eq _ _ admitted.fits]
    exact bound

-- A concrete frame for the round trip: a COMMAND under a key of zeros and a MAC that repeats its input's length.
def lengthMac : Mac where
  hmacSha256Trunc _ data := List.replicate macLen (UInt8.ofNat data.length)
  length _ _ := List.length_replicate

def openCommand : Header := {type := .command,src := nodeBridge,dst := nodeGateLink,seq := 7,ctxId := 0x01020304}

theorem decode_encode_command :
    ∃ bytes header frame, encode openCommand [1,0,0,0] ⟨some lengthMac,some zeroKey⟩ 222 = .ok bytes ∧
      decodeHeader bytes {self := nodeGateLink,mac := some lengthMac,nodeKey := some zeroKey} = (.ok,header) ∧
      decodePayload bytes {self := nodeGateLink,mac := some lengthMac,nodeKey := some zeroKey} header = (.ok,frame) ∧
      frame.payload = [1,0,0,0] := by
  have accepted : encode openCommand [1,0,0,0] ⟨some lengthMac,some zeroKey⟩ 222 =
      .ok (withCrc (writeHeader openCommand ++ [1,0,0,0] ++ List.replicate 8 20)) := by rfl
  obtain ⟨header,frame,first,second,_,payload,_⟩ := decode_encode openCommand [1,0,0,0] ⟨some lengthMac,some zeroKey⟩ 222 _
    {self := nodeGateLink,mac := some lengthMac,nodeKey := some zeroKey} accepted
    ⟨by decide,by decide,.inl rfl,.inl rfl⟩ rfl rfl (by decide)
  exact ⟨_,header,frame,accepted,first,second,payload⟩

theorem decodeHeader_parts (buf : Bytes) (ctx : DecodeCtx) (header : Frame) (accepted : decodeHeader buf ctx = (.ok,header)) :
    minFrame ≤ buf.length ∧ buf.length ≤ maxFrame ∧
      crc16CcittFalse (buf.take (buf.length - crcLen)) = u16At buf (buf.length - 2) ∧ header = {hdr := readHeader buf} ∧
      (readHeader buf).criticalExt = false ∧ (readHeader buf).fragTotal ≠ 0 ∧
      (readHeader buf).fragIndex < (readHeader buf).fragTotal ∧ typeIsKnown (readHeader buf).type.code = true := by
  unfold decodeHeader at accepted
  split at accepted; · cases accepted
  split at accepted; · cases accepted
  split at accepted; · cases accepted
  rename_i long short crc
  dsimp only at accepted
  split at accepted; · cases accepted
  split at accepted; · cases accepted
  split at accepted; · cases accepted
  rename_i flags
  split at accepted; · cases accepted
  rename_i counted
  split at accepted; · cases accepted
  rename_i indexed
  split at accepted; · cases accepted
  rename_i named
  cases accepted
  exact ⟨by omega,by omega,by simpa using crc,rfl,by simpa using flags,counted,UInt8.not_le.mp indexed,by simpa using named⟩

theorem payloadBoundary_length (h : Header) (buf : Bytes) (present : Bool) (payloadLen : Nat) (long : minFrame ≤ buf.length)
    (accepted : payloadBoundary h buf = .ok (present,payloadLen)) :
    buf.length = hdrLen + payloadLen + (if present then macLen else 0) + crcLen ∧
      (h.type ≠ .hexReq → present = typeRequiresMac h.type) := by
  simp only [minFrame] at long
  unfold payloadBoundary at accepted
  dsimp only at accepted
  split at accepted
  · rename_i hex
    split at accepted; · cases accepted
    split at accepted; · cases accepted
    split at accepted; · cases accepted
    split at accepted
    · cases accepted
      exact ⟨by simp only [if_true]; omega,fun other => absurd hex other⟩
    · split at accepted; · cases accepted
      cases accepted
      refine ⟨?_,fun other => absurd hex other⟩
      simp only [hex,typeRequiresMac,Bool.false_eq_true,if_false]
      omega
  · split at accepted; · cases accepted
    rename_i wide
    cases accepted
    refine ⟨?_,fun _ => rfl⟩
    cases required : typeRequiresMac h.type
    · simp only [Bool.false_eq_true,if_false]; omega
    · simp only [required,true_and] at wide
      simp only [if_true]; omega

theorem authenticate_parts (ctx : DecodeCtx) (covered : Bytes) (frame verified : Frame)
    (accepted : authenticate ctx covered frame = (.ok,verified)) :
    (ctx.expectCtxId ≠ 0 → frameHasMac frame.hdr.type frame.payload = true → frame.hdr.ctxId = ctx.expectCtxId) ∧
      (frame.hdr.type = .hexReq → frame.mac = none → hexReqIsWriteClass frame.payload = false) ∧
      verified.hdr = frame.hdr ∧ verified.payload = frame.payload ∧ verified.mac = frame.mac ∧
      ∀ tag mac key, frame.mac = some tag → ctx.mac = some mac → ctx.nodeKey = some key →
        ctEqual (mac.hmacSha256Trunc key covered) tag = true ∧ verified.macVerified = true := by
  unfold authenticate at accepted
  split at accepted; · cases accepted
  rename_i context
  split at accepted; · cases accepted
  rename_i written
  have sameContext : ctx.expectCtxId ≠ 0 → frameHasMac frame.hdr.type frame.payload = true →
      frame.hdr.ctxId = ctx.expectCtxId := by
    intro expects present
    by_contra differs
    exact context ⟨expects,present,differs⟩
  have readClass : frame.hdr.type = .hexReq → frame.mac = none → hexReqIsWriteClass frame.payload = false := by
    intro hex absent
    by_contra write
    exact written ⟨hex,absent,by simpa using write⟩
  split at accepted
  · rename_i tag mac key hTag hMac hKey
    split at accepted
    · rename_i equal
      cases accepted
      refine ⟨sameContext,readClass,rfl,rfl,rfl,?_⟩
      intro tag' mac' key' isTag isMac isKey
      rw [hTag] at isTag; rw [hMac] at isMac; rw [hKey] at isKey
      cases isTag; cases isMac; cases isKey
      exact ⟨equal,rfl⟩
    · cases accepted
  · rename_i missing
    cases accepted
    exact ⟨sameContext,readClass,rfl,rfl,rfl,fun tag mac key isTag isMac isKey => absurd isKey (missing tag mac key isTag isMac)⟩

theorem authenticate_cases (ctx : DecodeCtx) (covered : Bytes) (frame : Frame) :
    (authenticate ctx covered frame).2.hdr = frame.hdr ∧ (authenticate ctx covered frame).2.payload = frame.payload ∧
      ((authenticate ctx covered frame).1 = .ok ∨ (authenticate ctx covered frame).1 = .rejectedCtx ∨
        (authenticate ctx covered frame).1 = .rejectedMac) := by
  unfold authenticate
  split
  · exact ⟨rfl,rfl,.inr (.inl rfl)⟩
  · split
    · exact ⟨rfl,rfl,.inr (.inr rfl)⟩
    · split
      · split
        · exact ⟨rfl,rfl,.inl rfl⟩
        · exact ⟨rfl,rfl,.inr (.inr rfl)⟩
      · exact ⟨rfl,rfl,.inl rfl⟩

theorem decodePayload_parts (buf : Bytes) (ctx : DecodeCtx) (inout frame : Frame)
    (accepted : decodePayload buf ctx inout = (.ok,frame)) :
    ∃ present payloadLen, minFrame ≤ buf.length ∧ buf.length ≤ maxFrame ∧
      payloadBoundary inout.hdr buf = .ok (present,payloadLen) ∧
      schemaIsKnown inout.hdr.type inout.hdr.schema = true ∧
      (1 < inout.hdr.fragTotal → typeIsFragmentable inout.hdr.type = true) ∧
      checkPayloadLen inout.hdr ((buf.drop hdrLen).take payloadLen) = .ok ∧
      authenticate ctx (buf.take (hdrLen + payloadLen)) {inout with
        payload := (buf.drop hdrLen).take payloadLen
        mac := if present then some ((buf.drop (hdrLen + payloadLen)).take macLen) else none} = (.ok,frame) := by
  unfold decodePayload at accepted
  dsimp only at accepted
  split at accepted; · cases accepted
  rename_i bounds
  split at accepted; · cases accepted
  split at accepted; · cases accepted
  split at accepted
  · rename_i failure boundary
    cases accepted
    -- A boundary failure is never the `ok` status.
    unfold payloadBoundary at boundary
    dsimp only at boundary
    repeat' split at boundary
    all_goals cases boundary
  · rename_i present payloadLen boundary
    split at accepted; · cases accepted
    rename_i schema
    split at accepted; · cases accepted
    rename_i fragmentable
    split at accepted
    · rename_i sized
      exact absurd (congrArg Prod.fst accepted) sized
    · rename_i sized
      refine ⟨present,payloadLen,by omega,by omega,boundary,by simpa using schema,?_,by simpa using sized,accepted⟩
      intro several
      by_contra refused
      exact fragmentable ⟨several,by simpa using refused⟩

-- An encoded frame whose header passed fails at most the last stage, and under the sender's own key only for its context.
theorem decodePayload_cases (hdr : Header) (payload : Bytes) (sender : EncodeCtx) (cap : Nat) (bytes : Bytes) (headCtx ctx : DecodeCtx)
    (head f : Frame) (body : Status) (encoded : encode hdr payload sender cap = .ok bytes) (headed : decodeHeader bytes headCtx = (.ok,head))
    (decoded : decodePayload bytes ctx head = (body,f)) :
    f.hdr = wireHeader hdr ∧ f.payload = payload ∧
      (body = .ok ∧ (ctx.expectCtxId ≠ 0 → frameHasMac hdr.type payload = true → hdr.ctxId = ctx.expectCtxId) ∨
        body = .rejectedCtx ∨ body = .rejectedMac ∧ ¬ (ctx.mac = sender.mac ∧ ctx.nodeKey = sender.nodeKey)) := by
  obtain ⟨admitted,_,tag,made,rfl⟩ := encode_parts _ _ _ _ _ encoded
  obtain ⟨_,_,_,rfl,_⟩ := decodeHeader_parts _ _ _ headed
  rw [readHeader_encoded,decodePayload_authenticate hdr payload tag sender ctx admitted made] at decoded
  have stages := authenticate_cases ctx (writeHeader hdr ++ payload)
    {hdr := wireHeader hdr,payload := payload,mac := if frameHasMac hdr.type payload then some tag else none}
  rw [decoded] at stages
  obtain ⟨sameHdr,samePayload,rfl | rfl | rfl⟩ := stages
  · obtain ⟨context,_⟩ := authenticate_parts _ _ _ _ decoded
    exact ⟨sameHdr,samePayload,.inl ⟨rfl,context⟩⟩
  · exact ⟨sameHdr,samePayload,.inr (.inl rfl)⟩
  · refine ⟨sameHdr,samePayload,.inr (.inr ⟨rfl,?_⟩)⟩
    rintro ⟨sameMac,sameKey⟩
    by_cases wrong : ctx.expectCtxId ≠ 0 ∧ frameHasMac hdr.type payload ∧ hdr.ctxId ≠ ctx.expectCtxId
    · have rejected : authenticate ctx (writeHeader hdr ++ payload)
          {hdr := wireHeader hdr,payload := payload,mac := if frameHasMac hdr.type payload then some tag else none} = (.rejectedCtx,_) :=
        if_pos wrong
      cases rejected.symm.trans decoded
    · have passed := authenticate_own (wireHeader hdr) payload tag _ sender ctx
        (fun expects present => by_contra fun differs => wrong ⟨expects,present,differs⟩) sameMac sameKey made
      cases passed.symm.trans decoded

theorem high_bit_only (flags : UInt8) (low : flags &&& 0x7F = 0) : flags &&& hdrFlagCriticalExt = flags := by
  have split : (0x7F : UInt8) ||| hdrFlagCriticalExt = -1 := by decide
  calc flags &&& hdrFlagCriticalExt
      = 0 ||| (flags &&& hdrFlagCriticalExt) := by simp
    _ = (flags &&& 0x7F) ||| (flags &&& hdrFlagCriticalExt) := by rw [low]
    _ = flags &&& (0x7F ||| hdrFlagCriticalExt) := UInt8.toBitVec_inj.mp (by simp [BitVec.and_or_distrib_left])
    _ = flags := by rw [split]; simp

theorem writeHeader_readHeader (buf : Bytes) (long : hdrLen ≤ buf.length) (flags : u8At buf 12 &&& 0x7F = 0)
    (reserved : u8At buf 13 = 0 ∧ u8At buf 14 = 0 ∧ u8At buf 15 = 0) : writeHeader (readHeader buf) = buf.take hdrLen := by
  have expanded : buf.take hdrLen = (List.range hdrLen).map (u8At buf) := by
    apply List.ext_getElem
    · simp; omega
    · intro index inside _
      simp only [List.length_take] at inside
      simp [u8At,List.getElem?_eq_getElem (show index < buf.length by omega)]
  rw [expanded]
  have listed : List.range hdrLen = [0,1,2,3,4,5,6,7,8,9,10,11,12,13,14,15] := rfl
  simp only [listed,List.map_cons,List.map_nil,writeHeader,readHeader,code_ofCode,u16At,u32At,u16Bytes_of,u32Bytes_of,
    high_bit_only _ flags,reserved,List.cons_append,List.nil_append]

-- A frame as the wire form admits it exactly once: reserved space zero, and no MAC where none is due.
structure Canonical (mac : Mac) (key : NodeKey) (buf : Bytes) (frame : Frame) : Prop where
  accepted : ∃ ctx header, ctx.mac = some mac ∧ ctx.nodeKey = some key ∧ decodeHeader buf ctx = (.ok,header) ∧
    decodePayload buf ctx header = (.ok,frame)
  flags : u8At buf 12 &&& 0x7F = 0
  reserved : u8At buf 13 = 0 ∧ u8At buf 14 = 0 ∧ u8At buf 15 = 0
  due : ¬ (frame.hdr.type = .hexReq ∧ hexReqIsWriteClass frame.payload = false ∧ frame.mac ≠ none)

theorem canonical_encode (mac : Mac) (key : NodeKey) (buf : Bytes) (frame : Frame) (canonical : Canonical mac key buf frame)
    (cap : Nat) (room : buf.length ≤ cap) : encode frame.hdr frame.payload ⟨some mac,some key⟩ cap = .ok buf := by
  obtain ⟨⟨ctx,header,isMac,isKey,headed,decoded⟩,flags,reserved,due⟩ := canonical
  obtain ⟨long,short,crc,rfl,_,counted,indexed,named⟩ := decodeHeader_parts _ _ _ headed
  obtain ⟨present,payloadLen,_,_,boundary,schema,fragmentable,sized,checked⟩ := decodePayload_parts _ _ _ _ decoded
  obtain ⟨_,readClass,sameHdr,samePayload,sameMac,verified⟩ := authenticate_parts _ _ _ _ checked
  obtain ⟨length,typed⟩ := payloadBoundary_length _ _ _ _ long boundary
  dsimp only at sameHdr samePayload sameMac readClass schema fragmentable sized typed verified
  have payloadLength : ((buf.drop hdrLen).take payloadLen).length = payloadLen := by simp; omega
  rw [sameHdr,samePayload,sameMac] at due
  rw [sameHdr,samePayload]
  -- The MAC the decoder found is the MAC the encoder would add.
  have presence : present = frameHasMac (readHeader buf).type ((buf.drop hdrLen).take payloadLen) := by
    by_cases hex : (readHeader buf).type = .hexReq
    · have written : frameHasMac (readHeader buf).type ((buf.drop hdrLen).take payloadLen) =
          hexReqIsWriteClass ((buf.drop hdrLen).take payloadLen) := by simp [frameHasMac,hex,typeRequiresMac]
      rw [written]
      cases present with
      | false => exact (readClass hex (by simp)).symm
      | true =>
          by_contra differs
          exact due ⟨hex,by simpa using differs,by simp⟩
    · rw [typed hex]
      cases required : typeRequiresMac (readHeader buf).type <;> simp [frameHasMac,required,hex]
  have front : writeHeader (readHeader buf) ++ (buf.drop hdrLen).take payloadLen = buf.take (hdrLen + payloadLen) := by
    rw [writeHeader_readHeader buf (by simp only [minFrame] at long; omega) flags reserved,List.take_add]
  have made : macField ⟨some mac,some key⟩ present (writeHeader (readHeader buf) ++ (buf.drop hdrLen).take payloadLen) =
      some (((buf.drop (hdrLen + payloadLen)).take (if present then macLen else 0))) := by
    rw [front]
    cases present with
    | false => simp [macField]
    | true =>
        obtain ⟨equal,_⟩ := verified ((buf.drop (hdrLen + payloadLen)).take macLen) mac key rfl isMac isKey
        have tag := ctEqual_sound _ _ (by rw [Mac.length]; simp at length ⊢; omega) equal
        simp only [macField,if_true]
        rw [tag]
  have fits : frameLen ((buf.drop hdrLen).take payloadLen).length present ≠ 0 := by
    rw [frameLen_pos_iff,payloadLength]; omega
  have total : frameLen ((buf.drop hdrLen).take payloadLen).length present = buf.length := by
    rw [frameLen_eq _ _ fits,payloadLength]; exact length.symm
  have admitted : Admissible (readHeader buf) ((buf.drop hdrLen).take payloadLen) :=
    ⟨named,counted,indexed,fragmentable,schema,sized,by rw [← presence]; exact fits⟩
  rw [presence] at made total
  rw [encode_of_parts _ _ _ _ _ admitted (by omega) made,front,← presence]
  -- What is left of the frame is its last two bytes, which the CRC check pinned.
  have body : buf.take (hdrLen + payloadLen) ++ (buf.drop (hdrLen + payloadLen)).take (if present then macLen else 0) =
      buf.take (buf.length - crcLen) := by
    rw [← List.take_add]
    congr 1
    omega
  have tail : buf.drop (buf.length - crcLen) = u16Bytes (u16At buf (buf.length - 2)) := by
    simp only [minFrame,hdrLen,crcLen] at long
    rw [u16At,u16Bytes_of]
    apply List.ext_getElem
    · simp [crcLen]; omega
    · intro index inside outside
      simp only [List.length_cons,List.length_nil] at outside
      have either : index = 0 ∨ index = 1 := by omega
      rcases either with rfl | rfl
      · simp [u8At,crcLen,List.getElem?_eq_getElem (show buf.length - 2 < buf.length by omega)]
      · simp [u8At,crcLen,List.getElem?_eq_getElem (show buf.length - 2 + 1 < buf.length by omega)]
  rw [body,withCrc,crc,← tail,List.take_append_drop]

theorem canonical_wire_form (mac : Mac) (key : NodeKey) :
    (∀ buf frame cap, Canonical mac key buf frame → buf.length ≤ cap →
      encode frame.hdr frame.payload ⟨some mac,some key⟩ cap = .ok buf) ∧
    (∀ buf other frame frame', Canonical mac key buf frame → Canonical mac key other frame' →
      frame.hdr = frame'.hdr → frame.payload = frame'.payload → buf = other) := by
  refine ⟨fun buf frame cap canonical room => canonical_encode mac key buf frame canonical cap room,?_⟩
  intro buf other frame frame' first second sameHdr samePayload
  have firstBytes := canonical_encode mac key buf frame first (max buf.length other.length) (Nat.le_max_left _ _)
  have secondBytes := canonical_encode mac key other frame' second (max buf.length other.length) (Nat.le_max_right _ _)
  rw [sameHdr,samePayload,secondBytes] at firstBytes
  exact (Except.ok.inj firstBytes).symm

def pollFrame : Bytes := withCrc [2,3,0,1,9,0,4,3,2,1,1,0,0,0,0,0,1]

theorem canonical_wire_form_poll :
    encode {type := .poll,dst := nodeGateLink,seq := 9,ctxId := 0x01020304} [1] ⟨some lengthMac,some zeroKey⟩ 64 = .ok pollFrame := by
  have canonical : Canonical lengthMac zeroKey pollFrame
      {hdr := {type := .poll,dst := nodeGateLink,seq := 9,ctxId := 0x01020304},payload := [1]} :=
    ⟨⟨{self := nodeGateLink,mac := some lengthMac,nodeKey := some zeroKey},
      {hdr := {type := .poll,dst := nodeGateLink,seq := 9,ctxId := 0x01020304}},rfl,rfl,by decide +kernel,by decide +kernel⟩,
      by decide +kernel,by decide +kernel,by decide⟩
  exact (canonical_wire_form lengthMac zeroKey).1 _ _ 64 canonical (by decide +kernel)

end LoraRan.Protocol
