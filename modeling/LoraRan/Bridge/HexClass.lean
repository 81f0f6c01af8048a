import LoraRan.Bridge.HexProxy
import LoraRan.VeDirect.HexCodec

namespace LoraRan.Bridge
open Protocol
open VeDirect hiding encode
open Library.LittleEndian (u8At)

-- The payload of the HEX_REQ that carries a string.
def hexReqPayload (hex : Bytes) : Bytes := ({flags := if classifyHex hex = .write then hexReqFlagWriteClass else 0,hex := hex} : HexReq).serialize

theorem buildHexReqFrame_payload (dst : NodeId) (ctx : CtxId) (seq : Seq) (ver : UInt8) (hex : Bytes) (ectx : EncodeCtx) (cap : Nat)
    (some : hex.length ≠ 0) (short : hex.length ≤ hexMaxChars) :
    buildHexReqFrame dst ctx seq ver hex ectx cap = (Protocol.encode (hexHeader dst ctx seq ver) (hexReqPayload hex) ectx cap).toOption :=
  if_neg (by omega)

theorem frameText_length (cmd : UInt8) (bytes : Bytes) : (frameText cmd bytes).length = 2 + 2 * bytes.length := by
  unfold frameText
  rw [List.length_cons,List.length_cons,pairs_length]
  omega

-- The class goes by the command on both sides.
theorem class_agrees {s : Bytes} {f : HexFrame} (accepted : decode s = .ok f) :
    classifyHex s = .write ↔ hexReqIsWriteClass (hexReqPayload s) = true := by
  obtain ⟨bytes,good,text,_⟩ := decode_is accepted
  have pos := List.length_pos_iff.mpr good.some
  have short := good.short
  have long := frameText_length f.cmd bytes
  rw [← text] at long
  simp only [maxData] at short
  have count : (UInt8.ofNat s.length).toNat = s.length := by
    rw [UInt8.toNat_ofNat']
    exact Nat.mod_eq_of_lt (by omega)
  have class_ : classifyHex s = .write ↔ f.cmd = cmdSet ∨ f.cmd = cmdRestart := by
    unfold classifyHex
    rw [accepted]
    dsimp only
    split <;> simp_all
  have shape : ∃ flags, hexReqPayload s = flags :: UInt8.ofNat s.length :: colon :: digitOf f.cmd :: bytes.flatMap digitPair :=
    ⟨if classifyHex s = .write then hexReqFlagWriteClass else 0,congrArg ([_,_] ++ ·) text⟩
  obtain ⟨flags,shape⟩ := shape
  have total : (hexReqPayload s).length = 2 + s.length := by
    rw [shape]
    simp only [List.length_cons,pairs_length]
    omega
  have announced : u8At (hexReqPayload s) 1 = UInt8.ofNat s.length := by rw [shape]; rfl
  have two : ¬ (UInt8.ofNat s.length < 2 ∨ (hexReqPayload s).length < 2 + (UInt8.ofNat s.length).toNat) := by
    rw [UInt8.lt_iff_toNat_lt,count,total]
    change ¬ (s.length < 2 ∨ _)
    omega
  rw [class_]
  unfold hexReqIsWriteClass
  rw [if_neg (by omega),announced,if_neg two,shape]
  have opens : u8At (flags :: UInt8.ofNat s.length :: colon :: digitOf f.cmd :: bytes.flatMap digitPair) 2 = colon := rfl
  have third : u8At (flags :: UInt8.ofNat s.length :: colon :: digitOf f.cmd :: bytes.flatMap digitPair) 3 = digitOf f.cmd := rfl
  simp only [opens,third,digitValue_hexNibble _ _ (digitOf_reads f.cmd good.nibble)]
  rw [if_neg fun other => other rfl]
  rw [Bool.or_eq_true,beq_iff_eq,beq_iff_eq]
  exact Iff.rfl

-- The codec is exact both ways, and the bridge's gate and the frame's MAC go by one class.
theorem hex_codec_and_class :
    (∀ cmd data cap, cmd ≤ 0xF → data.length ≤ maxData → 2 + 2 * data.length + 2 ≤ cap → ∃ s, VeDirect.encode cmd data cap = some s ∧ decode s = .ok ⟨cmd,data⟩) ∧
    (∀ s f, decode s = .ok f → VeDirect.encode f.cmd f.data maxChars = some s) ∧
    (∀ s, (∃ f, decode s = .ok f) ↔ ∃ cmd bytes, GoodFrame cmd bytes ∧ s = frameText cmd bytes) ∧
    (∀ reg value width cap, width = 1 ∨ width = 2 ∨ width = 4 → value.toNat < 2 ^ (8 * width.toNat) → 2 + 2 * (3 + width.toNat) + 2 ≤ cap →
      ∃ s f, encodeSet reg value width cap = some s ∧ decode s = .ok f ∧ regReply f = some ⟨cmdSet,reg,0,value,width⟩) ∧
    (∀ s f, decode s = .ok f → (∀ dst ctx seq ver ectx cap,
        buildHexReqFrame dst ctx seq ver s ectx cap = (Protocol.encode (hexHeader dst ctx seq ver) (hexReqPayload s) ectx cap).toOption) ∧
      (classifyHex s = .write ↔ hexReqIsWriteClass (hexReqPayload s) = true)) := by
  refine ⟨fun _ _ _ => frame_written,fun _ _ => frame_read,?_,fun reg value width cap => regReply_encodeSet reg value width cap,?_⟩
  · intro s
    constructor
    · rintro ⟨f,accepted⟩
      obtain ⟨bytes,good,text,_⟩ := decode_is accepted
      exact ⟨f.cmd,bytes,good,text⟩
    · rintro ⟨cmd,bytes,good,rfl⟩
      exact ⟨_,decode_frameText good⟩
  · intro s f accepted
    obtain ⟨bytes,good,text,_⟩ := decode_is accepted
    have long := frameText_length f.cmd bytes
    have short := good.short
    rw [← text] at long
    refine ⟨fun dst ctx seq ver ectx cap => buildHexReqFrame_payload dst ctx seq ver s ectx cap (by omega) ?_,class_agrees accepted⟩
    simp only [hexMaxChars,maxChars]
    omega

-- The one-byte set of register 0x0200 to 0, ":8000200004B".
theorem hex_codec_and_class_device_mode :
    (∃ s f, encodeSet 0x0200 0 1 maxChars = some s ∧ decode s = .ok f ∧ regReply f = some ⟨cmdSet,0x0200,0,0,1⟩) ∧
      classifyHex [0x3A,0x38,0x30,0x30,0x30,0x32,0x30,0x30,0x30,0x30,0x34,0x42] = .write ∧
      hexReqIsWriteClass (hexReqPayload [0x3A,0x38,0x30,0x30,0x30,0x32,0x30,0x30,0x30,0x30,0x34,0x42]) = true := by
  have writes : classifyHex [0x3A,0x38,0x30,0x30,0x30,0x32,0x30,0x30,0x30,0x30,0x34,0x42] = .write := by decide +kernel
  refine ⟨hex_codec_and_class.2.2.2.1 0x0200 0 1 maxChars (.inl rfl) (by decide) (by decide),writes,?_⟩
  exact (hex_codec_and_class.2.2.2.2 _ ⟨cmdSet,[0x00,0x02,0x00,0x00]⟩ (by rfl)).2.mp writes

end LoraRan.Bridge
