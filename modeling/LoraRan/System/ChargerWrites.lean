import LoraRan.GateLink.HexPipeline
import LoraRan.System.Authenticated

namespace LoraRan.System.ChargerWrites
open Protocol Node GateLink VeDirect Library.StepSystem Authenticated
open Library.LittleEndian (u8At u8At_cons_zero u8At_cons_succ)

def newline : UInt8 := 0x0A

-- The bytes on the charger's line: each string handed to the writer, and its newline.
def uart (wire : List HexJob) : Bytes := wire.flatMap fun job => job.hex ++ [newline]

-- A Restart or a Set, as the charger reads a line.
def isWriteLine : Bytes → Bool
  | first :: digit :: _ => first == colon && (digit == 0x36 || digit == 0x38)
  | _ => false

-- What happens to a GateLink node. vedirect_task's actions stand alone, so lora_task may run between any two of them.
inductive Input where
  | engine (input : EngineInput)
  | reboot (random : RandomFn) (phy : PhyTrial) (config : Option GateLinkConfig)
  | pollHex
  | vedParams (hexTimeoutMs : UInt32)
  | vedLine (line : Bytes)
  | vedStart (nowMs : UInt32) (took : Bool)
  | vedTick (nowMs : UInt32) (took : Bool)
  | vedPublish
  | relaysTaken
  | withholdNextAck
  | cardServiced (config : Option GateLinkConfig)

-- A reboot empties the node; what was written stays written.
def freshApp (a : GateLinkApp) (config : Option GateLinkConfig) : GateLinkApp :=
  {config := config,forwards := a.forwards,port := {link := {wire := a.port.link.wire}}}

def onApp (s : Station GateLinkApp) (f : GateLinkApp → GateLinkApp) : Station GateLinkApp :=
  {s with engine := {s.engine with app := f s.engine.app}}

section
variable (mac : Mac) (payloads : Payloads)

def step (s : Station GateLinkApp) : Input → Station GateLinkApp
  | .engine input => Authenticated.step mac (gateLinkOps payloads) s (.engine input)
  | .reboot random phy config => {s with engine := rebooted s.engine random phy (freshApp s.engine.app config)}
  | .pollHex => {s with engine := GateLink.pollHex mac s.engine}
  | .vedParams hexTimeoutMs => onApp s fun a => a.onLink {a.port.link with hexTimeoutMs := hexTimeoutMs}
  | .vedLine line => onApp s fun a => a.onLink (a.port.link.onHexLine line)
  | .vedStart nowMs took => onApp s fun a => a.vedStart nowMs took
  | .vedTick nowMs took => onApp s fun a => a.onLink (a.port.link.tick nowMs took)
  | .vedPublish => onApp s GateLinkApp.vedPublish
  | .relaysTaken => onApp s fun a => {a with port := {a.port with commands := none}}
  | .withholdNextAck => onApp s fun a => {a with withholdAck := true}
  | .cardServiced config => onApp s fun a => {a with config := config,cardRetry := false}

def start (c : Context) (random : RandomFn) (phy : PhyTrial) (config : Option GateLinkConfig) : Station GateLinkApp :=
  Authenticated.start c random phy {config := config}

def wireOf (s : Station GateLinkApp) : List HexJob := s.engine.app.port.link.wire

-- A HEX_REQ of exactly this string, whose MAC was verified and which the gate, as the frame met it, let execute.
def Attested (arrivals : List Arrival) (line : Bytes) : Prop :=
  ∃ a ∈ arrivals, ∃ f req, Verified mac a f ∧ f.hdr.type = .hexReq ∧ HexReq.deserialize f.payload = some req ∧ req.hex = line ∧
    (a.ctx.gate.check f.hdr.seq).1.verdict = .execute

def WritesAttested (s : Station GateLinkApp) : Prop :=
  ∀ line ∈ (uart (wireOf s)).splitOn newline, isWriteLine line = true → Attested mac s.arrivals line

-- The string of a HEX_REQ the receive ladder accepts.
def heardHex (c : Context) (buf : Bytes) : Option Bytes :=
  match decodeHeader buf c.headerCtx with
  | (.ok,head) =>
      match decodePayload buf (c.payloadCtx mac) head with
      | (.ok,f) => if f.hdr.type = .hexReq then (HexReq.deserialize f.payload).map HexReq.hex else none
      | _ => none
  | _ => none

-- One line, or several of which none is a write.
def plain (hex : Bytes) : Bool := !hex.contains newline || (hex.splitOn newline).all fun line => !isWriteLine line

def PlainRequests (s : Station GateLinkApp) : Input → Prop
  | .engine (.receive buf _ _) => (heardHex mac s.engine.ctx buf).all plain = true
  | _ => True

-- A string on the road came in one accepted HEX_REQ; a write among them past the gate.
def Sourced (arrivals : List Arrival) (hex : Bytes) : Prop :=
  ∃ a ∈ arrivals, ∃ f req, Accepted mac a f ∧ f.hdr.type = .hexReq ∧ HexReq.deserialize f.payload = some req ∧ req.hex = hex ∧
    (hexReqIsWriteClass f.payload = true → (a.ctx.gate.check f.hdr.seq).1.verdict = .execute)

structure Invariant (held : NodeKey) (s : Station GateLinkApp) : Prop where
  base : Authenticated.Invariant mac held s
  road : OnRoad (Sourced mac s.arrivals) s.engine.app
  plain : ∀ a ∈ s.arrivals, (heardHex mac a.ctx a.bytes).all plain = true

variable {mac payloads} {held : NodeKey}

theorem Sourced.mono {arrivals more : List Arrival} {hex : Bytes} (sourced : Sourced mac arrivals hex) (within : arrivals ⊆ more) :
    Sourced mac more hex := by
  obtain ⟨a,member,rest⟩ := sourced
  exact ⟨a,within member,rest⟩

theorem heardHex_accepted (a : Arrival) (f : Frame) (req : HexReq) (accepted : Accepted mac a f) (typed : f.hdr.type = .hexReq)
    (parsed : HexReq.deserialize f.payload = some req) : heardHex mac a.ctx a.bytes = some req.hex := by
  obtain ⟨_,head,headed,decoded⟩ := accepted
  unfold heardHex
  rw [headed]
  dsimp only
  rw [decoded]
  simp [typed,parsed]

-- HEX_REQ is never cut, so the delivery is the frame in hand.
theorem sourced_of_delivered (arrivals : List Arrival) (a : Arrival) (member : a ∈ arrivals) (d : Delivery)
    (delivered : DeliveredAt mac arrivals a d) (hex : Bytes) (permitted : Permitted a.ctx.gate d (.hexForward hex)) :
    Sourced mac arrivals hex := by
  obtain ⟨f,accepted,sameHdr,whole⟩ := delivered.last
  obtain ⟨⟨typed,req,parsed,isHex⟩,passed⟩ := permitted
  obtain ⟨_,counted,_,fragmentable⟩ := accepted_header mac a f accepted
  rw [sameHdr] at typed
  have single : f.hdr.fragTotal = 1 := by
    have few : ¬ 1 < f.hdr.fragTotal := fun several => by
      rw [typed] at fragmentable
      exact Bool.noConfusion (fragmentable several)
    have positive : f.hdr.fragTotal.toNat ≠ 0 := fun zero => counted (UInt8.toNat_inj.mp zero)
    rw [UInt8.lt_iff_toNat_lt] at few
    change ¬ 1 < f.hdr.fragTotal.toNat at few
    exact UInt8.toNat_inj.mp (show f.hdr.fragTotal.toNat = 1 by omega)
  have samePayload := whole single
  simp only [PassedGate,sameHdr,samePayload] at passed
  rw [samePayload] at parsed
  exact ⟨a,member,f,req,accepted,typed,parsed,isHex,passed⟩

theorem receive_preserves (s : Station GateLinkApp) (buf : Bytes) (random : RandomFn) (nowMs : UInt32) (valid : Invariant mac held s)
    (permitted : PlainRequests mac s (.engine (.receive buf random nowMs))) :
    Invariant mac held (step mac payloads s (.engine (.receive buf random nowMs))) := by
  have within : s.arrivals ⊆ ⟨buf,s.engine.ctx⟩ :: s.arrivals := List.subset_cons_self _ _
  have received : Received mac (gateLinkOps payloads) (⟨buf,s.engine.ctx⟩ :: s.arrivals) ⟨buf,s.engine.ctx⟩ s.engine
      (s.engine.receive mac (gateLinkOps payloads) buf random nowMs) :=
    receive_received s.engine buf random nowMs valid.base.idle valid.base.context (valid.base.stored.mono within) (by simp)
  refine ⟨engine_preserves s (.receive buf random nowMs) valid.base,?_,?_⟩
  · refine appActs_onRoad payloads received.app ?_ (valid.road.mono fun hex sourced => sourced.mono within)
    rintro hex ⟨d,delivered,allowed⟩
    exact sourced_of_delivered _ _ (by simp) d delivered hex allowed
  · intro a member
    rcases List.mem_cons.mp member with rfl | old
    · exact permitted
    · exact valid.plain a old

-- A step without a frame forwards nothing.
theorem quiet_preserves (s : Station GateLinkApp) (m n : Engine GateLinkApp) (valid : Invariant mac held s)
    (base : Authenticated.Invariant mac held {s with engine := n}) (acts : Acts (gateLinkOps payloads) (fun _ => False) m n)
    (same : m.app = s.engine.app) : Invariant mac held {s with engine := n} :=
  ⟨base,appActs_onRoad payloads acts.app (fun _ never => never.elim) (same ▸ valid.road),valid.plain⟩

theorem input_preserves (payloads : Payloads) (s : Station GateLinkApp) (input : EngineInput) (valid : Invariant mac held s)
    (permitted : PlainRequests mac s (.engine input)) : Invariant mac held (step mac payloads s (.engine input)) := by
  have base : Authenticated.Invariant mac held (Authenticated.step mac (gateLinkOps payloads) s (.engine input)) :=
    engine_preserves s input valid.base
  cases input with
  | receive buf random nowMs => exact receive_preserves s buf random nowMs valid permitted
  | tick nowMs => exact quiet_preserves s _ _ valid base (tickHex_acts mac (gateLinkOps payloads) _ nowMs) rfl
  | finishCommand nowMs => exact quiet_preserves s _ _ valid base (finishCommand_acts mac (gateLinkOps payloads) _ nowMs) rfl
  | finishCommandWith nowMs result => exact quiet_preserves s _ _ valid base (finishCommand_acts mac (gateLinkOps payloads) _ nowMs) rfl
  | completeHex status hex => exact quiet_preserves s _ _ valid base (completeHex_acts mac (gateLinkOps payloads) _ status hex) rfl
  | announceBoot cause nowMs => exact quiet_preserves s _ _ valid base (announceBoot_acts mac (gateLinkOps payloads) _ cause nowMs) rfl
  | reset random | roll random | notePhyRevert cause | tune tunings | board phy | transmit =>
      exact ⟨base,valid.road,valid.plain⟩

theorem road_preserves (s : Station GateLinkApp) (app : GateLinkApp) (valid : Invariant mac held s)
    (road : OnRoad (Sourced mac s.arrivals) app) : Invariant mac held {s with engine := {s.engine with app := app}} :=
  ⟨app_preserves s _ valid.base,road,valid.plain⟩

theorem pollHex_preserves (s : Station GateLinkApp) (valid : Invariant mac held s) :
    Invariant mac held {s with engine := pollHex mac s.engine} := by
  refine pollHex_rule mac (fun n => Invariant mac held {s with engine := n}) ?_ ?_ s.engine valid
  · intro n app same before
    exact ⟨app_preserves {s with engine := n} app before.base,same.onRoad before.road,before.plain⟩
  · intro n status hex before
    let payloads : Payloads := ⟨fun _ _ _ => [],fun _ _ _ _ => []⟩
    exact input_preserves payloads {s with engine := n} (.completeHex status hex) before trivial

theorem step_preserves (s : Station GateLinkApp) (i : Input) (valid : Invariant mac held s) (permitted : PlainRequests mac s i) :
    Invariant mac held (step mac payloads s i) := by
  cases i with
  | engine input => exact input_preserves payloads s input valid permitted
  | reboot random phy config =>
      refine ⟨reboot_preserves s random phy _ valid.base,⟨?_,?_,valid.road.wire⟩,valid.plain⟩
      · intro job queued
        cases queued
      · intro active
        cases active
  | pollHex => exact pollHex_preserves s valid
  | vedParams hexTimeoutMs => exact road_preserves s _ valid ⟨valid.road.queued,valid.road.held,valid.road.wire⟩
  | vedLine line => exact road_preserves s _ valid (vedLine_onRoad valid.road line)
  | vedStart nowMs took => exact road_preserves s _ valid (vedStart_onRoad valid.road nowMs took)
  | vedTick nowMs took => exact road_preserves s _ valid (vedTick_onRoad valid.road nowMs took)
  | vedPublish => exact road_preserves s _ valid ⟨valid.road.queued,valid.road.held,valid.road.wire⟩
  | relaysTaken => exact road_preserves s _ valid ⟨valid.road.queued,valid.road.held,valid.road.wire⟩
  | withholdNextAck => exact road_preserves s _ valid ⟨valid.road.queued,valid.road.held,valid.road.wire⟩
  | cardServiced config => exact road_preserves s _ valid ⟨valid.road.queued,valid.road.held,valid.road.wire⟩

theorem start_invariant (c : Context) (random : RandomFn) (phy : PhyTrial) (config : Option GateLinkConfig) :
    Invariant mac c.key (start c random phy config) := by
  refine ⟨Authenticated.start_invariant c random phy _,⟨?_,?_,?_⟩,by simp [start,Authenticated.start]⟩
  · intro job queued
    cases queued
  · intro active
    cases active
  · intro job member
    cases member

-- The lines of the whole stream are the lines of the strings, and an empty one after the last newline.
theorem uart_lines (wire : List HexJob) (line : Bytes) (member : line ∈ (uart wire).splitOn newline) :
    line = [] ∨ ∃ job ∈ wire, line ∈ job.hex.splitOn newline := by
  induction wire with
  | nil => exact .inl (by simpa [uart] using member)
  | cons job rest ih =>
      have split : (uart (job :: rest)).splitOn newline = job.hex.splitOn newline ++ (uart rest).splitOn newline := by
        simp only [uart,List.flatMap_cons,List.append_assoc,List.singleton_append]
        exact List.splitOn_append_cons_self _ _
      rw [split] at member
      rcases List.mem_append.mp member with here | later
      · exact .inr ⟨job,by simp,here⟩
      · rcases ih later with empty | ⟨other,among,found⟩
        · exact .inl empty
        · exact .inr ⟨other,List.mem_cons_of_mem _ among,found⟩

-- A string that reads as a write line is of the write class for the receiver too.
theorem writeClass_of_line (payload : Bytes) (req : HexReq) (parsed : HexReq.deserialize payload = some req)
    (writes : isWriteLine req.hex = true) : hexReqIsWriteClass payload = true := by
  unfold HexReq.deserialize at parsed
  split at parsed
  · cases parsed
  · rename_i long
    split at parsed
    · rename_i length
      cases parsed
      match payload with
      | [] | [_] => simp at long
      | [_,_] | [_,_,_] => cases writes
      | flags :: n :: first :: digit :: rest =>
          simp only [List.drop_succ_cons,List.drop_zero,isWriteLine,Bool.and_eq_true,Bool.or_eq_true,beq_iff_eq] at writes
          obtain ⟨rfl,isDigit⟩ := writes
          simp only [List.length_cons,u8At_cons_succ,u8At_cons_zero] at length
          have two : ¬ n < 2 := by
            rw [UInt8.lt_iff_toNat_lt]
            change ¬ n.toNat < 2
            omega
          have fits : ¬ ((rest.length + 1 + 1 + 1 + 1) < 2 + n.toNat) := by omega
          unfold hexReqIsWriteClass
          simp only [List.length_cons,u8At_cons_succ,u8At_cons_zero,two,fits]
          rcases isDigit with rfl | rfl
          · simp [hexNibble]
          · simp [hexNibble]
    · cases parsed

theorem attested_of_sourced (arrivals : List Arrival) (hex line : Bytes) (sourced : Sourced mac arrivals hex)
    (heard : ∀ a ∈ arrivals, (heardHex mac a.ctx a.bytes).all plain = true) (member : line ∈ hex.splitOn newline)
    (writes : isWriteLine line = true) : Attested mac arrivals line := by
  obtain ⟨a,among,f,req,accepted,typed,parsed,rfl,passed⟩ := sourced
  have isPlain : plain req.hex = true := by
    have := heard a among
    rw [heardHex_accepted a f req accepted typed parsed] at this
    simpa using this
  simp only [plain,Bool.or_eq_true,Bool.not_eq_true',List.contains_eq_mem,decide_eq_false_iff_not,List.all_eq_true] at isPlain
  rcases isPlain with single | quiet
  · rw [List.splitOn_eq_singleton single] at member
    obtain rfl := List.mem_singleton.mp member
    have class' := writeClass_of_line f.payload req parsed writes
    have due : frameHasMac f.hdr.type f.payload = true := by simp [frameHasMac,typeRequiresMac,typed,class']
    exact ⟨a,among,f,req,accepted_verified mac a f accepted due,typed,parsed,rfl,passed class'⟩
  · have refused := quiet line member
    rw [writes] at refused
    cases refused

-- In every run whose HEX requests are plain, each write line on the charger's wire is the whole string of a verified request
-- that passed the gate.
theorem writes_attested (c : Context) (random : RandomFn) (phy : PhyTrial) (config : Option GateLinkConfig) (s : Station GateLinkApp)
    (path : Reached (step mac payloads) (PlainRequests mac) (start c random phy config) s) : WritesAttested mac s := by
  have valid := path.invariant (Invariant mac c.key) (start_invariant c random phy config) fun s i valid permitted =>
    step_preserves s i valid permitted
  intro line member writes
  rcases uart_lines (wireOf s) line member with rfl | ⟨job,among,found⟩
  · cases writes
  · exact attested_of_sourced s.arrivals job.hex line (valid.road.wire job among) valid.plain found writes

def noPayloads : Payloads := ⟨fun _ _ _ => [],fun _ _ _ _ => []⟩

def gate : Station GateLinkApp := start {id := nodeGateLink} (fun _ => 5) {} none

-- ":8F0ED0064", signed.
def setLine : Bytes := [0x3A,0x38,0x46,0x30,0x45,0x44,0x30,0x30,0x36,0x34]

def setFrame : Bytes :=
  let covered := writeHeader {type := .hexReq,dst := nodeGateLink,seq := 1,ctxId := 5} ++ HexReq.serialize {hex := setLine}
  withCrc (covered ++ lengthMac.hmacSha256Trunc zeroKey covered)

def setting : List Input := [.engine (.receive setFrame (fun _ => 5) 0),.vedStart 0 true]

instance (mac : Mac) (s : Station GateLinkApp) : (i : Input) → Decidable (PlainRequests mac s i)
  | .engine (.receive buf _ _) => inferInstanceAs (Decidable ((heardHex mac s.engine.ctx buf).all plain = true))
  | .engine (.tick _) | .engine (.finishCommand _) | .engine (.finishCommandWith ..) | .engine (.completeHex ..) | .engine (.reset _)
  | .engine (.roll _) | .engine (.announceBoot ..) | .engine (.notePhyRevert _) | .engine (.tune _) | .engine (.board _)
  | .engine .transmit | .reboot .. | .pollHex | .vedParams _ | .vedLine _ | .vedStart .. | .vedTick .. | .vedPublish | .relaysTaken
  | .withholdNextAck | .cardServiced _ => .isTrue trivial

theorem writes_attested_set :
    setLine ∈ (uart (wireOf (setting.foldl (step lengthMac noPayloads) gate))).splitOn newline ∧
      Attested lengthMac (setting.foldl (step lengthMac noPayloads) gate).arrivals setLine := by
  have permitted : Follows (step lengthMac noPayloads) (PlainRequests lengthMac) gate setting := by decide +kernel
  have written : setLine ∈ (uart (wireOf (setting.foldl (step lengthMac noPayloads) gate))).splitOn newline := by decide +kernel
  exact ⟨written,writes_attested _ _ _ _ _ permitted.reached setLine written (by decide)⟩

-- ":7", a newline and ":8F0ED0064": of the read class by its second character, and unsigned.
def smuggled : Bytes := [0x3A,0x37,newline] ++ setLine

def smuggledFrame : Bytes := withCrc (writeHeader {type := .hexReq,dst := nodeGateLink,seq := 1} ++ HexReq.serialize {hex := smuggled})

def smuggling : List Input := [.engine (.receive smuggledFrame (fun _ => 5) 0),.vedStart 0 true]

theorem embedded_newline_writes_unattested :
    ¬ ∀ s, Reached (step lengthMac noPayloads) (fun _ _ => True) gate s → WritesAttested lengthMac s := by
  intro always
  have run : Follows (step lengthMac noPayloads) (fun _ _ => True) gate smuggling := ⟨trivial,trivial,trivial⟩
  have written : setLine ∈ (uart (wireOf (smuggling.foldl (step lengthMac noPayloads) gate))).splitOn newline := by decide +kernel
  obtain ⟨a,member,f,req,verified,_,parsed,_⟩ := always _ run.reached setLine written (by decide)
  have only : a = ⟨smuggledFrame,gate.engine.ctx⟩ := List.mem_singleton.mp member
  -- Read with a tag, the frame is eight bytes short of the string it announces.
  have length : f.payload.length = 7 := by
    have whole := verified.whole
    have long : a.bytes.length = 33 := by
      rw [only]
      decide +kernel
    simp only [hdrLen,macLen,crcLen] at whole
    omega
  have payload : f.payload = (smuggledFrame.drop hdrLen).take 7 := by
    have body := verified.payload
    rw [length,only] at body
    exact body.symm
  rw [payload] at parsed
  have unreadable : HexReq.deserialize ((smuggledFrame.drop hdrLen).take 7) = none := by decide +kernel
  rw [unreadable] at parsed
  cases parsed

end
end LoraRan.System.ChargerWrites
