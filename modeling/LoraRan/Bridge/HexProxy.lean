import LoraRan.Bridge.CommandPath
import LoraRan.VeDirect.Hex

namespace LoraRan.Bridge
open Protocol

def hexRspTimeoutDefaultMs : UInt32 := 3000
def hexReadRetriesDefault : UInt8 := 2
def hexMaxChars : Nat := VeDirect.maxChars

inductive HexOrigin where
  | operator | readback
  deriving DecidableEq, Repr

structure HexRequest where
  dst : NodeId := 0
  origin : HexOrigin := .operator
  reg : UInt16 := 0
  hex : Bytes := []
  deriving DecidableEq

inductive HexClass where
  | read | write | malformed
  deriving DecidableEq, Repr

def classifyHex (hex : Bytes) : HexClass :=
  match VeDirect.decode hex with
  | .error _ => .malformed
  | .ok f => if f.cmd = VeDirect.cmdSet ∨ f.cmd = VeDirect.cmdRestart then .write else .read

def isRestart (hex : Bytes) : Bool :=
  match VeDirect.decode hex with
  | .error _ => false
  | .ok f => f.cmd == VeDirect.cmdRestart

structure WriteArm where
  set : Bool := false
  armedMs : UInt32 := 0

def WriteArm.arm (_ : WriteArm) (nowMs : UInt32) : WriteArm := ⟨true,nowMs⟩

def WriteArm.disarm (a : WriteArm) : WriteArm := {a with set := false}

def WriteArm.armed (a : WriteArm) (nowMs timeoutS : UInt32) : Bool := a.set && windowOpen nowMs a.armedMs (timeoutS * 1000)

def WriteArm.expire (a : WriteArm) (nowMs timeoutS : UInt32) : Bool × WriteArm :=
  if !a.set ∨ a.armed nowMs timeoutS then (false,a) else (true,{a with set := false})

inductive HexOutcome where
  | pending | answered | noResponse | unknown | rejected | resyncFailed | refusedDisarmed
  deriving DecidableEq, Repr

structure HexStep where
  action : CmdAction := .none
  dst : NodeId := 0
  write : Bool := false
  seq : Seq := 0
  ctxId : CtxId := 0
  attempt : UInt8 := 0
  ctxAdopted : Bool := false
  outcome : HexOutcome := .pending
  status : UInt8 := 0
  ackResult : UInt8 := 0
  ackDetail : UInt8 := 0
  audit : Bool := false
  deriving DecidableEq

structure HexProxy where
  req : HexRequest := {}
  write : Bool := false
  phase : Phase := .idle
  seq : Seq := 0
  ctx : CtxId := 0
  attempt : UInt8 := 0
  resyncUsed : Bool := false
  restart : Bool := false
  ctxAdopted : Bool := false
  windowOpenedMs : UInt32 := 0
  outcome : HexOutcome := .pending
  status : UInt8 := 0
  ackResult : UInt8 := 0
  ackDetail : UInt8 := 0
  rsp : Bytes := []
  readSeq : Seq := 0
  rspTimeoutMs : UInt32 := hexRspTimeoutDefaultMs
  readRetries : UInt8 := hexReadRetriesDefault
  deriving DecidableEq

def HexProxy.busy (p : HexProxy) : Bool := p.phase != .idle

def HexProxy.submit (p : HexProxy) (req : HexRequest) (write : Bool) (ctx : CtxId) (writeSeq : Seq) (nowMs : UInt32) :
    Bool × HexProxy :=
  if p.phase ≠ .idle then (false,p)
  else
    let readSeq := if p.readSeq + 1 = 0 then 1 else p.readSeq + 1
    (true,{p with
      req := req
      write := write
      restart := isRestart req.hex
      readSeq := if write then p.readSeq else readSeq
      seq := if write then writeSeq else readSeq
      ctx := ctx
      attempt := 0
      resyncUsed := false
      ctxAdopted := false
      outcome := .pending
      status := 0
      ackResult := 0
      ackDetail := 0
      rsp := []
      windowOpenedMs := nowMs
      phase := .sendDue})

def HexProxy.resolve (p : HexProxy) (o : HexOutcome) : HexProxy := {p with outcome := o,phase := .resolved}

def HexProxy.sendStep (p : HexProxy) : HexStep where
  action := .send
  dst := p.req.dst
  write := p.write
  seq := p.seq
  ctxId := p.ctx
  attempt := p.attempt
  ctxAdopted := p.ctxAdopted

def HexProxy.resolveStep (p : HexProxy) : HexStep where
  action := .resolve
  dst := p.req.dst
  write := p.write
  seq := p.seq
  attempt := p.attempt
  outcome := p.outcome
  status := p.status
  ackResult := p.ackResult
  ackDetail := p.ackDetail
  audit := p.write
  ctxId := p.ctx
  ctxAdopted := p.ctxAdopted

def HexProxy.emitResolve (p : HexProxy) : HexStep × HexProxy := (p.resolveStep,{p with phase := .idle})

-- A due transmission: a write asks the arm every time.
def HexProxy.emitSend (p : HexProxy) (armed : Bool) : HexStep × HexProxy :=
  if p.write ∧ !armed then (p.resolve .refusedDisarmed).emitResolve else (p.sendStep,p)

def HexProxy.readLimit (p : HexProxy) : UInt8 := if p.req.origin = .readback then 0 else p.readRetries

def HexProxy.next (p : HexProxy) (nowMs : UInt32) (armed : Bool) : HexStep × HexProxy :=
  match p.phase with
  | .idle => ({},p)
  | .sendDue => p.emitSend armed
  | .awaiting =>
      if windowOpen nowMs p.windowOpenedMs p.rspTimeoutMs then ({},p)
      else if p.write then (p.resolve .unknown).emitResolve
      else if p.attempt ≥ p.readLimit then (p.resolve .noResponse).emitResolve
      else HexProxy.emitSend {p with attempt := p.attempt + 1,phase := .sendDue} armed
  | .resolved => p.emitResolve

def HexProxy.onSent (p : HexProxy) (nowMs : UInt32) : HexProxy :=
  if p.phase ≠ .sendDue then p
  else {p with windowOpenedMs := nowMs,phase := .awaiting,ctxAdopted := false}

def HexProxy.onAired (p : HexProxy) (airedMs : UInt32) : HexProxy :=
  if p.phase = .awaiting then {p with windowOpenedMs := airedMs} else p

def HexProxy.onRsp (p : HexProxy) (src : NodeId) (seq : Seq) (rsp : HexRsp) : Bool × HexProxy :=
  if p.phase ≠ .awaiting ∨ src ≠ p.req.dst ∨ seq ≠ p.seq then (false,p)
  else
    let answer := if rsp.hex.length ≤ hexMaxChars then rsp.hex else []
    (true,HexProxy.resolve {p with status := rsp.status,rsp := answer} .answered)

def HexProxy.Matches (p : HexProxy) (src : NodeId) (ack : CommandAck) : Prop :=
  p.phase = .awaiting ∧ p.write = true ∧ src = p.req.dst ∧ ack.ackSeq = p.seq

instance (p : HexProxy) (src : NodeId) (ack : CommandAck) : Decidable (p.Matches src ack) :=
  inferInstanceAs (Decidable (_ ∧ _ ∧ _ ∧ _))

def HexProxy.onAck (p : HexProxy) (src : NodeId) (ack : CommandAck) (ackCtx : CtxId) (nowMs : UInt32) : Bool × HexProxy :=
  if ¬ p.Matches src ack then (false,p)
  else if ack.result = AckResult.rejectedCtx.code ∧ !p.resyncUsed ∧ p.restart then
    (true,HexProxy.resolve {p with ctx := ackCtx,ctxAdopted := true,ackResult := ack.result,ackDetail := ack.detail} .unknown)
  else if ack.result = AckResult.rejectedCtx.code ∧ !p.resyncUsed then
    (true,{p with
      ctx := ackCtx
      seq := 1
      resyncUsed := true
      ctxAdopted := true
      windowOpenedMs := nowMs
      phase := .sendDue})
  else
    (true,HexProxy.resolve {p with ackResult := ack.result,ackDetail := ack.detail}
      (if ack.result = AckResult.rejectedCtx.code then .resyncFailed else .rejected))

-- Everything next() can do: a write is sent only when due and armed, and only a read is sent again.
theorem HexProxy.next_cases (p : HexProxy) (nowMs : UInt32) (armed : Bool) :
    p.next nowMs armed = ({},p) ∨
    (∃ attempt, (p.phase = .sendDue ∧ attempt = p.attempt ∧ (p.write = true → armed = true) ∨
        p.phase = .awaiting ∧ p.write = false ∧ p.attempt < p.readLimit ∧ attempt = p.attempt + 1) ∧
      p.next nowMs armed =
        (HexProxy.sendStep {p with attempt := attempt,phase := .sendDue},{p with attempt := attempt,phase := .sendDue})) ∨
    (∃ outcome, outcome ≠ .answered ∧ (p.phase = .sendDue ∨ p.phase = .awaiting) ∧
      p.next nowMs armed = ((p.resolve outcome).resolveStep,{p with outcome := outcome,phase := .idle})) ∨
    (p.phase = .resolved ∧ p.next nowMs armed = (p.resolveStep,{p with phase := .idle})) := by
  rcases phased : p.phase with _ | _ | _ | _
  · exact .inl (by simp [HexProxy.next,phased])
  · have same : {p with phase := .sendDue} = p := by simp only [← phased]
    simp only [HexProxy.next,phased,HexProxy.emitSend]
    split
    · exact .inr (.inr (.inl ⟨.refusedDisarmed,by decide,.inl trivial,rfl⟩))
    · rename_i open'
      refine .inr (.inl ⟨p.attempt,.inl ⟨trivial,rfl,?_⟩,?_⟩)
      · intro write
        simpa [write] using open'
      · simp only [same]
  · simp only [HexProxy.next,phased]
    split
    · exact .inl rfl
    · split
      · exact .inr (.inr (.inl ⟨.unknown,by decide,.inr trivial,rfl⟩))
      · rename_i read
        split
        · exact .inr (.inr (.inl ⟨.noResponse,by decide,.inr trivial,rfl⟩))
        · rename_i more
          refine .inr (.inl ⟨p.attempt + 1,.inr ⟨trivial,by simpa using read,Nat.lt_of_not_le more,rfl⟩,?_⟩)
          simp [HexProxy.emitSend,read]
  · exact .inr (.inr (.inr ⟨rfl,by simp [HexProxy.next,phased,HexProxy.emitResolve]⟩))

theorem HexProxy.onAck_cases (p : HexProxy) (src : NodeId) (ack : CommandAck) (ackCtx : CtxId) (nowMs : UInt32) :
    (¬ p.Matches src ack ∧ p.onAck src ack ackCtx nowMs = (false,p)) ∨
    (p.Matches src ack ∧ ack.result = AckResult.rejectedCtx.code ∧ p.resyncUsed = false ∧ p.restart = true ∧
      p.onAck src ack ackCtx nowMs = (true,{p with
        ctx := ackCtx
        ctxAdopted := true
        ackResult := ack.result
        ackDetail := ack.detail
        outcome := .unknown
        phase := .resolved})) ∨
    (p.Matches src ack ∧ ack.result = AckResult.rejectedCtx.code ∧ p.resyncUsed = false ∧ p.restart = false ∧
      p.onAck src ack ackCtx nowMs = (true,{p with
        ctx := ackCtx
        seq := 1
        resyncUsed := true
        ctxAdopted := true
        windowOpenedMs := nowMs
        phase := .sendDue})) ∨
    (p.Matches src ack ∧ (ack.result = AckResult.rejectedCtx.code → p.resyncUsed = true) ∧
      ∃ outcome, outcome ≠ .answered ∧ p.onAck src ack ackCtx nowMs =
        (true,{p with ackResult := ack.result,ackDetail := ack.detail,outcome := outcome,phase := .resolved})) := by
  by_cases mine : p.Matches src ack
  · by_cases rejected : ack.result = AckResult.rejectedCtx.code
    · cases used : p.resyncUsed
      · cases restart : p.restart
        · exact .inr (.inr (.inl ⟨mine,rejected,rfl,rfl,by simp [HexProxy.onAck,mine,rejected,used,restart]⟩))
        · exact .inr (.inl ⟨mine,rejected,rfl,rfl,by simp [HexProxy.onAck,HexProxy.resolve,mine,rejected,used,restart]⟩)
      · exact .inr (.inr (.inr ⟨mine,fun _ => rfl,.resyncFailed,by decide,by simp [HexProxy.onAck,HexProxy.resolve,mine,rejected,used]⟩))
    · exact .inr (.inr (.inr ⟨mine,fun same => absurd same rejected,.rejected,by decide,
        by simp [HexProxy.onAck,HexProxy.resolve,mine,rejected]⟩))
  · exact .inl ⟨mine,by simp [HexProxy.onAck,mine]⟩

theorem HexProxy.onRsp_cases (p : HexProxy) (src : NodeId) (seq : Seq) (rsp : HexRsp) :
    p.onRsp src seq rsp = (false,p) ∨
    (p.phase = .awaiting ∧ src = p.req.dst ∧ seq = p.seq ∧
      ∃ answer, (answer = rsp.hex ∨ answer = []) ∧ p.onRsp src seq rsp = (true,{p with status := rsp.status,rsp := answer,outcome := .answered,phase := .resolved})) := by
  unfold HexProxy.onRsp
  split
  · exact .inl rfl
  · rename_i mine
    simp only [not_or,not_not] at mine
    refine .inr ⟨mine.1,mine.2.1,mine.2.2,_,?_,rfl⟩
    split
    · exact .inl rfl
    · exact .inr rfl

def hexReqFlagWriteClass : UInt8 := 0x01

def hexHeader (dst : NodeId) (ctx : CtxId) (seq : Seq) (ver : UInt8) : Header :=
  {ver := ver,type := .hexReq,src := nodeBridge,dst := dst,seq := seq,ctxId := ctx}

def buildHexReqFrame (dst : NodeId) (ctx : CtxId) (seq : Seq) (ver : UInt8) (hex : Bytes) (ectx : EncodeCtx) (cap : Nat) :
    Option Bytes :=
  if hex.length = 0 ∨ hexMaxChars < hex.length then none
  else
    let req : HexReq := {flags := if classifyHex hex = .write then hexReqFlagWriteClass else 0,hex := hex}
    (encode (hexHeader dst ctx seq ver) req.serialize ectx cap).toOption

theorem buildHexReqFrame_encoded {dst : NodeId} {ctx : CtxId} {seq : Seq} {ver : UInt8} {hex : Bytes} {ectx : EncodeCtx} {cap : Nat} {bytes : Bytes}
    (built : buildHexReqFrame dst ctx seq ver hex ectx cap = some bytes) :
    ∃ payload, encode (hexHeader dst ctx seq ver) payload ectx cap = .ok bytes := by
  unfold buildHexReqFrame at built
  split at built
  · cases built
  · dsimp only at built
    generalize HexReq.serialize _ = payload at built
    refine ⟨payload,?_⟩
    cases made : encode (hexHeader dst ctx seq ver) payload ectx cap with
    | error _ => simp [made,Except.toOption] at built
    | ok other =>
        simp only [made,Except.toOption,Option.some.injEq] at built
        rw [built]

end LoraRan.Bridge
