import LoraRan.Bridge.Registry

namespace LoraRan.Bridge
open Protocol

def commandAckTimeoutDefaultMs : UInt32 := 3000
def commandRetriesDefault : UInt8 := 3
def commandRetryBackoffMs : UInt32 := 500

structure CommandRequest where
  dst : NodeId := 0
  cmd : UInt8 := 0
  arg : UInt8 := 0
  arg2 : UInt16 := 0
  deriving DecidableEq

def CommandRequest.command (req : CommandRequest) : Command := ⟨req.cmd,req.arg,req.arg2⟩

def resyncMayRetry (cmd : UInt8) : Bool := if cmd ≤ 0x0F then false else cmd != cmdReboot

inductive CmdAction where
  | none | send | resolve
  deriving DecidableEq, Repr

inductive CmdOutcome where
  | pending | acked | noAck | resyncFailed | unconfirmed
  deriving DecidableEq, Repr

structure CmdStep where
  action : CmdAction := .none
  dst : NodeId := 0
  cmd : UInt8 := 0
  arg : UInt8 := 0
  arg2 : UInt16 := 0
  seq : Seq := 0
  ctxId : CtxId := 0
  attempt : UInt8 := 0
  ctxAdopted : Bool := false
  outcome : CmdOutcome := .pending
  result : UInt8 := 0
  detail : UInt8 := 0
  deriving DecidableEq

inductive Phase where
  | idle | sendDue | awaiting | resolved
  deriving DecidableEq, Repr

-- One command at a time. The diagnostic statistics are left out.
structure CommandPath where
  req : CommandRequest := {}
  phase : Phase := .idle
  seq : Seq := 0
  ctx : CtxId := 0
  attempt : UInt8 := 0
  resyncUsed : Bool := false
  ctxAdopted : Bool := false
  windowOpenedMs : UInt32 := 0
  outcome : CmdOutcome := .pending
  result : UInt8 := 0
  detail : UInt8 := 0
  ackTimeoutMs : UInt32 := commandAckTimeoutDefaultMs
  retries : UInt8 := commandRetriesDefault
  deriving DecidableEq

def CommandPath.busy (p : CommandPath) : Bool := p.phase != .idle

-- A window compared as signed differences.
def windowOpen (now opened window : UInt32) : Bool := decide ((now - opened).toInt32 < window.toInt32)

def CommandPath.submit (p : CommandPath) (req : CommandRequest) (ctx : CtxId) (seq : Seq) (nowMs : UInt32) : Bool × CommandPath :=
  if p.phase ≠ .idle then (false,p)
  else (true,{p with
    req := req
    ctx := ctx
    seq := seq
    attempt := 0
    resyncUsed := false
    ctxAdopted := false
    outcome := .pending
    result := 0
    detail := 0
    windowOpenedMs := nowMs
    phase := .sendDue})

def CommandPath.sendStep (p : CommandPath) : CmdStep where
  action := .send
  dst := p.req.dst
  cmd := p.req.cmd
  arg := p.req.arg
  arg2 := p.req.arg2
  seq := p.seq
  ctxId := p.ctx
  attempt := p.attempt
  ctxAdopted := p.ctxAdopted

def CommandPath.resolveStep (p : CommandPath) : CmdStep where
  action := .resolve
  dst := p.req.dst
  seq := p.seq
  attempt := p.attempt
  outcome := p.outcome
  result := p.result
  detail := p.detail
  ctxId := if p.outcome = .unconfirmed then p.ctx else 0
  ctxAdopted := p.outcome = .unconfirmed

def CommandPath.window (p : CommandPath) : UInt32 := p.ackTimeoutMs + (if p.attempt > 0 then commandRetryBackoffMs else 0)

def CommandPath.next (p : CommandPath) (nowMs : UInt32) : CmdStep × CommandPath :=
  match p.phase with
  | .idle => ({},p)
  | .sendDue => (p.sendStep,p)
  | .awaiting =>
      if windowOpen nowMs p.windowOpenedMs p.window then ({},p)
      else if p.attempt ≥ p.retries then
        let p := {p with outcome := .noAck}
        (p.resolveStep,{p with phase := .idle})
      else
        let p := {p with attempt := p.attempt + 1,phase := .sendDue}
        (p.sendStep,p)
  | .resolved => (p.resolveStep,{p with phase := .idle})

def CommandPath.onSent (p : CommandPath) (nowMs : UInt32) : CommandPath :=
  if p.phase ≠ .sendDue then p
  else {p with windowOpenedMs := nowMs,phase := .awaiting,ctxAdopted := false}

def CommandPath.onAired (p : CommandPath) (airedMs : UInt32) : CommandPath :=
  if p.phase = .awaiting then {p with windowOpenedMs := airedMs} else p

-- The ACK answers the exchange in flight: same node, same seq. Its context is not compared.
def CommandPath.Matches (p : CommandPath) (src : NodeId) (ack : CommandAck) : Prop :=
  p.phase = .awaiting ∧ src = p.req.dst ∧ ack.ackSeq = p.seq

instance (p : CommandPath) (src : NodeId) (ack : CommandAck) : Decidable (p.Matches src ack) :=
  inferInstanceAs (Decidable (_ ∧ _ ∧ _))

def CommandPath.onAck (p : CommandPath) (src : NodeId) (ack : CommandAck) (ackCtx : CtxId) (nowMs : UInt32) : CommandPath :=
  if ¬ p.Matches src ack then p
  else if ack.result = AckResult.rejectedCtx.code then
    if p.resyncUsed then
      {p with outcome := .resyncFailed,result := ack.result,detail := ack.detail,phase := .resolved}
    else if !resyncMayRetry p.req.cmd then
      {p with ctx := ackCtx,outcome := .unconfirmed,result := ack.result,detail := ack.detail,phase := .resolved}
    else
      {p with
        ctx := ackCtx
        seq := 1
        attempt := 0
        resyncUsed := true
        ctxAdopted := true
        windowOpenedMs := nowMs
        phase := .sendDue}
  else {p with outcome := .acked,result := ack.result,detail := ack.detail,phase := .resolved}

-- Everything next() can do. A path in flight is sent as it stands, and only an attempt that ran out of window counts.
theorem CommandPath.next_cases (p : CommandPath) (nowMs : UInt32) :
    p.next nowMs = ({},p) ∨
    (∃ attempt, (p.phase = .sendDue ∧ attempt = p.attempt ∨ p.phase = .awaiting ∧ p.attempt < p.retries ∧ attempt = p.attempt + 1) ∧
      p.next nowMs = (CommandPath.sendStep {p with attempt := attempt,phase := .sendDue},{p with attempt := attempt,phase := .sendDue})) ∨
    (p.phase = .awaiting ∧
      p.next nowMs = (CommandPath.resolveStep {p with outcome := .noAck},{p with outcome := .noAck,phase := .idle})) ∨
    (p.phase = .resolved ∧ p.next nowMs = (p.resolveStep,{p with phase := .idle})) := by
  rcases phased : p.phase with _ | _ | _ | _
  · exact .inl (by simp [CommandPath.next,phased])
  · refine .inr (.inl ⟨p.attempt,.inl ⟨rfl,rfl⟩,?_⟩)
    have same : {p with phase := .sendDue} = p := by simp only [← phased]
    simp only [CommandPath.next,phased,same]
  · simp only [CommandPath.next,phased]
    split
    · exact .inl rfl
    · split
      · exact .inr (.inr (.inl ⟨trivial,rfl⟩))
      · rename_i more
        exact .inr (.inl ⟨p.attempt + 1,.inr ⟨trivial,Nat.lt_of_not_le more,rfl⟩,rfl⟩)
  · exact .inr (.inr (.inr ⟨rfl,by simp [CommandPath.next,phased]⟩))

theorem CommandPath.onAck_cases (p : CommandPath) (src : NodeId) (ack : CommandAck) (ackCtx : CtxId) (nowMs : UInt32) :
    (¬ p.Matches src ack ∧ p.onAck src ack ackCtx nowMs = p) ∨
    (p.Matches src ack ∧ ack.result = AckResult.rejectedCtx.code ∧ p.resyncUsed = false ∧ resyncMayRetry p.req.cmd = true ∧
      p.onAck src ack ackCtx nowMs = {p with
        ctx := ackCtx
        seq := 1
        attempt := 0
        resyncUsed := true
        ctxAdopted := true
        windowOpenedMs := nowMs
        phase := .sendDue}) ∨
    (p.Matches src ack ∧ ack.result = AckResult.rejectedCtx.code ∧ p.resyncUsed = false ∧ resyncMayRetry p.req.cmd = false ∧
      p.onAck src ack ackCtx nowMs =
        {p with ctx := ackCtx,outcome := .unconfirmed,result := ack.result,detail := ack.detail,phase := .resolved}) ∨
    (p.Matches src ack ∧ ack.result = AckResult.rejectedCtx.code ∧ p.resyncUsed = true ∧
      p.onAck src ack ackCtx nowMs = {p with outcome := .resyncFailed,result := ack.result,detail := ack.detail,phase := .resolved}) ∨
    (p.Matches src ack ∧ ack.result ≠ AckResult.rejectedCtx.code ∧
      p.onAck src ack ackCtx nowMs = {p with outcome := .acked,result := ack.result,detail := ack.detail,phase := .resolved}) := by
  by_cases mine : p.Matches src ack
  · by_cases rejected : ack.result = AckResult.rejectedCtx.code
    · cases used : p.resyncUsed
      · cases retry : resyncMayRetry p.req.cmd
        · exact .inr (.inr (.inl ⟨mine,rejected,rfl,rfl,by simp [CommandPath.onAck,mine,rejected,used,retry]⟩))
        · exact .inr (.inl ⟨mine,rejected,rfl,rfl,by simp [CommandPath.onAck,mine,rejected,used,retry]⟩)
      · exact .inr (.inr (.inr (.inl ⟨mine,rejected,rfl,by simp [CommandPath.onAck,mine,rejected,used]⟩)))
    · exact .inr (.inr (.inr (.inr ⟨mine,rejected,by simp [CommandPath.onAck,mine,rejected]⟩)))
  · exact .inl ⟨mine,by simp [CommandPath.onAck,mine]⟩

def commandHeader (dst : NodeId) (ctx : CtxId) (seq : Seq) (ver : UInt8) : Header :=
  {ver := ver,type := .command,src := nodeBridge,dst := dst,seq := seq,ctxId := ctx}

theorem commandHeader_whole (dst : NodeId) (ctx : CtxId) (seq : Seq) (ver : UInt8) : (commandHeader dst ctx seq ver).fragTotal = 1 := by
  change (0x01 : UInt8) &&& 0x0F = 1
  decide

def buildCommandFrame (dst : NodeId) (ctx : CtxId) (seq : Seq) (ver : UInt8) (cmd : Command) (ectx : EncodeCtx) (cap : Nat) :
    Option Bytes :=
  (encode (commandHeader dst ctx seq ver) cmd.serialize ectx cap).toOption

end LoraRan.Bridge
