import LoraRan.Bridge.HexProxy
import LoraRan.Bridge.Registry
import LoraRan.GateLink.HexSlots
import LoraRan.System.ChargerWrites

namespace LoraRan.System.HexLink
open Protocol Node Bridge GateLink Library.StepSystem

-- A HEX_REQ's place in the run: the submission it was sent for, the node it is for and the number it carries.
structure Mark where
  submission : Nat := 0
  dst : NodeId := 0
  seq : Seq := 0
  deriving DecidableEq

structure Resolution where
  submission : Nat
  outcome : Bridge.HexOutcome
  status : UInt8
  rsp : Bytes
  answer : Option (Bytes × Mark)
  deriving DecidableEq

-- The HEX proxy and one GateLink node. A frame is on its way until it is lost, so it can come late, twice or never: `sent`
-- holds the HEX_REQs, `queue` what the node has not yet transmitted, `air` what it has. Everything below is the observer's
-- and no step reads it. A frame of the node bears the mark of the HEX_REQ it was made for, or of the one last handed to
-- the charger.
structure Link where
  proxy : HexProxy := {}
  registry : Registry := {}
  node : Engine GateLinkApp
  sent : List (Bytes × Mark) := []
  queue : List (Bytes × Mark) := []
  air : List (Bytes × Mark) := []
  given : Nat := 0
  answer : Option (Bytes × Mark) := none
  requests : List (Bytes × Mark) := []
  answers : List (Bytes × Mark) := []
  resolved : List Resolution := []
  holding : Mark := {}
  forwarded : List (Nat × Mark) := []
  matched : List (Nat × Bytes) := []

-- `ctx` is what the registry said when the request was admitted. `takeCmdSeq`, `adoptCtx` and `observe` are the registry's
-- other users, `other` any frame that is not a HEX_REQ, and `rollClaims` whether the context roll took the ACK for its own.
inductive Input where
  | submit (req : HexRequest) (ctx : CtxId) (nowMs : UInt32)
  | tick (nowMs : UInt32) (armed queued : Bool)
  | aired (airedMs : UInt32)
  | setParams (rspTimeoutMs : UInt32) (readRetries : UInt8)
  | takeCmdSeq (id : NodeId)
  | adoptCtx (id : NodeId) (ctx : CtxId)
  | observe (hdr : Header) (nowMs : UInt32)
  | deliver (i : Nat) (random : RandomFn) (nowMs : UInt32)
  | other (bytes : Bytes) (random : RandomFn) (nowMs : UInt32)
  | lose (i : Nat)
  | hear (i : Nat) (nowMs : UInt32) (rollClaims : Bool)
  | miss (i : Nat)
  | own (input : ChargerWrites.Input)
  | vedLine (line : Bytes)
  | reboot (random : RandomFn) (phy : PhyTrial) (config : Option GateLinkConfig)
  | transmit

-- What the node does of itself. complete_hex() is pollHex's to call.
def isOwn : ChargerWrites.Input → Bool
  | .engine (.receive ..) | .engine (.completeHex ..) | .engine .transmit | .reboot .. | .vedLine _ => false
  | _ => true

def heardFrame (listen : DecodeCtx) (bytes : Bytes) : Option Frame :=
  match decodeHeader bytes listen with
  | (.ok,head) =>
      match decodePayload bytes listen head with
      | (.ok,f) => some f
      | _ => none
  | _ => none

def isRsp (bytes : Bytes) : Bool := (readHeader bytes).type == .hexRsp

def Link.current (s : Link) : Nat := s.given - 1

-- The node moved on account of the frame `mark` names.
def Link.after (s : Link) (mark : Mark) (n : Engine GateLinkApp) : Link :=
  {s with
    node := n
    queue := s.queue ++ (n.outbox.drop s.node.outbox.length).map fun bytes => (bytes,mark)
    holding := if n.app.forwards = s.node.app.forwards then s.holding else mark
    forwarded := if n.app.forwards = s.node.app.forwards then s.forwarded else (n.app.forwards,mark) :: s.forwarded}

section
variable (mac : Mac) (payloads : Payloads) (keys : NodeId → NodeKey) (listen : DecodeCtx)

-- A write takes its number from the registry and a read from the proxy.
def Link.submit (s : Link) (req : HexRequest) (ctx : CtxId) (nowMs : UInt32) : Link :=
  if s.proxy.busy || !registered req.dst then s
  else if classifyHex req.hex = .write then
    match s.registry.takeCmdSeq req.dst with
    | none => s
    | some (seq,registry) =>
        {s with proxy := (s.proxy.submit req true ctx seq nowMs).2,registry := registry,given := s.given + 1,answer := none}
  else {s with proxy := (s.proxy.submit req false ctx 0 nowMs).2,given := s.given + 1,answer := none}

-- One turn of sched_task: a frame the queue takes is reported with onSent.
def Link.turn (s : Link) (nowMs : UInt32) (armed queued : Bool) : Link :=
  let (st,p) := s.proxy.next nowMs armed
  let s := {s with proxy := p,registry := if st.ctxAdopted then s.registry.adoptCtx st.dst st.ctxId else s.registry}
  match st.action with
  | .none => s
  | .resolve => {s with resolved := ⟨s.current,st.outcome,st.status,p.rsp,s.answer⟩ :: s.resolved}
  | .send =>
      let sealing : EncodeCtx := {mac := some mac,nodeKey := some (keys st.dst)}
      match buildHexReqFrame st.dst st.ctxId st.seq (nodeTxVer (s.registry.state st.dst)) p.req.hex sealing maxFrame with
      | none => s
      | some bytes =>
          if queued then
            {s with
              proxy := p.onSent nowMs
              sent := s.sent ++ [(bytes,⟨s.current,st.dst,st.seq⟩)]
              requests := (bytes,⟨s.current,st.dst,st.seq⟩) :: s.requests}
          else s

def Link.onAck (s : Link) (f : Frame) (nowMs : UInt32) (rollClaims : Bool) : Link :=
  match CommandAck.deserialize f.payload with
  | none => s
  | some ack => if rollClaims then s else {s with proxy := (s.proxy.onAck f.hdr.src ack f.hdr.ctxId nowMs).2}

def Link.onRsp (s : Link) (frame : Bytes × Mark) (f : Frame) : Link :=
  match HexRsp.deserialize f.payload with
  | none => s
  | some rsp =>
      let (taken,p) := s.proxy.onRsp f.hdr.src f.hdr.seq rsp
      {s with proxy := p,answer := if taken then some frame else s.answer}

def Link.hear (s : Link) (frame : Bytes × Mark) (nowMs : UInt32) (rollClaims : Bool) : Link :=
  match heardFrame listen frame.1 with
  | none => s
  | some f =>
      let s := {s with registry := (s.registry.observe f.hdr nowMs).2}
      match f.hdr.type with
      | .commandAck => s.onAck f nowMs rollClaims
      | .hexRsp => s.onRsp frame f
      | _ => s

-- A HEX line from the charger, counted under the running job when it answers it.
def Link.vedLine (s : Link) (line : Bytes) : Link :=
  let link := s.node.app.port.link
  {s with
    node := {s.node with app := s.node.app.onLink (link.onHexLine line)}
    matched := if link.takes line then (link.job.number,line) :: s.matched else s.matched}

def step (s : Link) : Input → Link
  | .submit req ctx nowMs => s.submit req ctx nowMs
  | .tick nowMs armed queued => s.turn mac keys nowMs armed queued
  | .aired airedMs => {s with proxy := s.proxy.onAired airedMs}
  | .setParams rspTimeoutMs readRetries => {s with proxy := {s.proxy with rspTimeoutMs := rspTimeoutMs,readRetries := readRetries}}
  | .takeCmdSeq id =>
      match s.registry.takeCmdSeq id with
      | none => s
      | some (_,registry) => {s with registry := registry}
  | .adoptCtx id ctx => {s with registry := s.registry.adoptCtx id ctx}
  | .observe hdr nowMs => {s with registry := (s.registry.observe hdr nowMs).2}
  | .deliver i random nowMs =>
      match s.sent[i]? with
      | none => s
      | some (bytes,mark) => s.after mark (s.node.receive mac (gateLinkOps payloads) bytes random nowMs)
  | .other bytes random nowMs =>
      if (readHeader bytes).type = .hexReq then s
      else s.after s.holding (s.node.receive mac (gateLinkOps payloads) bytes random nowMs)
  | .lose i => {s with sent := s.sent.eraseIdx i}
  | .hear i nowMs rollClaims =>
      match s.air[i]? with
      | none => s
      | some frame => s.hear listen frame nowMs rollClaims
  | .miss i => {s with air := s.air.eraseIdx i}
  | .own input => if isOwn input then s.after s.holding (ChargerWrites.step mac payloads {engine := s.node} input).engine else s
  | .vedLine line => s.vedLine line
  | .reboot random phy config =>
      {s with node := Authenticated.rebooted s.node random phy (ChargerWrites.freshApp s.node.app config),queue := []}
  | .transmit =>
      {s with
        node := {s.node with outbox := s.node.outbox.drop 1}
        air := s.air ++ s.queue.take 1
        answers := s.queue.take 1 ++ s.answers
        queue := s.queue.drop 1}

def start (c : Context) (random : RandomFn) (phy : PhyTrial) (config : Option GateLinkConfig) : Link :=
  {node := {ctx := resetContext c random,phy := phy,app := {config := config}}}

-- The HEX_REQs that can still have an answer come: those on their way, those an answer is on its way for, and the one the
-- node is serving.
def Link.outstanding (s : Link) : List Mark :=
  s.sent.map Prod.snd ++ ((s.queue ++ s.air).filter fun frame => isRsp frame.1).map Prod.snd ++
    if s.node.ctx.hexPending.active then [s.holding] else []

-- The number a submission takes.
def Link.numberFor (s : Link) (req : HexRequest) : Seq :=
  if classifyHex req.hex = .write then (s.registry.state req.dst).cmdSeq
  else if s.proxy.readSeq + 1 = 0 then 1 else s.proxy.readSeq + 1

-- A REJECTED_CTX that has the write in flight sent again, as number 1 of the context it names.
def Resyncs (p : HexProxy) (f : Frame) : Prop :=
  f.hdr.type = .commandAck ∧ p.resyncUsed = false ∧ p.restart = false ∧
    ∃ ack ∈ CommandAck.deserialize f.payload, p.Matches f.hdr.src ack ∧ ack.result = AckResult.rejectedCtx.code

instance (p : HexProxy) (f : Frame) : Decidable (Resyncs p f) := inferInstanceAs (Decidable (_ ∧ _ ∧ _ ∧ _))

-- Whenever the proxy numbers an exchange, no answer can still come for another HEX_REQ of that number to that node; and
-- no job or result in the node bears the token the next forward takes.
def Numbered (s : Link) : Input → Prop
  | .submit req _ _ => ∀ m ∈ s.outstanding, m.dst = req.dst → m.seq ≠ s.numberFor req
  | .hear i _ rollClaims => rollClaims = false → ∀ frame ∈ s.air[i]?, ∀ f ∈ heardFrame listen frame.1, Resyncs s.proxy f →
      ∀ m ∈ s.outstanding, m.dst = s.proxy.req.dst → m.seq = 1 → m.submission = s.current
  | .deliver _ _ _ => s.node.app.hexToken + 1 ∉ s.node.app.tokens
  | _ => True

instance (s : Link) : (i : Input) → Decidable (Numbered listen s i)
  | .submit .. => inferInstanceAs (Decidable (∀ m ∈ s.outstanding, _ → _))
  | .hear i _ _ => inferInstanceAs (Decidable (_ → ∀ frame ∈ s.air[i]?, ∀ f ∈ heardFrame listen frame.1, _ → ∀ m ∈ s.outstanding, _ → _ → _))
  | .deliver .. => inferInstanceAs (Decidable (_ ∉ _))
  | .tick .. | .aired _ | .setParams .. | .takeCmdSeq _ | .adoptCtx .. | .observe .. | .other .. | .lose _ | .miss _ | .own _ | .vedLine _
  | .reboot .. | .transmit => .isTrue trivial

end
end LoraRan.System.HexLink
