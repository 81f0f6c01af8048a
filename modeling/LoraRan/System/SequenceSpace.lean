import LoraRan.Bridge.HexProxy
import LoraRan.Library.StepSystem

namespace LoraRan.System.SequenceSpace
open Protocol Bridge Library.StepSystem

-- A transmitted frame that draws on a node's command sequence space, with the submission it was sent for.
structure Sent where
  node : NodeId
  submission : Nat
  ctx : CtxId
  seq : Seq
  deriving DecidableEq

-- A submission that has read the registry and not yet drawn its number: two separate registry calls.
inductive Reading where
  | command (req : CommandRequest) (ctx : CtxId)
  | hex (req : HexRequest) (ctx : CtxId)

def Reading.dst : Reading → NodeId
  | .command req _ => req.dst
  | .hex req _ => req.dst

def Reading.ctx : Reading → CtxId
  | .command _ ctx => ctx
  | .hex _ ctx => ctx

-- A COMMAND_ACK app_task has decoded, with the node and the context its header named.
structure HeardAck where
  src : NodeId
  ack : CommandAck
  ctx : CtxId

-- sched_task's paths, app_task's frame in hand, and the registry both use. The last four fields are bookkeeping of
-- the run and are read by no step.
structure State where
  registry : Registry := {}
  command : CommandPath := {}
  hex : HexProxy := {}
  reading : Option Reading := none
  heardAck : Option HeardAck := none
  current : Nat := 0
  submissions : Nat := 0
  sent : List Sent := []
  grants : List Sent := []
  drawn : NodeId → CtxId → Nat := fun _ _ => 0
  lastCtx : NodeId → CtxId := fun _ => 0

inductive Event where
  | hear (hdr : Header) (ack : Option CommandAck) (nowMs : UInt32)
  | handAck (nowMs : UInt32)
  | hexRsp (src : NodeId) (seq : Seq) (rsp : HexRsp)
  | readCommand (req : CommandRequest)
  | readHex (req : HexRequest)
  | draw (nowMs : UInt32)
  | otherDraw (node : NodeId)
  | commandTick (nowMs : UInt32) (queued : Bool)
  | hexTick (nowMs : UInt32) (armed queued : Bool)
  | commandAired (airedMs : UInt32)
  | hexAired (airedMs : UInt32)

-- exchange_may_start, as far as these two paths and the submission being admitted decide it.
def State.idle (s : State) : Bool := !s.command.busy && !s.hex.busy && s.reading.isNone

def State.noteDraw (s : State) (node : NodeId) : State :=
  let ctx := (s.registry.state node).ctxId
  {s with drawn := Function.update s.drawn node (Function.update (s.drawn node) ctx (s.drawn node ctx + 1))}

-- registry_take_cmd_seq: the number, and the state with the counter moved on.
def State.take (s : State) (node : NodeId) : Option (Seq × State) :=
  match s.registry.takeCmdSeq node with
  | none => none
  | some (seq,registry) => some (seq,{s.noteDraw node with registry := registry})

def State.granted (s : State) (r : Reading) (seq : Seq) : State :=
  {s with
    reading := none
    current := s.submissions
    submissions := s.submissions + 1
    grants := ⟨r.dst,s.submissions,r.ctx,seq⟩ :: s.grants}

def State.drawFor (s : State) (nowMs : UInt32) : Reading → State
  | .command req ctx =>
      match s.take req.dst with
      | none => {s with reading := none}
      | some (seq,s) => {s.granted (.command req ctx) seq with command := (s.command.submit req ctx seq nowMs).2}
  | .hex req ctx =>
      if classifyHex req.hex = .write then
        match s.take req.dst with
        | none => {s with reading := none}
        | some (seq,s) => {s.granted (.hex req ctx) seq with hex := (s.hex.submit req true ctx seq nowMs).2}
      else {s with reading := none,hex := (s.hex.submit req false ctx 0 nowMs).2}

def State.adopt (s : State) (flag : Bool) (dst : NodeId) (ctx : CtxId) : State :=
  if flag then {s with registry := s.registry.adoptCtx dst ctx} else s

def State.commandTick (s : State) (nowMs : UInt32) (queued : Bool) : State :=
  let (st,command) := s.command.next nowMs
  let s := {s with command := command}
  match st.action with
  | .none => s
  | .resolve => s.adopt st.ctxAdopted st.dst st.ctxId
  | .send =>
      let s := s.adopt st.ctxAdopted st.dst st.ctxId
      if queued then
        {s with command := s.command.onSent nowMs,sent := ⟨st.dst,s.current,st.ctxId,st.seq⟩ :: s.sent}
      else s

def State.hexTick (s : State) (nowMs : UInt32) (armed queued : Bool) : State :=
  let (st,hex) := s.hex.next nowMs armed
  let s := {s with hex := hex}
  match st.action with
  | .none => s
  | .resolve => s.adopt st.ctxAdopted st.dst st.ctxId
  | .send =>
      let s := s.adopt st.ctxAdopted st.dst st.ctxId
      if queued then
        {s with
          hex := s.hex.onSent nowMs
          sent := if st.write then ⟨st.dst,s.current,st.ctxId,st.seq⟩ :: s.sent else s.sent}
      else s

-- cmd_on_ack: the HEX proxy claims its own ACK first.
def State.handAck (s : State) (nowMs : UInt32) : State :=
  match s.heardAck with
  | none => s
  | some ⟨src,ack,ctx⟩ =>
      let (claimed,hex) := s.hex.onAck src ack ctx nowMs
      if claimed then {s with heardAck := none,hex := hex}
      else {s with heardAck := none,command := s.command.onAck src ack ctx nowMs}

def step (s : State) : Event → State
  | .hear hdr ack nowMs =>
      if s.heardAck.isSome ∨ !registered hdr.src then s
      else {s with
        registry := (s.registry.observe hdr nowMs).2
        heardAck := ack.map fun ack => ⟨hdr.src,ack,hdr.ctxId⟩
        lastCtx := Function.update s.lastCtx hdr.src hdr.ctxId}
  | .handAck nowMs => s.handAck nowMs
  | .hexRsp src seq rsp => {s with hex := (s.hex.onRsp src seq rsp).2}
  | .readCommand req =>
      if s.idle && registered req.dst then {s with reading := some (.command req (s.registry.state req.dst).ctxId)} else s
  | .readHex req =>
      if s.idle && registered req.dst then {s with reading := some (.hex req (s.registry.state req.dst).ctxId)} else s
  | .draw nowMs =>
      match s.reading with
      | none => s
      | some r => s.drawFor nowMs r
  | .otherDraw node =>
      if s.idle then
        match s.take node with
        | none => s
        | some (_,s) => s
      else s
  | .commandTick nowMs queued => s.commandTick nowMs queued
  | .hexTick nowMs armed queued => s.hexTick nowMs armed queued
  | .commandAired airedMs => {s with command := s.command.onAired airedMs}
  | .hexAired airedMs => {s with hex := s.hex.onAired airedMs}

-- The node's contexts arrive in the order the node used them, and none is used up.
def Ordered (rank : NodeId → CtxId → Nat) (s : State) : Event → Prop
  | .hear hdr _ _ => hdr.ctxId ≠ 0 ∧ (s.lastCtx hdr.src = 0 ∨ rank hdr.src (s.lastCtx hdr.src) ≤ rank hdr.src hdr.ctxId)
  | .draw _ => ∀ r ∈ s.reading, s.drawn r.dst (s.registry.state r.dst).ctxId + 1 < 65535
  | .otherDraw node => s.drawn node (s.registry.state node).ctxId + 1 < 65535
  | _ => True

-- A REJECTED_CTX that answers the exchange in flight finds one the bridge does not send again, in a context other
-- than that exchange's own; and no context changes between a submission's registry read and its draw.
def Conforming (s : State) : Event → Prop
  | .handAck _ => ∀ heard ∈ s.heardAck, heard.ack.result = AckResult.rejectedCtx.code →
      (s.hex.Matches heard.src heard.ack → s.hex.restart = true ∧ heard.ctx ≠ s.hex.ctx) ∧
      (s.command.Matches heard.src heard.ack → resyncMayRetry s.command.req.cmd = false ∧ heard.ctx ≠ s.command.ctx)
  | .draw _ => ∀ r ∈ s.reading, (s.registry.state r.dst).ctxId = r.ctx
  | _ => True

instance (rank : NodeId → CtxId → Nat) (s : State) : (e : Event) → Decidable (Ordered rank s e)
  | .hear _ _ _ => inferInstanceAs (Decidable (_ ∧ (_ ∨ _)))
  | .draw _ => inferInstanceAs (Decidable (∀ r ∈ s.reading, _))
  | .otherDraw _ => inferInstanceAs (Decidable (_ < _))
  | .handAck _ | .hexRsp _ _ _ | .readCommand _ | .readHex _ | .commandTick _ _ | .hexTick _ _ _ | .commandAired _ | .hexAired _ =>
      .isTrue trivial

instance (s : State) : (e : Event) → Decidable (Conforming s e)
  | .handAck _ => inferInstanceAs (Decidable (∀ heard ∈ s.heardAck, _ → _))
  | .draw _ => inferInstanceAs (Decidable (∀ r ∈ s.reading, _))
  | .hear _ _ _ | .otherDraw _ | .hexRsp _ _ _ | .readCommand _ | .readHex _ | .commandTick _ _ | .hexTick _ _ _ | .commandAired _ |
    .hexAired _ => .isTrue trivial

def Distinct (s : State) : Prop :=
  ∀ f ∈ s.sent, ∀ g ∈ s.sent, f.submission ≠ g.submission → f.node = g.node → f.ctx = g.ctx → f.seq ≠ g.seq

instance (s : State) : Decidable (Distinct s) := inferInstanceAs (Decidable (∀ f ∈ s.sent, ∀ g ∈ s.sent, _ → _))

end LoraRan.System.SequenceSpace
