import LoraRan.Bridge.ContextRoll
import LoraRan.Bridge.HexProxy
import LoraRan.Bridge.PhyFlow

namespace LoraRan.Bridge
open Protocol Config

-- Who can have the air. A request being admitted is an exchange that has not begun to send; inside a PHY change it is that change's own.
inductive Holder where
  | admission | roll | command | hex | config | phy
  deriving DecidableEq, Repr

-- What a request is ordered for: a command, a HEX write, a set or readback asked for on a node's topic, a PHY change's SET or GET, or the
-- readback such a change deferred.
inductive OrderKind where
  | command | hexWrite | config | phyConfig | phyReadback
  deriving DecidableEq, Repr

-- A request that drew a number of its node's, with the node's roll bit at that moment.
structure Order where
  kind : OrderKind
  dst : NodeId
  pending : Bool
  deriving DecidableEq

structure Outgoing where
  dst : NodeId
  bytes : Bytes
  deriving DecidableEq

-- What waits for the configuration path. Whether a job is a PHY change's deferred readback is told by nothing in the source and read by no step.
inductive QueuedConfig where
  | node (job : ConfigJob) (deferred : Bool)
  | phy (job : PhyJob)

def QueuedConfig.isPhy : QueuedConfig → Bool
  | .phy _ => true
  | .node .. => false

def configQueueDepth : Nat := 2

-- queue_config_job. A job the queue has no room for is dropped.
def queueConfigJob (queue : List QueuedConfig) (job : QueuedConfig) : List QueuedConfig :=
  if queue.length < configQueueDepth then queue ++ [job] else queue

def queueConfigJobToFront (queue : List QueuedConfig) (job : QueuedConfig) : List QueuedConfig :=
  if queue.length < configQueueDepth then job :: queue else queue

-- A request sched_task is admitting. Context and number are two registry calls, and app_task may come between them. A CONFIG draws its
-- number first, a readback draws none, everything else reads the context first.
inductive Admission where
  | roll (dst : NodeId) (ctx : CtxId)
  | command (req : CommandRequest) (ctx : CtxId)
  | hex (req : HexRequest) (ctx : CtxId)
  | config (job : ConfigJob) (deferred : Bool) (seq : Seq)
  | readback (dst : NodeId)
  | phy (dst : NodeId) (config : NodeConfigV1) (ctx : CtxId)

def Admission.ofPhy : Admission → Bool
  | .phy .. => true
  | _ => false

-- A frame app_task has in hand: observed, then noted by the schedulers, then handed to the path its ACK answers.
structure HeardFrame where
  src : NodeId
  ctx : CtxId
  ack : Option CommandAck
  noted : Bool

-- The state sched_task, app_task and mqtt_task share, as far as requests to a node go. The orders are bookkeeping of the run and are read by
-- no step.
structure Tasks where
  registry : Registry := {}
  roll : ContextRoll := {}
  rollPending : NodeId → Bool := registered
  command : CommandPath := {}
  hex : HexProxy := {}
  config : ConfigPath := {}
  configQueue : List QueuedConfig := []
  changePending : NodeId → Bool := fun _ => false
  phyWaiting : Option PhyJob := none
  phy : PhyChange := {}
  watched : NodeId → Bool := fun _ => false
  admission : Option Admission := none
  inHand : Option HeardFrame := none
  orders : List Order := []

inductive TaskInput where
  | hear (hdr : Header) (ack : Option CommandAck) (nowMs : UInt32)
  | note (nowMs : UInt32)
  | hand (nowMs : UInt32)
  | hexRsp (src : NodeId) (seq : Seq) (rsp : HexRsp)
  | configAck (src : NodeId) (ack : NodeConfigAckV1) (seq : Seq) (nowMs : UInt32)
  | configChanged (src : NodeId)
  | askConfig (dst : NodeId) (config : NodeConfigV1)
  | askPhy (job : PhyJob) (refused : Bool)
  | watch (watched : NodeId → Bool)
  | admitRoll (quiet : Bool)
  | admitCommand (req : CommandRequest) (quiet : Bool)
  | admitHex (req : HexRequest) (quiet : Bool)
  | admitConfig (quiet : Bool)
  | draw (nowMs : UInt32) (queued : Bool) (ver : UInt8)
  | rollTick (nowMs : UInt32) (queued : Bool) (ver : UInt8)
  | commandTick (nowMs : UInt32) (queued : Bool) (ver : UInt8)
  | hexTick (nowMs : UInt32) (armed queued : Bool) (ver : UInt8)
  | configTick (nowMs : UInt32) (pollSeq : Seq) (queued : Bool) (ver : UInt8)
  | startPhy (nowMs : UInt32) (quiet : Bool)
  | phyRetuned (nowMs : UInt32)
  | phyTick (nowMs : UInt32) (pollSeq : Seq) (committed queued : Bool) (ver : UInt8)
  | sendPlain (hdr : Header) (payload : Bytes)
  | aired (path : Holder) (airedMs : UInt32)
  | setParams (ackTimeoutMs : UInt32) (retries : UInt8) (configAckMs configReadbackMs : UInt32)
  | restart

-- exchange_may_start(), asked by a sched_task that is not in the middle of an admission. `quiet` is what is not modelled here: no scheduled
-- poll, echo or upload.
def Tasks.mayStart (t : Tasks) (quiet : Bool) : Bool :=
  quiet && !t.command.busy && !t.roll.busy && t.config.phase == .idle && !t.phy.blocksTraffic && !t.hex.busy && t.admission.isNone

def rollContextCommand : Command := ⟨cmdRollContext,rollContextGuard,0⟩

def configHeader (dst : NodeId) (ctx : CtxId) (seq : Seq) (ver : UInt8) : Header :=
  {ver := ver,type := .config,src := nodeBridge,dst := dst,seq := seq,ctxId := ctx,schema := schemaNodeConfigV1}

def pollHeader (dst : NodeId) (ctx : CtxId) (seq : Seq) (ver : UInt8) : Header :=
  {ver := ver,type := .poll,src := nodeBridge,dst := dst,seq := seq,ctxId := ctx}

def pollFlagFullStatus : UInt8 := 0x01
def pollFlagConfigReadback : UInt8 := 0x02

-- The six rows of the group under the node's ids and the bridge's types.
def buildPhySet (g : PhyGroup) : NodeConfigV1 where
  op := configOpSet
  entries := (List.finRange phyGroupSize).map fun (k : Fin phyGroupSize) =>
    (bridgePhyRow k).elim {} fun d => ConfigEntry.pack {} (nodePhyIds.getD k 0) d.type (rawBits (g k) d.type)

def buildPhyGet : NodeConfigV1 where
  op := configOpGet
  entries := (List.finRange phyGroupSize).map fun (k : Fin phyGroupSize) =>
    (bridgePhyRow k).elim {} fun d => {paramId := nodePhyIds.getD k 0,ptype := d.type}

def Tasks.contextOf (t : Tasks) (id : NodeId) : CtxId := (t.registry.state id).ctxId

-- registry_take_cmd_seq
def Tasks.take (t : Tasks) (id : NodeId) : Option (Seq × Tasks) :=
  match t.registry.takeCmdSeq id with
  | none => none
  | some (seq,registry) => some (seq,{t with registry := registry})

def Tasks.order (t : Tasks) (kind : OrderKind) (dst : NodeId) : Tasks := {t with orders := t.orders ++ [⟨kind,dst,t.roll.pending dst⟩]}

def Tasks.adopt (t : Tasks) (flag : Bool) (dst : NodeId) (ctx : CtxId) : Tasks :=
  if flag then {t with registry := t.registry.adoptCtx dst ctx} else t

-- A POLL carries no MAC.
def buildPollFrame (dst : NodeId) (ctx : CtxId) (seq : Seq) (ver : UInt8) (flags : UInt8) : Option Bytes :=
  (encode (pollHeader dst ctx seq ver) [flags] {} maxFrame).toOption

section
variable (mac : Mac) (keys : NodeId → NodeKey)

def sealedWith (dst : NodeId) : EncodeCtx := {mac := some mac,nodeKey := some (keys dst)}

-- registry_build_config
def buildConfigFrame (dst : NodeId) (ctx : CtxId) (seq : Seq) (ver : UInt8) (config : NodeConfigV1) : Option Bytes :=
  config.serialize.bind fun payload => (encode (configHeader dst ctx seq ver) payload (sealedWith mac keys dst) maxFrame).toOption

def Tasks.draw (t : Tasks) (nowMs : UInt32) (queued : Bool) (ver : UInt8) (a : Admission) : Tasks × Option Outgoing :=
  let t := {t with admission := none}
  match a with
  | .roll dst ctx =>
      match t.take dst with
      | none => (t,none)
      | some (seq,t) => ({t with roll := (t.roll.submit dst ctx seq nowMs).2},none)
  | .command req ctx =>
      match t.take req.dst with
      | none => (t,none)
      | some (seq,t) => ({t.order .command req.dst with command := (t.command.submit req ctx seq nowMs).2},none)
  | .hex req ctx =>
      if classifyHex req.hex = .write then
        match t.take req.dst with
        | none => (t,none)
        | some (seq,t) => ({t.order .hexWrite req.dst with hex := (t.hex.submit req true ctx seq nowMs).2},none)
      else ({t with hex := (t.hex.submit req false ctx 0 nowMs).2},none)
  | .config job deferred seq =>
      -- app_task can have begun a readback meanwhile. The job goes back to the queue's front then, and its number is lost.
      let (started,config) := t.config.submit job (t.contextOf job.dst) seq nowMs
      if started then ({t.order (if deferred then .phyReadback else .config) job.dst with config := config},none)
      else ({t with configQueue := queueConfigJobToFront t.configQueue (.node job deferred)},none)
  | .readback dst =>
      let (started,config) := t.config.submit {dst := dst,readbackOnly := true} 0 0 nowMs
      if started then ({t with config := config},none) else ({t with changePending := Function.update t.changePending dst true},none)
  | .phy dst config ctx =>
      match t.take dst with
      | none => (t,none)
      | some (seq,t) =>
          match buildConfigFrame mac keys dst ctx seq ver config with
          | none => (t,none)
          | some bytes =>
              if queued then ({t.order .phyConfig dst with phy := t.phy.onSent seq nowMs},some ⟨dst,bytes⟩) else (t,none)

def Tasks.rollTick (t : Tasks) (nowMs : UInt32) (queued : Bool) (ver : UInt8) : Tasks × Option Outgoing :=
  let (st,roll) := t.roll.next nowMs
  let t := {t with roll := roll}
  match st.action with
  | .none => (t,none)
  | .resolve => ({t.adopt (st.outcome == .rolled) st.dst st.ctxId with rollPending := roll.pending},none)
  | .send =>
      match buildCommandFrame st.dst st.ctxId st.seq ver rollContextCommand (sealedWith mac keys st.dst) maxFrame with
      | none => (t,none)
      | some bytes => if queued then ({t with roll := t.roll.onSent nowMs},some ⟨st.dst,bytes⟩) else (t,none)

def Tasks.commandTick (t : Tasks) (nowMs : UInt32) (queued : Bool) (ver : UInt8) : Tasks × Option Outgoing :=
  let (st,command) := t.command.next nowMs
  let t := {t with command := command}
  match st.action with
  | .none => (t,none)
  | .resolve => (t.adopt st.ctxAdopted st.dst st.ctxId,none)
  | .send =>
      let t := t.adopt st.ctxAdopted st.dst st.ctxId
      match buildCommandFrame st.dst st.ctxId st.seq ver ⟨st.cmd,st.arg,st.arg2⟩ (sealedWith mac keys st.dst) maxFrame with
      | none => (t,none)
      | some bytes => if queued then ({t with command := t.command.onSent nowMs},some ⟨st.dst,bytes⟩) else (t,none)

def Tasks.hexTick (t : Tasks) (nowMs : UInt32) (armed queued : Bool) (ver : UInt8) : Tasks × Option Outgoing :=
  let (st,hex) := t.hex.next nowMs armed
  let t := {t with hex := hex}
  match st.action with
  | .none => (t,none)
  | .resolve => (t.adopt st.ctxAdopted st.dst st.ctxId,none)
  | .send =>
      let t := t.adopt st.ctxAdopted st.dst st.ctxId
      match buildHexReqFrame st.dst st.ctxId st.seq ver hex.req.hex (sealedWith mac keys st.dst) maxFrame with
      | none => (t,none)
      | some bytes => if queued then ({t with hex := t.hex.onSent nowMs},some ⟨st.dst,bytes⟩) else (t,none)

-- A readback nobody asked for is asked for once it is abandoned.
def Tasks.configResolved (t : Tasks) (st : ConfigStep) : Tasks :=
  if st.readbackOnly && !st.updatesState && st.unsolicited then {t with changePending := Function.update t.changePending st.dst true} else t

def Tasks.configTick (t : Tasks) (nowMs : UInt32) (pollSeq : Seq) (queued : Bool) (ver : UInt8) : Tasks × Option Outgoing :=
  let (st,config) := t.config.next nowMs
  let t := {t with config := config}
  match st.action with
  | .none => (t,none)
  | .resolve => (t.configResolved st,none)
  | .requestReadback =>
      if !registered st.dst then (t,none)
      else match buildPollFrame st.dst (t.contextOf st.dst) pollSeq ver (pollFlagFullStatus ||| pollFlagConfigReadback) with
        | none => (t,none)
        | some bytes => if queued then ({t with config := t.config.onSent nowMs},some ⟨st.dst,bytes⟩) else (t,none)
  | .sendConfig =>
      match buildConfigFrame mac keys st.dst st.ctxId st.seq ver st.payload with
      | none => (t,none)
      | some bytes => if queued then ({t with config := t.config.onSent nowMs},some ⟨st.dst,bytes⟩) else (t,none)

-- send_phy_config, up to the draw.
def Tasks.admitPhy (t : Tasks) (dst : NodeId) (config : NodeConfigV1) : Tasks :=
  if registered dst then {t with admission := some (.phy dst config (t.contextOf dst))} else t

-- One turn of sched_phy. Its retunes, its writes and its documents touch none of this state, but for a commit the storage refused.
def Tasks.phyTick (t : Tasks) (nowMs : UInt32) (pollSeq : Seq) (committed queued : Bool) (ver : UInt8) : Tasks × Option Outgoing :=
  if t.admission.isSome then (t,none)
  else
    let (st,phy) := t.phy.next nowMs
    let t := {t with phy := phy}
    match st.action with
    | .sendSet => (t.admitPhy st.dst (buildPhySet st.group),none)
    | .sendGet => (t.admitPhy st.dst buildPhyGet,none)
    | .sendPoll =>
        if !registered st.dst then (t,none)
        else match buildPollFrame st.dst (t.contextOf st.dst) pollSeq ver pollFlagFullStatus with
          | none => (t,none)
          | some bytes => if queued then ({t with phy := t.phy.onSent 0 nowMs},some ⟨st.dst,bytes⟩) else (t,none)
    | .commit => (if committed then t else {t with phy := t.phy.commitFailed},none)
    | .readback =>
        -- The ordinary node path, with no look at the node's roll.
        let job : ConfigJob := {dst := st.dst,op := configOpGetAll,config := {op := configOpGetAll}}
        ({t with configQueue := queueConfigJob t.configQueue (.node job true)},none)
    | .none | .retune | .nodeConfirmed | .abandon => (t,none)

-- cmd_on_ack: the roll claims its own ACK first, then the HEX proxy.
def Tasks.hand (t : Tasks) (nowMs : UInt32) : Tasks :=
  match t.inHand with
  | none => t
  | some h =>
      if !h.noted then t
      else
        let t := {t with inHand := none}
        match h.ack with
        | none => t
        | some ack =>
            let (claimed,roll) := t.roll.onAck h.src ack h.ctx nowMs
            if claimed then {t with roll := roll}
            else
              let (claimed,hex) := t.hex.onAck h.src ack h.ctx nowMs
              if claimed then {t with hex := hex} else {t with command := t.command.onAck h.src ack h.ctx nowMs}

-- config_on_ack: the PHY change claims its own answers first.
def Tasks.configAck (t : Tasks) (src : NodeId) (ack : NodeConfigAckV1) (seq : Seq) (nowMs : UInt32) : Tasks :=
  let (claimed,phy) := t.phy.onConfigAck src ack seq nowMs
  if claimed then {t with phy := phy} else {t with config := t.config.onConfigAck src ack seq nowMs}

-- Home Assistant's jobs come before the readbacks that are owed, one node's at a time.
def Tasks.admitConfig (t : Tasks) (quiet : Bool) : Tasks :=
  if !t.mayStart quiet || t.phyWaiting.isSome then t
  else match t.configQueue with
    | .phy job :: rest => {t with configQueue := rest,phyWaiting := some job}
    | .node job deferred :: rest =>
        let t := {t with configQueue := rest}
        match t.take job.dst with
        | none => t
        | some (seq,t) => {t with admission := some (.config job deferred seq)}
    | [] =>
        match nodeTable.find? t.changePending with
        | none => t
        | some id => {t with changePending := Function.update t.changePending id false,admission := some (.readback id)}

-- The fleet is every node watched now, as many as a change takes.
def Tasks.startPhy (t : Tasks) (nowMs : UInt32) (quiet : Bool) : Tasks :=
  match t.phyWaiting with
  | none => t
  | some job =>
      if !t.mayStart quiet then t
      else {t with
        phyWaiting := none
        phy := (t.phy.start job.from_ job.to_ ((nodeTable.filter t.watched).take maxPhyFleet) nowMs).2}

def Tasks.aired (t : Tasks) (airedMs : UInt32) : Holder → Tasks
  | .admission => t
  | .roll => {t with roll := t.roll.onAired airedMs}
  | .command => {t with command := t.command.onAired airedMs}
  | .hex => {t with hex := t.hex.onAired airedMs}
  | .config => {t with config := t.config.onAired airedMs}
  | .phy => {t with phy := t.phy.onAired airedMs}

def Tasks.step (t : Tasks) : TaskInput → Tasks × Option Outgoing
  | .hear hdr ack nowMs =>
      (if t.inHand.isSome then t
       else {t with registry := (t.registry.observe hdr nowMs).2,inHand := some ⟨hdr.src,hdr.ctxId,ack,false⟩},none)
  | .note nowMs =>
      (match t.inHand with
       | none => t
       | some h => {t with roll := t.roll.onHeard h.src,phy := t.phy.onHeard h.src nowMs,inHand := some {h with noted := true}},none)
  | .hand nowMs => (t.hand nowMs,none)
  | .hexRsp src seq rsp => ({t with hex := (t.hex.onRsp src seq rsp).2},none)
  | .configAck src ack seq nowMs => (t.configAck src ack seq nowMs,none)
  | .configChanged src => ({t with changePending := Function.update t.changePending src true},none)
  | .askConfig dst config =>
      (if t.rollPending dst then t
       else {t with configQueue := queueConfigJob t.configQueue (.node {dst := dst,op := config.op,config := config} false)},none)
  | .askPhy job refused =>
      -- `refused`: another change in progress, or a fleet that is empty or not all online.
      (if refused || nodeTable.any (fun id => t.watched id && t.rollPending id) then t
       else {t with configQueue := queueConfigJob t.configQueue (.phy job)},none)
  | .watch watched => ({t with watched := watched},none)
  | .admitRoll quiet =>
      (match t.mayStart quiet,t.roll.nextDue with
       | true,some id => if t.contextOf id = 0 then t else {t with admission := some (.roll id (t.contextOf id))}
       | _,_ => t,none)
  | .admitCommand req quiet =>
      (if !t.mayStart quiet || t.roll.pending req.dst || !registered req.dst then t
       else {t with admission := some (.command req (t.contextOf req.dst))},none)
  | .admitHex req quiet =>
      (if !t.mayStart quiet || t.phyWaiting.isSome || !registered req.dst || classifyHex req.hex == .malformed then t
       else if classifyHex req.hex = .write ∧ t.rollPending req.dst then t
       else {t with admission := some (.hex req (t.contextOf req.dst))},none)
  | .admitConfig quiet => (t.admitConfig quiet,none)
  | .draw nowMs queued ver =>
      match t.admission with
      | none => (t,none)
      | some a => t.draw mac keys nowMs queued ver a
  | .rollTick nowMs queued ver => t.rollTick mac keys nowMs queued ver
  | .commandTick nowMs queued ver => t.commandTick mac keys nowMs queued ver
  | .hexTick nowMs armed queued ver => t.hexTick mac keys nowMs armed queued ver
  | .configTick nowMs pollSeq queued ver => t.configTick mac keys nowMs pollSeq queued ver
  | .startPhy nowMs quiet => (t.startPhy nowMs quiet,none)
  | .phyRetuned nowMs => ({t with phy := t.phy.onRetuned nowMs},none)
  | .phyTick nowMs pollSeq committed queued ver => t.phyTick nowMs pollSeq committed queued ver
  | .sendPlain hdr payload =>
      if frameHasMac hdr.type payload || hdr.fragTotal != 1 then (t,none)
      else match (encode hdr payload (sealedWith mac keys hdr.dst) maxFrame).toOption with
        | none => (t,none)
        | some bytes => (t,some ⟨hdr.dst,bytes⟩)
  | .aired path airedMs => (t.aired airedMs path,none)
  | .setParams ackTimeoutMs retries configAckMs configReadbackMs =>
      ({t with
        roll := {t.roll with ackTimeoutMs := ackTimeoutMs,retries := retries}
        command := {t.command with ackTimeoutMs := ackTimeoutMs,retries := retries}
        config := {t.config with ackTimeoutMs := configAckMs,readbackTimeoutMs := configReadbackMs}
        phy := t.phy.setAckTimeoutMs configAckMs},none)
  | .restart => ({orders := t.orders},none)

-- Whose exchange a step's frame belongs to. The scheduler's own polls and the echo belong to none.
def TaskInput.sender : TaskInput → Option Holder
  | .rollTick .. => some .roll
  | .commandTick .. => some .command
  | .hexTick .. => some .hex
  | .configTick .. => some .config
  | .draw .. | .phyTick .. => some .phy
  | _ => none

end
end LoraRan.Bridge
