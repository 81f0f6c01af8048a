import LoraRan.Node.Context
import LoraRan.Node.PhyTrial
import Mathlib.Data.List.DropRight

namespace LoraRan.Node
open Protocol Config
open Library.LittleEndian (u8At)

def capAnswersCommands : UInt8 := 0x01
def capAnswersConfig : UInt8 := 0x02
def capAnswersHex : UInt8 := 0x04
def capRefusesAuthenticated : UInt8 := 0x08

inductive StatusReason where
  | pollResponse | gateStateChange | holdStateChange | mpptError | vehicleDetected | bmsAlarm | hardShutdown | fire
  | configChange | boot | chargeInhibited | debugSynthetic
  deriving DecidableEq, Repr

inductive EventType where
  | vehicleWhileHeldOpen | fireAsserted | hardShutdown | vehicleDetected | gateStateChange | holdStateChange | bmsAlarm
  | mpptError | chargeInhibited | boot | phyReverted
  deriving DecidableEq, Repr

structure CommandOutcome where
  result : AckResult := .accepted
  detail : UInt8 := 0
  after : AfterAck := .none
  deferred : Bool := false
  deriving DecidableEq

inductive AckDelivery where
  | send | suppress | twice
  deriving DecidableEq, Repr

-- The answer withhold() is asked about.
inductive Withheld where
  | roll | command | config | hexReq
  deriving DecidableEq, Repr

-- What the application may write in the context while it applies a parameter.
inductive Tuning where
  | cacheDepth (n : UInt8)
  | fragTimeoutMs (ms : UInt32)

def Tuning.apply (c : Context) : Tuning → Context
  | .cacheDepth n => {c with gate := c.gate.setCacheDepth n}
  | .fragTimeoutMs ms => {c with reassembler := c.reassembler.setTimeoutMs ms}

-- A send an application asks of the engine while it answers a POLL or a PING.
inductive Answer where
  | status (dst : NodeId) (reason : StatusReason)
  | configReadback (dst : NodeId)
  | statusFrame (dst : NodeId) (schema : SchemaId) (payload : Bytes)
  | echo (dst : NodeId) (seq : Seq) (payload : Bytes) (chunk : UInt8)

-- The application side of a node, over a state of its own. `none` from onPoll or onPing is the source's false.
structure Application (σ : Type) where
  capabilities : σ → Context → UInt8
  onPoll : σ → Context → Header → Bytes → UInt32 → Option (List Answer) × σ
  onPing : σ → Context → Header → Bytes → UInt8 → UInt32 → Option (List Answer) × σ
  execute : σ → Context → Command → UInt32 → CommandOutcome × σ
  buildStatus : σ → Context → StatusReason → UInt32 → (Bytes × SchemaId) × σ
  buildEvent : σ → Context → EventType → UInt16 → UInt32 → (Bytes × SchemaId) × σ
  configSet : σ → Context → ConfigEntry → Option ConfigAckEntry × List Tuning × σ
  configGet : σ → Context → UInt16 → Option ConfigAckEntry × σ
  configList : σ → Context → List ConfigAckEntry × σ
  configRestoreDefaults : σ → Context → List Tuning × σ
  configUnpersisted : σ → Context → Bool
  phySlot : σ → Context → Nat
  phyMembers : σ → UInt8
  hexForward : σ → Context → Bytes → UInt32 → Option Bytes × σ
  hexTimeoutMs : σ → Context → UInt32
  withhold : σ → Context → Withheld → Header → Bool × σ
  forceRejectCtx : σ → Context → Header → Bool × σ
  freshAck : σ → Context → Seq → AckDelivery × σ

-- A payload as deliver() takes it: one frame's, or a reassembled set's.
structure Delivery where
  hdr : Header
  payload : Bytes
  deriving DecidableEq

inductive CallKind where
  | execute (cmd : Command)
  | configSet (entry : ConfigEntry)
  | configRestoreDefaults
  | phySet (entry : ConfigEntry)
  | rollContext
  | hexForward (hex : Bytes)
  deriving DecidableEq

structure Call where
  kind : CallKind
  serving : Option Delivery
  deriving DecidableEq

def outboxDepth : Nat := 16
def outFrameMax : Nat := 255

-- One context, the engine that serves it and its application. `serving` is the payload in hand, and `calls` the
-- trace of what the engine asked of the application and of the context; no step reads either.
structure Engine (σ : Type) where
  ctx : Context := {}
  outbox : List Bytes := []
  answersDropped : UInt32 := 0
  restartOwed : Bool := false
  phy : PhyTrial := {}
  app : σ
  serving : Option Delivery := none
  calls : List Call := []

section
variable {σ : Type} (mac : Mac) (ops : Application σ)

def Engine.call (n : Engine σ) (kind : CallKind) : Engine σ := {n with calls := ⟨kind,n.serving⟩ :: n.calls}

def Engine.freeSlots (n : Engine σ) : Nat := outboxDepth - n.outbox.length

def Engine.countDropped (n : Engine σ) : Engine σ := {n with answersDropped := n.answersDropped + 1}

-- Outbox::push, and the transmit counter.
def Engine.push (n : Engine σ) (bytes : Bytes) : Engine σ :=
  {n with
    outbox := if n.outbox.length = outboxDepth ∨ outFrameMax < bytes.length then n.outbox else n.outbox ++ [bytes]
    ctx := {n.ctx with counters := {n.ctx.counters with txFrames := n.ctx.counters.txFrames + 1}}}

def Context.header (c : Context) (type : MsgType) (dst : NodeId) (schema : SchemaId) (seq : Seq) : Header :=
  {ver := c.protoVer,type := type,src := c.id,dst := dst,ctxId := c.ctxId,schema := schema,seq := seq}

def schemaNone : SchemaId := 0x00

def Engine.takeTxSeq (n : Engine σ) : Engine σ := {n with ctx := {n.ctx with txSeq := n.ctx.txSeq + 1}}

-- Fragments i, i+1, ..., as long as each one encodes.
def Engine.sendFragments (n : Engine σ) (hdr : Header) (payload : Bytes) (chunk : Nat) : Nat → Nat → Bool × Engine σ
  | 0, _ => (true,n)
  | left+1, i =>
      match encodeFragment hdr payload (UInt8.ofNat i) chunk {mac := some mac,nodeKey := some n.ctx.key} maxFrame with
      | .error _ => (false,n)
      | .ok bytes => (n.push bytes).sendFragments hdr payload chunk left (i + 1)

def Engine.send (n : Engine σ) (hdr : Header) (payload : Bytes) (chunk : UInt8) : Bool × Engine σ :=
  if chunk = 0 ∨ payload.length ≤ chunk.toNat then
    if n.freeSlots < 1 then (false,n)
    else match encode hdr payload {mac := some mac,nodeKey := some n.ctx.key} maxFrame with
      | .error _ => (false,n)
      | .ok bytes => (true,n.push bytes)
  else
    let total := fragmentCount payload.length chunk.toNat
    if total = 0 ∨ n.freeSlots < total then (false,n) else n.sendFragments mac hdr payload chunk.toNat total 0

def Engine.sendAck (n : Engine σ) (peer : NodeId) (ackSeq : Seq) (result : AckResult) (detail : UInt8) : Bool × Engine σ :=
  let hdr := n.ctx.header .commandAck peer schemaNone n.ctx.txSeq
  let (sent,n) := n.takeTxSeq.send mac hdr (CommandAck.serialize ⟨ackSeq,result.code,detail⟩) 0
  if sent then (true,n) else (false,n.countDropped)

-- The ACK of a result just produced; a cached answer does not pass here.
def Engine.sendFreshAck (n : Engine σ) (peer : NodeId) (seq : Seq) (result : AckResult) (detail : UInt8) : Engine σ :=
  let (delivery,app) := ops.freshAck n.app n.ctx seq
  let n := {n with app := app}
  match delivery with
  | .suppress => n
  | .send => (n.sendAck mac peer seq result detail).2
  | .twice => ((n.sendAck mac peer seq result detail).2.sendAck mac peer seq result detail).2

-- A poll's answer has no reason of its own and carries an owed CONFIG_CHANGE.
def Engine.sendStatus (n : Engine σ) (dst : NodeId) (reason : StatusReason) (nowMs : UInt32) : Bool × Engine σ :=
  let reportChange : Bool := n.ctx.configChangeOwed && reason == .pollResponse
  let reason := if reportChange then .configChange else reason
  let ((payload,schema),app) := ops.buildStatus n.app n.ctx reason nowMs
  let n := {n with app := app}
  let hdr := n.ctx.header .status dst schema n.ctx.txSeq
  let n := n.takeTxSeq
  if payload.length = 0 then (false,n.countDropped)
  else
    let (sent,n) := n.send mac hdr payload 0
    if !sent then (false,n.countDropped)
    else if reportChange then (true,{n with ctx := {n.ctx with configChangeOwed := false}})
    else (true,n)

def Engine.sendEvent (n : Engine σ) (dst : NodeId) (payload : Bytes) (schema : SchemaId) : Bool × Engine σ :=
  let hdr := n.ctx.header .event dst schema n.ctx.txSeq
  n.takeTxSeq.send mac hdr payload 0

-- `none` for `replySeq` is the source's kUseStatusSeq.
def Engine.sendConfigAck (n : Engine σ) (dst : NodeId) (ack : NodeConfigAckV1) (replySeq : Option Seq) : Bool × Engine σ :=
  match ack.serialize with
  | none => (false,n)
  | some payload =>
      let hdr := n.ctx.header .configAck dst schemaNodeConfigV1 (replySeq.getD n.ctx.txSeq)
      let n := if replySeq.isNone then n.takeTxSeq else n
      let (sent,n) := n.send mac hdr payload 0
      if sent then (true,n) else (false,n.countDropped)

-- One CONFIG's outcome: the fields every message repeats and the results the messages carry.
structure ConfigAnswer where
  op : UInt8
  persistStatus : PersistStatus := .notApplied
  results : List ConfigAckEntry := []

def maxResults : Nat := maxConfigAckMessages * maxConfigAckEntries

-- How many of the results fit the message that already holds `used` bytes and `count` results.
def fillMessage : List ConfigAckEntry → Nat → Nat → Nat
  | [], _, _ => 0
  | e :: rest, used, count =>
      if count < maxConfigAckEntries ∧ used + configAckEntryHdrLen + e.len.toNat ≤ maxSchemaPayload then
        1 + fillMessage rest (used + configAckEntryHdrLen + e.len.toNat) (count + 1)
      else 0

def cutMessages : Nat → List ConfigAckEntry → List (List ConfigAckEntry)
  | 0, _ => []
  | limit+1, results =>
      let n := fillMessage results configAckHdrLen 0
      results.take n :: (if results.length ≤ n then [] else cutMessages limit (results.drop n))

-- Every message but the last is marked, the last one even when results were dropped.
def Engine.sendMessages (n : Engine σ) (dst : NodeId) (answer : ConfigAnswer) (replySeq : Option Seq) :
    List (List ConfigAckEntry) → Bool × Engine σ
  | [] => (true,n)
  | entries :: rest =>
      let ack : NodeConfigAckV1 :=
        {op := answer.op,moreFollows := !rest.isEmpty,persistStatus := answer.persistStatus.code,entries := entries}
      let (sent,n) := n.sendConfigAck mac dst ack replySeq
      if sent then n.sendMessages dst answer replySeq rest else (false,n)

def Engine.sendConfigAnswer (n : Engine σ) (dst : NodeId) (answer : ConfigAnswer) (replySeq : Option Seq) : Bool × Engine σ :=
  let limit := if answer.op ≠ configOpSet then maxConfigAckMessages else 1
  let messages := cutMessages limit answer.results
  if n.freeSlots < messages.length then (false,n.countDropped) else n.sendMessages mac dst answer replySeq messages

def Engine.sendHexRsp (n : Engine σ) (dst : NodeId) (seq : Seq) (status : HexStatus) (hex : Bytes) : Bool × Engine σ :=
  let payload := HexRsp.serialize ⟨status.code,hex⟩
  if 0xFF < hex.length ∨ maxPayloadPlain < payload.length then (false,n)
  else
    let (sent,n) := n.send mac (n.ctx.header .hexRsp dst schemaNone seq) payload 0
    if sent then (true,n) else (false,n.countDropped)

-- CONFIG.

-- Insertion from the left: the larger ids at the end move up one place.
def sortByParamId (results : List ConfigAckEntry) : List ConfigAckEntry :=
  results.foldl (fun sorted e =>
    sorted.rdropWhile (fun r => decide (e.paramId < r.paramId)) ++ e :: sorted.rtakeWhile (fun r => decide (e.paramId < r.paramId))) []

def unknownParam (id : UInt16) (ptype : UInt8) : ConfigAckEntry :=
  {paramId := id,status := ParamStatus.unknownParam.code,ptype := ptype,len := 0}

def Engine.currentPersist (n : Engine σ) : PersistStatus :=
  if ops.configUnpersisted n.app n.ctx then .appliedNotPersisted else n.phy.store.readPersistStatus phyPersist

def Engine.listAll (n : Engine σ) : List ConfigAckEntry × Engine σ :=
  let (rows,app) := ops.configList n.app n.ctx
  (rows ++ (nodeCommonParams.filter fun d => isPhy d.id).map fun d => n.phy.get d.id,{n with app := app})

def Engine.tune (n : Engine σ) (tunings : List Tuning) : Engine σ := {n with ctx := tunings.foldl Tuning.apply n.ctx}

-- One entry of a SET: its result, and whether it was a PHY row.
def Engine.setEntry (n : Engine σ) (entry : ConfigEntry) : ConfigAckEntry × Engine σ :=
  if isPhy entry.paramId then
    let (result,phy) := n.phy.set entry
    (result,{n.call (.phySet entry) with phy := phy})
  else
    let (result,tunings,app) := ops.configSet n.app n.ctx entry
    (result.getD (unknownParam entry.paramId entry.ptype),({n.call (.configSet entry) with app := app}).tune tunings)

def Engine.setEntries (n : Engine σ) : List ConfigEntry → List ConfigAckEntry × Engine σ
  | [] => ([],n)
  | entry :: rest =>
      let (result,n) := n.setEntry ops entry
      let (results,n) := n.setEntries rest
      (result :: results,n)

def Engine.getEntry (n : Engine σ) (entry : ConfigEntry) : ConfigAckEntry × Engine σ :=
  if isPhy entry.paramId then (n.phy.get entry.paramId,n)
  else
    let (result,app) := ops.configGet n.app n.ctx entry.paramId
    (result.getD (unknownParam entry.paramId entry.ptype),{n with app := app})

def Engine.getEntries (n : Engine σ) : List ConfigEntry → List ConfigAckEntry × Engine σ
  | [] => ([],n)
  | entry :: rest =>
      let (result,n) := n.getEntry ops entry
      let (results,n) := n.getEntries rest
      (result :: results,n)

def tookEffect (a : ConfigAckEntry) : Bool := a.status == ParamStatus.ok.code || a.status == ParamStatus.clamped.code

-- The board retunes on a SET only when every PHY entry of it answered OK.
def Engine.closeSet (n : Engine σ) (entries : List ConfigEntry) (results : List ConfigAckEntry) (nowMs : UInt32) : Engine σ :=
  let phyResults := ((entries.zip results).filter fun pair => isPhy pair.1.paramId).map Prod.snd
  if phyResults.isEmpty then n
  else
    let accepted := phyResults.all fun a => a.status == ParamStatus.ok.code
    {n with phy := n.phy.onSet (ops.phySlot n.app n.ctx) accepted (ops.phyMembers n.app) nowMs}

def Engine.applyConfig (n : Engine σ) (config : NodeConfigV1) (nowMs : UInt32) : ConfigAnswer × Engine σ :=
  if config.op = configOpSet then
    let (results,n) := n.setEntries ops config.entries
    let n := n.closeSet ops config.entries results nowMs
    let persist := if results.any tookEffect then n.currentPersist ops else .notApplied
    ({op := config.op,persistStatus := persist,results := results.take maxResults},n)
  else if config.op = configOpGet then
    let (results,n) := n.getEntries ops config.entries
    ({op := config.op,persistStatus := n.currentPersist ops,results := results.take maxResults},n)
  else if config.op = configOpGetAll then
    let (results,n) := n.listAll ops
    ({op := config.op,persistStatus := n.currentPersist ops,results := sortByParamId (results.take maxResults)},n)
  else if config.op = configOpRestoreDefaults then
    let (tunings,app) := ops.configRestoreDefaults n.app n.ctx
    let n := ({n.call .configRestoreDefaults with app := app}).tune tunings
    let (results,n) := n.listAll ops
    ({op := config.op,persistStatus := n.currentPersist ops,results := sortByParamId (results.take maxResults)},n)
  else ({op := config.op},n)

def Engine.sendConfigReadback (n : Engine σ) (dst : NodeId) : Bool × Engine σ :=
  let (answer,n) := n.applyConfig ops {op := configOpGetAll} 0
  n.sendConfigAnswer mac dst answer none

def Engine.confirmPhy (n : Engine σ) : Engine σ := {n with phy := n.phy.onAuthenticated}

def Engine.setGate (n : Engine σ) (gate : CommandGate) : Engine σ := {n with ctx := {n.ctx with gate := gate}}

def Engine.onConfig (n : Engine σ) (hdr : Header) (payload : Bytes) (nowMs : UInt32) : Engine σ :=
  let (withheld,app) := ops.withhold n.app n.ctx .config hdr
  let n := {n with app := app}
  if withheld then n
  else
    let (g,gate) := n.ctx.gate.check hdr.seq
    let n := n.setGate gate
    match g.verdict with
    | .returnCached =>
        match NodeConfigV1.deserialize payload with
        | some config =>
            if config.op = configOpGet ∨ config.op = configOpGetAll then
              let (answer,n) := n.applyConfig ops config nowMs
              (n.sendConfigAnswer mac hdr.src answer (some hdr.seq)).2
            else (n.sendAck mac hdr.src hdr.seq .duplicateCached g.cachedResult.code).2
        | none => (n.sendAck mac hdr.src hdr.seq .duplicateCached g.cachedResult.code).2
    | .inFlight => n
    | .reject => (n.sendAck mac hdr.src hdr.seq .rejectedSeq 0).2
    | .execute =>
        let n := n.confirmPhy
        match NodeConfigV1.deserialize payload with
        | none =>
            let n := n.setGate (n.ctx.gate.record hdr.seq .rejectedArg 0).2
            let ack : NodeConfigAckV1 := {op := u8At payload 0,persistStatus := PersistStatus.notApplied.code}
            (n.sendConfigAck mac hdr.src ack (some hdr.seq)).2
        | some config =>
            let n := {n with ctx := {n.ctx with executions := n.ctx.executions + 1}}
            let (answer,n) := n.applyConfig ops config nowMs
            let n := n.setGate (n.ctx.gate.record hdr.seq .accepted 0).2
            (n.sendConfigAnswer mac hdr.src answer (some hdr.seq)).2

-- Commands.

def Engine.finishCommand (n : Engine σ) (nowMs : UInt32) : Engine σ :=
  if !n.ctx.pending.active then n
  else
    let p := n.ctx.pending
    let n := {n with ctx := {n.ctx with pending := {p with active := false},gate := (n.ctx.gate.record p.seq p.result p.detail).2}}
    let n := n.sendFreshAck mac ops p.peer p.seq p.result p.detail
    match p.after with
    | .none => n
    | .status => (n.sendStatus mac ops p.peer .pollResponse nowMs).2
    | .configReadback => (n.sendConfigReadback mac ops p.peer).2
    | .reboot => {n with restartOwed := true}

-- A result decided by running the command replaces the one execute() left.
def Engine.finishCommandWith (n : Engine σ) (nowMs : UInt32) (result : AckResult) : Engine σ :=
  let n := {n with ctx := {n.ctx with pending := {n.ctx.pending with result := result,detail := 0}}}
  n.finishCommand mac ops nowMs

-- A roll passes no gate: the bridge sends it because its own seq cannot be trusted after a restart.
def Engine.onRoll (n : Engine σ) (hdr : Header) (cmd : Command) (random : RandomFn) : Engine σ :=
  if cmd.arg ≠ rollContextGuard then (n.sendAck mac hdr.src hdr.seq .rejectedArg 0).2
  else if n.ctx.gate.anyInFlight then (n.sendAck mac hdr.src hdr.seq .actuatorBusy 0).2
  else
    let n := n.confirmPhy
    let n := {n.call .rollContext with ctx := rollContext n.ctx random}
    n.sendFreshAck mac ops hdr.src hdr.seq .accepted 0

def Engine.answerRollOnly (n : Engine σ) (hdr : Header) (payload : Bytes) (random : RandomFn) : Option (Engine σ) :=
  match Command.deserialize payload with
  | none => none
  | some cmd =>
      if cmd.cmd ≠ cmdRollContext then none
      else
        let (withheld,app) := ops.withhold n.app n.ctx .roll hdr
        let n := {n with app := app}
        some (if withheld then n else n.onRoll mac ops hdr cmd random)

def Engine.unhandled (n : Engine σ) : Engine σ := {n with ctx := {n.ctx with unhandled := n.ctx.unhandled + 1}}

-- A COMMAND the gate passed: one execution at a time, and the seq is consumed either way.
def Engine.runCommand (n : Engine σ) (hdr : Header) (cmd : Command) (nowMs : UInt32) : Engine σ :=
  let n := n.confirmPhy
  if n.ctx.pending.active then
    let n := n.setGate (n.ctx.gate.record hdr.seq .actuatorBusy 0).2
    n.sendFreshAck mac ops hdr.src hdr.seq .actuatorBusy 0
  else
    let (o,app) := ops.execute n.app n.ctx cmd nowMs
    let pending : PendingCommand := ⟨true,hdr.src,hdr.seq,cmd.cmd,o.result,o.detail,o.after,nowMs⟩
    let n := {n.call (.execute cmd) with
      app := app
      ctx := {n.ctx with executions := n.ctx.executions + 1,pending := pending}}
    if o.deferred then n else n.finishCommand mac ops nowMs

def Engine.onCommand (n : Engine σ) (hdr : Header) (payload : Bytes) (random : RandomFn) (nowMs : UInt32) : Engine σ :=
  let (withheld,app) := ops.withhold n.app n.ctx .command hdr
  let n := {n with app := app}
  if withheld then n
  else match Command.deserialize payload with
    | none => n.unhandled
    | some cmd =>
        let (forced,app) := ops.forceRejectCtx n.app n.ctx hdr
        let n := {n with app := app}
        if forced then (n.sendAck mac hdr.src hdr.seq .rejectedCtx 0).2
        else if cmd.cmd = cmdRollContext then n.onRoll mac ops hdr cmd random
        else
          let (g,gate) := n.ctx.gate.check hdr.seq
          let n := n.setGate gate
          match g.verdict with
          | .execute => n.runCommand mac ops hdr cmd nowMs
          | .returnCached => (n.sendAck mac hdr.src hdr.seq .duplicateCached g.cachedResult.code).2
          | .inFlight => n
          | .reject => (n.sendAck mac hdr.src hdr.seq .rejectedSeq 0).2

-- HEX transport.

-- The node's own shape check: a colon and a hex command nibble.
def hexShaped (hex : Bytes) : Bool := decide (2 ≤ hex.length) && u8At hex 0 == colon && (hexNibble (u8At hex 1)).isSome

def Engine.forwardHex (n : Engine σ) (hdr : Header) (payload : Bytes) (nowMs : UInt32) : Engine σ :=
  match HexReq.deserialize payload with
  | none => (n.sendHexRsp mac hdr.src hdr.seq .malformedRequest []).2
  | some req =>
      if !hexShaped req.hex then (n.sendHexRsp mac hdr.src hdr.seq .malformedRequest []).2
      else if n.ctx.hexPending.active then (n.sendHexRsp mac hdr.src hdr.seq .busy []).2
      else
        let (reply,app) := ops.hexForward n.app n.ctx req.hex nowMs
        let n := {n.call (.hexForward req.hex) with app := app}
        match reply with
        | none => {n with ctx := {n.ctx with hexPending := ⟨true,nowMs + ops.hexTimeoutMs n.app n.ctx,hdr.src,hdr.seq⟩}}
        | some rsp => (n.sendHexRsp mac hdr.src hdr.seq .ok rsp).2

def Engine.onHexReq (n : Engine σ) (hdr : Header) (payload : Bytes) (nowMs : UInt32) : Engine σ :=
  let (withheld,app) := ops.withhold n.app n.ctx .hexReq hdr
  let n := {n with app := app}
  if withheld then n
  else
    let n := {n with ctx := {n.ctx with hexRequests := n.ctx.hexRequests + 1}}
    if hexReqIsWriteClass payload then
      let (g,gate) := n.ctx.gate.check hdr.seq
      let n := n.setGate gate
      match g.verdict with
      | .execute =>
          let n := n.confirmPhy
          let n := n.setGate (n.ctx.gate.record hdr.seq .accepted 0).2
          n.forwardHex mac ops hdr payload nowMs
      | .returnCached => (n.sendAck mac hdr.src hdr.seq .duplicateCached g.cachedResult.code).2
      | .inFlight => n
      | .reject => (n.sendAck mac hdr.src hdr.seq .rejectedSeq 0).2
    else n.forwardHex mac ops hdr payload nowMs

def Engine.completeHex (n : Engine σ) (status : HexStatus) (hex : Bytes) : Bool × Engine σ :=
  if !n.ctx.hexPending.active then (false,n)
  else
    let h := n.ctx.hexPending
    let n := {n with ctx := {n.ctx with hexPending := {h with active := false}}}
    n.sendHexRsp mac h.peer h.seq status hex

def Engine.tickHex (n : Engine σ) (nowMs : UInt32) : Engine σ :=
  let h := n.ctx.hexPending
  if !h.active ∨ (nowMs - h.dueMs).toInt32 < 0 then n
  else
    let n := {n with ctx := {n.ctx with hexPending := {h with active := false}}}
    (n.sendHexRsp mac h.peer h.seq .timeout []).2

def Engine.tick (n : Engine σ) (nowMs : UInt32) : Engine σ :=
  let (reassembler,counters) := n.ctx.reassembler.tick n.ctx.counters nowMs
  Engine.tickHex mac {n with ctx := {n.ctx with reassembler := reassembler,counters := counters}} nowMs

-- Boot and PHY revert.

def resetCauseDetail (cause : UInt8) : UInt16 := cause.toUInt16

def Engine.announceBoot (n : Engine σ) (cause : UInt8) (nowMs : UInt32) : Bool × Engine σ :=
  let (statusQueued,n) := n.sendStatus mac ops nodeBridge .boot nowMs
  let ((payload,schema),app) := ops.buildEvent n.app n.ctx .boot (resetCauseDetail cause) nowMs
  let n := {n with app := app}
  if payload.length = 0 then (false,n.countDropped)
  else
    let (eventQueued,n) := n.sendEvent mac nodeBridge payload schema
    if eventQueued then (statusQueued,n) else (false,n.countDropped)

def Engine.notePhyRevert (n : Engine σ) (cause : RevertCause) : Engine σ :=
  {n with ctx := {n.ctx with phyRevertDetail := cause.code,configChangeOwed := true}}

def Engine.sendPhyReverted (n : Engine σ) (dst : NodeId) (nowMs : UInt32) : Engine σ :=
  let detail := n.ctx.phyRevertDetail
  let n := {n with ctx := {n.ctx with phyRevertDetail := 0}}
  let ((payload,schema),app) := ops.buildEvent n.app n.ctx .phyReverted detail nowMs
  let n := {n with app := app}
  if payload.length = 0 then n.countDropped
  else
    let (sent,n) := n.sendEvent mac dst payload schema
    if sent then n else n.countDropped

-- The receive ladder.

def Engine.answer (n : Engine σ) (nowMs : UInt32) : Answer → Engine σ
  | .status dst reason =>
      let (sent,n) := n.sendStatus mac ops dst reason nowMs
      if sent then n else n.countDropped
  | .configReadback dst =>
      let (sent,n) := n.sendConfigReadback mac ops dst
      if sent then n else n.countDropped
  | .statusFrame dst schema payload =>
      let hdr := n.ctx.header .status dst schema n.ctx.txSeq
      let (sent,n) := n.takeTxSeq.send mac hdr payload 0
      if sent then n else n.countDropped
  | .echo dst seq payload chunk =>
      let (sent,n) := n.send mac (n.ctx.header .ping dst schemaNone seq) payload chunk
      if sent then n else n.countDropped

def Engine.answerAll (n : Engine σ) (nowMs : UInt32) (answers : Option (List Answer)) : Engine σ :=
  match answers with
  | none => n.unhandled
  | some answers => answers.foldl (fun n a => n.answer mac ops nowMs a) n

-- Answered with this node's own context, for every authenticated type and only when addressed here.
def Engine.refuseAuthenticated (n : Engine σ) (hdr : Header) (why : Status) : Engine σ :=
  let result : AckResult := if why = .rejectedCtx then .rejectedCtx else .rejectedMac
  if hdr.dst ≠ n.ctx.id then n
  else if hdr.type = .hexReq then
    let n := {n with ctx := {n.ctx with hexRequests := n.ctx.hexRequests + 1}}
    if why = .rejectedMac then (n.sendHexRsp mac hdr.src hdr.seq .rejectedUnauthenticated []).2
    else (n.sendAck mac hdr.src hdr.seq result 0).2
  else if hdr.type ≠ .command ∧ hdr.type ≠ .config then n
  else (n.sendAck mac hdr.src hdr.seq result 0).2

def Engine.dispatch (n : Engine σ) (hdr : Header) (payload : Bytes) (fragments : UInt8) (random : RandomFn) (nowMs : UInt32) : Engine σ :=
  let caps := ops.capabilities n.app n.ctx
  match hdr.type with
  | .error => n
  | .ping =>
      let (answers,app) := ops.onPing n.app n.ctx hdr payload fragments nowMs
      Engine.answerAll mac ops {n with app := app} nowMs answers
  | .poll =>
      let (answers,app) := ops.onPoll n.app n.ctx hdr payload nowMs
      Engine.answerAll mac ops {n with app := app} nowMs answers
  | .command =>
      if caps &&& capAnswersCommands ≠ 0 then n.onCommand mac ops hdr payload random nowMs
      else (n.answerRollOnly mac ops hdr payload random).getD n.unhandled
  | .hexReq => if caps &&& capAnswersHex ≠ 0 then n.onHexReq mac ops hdr payload nowMs else n.unhandled
  | .config => if caps &&& capAnswersConfig ≠ 0 then n.onConfig mac ops hdr payload nowMs else n.unhandled
  | _ => n.unhandled

-- A revert is reported ahead of the answer to the next frame from the bridge.
def Engine.deliver (n : Engine σ) (hdr : Header) (payload : Bytes) (fragments : UInt8) (random : RandomFn) (nowMs : UInt32) : Engine σ :=
  let n := {n with serving := some ⟨hdr,payload⟩}
  let n := if hdr.src = nodeBridge ∧ n.ctx.phyRevertDetail ≠ 0 then n.sendPhyReverted mac ops hdr.src nowMs else n
  {n.dispatch mac ops hdr payload fragments random nowMs with serving := none}

def Engine.bump (n : Engine σ) (s : Status) : Engine σ := {n with ctx := {n.ctx with counters := n.ctx.counters.bump s}}

def Context.headerCtx (c : Context) : DecodeCtx := {self := c.id,acceptVerMin := c.protoVer,acceptVerMax := c.protoVer}

def Context.payloadCtx (c : Context) : DecodeCtx :=
  {c.headerCtx with mac := some mac,nodeKey := some c.key,expectCtxId := c.ctxId}

-- A fragment past the codec: the set it belongs to, and its delivery when it completes the set.
def Engine.receiveFragment (n : Engine σ) (f : Frame) (random : RandomFn) (nowMs : UInt32) : Engine σ :=
  let chunk := if !n.ctx.reassembler.active then 0 else n.ctx.rxChunk
  let (st,reassembler,counters) := n.ctx.reassembler.accept n.ctx.counters f nowMs
  let chunk := if st = .ok ∧ chunk.toNat < f.payload.length then UInt8.ofNat f.payload.length else chunk
  let n := {n with ctx := {n.ctx with reassembler := reassembler,counters := counters,rxChunk := chunk}}
  if st ≠ .ok ∨ !reassembler.complete then n
  else n.deliver mac ops f.hdr reassembler.out f.hdr.fragTotal random nowMs

def Engine.receive (n : Engine σ) (buf : Bytes) (random : RandomFn) (nowMs : UInt32) : Engine σ :=
  let n := {n with ctx := {n.ctx with counters := {n.ctx.counters with rxFrames := n.ctx.counters.rxFrames + 1}}}
  match decodeHeader buf n.ctx.headerCtx with
  | (.ok,head) =>
      match decodePayload buf (n.ctx.payloadCtx mac) head with
      | (.ok,f) =>
          if frameHasMac f.hdr.type f.payload ∧ !f.macVerified then n.unhandled
          else if f.hdr.fragTotal = 1 then n.deliver mac ops f.hdr f.payload 1 random nowMs
          else n.receiveFragment mac ops f random nowMs
      | (body,f) =>
          let n := n.bump body
          if ops.capabilities n.app n.ctx &&& capRefusesAuthenticated ≠ 0 ∧ (body = .rejectedCtx ∨ body = .rejectedMac) then
            n.refuseAuthenticated mac f.hdr body
          else n
  | (failure,_) => n.bump failure

end
end LoraRan.Node
