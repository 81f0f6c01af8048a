import LoraRan.GateLink.GateIo
import LoraRan.GateLink.VedLink
import LoraRan.Node.Acts

namespace LoraRan.GateLink
open Protocol Config Node VeDirect
open Library.LittleEndian (u8At)

-- The microSD behind the configuration. Each write replaces the whole file from the overrides in memory, so what a write
-- leaves on the card is decided by `writeFails` alone. The PHY group is never written here.
structure Card where
  mounted : Bool := false
  dirty : Bool := false
  writeFails : Bool := false
  deriving DecidableEq

def Card.writeAll (c : Card) : Bool × Card :=
  if !c.mounted then (false,{c with dirty := true}) else (!c.writeFails,{c with dirty := c.writeFails})

def sdPersist : Persist Card where
  usable c := c.mounted && !c.dirty
  save c _ _ := c.writeAll
  clearAll c := c.writeAll
  saveGroup c _ := (false,c)

abbrev GateLinkConfig := Store Card

def gateLinkTable : Table := nodeCommonParams ++ gateLinkParams

def cardDirty (cfg : GateLinkConfig) : Bool := cfg.persist.any Card.dirty

def GateLinkConfig.unpersisted (cfg : GateLinkConfig) : Bool :=
  cardDirty cfg || cfg.readPersistStatus sdPersist != .persisted

-- What the tasks share with the application: io_task's queue, vedirect_task's queue, the view it publishes and its link.
-- Both queues hold one entry.
structure Port where
  commands : Option RelaySequence := none
  jobs : Option HexJob := none
  vedBusy : Bool := false
  answer : Option HexResult := none
  link : VedLink := {}
  deriving DecidableEq

-- `hexRefusal` is the source's hex_refusal_ behind hex_refusal_owed_; `forwards` is the observer's count of HEX forwards.
structure GateLinkApp where
  config : Option GateLinkConfig := none
  cardRetry : Bool := false
  dryRun : Bool := false
  debugModes : UInt8 := 0
  bmsPolling : Bool := true
  eventIds : UInt32 := 0
  dispatched : UInt32 := 0
  dispatchRefused : UInt32 := 0
  hexTimeoutMs : UInt32 := 1000
  hexToken : UInt32 := 0
  hexRefusal : Option HexStatus := none
  hexLate : UInt32 := 0
  withholdAck : Bool := false
  acksWithheld : UInt32 := 0
  forwards : Nat := 0
  port : Port := {}

-- The schema payloads of STATUS and EVENT, from the snapshots other tasks publish. Nothing here depends on their content.
structure Payloads where
  status : GateLinkApp → StatusReason → UInt32 → Bytes
  event : GateLinkApp → EventType → UInt16 → UInt32 → Bytes

def hexBackstopMarginMs : UInt32 := 250
def pollFlagConfigReadback : UInt8 := 0x02
def paramDedupCacheDepth : UInt16 := 0x0100
def paramFragReassemblyTimeoutMs : UInt16 := 0x0101
def paramHexTimeoutMs : UInt16 := 0x1030

def GateLinkApp.dispatch (a : GateLinkApp) (seq : RelaySequence) : Bool × GateLinkApp :=
  if a.port.commands.isSome then (false,a) else (true,{a with port := {a.port with commands := some seq}})

def GateLinkApp.execute (a : GateLinkApp) (cmd : Command) : CommandOutcome × GateLinkApp :=
  if cmd.cmd ≠ cmdNop ∧ isActuationCmd cmd.cmd then
    match relaySequenceFor cmd with
    | none => ({result := if cmd.cmd = cmdClose then .rejectedArg else .rejectedUnknownCmd},a)
    | some seq =>
        if a.dryRun then ({result := .dryRun},a)
        else
          let (queued,a) := a.dispatch seq
          if !queued then ({result := .actuatorBusy},{a with dispatchRefused := a.dispatchRefused + 1})
          else ({deferred := true},{a with dispatched := a.dispatched + 1})
  else if cmd.cmd = cmdNop then ({},a)
  else if cmd.cmd = cmdRequestStatus then ({after := .status},a)
  else if cmd.cmd = cmdRequestConfig then ({after := .configReadback},a)
  else if cmd.cmd = cmdSetDebugMode then ({},{a with debugModes := cmd.arg2.toUInt8})
  else if cmd.cmd = cmdSetRelayDryRun then
    if 1 < cmd.arg then ({result := .rejectedArg},a) else ({},{a with dryRun := cmd.arg == 1})
  else if cmd.cmd = cmdSetBmsPolling then
    if 1 < cmd.arg then ({result := .rejectedArg},a) else ({},{a with bmsPolling := cmd.arg == 1})
  else if cmd.cmd = cmdReboot then
    if cmd.arg ≠ rebootGuard then ({result := .rejectedArg},a) else ({after := .reboot},a)
  else ({result := .rejectedUnknownCmd},a)

def GateLinkApp.noteCard (a : GateLinkApp) : GateLinkApp :=
  {a with cardRetry := a.cardRetry || a.config.any fun cfg => !cfg.usable sdPersist}

-- A row the application applies itself; every row also reaches the task that reads it.
def GateLinkApp.applyParam (a : GateLinkApp) (cfg : GateLinkConfig) (id : UInt16) : List Tuning × GateLinkApp :=
  let v := (cfg.effective id).toUInt32
  if id = paramDedupCacheDepth then ([.cacheDepth v.toUInt8],a)
  else if id = paramFragReassemblyTimeoutMs then ([.fragTimeoutMs v],a)
  else if id = paramHexTimeoutMs then ([],{a with hexTimeoutMs := v})
  else ([],a)

def GateLinkApp.applyAll (a : GateLinkApp) (cfg : GateLinkConfig) : List ParamDef → List Tuning × GateLinkApp
  | [] => ([],a)
  | d :: rest =>
      if d.access = .phy then a.applyAll cfg rest
      else
        let (first,a) := a.applyParam cfg d.id
        let (later,a) := a.applyAll cfg rest
        (first ++ later,a)

def GateLinkApp.configSet (a : GateLinkApp) (entry : ConfigEntry) : Option ConfigAckEntry × List Tuning × GateLinkApp :=
  match a.config with
  | none => (none,[],a)
  | some cfg =>
      let applied := cfg.apply sdPersist entry
      let a := GateLinkApp.noteCard {a with config := some applied.store}
      let (tunings,a) := if tookEffect applied.result then a.applyParam applied.store entry.paramId else ([],a)
      (if applied.result.status = ParamStatus.unknownParam.code then none else some applied.result,tunings,a)

def GateLinkApp.configGet (a : GateLinkApp) (id : UInt16) : Option ConfigAckEntry × GateLinkApp :=
  match a.config with
  | none => (none,a)
  | some cfg =>
      let row := cfg.get id
      (if row.status = ParamStatus.unknownParam.code then none else some row,a.noteCard)

-- The engine lists the PHY group from its own copy.
def GateLinkApp.configList (a : GateLinkApp) : List ConfigAckEntry × GateLinkApp :=
  match a.config with
  | none => ([],a)
  | some cfg => ((cfg.table.filter fun d => d.access ≠ .phy).map fun d => cfg.get d.id,a.noteCard)

def GateLinkApp.configRestoreDefaults (a : GateLinkApp) : List Tuning × GateLinkApp :=
  match a.config with
  | none => ([],a)
  | some cfg =>
      let cfg := (cfg.restoreDefaults sdPersist).2
      (GateLinkApp.noteCard {a with config := some cfg}).applyAll cfg cfg.table

-- A job still with the charger is one the engine has given up on; the next waits for it.
def GateLinkApp.hexSubmit (a : GateLinkApp) (job : HexJob) : Bool × GateLinkApp :=
  if a.port.vedBusy then (false,a)
  else if a.port.jobs.isSome then (false,a)
  else (true,{a with port := {a.port with jobs := some job}})

def GateLinkApp.hexForward (a : GateLinkApp) (hex : Bytes) : Option Bytes × GateLinkApp :=
  let a := {a with hexToken := a.hexToken + 1,forwards := a.forwards + 1}
  if maxChars < hex.length then (none,{a with hexRefusal := some .malformedRequest})
  else
    let (submitted,a) := a.hexSubmit ⟨a.hexToken,hex,a.forwards⟩
    (none,if submitted then a else {a with hexRefusal := some .busy})

def GateLinkApp.freshAck (a : GateLinkApp) : AckDelivery × GateLinkApp :=
  if !a.withholdAck then (.send,a) else (.suppress,{a with withholdAck := false,acksWithheld := a.acksWithheld + 1})

def pingDeserializes (payload : Bytes) : Bool :=
  decide (2 ≤ payload.length) && decide ((u8At payload 1).toNat ≤ pingMaxEcho) && decide (payload.length = 2 + (u8At payload 1).toNat)

def gateLinkOps (payloads : Payloads) : Application GateLinkApp where
  capabilities _ _ := capAnswersCommands ||| capAnswersConfig ||| capAnswersHex ||| capRefusesAuthenticated
  onPoll a _ hdr payload _ :=
    let flags := if payload.length = 1 then u8At payload 0 else 0
    (some (.status hdr.src .pollResponse :: if flags &&& pollFlagConfigReadback ≠ 0 then [.configReadback hdr.src] else []),a)
  onPing a c hdr payload fragments _ :=
    (if pingDeserializes payload then some [.echo hdr.src hdr.seq payload (if 1 < fragments then c.rxChunk else 0)] else none,a)
  execute a _ cmd _ := a.execute cmd
  buildStatus a _ reason nowMs := ((payloads.status a reason nowMs,schemaGateLinkStatusV2),a)
  buildEvent a _ event detail _ :=
    ((payloads.event a event detail (a.eventIds + 1),schemaGateLinkEventV1),{a with eventIds := a.eventIds + 1})
  configSet a _ entry := a.configSet entry
  configGet a _ id := a.configGet id
  configList a _ := a.configList
  configRestoreDefaults a _ := a.configRestoreDefaults
  configUnpersisted a _ := a.config.any GateLinkConfig.unpersisted
  phySlot _ _ := 0
  phyMembers _ := 0x01
  hexForward a _ hex _ := a.hexForward hex
  hexTimeoutMs a _ := a.hexTimeoutMs + hexBackstopMarginMs
  withhold a _ _ _ := (false,a)
  forceRejectCtx a _ _ := (false,a)
  freshAck a _ _ := a.freshAck

-- vedirect_task, one action at a time, so that lora_task may run between any two. `vedStart` takes the queued job.

def GateLinkApp.onLink (a : GateLinkApp) (link : VedLink) : GateLinkApp := {a with port := {a.port with link := link}}

def GateLinkApp.vedStart (a : GateLinkApp) (nowMs : UInt32) (took : Bool) : GateLinkApp :=
  if a.port.link.active then a
  else match a.port.jobs with
    | none => a
    | some job => {a with port := {a.port with jobs := none,link := (a.port.link.start job nowMs took).2}}

def GateLinkApp.vedPublish (a : GateLinkApp) : GateLinkApp :=
  let (result,link) := a.port.link.takeResult
  {a with port := {a.port with link := link,vedBusy := link.active,answer := result.or a.port.answer}}

-- The refusal a forward left owing.
def payRefusal (mac : Mac) (n : Engine GateLinkApp) : Engine GateLinkApp :=
  match n.app.hexRefusal with
  | none => n
  | some status => (Engine.completeHex mac {n with app := {n.app with hexRefusal := none}} status []).2

-- lora_task takes the published answer once. One whose job is not the last handed over, or whose transaction the engine
-- has closed, is late.
def takeAnswer (mac : Mac) (n : Engine GateLinkApp) : Engine GateLinkApp :=
  match n.app.port.answer with
  | none => n
  | some r =>
      let n := {n with app := {n.app with port := {n.app.port with answer := none}}}
      if r.token ≠ n.app.hexToken ∨ !n.ctx.hexPending.active then {n with app := {n.app with hexLate := n.app.hexLate + 1}}
      else (n.completeHex mac r.status r.hex).2

def pollHex (mac : Mac) (n : Engine GateLinkApp) : Engine GateLinkApp := takeAnswer mac (payRefusal mac n)

end LoraRan.GateLink
