import LoraRan.Bridge.NvsPersist

namespace LoraRan.Bridge
open Protocol Config

-- A waiting PHY change, with the rows of its set the bridge has answered already.
structure PhyJob where
  bridgePersist : AckPersist := .notApplied
  bridgeResults : List ConfigResult := []
  from_ : PhyGroup := fun _ => 0
  to_ : PhyGroup := fun _ => 0
  named : Fin phyGroupSize → Bool := fun _ => false
  status : Fin phyGroupSize → ResultStatus := fun _ => .ok

def bridgePhyRow (k : Fin phyGroupSize) : Option ParamDef := bridgeGlobalParams.row (bridgePhyIds.getD k 0)

def antennaGainDbi10 : Int := 30
def eirpCeilingDbm10 : Int := -10

def phyTxPower : Fin phyGroupSize := ⟨4,by decide⟩

-- What phy_config_from asks of a group before the radio takes it.
def withinEirpCeiling (g : PhyGroup) : Bool := decide ((g phyTxPower).toInt8.toInt * 10 + antennaGainDbi10 ≤ eirpCeilingDbm10)

-- Two bits a row: not named, OK, CLAMPED, INVALID_VALUE.
def phyAckCode (named : Bool) (status : ResultStatus) : UInt16 :=
  if !named then 0
  else match status with
    | .clamped => 2
    | .invalidValue => 3
    | _ => 1

def phyAckRows (named : Fin phyGroupSize → Bool) (status : Fin phyGroupSize → ResultStatus) : UInt16 :=
  (List.finRange phyGroupSize).foldl (fun rows k => rows ||| phyAckCode (named k) (status k) <<< UInt16.ofNat (2 * k)) 0

def persistRank : AckPersist → Nat
  | .notApplied => 0
  | .appliedNotPersisted => 1
  | .persisted => 2
  | .unknown => 3

-- The less persisted of two halves.
def combinePersist (a b : AckPersist) : AckPersist :=
  if a = .unknown ∨ b = .unknown then .unknown else if persistRank a ≤ persistRank b then a else b

-- The config/ack a change ends in.
structure PhyResolution where
  committed : Bool
  persisted : Bool
  target : PhyGroup
  persist : AckPersist
  results : List ConfigResult

def PhyJob.rowResult (j : PhyJob) (committed : Bool) (k : Fin phyGroupSize) : ConfigResult where
  name := (bridgePhyRow k).elim [] rowName
  status := if committed || j.status k == .invalidValue then j.status k else .reverted
  value := some (if committed then j.to_ k else j.from_ k)

def PhyJob.resolution (j : PhyJob) (committed persisted : Bool) : PhyResolution where
  committed := committed
  persisted := persisted
  target := j.to_
  persist :=
    let phy := if !committed then AckPersist.notApplied else if persisted then .persisted else .appliedNotPersisted
    if 0 < j.bridgeResults.length then combinePersist j.bridgePersist phy else phy
  results := j.bridgeResults ++ ((List.finRange phyGroupSize).filter j.named).map (j.rowResult committed)

def PhyChange.blocksTraffic (m : PhyChange) : Bool :=
  match m.phase with
  | .idle | .abandonDue | .cooldown | .readbackDue => false
  | _ => true

def groupIds (g : PhyGroup) : List (UInt16 × Value) := (List.finRange phyGroupSize).map fun (k : Fin phyGroupSize) => (bridgePhyIds.getD k 0,g k)

-- sched_phy and what it moves. `before` and `kept` are an observer's: the rows on flash when the change started, and the rows and the owed
-- answer of the last commit that was written.
structure PhyFlow where
  config : ConfigStore NvsPersist
  change : PhyChange := {}
  queue : List PhyJob := []
  job : PhyJob := {}
  waiting : Bool := false
  ticket : Bool := false
  before : List (UInt16 × Value) := []
  kept : Option (UInt16 × List (UInt16 × Value)) := none

-- The PHY rows on flash.
def NvsPersist.flashRows (p : NvsPersist) : List (UInt16 × Value) := (p.readBlob.map PhyBlob.rows).getD []

def ConfigStore.flashRows (c : ConfigStore NvsPersist) : List (UInt16 × Value) := (c.bridgeStore.persist.map NvsPersist.flashRows).getD []

def maxScopeRows : Nat := maxTableParams

namespace PhyFlow

-- A set on the bridge's topic that moves the group, once nothing refuses it whole. Its other rows apply at once.
def ask (f : PhyFlow) (req : ConfigSetRequest) : PhyFlow :=
  let named := f.config.phyRequest req
  if !named.1 ∨ ∀ k, named.2.target k = f.config.phyGroup k then f
  else
    let a := f.config.apply nvsOps .bridge nodeBridge req maxScopeRows
    {f with
      config := a.store
      queue := f.queue ++
        [{bridgePersist := a.persist
          bridgeResults := a.results.take maxConfigSetEntries
          from_ := f.config.phyGroup
          to_ := named.2.target
          named := named.2.named
          status := named.2.status}]}

def take (f : PhyFlow) : PhyFlow :=
  if f.change.blocksTraffic || f.waiting then f
  else match f.queue with
    | [] => f
    | j :: rest => {f with queue := rest,job := j,waiting := true}

-- A change that does not start is answered at once.
def start (f : PhyFlow) (fleet : List NodeId) (nowMs : UInt32) : Option PhyResolution × PhyFlow :=
  if !f.waiting ∨ f.change.blocksTraffic then (none,f)
  else
    let (started,m) := f.change.start f.job.from_ f.job.to_ fleet nowMs
    if started then (none,{f with change := m,waiting := false,before := f.config.flashRows})
    else (some (f.job.resolution false false),{f with waiting := false})

-- Step 5: the trial copy first, then the marker a restart would find, then the radio.
def retune (f : PhyFlow) (group : PhyGroup) : PhyFlow :=
  if !withinEirpCeiling group then f
  else
    let c := (f.config.beginPhyTrial nvsOps group).2
    {f with config := c.onFlash fun p => (p.markTrial true).2,ticket := true}

-- The answer is staged before the commit, so it lands in the commit's own write.
def commit (f : PhyFlow) : Option PhyResolution × PhyFlow :=
  let rows := phyAckRows f.job.named f.job.status
  let staged := f.config.onFlash fun p => p.stageOwedAck rows
  let (ok,c) := staged.commitPhyTrial nvsOps
  if !ok then (none,{f with config := c,change := f.change.commitFailed})
  else (some (f.job.resolution true true),{f with config := c,kept := some (rows,groupIds f.job.to_)})

def abandon (f : PhyFlow) (retuned : Bool) (group : PhyGroup) : Option PhyResolution × PhyFlow :=
  let c := if retuned then f.config.revertPhyTrial.onFlash fun p => (p.markTrial false).2 else f.config
  (some (f.job.resolution false false),{f with config := c,ticket := f.ticket && !(retuned && withinEirpCeiling group)})

-- One turn of sched_phy's loop.
def act (f : PhyFlow) (nowMs : UInt32) : Option PhyResolution × PhyFlow :=
  let (st,m) := f.change.next nowMs
  let f := {f with change := m}
  match st.action with
  | .retune => (none,f.retune st.group)
  | .commit => f.commit
  | .abandon => f.abandon st.retuned st.group
  | .nodeConfirmed => (none,{f with config := f.config.noteSetResults st.dst st.results})
  | _ => (none,f)

-- Everything in RAM is gone.
def restart (f : PhyFlow) (perNode : NodeId → NvsPersist) (writes : List Bool) : PhyFlow :=
  match f.config.bridgeStore.persist with
  | none => f
  | some p => {config := ConfigStore.configBegin (p.reopened writes) perNode,before := f.before,kept := f.kept}

end PhyFlow

-- What can happen around and within sched_phy, in any order.
inductive PhyFlowOp where
  | ask (req : ConfigSetRequest)
  | set (scope : ConfigScope) (node : NodeId) (req : ConfigSetRequest) (cap : Nat)
  | restoreDefaults (scope : ConfigScope)
  | noteSetResults (node : NodeId) (results : List ConfigAckEntry)
  | noteReadback (node : NodeId) (results : List ConfigAckEntry)
  | take
  | start (fleet : List NodeId) (nowMs : UInt32)
  | act (nowMs : UInt32)
  | retuned (nowMs : UInt32)
  | onSent (seq : Seq) (nowMs : UInt32)
  | onAired (nowMs : UInt32)
  | onHeard (src : NodeId) (rxMs : UInt32)
  | onConfigAck (src : NodeId) (ack : NodeConfigAckV1) (seq : Seq) (nowMs : UInt32)
  | setAckTimeoutMs (ms : UInt32)
  | clearOwedAck
  | storage (writes : List Bool)
  | restart (perNode : NodeId → NvsPersist) (writes : List Bool)

namespace PhyFlow

def step (f : PhyFlow) : PhyFlowOp → PhyFlow
  | .ask req => f.ask req
  | .set scope node req cap => {f with config := (f.config.apply nvsOps scope node req cap).store}
  | .restoreDefaults scope => {f with config := f.config.restoreDefaults nvsOps scope}
  | .noteSetResults node results => {f with config := f.config.noteSetResults node results}
  | .noteReadback node results => {f with config := f.config.noteReadback node results}
  | .take => f.take
  | .start fleet nowMs => (f.start fleet nowMs).2
  | .act nowMs => (f.act nowMs).2
  | .retuned nowMs => if f.ticket then {f with change := f.change.onRetuned nowMs,ticket := false} else f
  | .onSent seq nowMs => {f with change := f.change.onSent seq nowMs}
  | .onAired nowMs => {f with change := f.change.onAired nowMs}
  | .onHeard src rxMs => {f with change := f.change.onHeard src rxMs}
  | .onConfigAck src ack seq nowMs => {f with change := (f.change.onConfigAck src ack seq nowMs).2}
  | .setAckTimeoutMs ms => {f with change := f.change.setAckTimeoutMs ms}
  | .clearOwedAck => {f with config := f.config.onFlash fun p => p.clearOwedAck.2}
  | .storage writes => {f with config := f.config.onFlash fun p => {p with writes := writes}}
  | .restart perNode writes => f.restart perNode writes

-- A bridge switched on for the first time, whatever its flash holds.
def fresh (flash : NvsPersist) (perNode : NodeId → NvsPersist) : PhyFlow where
  config := ConfigStore.configBegin flash perNode
  before := flash.flashRows
  kept := (flash.readBlob.filter PhyBlob.ackOwed).map fun b => (b.ackRows,b.rows)

end PhyFlow

end LoraRan.Bridge
