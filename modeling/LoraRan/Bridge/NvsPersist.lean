import LoraRan.Bridge.ConfigStore
import LoraRan.Config.BlobTrip

namespace LoraRan.Bridge
open Protocol Config

-- One namespace of the ESP32's nonvolatile storage. `writes` says of each coming write whether it succeeds; past its end they all do.
structure NvsPersist where
  open_ : Bool := true
  scope : ConfigScope := .bridge
  node : NodeId := nodeBridge
  keys : UInt16 → Option Value := fun _ => none
  phy : Option Bytes := none
  ackStaged : Bool := false
  ackRows : UInt16 := 0
  writes : List Bool := []

namespace NvsPersist

def written (p : NvsPersist) : Bool × NvsPersist := (p.writes.headD true,{p with writes := p.writes.tail})

def put (p : NvsPersist) (id : UInt16) (v : Option Value) : Bool × NvsPersist :=
  if p.written.1 then (true,{p.written.2 with keys := Function.update p.keys id v}) else (false,p.written.2)

def save (p : NvsPersist) (id : UInt16) (v : Value) : Bool × NvsPersist := if !p.open_ then (false,p) else p.put id (some v)

-- The PHY rows are in the blob, which clearing leaves.
def clearAll (p : NvsPersist) : Bool × NvsPersist :=
  if !p.open_ then (false,p)
  else ((scopeRows p.scope p.node).map fun row => row.row.id).foldl (fun now id =>
    if (phyIndexOf id).isSome || (now.2.keys id).isNone then now else (now.1 && (now.2.put id none).1,(now.2.put id none).2)) (true,p)

def readBlob (p : NvsPersist) : Option PhyBlob :=
  if !p.open_ then none
  else match p.phy with
    | none => none
    | some bytes => if phyBlobMax < bytes.length then none else PhyBlob.decode bytes

def writeBlob (p : NvsPersist) (b : PhyBlob) : Bool × NvsPersist :=
  if !p.open_ then (false,p)
  else match b.encode phyBlobMax with
    | none => (false,p)
    | some bytes => if p.written.1 then (true,{p.written.2 with phy := some bytes}) else (false,p.written.2)

-- A staged answer goes with the group, into the same write, and is staged no longer whatever becomes of it.
def saveGroup (p : NvsPersist) (group : List (UInt16 × Value)) : Bool × NvsPersist :=
  if phyGroupSize < group.length then (false,p)
  else {p with ackStaged := false}.writeBlob {ackOwed := p.ackStaged,ackRows := if p.ackStaged then p.ackRows else 0,rows := group}

def stageOwedAck (p : NvsPersist) (rows : UInt16) : NvsPersist := {p with ackStaged := true,ackRows := rows}

def owedAck (p : NvsPersist) : Option UInt16 := (p.readBlob.filter PhyBlob.ackOwed).map PhyBlob.ackRows

def clearOwedAck (p : NvsPersist) : Bool × NvsPersist :=
  match p.readBlob with
  | none => (false,p)
  | some b => if !b.ackOwed then (true,p) else p.writeBlob {b with ackOwed := false,ackRows := 0}

-- Before the first commit the blob is the marker alone.
def markTrial (p : NvsPersist) (marked : Bool) : Bool × NvsPersist := p.writeBlob {p.readBlob.getD {} with trialOpen := marked}

def trialMarked (p : NvsPersist) : Bool := p.readBlob.any PhyBlob.trialOpen

def load (p : NvsPersist) (id : UInt16) : Option Value :=
  if !p.open_ then none
  else if (phyIndexOf id).isSome then p.readBlob.bind fun b => (b.rows.find? fun row => row.1 == id).map Prod.snd
  else p.keys id

-- Powered off and on: what was staged is gone, what was written stays.
def reopened (p : NvsPersist) (writes : List Bool) : NvsPersist := {p with open_ := true,ackStaged := false,ackRows := 0,writes := writes}

end NvsPersist

def nvsOps : Persist NvsPersist where
  usable := NvsPersist.open_
  save := NvsPersist.save
  clearAll := NvsPersist.clearAll
  saveGroup := NvsPersist.saveGroup

namespace ConfigStore

-- The bridge's own namespace, moved under its store.
def onFlash (c : ConfigStore NvsPersist) (f : NvsPersist → NvsPersist) : ConfigStore NvsPersist :=
  {c with bridgeStore := {c.bridgeStore with persist := c.bridgeStore.persist.map f}}

-- A node's own rows are not the bridge's to hold.
def nvsRestoreRow (scope : ConfigScope) (node : NodeId) (p : NvsPersist) (c : ConfigStore NvsPersist) (row : OwnedParam) : ConfigStore NvsPersist :=
  if row.owner = .node then c
  else match p.load row.row.id with
    | none => c
    | some v => (c.restore nvsOps scope node row.row.id v).2

def nvsRestore (c : ConfigStore NvsPersist) (scope : ConfigScope) (node : NodeId) (p : NvsPersist) : ConfigStore NvsPersist :=
  if !p.open_ then c else (scopeRows scope node).foldl (nvsRestoreRow scope node p) c

def nvsRestoreNodes (c : ConfigStore NvsPersist) (perNode : NodeId → NvsPersist) : ConfigStore NvsPersist :=
  nodeTable.foldl (fun c node => c.nvsRestore .node node (perNode node)) c

-- The trial is enabled before the restore, so the stored group is restored rather than refused. A marker still open is closed.
def configBegin (global : NvsPersist) (perNode : NodeId → NvsPersist) : ConfigStore NvsPersist :=
  let c := (begin_ (some global) fun node => some (perNode node)).enablePhyTrial nvsOps
  let c := c.nvsRestore .bridge nodeBridge global
  let c := c.nvsRestoreNodes perNode
  if global.trialMarked then c.onFlash fun p => (p.markTrial false).2 else c

end ConfigStore

end LoraRan.Bridge
