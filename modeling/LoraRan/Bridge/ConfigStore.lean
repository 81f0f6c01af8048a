import LoraRan.Bridge.ConfigPath
import LoraRan.Bridge.PhyChange
import LoraRan.Bridge.Registry
import LoraRan.Config.StoreRuns

namespace LoraRan.Bridge
open Protocol Config Library.StepSystem

inductive Owner where
  | bridgeGlobal | bridgePerNode | node
  deriving DecidableEq, Repr

structure OwnedParam where
  owner : Owner
  row : ParamDef
  deriving DecidableEq

def bridgeGlobalParams : Table :=
  [⟨0x0001,"simnode_diag_enable",.readWrite,ptypeBool,0,1,0⟩,
    ⟨0x0002,"diag_interval_s",.readWrite,ptypeU16,10,3600,60⟩,
    ⟨0x0003,"missed_poll_threshold",.readWrite,ptypeU8,1,20,3⟩,
    ⟨0x0004,"poll_reply_timeout_ms",.readWrite,ptypeU16,2000,30000,10000⟩,
    ⟨0x0005,"command_ack_timeout_ms",.readWrite,ptypeU16,500,30000,3000⟩,
    ⟨0x0006,"cmd_retries",.readWrite,ptypeU8,0,10,3⟩,
    ⟨0x0007,"cad_retries",.readWrite,ptypeU8,0,10,5⟩,
    ⟨0x0008,"backoff_max_ms",.readWrite,ptypeU16,100,5000,1500⟩,
    ⟨0x0009,"frag_reassembly_timeout_ms",.readWrite,ptypeU16,500,30000,5000⟩,
    ⟨0x000A,"error_min_interval_ms",.readWrite,ptypeU16,100,60000,1000⟩,
    ⟨0x000B,"config_readback_timeout_ms",.readWrite,ptypeU16,1000,60000,15000⟩,
    ⟨0x000C,"config_ack_timeout_ms",.readWrite,ptypeU16,1000,60000,8000⟩,
    ⟨0x000D,"republish_interval_s",.readWrite,ptypeU16,60,3600,900⟩,
    ⟨0x000E,"bms_stale_s",.readWrite,ptypeU16,30,3600,600⟩,
    ⟨0x000F,"cell_mv_deadband",.readWrite,ptypeU8,0,50,5⟩,
    ⟨0x0010,"freq_hz",.phy,ptypeU32,902000000,928000000,917400000⟩,
    ⟨0x0011,"spreading_factor",.phy,ptypeU8,7,12,9⟩,
    ⟨0x0012,"bandwidth_khz",.phy,ptypeU16,125,500,125⟩,
    ⟨0x0013,"coding_rate_denominator",.phy,ptypeU8,5,8,5⟩,
    ⟨0x0014,"tx_power_dbm",.phy,ptypeI16,-9,-4,-4⟩,
    ⟨0x0015,"phy_trial_s",.phy,ptypeU16,30,900,120⟩,
    ⟨0x0020,"mppt_write_arm_timeout_s",.readWrite,ptypeU16,30,3600,300⟩,
    ⟨0x0021,"hex_rsp_timeout_ms",.readWrite,ptypeU16,1500,30000,3000⟩,
    ⟨0x0022,"charge_readback_interval_h",.readWrite,ptypeU16,0,720,0⟩]

def bridgePerNodeParams : Table :=
  [⟨0x0080,"poll_interval_s",.readWrite,ptypeU16,10,3600,60⟩,
    ⟨0x0081,"deployed",.readWrite,ptypeBool,0,1,0⟩]

-- The bridge's rows, each with who holds its value.
def bridgeParams : List OwnedParam :=
  (bridgeGlobalParams.map fun d => ⟨.bridgeGlobal,d⟩) ++ bridgePerNodeParams.map fun d => ⟨.bridgePerNode,d⟩

def nodeBlock (node : NodeId) : Table := if node = nodeGateLink then gateLinkParams else []

def nodeParams (node : NodeId) : List OwnedParam := (nodeCommonParams ++ nodeBlock node).map fun d => ⟨.node,d⟩

-- Which block of the table a topic exposes.
inductive ConfigScope where
  | bridge | node
  deriving DecidableEq, Repr

-- A name as C holds it: the bytes before its closing zero.
abbrev Name := List UInt8

def rowName (d : ParamDef) : Name := d.name.toUTF8.toList

def nameIs (d : ParamDef) (name : Name) : Bool := rowName d == name

-- The rows of a scope, in the order the lookup walks them.
def scopeRows (scope : ConfigScope) (node : NodeId) : List OwnedParam :=
  match scope with
  | .bridge => bridgeParams.filter fun p => p.owner = .bridgeGlobal
  | .node => (bridgeParams.filter fun p => p.owner = .bridgePerNode) ++ nodeParams node

def findParam (scope : ConfigScope) (node : NodeId) (name : Name) : Option OwnedParam := (scopeRows scope node).find? fun p => nameIs p.row name

-- A value the reader could not read is `none`.
structure ConfigSetEntry where
  name : Name := []
  value : Option Value := none
  deriving DecidableEq

def maxConfigSetEntries : Nat := 8

structure ConfigSetRequest where
  op : UInt8 := configOpSet
  entries : List ConfigSetEntry := []
  deriving DecidableEq

inductive ResultStatus where
  | ok | unknownParam | clamped | typeMismatch | readOnly | invalidValue | unknown | reverted
  deriving DecidableEq, Repr

def resultStatusOf (status : UInt8) : ResultStatus :=
  if status = ParamStatus.ok.code then .ok
  else if status = ParamStatus.unknownParam.code then .unknownParam
  else if status = ParamStatus.clamped.code then .clamped
  else if status = ParamStatus.typeMismatch.code then .typeMismatch
  else if status = ParamStatus.readOnly.code then .readOnly
  else if status = ParamStatus.invalidValue.code then .invalidValue
  else .unknown

structure ConfigResult where
  name : Name := []
  status : ResultStatus := .ok
  value : Option Value := none
  deriving DecidableEq

def unknownResult (name : Name) : ConfigResult := {name := name,status := .unknownParam}

-- The value's lowest bytes, as many as the row's type has.
def entryFor (d : ParamDef) (v : Value) : ConfigEntry := ConfigEntry.pack {} d.id d.type (rawBits v d.type)

structure Mirror where
  id : UInt16
  value : Value
  isOverride : Bool
  deriving DecidableEq

-- One store for the bridge's global rows and one for each node's rows the bridge holds. The overflow count of the mirror is left out.
structure ConfigStore (π : Type) where
  bridgeStore : Store π
  nodeStores : List (NodeId × Store π)
  phyTrialEnabled : Bool := false
  mirror : NodeId → List Mirror := fun _ => []

-- Where an entry of a set ends.
inductive EntryPlace where
  | answered (r : ConfigResult)
  | toNode (e : ConfigSetEntry)
  | phyRow
  deriving DecidableEq

structure EntryApplied (π : Type) where
  place : EntryPlace
  store : ConfigStore π
  reached : Bool := false
  applied : Bool := false
  persisted : Bool := false

namespace ConfigStore
variable {π : Type} (ops : Persist π)

def begin_ (global : Option π) (perNode : NodeId → Option π) : ConfigStore π where
  bridgeStore := Store.fresh bridgeGlobalParams global
  nodeStores := nodeTable.map fun node => (node,Store.fresh bridgePerNodeParams (perNode node))

def storeFor (c : ConfigStore π) (node : NodeId) : Option (Store π) := (c.nodeStores.find? fun p => p.1 == node).map Prod.snd

def holder (c : ConfigStore π) (owner : Owner) (node : NodeId) : Option (Store π) :=
  if owner = .bridgeGlobal then some c.bridgeStore else c.storeFor node

def put (c : ConfigStore π) (owner : Owner) (node : NodeId) (s : Store π) : ConfigStore π :=
  if owner = .bridgeGlobal then {c with bridgeStore := s}
  else {c with nodeStores := c.nodeStores.map fun p => if p.1 = node then (p.1,s) else p}

def mirrorValue (c : ConfigStore π) (node : NodeId) (id : UInt16) : Option Value :=
  if !registered node then none else ((c.mirror node).find? fun m => m.id == id).map Mirror.value

-- One turn of the loop of apply().
def applyEntry (c : ConfigStore π) (scope : ConfigScope) (node : NodeId) (e : ConfigSetEntry) : EntryApplied π :=
  match findParam scope node e.name with
  | none => {place := .answered (unknownResult e.name),store := c}
  | some p =>
      match e.value with
      | none => {place := .answered {name := e.name,status := .typeMismatch},store := c}
      | some v =>
          if p.owner = .node ∧ p.row.access = .phy then
            {place := .answered {name := rowName p.row,status := .readOnly,value := c.mirrorValue node p.row.id},store := c}
          else if p.owner = .bridgeGlobal ∧ p.row.access = .phy ∧ c.phyTrialEnabled = true then {place := .phyRow,store := c}
          else if p.owner = .node then {place := .toNode e,store := c}
          else match c.holder p.owner node with
            | none => {place := .answered (unknownResult e.name),store := c}
            | some s =>
                let a := s.apply ops (entryFor p.row v)
                {place := .answered
                  {name := rowName p.row
                   status := resultStatusOf a.result.status
                   value := if 0 < a.result.len then some (entrySigned a.result.value a.result.len a.result.ptype) else none}
                 store := c.put p.owner node a.store
                 reached := true
                 applied := a.applied
                 persisted := a.persisted}

structure SetApplied (π : Type) where
  store : ConfigStore π
  results : List ConfigResult := []
  nodeHalf : List ConfigSetEntry := []
  anyBridge : Bool := false
  anyApplied : Bool := false
  allSaved : Bool := true

def SetApplied.take (a : SetApplied π) (o : EntryApplied π) : SetApplied π where
  store := o.store
  results := match o.place with
    | .answered r => a.results ++ [r]
    | _ => a.results
  nodeHalf := match o.place with
    | .toNode e => if a.nodeHalf.length < maxConfigSetEntries then a.nodeHalf ++ [e] else a.nodeHalf
    | _ => a.nodeHalf
  anyBridge := a.anyBridge || o.reached
  anyApplied := a.anyApplied || o.applied
  allSaved := a.allSaved && (!o.applied || o.persisted)

def applyEntries (c : ConfigStore π) (scope : ConfigScope) (node : NodeId) (cap : Nat) (entries : List ConfigSetEntry) : SetApplied π :=
  entries.foldl (fun a e => if a.results.length < cap then a.take (a.store.applyEntry ops scope node e) else a) {store := c}

def SetApplied.persist (a : SetApplied π) : AckPersist :=
  if !a.anyBridge || !a.anyApplied then .notApplied else if a.allSaved then .persisted else .appliedNotPersisted

def apply (c : ConfigStore π) (scope : ConfigScope) (node : NodeId) (req : ConfigSetRequest) (cap : Nat) : SetApplied π :=
  c.applyEntries ops scope node cap req.entries

def globalValue (c : ConfigStore π) (id : UInt16) : Value := c.bridgeStore.effective id

def phyGroup (c : ConfigStore π) : PhyGroup := fun k => c.globalValue (bridgePhyIds.getD k 0)

def enablePhyTrial (c : ConfigStore π) : ConfigStore π :=
  {c with bridgeStore := {c.bridgeStore with phyTrialEnabled := true},phyTrialEnabled := c.bridgeStore.usable ops}

def revertPhyTrial (c : ConfigStore π) : ConfigStore π := {c with bridgeStore := c.bridgeStore.revertPhyTrial}

-- The group as values for the bridge's rows.
def groupRows (g : PhyGroup) : List (ParamDef × Value) :=
  (List.finRange phyGroupSize).filterMap fun (k : Fin phyGroupSize) => (bridgeGlobalParams.row (bridgePhyIds.getD k 0)).map fun d => (d,g k)

-- Row after row, whatever the one before answered: whether all were OK, and the store after them.
def applyRows (rows : List (ParamDef × Value)) (s : Store π) : Bool × Store π :=
  rows.foldl (fun now row =>
    (now.1 && (now.2.apply ops (entryFor row.1 row.2)).result.status == ParamStatus.ok.code,(now.2.apply ops (entryFor row.1 row.2)).store)) (true,s)

-- Any answer but OK drops the trial.
def beginPhyTrial (c : ConfigStore π) (g : PhyGroup) : Bool × ConfigStore π :=
  if !c.phyTrialEnabled then (false,c)
  else if (applyRows ops (groupRows g) c.bridgeStore).1 then (true,{c with bridgeStore := (applyRows ops (groupRows g) c.bridgeStore).2})
  else (false,{c with bridgeStore := (applyRows ops (groupRows g) c.bridgeStore).2.revertPhyTrial})

def commitPhyTrial (c : ConfigStore π) : Bool × ConfigStore π :=
  ((c.bridgeStore.commitPhyTrial ops).1,{c with bridgeStore := (c.bridgeStore.commitPhyTrial ops).2})

-- On a node's topic the bridge clears nothing of its own.
def restoreDefaults (c : ConfigStore π) (scope : ConfigScope) : ConfigStore π :=
  if scope = .bridge then {c with bridgeStore := (c.bridgeStore.restoreDefaults ops).2} else c

def restore (c : ConfigStore π) (scope : ConfigScope) (node : NodeId) (id : UInt16) (v : Value) : Bool × ConfigStore π :=
  match (scopeRows scope node).find? fun p => p.row.id == id with
  | none => (false,c)
  | some p =>
      if p.owner = .node then (false,c)
      else match c.holder p.owner node with
        | none => (false,c)
        | some s => ((s.restore ops id v).1,c.put p.owner node (s.restore ops id v).2)

-- OK, CLAMPED and INVALID_VALUE carry a value the node runs at.
def mirrorRow (rows : List Mirror) (e : ConfigAckEntry) : List Mirror :=
  if (e.status = ParamStatus.ok.code ∨ e.status = ParamStatus.clamped.code ∨ e.status = ParamStatus.invalidValue.code) ∧ e.len ≠ 0 then
    let m : Mirror := ⟨e.paramId,entrySigned e.value e.len e.ptype,e.isOverride⟩
    if rows.any fun r => r.id == e.paramId then rows.map fun r => if r.id = e.paramId then m else r
    else if rows.length < maxTableParams then rows ++ [m]
    else rows
  else rows

def noteSetResults (c : ConfigStore π) (node : NodeId) (results : List ConfigAckEntry) : ConfigStore π :=
  if !registered node then c else {c with mirror := Function.update c.mirror node (results.foldl mirrorRow (c.mirror node))}

def noteReadback (c : ConfigStore π) (node : NodeId) (results : List ConfigAckEntry) : ConfigStore π :=
  if !registered node then c else ({c with mirror := Function.update c.mirror node []} : ConfigStore π).noteSetResults node results

end ConfigStore

-- A set on a node's topic that would send its node a CONFIG.
def configSetReachesNode (scope : ConfigScope) (node : NodeId) (req : ConfigSetRequest) : Bool :=
  if scope ≠ .node then false
  else if req.op = configOpGetAll ∨ req.op = configOpRestoreDefaults then true
  else req.entries.any fun e => (findParam scope node e.name).any fun p => decide (p.owner = .node ∧ p.row.access ≠ .phy) && e.value.isSome

-- What a set on the bridge's topic asks of the PHY group.
structure PhyRequest where
  any : Bool := false
  named : Fin phyGroupSize → Bool := fun _ => false
  status : Fin phyGroupSize → ResultStatus := fun _ => .ok
  target : PhyGroup

def PhyRequest.take (r : PhyRequest) (e : ConfigSetEntry) : PhyRequest :=
  match findParam .bridge nodeBridge e.name,e.value with
  | some p,some asked =>
      if p.row.access ≠ .phy then r
      else match phyIndexOf p.row.id with
        | none => r
        | some k =>
            let v := clamp asked p.row
            let named := {r with any := true,named := Function.update r.named k true}
            if !valueAllowed p.row v then {named with status := Function.update r.status k .invalidValue}
            else {named with
              status := Function.update r.status k (if v = asked then .ok else .clamped)
              target := Function.update r.target k v}
  | _,_ => r

def ConfigStore.phyRequest {π : Type} (c : ConfigStore π) (req : ConfigSetRequest) : Bool × PhyRequest :=
  let out : PhyRequest := {target := c.phyGroup}
  if !c.phyTrialEnabled then (false,out)
  else ((req.entries.foldl PhyRequest.take out).any,req.entries.foldl PhyRequest.take out)

-- The CONFIG payload of the node's half, and the names it goes under.
structure NodeConfigFill where
  config : NodeConfigV1 := {op := configOpSet}
  names : List Name := []

def NodeConfigFill.take (dst : NodeId) (f : NodeConfigFill) (e : ConfigSetEntry) : NodeConfigFill :=
  match findParam .node dst e.name with
  | none => f
  | some p =>
      if maxConfigEntries ≤ f.config.entries.length then f
      else
        {config := {f.config with entries := f.config.entries ++ [entryFor p.row (e.value.getD 0)]}
         names := if f.names.length < maxConfigSetEntries then f.names ++ [rowName p.row] else f.names}

def fillNodeConfig (dst : NodeId) (nodeHalf : List ConfigSetEntry) : NodeConfigFill := nodeHalf.foldl (NodeConfigFill.take dst) {}

-- Everything that moves the bridge's configuration, and its storage changing by itself.
inductive ConfigStoreOp (π : Type) where
  | apply (scope : ConfigScope) (node : NodeId) (req : ConfigSetRequest) (cap : Nat)
  | restoreDefaults (scope : ConfigScope)
  | restore (scope : ConfigScope) (node : NodeId) (id : UInt16) (v : Value)
  | enablePhyTrial
  | beginPhyTrial (g : PhyGroup)
  | commitPhyTrial
  | revertPhyTrial
  | noteReadback (node : NodeId) (results : List ConfigAckEntry)
  | noteSetResults (node : NodeId) (results : List ConfigAckEntry)
  | storage (owner : Owner) (node : NodeId) (p : π)

namespace ConfigStore
variable {π : Type} (ops : Persist π)

def step (c : ConfigStore π) : ConfigStoreOp π → ConfigStore π
  | .apply scope node req cap => (c.apply ops scope node req cap).store
  | .restoreDefaults scope => c.restoreDefaults ops scope
  | .restore scope node id v => (c.restore ops scope node id v).2
  | .enablePhyTrial => c.enablePhyTrial ops
  | .beginPhyTrial g => (c.beginPhyTrial ops g).2
  | .commitPhyTrial => (c.commitPhyTrial ops).2
  | .revertPhyTrial => c.revertPhyTrial
  | .noteReadback node results => c.noteReadback node results
  | .noteSetResults node results => c.noteSetResults node results
  | .storage owner node p => ((c.holder owner node).map fun s => c.put owner node {s with persist := s.persist.map fun _ => p}).getD c

-- Each store is in order over its own rows.
structure Held (c : ConfigStore π) : Prop where
  bridge : c.bridgeStore.Tidy ∧ c.bridgeStore.table = bridgeGlobalParams
  nodes : ∀ p ∈ c.nodeStores, p.2.Tidy ∧ p.2.table = bridgePerNodeParams

def ownRows (owner : Owner) : Table := if owner = .bridgeGlobal then bridgeGlobalParams else bridgePerNodeParams

variable {ops}

theorem Held.holder {c : ConfigStore π} (held : c.Held) {owner : Owner} {node : NodeId} {s : Store π} (found : c.holder owner node = some s) :
    s.Tidy ∧ s.table = ownRows owner := by
  unfold ConfigStore.holder at found
  unfold ownRows
  split at found
  · rename_i global
    cases found
    rw [if_pos global]
    exact held.bridge
  · rename_i perNode
    rw [if_neg perNode]
    obtain ⟨p,first,rfl⟩ := Option.map_eq_some_iff.mp found
    exact held.nodes p (List.mem_of_find?_eq_some first)

theorem Held.put {c : ConfigStore π} (held : c.Held) (owner : Owner) (node : NodeId) (s : Store π) (tidy : s.Tidy) (table : s.table = ownRows owner) :
    (c.put owner node s).Held := by
  unfold ConfigStore.put
  unfold ownRows at table
  split at table
  · rename_i global
    rw [if_pos global]
    exact ⟨⟨tidy,table⟩,held.nodes⟩
  · rename_i perNode
    rw [if_neg perNode]
    refine ⟨held.bridge,fun p member => ?_⟩
    obtain ⟨q,inside,rfl⟩ := List.mem_map.mp member
    split
    · exact ⟨tidy,table⟩
    · exact held.nodes q inside

-- What was put is what is held.
theorem holder_put (c : ConfigStore π) (owner : Owner) (node : NodeId) (s t : Store π) (found : c.holder owner node = some s) :
    (c.put owner node t).holder owner node = some t := by
  unfold ConfigStore.holder ConfigStore.put at *
  split
  · rfl
  · rename_i perNode
    rw [if_neg perNode] at found
    unfold storeFor at *
    rw [List.find?_map]
    have same : ((fun p : NodeId × Store π => p.1 == node) ∘ fun p => if p.1 = node then (p.1,t) else p) = fun p => p.1 == node := by
      funext p
      dsimp only [Function.comp]
      split <;> rfl
    rw [same]
    obtain ⟨p,first,rfl⟩ := Option.map_eq_some_iff.mp found
    have here : p.1 = node := by simpa using List.find?_some first
    rw [first]
    simp [here]

theorem applied_table {s : Store π} (tidy : s.Tidy) (e : ConfigEntry) : (s.apply ops e).store.table = s.table :=
  Store.step_table ops tidy (.apply e)

theorem committed_table {s : Store π} (tidy : s.Tidy) : (s.commitPhyTrial ops).2.table = s.table := Store.step_table ops tidy .commitPhyTrial

theorem defaults_held {s : Store π} (tidy : s.Tidy) : (s.restoreDefaults ops).2.Tidy ∧ (s.restoreDefaults ops).2.table = s.table :=
  ⟨Store.step_tidy ops tidy .restoreDefaults,Store.step_table ops tidy .restoreDefaults⟩

theorem Held.applyEntry {c : ConfigStore π} (held : c.Held) (scope : ConfigScope) (node : NodeId) (e : ConfigSetEntry) :
    (c.applyEntry ops scope node e).store.Held := by
  unfold ConfigStore.applyEntry
  split
  · exact held
  · rename_i p _
    split
    · exact held
    · split
      · exact held
      · split
        · exact held
        · split
          · exact held
          · split
            · exact held
            · rename_i s found
              obtain ⟨tidy,table⟩ := held.holder found
              exact held.put _ _ _ (tidy.applied ops _) ((applied_table tidy _).trans table)

theorem Held.applyEntries {c : ConfigStore π} (held : c.Held) (scope : ConfigScope) (node : NodeId) (cap : Nat) (entries : List ConfigSetEntry) :
    (c.applyEntries ops scope node cap entries).store.Held := by
  have fold : ∀ (entries : List ConfigSetEntry) (a : SetApplied π), a.store.Held →
      (entries.foldl (fun a e => if a.results.length < cap then a.take (a.store.applyEntry ops scope node e) else a) a).store.Held := by
    intro entries
    induction entries with
    | nil => exact fun _ now => now
    | cons e rest ih =>
        intro a now
        rw [List.foldl_cons]
        apply ih
        split
        · exact now.applyEntry scope node e
        · exact now
  exact fold entries _ held

theorem applyRows_held {s : Store π} (rows : List (ParamDef × Value)) (tidy : s.Tidy) :
    (applyRows ops rows s).2.Tidy ∧ (applyRows ops rows s).2.table = s.table := by
  unfold applyRows
  generalize true = ok
  induction rows generalizing s ok with
  | nil => exact ⟨tidy,rfl⟩
  | cons row rest ih =>
      rw [List.foldl_cons]
      obtain ⟨later,same⟩ := ih (tidy.applied ops (entryFor row.1 row.2)) (ok && (s.apply ops (entryFor row.1 row.2)).result.status == ParamStatus.ok.code)
      exact ⟨later,same.trans (applied_table tidy _)⟩

theorem Held.beginPhyTrial {c : ConfigStore π} (held : c.Held) (g : PhyGroup) : (c.beginPhyTrial ops g).2.Held := by
  have after : (applyRows ops (groupRows g) c.bridgeStore).2.Tidy ∧ (applyRows ops (groupRows g) c.bridgeStore).2.table = c.bridgeStore.table :=
    applyRows_held (groupRows g) held.bridge.1
  unfold ConfigStore.beginPhyTrial
  generalize applyRows ops (groupRows g) c.bridgeStore = tried at after ⊢
  split
  · exact held
  · split
    · exact ⟨⟨after.1,after.2.trans held.bridge.2⟩,held.nodes⟩
    · exact ⟨⟨after.1.revert,after.2.trans held.bridge.2⟩,held.nodes⟩

theorem Held.restore {c : ConfigStore π} (held : c.Held) (scope : ConfigScope) (node : NodeId) (id : UInt16) (v : Value) :
    (c.restore ops scope node id v).2.Held := by
  unfold ConfigStore.restore
  split
  · exact held
  · split
    · exact held
    · split
      · exact held
      · rename_i s found
        obtain ⟨tidy,table⟩ := held.holder found
        exact held.put _ _ _ (tidy.restored ops id v) ((Store.step_table ops tidy (.restore id v)).trans table)

theorem Held.noteSetResults {c : ConfigStore π} (held : c.Held) (node : NodeId) (results : List ConfigAckEntry) :
    (c.noteSetResults node results).Held := by
  unfold ConfigStore.noteSetResults
  split
  · exact held
  · exact ⟨held.bridge,held.nodes⟩

theorem Held.step {c : ConfigStore π} (held : c.Held) (op : ConfigStoreOp π) : (c.step ops op).Held := by
  cases op with
  | apply scope node req cap => exact held.applyEntries scope node cap req.entries
  | restoreDefaults scope =>
      change (c.restoreDefaults ops scope).Held
      unfold ConfigStore.restoreDefaults
      split
      · have after : (c.bridgeStore.restoreDefaults ops).2.Tidy ∧ _ := defaults_held held.bridge.1
        exact ⟨⟨after.1,after.2.trans held.bridge.2⟩,held.nodes⟩
      · exact held
  | restore scope node id v => exact held.restore scope node id v
  | enablePhyTrial => exact ⟨⟨Store.step_tidy ops held.bridge.1 .enablePhyTrial,held.bridge.2⟩,held.nodes⟩
  | beginPhyTrial g => exact held.beginPhyTrial g
  | commitPhyTrial =>
      exact ⟨⟨held.bridge.1.committed ops,(committed_table held.bridge.1).trans held.bridge.2⟩,held.nodes⟩
  | revertPhyTrial => exact ⟨⟨held.bridge.1.revert,held.bridge.2⟩,held.nodes⟩
  | noteReadback node results =>
      change (c.noteReadback node results).Held
      unfold ConfigStore.noteReadback
      split
      · exact held
      · have emptied : Held {c with mirror := Function.update c.mirror node []} := ⟨held.bridge,held.nodes⟩
        exact emptied.noteSetResults node results
  | noteSetResults node results => exact held.noteSetResults node results
  | storage owner node p =>
      change ((c.holder owner node).map fun s => c.put owner node {s with persist := s.persist.map fun _ => p}).getD c |>.Held
      cases found : c.holder owner node with
      | none => exact held
      | some s =>
          obtain ⟨tidy,table⟩ := held.holder found
          exact held.put owner node _ (tidy.persisted _) table

theorem bridgeGlobal_sound : bridgeGlobalParams.Sound where
  distinct := by decide +kernel
  typed := by decide +kernel
  ranges := by decide +kernel
  defaults := by decide +kernel
  small := by decide
  phy := by decide +kernel

theorem bridgePerNode_sound : bridgePerNodeParams.Sound where
  distinct := by decide +kernel
  typed := by decide +kernel
  ranges := by decide +kernel
  defaults := by decide +kernel
  small := by decide
  phy := by decide +kernel

theorem begin_held (global : Option π) (perNode : NodeId → Option π) : (begin_ global perNode).Held := by
  refine ⟨⟨Store.fresh_tidy _ bridgeGlobal_sound global,rfl⟩,fun p member => ?_⟩
  obtain ⟨node,_,rfl⟩ := List.mem_map.mp member
  exact ⟨Store.fresh_tidy _ bridgePerNode_sound _,rfl⟩

-- A configuration the bridge can come to hold.
def Configured (ops : Persist π) (c : ConfigStore π) : Prop :=
  ∃ global perNode, Reached (ConfigStore.step ops) (fun _ _ => True) (begin_ global perNode) c

theorem Configured.held {c : ConfigStore π} (configured : Configured ops c) : c.Held := by
  obtain ⟨global,perNode,path⟩ := configured
  exact path.invariant Held (begin_held global perNode) fun _ op held _ => held.step op

end ConfigStore

-- An entry a set sends on to its node.
def nodeBound (scope : ConfigScope) (node : NodeId) (e : ConfigSetEntry) : Bool :=
  (findParam scope node e.name).any fun p => decide (p.owner = .node ∧ p.row.access ≠ .phy) && e.value.isSome

namespace ConfigStore
variable {π : Type} {ops : Persist π}

-- Whether an entry goes on to its node depends on the table alone.
theorem applyEntry_toNode (c : ConfigStore π) (scope : ConfigScope) (node : NodeId) (e o : ConfigSetEntry) :
    (c.applyEntry ops scope node e).place = .toNode o ↔ o = e ∧ nodeBound scope node e = true := by
  unfold applyEntry nodeBound
  cases found : findParam scope node e.name with
  | none => simp
  | some p =>
      cases given : e.value with
      | none => simp
      | some v =>
          dsimp only [Option.any_some,Option.isSome_some]
          by_cases phyOfNode : p.owner = .node ∧ p.row.access = .phy
          · rw [if_pos phyOfNode]
            simp [phyOfNode.2]
          · rw [if_neg phyOfNode]
            by_cases trial : p.owner = .bridgeGlobal ∧ p.row.access = .phy ∧ c.phyTrialEnabled = true
            · rw [if_pos trial]
              simp [trial.1]
            · rw [if_neg trial]
              by_cases owned : p.owner = .node
              · rw [if_pos owned]
                simp only [owned,true_and] at phyOfNode
                simp [owned,phyOfNode,eq_comm]
              · rw [if_neg owned]
                cases c.holder p.owner node <;> simp [owned]

theorem SetApplied.take_nodeHalf (a : SetApplied π) (c : ConfigStore π) (scope : ConfigScope) (node : NodeId) (e : ConfigSetEntry)
    (room : a.nodeHalf.length < maxConfigSetEntries) :
    (a.take (c.applyEntry ops scope node e)).nodeHalf = a.nodeHalf ++ [e].filter (nodeBound scope node) := by
  have place : ∀ o, (applyEntry ops c scope node e).place = .toNode o ↔ _ := c.applyEntry_toNode scope node e
  generalize c.applyEntry ops scope node e = o at place ⊢
  unfold SetApplied.take
  dsimp only
  cases where_ : o.place with
  | toNode n =>
      obtain ⟨rfl,bound⟩ := (place n).mp where_
      dsimp only
      rw [if_pos room,List.filter_cons_of_pos bound,List.filter_nil]
  | answered r =>
      have unbound : ¬ nodeBound scope node e = true := by
        intro bound
        have there := (place e).mpr ⟨rfl,bound⟩
        rw [where_] at there
        cases there
      rw [List.filter_cons_of_neg unbound,List.filter_nil,List.append_nil]
  | phyRow =>
      have unbound : ¬ nodeBound scope node e = true := by
        intro bound
        have there := (place e).mpr ⟨rfl,bound⟩
        rw [where_] at there
        cases there
      rw [List.filter_cons_of_neg unbound,List.filter_nil,List.append_nil]

theorem SetApplied.take_results (a : SetApplied π) (o : EntryApplied π) : (a.take o).results.length ≤ a.results.length + 1 := by
  unfold SetApplied.take
  dsimp only
  split
  · rw [List.length_append]
    exact Nat.le_refl _
  · omega

-- With room for a result of each entry, the node's half is the entries that go to the node, in their order.
theorem apply_nodeHalf (c : ConfigStore π) (scope : ConfigScope) (node : NodeId) (cap : Nat) (entries : List ConfigSetEntry)
    (room : entries.length ≤ cap) (few : entries.length ≤ maxConfigSetEntries) :
    (c.applyEntries ops scope node cap entries).nodeHalf = entries.filter (nodeBound scope node) := by
  have fold : ∀ (entries : List ConfigSetEntry) (a : SetApplied π), a.results.length + entries.length ≤ cap →
      a.nodeHalf.length + entries.length ≤ maxConfigSetEntries →
      (entries.foldl (fun a e => if a.results.length < cap then a.take (a.store.applyEntry ops scope node e) else a) a).nodeHalf =
        a.nodeHalf ++ entries.filter (nodeBound scope node) := by
    intro entries
    induction entries with
    | nil =>
        intro a _ _
        exact (List.append_nil _).symm
    | cons e rest ih =>
        intro a room few
        rw [List.length_cons] at room few
        have grown := a.take_results (a.store.applyEntry ops scope node e)
        have half : (a.take (applyEntry ops a.store scope node e)).nodeHalf = _ := a.take_nodeHalf a.store scope node e (by omega)
        have less : ([e].filter (nodeBound scope node)).length ≤ 1 := List.length_filter_le _ [e]
        rw [List.foldl_cons,if_pos (by omega),ih _ (by omega) (by rw [half,List.length_append]; omega),half,List.append_assoc,
          ← List.filter_append]
        rfl
  have all := fold entries {store := c} (by simpa using room) (by simpa using few)
  exact all.trans (List.nil_append _)

end ConfigStore

end LoraRan.Bridge
