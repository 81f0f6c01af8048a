import LoraRan.Config.PhyBlob

namespace LoraRan.Node
open Protocol Config

-- The board's nonvolatile bytes. `failing` says which of the writes to come the medium refuses.
structure BlobStore where
  usable : Bool := true
  bytes : Bytes := []
  failing : Nat → Bool := fun _ => false
  writes : Nat := 0

def BlobStore.read (b : BlobStore) (cap : Nat) : Bytes := if cap < b.bytes.length then [] else b.bytes

def BlobStore.write (b : BlobStore) (bytes : Bytes) : Bool × BlobStore :=
  if b.failing b.writes then (false,{b with writes := b.writes + 1})
  else (true,{b with bytes := bytes,writes := b.writes + 1})

def BlobStore.erase (b : BlobStore) : Bool × BlobStore := b.write []

def PhyPersist.write (p : BlobStore) (b : PhyBlob) : Bool × BlobStore :=
  if !p.usable then (false,p)
  else match b.encode phyBlobMax with
    | none => (false,p)
    | some bytes => p.write bytes

def PhyPersist.read (p : BlobStore) : Option PhyBlob :=
  if !p.usable then none
  else
    let bytes := p.read phyBlobMax
    if bytes.length = 0 then none else PhyBlob.decode bytes

def PhyPersist.saveGroup (p : BlobStore) (group : List (UInt16 × Value)) : Bool × BlobStore :=
  if phyGroupSize < group.length then (false,p) else PhyPersist.write p {rows := group}

-- The marker never lands without the group the blob already holds.
def PhyPersist.markTrial (p : BlobStore) (marked : Bool) : Bool × BlobStore :=
  PhyPersist.write p {(PhyPersist.read p).getD {} with trialOpen := marked}

def PhyPersist.erase (p : BlobStore) : Bool × BlobStore := if !p.usable then (false,p) else p.erase

def phyPersist : Persist BlobStore where
  usable := BlobStore.usable
  save := fun p _ _ => (false,p)
  clearAll := fun p => (false,p)
  saveGroup := PhyPersist.saveGroup

def phyIds : List UInt16 := [0x0110,0x0111,0x0112,0x0113,0x0114,0x0115]

-- The six rows in table order.
structure PhyGroup where
  freqHz : Value
  spreadingFactor : Value
  bandwidthKhz : Value
  codingRateDenominator : Value
  txPowerDbm : Value
  phyTrialS : Value
  deriving DecidableEq

def PhyGroup.of (value : UInt16 → Value) : PhyGroup :=
  ⟨value 0x0110,value 0x0111,value 0x0112,value 0x0113,value 0x0114,value 0x0115⟩

inductive PhyState where
  | idle | pending | trial
  deriving DecidableEq, Repr

inductive RevertCause where
  | none | window | reboot
  deriving DecidableEq, Repr

def RevertCause.code : RevertCause → UInt16
  | .none => 0x0000
  | .window => 0x0001
  | .reboot => 0x0002

-- One machine per board. The statistics are left out.
structure PhyTrial where
  store : Store BlobStore := {table := nodeCommonParams}
  state : PhyState := .idle
  retuneDue : Bool := false
  retuneToTrial : Bool := false
  accepted : UInt8 := 0
  committed : PhyGroup := ⟨917400000,9,125,5,-4,120⟩
  pending : PhyGroup := ⟨0,0,0,0,0,0⟩
  pendingSinceMs : UInt32 := 0
  windowStartMs : UInt32 := 0
  windowMs : UInt32 := 0

def isPhy (id : UInt16) : Bool := phyIds.contains id

def PhyTrial.writable (t : PhyTrial) : Bool := t.store.usable phyPersist

def PhyTrial.group (t : PhyTrial) : PhyGroup := PhyGroup.of t.store.effective

def PhyTrial.withPersist (t : PhyTrial) (op : BlobStore → Bool × BlobStore) : PhyTrial :=
  {t with store := {t.store with persist := t.store.persist.map fun p => (op p).2}}

-- A stored value comes back through restore(), so a range that changed meanwhile still clamps it.
def PhyTrial.begin (t : PhyTrial) : RevertCause × PhyTrial :=
  if !t.writable then (.none,t)
  else
    let t := {t with store := {t.store with phyTrialEnabled := true}}
    match t.store.persist.bind PhyPersist.read with
    | none => (.none,t)
    | some b =>
        let store := b.rows.foldl (fun (s : Store BlobStore) row => if isPhy row.1 then (s.restore phyPersist row.1 row.2).2 else s) t.store
        let t := {t with store := store}
        let t := {t with committed := t.group}
        if !b.trialOpen then (.none,t) else (.reboot,t.withPersist (PhyPersist.markTrial · false))

def PhyTrial.get (t : PhyTrial) (id : UInt16) : ConfigAckEntry := t.store.get id

def PhyTrial.set (t : PhyTrial) (entry : ConfigEntry) : ConfigAckEntry × PhyTrial :=
  if t.state = .trial then
    match t.store.table.row entry.paramId with
    | none => ({},t)
    | some d => (t.store.held d .readOnly,t)
  else
    let done := t.store.apply phyPersist entry
    (done.result,{t with store := done.store})

-- The board retunes only onto a group every member accepted: another group starts the count again.
def PhyTrial.onSet (t : PhyTrial) (slot : Nat) (accepted : Bool) (members : UInt8) (nowMs : UInt32) : PhyTrial :=
  if t.state = .trial ∨ !accepted ∨ 8 ≤ slot then t
  else
    let t := if t.state = .idle ∨ t.group ≠ t.pending then
        {t with pending := t.group,accepted := 0,pendingSinceMs := nowMs,state := .pending}
      else t
    let t := {t with accepted := t.accepted ||| ((1 : UInt8) <<< UInt8.ofNat slot)}
    if members ≠ 0 ∧ t.accepted &&& members = members then {t with retuneDue := true,retuneToTrial := true} else t

def PhyTrial.trialMs (t : PhyTrial) : UInt32 := (t.store.effective 0x0115).toUInt32 * 1000

def PhyTrial.onRetuned (t : PhyTrial) (nowMs : UInt32) : PhyTrial :=
  let t := {t with retuneDue := false}
  if !t.retuneToTrial then t
  else
    let t := {t with retuneToTrial := false,state := .trial,windowStartMs := nowMs,windowMs := t.trialMs}
    t.withPersist (PhyPersist.markTrial · true)

def PhyTrial.onAuthenticated (t : PhyTrial) : PhyTrial :=
  if t.state ≠ .trial then t
  else
    let (saved,store) := t.store.commitPhyTrial phyPersist
    let t := {t with store := store}
    if !saved then t else {t with committed := t.group,state := .idle,accepted := 0}

def expired (nowMs sinceMs spanMs : UInt32) : Bool := decide (spanMs ≤ nowMs - sinceMs)

def PhyTrial.tick (t : PhyTrial) (nowMs : UInt32) : RevertCause × PhyTrial :=
  if t.state = .pending ∧ !t.retuneDue ∧ expired nowMs t.pendingSinceMs t.trialMs then
    (.none,{t with store := t.store.revertPhyTrial,state := .idle,accepted := 0})
  else if t.state ≠ .trial ∨ !expired nowMs t.windowStartMs t.windowMs then (.none,t)
  else
    let t := {t with store := t.store.revertPhyTrial}
    let t := t.withPersist (PhyPersist.markTrial · false)
    (.window,{t with state := .idle,accepted := 0,retuneDue := true,retuneToTrial := false})

def PhyTrial.resetToDefaults (t : PhyTrial) : Bool × PhyTrial :=
  if !t.writable then (false,t)
  else
    let t := {t with store := t.store.forgetPhyGroup}
    let t := {t with committed := t.group,state := .idle,accepted := 0,retuneDue := true,retuneToTrial := false}
    match t.store.persist with
    | none => (false,t)
    | some p =>
        let (erased,p) := PhyPersist.erase p
        (erased,{t with store := {t.store with persist := some p}})

end LoraRan.Node
