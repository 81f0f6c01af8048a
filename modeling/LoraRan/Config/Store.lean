import LoraRan.Config.Table

namespace LoraRan.Config
open Protocol

-- The injected nonvolatile storage, with its own state. Any write may fail.
structure Persist (π : Type) where
  usable : π → Bool
  save : π → UInt16 → Value → Bool × π
  clearAll : π → Bool × π
  saveGroup : π → List (UInt16 × Value) → Bool × π

structure Override where
  id : UInt16
  value : Value
  deriving DecidableEq

structure Store (π : Type) where
  table : Table
  persist : Option π := none
  overrides : List Override := []
  phyTrialEnabled : Bool := false
  trial : List Override := []

def rawBits (v : Value) (t : UInt8) : UInt32 :=
  match ptypeWidth t with
  | 1 => v.toUInt32 &&& 0xFF
  | 2 => v.toUInt32 &&& 0xFFFF
  | _ => v.toUInt32

def clamp (v : Value) (d : ParamDef) : Value := if v < d.min then d.min else if d.max < v then d.max else v

section
variable {π : Type} (ops : Persist π)

def Store.slot (s : Store π) (id : UInt16) : Option Override := s.overrides.find? fun o => o.id == id

def Store.trialSlot (s : Store π) (id : UInt16) : Option Override := s.trial.find? fun o => o.id == id

def Store.usable (s : Store π) : Bool := s.persist.any ops.usable

def Store.phyWritable (s : Store π) : Bool := s.phyTrialEnabled && s.usable ops

-- An id already held keeps its place; a new one goes to the end.
def setValue (overrides : List Override) (id : UInt16) (v : Value) : List Override :=
  if overrides.any (fun o => o.id == id) then overrides.map (fun o => if o.id = id then ⟨id,v⟩ else o)
  else overrides ++ [⟨id,v⟩]

def Store.setOverride (s : Store π) (id : UInt16) (v : Value) : Option (Store π) :=
  if (s.slot id).isNone ∧ maxTableParams ≤ s.overrides.length then none
  else some {s with overrides := setValue s.overrides id v}

def Store.effective (s : Store π) (id : UInt16) : Value :=
  match s.table.row id with
  | none => 0
  | some d =>
      match s.trialSlot id with
      | some t => t.value
      | none =>
          match s.slot id with
          | some o => o.value
          | none => d.default

def Store.isOverride (s : Store π) (id : UInt16) : Bool := (s.slot id).isSome

def Store.markedOverride (s : Store π) (id : UInt16) : Bool := (s.trialSlot id).isSome || s.isOverride id

-- The value the store holds now, under a status.
def Store.held (s : Store π) (d : ParamDef) (status : ParamStatus) : ConfigAckEntry :=
  {ConfigAckEntry.pack {} d.id status d.type (rawBits (s.effective d.id) d.type) with isOverride := s.markedOverride d.id}

structure Applied (π : Type) where
  result : ConfigAckEntry
  applied : Bool := false
  persisted : Bool := true
  store : Store π

def Store.apply (s : Store π) (entry : ConfigEntry) : Applied π :=
  match s.table.row entry.paramId with
  | none => {result := {paramId := entry.paramId,status := ParamStatus.unknownParam.code,ptype := entry.ptype,len := 0},store := s}
  | some d =>
      if entry.ptype ≠ d.type ∨ entry.len.toNat ≠ ptypeWidth d.type then {result := s.held d .typeMismatch,store := s}
      else if d.access = .readOnly ∨ d.access = .phy ∧ !s.phyWritable ops then {result := s.held d .readOnly,store := s}
      else
        let requested := entrySigned entry.value entry.len entry.ptype
        let eff := clamp requested d
        if !valueAllowed d eff then {result := s.held d .invalidValue,store := s}
        else
          let status := if eff = requested then ParamStatus.ok else .clamped
          let result := {ConfigAckEntry.pack {} d.id status d.type (rawBits eff d.type) with isOverride := true}
          if d.access = .phy then
            {result := result,applied := true,persisted := false,store := {s with trial := setValue s.trial d.id eff}}
          else match s.setOverride d.id eff with
            | none => {result := s.held d .typeMismatch,store := s}
            | some s =>
                match s.persist with
                | none => {result := result,applied := true,persisted := false,store := s}
                | some p =>
                    if !ops.usable p then {result := result,applied := true,persisted := false,store := s}
                    else
                      let (saved,p) := ops.save p d.id eff
                      {result := result,applied := true,persisted := saved,store := {s with persist := some p}}

def Store.get (s : Store π) (id : UInt16) : ConfigAckEntry :=
  match s.table.row id with
  | none => {paramId := id,status := ParamStatus.unknownParam.code,len := 0}
  | some d => s.held d .ok

def Store.restore (s : Store π) (id : UInt16) (v : Value) : Bool × Store π :=
  match s.table.row id with
  | none => (false,s)
  | some d =>
      if d.access = .readOnly ∨ d.access = .phy ∧ !s.phyWritable ops then (false,s)
      else if !valueAllowed d (clamp v d) then (false,s)
      else match s.setOverride id (clamp v d) with
        | none => (false,s)
        | some s => (true,s)

def Store.phyRows (s : Store π) : List ParamDef := s.table.filter fun d => d.access = .phy

def Store.group (s : Store π) : List (UInt16 × Value) := (s.phyRows.take phyGroupSize).map fun d => (d.id,s.effective d.id)

def Store.setAll (s : Store π) (values : List (UInt16 × Value)) : Store π :=
  values.foldl (fun s v => (s.setOverride v.1 v.2).getD s) s

def Store.commitPhyTrial (s : Store π) : Bool × Store π :=
  if s.trial.length = 0 then (true,s)
  else if !s.phyWritable ops then (false,s)
  else match s.persist with
    | none => (false,s)
    | some p =>
        let group := s.group
        let (saved,p) := ops.saveGroup p group
        let s := {s with persist := some p}
        if !saved then (false,s) else (true,{s.setAll group with trial := []})

def Store.revertPhyTrial (s : Store π) : Store π := {s with trial := []}

def Store.isPhy (s : Store π) (id : UInt16) : Bool := (s.table.row id).any fun d => d.access = .phy

def Store.forgetPhyGroup (s : Store π) : Store π :=
  {s with trial := [],overrides := s.overrides.filter fun o => !s.isPhy o.id}

-- The committed PHY group survives, in memory and in the nonvolatile store.
def Store.restoreDefaults (s : Store π) : Bool × Store π :=
  let kept := s.overrides.filter fun o => s.isPhy o.id
  let s := {s with overrides := kept.take phyGroupSize}
  match s.persist with
  | none => (false,s)
  | some p =>
      if !ops.usable p then (false,s)
      else
        let (cleared,p) := ops.clearAll p
        (cleared,{s with persist := some p})

def Store.readPersistStatus (s : Store π) : PersistStatus :=
  if 0 < s.trial.length then .appliedNotPersisted
  else if s.overrides.length = 0 then .persisted
  else if !s.usable ops then .appliedNotPersisted
  else .persisted

end
end LoraRan.Config
