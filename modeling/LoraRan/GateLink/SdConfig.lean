import Mathlib.Algebra.Order.BigOperators.Group.List
import Mathlib.Algebra.Order.Ring.Nat
import LoraRan.GateLink.ConfigText
import LoraRan.GateLink.GateLinkApp
import LoraRan.Library.StepSystem

namespace LoraRan.GateLink
open Protocol Config Library.StepSystem
open Library.DecimalText (digits)

-- The configuration file with its card. An empty file is no file; `writeFails` decides the next write, `lastWrite` tells the
-- last one since the load. The statistics are left out.
structure SdPersist where
  mounted : Bool := false
  dirty : Bool := false
  file : Bytes := []
  writeFails : Bool := false
  lastWrite : Option Bool := none
  deriving DecidableEq

abbrev SdStore := Store SdPersist

-- A PHY row is never written here, nor a row at its default.
def overriddenRows (store : SdStore) : List FileEntry :=
  (store.table.filter fun d => decide (d.access ≠ .phy) && store.isOverride d.id).map fun d => (d,store.effective d.id)

def SdPersist.writeAll (p : SdPersist) (store : SdStore) : Bool × SdPersist :=
  if !p.mounted then (false,{p with dirty := true})
  else
    let text := formatConfig (overriddenRows store) configFileCap
    let ok := !text.isEmpty && !p.writeFails
    (ok,{p with file := if ok then text else p.file,dirty := !ok,lastWrite := some ok})

-- The store the object points at, as it stands when one of its calls is under way: save() comes after the value has been set,
-- clear_all() after the overrides have gone.
def SdPersist.ops (store : SdStore) : Persist SdPersist where
  usable p := p.mounted && !p.dirty
  save p id v := p.writeAll {store with overrides := setValue store.overrides id v}
  clearAll p := p.writeAll {store with overrides := (store.overrides.filter fun o => store.isPhy o.id).take phyGroupSize}
  saveGroup p _ := (false,p)

def SdPersist.read (p : SdPersist) (reads : Bool) : Bytes := if !reads ∨ configFileCap < p.file.length then [] else p.file

def SdStore.card (store : SdStore) : SdPersist := store.persist.getD {}

-- A configuration that has not been loaded yet, over a card with this file.
def SdStore.fresh (file : Bytes) : SdStore := {table := gateLinkTable,persist := some {file := file}}

def SdStore.restoreAll (store : SdStore) (entries : List FileEntry) : SdStore :=
  entries.foldl (fun s e => (s.restore (SdPersist.ops s) e.1.id e.2).2) store

-- An unreadable file leaves the defaults running, as no file does.
def SdStore.load (store : SdStore) (mounts reads : Bool) : SdStore :=
  let p := {store.card with mounted := mounts,dirty := false}
  let store := {store with persist := some p}
  if !mounts ∨ (p.read reads).isEmpty then store
  else SdStore.restoreAll store ((parseConfig store.table (p.read reads) maxTableParams).getD [])

def SdStore.apply (store : SdStore) (entry : ConfigEntry) : Applied SdPersist := Store.apply (SdPersist.ops store) store entry

def SdStore.restoreDefaults (store : SdStore) : Bool × SdStore := Store.restoreDefaults (SdPersist.ops store) store

def SdStore.refresh (store : SdStore) (mounts : Bool) : Bool × SdStore :=
  if store.usable (SdPersist.ops store) then (true,store)
  else
    let p := {store.card with mounted := mounts}
    if !mounts then (false,{store with persist := some p})
    else ((p.writeAll store).1,{store with persist := some (p.writeAll store).2})

def SdStore.unpersisted (store : SdStore) : Bool := store.card.dirty || store.readPersistStatus (SdPersist.ops store) != .persisted

-- Which of the calls to the card fail.
inductive SdEvent where
  | apply (entry : ConfigEntry) (writeFails : Bool)
  | restoreDefaults (writeFails : Bool)
  | refresh (mounts writeFails : Bool)

def SdStore.armed (store : SdStore) (writeFails : Bool) : SdStore := {store with persist := some {store.card with writeFails := writeFails}}

def SdStore.step (store : SdStore) : SdEvent → SdStore
  | .apply entry writeFails => (SdStore.apply (SdStore.armed store writeFails) entry).store
  | .restoreDefaults writeFails => (SdStore.restoreDefaults (SdStore.armed store writeFails)).2
  | .refresh mounts writeFails => (SdStore.refresh (SdStore.armed store writeFails) mounts).2

-- A load that finds the card, and one that also reads the file.
def SdStore.booted (file : Bytes) (reads : Bool) : SdStore := SdStore.load (SdStore.fresh file) true reads

def SdStore.reloaded (file : Bytes) : SdStore := SdStore.booted file true

-- The rows a reboot would run at are the rows running now.
def SdStore.Survives (store : SdStore) : Prop := ∀ id, (SdStore.reloaded store.card.file).effective id = store.effective id

theorem gateLinkTable_sound : gateLinkTable.Sound where
  distinct := by decide +kernel
  typed := by decide +kernel
  ranges := by decide +kernel
  defaults := by decide +kernel
  small := by decide +kernel
  phy := by decide +kernel

-- Every row's name is read back as it is written, and names that row.
theorem gateLinkTable_names : ∀ d ∈ gateLinkTable, Plain (nameBytes d.name) 0 ∧ findByName gateLinkTable (nameBytes d.name) = some d := by
  decide +kernel

-- What the store is apart from its card: GateLink's rows, no trial and no PHY value.
structure SdStore.Fit (s : SdStore) : Prop where
  table : s.table = gateLinkTable
  tidy : s.Tidy
  trial : s.trial = []
  locked : s.phyTrialEnabled = false
  plain : ∀ o ∈ s.overrides, s.isPhy o.id = false

theorem SdStore.Fit.carded {s : SdStore} (fit : SdStore.Fit s) (p : Option SdPersist) : SdStore.Fit {s with persist := p} :=
  ⟨fit.table,fit.tidy.persisted p,fit.trial,fit.locked,fit.plain⟩

theorem SdStore.Fit.fresh (p : Option SdPersist) : SdStore.Fit {table := gateLinkTable,persist := p} where
  table := rfl
  tidy := ⟨gateLinkTable_sound,List.nodup_nil,(by intro o member; cases member),List.nodup_nil,(by intro o member; cases member)⟩
  trial := rfl
  locked := rfl
  plain := (by intro o member; cases member)

theorem SdStore.Fit.set {s : SdStore} (fit : SdStore.Fit s) (d : ParamDef) (v : Value) (found : s.table.row d.id = some d)
    (writable : d.access ≠ .readOnly) (plain : d.access ≠ .phy) (settled : Config.Settled d v) :
    SdStore.Fit {s with overrides := setValue s.overrides d.id v} := by
  refine ⟨fit.table,(fit.tidy.setOverride d.id d v found writable settled).2,fit.trial,fit.locked,?_⟩
  intro o member
  rcases setValue_mem _ _ _ o member with rfl | inside
  · change (s.table.row d.id).any _ = false
    rw [found]
    simpa using plain
  · exact fit.plain o inside

theorem SdStore.effective_plain {s : SdStore} (fit : SdStore.Fit s) (id : UInt16) (d : ParamDef) (found : s.table.row id = some d) :
    s.effective id = ((valueAt s.overrides id).map Override.value).getD d.default := by
  rw [s.effective_row id d found,fit.trial]
  rfl

theorem overriddenRows_mem (s : SdStore) (e : FileEntry) : e ∈ overriddenRows s ↔
    e.1 ∈ s.table ∧ e.1.access ≠ .phy ∧ s.isOverride e.1.id = true ∧ e.2 = s.effective e.1.id := by
  rw [overriddenRows,List.mem_map]
  constructor
  · rintro ⟨d,kept,rfl⟩
    obtain ⟨member,both⟩ := List.mem_filter.mp kept
    rw [Bool.and_eq_true,decide_eq_true_eq] at both
    exact ⟨member,both.1,both.2,rfl⟩
  · rintro ⟨member,plain,over_,value⟩
    exact ⟨e.1,List.mem_filter.mpr ⟨member,by simp [plain,over_]⟩,by rw [← value]⟩

-- restore() takes back what the store had taken.
theorem SdStore.Fit.restores {s : SdStore} (fit : SdStore.Fit s) (e : FileEntry) (member : e.1 ∈ s.table) (writable : e.1.access ≠ .readOnly)
    (plain : e.1.access ≠ .phy) (settled : Config.Settled e.1 e.2) :
    (s.restore (SdPersist.ops s) e.1.id e.2).2 = {s with overrides := setValue s.overrides e.1.id e.2} := by
  have found := row_of_mem s.table fit.tidy.sound e.1 member
  have set := (fit.tidy.setOverride e.1.id e.1 e.2 found writable settled).1
  unfold Store.restore
  rw [found]
  dsimp only
  rw [if_neg (by simp [writable,plain]),settled.1,if_neg (by rw [settled.2]; decide),set]

theorem SdStore.Fit.restoresAll {s : SdStore} (fit : SdStore.Fit s) (entries : List FileEntry)
    (takes : ∀ e ∈ entries, e.1 ∈ s.table ∧ e.1.access ≠ .readOnly ∧ e.1.access ≠ .phy ∧ Config.Settled e.1 e.2) :
    SdStore.Fit (SdStore.restoreAll s entries) ∧ SdStore.restoreAll s entries = {s with
      overrides := (entries.map fun e => (e.1.id,e.2)).foldl (fun overrides row => setValue overrides row.1 row.2) s.overrides} := by
  induction entries generalizing s with
  | nil => exact ⟨fit,rfl⟩
  | cons e rest ih =>
      obtain ⟨member,writable,plain,settled⟩ := takes e List.mem_cons_self
      have found := row_of_mem s.table fit.tidy.sound e.1 member
      have first : SdStore.restoreAll s (e :: rest) = SdStore.restoreAll {s with overrides := setValue s.overrides e.1.id e.2} rest := by
        rw [SdStore.restoreAll,List.foldl_cons,fit.restores e member writable plain settled]
        rfl
      rw [first]
      exact ih (fit.set e.1 e.2 found writable plain settled) fun other inside => takes other (List.mem_cons_of_mem e inside)

theorem overriddenRows_ids (s : SdStore) (sound : s.table.Sound) : ((overriddenRows s).map fun e => e.1.id).Nodup := by
  rw [overriddenRows,List.map_map]
  exact sound.distinct.sublist (List.filter_sublist.map ParamDef.id)

-- The rows of a file as the store writes it.
theorem SdStore.Fit.rows_take {s : SdStore} (fit : SdStore.Fit s) :
    ∀ e ∈ overriddenRows s, e.1 ∈ gateLinkTable ∧ e.1.access ≠ .readOnly ∧ e.1.access ≠ .phy ∧ Config.Settled e.1 e.2 := by
  intro e member
  obtain ⟨inside,plain,overridden,value⟩ := (overriddenRows_mem s e).mp member
  have found := row_of_mem s.table fit.tidy.sound e.1 inside
  obtain ⟨o,slot⟩ := Option.isSome_iff_exists.mp overridden
  obtain ⟨held,same⟩ := valueAt_mem s.overrides e.1.id o slot
  obtain ⟨d,row,writable,-⟩ := fit.tidy.held o held
  rw [same,found] at row
  cases row
  refine ⟨fit.table ▸ inside,writable,plain,?_⟩
  rw [value]
  exact fit.tidy.effective_settled e.1.id e.1 found

theorem SdStore.Fit.value_back {s : SdStore} (fit : SdStore.Fit s) (id : UInt16) :
    ((valueAt (((overriddenRows s).map fun e => (e.1.id,e.2)).foldl (fun overrides row => setValue overrides row.1 row.2) []) id).map Override.value) =
      (valueAt s.overrides id).map Override.value := by
  have distinct : (((overriddenRows s).map fun e => (e.1.id,e.2)).map Prod.fst).Nodup := by
    rw [List.map_map]
    exact overriddenRows_ids s fit.tidy.sound
  rw [valueAt_setAll _ _ _ distinct]
  cases slot : valueAt s.overrides id with
  | none =>
      have missing : ((overriddenRows s).map fun e => (e.1.id,e.2)).find? (fun row => row.1 == id) = none := by
        rw [List.find?_eq_none]
        intro row member same
        obtain ⟨e,inside,rfl⟩ := List.mem_map.mp member
        have overridden := ((overriddenRows_mem s e).mp inside).2.2.1
        have this : e.1.id = id := by simpa using same
        rw [this] at overridden
        change (valueAt s.overrides id).isSome = true at overridden
        rw [slot] at overridden
        cases overridden
      rw [missing]
      rfl
  | some o =>
      obtain ⟨held,same⟩ := valueAt_mem s.overrides id o slot
      obtain ⟨d,row,-,-⟩ := fit.tidy.held o held
      rw [same] at row
      obtain ⟨inside,named⟩ := row_mem s.table id d row
      subst named
      have plain : d.access ≠ .phy := by
        have other := fit.plain o held
        rw [same,Store.isPhy,row] at other
        simpa using other
      have written : (d,s.effective d.id) ∈ overriddenRows s :=
        (overriddenRows_mem s _).mpr ⟨inside,plain,by rw [Store.isOverride]; exact Option.isSome_iff_exists.mpr ⟨o,slot⟩,rfl⟩
      have value : s.effective d.id = o.value := by
        rw [SdStore.effective_plain fit d.id d row,slot]
        rfl
      cases found : ((overriddenRows s).map fun e => (e.1.id,e.2)).find? (fun row => row.1 == d.id) with
      | none =>
          have none_ := List.find?_eq_none.mp found (d.id,s.effective d.id) (List.mem_map.mpr ⟨_,written,rfl⟩)
          simp at none_
      | some pair =>
          obtain ⟨e,listed,rfl⟩ := List.mem_map.mp (List.mem_of_find?_eq_some found)
          have id_ : e.1.id = d.id := by simpa using List.find?_some found
          have effective := ((overriddenRows_mem s e).mp listed).2.2.2
          simp only [Option.map_some]
          rw [effective,id_,value]

-- The longest file, every row overridden, fits: a write of this store never comes to nothing for want of room.
theorem valueText_length (v : Value) : (valueText v).length ≤ 11 := by
  have low := v.le_toInt
  have high := v.toInt_lt
  have short : (digits v.toInt.natAbs).length ≤ 10 := by
    rw [digits,List.length_map,Nat.length_toDigits_le_iff (by decide) (by decide)]
    omega
  unfold valueText
  split
  · rw [List.length_cons]
    omega
  · omega

theorem linesText_length (rows : List FileEntry) : (linesText rows).length ≤ (rows.map fun e => (nameBytes e.1.name).length + 19).sum := by
  induction rows with
  | nil => exact Nat.le_refl 0
  | cons e rest ih =>
      have value := valueText_length e.2
      have line : (lineText e).length ≤ (nameBytes e.1.name).length + 17 := by
        simp only [lineText,List.length_append,List.length_cons,List.length_nil]
        omega
      rw [List.map_cons,List.sum_cons]
      cases rest with
      | nil =>
          simp only [linesText,List.length_append,List.length_cons,List.length_nil]
          omega
      | cons next rest =>
          have split_ : linesText (e :: next :: rest) = lineText e ++ [0x2C,0x0A] ++ linesText (next :: rest) := rfl
          rw [split_,List.length_append,List.length_append]
          simp only [List.length_cons,List.length_nil]
          omega

theorem SdStore.Fit.room {s : SdStore} (fit : SdStore.Fit s) : (fileText (overriddenRows s)).length < configFileCap := by
  have lines := linesText_length (overriddenRows s)
  have whole : ((overriddenRows s).map fun e => (nameBytes e.1.name).length + 19).sum ≤
      (gateLinkTable.map fun d => (nameBytes d.name).length + 19).sum := by
    rw [overriddenRows,List.map_map,fit.table]
    exact (List.filter_sublist.map _).sum_le_sum fun _ _ => Nat.zero_le _
  have top : (gateLinkTable.map fun d => (nameBytes d.name).length + 19).sum < 2000 := by decide +kernel
  unfold fileText configFileCap
  split
  · decide
  · simp only [List.length_append,List.length_cons,List.length_nil]
    omega

-- Without its file the card is the one the application's model reads.
def SdPersist.bare (p : SdPersist) : Card := {mounted := p.mounted,dirty := p.dirty,writeFails := p.writeFails}

-- A file the store has written whole brings every row back.
theorem SdStore.Fit.back {s : SdStore} (fit : SdStore.Fit s) (id : UInt16) :
    (SdStore.reloaded (fileText (overriddenRows s))).effective id = s.effective id := by
  have short := fit.room
  have some_ : (fileText (overriddenRows s)).isEmpty = false := by
    unfold fileText
    split <;> rfl
  have read : ({file := fileText (overriddenRows s),mounted := true} : SdPersist).read true = fileText (overriddenRows s) := by
    rw [SdPersist.read,if_neg]
    simp only [Bool.not_true,Bool.false_eq_true,false_or]
    omega
  have room : (overriddenRows s).length ≤ maxTableParams := by
    rw [overriddenRows,List.length_map]
    exact Nat.le_trans (List.length_filter_le _ _) fit.tidy.sound.small
  have parsed : parseConfig gateLinkTable (fileText (overriddenRows s)) maxTableParams = some (overriddenRows s) :=
    parse_format gateLinkTable _ _ room (fun e member => (gateLinkTable_names e.1 (fit.rows_take e member).1).1)
      (fun e member => (gateLinkTable_names e.1 (fit.rows_take e member).1).2)
  have loaded : SdStore.reloaded (fileText (overriddenRows s)) =
      SdStore.restoreAll {table := gateLinkTable,persist := some {file := fileText (overriddenRows s),mounted := true}} (overriddenRows s) := by
    unfold SdStore.reloaded SdStore.booted SdStore.load SdStore.fresh SdStore.card
    simp only [Option.getD_some,read,some_,parsed,Bool.not_true,Bool.false_eq_true,or_self,if_false]
  have fresh := SdStore.Fit.fresh (some {file := fileText (overriddenRows s),mounted := true})
  obtain ⟨fitting,is⟩ := fresh.restoresAll (overriddenRows s) fit.rows_take
  rw [loaded]
  cases row : gateLinkTable.row id with
  | none =>
      rw [is]
      simp only [Store.effective,row,fit.table]
  | some d =>
      have here : (SdStore.restoreAll {table := gateLinkTable,persist := some {file := fileText (overriddenRows s),mounted := true}}
        (overriddenRows s)).table.row id = some d := by
        rw [fitting.table]
        exact row
      rw [SdStore.effective_plain fitting id d here,SdStore.effective_plain fit id d (by rw [fit.table]; exact row),is]
      exact congrArg (fun v => v.getD d.default) (fit.value_back id)

theorem SdStore.Fit.unwritable {s : SdStore} (fit : SdStore.Fit s) (ops : Persist SdPersist) : s.phyWritable ops = false := by
  rw [Store.phyWritable,fit.locked,Bool.false_and]

-- Whatever the file says, restore() leaves a store that could have been set to it.
theorem SdStore.Fit.restored {s : SdStore} (fit : SdStore.Fit s) (id : UInt16) (v : Value) :
    SdStore.Fit (s.restore (SdPersist.ops s) id v).2 ∧ (s.restore (SdPersist.ops s) id v).2.persist = s.persist := by
  unfold Store.restore
  cases row : s.table.row id with
  | none => exact ⟨fit,rfl⟩
  | some d =>
      obtain ⟨member,named⟩ := row_mem s.table id d row
      subst named
      dsimp only
      rw [fit.unwritable]
      split
      · exact ⟨fit,rfl⟩
      · next open_ =>
        rw [not_or] at open_
        split
        · exact ⟨fit,rfl⟩
        · next allowed =>
          have settled := clamp_settled v d (fit.tidy.sound.ranges d member) (by simpa using allowed)
          rw [(fit.tidy.setOverride d.id d _ row open_.1 settled).1]
          exact ⟨fit.set d _ row open_.1 (fun phy => open_.2 ⟨phy,rfl⟩) settled,rfl⟩

theorem SdStore.restoreAll_fit {s : SdStore} (fit : SdStore.Fit s) (entries : List FileEntry) :
    SdStore.Fit (SdStore.restoreAll s entries) ∧ (SdStore.restoreAll s entries).persist = s.persist := by
  induction entries generalizing s with
  | nil => exact ⟨fit,rfl⟩
  | cons e rest ih =>
      change SdStore.Fit (SdStore.restoreAll (s.restore (SdPersist.ops s) e.1.id e.2).2 rest) ∧ _
      have next := fit.restored e.1.id e.2
      obtain ⟨done,same⟩ := ih next.1
      exact ⟨done,same.trans next.2⟩

theorem SdStore.booted_fit (file : Bytes) (reads : Bool) : SdStore.Fit (SdStore.booted file reads) ∧
    (SdStore.booted file reads).persist = some {file := file,mounted := true} := by
  unfold SdStore.booted SdStore.load
  dsimp only
  split
  · exact ⟨SdStore.Fit.fresh _,rfl⟩
  · exact SdStore.restoreAll_fit (SdStore.Fit.fresh _) _

-- A SET changes nothing, or sets one row and writes the whole file while the card is in order.
theorem SdStore.Fit.apply_cases {s : SdStore} (fit : SdStore.Fit s) (p : SdPersist) (held : s.persist = some p) (entry : ConfigEntry) :
    (SdStore.apply s entry).store = s ∨ ∃ overrides, SdStore.Fit {s with overrides := overrides} ∧
      (SdStore.apply s entry).store = {s with
        overrides := overrides
        persist := some (if p.mounted && !p.dirty then (p.writeAll {s with overrides := overrides}).2 else p)} := by
  unfold SdStore.apply Store.apply
  cases row : s.table.row entry.paramId with
  | none => exact .inl rfl
  | some d =>
      obtain ⟨member,named⟩ := row_mem s.table _ d row
      rw [← named] at row
      dsimp only
      rw [fit.unwritable]
      split
      · exact .inl rfl
      · split
        · exact .inl rfl
        · next open_ =>
          rw [not_or] at open_
          split
          · exact .inl rfl
          · next allowed =>
            have plain : d.access ≠ .phy := fun phy => open_.2 ⟨phy,rfl⟩
            have settled := clamp_settled (entrySigned entry.value entry.len entry.ptype) d (fit.tidy.sound.ranges d member) (by simpa using allowed)
            right
            refine ⟨setValue s.overrides d.id (clamp (entrySigned entry.value entry.len entry.ptype) d),
              fit.set d _ row open_.1 plain settled,?_⟩
            rw [if_neg plain,(fit.tidy.setOverride d.id d _ row open_.1 settled).1]
            dsimp only
            rw [held]
            dsimp only [SdPersist.ops]
            by_cases ready : (p.mounted && !p.dirty) = true
            · simp only [ready,held,Bool.not_true,Bool.false_eq_true,if_false,if_true]
            · simp only [Bool.not_eq_true _ ▸ ready,Bool.not_false,Bool.false_eq_true,if_false,if_true]

-- A reset empties the overrides, for none is of the PHY group, and writes the file while the card is in order.
theorem SdStore.Fit.restoreDefaults_eq {s : SdStore} (fit : SdStore.Fit s) (p : SdPersist) (held : s.persist = some p) :
    SdStore.Fit {s with overrides := []} ∧ (SdStore.restoreDefaults s).2 = {s with
      overrides := []
      persist := some (if p.mounted && !p.dirty then (p.writeAll {s with overrides := []}).2 else p)} := by
  have none_ : s.overrides.filter (fun o => s.isPhy o.id) = [] := by
    rw [List.filter_eq_nil_iff]
    intro o member
    rw [fit.plain o member]
    decide
  constructor
  · exact ⟨fit.table,⟨fit.tidy.sound,List.nodup_nil,(by intro o member; cases member),fit.tidy.trialDistinct,fit.tidy.trialHeld⟩,fit.trial,
      fit.locked,(by intro o member; cases member)⟩
  · unfold SdStore.restoreDefaults Store.restoreDefaults
    simp only [SdPersist.ops,none_,List.take_nil,held]
    by_cases ready : (p.mounted && !p.dirty) = true
    · simp only [ready,Bool.not_true,Bool.false_eq_true,if_false,if_true]
    · simp only [Bool.not_eq_true _ ▸ ready,Bool.not_false,Bool.false_eq_true,if_false,if_true]

-- What the card says of the store, over a file that was there at the load.
structure SdStore.Kept (file : Bytes) (reads : Bool) (s : SdStore) : Prop where
  fit : SdStore.Fit s
  card : s.persist = some s.card
  out : s.card.mounted = false → s.card.dirty = true
  failed : s.card.lastWrite = some false → s.card.dirty = true
  written : s.card.dirty = false → s.card.lastWrite = some true → s.card.file = fileText (overriddenRows s)
  untouched : s.card.dirty = false → s.card.lastWrite = none → s.overrides = (SdStore.booted file reads).overrides ∧ s.card.file = file
  contents : s.card.file = file ∨ ∃ rows, s.card.file = fileText rows ∧ ∀ e ∈ rows, e.1.access ≠ .phy

theorem SdPersist.writeAll_cases (p : SdPersist) (store : SdStore) (mounted : p.mounted = true) :
    (p.writeAll store).2 = {p with file := fileText (overriddenRows store),dirty := false,lastWrite := some true} ∨
      (p.writeAll store).2 = {p with dirty := true,lastWrite := some false} := by
  unfold SdPersist.writeAll formatConfig
  rw [mounted]
  by_cases short : (fileText (overriddenRows store)).length < configFileCap
  · rw [if_pos short]
    cases ok : !(fileText (overriddenRows store)).isEmpty && !p.writeFails with
    | true => exact .inl (by simp [ok])
    | false => exact .inr (by simp [ok])
  · rw [if_neg short]
    exact .inr (by simp)

-- A card that says it is behind promises nothing more.
theorem SdStore.Kept.waits {file : Bytes} {reads : Bool} {s : SdStore} (fit : SdStore.Fit s) (card : s.persist = some s.card)
    (dirty : s.card.dirty = true) (contents : s.card.file = file ∨ ∃ rows, s.card.file = fileText rows ∧ ∀ e ∈ rows, e.1.access ≠ .phy) :
    SdStore.Kept file reads s := by
  have never : s.card.dirty ≠ false := by
    rw [dirty]
    decide
  exact ⟨fit,card,fun _ => dirty,fun _ => dirty,fun clean => absurd clean never,fun clean => absurd clean never,contents⟩

-- A whole write, taken or not, keeps the card honest.
theorem SdStore.Kept.write {file : Bytes} {reads : Bool} {s : SdStore} (fit : SdStore.Fit s) (p : SdPersist) (mounted : p.mounted = true)
    (contents : p.file = file ∨ ∃ rows, p.file = fileText rows ∧ ∀ e ∈ rows, e.1.access ≠ .phy) :
    SdStore.Kept file reads {s with persist := some (p.writeAll s).2} := by
  rcases p.writeAll_cases s mounted with is | is <;> rw [is]
  · refine ⟨fit.carded _,rfl,?_,?_,fun _ _ => rfl,?_,.inr ⟨_,rfl,?_⟩⟩
    · intro absent
      change p.mounted = false at absent
      rw [mounted] at absent
      cases absent
    · intro last
      cases last
    · intro _ last
      cases last
    · intro e member
      exact ((overriddenRows_mem s e).mp member).2.1
  · exact SdStore.Kept.waits (fit.carded _) rfl rfl contents

theorem SdStore.Kept.armed {file : Bytes} {reads : Bool} {s : SdStore} (kept : SdStore.Kept file reads s) (writeFails : Bool) :
    SdStore.Kept file reads (SdStore.armed s writeFails) :=
  ⟨kept.fit.carded _,rfl,kept.out,kept.failed,kept.written,kept.untouched,kept.contents⟩

-- New overrides over a card that is in order are written; over one that is not they wait, and the card says so.
theorem SdStore.Kept.changed {file : Bytes} {reads : Bool} {s : SdStore} (kept : SdStore.Kept file reads s) (overrides : List Override)
    (fit : SdStore.Fit {s with overrides := overrides}) :
    SdStore.Kept file reads {s with
      overrides := overrides
      persist := some (if s.card.mounted && !s.card.dirty then (s.card.writeAll {s with overrides := overrides}).2 else s.card)} := by
  cases ready : s.card.mounted && !s.card.dirty with
  | true =>
      rw [Bool.and_eq_true] at ready
      exact SdStore.Kept.write fit s.card ready.1 kept.contents
  | false =>
      have dirty : s.card.dirty = true := by
        cases mounted : s.card.mounted with
        | false => exact kept.out mounted
        | true => simpa [mounted] using ready
      exact SdStore.Kept.waits (fit.carded _) rfl dirty kept.contents

theorem SdStore.Kept.step {file : Bytes} {reads : Bool} (s : SdStore) (e : SdEvent) (kept : SdStore.Kept file reads s) :
    SdStore.Kept file reads (SdStore.step s e) := by
  cases e with
  | apply entry writeFails =>
      have armed := kept.armed writeFails
      rcases armed.fit.apply_cases _ armed.card entry with same | ⟨overrides,fit,is⟩
      · change SdStore.Kept file reads (SdStore.apply _ entry).store
        rw [same]
        exact armed
      · change SdStore.Kept file reads (SdStore.apply _ entry).store
        rw [is]
        exact armed.changed overrides fit
  | restoreDefaults writeFails =>
      have armed := kept.armed writeFails
      obtain ⟨fit,is⟩ := armed.fit.restoreDefaults_eq _ armed.card
      change SdStore.Kept file reads (SdStore.restoreDefaults _).2
      rw [is]
      exact armed.changed [] fit
  | refresh mounts writeFails =>
      have armed := kept.armed writeFails
      change SdStore.Kept file reads (SdStore.refresh (SdStore.armed s writeFails) mounts).2
      unfold SdStore.refresh
      split
      · exact armed
      · next idle =>
        cases mounts with
        | true => exact SdStore.Kept.write armed.fit {(SdStore.armed s writeFails).card with mounted := true} rfl armed.contents
        | false =>
            have dirty : (SdStore.armed s writeFails).card.dirty = true := by
              cases mounted : (SdStore.armed s writeFails).card.mounted with
              | false => exact armed.out mounted
              | true =>
                  rw [Store.usable,armed.card] at idle
                  simpa [SdPersist.ops,mounted] using idle
            exact SdStore.Kept.waits (armed.fit.carded _) rfl dirty armed.contents

theorem SdStore.Kept.begin_ (file : Bytes) (reads : Bool) : SdStore.Kept file reads (SdStore.booted file reads) := by
  obtain ⟨fit,card⟩ := SdStore.booted_fit file reads
  have is : (SdStore.booted file reads).card = {file := file,mounted := true} := by rw [SdStore.card,card]; rfl
  refine ⟨fit,by rw [is]; exact card,?_,?_,?_,fun _ _ => ⟨rfl,by rw [is]⟩,.inl (by rw [is])⟩
  · rw [is]
    intro absent
    cases absent
  · rw [is]
    intro last
    cases last
  · rw [is]
    intro _ last
    cases last

-- Stores that agree in their rows and overrides run alike.
theorem SdStore.Fit.alike {s t : SdStore} (fit : SdStore.Fit s) (other : SdStore.Fit t) (same : s.overrides = t.overrides) (id : UInt16) :
    s.effective id = t.effective id := by
  cases row : gateLinkTable.row id with
  | none => simp only [Store.effective,fit.table,other.table,row]
  | some d =>
      rw [SdStore.effective_plain fit id d (by rw [fit.table]; exact row),SdStore.effective_plain other id d (by rw [other.table]; exact row),same]

theorem SdStore.unpersisted_clean {s : SdStore} (claimed : SdStore.unpersisted s = false) : s.card.dirty = false := by
  rw [SdStore.unpersisted,Bool.or_eq_false_iff] at claimed
  exact claimed.1

theorem config_survives_reboot_when_persisted (file : Bytes) (reads : Bool) (s : SdStore)
    (path : Reached SdStore.step (fun _ _ => True) (SdStore.booted file reads) s) :
    (SdStore.unpersisted s = false → (SdStore.Survives s ↔ reads = true ∨ s.card.lastWrite = some true ∨
      ∀ id, (SdStore.reloaded file).effective id = (SdStore.fresh file).effective id)) ∧
    (s.card.lastWrite = some false → SdStore.unpersisted s = true) ∧
    (s.card.file = file ∨ ∃ rows, s.card.file = fileText rows ∧ ∀ e ∈ rows, e.1.access ≠ .phy) := by
  have kept : SdStore.Kept file reads s := path.invariant _ (SdStore.Kept.begin_ file reads) fun s e kept _ => kept.step s e
  refine ⟨?_,?_,kept.contents⟩
  · intro claimed
    have clean := SdStore.unpersisted_clean claimed
    cases last : s.card.lastWrite with
    | some ok =>
        cases ok with
        | false =>
            rw [kept.failed last] at clean
            cases clean
        | true =>
            refine iff_of_true ?_ (.inr (.inl rfl))
            intro id
            rw [kept.written clean last]
            exact kept.fit.back id
    | none =>
        obtain ⟨same,is⟩ := kept.untouched clean last
        have running := kept.fit.alike (SdStore.booted_fit file reads).1 same
        unfold SdStore.Survives
        rw [is]
        cases reads with
        | true => exact iff_of_true (fun id => (running id).symm) (.inl rfl)
        | false =>
            have defaults : ∀ id, s.effective id = (SdStore.fresh file).effective id := fun id =>
              (running id).trans ((SdStore.booted_fit file false).1.alike (SdStore.Fit.fresh _) rfl id)
            constructor
            · intro survives
              exact .inr (.inr fun id => (survives id).trans (defaults id))
            · rintro (read | wrote | bare)
              · cases read
              · cases wrote
              · exact fun id => (bare id).trans (defaults id).symm
  · intro last
    rw [SdStore.unpersisted,kept.failed last]
    rfl

-- A SET the card takes, on a card with no file.
def relayPulse : ConfigEntry := {paramId := 0x1000,ptype := ptypeU16,len := 2,value := packValue 2 700}

theorem config_survives_reboot_after_set : SdStore.Survives ([SdEvent.apply relayPulse false].foldl SdStore.step (SdStore.booted [] true)) := by
  have run : Follows SdStore.step (fun _ _ => True) (SdStore.booted [] true) [.apply relayPulse false] := ⟨trivial,trivial⟩
  have claimed : SdStore.unpersisted ([SdEvent.apply relayPulse false].foldl SdStore.step (SdStore.booted [] true)) = false := by decide +kernel
  exact ((config_survives_reboot_when_persisted [] true _ run.reached).1 claimed).mpr (.inl rfl)

-- The file is there and its read fails: the defaults run, and nothing says that the card holds something else.
theorem config_unread_file_not_reported : ∃ file s, Reached SdStore.step (fun _ _ => True) (SdStore.booted file false) s ∧
    SdStore.unpersisted s = false ∧ ¬ SdStore.Survives s := by
  refine ⟨nameBytes "\x7b\"relay_pulse_ms\": 700\x7d",_,.refl,by decide +kernel,?_⟩
  intro survives
  have same := survives 0x1000
  revert same
  decide +kernel

end LoraRan.GateLink
