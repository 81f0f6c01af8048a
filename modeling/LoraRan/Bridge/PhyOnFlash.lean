import LoraRan.Bridge.ClampedValues
import LoraRan.Bridge.PhyFlow

namespace LoraRan.Bridge
open Protocol Config Library.StepSystem
open ConfigStore (groupRows)

namespace NvsPersist
variable {p q r : NvsPersist}

-- Flash that keeps the group, and owes no answer it did not owe before.
structure Steady (p q : NvsPersist) : Prop where
  opened : q.open_ = p.open_
  rows : q.flashRows = p.flashRows
  owes : ∀ b, q.readBlob = some b → b.ackOwed = true → ∃ a, p.readBlob = some a ∧ a.ackOwed = true ∧ a.ackRows = b.ackRows

theorem Steady.trans (first : Steady p q) (later : Steady q r) : Steady p r := by
  refine ⟨later.opened.trans first.opened,later.rows.trans first.rows,fun b read owed => ?_⟩
  obtain ⟨a,readA,owedA,same⟩ := later.owes b read owed
  obtain ⟨c,readC,owedC,same'⟩ := first.owes a readA owedA
  exact ⟨c,readC,owedC,same'.trans same⟩

-- The blob is all that counts.
theorem steady_of_blob (opened : q.open_ = p.open_) (blob : q.phy = p.phy) : Steady p q := by
  have read : q.readBlob = p.readBlob := by
    unfold readBlob
    rw [opened,blob]
  exact ⟨opened,by unfold flashRows; rw [read],fun b here owed => ⟨b,by rw [← read]; exact here,owed,rfl⟩⟩

theorem Steady.refl (p : NvsPersist) : Steady p p := steady_of_blob rfl rfl

theorem put_blob (p : NvsPersist) (id : UInt16) (v : Option Value) : (p.put id v).2.open_ = p.open_ ∧ (p.put id v).2.phy = p.phy := by
  unfold put
  split <;> exact ⟨rfl,rfl⟩

theorem save_steady (p : NvsPersist) (id : UInt16) (v : Value) : Steady p (p.save id v).2 := by
  unfold save
  split
  · exact .refl p
  · exact steady_of_blob (p.put_blob id _).1 (p.put_blob id _).2

theorem clearAll_steady (p : NvsPersist) : Steady p p.clearAll.2 := by
  have fold : ∀ (ids : List UInt16) (now : Bool × NvsPersist), now.2.open_ = p.open_ ∧ now.2.phy = p.phy →
      let last := ids.foldl (fun now id =>
        if (phyIndexOf id).isSome || (now.2.keys id).isNone then now else (now.1 && (now.2.put id none).1,(now.2.put id none).2)) now
      last.2.open_ = p.open_ ∧ last.2.phy = p.phy := by
    intro ids
    induction ids with
    | nil => exact fun _ same => same
    | cons id rest ih =>
        intro now same
        apply ih
        dsimp only
        split
        · exact same
        · obtain ⟨opened,blob⟩ := now.2.put_blob id none
          exact ⟨opened.trans same.1,blob.trans same.2⟩
  unfold clearAll
  split
  · exact .refl p
  · obtain ⟨opened,blob⟩ := fold _ (true,p) ⟨rfl,rfl⟩
    exact steady_of_blob opened blob

-- A write of the blob is read back whole, or leaves it as it was.
theorem writeBlob_reads (p : NvsPersist) (b : PhyBlob) (opened : p.open_ = true) (small : b.rows.length ≤ phyGroupSize) :
    (p.writeBlob b).2.open_ = true ∧ ((p.writeBlob b).1 = true ∧ (p.writeBlob b).2.readBlob = some b ∨
      (p.writeBlob b).1 = false ∧ (p.writeBlob b).2.phy = p.phy) := by
  obtain ⟨bytes,encoded⟩ := b.encode_some small
  obtain ⟨decodes,fits,_⟩ := PhyBlob.decode_of_encode b bytes encoded
  unfold writeBlob
  rw [opened,encoded]
  simp only [Bool.not_true,Bool.false_eq_true,if_false]
  split
  · refine ⟨opened,.inl ⟨rfl,?_⟩⟩
    unfold readBlob
    change (if !p.open_ then none else _) = _
    rw [opened]
    simp only [Bool.not_true,Bool.false_eq_true,if_false,if_neg (Nat.not_lt.mpr fits)]
    exact decodes
  · exact ⟨opened,.inr ⟨rfl,rfl⟩⟩

theorem readBlob_small (b : PhyBlob) (read : p.readBlob = some b) : b.rows.length ≤ phyGroupSize := by
  unfold readBlob at read
  split at read
  · cases read
  · split at read
    · cases read
    · split at read
      · cases read
      · exact PhyBlob.decode_small _ b read

theorem flashRows_of (b : PhyBlob) (read : p.readBlob = some b) : p.flashRows = b.rows := by
  unfold flashRows
  rw [read]
  rfl

-- A blob rewritten with the rows it had, owing no more than it did.
theorem rewrite_steady (opened : p.open_ = true) (b : PhyBlob) (rows : b.rows = p.flashRows)
    (owes : b.ackOwed = true → ∃ a, p.readBlob = some a ∧ a.ackOwed = true ∧ a.ackRows = b.ackRows) : Steady p (p.writeBlob b).2 := by
  have small : b.rows.length ≤ phyGroupSize := by
    rw [rows]
    unfold flashRows
    cases read : p.readBlob with
    | none => exact Nat.zero_le _
    | some a => exact readBlob_small a read
  obtain ⟨still,⟨_,read⟩ | ⟨_,blob⟩⟩ := p.writeBlob_reads b opened small
  · refine ⟨still.trans opened.symm,(flashRows_of b read).trans rows,fun c readC owed => ?_⟩
    rw [read] at readC
    cases readC
    exact owes owed
  · exact steady_of_blob (still.trans opened.symm) blob

theorem markTrial_steady (opened : p.open_ = true) (marked : Bool) : Steady p (p.markTrial marked).2 := by
  unfold markTrial
  refine rewrite_steady opened _ ?_ fun owed => ?_
  · unfold flashRows
    cases p.readBlob <;> rfl
  · cases read : p.readBlob with
    | none =>
        rw [read] at owed
        cases owed
    | some a =>
        rw [read] at owed
        exact ⟨a,rfl,owed,rfl⟩

theorem clearOwedAck_steady (opened : p.open_ = true) : Steady p p.clearOwedAck.2 := by
  unfold clearOwedAck
  cases read : p.readBlob with
  | none => exact .refl p
  | some b =>
      dsimp only
      split
      · exact .refl p
      · exact rewrite_steady opened _ (flashRows_of b read).symm fun owed => by cases owed

-- The group and the staged answer are written together, or nothing is.
theorem saveGroup_reads (opened : p.open_ = true) (staged : p.ackStaged = true) (group : List (UInt16 × Value))
    (small : group.length ≤ phyGroupSize) :
    (p.saveGroup group).2.open_ = true ∧
      ((p.saveGroup group).1 = true ∧ (p.saveGroup group).2.readBlob = some {ackOwed := true,ackRows := p.ackRows,rows := group} ∨
        (p.saveGroup group).1 = false ∧ (p.saveGroup group).2.phy = p.phy) := by
  unfold saveGroup
  rw [if_neg (Nat.not_lt.mpr small),staged,if_pos rfl]
  exact writeBlob_reads {p with ackStaged := false} _ opened small

end NvsPersist

namespace ConfigStore
variable {c d e : ConfigStore NvsPersist}
open NvsPersist (Steady)

-- Everything about a PHY change in the store's memory and on its flash is as it was.
structure Stays (c d : ConfigStore NvsPersist) : Prop where
  enabled : d.phyTrialEnabled = c.phyTrialEnabled ∧ d.bridgeStore.phyTrialEnabled = c.bridgeStore.phyTrialEnabled
  trial : d.bridgeStore.trial = c.bridgeStore.trial
  flash : ∀ p, c.bridgeStore.persist = some p → ∃ q, d.bridgeStore.persist = some q ∧ Steady p q

theorem Stays.refl (c : ConfigStore NvsPersist) : Stays c c := ⟨⟨rfl,rfl⟩,rfl,fun p here => ⟨p,here,.refl p⟩⟩

theorem Stays.trans (first : Stays c d) (later : Stays d e) : Stays c e := by
  refine ⟨⟨later.enabled.1.trans first.enabled.1,later.enabled.2.trans first.enabled.2⟩,later.trial.trans first.trial,fun p here => ?_⟩
  obtain ⟨q,onD,steady⟩ := first.flash p here
  obtain ⟨r,onE,steady'⟩ := later.flash q onD
  exact ⟨r,onE,steady.trans steady'⟩

theorem onFlash_stays (c : ConfigStore NvsPersist) (f : NvsPersist → NvsPersist) (steady : ∀ p, c.bridgeStore.persist = some p → Steady p (f p)) :
    Stays c (c.onFlash f) := by
  refine ⟨⟨rfl,rfl⟩,rfl,fun p here => ⟨f p,?_,steady p here⟩⟩
  change c.bridgeStore.persist.map f = _
  rw [here]
  rfl

theorem saving_steady (s : Store NvsPersist) (id : UInt16) (v : Value) (p : NvsPersist) (here : s.persist = some p) :
    ∃ q, (s.saving nvsOps id v).2 = some q ∧ Steady p q := by
  unfold Store.saving
  rw [here]
  dsimp only
  split
  · exact ⟨_,rfl,p.save_steady id v⟩
  · exact ⟨p,rfl,.refl p⟩

-- A row of the store, not of the PHY group: the trial is not touched, nor the blob.
theorem plain_applied {s : Store NvsPersist} (tidy : s.Tidy) (row : ParamDef) (found : s.table.row row.id = some row) (plain : row.access ≠ .phy)
    (typed : row.type ∈ ptypes) (v : Value) :
    (s.apply nvsOps (entryFor row v)).store.phyTrialEnabled = s.phyTrialEnabled ∧ (s.apply nvsOps (entryFor row v)).store.trial = s.trial ∧
      ∀ p, s.persist = some p → ∃ q, (s.apply nvsOps (entryFor row v)).store.persist = some q ∧ Steady p q := by
  have named := (entryFor_shaped row typed v).2.1
  have possible := s.apply_case nvsOps tidy (entryFor row v)
  generalize s.apply nvsOps (entryFor row v) = a at possible ⊢
  have same : ∀ p, s.persist = some p → ∃ q, s.persist = some q ∧ Steady p q := fun p here => ⟨p,here,.refl p⟩
  cases possible with
  | unknown => exact ⟨rfl,rfl,same⟩
  | mismatched => exact ⟨rfl,rfl,same⟩
  | refused => exact ⟨rfl,rfl,same⟩
  | off => exact ⟨rfl,rfl,same⟩
  | tried row' found' _ _ _ phy =>
      rw [named,found] at found'
      cases found'
      exact absurd phy plain
  | kept row' _ _ _ _ => exact ⟨rfl,rfl,saving_steady s _ _⟩

theorem put_global (c : ConfigStore NvsPersist) (node : NodeId) (s : Store NvsPersist) :
    (c.put .bridgeGlobal node s) = {c with bridgeStore := s} := if_pos rfl

theorem put_other (c : ConfigStore NvsPersist) {owner : Owner} (other : owner ≠ .bridgeGlobal) (node : NodeId) (s : Store NvsPersist) :
    (c.put owner node s).bridgeStore = c.bridgeStore ∧ (c.put owner node s).phyTrialEnabled = c.phyTrialEnabled := by
  unfold ConfigStore.put
  rw [if_neg other]
  exact ⟨rfl,rfl⟩

theorem put_stays (c : ConfigStore NvsPersist) {owner : Owner} (other : owner ≠ .bridgeGlobal) (node : NodeId) (s : Store NvsPersist) :
    Stays c (c.put owner node s) := by
  obtain ⟨store,enabled⟩ := c.put_other other node s
  refine ⟨⟨enabled,by rw [store]⟩,by rw [store],fun p here => ⟨p,by rw [store]; exact here,.refl p⟩⟩

theorem applyEntry_stays (held : c.Held) (enabled : c.phyTrialEnabled = true) (scope : ConfigScope) (node : NodeId) (e : ConfigSetEntry) :
    Stays c (c.applyEntry nvsOps scope node e).store := by
  unfold ConfigStore.applyEntry
  split
  · exact .refl c
  · rename_i p found
    split
    · exact .refl c
    · rename_i v _
      split
      · exact .refl c
      · split
        · exact .refl c
        · rename_i notTrial
          split
          · exact .refl c
          · rename_i notNode
            split
            · exact .refl c
            · rename_i s holds
              by_cases global : p.owner = .bridgeGlobal
              · have plain : p.row.access ≠ .phy := fun phy => notTrial ⟨global,phy,enabled⟩
                obtain ⟨tidy,table⟩ := held.holder holds
                have member := (findParam_scope found).1
                have row : s.table.row p.row.id = some p.row := by
                  rw [table]
                  exact own_row member notNode
                rw [global] at holds ⊢
                cases holds
                obtain ⟨still,trial,flash⟩ := plain_applied tidy p.row row plain (scope_roomy member).1 v
                dsimp only
                rw [put_global]
                exact ⟨⟨rfl,still⟩,trial,flash⟩
              · exact c.put_stays global node _

theorem applyEntries_stays (held : c.Held) (enabled : c.phyTrialEnabled = true) (scope : ConfigScope) (node : NodeId) (cap : Nat)
    (entries : List ConfigSetEntry) : Stays c (c.applyEntries nvsOps scope node cap entries).store := by
  have fold : ∀ (entries : List ConfigSetEntry) (a : SetApplied NvsPersist), a.store.Held → Stays c a.store →
      Stays c (entries.foldl (fun a e => if a.results.length < cap then a.take (a.store.applyEntry nvsOps scope node e) else a) a).store := by
    intro entries
    induction entries with
    | nil => exact fun _ _ stays => stays
    | cons e rest ih =>
        intro a now stays
        rw [List.foldl_cons]
        split
        · exact ih _ (now.applyEntry scope node e) (stays.trans (applyEntry_stays now (stays.enabled.1.trans enabled) scope node e))
        · exact ih a now stays
  exact fold entries _ held (.refl c)

theorem restoreDefaults_stays (held : c.Held) (scope : ConfigScope) : Stays c (c.restoreDefaults nvsOps scope) := by
  unfold ConfigStore.restoreDefaults
  split
  · obtain ⟨persist,same,kept⟩ := held.bridge.1.restoreDefaults nvsOps
    rw [same]
    refine ⟨⟨rfl,rfl⟩,rfl,fun p here => ?_⟩
    rcases kept with ⟨_,q,onC,_,_,rfl⟩ | ⟨_,⟨q,onC,_,_,rfl⟩ | ⟨_,unmoved⟩⟩
    · rw [onC] at here
      cases here
      exact ⟨_,rfl,p.clearAll_steady⟩
    · rw [onC] at here
      cases here
      exact ⟨_,rfl,p.clearAll_steady⟩
    · exact ⟨p,unmoved.trans here,.refl p⟩
  · exact .refl c

theorem noteSetResults_stays (c : ConfigStore NvsPersist) (node : NodeId) (results : List ConfigAckEntry) : Stays c (c.noteSetResults node results) := by
  unfold ConfigStore.noteSetResults
  split
  · exact .refl c
  · exact ⟨⟨rfl,rfl⟩,rfl,fun p here => ⟨p,here,.refl p⟩⟩

theorem noteReadback_stays (c : ConfigStore NvsPersist) (node : NodeId) (results : List ConfigAckEntry) : Stays c (c.noteReadback node results) := by
  unfold ConfigStore.noteReadback
  split
  · exact .refl c
  · have emptied : Stays c {c with mirror := Function.update c.mirror node []} := ⟨⟨rfl,rfl⟩,rfl,fun p here => ⟨p,here,.refl p⟩⟩
    exact emptied.trans (noteSetResults_stays _ node results)

end ConfigStore

-- The group's rows.

def phyId (k : Fin phyGroupSize) : UInt16 := bridgePhyIds.getD k 0

-- What is read off the table, all at once.
theorem phy_table :
    (∀ k : Fin phyGroupSize, (bridgePhyRow k).map ParamDef.id = some (phyId k) ∧
      (bridgePhyRow k).all (fun d => decide (d.access = .phy ∧ d ∈ bridgeGlobalParams)) = true ∧ phyIndexOf (phyId k) = some k ∧
      ((List.finRange phyGroupSize).find? fun j => phyId j == phyId k) = some k) ∧
    ((List.finRange phyGroupSize).map phyId).Nodup ∧
    (bridgeGlobalParams.filter fun d => d.access = .phy) = (List.finRange phyGroupSize).filterMap bridgePhyRow ∧
    ∀ d ∈ bridgeGlobalParams, ∀ k ∈ phyIndexOf d.id, bridgePhyRow k = some d := by decide +kernel

theorem bridgePhyRow_spec : ∀ k : Fin phyGroupSize, (bridgePhyRow k).map ParamDef.id = some (phyId k) ∧
    (bridgePhyRow k).all (fun d => decide (d.access = .phy ∧ d ∈ bridgeGlobalParams)) = true ∧ phyIndexOf (phyId k) = some k ∧
    ((List.finRange phyGroupSize).find? fun j => phyId j == phyId k) = some k := phy_table.1

theorem bridgePhyRow_row (k : Fin phyGroupSize) :
    ∃ d, bridgePhyRow k = some d ∧ bridgeGlobalParams.row (phyId k) = some d ∧ d.id = phyId k ∧ d.access = .phy ∧ d ∈ bridgeGlobalParams := by
  obtain ⟨named,kind,_⟩ := bridgePhyRow_spec k
  obtain ⟨d,here,same⟩ := Option.map_eq_some_iff.mp named
  rw [here] at kind
  obtain ⟨phy,member⟩ := of_decide_eq_true kind
  exact ⟨d,here,here,same,phy,member⟩

-- A group every row would keep.
def FitGroup (g : PhyGroup) : Prop := ∀ k d, bridgePhyRow k = some d → Settled d (g k)

theorem groupRows_ids (g : PhyGroup) : (groupRows g).map (fun row => (row.1.id,row.2)) = groupIds g := by
  unfold groupRows groupIds
  rw [List.map_filterMap]
  have all : ∀ k : Fin phyGroupSize, Option.map (fun row : ParamDef × Value => (row.1.id,row.2)) ((bridgePhyRow k).map fun d => (d,g k)) =
      some (phyId k,g k) := by
    intro k
    obtain ⟨d,here,_,same,_⟩ := bridgePhyRow_row k
    rw [here]
    exact congrArg (fun id => some (id,g k)) same
  have listed : (List.finRange phyGroupSize).map (fun (k : Fin phyGroupSize) => (bridgePhyIds.getD k 0,g k)) =
      (List.finRange phyGroupSize).map fun k => (phyId k,g k) := rfl
  rw [listed,← List.filterMap_eq_map']
  exact congrArg (fun f => (List.finRange phyGroupSize).filterMap f) (funext all)

theorem groupIds_find (g : PhyGroup) (k : Fin phyGroupSize) : ((groupIds g).find? fun row => row.1 == phyId k) = some (phyId k,g k) := by
  unfold groupIds
  rw [List.find?_map]
  have first := (bridgePhyRow_spec k).2.2.2
  have same : ((fun row : UInt16 × Value => row.1 == phyId k) ∘ fun (j : Fin phyGroupSize) => (bridgePhyIds.getD j 0,g j)) =
      fun j => phyId j == phyId k := rfl
  rw [same,first]
  rfl

theorem groupIds_distinct (g : PhyGroup) : ((groupIds g).map Prod.fst).Nodup := by
  have ids : (groupIds g).map Prod.fst = (List.finRange phyGroupSize).map phyId := by
    unfold groupIds
    rw [List.map_map]
    rfl
  rw [ids]
  exact phy_table.2.1

theorem groupIds_small (g : PhyGroup) : (groupIds g).length ≤ phyGroupSize := by
  unfold groupIds
  rw [List.length_map,List.length_finRange]

theorem groupRows_mem {g : PhyGroup} {row : ParamDef × Value} (member : row ∈ groupRows g) :
    ∃ k, bridgePhyRow k = some row.1 ∧ row.2 = g k := by
  obtain ⟨k,_,made⟩ := List.mem_filterMap.mp member
  obtain ⟨d,here,rfl⟩ := Option.map_eq_some_iff.mp made
  exact ⟨k,here,rfl⟩

-- An entry packed from a value its row would keep asks for that value.
theorem entryFor_exact {d : ParamDef} (roomy : Roomy d) {v : Value} (settled : Settled d v) :
    (entryFor d v).paramId = d.id ∧ Exact d (entryFor d v) ∧ ConfigEntry.asked (entryFor d v) = v := by
  obtain ⟨typed,order,low,high⟩ := roomy
  obtain ⟨shaped,named,asked⟩ := entryFor_shaped d typed v
  have range := clamp_range d order v
  rw [settled.1] at range
  have same : ConfigEntry.asked (entryFor d v) = v := by
    refine int32_same ?_
    rw [asked,signed_pack d.type typed v]
    exact wrapped_between d.type _ _ _ low high range.1 range.2
  refine ⟨named,⟨shaped,?_⟩,same⟩
  rw [same]
  exact settled

namespace ConfigStore
variable {c : ConfigStore NvsPersist}
open NvsPersist (Steady)

theorem applyRows_fit (rows : List (ParamDef × Value)) {s : Store NvsPersist} (tidy : s.Tidy) (writable : s.phyWritable nvsOps = true)
    (fit : ∀ row ∈ rows, s.table.row row.1.id = some row.1 ∧ row.1.access = .phy ∧ Roomy row.1 ∧ Settled row.1 row.2) :
    applyRows nvsOps rows s = (true,{s with trial := (rows.map fun row => (row.1.id,row.2)).foldl (fun trial row => setValue trial row.1 row.2) s.trial}) := by
  unfold applyRows
  induction rows generalizing s with
  | nil => rfl
  | cons row rest ih =>
      obtain ⟨found,phy,roomy,settled⟩ := fit row List.mem_cons_self
      obtain ⟨named,precise,asked⟩ := entryFor_exact roomy settled
      have found' : s.table.row (entryFor row.1 row.2).paramId = some row.1 := by
        rw [named]
        exact found
      have taken : Taken row.1 (entryFor row.1 row.2) := precise.taken
      rw [List.foldl_cons]
      rcases Store.apply_phy nvsOps tidy _ row.1 found' phy with ⟨_,_,store,ok⟩ | ⟨refused,_⟩
      · rw [named,asked,settled.1] at store
        have yes : ((s.apply nvsOps (entryFor row.1 row.2)).result.status == ParamStatus.ok.code) = true := by
          rw [ok.mpr precise]
          rfl
        rw [yes,store]
        refine (ih (tidy.setTrial row.1.id row.1 row.2 found phy settled) writable fun other member => ?_).trans ?_
        · exact fit other (List.mem_cons_of_mem row member)
        · rfl
      · exact absurd ⟨taken,writable⟩ refused

-- The trial holds a group, row for row.
def Tried (c : ConfigStore NvsPersist) (g : PhyGroup) : Prop := ∀ k, valueAt c.bridgeStore.trial (phyId k) = some ⟨phyId k,g k⟩

theorem beginPhyTrial_fit (held : c.Held) (enabled : c.phyTrialEnabled = true) (writable : c.bridgeStore.phyWritable nvsOps = true) {g : PhyGroup}
    (fit : FitGroup g) : (c.beginPhyTrial nvsOps g).2.Tried g ∧ (c.beginPhyTrial nvsOps g).2.phyTrialEnabled = true ∧
      (c.beginPhyTrial nvsOps g).2.bridgeStore.phyTrialEnabled = c.bridgeStore.phyTrialEnabled ∧
      (c.beginPhyTrial nvsOps g).2.bridgeStore.persist = c.bridgeStore.persist := by
  have rows : ∀ row ∈ groupRows g, c.bridgeStore.table.row row.1.id = some row.1 ∧ row.1.access = .phy ∧ Roomy row.1 ∧ Settled row.1 row.2 := by
    intro row member
    obtain ⟨k,here,value⟩ := groupRows_mem member
    obtain ⟨d,here',found,same,phy,inside⟩ := bridgePhyRow_row k
    rw [here] at here'
    cases here'
    rw [held.bridge.2,same,value]
    exact ⟨found,phy,tables_roomy _ (by simp [inside]),fit k _ here⟩
  unfold ConfigStore.beginPhyTrial
  rw [enabled,applyRows_fit (groupRows g) held.bridge.1 writable rows]
  simp only [Bool.not_true,Bool.false_eq_true,if_false,if_true]
  refine ⟨fun k => ?_,trivial,trivial,trivial⟩
  change valueAt (List.foldl _ c.bridgeStore.trial _) (phyId k) = _
  rw [groupRows_ids,valueAt_setAll _ _ _ (groupIds_distinct g),groupIds_find]

theorem phyRows_bridge : (bridgeGlobalParams.filter fun d => d.access = .phy) = (List.finRange phyGroupSize).filterMap bridgePhyRow := phy_table.2.2.1

theorem phyRows_all : ((List.finRange phyGroupSize).filterMap bridgePhyRow).take phyGroupSize = (List.finRange phyGroupSize).filterMap bridgePhyRow := by
  refine List.take_of_length_le ((List.length_filterMap_le _ _).trans ?_)
  rw [List.length_finRange]

-- What a commit writes of a trial that holds a whole group is that group.
theorem group_tried (held : c.Held) {g : PhyGroup} (tried : c.Tried g) : c.bridgeStore.group = groupIds g := by
  unfold Store.group Store.phyRows
  rw [held.bridge.2,phyRows_bridge,phyRows_all,List.map_filterMap]
  have all : ∀ k : Fin phyGroupSize, Option.map (fun d : ParamDef => (d.id,c.bridgeStore.effective d.id)) (bridgePhyRow k) = some (phyId k,g k) := by
    intro k
    obtain ⟨d,here,found,same,_⟩ := bridgePhyRow_row k
    rw [here]
    change some (d.id,c.bridgeStore.effective d.id) = _
    rw [same,c.bridgeStore.effective_row (phyId k) d (by rw [held.bridge.2]; exact found),tried k]
    rfl
  have listed : groupIds g = (List.finRange phyGroupSize).map fun k => (phyId k,g k) := rfl
  rw [listed,← List.filterMap_eq_map']
  exact congrArg (fun f => (List.finRange phyGroupSize).filterMap f) (funext all)

-- The commit of a trial: the group and its staged answer are on flash, or the flash is as it was.
theorem commit_tried (held : c.Held) {g : PhyGroup} (tried : c.Tried g) {p : NvsPersist} (here : c.bridgeStore.persist = some p) (opened : p.open_ = true)
    (staged : p.ackStaged = true) :
    ∃ q, (c.commitPhyTrial nvsOps).2.bridgeStore.persist = some q ∧ q.open_ = true ∧
      (c.commitPhyTrial nvsOps).2.phyTrialEnabled = c.phyTrialEnabled ∧
      (c.commitPhyTrial nvsOps).2.bridgeStore.phyTrialEnabled = c.bridgeStore.phyTrialEnabled ∧
      ((c.commitPhyTrial nvsOps).1 = true ∧ q.readBlob = some {ackOwed := true,ackRows := p.ackRows,rows := groupIds g} ∨
        (c.commitPhyTrial nvsOps).1 = false ∧ q.phy = p.phy) := by
  have saved := NvsPersist.saveGroup_reads opened staged (groupIds g) (groupIds_small g)
  rw [← group_tried held tried] at saved
  unfold ConfigStore.commitPhyTrial
  dsimp only
  rcases held.bridge.1.commit nvsOps with ⟨_,idle,_⟩ | ⟨persist,failed,same,kept⟩ | ⟨p',here',done,written,same⟩
  · have first := tried ⟨0,by decide⟩
    rw [idle] at first
    cases first
  · rw [same,failed]
    rcases kept with unmoved | ⟨p',here',refused,rfl⟩
    · exact ⟨p,unmoved.trans here,opened,rfl,rfl,.inr ⟨rfl,rfl⟩⟩
    · rw [here] at here'
      cases here'
      obtain ⟨still,⟨written,_⟩ | ⟨_,blob⟩⟩ := saved
      · exact absurd (refused.symm.trans written) (by decide)
      · exact ⟨_,rfl,still,rfl,rfl,.inr ⟨rfl,blob⟩⟩
  · rw [here] at here'
    cases here'
    rw [same,done]
    obtain ⟨still,⟨_,read⟩ | ⟨failed,_⟩⟩ := saved
    · rw [group_tried held tried] at read
      exact ⟨_,rfl,still,rfl,rfl,.inl ⟨rfl,by rw [group_tried held tried]; exact read⟩⟩
    · exact absurd (failed.symm.trans written) (by decide)

-- What the group runs at is what its rows would keep.
theorem phyGroup_fit (held : c.Held) : FitGroup c.phyGroup := by
  intro k d here
  obtain ⟨d',here',found,same,_⟩ := bridgePhyRow_row k
  rw [here] at here'
  cases here'
  exact held.bridge.1.effective_settled (phyId k) d (by rw [held.bridge.2]; exact found)

theorem phyIndexOf_row : ∀ d ∈ bridgeGlobalParams, ∀ k ∈ phyIndexOf d.id, bridgePhyRow k = some d := phy_table.2.2.2

theorem take_fit (r : PhyRequest) (fit : FitGroup r.target) (e : ConfigSetEntry) : FitGroup (r.take e).target := by
  unfold PhyRequest.take
  split
  · rename_i p asked found _
    split
    · exact fit
    · split
      · exact fit
      · rename_i k index
        have member := (findParam_scope found).1
        have inside : p.row ∈ bridgeGlobalParams := by
          have listed := (List.mem_filter.mp member).1
          have owner : p.owner = .bridgeGlobal := of_decide_eq_true (List.mem_filter.mp member).2
          rcases List.mem_append.mp listed with global | perNode
          · obtain ⟨d,here,rfl⟩ := List.mem_map.mp global
            exact here
          · obtain ⟨d,_,rfl⟩ := List.mem_map.mp perNode
            cases owner
        have row := phyIndexOf_row p.row inside k index
        dsimp only
        split
        · exact fit
        · rename_i listed
          intro j d here
          change Settled d (Function.update r.target k (clamp asked p.row) j)
          by_cases same : j = k
          · subst same
            rw [Function.update_self]
            rw [row] at here
            cases here
            exact clamp_settled asked p.row (Int32.le_of_lt (scope_roomy member).2.1) (by simpa using listed)
          · rw [Function.update_of_ne same]
            exact fit j d here
  · exact fit

-- A group the bridge is asked for is one every row would keep.
theorem phyRequest_fit (held : c.Held) (req : ConfigSetRequest) : FitGroup (c.phyRequest req).2.target := by
  have fold : ∀ (entries : List ConfigSetEntry) (r : PhyRequest), FitGroup r.target → FitGroup (entries.foldl PhyRequest.take r).target := by
    intro entries
    induction entries with
    | nil => exact fun _ fit => fit
    | cons e rest ih => exact fun r fit => ih _ (take_fit r fit e)
  unfold ConfigStore.phyRequest
  dsimp only
  split
  · exact phyGroup_fit held
  · exact fold req.entries _ (phyGroup_fit held)

end ConfigStore

-- Restoring from flash.

section
variable {π : Type} (ops : Persist π) (load : UInt16 → Option Value)

def restoring (s : Store π) (id : UInt16) : Store π :=
  match load id with
  | none => s
  | some v => (s.restore ops id v).2

-- The value a PHY row takes from flash.
def fromFlash (d : ParamDef) (loaded : Option Value) : Option Value := (loaded.map fun v => clamp v d).filter (valueAllowed d)

variable {ops load}

theorem restore_phy {s : Store π} (tidy : s.Tidy) (writable : s.phyWritable ops = true) (id : UInt16) (d : ParamDef)
    (found : s.table.row id = some d) (phy : d.access = .phy) (v : Value) :
    (s.restore ops id v).2 = if valueAllowed d (clamp v d) = true then {s with overrides := setValue s.overrides id (clamp v d)} else s := by
  unfold Store.restore
  have open_ : ¬ (d.access = .readOnly ∨ d.access = .phy ∧ (!s.phyWritable ops) = true) := by
    rw [phy,writable]
    decide
  rw [found]
  dsimp only
  rw [if_neg open_]
  cases allowed : valueAllowed d (clamp v d) with
  | false => rfl
  | true =>
      have settled := clamp_settled v d (tidy.sound.ranges d (row_mem s.table id d found).1) allowed
      have access : d.access ≠ .readOnly := by
        rw [phy]
        decide
      rw [(tidy.setOverride id d _ found access settled).1]
      rfl

-- A row's restore leaves the others, and everything but the overrides.
theorem restoring_keeps {s : Store π} (tidy : s.Tidy) (id : UInt16) :
    (restoring ops load s id).Tidy ∧ (∃ overrides, restoring ops load s id = {s with overrides := overrides}) ∧
      ∀ other, other ≠ id → valueAt (restoring ops load s id).overrides other = valueAt s.overrides other := by
  unfold restoring
  split
  · exact ⟨tidy,⟨s.overrides,rfl⟩,fun _ _ => rfl⟩
  · rename_i v _
    refine ⟨tidy.restored ops id v,?_⟩
    rcases tidy.restore ops id v with same | ⟨d,_,_,_,same⟩
    · rw [same]
      exact ⟨⟨s.overrides,rfl⟩,fun _ _ => rfl⟩
    · rw [same]
      exact ⟨⟨_,rfl⟩,fun other away => by rw [valueAt_setValue,if_neg away]⟩

theorem restoring_phy {s : Store π} (tidy : s.Tidy) (writable : s.phyWritable ops = true) (id : UInt16) (d : ParamDef)
    (found : s.table.row id = some d) (phy : d.access = .phy) (absent : valueAt s.overrides id = none) :
    (valueAt (restoring ops load s id).overrides id).map Override.value = fromFlash d (load id) := by
  unfold restoring fromFlash
  cases load id with
  | none => exact congrArg (Option.map Override.value) absent
  | some v =>
      change (valueAt (s.restore ops id v).2.overrides id).map Override.value = (some (clamp v d)).filter (valueAllowed d)
      rw [restore_phy tidy writable id d found phy v,Option.filter_some]
      split
      · rw [valueAt_setValue,if_pos rfl]
        rfl
      · rw [absent]
        rfl

theorem restoring_all (ids : List UInt16) (distinct : ids.Nodup) {s : Store π} (tidy : s.Tidy) (writable : s.phyWritable ops = true) :
    (ids.foldl (restoring ops load) s).Tidy ∧ (∃ overrides, ids.foldl (restoring ops load) s = {s with overrides := overrides}) ∧
      (∀ other, other ∉ ids → valueAt (ids.foldl (restoring ops load) s).overrides other = valueAt s.overrides other) ∧
      ∀ id ∈ ids, ∀ d, s.table.row id = some d → d.access = .phy → valueAt s.overrides id = none →
        (valueAt (ids.foldl (restoring ops load) s).overrides id).map Override.value = fromFlash d (load id) := by
  induction ids generalizing s with
  | nil => exact ⟨tidy,⟨s.overrides,rfl⟩,fun _ _ => rfl,fun _ member => absurd member List.not_mem_nil⟩
  | cons first rest ih =>
      obtain ⟨fresh,distinct⟩ := List.nodup_cons.mp distinct
      obtain ⟨tidy',⟨overrides,same⟩,others⟩ := restoring_keeps tidy first
      have writable' : (restoring ops load s first).phyWritable ops = true := by
        rw [same]
        exact writable
      obtain ⟨done,⟨last,final⟩,away,there⟩ := ih distinct tidy' writable'
      rw [List.foldl_cons]
      refine ⟨done,⟨last,by rw [final,same]⟩,fun other missing => ?_,fun id member d found phy absent => ?_⟩
      · rw [away other fun inside => missing (List.mem_cons_of_mem first inside),others other fun here => missing (by rw [here]; exact List.mem_cons_self)]
      · have found' : (restoring ops load s first).table.row id = some d := by
          rw [same]
          exact found
        rcases List.mem_cons.mp member with rfl | inside
        · rw [away id fresh]
          exact restoring_phy tidy writable id d found phy absent
        · refine there id inside d found' phy ?_
          rw [others id fun here => fresh (by rw [← here]; exact inside)]
          exact absent

end

-- The group a restart comes up with, from the rows on flash.
def storedGroup (rows : List (UInt16 × Value)) : PhyGroup := fun k =>
  match bridgePhyRow k with
  | none => 0
  | some d => (fromFlash d ((rows.find? fun row => row.1 == phyId k).map Prod.snd)).getD d.default

theorem storedGroup_ids {g : PhyGroup} (fit : FitGroup g) : storedGroup (groupIds g) = g := by
  funext k
  obtain ⟨d,here,_⟩ := bridgePhyRow_row k
  obtain ⟨clamped,allowed⟩ := fit k d here
  unfold storedGroup fromFlash
  rw [here,groupIds_find]
  simp only [Option.map_some,clamped,Option.filter_some,allowed,if_true,Option.getD_some]

theorem load_phy {p : NvsPersist} (opened : p.open_ = true) (k : Fin phyGroupSize) :
    p.load (phyId k) = (p.flashRows.find? fun row => row.1 == phyId k).map Prod.snd := by
  unfold NvsPersist.load NvsPersist.flashRows
  rw [opened,(bridgePhyRow_spec k).2.2.1]
  cases p.readBlob <;> rfl

namespace ConfigStore
variable {c : ConfigStore NvsPersist}
open NvsPersist (Steady)

def bridgeIds : List UInt16 := (scopeRows .bridge nodeBridge).map fun row => row.row.id

theorem bridge_table :
    bridgeIds.Nodup ∧ (∀ k : Fin phyGroupSize, phyId k ∈ bridgeIds) ∧
    ∀ row ∈ scopeRows .bridge nodeBridge, row.owner = .bridgeGlobal ∧
      ((scopeRows .bridge nodeBridge).find? fun other => other.row.id == row.row.id) = some row := by decide +kernel

theorem bridgeIds_distinct : bridgeIds.Nodup := bridge_table.1

theorem phyId_bridge (k : Fin phyGroupSize) : phyId k ∈ bridgeIds := bridge_table.2.1 k

theorem bridge_rows : ∀ row ∈ scopeRows .bridge nodeBridge, row.owner = .bridgeGlobal ∧
    ((scopeRows .bridge nodeBridge).find? fun other => other.row.id == row.row.id) = some row := bridge_table.2.2

theorem restore_bridge (c : ConfigStore NvsPersist) (row : OwnedParam) (member : row ∈ scopeRows .bridge nodeBridge) (v : Value) :
    (c.restore nvsOps .bridge nodeBridge row.row.id v).2 = {c with bridgeStore := (c.bridgeStore.restore nvsOps row.row.id v).2} := by
  obtain ⟨owner,first⟩ := bridge_rows row member
  unfold ConfigStore.restore
  rw [first]
  dsimp only
  rw [owner]
  rfl

theorem nvsRestore_bridge (c : ConfigStore NvsPersist) (p : NvsPersist) (opened : p.open_ = true) :
    c.nvsRestore .bridge nodeBridge p = {c with bridgeStore := bridgeIds.foldl (restoring nvsOps p.load) c.bridgeStore} := by
  have fold : ∀ (rows : List OwnedParam) (c : ConfigStore NvsPersist), (∀ row ∈ rows, row ∈ scopeRows .bridge nodeBridge) →
      rows.foldl (nvsRestoreRow .bridge nodeBridge p) c =
        {c with bridgeStore := (rows.map fun row => row.row.id).foldl (restoring nvsOps p.load) c.bridgeStore} := by
    intro rows
    induction rows with
    | nil => exact fun _ _ => rfl
    | cons row rest ih =>
        intro c inside
        have member := inside row List.mem_cons_self
        have owner : row.owner ≠ .node := by
          rw [(bridge_rows row member).1]
          decide
        have turn : nvsRestoreRow .bridge nodeBridge p c row = {c with bridgeStore := restoring nvsOps p.load c.bridgeStore row.row.id} := by
          unfold nvsRestoreRow restoring
          rw [if_neg owner]
          cases p.load row.row.id with
          | none => rfl
          | some v => exact restore_bridge c row member v
        rw [List.foldl_cons,List.map_cons,List.foldl_cons,turn,ih _ fun other here => inside other (List.mem_cons_of_mem row here)]
  unfold ConfigStore.nvsRestore
  rw [opened]
  exact fold _ c fun _ member => member

theorem restore_node (held : c.Held) (node : NodeId) (id : UInt16) (v : Value) :
    (c.restore nvsOps .node node id v).2.Held ∧ (c.restore nvsOps .node node id v).2.bridgeStore = c.bridgeStore ∧
      (c.restore nvsOps .node node id v).2.phyTrialEnabled = c.phyTrialEnabled := by
  refine ⟨held.restore .node node id v,?_⟩
  unfold ConfigStore.restore
  split
  · exact ⟨rfl,rfl⟩
  · rename_i q first
    split
    · exact ⟨rfl,rfl⟩
    · split
      · exact ⟨rfl,rfl⟩
      · have member := List.mem_of_find?_eq_some first
        have other : q.owner ≠ .bridgeGlobal := by
          rcases List.mem_append.mp member with perNode | own
          · rw [of_decide_eq_true (List.mem_filter.mp perNode).2]
            decide
          · obtain ⟨d,_,rfl⟩ := List.mem_map.mp own
            exact Owner.noConfusion
        exact c.put_other other node _

-- A node's rows are not in the bridge's own store.
theorem nvsRestore_node (held : c.Held) (node : NodeId) (p : NvsPersist) :
    (c.nvsRestore .node node p).Held ∧ (c.nvsRestore .node node p).bridgeStore = c.bridgeStore ∧
      (c.nvsRestore .node node p).phyTrialEnabled = c.phyTrialEnabled := by
  have fold : ∀ (rows : List OwnedParam) (c : ConfigStore NvsPersist), c.Held →
      (rows.foldl (nvsRestoreRow .node node p) c).Held ∧ (rows.foldl (nvsRestoreRow .node node p) c).bridgeStore = c.bridgeStore ∧
        (rows.foldl (nvsRestoreRow .node node p) c).phyTrialEnabled = c.phyTrialEnabled := by
    intro rows
    induction rows with
    | nil => exact fun _ held => ⟨held,rfl,rfl⟩
    | cons row rest ih =>
        intro c held
        have turn : (nvsRestoreRow .node node p c row).Held ∧ (nvsRestoreRow .node node p c row).bridgeStore = c.bridgeStore ∧
            (nvsRestoreRow .node node p c row).phyTrialEnabled = c.phyTrialEnabled := by
          unfold nvsRestoreRow
          split
          · exact ⟨held,rfl,rfl⟩
          · split
            · exact ⟨held,rfl,rfl⟩
            · exact restore_node held node _ _
        obtain ⟨later,store,enabled⟩ := ih _ turn.1
        exact ⟨later,store.trans turn.2.1,enabled.trans turn.2.2⟩
  unfold ConfigStore.nvsRestore
  split
  · exact ⟨held,rfl,rfl⟩
  · exact fold _ c held

theorem nodes_restored (perNode : NodeId → NvsPersist) (held : c.Held) :
    (c.nvsRestoreNodes perNode).Held ∧ (c.nvsRestoreNodes perNode).bridgeStore = c.bridgeStore ∧
      (c.nvsRestoreNodes perNode).phyTrialEnabled = c.phyTrialEnabled := by
  unfold nvsRestoreNodes
  induction nodeTable generalizing c with
  | nil => exact ⟨held,rfl,rfl⟩
  | cons node rest ih =>
      obtain ⟨now,store,enabled⟩ := nvsRestore_node held node (perNode node)
      obtain ⟨later,store',enabled'⟩ := ih now
      exact ⟨later,store'.trans store,enabled'.trans enabled⟩

-- The bridge's store as it comes up, before and after the restore.
def freshStore (p : NvsPersist) : Store NvsPersist := {table := bridgeGlobalParams,persist := some p,phyTrialEnabled := true}

def restoredStore (p : NvsPersist) : Store NvsPersist := bridgeIds.foldl (restoring nvsOps p.load) (freshStore p)

theorem restoredStore_spec (p : NvsPersist) (opened : p.open_ = true) :
    (restoredStore p).Tidy ∧ (∃ overrides, restoredStore p = {freshStore p with overrides := overrides}) ∧
      ∀ k, (restoredStore p).effective (phyId k) = storedGroup p.flashRows k := by
  have tidy : (freshStore p).Tidy :=
    ⟨bridgeGlobal_sound,List.nodup_nil,fun _ member => absurd member List.not_mem_nil,List.nodup_nil,fun _ member => absurd member List.not_mem_nil⟩
  have writable : (freshStore p).phyWritable nvsOps = true := by
    change (true && p.open_) = true
    rw [opened]
    rfl
  have all : (restoredStore p).Tidy ∧ _ := restoring_all bridgeIds bridgeIds_distinct tidy writable
  obtain ⟨done,⟨overrides,same⟩,_,there⟩ := all
  refine ⟨done,⟨overrides,same⟩,fun k => ?_⟩
  obtain ⟨d,here,found,_,phy,_⟩ := bridgePhyRow_row k
  have value := there (phyId k) (phyId_bridge k) d found phy rfl
  have table : (restoredStore p).table.row (phyId k) = some d := by
    rw [restoredStore,same]
    exact found
  have idle : (restoredStore p).trial = [] := by
    rw [restoredStore,same]
    rfl
  rw [Store.effective_row _ (phyId k) d table,idle,restoredStore,value,load_phy opened k]
  unfold storedGroup
  rw [here]
  rfl

-- The configuration with everything read back, the marker still as it was.
def loaded (p : NvsPersist) (perNode : NodeId → NvsPersist) : ConfigStore NvsPersist :=
  (((begin_ (some p) fun node => some (perNode node)).enablePhyTrial nvsOps).nvsRestore .bridge nodeBridge p).nvsRestoreNodes perNode

theorem loaded_spec (p : NvsPersist) (opened : p.open_ = true) (perNode : NodeId → NvsPersist) :
    (loaded p perNode).Held ∧ (loaded p perNode).bridgeStore = restoredStore p ∧ (loaded p perNode).phyTrialEnabled = true := by
  have start : (begin_ (some p) fun node => some (perNode node)).Held := begin_held _ _
  have ready : ((begin_ (some p) fun node => some (perNode node)).enablePhyTrial nvsOps).Held := start.step .enablePhyTrial
  have bridge := nvsRestore_bridge ((begin_ (some p) fun node => some (perNode node)).enablePhyTrial nvsOps) p opened
  have store : (((begin_ (some p) fun node => some (perNode node)).enablePhyTrial nvsOps).nvsRestore .bridge nodeBridge p).bridgeStore =
      restoredStore p := by
    rw [bridge]
    rfl
  have restored : (((begin_ (some p) fun node => some (perNode node)).enablePhyTrial nvsOps).nvsRestore .bridge nodeBridge p).Held := by
    obtain ⟨tidy,⟨_,same⟩,_⟩ := restoredStore_spec p opened
    refine ⟨?_,?_⟩
    · rw [store]
      exact ⟨tidy,by rw [same]; rfl⟩
    · rw [bridge]
      exact ready.nodes
  obtain ⟨held,store',enabled⟩ := nodes_restored perNode restored
  refine ⟨held,store'.trans store,enabled.trans ?_⟩
  rw [bridge]
  exact opened

-- The bridge as it comes up: on the stored group, with the trial enabled, and the flash owing what it owed.
theorem configBegin_spec (p : NvsPersist) (opened : p.open_ = true) (perNode : NodeId → NvsPersist) :
    (configBegin p perNode).Held ∧ (configBegin p perNode).phyTrialEnabled = true ∧ (configBegin p perNode).bridgeStore.phyTrialEnabled = true ∧
      (∃ q, (configBegin p perNode).bridgeStore.persist = some q ∧ Steady p q) ∧ (configBegin p perNode).phyGroup = storedGroup p.flashRows := by
  obtain ⟨_,⟨_,same⟩,group⟩ := restoredStore_spec p opened
  obtain ⟨held,store,enabled⟩ := loaded_spec p opened perNode
  have whole : configBegin p perNode = if p.trialMarked = true then (loaded p perNode).onFlash fun p => (p.markTrial false).2 else loaded p perNode := rfl
  rw [whole]
  generalize loaded p perNode = c at held store enabled ⊢
  have flash : c.bridgeStore.persist = some p := by
    rw [store,same]
    rfl
  have trial : c.bridgeStore.phyTrialEnabled = true := by
    rw [store,same]
    rfl
  have running : c.phyGroup = storedGroup p.flashRows := by
    funext k
    change c.bridgeStore.effective (phyId k) = _
    rw [store]
    exact group k
  split
  · have stays := c.onFlash_stays (fun p => (p.markTrial false).2) fun q here => by
      rw [flash] at here
      cases here
      exact NvsPersist.markTrial_steady opened false
    exact ⟨⟨⟨held.bridge.1.persisted _,held.bridge.2⟩,held.nodes⟩,enabled,trial,stays.flash p flash,running⟩
  · exact ⟨held,enabled,trial,⟨p,flash,.refl p⟩,running⟩

end ConfigStore

end LoraRan.Bridge
