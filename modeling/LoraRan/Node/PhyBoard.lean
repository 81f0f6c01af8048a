import LoraRan.Config.Overrides
import LoraRan.Library.StepSystem
import LoraRan.Node.Engine

namespace LoraRan.Node
open Protocol Config

theorem nodeCommonParams_sound : Table.Sound nodeCommonParams :=
  ⟨by decide,by decide,by decide,by decide,by decide,by decide⟩

-- One identity's SET: its PHY entries through set() one at a time, then on_set() with whether each answered OK.
def PhyTrial.setEach : PhyTrial → List ConfigEntry → List ConfigAckEntry × PhyTrial
  | t, [] => ([],t)
  | t, e :: rest => ((t.set e).1 :: ((t.set e).2.setEach rest).1,((t.set e).2.setEach rest).2)

def phyEntries (entries : List ConfigEntry) : List ConfigEntry := entries.filter fun e => isPhy e.paramId

def allOk (results : List ConfigAckEntry) : Bool := results.all fun a => a.status == ParamStatus.ok.code

def PhyTrial.takeSet (t : PhyTrial) (entries : List ConfigEntry) (slot : Nat) (members : UInt8) (nowMs : UInt32) : PhyTrial :=
  let phy := phyEntries entries
  if phy.isEmpty then t else (t.setEach phy).2.onSet slot (allOk (t.setEach phy).1) members nowMs

-- The entry that asks for one spreading factor.
def spreadingFactor (sf : UInt8) : ConfigEntry := {paramId := 0x0111,ptype := ptypeU8,len := 1,value := [sf,0,0,0]}

-- A board that restarts keeps the bytes and nothing else.
def PhyTrial.boot (persist : Option BlobStore) : RevertCause × PhyTrial :=
  PhyTrial.begin {store := {table := nodeCommonParams,persist := persist}}

-- The SET of Engine::apply_config.

section
variable {σ : Type} (ops : Application σ)

theorem setEntry_phy (n : Engine σ) (e : ConfigEntry) :
    (n.setEntry ops e).2.phy = if isPhy e.paramId then (n.phy.set e).2 else n.phy := by
  unfold Engine.setEntry
  split
  · rfl
  · rfl

theorem setEntries_phy (n : Engine σ) (entries : List ConfigEntry) :
    (n.setEntries ops entries).2.phy = (n.phy.setEach (phyEntries entries)).2 ∧
      ((entries.zip (n.setEntries ops entries).1).filter fun pair => isPhy pair.1.paramId).map Prod.snd =
        (n.phy.setEach (phyEntries entries)).1 := by
  induction entries generalizing n with
  | nil => exact ⟨rfl,rfl⟩
  | cons e rest ih =>
      obtain ⟨phy,results⟩ := ih (n.setEntry ops e).2
      have stepped := setEntry_phy ops n e
      rw [stepped] at phy results
      simp only [Engine.setEntries,List.zip_cons_cons,phyEntries,List.filter_cons] at *
      cases kind : isPhy e.paramId with
      | false =>
          simp only [kind,Bool.false_eq_true,if_false] at phy results ⊢
          exact ⟨phy,results⟩
      | true =>
          simp only [kind,if_true] at phy results ⊢
          refine ⟨phy,?_⟩
          rw [List.map_cons,results]
          simp only [Engine.setEntry,kind,if_true,PhyTrial.setEach]

theorem getEntries_phy (n : Engine σ) (entries : List ConfigEntry) : (n.getEntries ops entries).2.phy = n.phy := by
  induction entries generalizing n with
  | nil => rfl
  | cons e rest ih =>
      have stepped : (n.getEntry ops e).2.phy = n.phy := by
        unfold Engine.getEntry
        split <;> rfl
      exact (ih (n.getEntry ops e).2).trans stepped

-- The boards' steps are the engine's: a SET does to the PHY group what takeSet does, and no other CONFIG touches it.
theorem applyConfig_phy (n : Engine σ) (config : NodeConfigV1) (nowMs : UInt32) :
    ∃ slot members, (n.applyConfig ops config nowMs).2.phy = if config.op = configOpSet then n.phy.takeSet config.entries slot members nowMs else n.phy := by
  unfold Engine.applyConfig
  split
  · obtain ⟨phy,results⟩ := setEntries_phy ops n config.entries
    let m := (n.setEntries ops config.entries).2
    refine ⟨ops.phySlot m.app m.ctx,ops.phyMembers m.app,?_⟩
    dsimp only
    unfold Engine.closeSet PhyTrial.takeSet
    dsimp only
    rw [results]
    cases named : phyEntries config.entries with
    | nil =>
        rw [named] at phy
        simp only [PhyTrial.setEach,List.isEmpty_nil,if_true]
        exact phy
    | cons e rest =>
        rw [named] at phy
        have some_ : ((n.phy.setEach (e :: rest)).1).isEmpty = false := rfl
        simp only [some_,List.isEmpty_cons,Bool.false_eq_true,if_false]
        rw [show m.phy = _ from phy]
        rfl
  · refine ⟨0,0,?_⟩
    split
    · exact getEntries_phy ops n config.entries
    · split
      · rfl
      · split
        · rfl
        · rfl

end

-- What set() does to the trial copy, one entry at a time.

section
variable {t : PhyTrial}

-- A board with a store: the group it would come back on is the one it calls committed.
structure PhyTrial.Grounded (t : PhyTrial) : Prop where
  tidy : t.store.Tidy
  table : t.store.table = nodeCommonParams
  usable : t.writable = true
  committed : t.committed = PhyGroup.of t.store.revertPhyTrial.effective

theorem phy_row (id : UInt16) (phy : isPhy id = true) : ∃ d, nodeCommonParams.row id = some d ∧ d.access = .phy := by
  simp only [isPhy,phyIds,List.contains_cons,List.contains_nil,Bool.or_false,Bool.or_eq_true,beq_iff_eq] at phy
  rcases phy with rfl | rfl | rfl | rfl | rfl | rfl <;> exact ⟨_,rfl,rfl⟩

-- The entry moves its row's trial value.
def PhyTaken (e : ConfigEntry) : Prop := ∃ d, nodeCommonParams.row e.paramId = some d ∧ Taken d e

def PhyExact (e : ConfigEntry) : Prop := ∃ d, nodeCommonParams.row e.paramId = some d ∧ Exact d e

instance phyTakenDecidable (e : ConfigEntry) : Decidable (PhyTaken e) :=
  decidable_of_iff ((nodeCommonParams.row e.paramId).any (fun d => decide (Taken d e)) = true) (by simp [PhyTaken,Option.any_eq_true])

instance phyExactDecidable (e : ConfigEntry) : Decidable (PhyExact e) :=
  decidable_of_iff ((nodeCommonParams.row e.paramId).any (fun d => decide (Exact d e)) = true) (by simp [PhyExact,Option.any_eq_true])

-- Everything set() can do.
theorem set_cases (grounded : t.Grounded) (e : ConfigEntry) (phy : isPhy e.paramId = true) :
    (t.state ≠ .trial ∧ t.store.phyWritable phyPersist = true ∧ ∃ d, nodeCommonParams.row e.paramId = some d ∧ Taken d e ∧
      (t.set e).2 = {t with store := {t.store with trial := setValue t.store.trial e.paramId (clamp (ConfigEntry.asked e) d)}} ∧
      ((t.set e).1.status = ParamStatus.ok.code ↔ PhyExact e)) ∨
    ((t.state = .trial ∨ ¬ (t.store.phyWritable phyPersist = true ∧ PhyTaken e)) ∧ (t.set e).2 = t ∧
      (t.set e).1.status ≠ ParamStatus.ok.code) := by
  obtain ⟨d,found,access⟩ := phy_row e.paramId phy
  have row : t.store.table.row e.paramId = some d := by rw [grounded.table]; exact found
  unfold PhyTrial.set
  by_cases trial : t.state = .trial
  · right
    rw [if_pos trial,row]
    refine ⟨.inl trial,rfl,?_⟩
    rw [held_status _ d (grounded.tidy.sound.typed d (row_mem _ _ d row).1)]
    decide
  · rw [if_neg trial]
    rcases Store.apply_phy phyPersist grounded.tidy e d row access with ⟨taken,writable,moved,ok⟩ | ⟨refused,same,status⟩
    · left
      refine ⟨trial,writable,d,found,taken,by dsimp only; rw [moved],ok.trans ⟨fun precise => ⟨d,found,precise⟩,?_⟩⟩
      rintro ⟨other,otherRow,precise⟩
      rw [found] at otherRow
      cases otherRow
      exact precise
    · right
      refine ⟨.inr ?_,by dsimp only; rw [same],status⟩
      rintro ⟨writable,other,otherRow,taken⟩
      rw [found] at otherRow
      cases otherRow
      exact refused ⟨taken,writable⟩

-- The rest of the machine is not moved by it.
def SetsTrial (t t' : PhyTrial) : Prop := ∃ trial, t' = {t with store := {t.store with trial := trial}}

theorem set_sets (grounded : t.Grounded) (e : ConfigEntry) (phy : isPhy e.paramId = true) : SetsTrial t (t.set e).2 := by
  rcases set_cases grounded e phy with ⟨_,_,d,_,_,moved,_⟩ | ⟨_,same,_⟩
  · exact ⟨_,moved⟩
  · exact ⟨t.store.trial,same⟩

theorem set_grounded (grounded : t.Grounded) (e : ConfigEntry) (phy : isPhy e.paramId = true) : (t.set e).2.Grounded := by
  rcases set_cases grounded e phy with ⟨_,_,d,found,taken,moved,_⟩ | ⟨_,same,_⟩
  · rw [moved]
    have row : t.store.table.row e.paramId = some d := by rw [grounded.table]; exact found
    obtain ⟨d',found',access⟩ := phy_row e.paramId phy
    rw [found] at found'
    cases found'
    have settled := clamp_settled (ConfigEntry.asked e) d (grounded.tidy.sound.ranges d (row_mem _ _ d row).1) taken.2
    exact ⟨grounded.tidy.setTrial _ d _ row access settled,grounded.table,grounded.usable,grounded.committed⟩
  · rw [same]
    exact grounded

theorem setEach_sets (grounded : t.Grounded) (entries : List ConfigEntry) (phy : ∀ e ∈ entries, isPhy e.paramId = true) :
    SetsTrial t (t.setEach entries).2 ∧ (t.setEach entries).2.Grounded := by
  induction entries generalizing t with
  | nil => exact ⟨⟨t.store.trial,rfl⟩,grounded⟩
  | cons e rest ih =>
      have first := phy e List.mem_cons_self
      obtain ⟨trial,moved⟩ := set_sets grounded e first
      obtain ⟨⟨trial',moved'⟩,final⟩ := ih (set_grounded grounded e first) fun other member => phy other (List.mem_cons_of_mem e member)
      refine ⟨⟨trial',?_⟩,final⟩
      rw [PhyTrial.setEach,moved',moved]

-- A SET none of whose entries is taken leaves the board as it was.
theorem setEach_refused (grounded : t.Grounded) (entries : List ConfigEntry) (phy : ∀ e ∈ entries, isPhy e.paramId = true)
    (refused : t.store.phyWritable phyPersist = true → ∀ e ∈ entries, ¬ PhyTaken e) : (t.setEach entries).2 = t := by
  induction entries with
  | nil => rfl
  | cons e rest ih =>
      have same : (t.set e).2 = t := by
        rcases set_cases grounded e (phy e List.mem_cons_self) with ⟨_,writable,d,found,taken,_⟩ | ⟨_,same,_⟩
        · exact absurd ⟨d,found,taken⟩ (refused writable e List.mem_cons_self)
        · exact same
      rw [PhyTrial.setEach,same]
      exact ih (fun other member => phy other (List.mem_cons_of_mem e member)) fun writable other member =>
        refused writable other (List.mem_cons_of_mem e member)

theorem phyEntries_phy (entries : List ConfigEntry) : ∀ e ∈ phyEntries entries, isPhy e.paramId = true :=
  fun _ member => (List.mem_filter.mp member).2

-- Every entry of the SET answers OK exactly when each is in range, on its list and of its row's type.
theorem setEach_ok (grounded : t.Grounded) (entries : List ConfigEntry) (phy : ∀ e ∈ entries, isPhy e.paramId = true) (open_ : t.state ≠ .trial)
    (writable : t.store.phyWritable phyPersist = true) : allOk (t.setEach entries).1 = true ↔ ∀ e ∈ entries, PhyExact e := by
  induction entries generalizing t with
  | nil => simp [PhyTrial.setEach,allOk]
  | cons e rest ih =>
      have first := phy e List.mem_cons_self
      obtain ⟨trial,moved⟩ := set_sets grounded e first
      have later := ih (set_grounded grounded e first) (fun other member => phy other (List.mem_cons_of_mem e member))
        (by rw [moved]; exact open_) (by rw [moved]; exact writable)
      have head : (t.set e).1.status = ParamStatus.ok.code ↔ PhyExact e := by
        rcases set_cases grounded e first with ⟨_,_,_,_,_,_,ok⟩ | ⟨refused,_,status⟩
        · exact ok
        · refine ⟨fun ok => absurd ok status,?_⟩
          rintro ⟨d,found,precise⟩
          rcases refused with trial | refused
          · exact absurd trial open_
          · exact absurd ⟨writable,d,found,precise.taken⟩ refused
      have split : allOk (t.setEach (e :: rest)).1 = ((t.set e).1.status == ParamStatus.ok.code && allOk ((t.set e).2.setEach rest).1) := rfl
      rw [split,Bool.and_eq_true,beq_iff_eq,later,head]
      simp

-- The other operations.

theorem write_usable (p : BlobStore) (b : PhyBlob) : (PhyPersist.write p b).2.usable = p.usable := by
  unfold PhyPersist.write BlobStore.write
  split
  · rfl
  · split
    · rfl
    · split <;> rfl

theorem markTrial_usable (p : BlobStore) (marked : Bool) : (PhyPersist.markTrial p marked).2.usable = p.usable := write_usable p _

theorem saveGroup_usable (p : BlobStore) (group : List (UInt16 × Value)) : (PhyPersist.saveGroup p group).2.usable = p.usable := by
  unfold PhyPersist.saveGroup
  split
  · rfl
  · exact write_usable p _

theorem erase_usable (p : BlobStore) : (PhyPersist.erase p).2.usable = p.usable := by
  unfold PhyPersist.erase BlobStore.erase BlobStore.write
  split
  · rfl
  · split <;> rfl

theorem usable_some (t : PhyTrial) (usable : t.writable = true) : ∃ p, t.store.persist = some p ∧ p.usable = true := by
  unfold PhyTrial.writable Store.usable at usable
  cases here : t.store.persist with
  | none => rw [here] at usable; cases usable
  | some p => rw [here] at usable; exact ⟨p,rfl,usable⟩

theorem marked_grounded (grounded : t.Grounded) (marked : Bool) : (t.withPersist (PhyPersist.markTrial · marked)).Grounded := by
  obtain ⟨p,here,usable⟩ := usable_some t grounded.usable
  refine ⟨grounded.tidy.persisted _,grounded.table,?_,grounded.committed⟩
  simp only [PhyTrial.withPersist,PhyTrial.writable,Store.usable,here,Option.map_some,Option.any_some]
  exact (markTrial_usable p marked).trans usable

-- The bookkeeping of a change is no part of the group.
theorem grounded_moved (grounded : t.Grounded) (t' : PhyTrial) (store : t'.store = t.store) (committed : t'.committed = t.committed) :
    t'.Grounded := by
  refine ⟨by rw [store]; exact grounded.tidy,by rw [store]; exact grounded.table,?_,by rw [store,committed]; exact grounded.committed⟩
  unfold PhyTrial.writable
  rw [store]
  exact grounded.usable

-- Everything on_set() can do.
theorem onSet_cases (t : PhyTrial) (slot : Nat) (accepted : Bool) (members : UInt8) (nowMs : UInt32) :
    ((t.state = .trial ∨ accepted = false ∨ 8 ≤ slot) ∧ t.onSet slot accepted members nowMs = t) ∨
    (t.state ≠ .trial ∧ accepted = true ∧ slot < 8 ∧ ∃ counted since due toTrial,
      t.onSet slot accepted members nowMs =
        {t with pending := t.group,accepted := counted,pendingSinceMs := since,state := .pending,retuneDue := due,retuneToTrial := toTrial} ∧
      counted = (if t.state = .idle ∨ t.group ≠ t.pending then 0 else t.accepted) ||| ((1 : UInt8) <<< UInt8.ofNat slot) ∧
      (members ≠ 0 ∧ counted &&& members = members ∧ due = true ∧ toTrial = true ∨
        ¬ (members ≠ 0 ∧ counted &&& members = members) ∧ due = t.retuneDue ∧ toTrial = t.retuneToTrial)) := by
  unfold PhyTrial.onSet
  by_cases refused : t.state = .trial ∨ (!accepted) = true ∨ 8 ≤ slot
  · rw [if_pos refused]
    refine .inl ⟨?_,rfl⟩
    simpa using refused
  · rw [if_neg refused]
    push Not at refused
    obtain ⟨open_,taken,inside⟩ := refused
    refine .inr ⟨open_,by simpa using taken,inside,?_⟩
    by_cases anew : t.state = .idle ∨ t.group ≠ t.pending
    · simp only [if_pos anew]
      by_cases whole : members ≠ 0 ∧ ((0 : UInt8) ||| ((1 : UInt8) <<< UInt8.ofNat slot)) &&& members = members
      · rw [if_pos whole]
        exact ⟨_,_,_,_,rfl,rfl,.inl ⟨whole.1,whole.2,rfl,rfl⟩⟩
      · rw [if_neg whole]
        exact ⟨_,_,_,_,rfl,rfl,.inr ⟨whole,rfl,rfl⟩⟩
    · simp only [if_neg anew]
      push Not at anew
      have pending : t.state = .pending := by
        cases state : t.state with
        | idle => exact absurd state anew.1
        | pending => rfl
        | trial => exact absurd state open_
      by_cases whole : members ≠ 0 ∧ (t.accepted ||| ((1 : UInt8) <<< UInt8.ofNat slot)) &&& members = members
      · rw [if_pos whole]
        refine ⟨_,t.pendingSinceMs,true,true,?_,rfl,.inl ⟨whole.1,whole.2,rfl,rfl⟩⟩
        simp only [anew.2,pending]
      · rw [if_neg whole]
        refine ⟨_,t.pendingSinceMs,t.retuneDue,t.retuneToTrial,?_,rfl,.inr ⟨whole,rfl,rfl⟩⟩
        simp only [anew.2,← pending]

theorem onSet_grounded (grounded : t.Grounded) (slot : Nat) (accepted : Bool) (members : UInt8) (nowMs : UInt32) :
    (t.onSet slot accepted members nowMs).Grounded := by
  rcases onSet_cases t slot accepted members nowMs with ⟨_,same⟩ | ⟨_,_,_,_,_,_,_,moved,_⟩
  · rw [same]
    exact grounded
  · rw [moved]
    exact grounded_moved grounded _ rfl rfl

theorem takeSet_grounded (grounded : t.Grounded) (entries : List ConfigEntry) (slot : Nat) (members : UInt8) (nowMs : UInt32) :
    (t.takeSet entries slot members nowMs).Grounded := by
  unfold PhyTrial.takeSet
  dsimp only
  split
  · exact grounded
  · exact onSet_grounded (setEach_sets grounded _ (phyEntries_phy entries)).2 _ _ _ _

theorem PhyTrial.onRetuned_cases (t : PhyTrial) (nowMs : UInt32) :
    (t.retuneToTrial = false ∧ t.onRetuned nowMs = {t with retuneDue := false}) ∨
    (t.retuneToTrial = true ∧
      t.onRetuned nowMs = PhyTrial.withPersist
        {t with retuneDue := false,retuneToTrial := false,state := .trial,windowStartMs := nowMs,windowMs := t.trialMs} (PhyPersist.markTrial · true)) := by
  unfold PhyTrial.onRetuned
  dsimp only
  split
  · rename_i free
    exact .inl ⟨by simpa using free,rfl⟩
  · rename_i owed
    exact .inr ⟨by simpa using owed,rfl⟩

theorem onRetuned_grounded (grounded : t.Grounded) (nowMs : UInt32) : (t.onRetuned nowMs).Grounded := by
  rcases t.onRetuned_cases nowMs with ⟨_,moved⟩ | ⟨_,moved⟩
  · rw [moved]
    exact grounded_moved grounded _ rfl rfl
  · rw [moved]
    refine marked_grounded ?_ true
    exact grounded_moved grounded _ rfl rfl

-- With no trial value the group is what the store holds.
theorem group_settled (t : PhyTrial) (none_ : t.store.trial = []) : t.group = PhyGroup.of t.store.revertPhyTrial.effective := by
  have same : t.store.revertPhyTrial = t.store := by
    unfold Store.revertPhyTrial
    rw [← none_]
  rw [same]
  rfl

-- Everything on_authenticated() can do: a frame outside a trial, a write that failed, a trial with nothing to write, a commit.
theorem PhyTrial.onAuthenticated_cases (grounded : t.Grounded) :
    (t.state ≠ .trial ∧ t.onAuthenticated = t) ∨
    (t.state = .trial ∧ ∃ persist, t.onAuthenticated = {t with store := {t.store with persist := persist}} ∧
      (persist = t.store.persist ∨ ∃ p, t.store.persist = some p ∧ (PhyPersist.saveGroup p t.store.group).1 = false ∧
        persist = some (PhyPersist.saveGroup p t.store.group).2)) ∨
    (t.state = .trial ∧ t.store.trial = [] ∧ t.onAuthenticated = {t with committed := t.group,state := .idle,accepted := 0}) ∨
    (t.state = .trial ∧ ∃ p store, t.store.persist = some p ∧ (PhyPersist.saveGroup p t.store.group).1 = true ∧
      store = {t.store with
        persist := some (PhyPersist.saveGroup p t.store.group).2
        overrides := t.store.group.foldl (fun overrides row => setValue overrides row.1 row.2) t.store.overrides
        trial := []} ∧
      t.onAuthenticated = {t with store := store,committed := PhyGroup.of store.effective,state := .idle,accepted := 0}) := by
  unfold PhyTrial.onAuthenticated
  by_cases outside : t.state ≠ .trial
  · exact .inl ⟨outside,if_pos outside⟩
  · right
    rw [if_neg outside]
    have trial : t.state = .trial := not_not.mp outside
    dsimp only
    rcases grounded.tidy.commit phyPersist with ⟨done,empty,same⟩ | ⟨persist,failed,same,kept⟩ | ⟨p,here,done,saved,same⟩
    · refine .inr (.inl ⟨trial,empty,?_⟩)
      rw [done,same]
      rfl
    · refine .inl ⟨trial,persist,?_,kept⟩
      rw [failed,same]
      rfl
    · refine .inr (.inr ⟨trial,p,_,here,saved,rfl,?_⟩)
      rw [done,same]
      rfl

theorem onAuthenticated_grounded (grounded : t.Grounded) : t.onAuthenticated.Grounded := by
  obtain ⟨q,there,usable⟩ := usable_some t grounded.usable
  rcases PhyTrial.onAuthenticated_cases grounded with ⟨_,same⟩ | ⟨_,persist,same,kept⟩ | ⟨_,empty,same⟩ | ⟨_,p,store,here,_,held,same⟩
  · rw [same]
    exact grounded
  · rw [same]
    refine ⟨grounded.tidy.persisted persist,grounded.table,?_,grounded.committed⟩
    change persist.any BlobStore.usable = true
    rcases kept with rfl | ⟨p,here,_,rfl⟩
    · exact grounded.usable
    · rw [there] at here
      cases here
      exact (saveGroup_usable q _).trans usable
  · rw [same]
    exact ⟨grounded.tidy,grounded.table,grounded.usable,group_settled t empty⟩
  · rw [same]
    rw [there] at here
    cases here
    obtain ⟨set,equal⟩ := grounded.tidy.setAll t.store.group grounded.tidy.group_takes
    rw [equal] at set
    subst held
    refine ⟨(set.persisted _).revert,grounded.table,?_,rfl⟩
    exact (saveGroup_usable q _).trans usable

theorem PhyTrial.tick_cases (t : PhyTrial) (nowMs : UInt32) :
    (t.state = .pending ∧ t.retuneDue = false ∧ (t.tick nowMs).2 = {t with store := t.store.revertPhyTrial,state := .idle,accepted := 0}) ∨
    (t.tick nowMs).2 = t ∨
    (t.state = .trial ∧ (t.tick nowMs).2 =
      {PhyTrial.withPersist {t with store := t.store.revertPhyTrial} (PhyPersist.markTrial · false) with
        state := .idle
        accepted := 0
        retuneDue := true
        retuneToTrial := false}) := by
  unfold PhyTrial.tick
  split
  · rename_i abandoned
    exact .inl ⟨abandoned.1,by simpa using abandoned.2.1,rfl⟩
  · split
    · exact .inr (.inl rfl)
    · rename_i expired
      push Not at expired
      exact .inr (.inr ⟨expired.1,rfl⟩)

theorem tick_grounded (grounded : t.Grounded) (nowMs : UInt32) : (t.tick nowMs).2.Grounded := by
  have reverted : PhyTrial.Grounded {t with store := t.store.revertPhyTrial} :=
    ⟨grounded.tidy.revert,grounded.table,grounded.usable,grounded.committed⟩
  rcases t.tick_cases nowMs with ⟨_,_,moved⟩ | same | ⟨_,moved⟩
  · rw [moved]
    exact grounded_moved reverted _ rfl rfl
  · rw [same]
    exact grounded
  · rw [moved]
    exact grounded_moved (marked_grounded reverted false) _ rfl rfl

theorem PhyTrial.reset_eq (grounded : t.Grounded) :
    ∃ p store, t.store.persist = some p ∧ p.usable = true ∧ store = {t.store.forgetPhyGroup with persist := some (PhyPersist.erase p).2} ∧
      t.resetToDefaults.2 =
        {t with
          store := store
          committed := PhyGroup.of store.effective
          state := .idle
          accepted := 0
          retuneDue := true
          retuneToTrial := false} := by
  obtain ⟨p,here,usable⟩ := usable_some t grounded.usable
  refine ⟨p,_,here,usable,rfl,?_⟩
  unfold PhyTrial.resetToDefaults
  simp only [grounded.usable,Bool.not_true,Bool.false_eq_true,if_false,Store.forgetPhyGroup,here]
  rfl

theorem reset_grounded (grounded : t.Grounded) : t.resetToDefaults.2.Grounded := by
  obtain ⟨p,store,_,usable,held,same⟩ := PhyTrial.reset_eq grounded
  rw [same]
  subst held
  exact ⟨grounded.tidy.forgotten.persisted _,grounded.table,(erase_usable p).trans usable,rfl⟩

-- Rows put back one by one.
theorem restoreAll_kept (s : Store BlobStore) (rows : List (UInt16 × Value)) (tidy : s.Tidy) :
    let restored := rows.foldl (fun (s : Store BlobStore) row => if isPhy row.1 then (s.restore phyPersist row.1 row.2).2 else s) s
    restored.Tidy ∧ restored = {s with overrides := restored.overrides} := by
  induction rows generalizing s with
  | nil => exact ⟨tidy,rfl⟩
  | cons row rest ih =>
      rw [List.foldl_cons]
      by_cases phy : isPhy row.1
      · rw [if_pos phy]
        obtain ⟨final,same⟩ := ih _ (tidy.restored phyPersist row.1 row.2)
        refine ⟨final,same.trans ?_⟩
        rcases tidy.restore phyPersist row.1 row.2 with unmoved | ⟨d,_,_,_,moved⟩
        · rw [unmoved]
        · rw [moved]
      · rw [if_neg phy]
        exact ih s tidy

theorem begin_grounded (grounded : t.Grounded) (none_ : t.store.trial = []) :
    t.begin.2.Grounded ∧ t.begin.2.store.trial = [] ∧ t.begin.2.state = t.state ∧ t.begin.2.accepted = t.accepted ∧
      t.begin.2.retuneToTrial = t.retuneToTrial ∧ t.begin.2.store.phyTrialEnabled = true := by
  obtain ⟨p,here,usable⟩ := usable_some t grounded.usable
  have writable := grounded.usable
  let enabled : PhyTrial := {t with store := {t.store with phyTrialEnabled := true}}
  have ready : enabled.Grounded :=
    ⟨⟨grounded.tidy.sound,grounded.tidy.distinct,grounded.tidy.held,grounded.tidy.trialDistinct,grounded.tidy.trialHeld⟩,grounded.table,
      grounded.usable,grounded.committed⟩
  unfold PhyTrial.begin
  rw [writable]
  simp only [Bool.not_true,Bool.false_eq_true,if_false]
  split
  · exact ⟨ready,none_,rfl,rfl,rfl,rfl⟩
  · rename_i b _
    obtain ⟨tidy,same⟩ := restoreAll_kept enabled.store b.rows ready.tidy
    generalize b.rows.foldl (fun (s : Store BlobStore) row => if isPhy row.1 then (s.restore phyPersist row.1 row.2).2 else s) enabled.store = restored
      at tidy same
    let found : PhyTrial := {enabled with store := restored}
    have empty : found.store.trial = [] := by change restored.trial = []; rw [same]; exact none_
    have settled : PhyTrial.Grounded {found with committed := found.group} := by
      refine ⟨tidy,by change restored.table = _; rw [same]; exact grounded.table,?_,group_settled found empty⟩
      change restored.usable phyPersist = true
      rw [same]
      exact grounded.usable
    have on : restored.phyTrialEnabled = true := by rw [same]
    split
    · exact ⟨settled,empty,rfl,rfl,rfl,on⟩
    · exact ⟨marked_grounded settled false,empty,rfl,rfl,rfl,on⟩

theorem boot_grounded (p : BlobStore) (usable : p.usable = true) :
    let t := (PhyTrial.boot (some p)).2
    t.Grounded ∧ t.store.trial = [] ∧ t.state = .idle ∧ t.accepted = 0 ∧ t.retuneToTrial = false ∧ t.store.phyTrialEnabled = true := by
  refine begin_grounded (t := {store := {table := nodeCommonParams,persist := some p}}) ?_ rfl
  refine ⟨⟨nodeCommonParams_sound,List.nodup_nil,fun _ member => absurd member List.not_mem_nil,List.nodup_nil,
    fun _ member => absurd member List.not_mem_nil⟩,rfl,usable,rfl⟩

end
end LoraRan.Node
