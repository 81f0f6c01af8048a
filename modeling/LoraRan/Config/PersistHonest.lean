import LoraRan.Config.PhyUndo

namespace LoraRan.Config
open Protocol Library.StepSystem

section
variable {π : Type} (ops : Persist π) (saved grouped : π → UInt16 → Option Value)

-- The storage's contract: a write that is answered as made was made, clear_all() leaves the group, and a refused group leaves everything.
structure Keeps : Prop where
  save : ∀ p id v, (ops.save p id v).1 = true →
    saved (ops.save p id v).2 = Function.update (saved p) id (some v) ∧ grouped (ops.save p id v).2 = grouped p
  clearAll : ∀ p, (ops.clearAll p).1 = true → saved (ops.clearAll p).2 = (fun _ => none) ∧ grouped (ops.clearAll p).2 = grouped p
  saveGroup : ∀ p values, (ops.saveGroup p values).1 = true →
    saved (ops.saveGroup p values).2 = saved p ∧
      ∀ row ∈ values, (values.map Prod.fst).Nodup → grouped (ops.saveGroup p values).2 row.1 = some row.2
  groupRefused : ∀ p values, (ops.saveGroup p values).1 = false →
    saved (ops.saveGroup p values).2 = saved p ∧ grouped (ops.saveGroup p values).2 = grouped p

-- What the storage holds for a row.
def Store.kept (s : Store π) (id : UInt16) : Option Value :=
  s.persist.bind fun p => if s.isPhy id then grouped p id else saved p id

-- The storage holds the overrides, and nothing else, of the table's rows.
def Store.Agrees (s : Store π) : Prop :=
  ∀ d ∈ s.table, s.kept saved grouped d.id = (valueAt s.overrides d.id).map Override.value

-- A restart: what the storage holds of each row is restored into a fresh store.
def replay (kept : UInt16 → Option Value) (s : Store π) (rows : List ParamDef) : Store π :=
  rows.foldl (fun s d => (kept d.id).elim s fun v => (s.restore ops d.id v).2) s

def Store.restarted (s : Store π) : Store π :=
  replay ops (s.kept saved grouped) {Store.fresh s.table s.persist with phyTrialEnabled := s.phyTrialEnabled} s.table

-- PERSISTED is said only of overrides the storage holds, so that a restart runs on the same values.
def Store.Honest (s : Store π) : Prop :=
  s.readPersistStatus ops = .persisted →
    (∀ d ∈ s.table, ∀ o, valueAt s.overrides d.id = some o → s.kept saved grouped d.id = some o.value) ∧
      ∀ id, (s.restarted ops saved grouped).effective id = s.effective id

-- A step that loses no write: what is saved or cleared on a usable storage is, what is restored is there,
-- and a storage out of use is not left behind by the last override.
def Lossless (s : Store π) : StoreOp π → Prop
  | .apply e => ∀ d, s.table.row e.paramId = some d → Taken d e → d.access = .readWrite → ∀ p, s.persist = some p → ops.usable p = true →
      (ops.save p d.id (clamp (ConfigEntry.asked e) d)).1 = true
  | .restore id v => ∀ d, s.table.row id = some d → s.Writable ops d → valueAllowed d (clamp v d) = true → s.usable ops = true →
      s.kept saved grouped id = some (clamp v d)
  | .restoreDefaults =>
      (∀ p, s.persist = some p → ops.usable p = true → (ops.clearAll p).1 = true) ∧
        (s.usable ops = false → (∃ o ∈ s.overrides, s.isPhy o.id = true) ∨ ∀ d ∈ s.table, s.kept saved grouped d.id = none)
  | .forgetPhyGroup =>
      (s.usable ops = true → ∀ d ∈ s.table, d.access = .phy → s.kept saved grouped d.id = none) ∧
        (s.usable ops = false → (∃ o ∈ s.overrides, s.isPhy o.id = false) ∨ ∀ d ∈ s.table, s.kept saved grouped d.id = none)
  | .storage p => (∀ q, s.persist = some q → saved p = saved q ∧ grouped p = grouped q) ∧
      (s.usable ops = false → ops.usable p = true → s.Agrees saved grouped)
  | _ => True

-- Where the storage is in use, or there is no override, it holds what the store runs on.
structure Store.Backed (s : Store π) : Prop where
  tidy : s.Tidy
  enabled : ∀ o ∈ s.overrides, s.isPhy o.id = true → s.phyTrialEnabled = true
  backed : s.usable ops = true ∨ s.overrides = [] → s.Agrees saved grouped

end

section
variable {π : Type} {ops : Persist π} {saved grouped : π → UInt16 → Option Value} {s : Store π}

theorem restore_sets (tidy : s.Tidy) (d : ParamDef) (v : Value) (found : s.table.row d.id = some d) (writable : s.Writable ops d) (settled : Settled d v) :
    (s.restore ops d.id v).2 = {s with overrides := setValue s.overrides d.id v} := by
  have access : d.access ≠ .readOnly := by
    rcases writable with plain | ⟨phy,_⟩
    · rw [plain]; decide
    · rw [phy]; decide
  have set := (tidy.setOverride d.id d v found access settled).1
  unfold Store.restore
  rw [found]
  dsimp only
  rw [if_neg ((s.writable_iff ops d).mpr writable),settled.1,if_neg (by rw [settled.2]; decide),set]

-- Row by row, the overrides become what is kept.
theorem replay_rows (kept : UInt16 → Option Value) (rows : List ParamDef) (tidy : s.Tidy) (inside : ∀ d ∈ rows, d ∈ s.table)
    (taken : ∀ d ∈ rows, ∀ v, kept d.id = some v → s.Writable ops d ∧ Settled d v) :
    (replay ops kept s rows).table = s.table ∧ (replay ops kept s rows).trial = s.trial ∧
      ∀ id, (valueAt (replay ops kept s rows).overrides id).map Override.value =
        if id ∈ rows.map ParamDef.id ∧ (kept id).isSome = true then kept id else (valueAt s.overrides id).map Override.value := by
  induction rows generalizing s with
  | nil => exact ⟨rfl,rfl,fun id => (if_neg fun both => List.not_mem_nil both.1).symm⟩
  | cons d rest ih =>
      have found := row_of_mem s.table tidy.sound d (inside d List.mem_cons_self)
      have later : ∀ e ∈ rest, e ∈ s.table := fun e member => inside e (List.mem_cons_of_mem d member)
      have takenLater : ∀ e ∈ rest, ∀ v, kept e.id = some v → s.Writable ops e ∧ Settled e v :=
        fun e member => taken e (List.mem_cons_of_mem d member)
      cases here : kept d.id with
      | none =>
          have skip : replay ops kept s (d :: rest) = replay ops kept s rest := by
            unfold replay
            rw [List.foldl_cons,here]
            rfl
          rw [skip]
          obtain ⟨table,trial,values⟩ := ih tidy later takenLater
          refine ⟨table,trial,fun id => ?_⟩
          rw [values id]
          by_cases same : id = d.id
          · simp [same,here]
          · simp [same]
      | some v =>
          obtain ⟨writable,settled⟩ := taken d List.mem_cons_self v here
          have access : d.access ≠ .readOnly := by
            rcases writable with plain | ⟨phy,_⟩
            · rw [plain]; decide
            · rw [phy]; decide
          have set := restore_sets tidy d v found writable settled
          have next := (tidy.setOverride d.id d v found access settled).2
          have first : replay ops kept s (d :: rest) = replay ops kept {s with overrides := setValue s.overrides d.id v} rest := by
            unfold replay
            rw [List.foldl_cons,here,Option.elim_some,set]
          rw [first]
          obtain ⟨table,trial,values⟩ := ih next later takenLater
          refine ⟨table,trial,fun id => ?_⟩
          rw [values id]
          change (if id ∈ rest.map ParamDef.id ∧ (kept id).isSome = true then kept id
            else (valueAt (setValue s.overrides d.id v) id).map Override.value) = _
          rw [valueAt_setValue]
          by_cases same : id = d.id
          · simp [same,here]
          · simp [same]

theorem isPhy_false {id : UInt16} {d : ParamDef} (found : s.table.row id = some d) (plain : d.access ≠ .phy) : s.isPhy id = false := by
  simpa [Store.isPhy,found] using plain

-- A storage that agrees with the overrides brings them back.
theorem restarted_effective (backed : s.Backed ops saved grouped) (agrees : s.Agrees saved grouped) (idle : s.trial = [])
    (up : s.overrides = [] ∨ s.usable ops = true) (id : UInt16) : (s.restarted ops saved grouped).effective id = s.effective id := by
  let boot : Store π := {Store.fresh s.table s.persist with phyTrialEnabled := s.phyTrialEnabled}
  have bootTidy : boot.Tidy :=
    ⟨backed.tidy.sound,List.nodup_nil,fun _ member => absurd member List.not_mem_nil,List.nodup_nil,fun _ member => absurd member List.not_mem_nil⟩
  have taken : ∀ d ∈ s.table, ∀ v, s.kept saved grouped d.id = some v → boot.Writable ops d ∧ Settled d v := by
    intro d member v held
    have found := row_of_mem s.table backed.tidy.sound d member
    rw [agrees d member] at held
    obtain ⟨o,here,rfl⟩ := Option.map_eq_some_iff.mp held
    obtain ⟨inside,same⟩ := valueAt_mem s.overrides d.id o here
    obtain ⟨e,found',access,settled⟩ := backed.tidy.held o inside
    rw [same,found] at found'
    cases found'
    have usable : s.usable ops = true := by
      rcases up with empty | usable
      · rw [empty] at inside
        cases inside
      · exact usable
    refine ⟨?_,settled⟩
    cases kind : d.access with
    | readWrite => exact .inl kind
    | readOnly => exact absurd kind access
    | phy =>
        refine .inr ⟨kind,?_⟩
        have enabled := backed.enabled o inside ((isPhy_row (by rw [same]; exact found)).mpr kind)
        change (s.phyTrialEnabled && s.usable ops) = true
        rw [enabled,usable]
        rfl
  have replayed : (replay ops (s.kept saved grouped) boot s.table).table = boot.table ∧ _ :=
    replay_rows (s.kept saved grouped) s.table bootTidy (fun _ member => member) taken
  obtain ⟨table,trial,values⟩ := replayed
  change (replay ops (s.kept saved grouped) boot s.table).effective id = _
  cases found : s.table.row id with
  | none =>
      have missing : (replay ops (s.kept saved grouped) boot s.table).table.row id = none := by
        rw [table]
        exact found
      simp only [Store.effective,found,missing]
  | some d =>
      obtain ⟨member,same⟩ := row_mem s.table id d found
      rw [Store.effective_row _ id d (by rw [table]; exact found),s.effective_row id d found,trial,idle,values id]
      have agree := agrees d member
      rw [same] at agree
      have listed : id ∈ s.table.map ParamDef.id := List.mem_map.mpr ⟨d,member,same⟩
      rw [← agree]
      cases held : s.kept saved grouped id with
      | none => rw [if_neg fun both => by cases both.2]; rfl
      | some v => rw [if_pos ⟨listed,rfl⟩]; rfl

theorem Store.Backed.honest (backed : s.Backed ops saved grouped) : s.Honest ops saved grouped := by
  intro persisted
  unfold Store.readPersistStatus at persisted
  split at persisted
  · cases persisted
  · rename_i untried
    have idle : s.trial = [] := List.length_eq_zero_iff.mp (by omega)
    have up : s.overrides = [] ∨ s.usable ops = true := by
      split at persisted
      · rename_i none_
        exact .inl (List.length_eq_zero_iff.mp none_)
      · split at persisted
        · cases persisted
        · rename_i usable
          exact .inr (by simpa using usable)
    have agrees := backed.backed up.symm
    refine ⟨?_,restarted_effective backed agrees idle up⟩
    intro d member o here
    rw [agrees d member,here]
    rfl

theorem usable_storage {p : π} (held : s.persist = some p) : s.usable ops = ops.usable p := by
  unfold Store.usable
  rw [held]
  rfl

theorem update_other {f : UInt16 → Option Value} {id other : UInt16} {v : Value} (away : other ≠ id) :
    Function.update f id (some v) other = f other := Function.update_of_ne away _ _

theorem kept_storage (s : Store π) (id : UInt16) (p : π) (held : s.persist = some p) :
    s.kept saved grouped id = if s.isPhy id then grouped p id else saved p id := by
  unfold Store.kept
  rw [held]
  rfl

-- apply() keeps the agreement: a plain value is overridden and saved as one, a trial value touches neither.
theorem apply_backed (keeps : Keeps ops saved grouped) (backed : s.Backed ops saved grouped) (e : ConfigEntry)
    (lossless : Lossless ops saved grouped s (.apply e)) : (s.apply ops e).store.Backed ops saved grouped := by
  have tidyAfter := backed.tidy.applied ops e
  have possible := s.apply_case ops backed.tidy e
  generalize s.apply ops e = a at possible tidyAfter ⊢
  cases possible with
  | unknown => exact backed
  | mismatched => exact backed
  | refused => exact backed
  | off => exact backed
  | tried d found shaped writable listed phy => exact ⟨tidyAfter,backed.enabled,backed.backed⟩
  | kept d found shaped plain listed =>
      obtain ⟨member,same⟩ := row_mem s.table _ d found
      have rowFound : s.table.row d.id = some d := by rw [same]; exact found
      have notPhy := isPhy_false rowFound (by rw [plain]; decide)
      have enabled : ∀ o ∈ setValue s.overrides d.id (clamp (ConfigEntry.asked e) d), s.isPhy o.id = true → s.phyTrialEnabled = true := by
        intro o inside phy
        rcases setValue_mem _ _ _ o inside with rfl | old
        · rw [notPhy] at phy
          cases phy
        · exact backed.enabled o old phy
      refine ⟨tidyAfter,enabled,fun up => ?_⟩
      have some_ : setValue s.overrides d.id (clamp (ConfigEntry.asked e) d) ≠ [] := by
        intro empty
        have now := valueAt_setValue s.overrides d.id d.id (clamp (ConfigEntry.asked e) d)
        rw [empty,if_pos rfl] at now
        cases now
      have usable := up.resolve_right some_
      unfold Store.saving at usable ⊢
      cases storage : s.persist with
      | none =>
          rw [storage] at usable
          cases usable
      | some p =>
          rw [storage] at usable
          dsimp only at usable ⊢
          cases use : ops.usable p with
          | false =>
              rw [use] at usable
              have idle : ops.usable p = true := usable
              rw [use] at idle
              cases idle
          | true =>
              have agrees := backed.backed (.inl ((usable_storage storage).trans use))
              obtain ⟨plainSaved,groupSame⟩ := keeps.save p d.id _ (lossless d found ⟨shaped,listed⟩ plain p storage use)
              simp only [if_true]
              intro r rowMember
              have before := agrees r rowMember
              rw [kept_storage s r.id p storage] at before
              change (if s.isPhy r.id then grouped _ r.id else saved _ r.id) = _
              rw [plainSaved,groupSame,valueAt_setValue]
              by_cases here : r.id = d.id
              · rw [here,notPhy,if_pos rfl]
                exact Function.update_self d.id _ _
              · rw [if_neg here,update_other here]
                exact before

theorem restore_closed (id : UInt16) (v : Value) (d : ParamDef) (found : s.table.row id = some d) (closed : ¬ s.Writable ops d) :
    (s.restore ops id v).2 = s := by
  have refused := not_not.mp fun open_ => closed ((s.writable_iff ops d).mp open_)
  unfold Store.restore
  rw [found]
  dsimp only
  rw [if_pos refused]

theorem restore_backed (backed : s.Backed ops saved grouped) (id : UInt16) (v : Value) (lossless : Lossless ops saved grouped s (.restore id v)) :
    (s.restore ops id v).2.Backed ops saved grouped := by
  have tidyAfter := backed.tidy.restored ops id v
  rcases backed.tidy.restore ops id v with same | ⟨d,found,_,listed,set⟩
  · rw [same]
    exact backed
  · by_cases writable : s.Writable ops d
    · rw [set] at tidyAfter ⊢
      refine ⟨tidyAfter,?_,?_⟩
      · intro o inside phy
        rcases setValue_mem _ _ _ o inside with rfl | old
        · rcases writable with plain | ⟨_,open_⟩
          · have kind := (isPhy_row found).mp phy
            rw [plain] at kind
            cases kind
          · exact (Bool.and_eq_true_iff.mp open_).1
        · exact backed.enabled o old phy
      · intro up
        have usable : s.usable ops = true := up.resolve_right fun empty => by
          have now := valueAt_setValue s.overrides id id (clamp v d)
          have empty' : setValue s.overrides id (clamp v d) = [] := empty
          rw [empty',if_pos rfl] at now
          cases now
        intro r member
        change s.kept saved grouped r.id = (valueAt (setValue s.overrides id (clamp v d)) r.id).map Override.value
        rw [valueAt_setValue]
        by_cases here : r.id = id
        · rw [here,if_pos rfl]
          exact lossless d found writable listed usable
        · rw [if_neg here]
          exact backed.backed (.inl usable) r member
    · rw [restore_closed id v d found writable]
      exact backed

theorem kept_none_agrees (s : Store π) (empty : s.overrides = []) (nothing : ∀ d ∈ s.table, s.kept saved grouped d.id = none) :
    s.Agrees saved grouped := by
  intro d member
  rw [nothing d member,empty]
  rfl

theorem restoreDefaults_backed (keeps : Keeps ops saved grouped) (backed : s.Backed ops saved grouped)
    (lossless : Lossless ops saved grouped s .restoreDefaults) : (s.restoreDefaults ops).2.Backed ops saved grouped := by
  obtain ⟨persist,same,cases_⟩ := backed.tidy.restoreDefaults ops
  rw [same]
  refine ⟨backed.tidy.filtered _ persist,fun o inside => backed.enabled o (List.mem_of_mem_filter inside),fun up => ?_⟩
  rcases cases_ with ⟨-,p,storage,use,cleared,rfl⟩ | ⟨-,⟨p,storage,use,failed,-⟩ | ⟨idle,rfl⟩⟩
  · have agrees := backed.backed (.inl ((usable_storage storage).trans use))
    obtain ⟨gone,groupSame⟩ := keeps.clearAll p cleared
    intro d member
    have before := agrees d member
    rw [kept_storage s d.id p storage] at before
    change (if s.isPhy d.id then grouped _ d.id else saved _ d.id) = (valueAt (s.overrides.filter fun o => s.isPhy o.id) d.id).map Override.value
    rw [gone,groupSame,valueAt_filter s.overrides s.isPhy d.id]
    cases phy : s.isPhy d.id with
    | true =>
        rw [phy] at before
        exact before
    | false => rfl
  · rw [lossless.1 p storage use] at failed
    cases failed
  · have empty := up.resolve_left fun use => by
      change s.usable ops = true at use
      rw [idle] at use
      cases use
    rcases lossless.2 idle with ⟨o,inside,phy⟩ | nothing
    · have kept : o ∈ s.overrides.filter fun o => s.isPhy o.id := List.mem_filter.mpr ⟨inside,phy⟩
      rw [show (s.overrides.filter fun o => s.isPhy o.id) = [] from empty] at kept
      cases kept
    · exact kept_none_agrees _ empty nothing

theorem forget_backed (backed : s.Backed ops saved grouped) (lossless : Lossless ops saved grouped s .forgetPhyGroup) :
    s.forgetPhyGroup.Backed ops saved grouped := by
  refine ⟨backed.tidy.forgotten,fun o inside => backed.enabled o (List.mem_of_mem_filter inside),fun up => ?_⟩
  cases use : s.usable ops with
  | true =>
      intro d member
      change s.kept saved grouped d.id = (valueAt (s.overrides.filter fun o => !s.isPhy o.id) d.id).map Override.value
      rw [valueAt_filter s.overrides (fun other => !s.isPhy other) d.id]
      cases phy : s.isPhy d.id with
      | true =>
          have kind := (isPhy_row (row_of_mem s.table backed.tidy.sound d member)).mp phy
          rw [lossless.1 use d member kind]
          rfl
      | false => exact backed.backed (.inl use) d member
  | false =>
      have empty := up.resolve_left fun use' => by
        change s.usable ops = true at use'
        rw [use] at use'
        cases use'
      rcases lossless.2 use with ⟨o,inside,plain⟩ | nothing
      · have kept : o ∈ s.overrides.filter fun o => !s.isPhy o.id := List.mem_filter.mpr ⟨inside,by rw [plain]; rfl⟩
        rw [show (s.overrides.filter fun o => !s.isPhy o.id) = [] from empty] at kept
        cases kept
      · exact kept_none_agrees _ empty nothing

-- The group commit_phy_trial() writes is every PHY row, once.
theorem Store.Tidy.group_rows (tidy : s.Tidy) :
    (s.group.map Prod.fst).Nodup ∧ (∀ row ∈ s.group, s.isPhy row.1 = true) ∧
      ∀ d ∈ s.table, d.access = .phy → (d.id,s.effective d.id) ∈ s.group := by
  have whole : s.phyRows.take phyGroupSize = s.phyRows := List.take_of_length_le tidy.sound.phy
  have ids : s.group.map Prod.fst = s.phyRows.map ParamDef.id := by
    unfold Store.group
    rw [whole,List.map_map]
    rfl
  refine ⟨?_,?_,?_⟩
  · rw [ids]
    exact tidy.sound.distinct.sublist (List.filter_sublist.map ParamDef.id)
  · intro row member
    obtain ⟨d,inside,rfl⟩ := List.mem_map.mp member
    rw [whole] at inside
    obtain ⟨rowMember,phy⟩ := List.mem_filter.mp inside
    exact (isPhy_row (row_of_mem s.table tidy.sound d rowMember)).mpr (by simpa using phy)
  · intro d member phy
    refine List.mem_map.mpr ⟨d,?_,rfl⟩
    rw [whole]
    exact List.mem_filter.mpr ⟨member,by simpa using phy⟩

theorem commit_backed (keeps : Keeps ops saved grouped) (backed : s.Backed ops saved grouped) :
    (s.commitPhyTrial ops).2.Backed ops saved grouped := by
  have tidyAfter := backed.tidy.committed ops
  by_cases open_ : s.phyWritable ops = true
  · obtain ⟨enabled,use⟩ := Bool.and_eq_true_iff.mp open_
    have agrees := backed.backed (.inl use)
    rcases backed.tidy.commit ops with ⟨_,_,same⟩ | ⟨persist,_,same,unchanged | ⟨p,storage,refused,rfl⟩⟩ | ⟨p,storage,_,written,same⟩
    · rw [same]
      exact backed
    · rw [same,unchanged]
      exact backed
    · rw [same] at tidyAfter ⊢
      refine ⟨tidyAfter,fun _ _ _ => enabled,fun _ d member => ?_⟩
      have before := agrees d member
      obtain ⟨savedSame,groupSame⟩ := keeps.groupRefused p s.group refused
      rw [kept_storage s d.id p storage] at before
      change (if s.isPhy d.id then grouped _ d.id else saved _ d.id) = _
      rw [savedSame,groupSame]
      exact before
    · rw [same] at tidyAfter ⊢
      refine ⟨tidyAfter,fun _ _ _ => enabled,fun _ d member => ?_⟩
      have before := agrees d member
      obtain ⟨savedSame,groupNow⟩ := keeps.saveGroup p s.group written
      obtain ⟨distinct,allPhy,every⟩ := backed.tidy.group_rows
      rw [kept_storage s d.id p storage] at before
      change (if s.isPhy d.id then grouped _ d.id else saved _ d.id) =
        (valueAt (s.group.foldl (fun overrides row => setValue overrides row.1 row.2) s.overrides) d.id).map Override.value
      rw [valueAt_setAll s.group s.overrides d.id distinct,savedSame]
      cases phy : s.isPhy d.id with
      | true =>
          have kind := (isPhy_row (row_of_mem s.table backed.tidy.sound d member)).mp phy
          have there := every d member kind
          cases first : s.group.find? fun row => row.1 == d.id with
          | none => exact absurd (List.find?_eq_none.mp first _ there) (by simp)
          | some row =>
              have same' : row.1 = d.id := by simpa using List.find?_some first
              have now := groupNow row (List.mem_of_find?_eq_some first) distinct
              rw [same'] at now
              exact now
      | false =>
          have missing : s.group.find? (fun row => row.1 == d.id) = none := by
            rw [List.find?_eq_none]
            intro row inside named
            have kind := allPhy row inside
            rw [show row.1 = d.id by simpa using named,phy] at kind
            cases kind
          rw [missing]
          rw [phy] at before
          exact before
  · have same : (s.commitPhyTrial ops).2 = s := by
      unfold Store.commitPhyTrial
      split
      · rfl
      · rw [if_pos (by simpa using open_)]
    rw [same]
    exact backed

theorem storage_backed (backed : s.Backed ops saved grouped) (p : π) (lossless : Lossless ops saved grouped s (.storage p)) :
    Store.Backed ops saved grouped {s with persist := s.persist.map fun _ => p} := by
  refine ⟨backed.tidy.persisted _,backed.enabled,fun up => ?_⟩
  cases storage : s.persist with
  | none =>
      rw [storage] at up
      intro d member
      have empty : s.overrides = [] := up.resolve_left fun use => by cases use
      change none = (valueAt s.overrides d.id).map Override.value
      rw [empty]
      rfl
  | some q =>
      rw [storage] at up
      obtain ⟨savedSame,groupSame⟩ := lossless.1 q storage
      have agrees : s.Agrees saved grouped := by
        rcases up with use | empty
        · cases before : s.usable ops with
          | true => exact backed.backed (.inl before)
          | false => exact lossless.2 before use
        · exact backed.backed (.inr empty)
      intro d member
      have before := agrees d member
      rw [kept_storage s d.id q storage] at before
      change (if s.isPhy d.id then grouped p d.id else saved p d.id) = _
      rw [savedSame,groupSame]
      exact before

theorem step_backed (keeps : Keeps ops saved grouped) (backed : s.Backed ops saved grouped) (op : StoreOp π)
    (lossless : Lossless ops saved grouped s op) : (s.step ops op).Backed ops saved grouped := by
  cases op with
  | apply e => exact apply_backed keeps backed e lossless
  | restore id v => exact restore_backed backed id v lossless
  | commitPhyTrial => exact commit_backed keeps backed
  | revertPhyTrial => exact ⟨backed.tidy.revert,backed.enabled,backed.backed⟩
  | restoreDefaults => exact restoreDefaults_backed keeps backed lossless
  | forgetPhyGroup => exact forget_backed backed lossless
  | enablePhyTrial => exact ⟨Store.step_tidy ops backed.tidy .enablePhyTrial,fun _ _ _ => rfl,backed.backed⟩
  | storage p => exact storage_backed backed p lossless

-- A fresh store over a storage that holds nothing, and one a restart filled, are where such a run may start.
theorem fresh_backed (t : Table) (sound : t.Sound) (persist : Option π) (empty : ∀ d ∈ t, (Store.fresh t persist).kept saved grouped d.id = none) :
    (Store.fresh t persist).Backed ops saved grouped :=
  ⟨Store.fresh_tidy t sound persist,fun _ member => absurd member List.not_mem_nil,fun _ => kept_none_agrees _ rfl empty⟩

theorem persist_status_honest (keeps : Keeps ops saved grouped) {start : Store π} (backed : start.Backed ops saved grouped)
    (path : Reached (Store.step ops) (Lossless ops saved grouped) start s) : s.Honest ops saved grouped :=
  (path.invariant (fun now : Store π => now.Backed ops saved grouped) backed fun _ op inv lossless => step_backed keeps inv op lossless).honest

end

-- A storage that stays usable and takes no write, and so holds nothing.
def refusing : Persist Unit := {usable := fun _ => true,save := fun _ _ _ => (false,()),clearAll := fun _ => (true,()),saveGroup := fun _ _ => (false,())}

def holdsNothing : Unit → UInt16 → Option Value := fun _ _ => none

theorem refusing_keeps : Keeps refusing holdsNothing holdsNothing where
  save := by intro _ _ _ made; cases made
  clearAll := fun _ _ => ⟨rfl,rfl⟩
  saveGroup := by intro _ _ made; cases made
  groupRefused := fun _ _ _ => ⟨rfl,rfl⟩

-- cad_retries is set to 7, the save fails, and PERSISTED is reported; a restart runs at 5.
theorem persist_status_after_failed_save :
    ¬ ∀ s : Store Unit, Operated refusing [nodeCommonParams,gateLinkParams] s → s.Honest refusing holdsNothing holdsNothing := by
  intro claimed
  have operated : Operated refusing [nodeCommonParams,gateLinkParams]
      (Store.step refusing (Store.fresh (Blocks.table [nodeCommonParams,gateLinkParams]) (some ()))
        (.apply {paramId := 0x0102,len := 1,value := packValue 1 7})) :=
    ⟨gateLinkBlocks_built,gateLinkBlocks_operated.2.1,some (),.step _ _ .refl trivial⟩
  have effective := (claimed _ operated (by decide +kernel)).2 0x0102
  exact absurd effective (by decide +kernel)

-- A storage that takes every write.
structure Medium where
  saved : UInt16 → Option Value := fun _ => none
  grouped : UInt16 → Option Value := fun _ => none

def taking : Persist Medium where
  usable := fun _ => true
  save := fun m id v => (true,{m with saved := Function.update m.saved id (some v)})
  clearAll := fun m => (true,{m with saved := fun _ => none})
  saveGroup := fun m values => (true,{m with grouped := fun id => (values.find? fun row => row.1 == id).map Prod.snd})

theorem find_row (values : List (UInt16 × Value)) (row : UInt16 × Value) (inside : row ∈ values) (distinct : (values.map Prod.fst).Nodup) :
    values.find? (fun other => other.1 == row.1) = some row := by
  induction values with
  | nil => cases inside
  | cons first rest ih =>
      obtain ⟨apart,later⟩ := List.nodup_cons.mp distinct
      rcases List.mem_cons.mp inside with rfl | behind
      · rw [List.find?_cons,beq_self_eq_true]
      · have other : (first.1 == row.1) = false := by
          rw [beq_eq_false_iff_ne]
          exact fun same => apart (same ▸ List.mem_map_of_mem behind)
        rw [List.find?_cons,other]
        exact ih behind later

theorem taking_keeps : Keeps taking Medium.saved Medium.grouped where
  save := fun _ _ _ _ => ⟨rfl,rfl⟩
  clearAll := fun _ _ => ⟨rfl,rfl⟩
  saveGroup := by
    intro m values _
    refine ⟨rfl,fun row inside distinct => ?_⟩
    change (values.find? fun other => other.1 == row.1).map Prod.snd = some row.2
    rw [find_row values row inside distinct]
    rfl
  groupRefused := by intro _ _ refused; cases refused

-- cad_retries is saved as 7 and a trial of freq_hz at 920 MHz committed: PERSISTED is reported, and a restart runs on both.
def savedAndCommitted : List (StoreOp Medium) :=
  [.apply {paramId := 0x0102,len := 1,value := packValue 1 7},.enablePhyTrial,
    .apply {paramId := 0x0110,ptype := ptypeU32,len := 4,value := packValue 4 920000000},.commitPhyTrial]

def storeSaved : Store Medium :=
  savedAndCommitted.foldl (Store.step taking) (Store.fresh (Blocks.table [nodeCommonParams,gateLinkParams]) (some {}))

theorem persist_status_honest_saved : storeSaved.readPersistStatus taking = .persisted ∧
    (storeSaved.restarted taking Medium.saved Medium.grouped).effective 0x0102 = 7 ∧
    (storeSaved.restarted taking Medium.saved Medium.grouped).effective 0x0110 = 920000000 := by
  have sound := gateLinkBlocks_built.sound gateLinkBlocks_operated.2.1
  have empty : (Store.fresh (Blocks.table [nodeCommonParams,gateLinkParams]) (some {})).Backed taking Medium.saved Medium.grouped :=
    fresh_backed _ sound (some ({} : Medium)) fun _ _ => ite_self none
  have run : Follows (Store.step taking) (Lossless taking Medium.saved Medium.grouped)
      (Store.fresh (Blocks.table [nodeCommonParams,gateLinkParams]) (some {})) savedAndCommitted :=
    ⟨fun _ _ _ _ _ _ _ => rfl,trivial,fun _ _ _ _ _ _ _ => rfl,trivial,trivial⟩
  have honest : storeSaved.Honest taking Medium.saved Medium.grouped := persist_status_honest taking_keeps empty run.reached
  have values : storeSaved.readPersistStatus taking = .persisted ∧ storeSaved.effective 0x0102 = 7 ∧ storeSaved.effective 0x0110 = 920000000 := by
    decide +kernel
  obtain ⟨persisted,retries,freq⟩ := values
  have restarts := (honest persisted).2
  exact ⟨persisted,(restarts 0x0102).trans retries,(restarts 0x0110).trans freq⟩

end LoraRan.Config
