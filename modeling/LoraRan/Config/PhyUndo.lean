import LoraRan.Config.TruthfulApply

namespace LoraRan.Config
open Protocol Library.StepSystem

section
variable {π : Type} {ops : Persist π} {s : Store π}

-- An operation that leaves the committed layer of a row as it is: it neither writes the row itself nor confirms a trial.
def Leaves (ops : Persist π) (id : UInt16) (s : Store π) : StoreOp π → Prop
  | .apply e => e.paramId = id → s.isPhy id = true
  | .restore other _ => other ≠ id
  | .commitPhyTrial => s.trial ≠ [] → (s.commitPhyTrial ops).1 = false
  | .restoreDefaults => s.isPhy id = true
  | .forgetPhyGroup => s.isPhy id = false
  | _ => True

theorem valueAt_filter (values : List Override) (keep : UInt16 → Bool) (id : UInt16) :
    valueAt (values.filter fun o => keep o.id) id = if keep id = true then valueAt values id else none := by
  induction values with
  | nil => exact (ite_self none).symm
  | cons o rest ih =>
      unfold valueAt at *
      rw [List.filter_cons]
      cases here : (o.id == id) with
      | true =>
          have same : o.id = id := by simpa using here
          rw [same]
          split
          · rw [List.find?_cons,here,List.find?_cons,here]
          · rename_i dropped
            rw [ih,if_neg dropped]
      | false =>
          split
          · rw [List.find?_cons,here,List.find?_cons,here]
            exact ih
          · rw [ih,List.find?_cons,here]

theorem Store.revert_effective (s : Store π) (id : UInt16) (d : ParamDef) (found : s.table.row id = some d) :
    s.revertPhyTrial.effective id = ((valueAt s.overrides id).map Override.value).getD d.default :=
  Store.effective_row s.revertPhyTrial id d found

theorem step_committed (tidy : s.Tidy) (id : UInt16) (op : StoreOp π) (leaves : Leaves ops id s op) :
    valueAt (s.step ops op).overrides id = valueAt s.overrides id := by
  cases op with
  | apply e =>
      have possible := s.apply_case ops tidy e
      change valueAt (s.apply ops e).store.overrides id = _
      generalize s.apply ops e = a at possible ⊢
      cases possible with
      | unknown => rfl
      | mismatched => rfl
      | refused => rfl
      | off => rfl
      | tried => rfl
      | kept d found shaped plain listed =>
          have same := (row_mem s.table _ d found).2
          have away : id ≠ d.id := by
            rintro rfl
            have phy := (isPhy_row (by rw [same]; exact found)).mp (leaves same.symm)
            rw [plain] at phy
            cases phy
          rw [valueAt_setValue,if_neg away]
  | restore other v =>
      change valueAt (s.restore ops other v).2.overrides id = _
      rcases tidy.restore ops other v with same | ⟨d,_,_,_,same⟩
      · rw [same]
      · rw [same,valueAt_setValue,if_neg (Ne.symm leaves)]
  | commitPhyTrial =>
      change valueAt (s.commitPhyTrial ops).2.overrides id = _
      rcases tidy.commit ops with ⟨_,_,same⟩ | ⟨persist,_,same,_⟩ | ⟨p,_,confirmed,_,same⟩
      · rw [same]
      · rw [same]
      · by_cases idle : s.trial = []
        · have nothing : (s.commitPhyTrial ops).2 = s := by
            unfold Store.commitPhyTrial
            rw [if_pos (by rw [idle]; rfl)]
          rw [nothing]
        · rw [leaves idle] at confirmed
          cases confirmed
  | revertPhyTrial => rfl
  | restoreDefaults =>
      obtain ⟨persist,same,_⟩ := tidy.restoreDefaults ops
      change valueAt (s.restoreDefaults ops).2.overrides id = _
      rw [same]
      exact (valueAt_filter s.overrides s.isPhy id).trans (if_pos leaves)
  | forgetPhyGroup =>
      refine (valueAt_filter s.overrides (fun other => !s.isPhy other) id).trans (if_pos ?_)
      rw [leaves]
      rfl
  | enablePhyTrial => rfl
  | storage p => rfl

theorem reached_committed (tidy : s.Tidy) (id : UInt16) {later : Store π} (path : Reached (Store.step ops) (Leaves ops id) s later) :
    later.Tidy ∧ later.table = s.table ∧ valueAt later.overrides id = valueAt s.overrides id := by
  refine path.invariant (fun later => later.Tidy ∧ later.table = s.table ∧ valueAt later.overrides id = valueAt s.overrides id) ⟨tidy,rfl,rfl⟩ ?_
  intro now op inv leaves
  exact ⟨Store.step_tidy ops inv.1 op,(Store.step_table ops inv.1 op).trans inv.2.1,(step_committed inv.1 id op leaves).trans inv.2.2⟩

-- From before a trial, whatever the trial did: a row nothing else wrote is back at its value.
theorem reverted_value (tidy : s.Tidy) (idle : s.trial = []) (id : UInt16) {later : Store π}
    (path : Reached (Store.step ops) (Leaves ops id) s later) : later.revertPhyTrial.effective id = s.effective id := by
  obtain ⟨_,table,kept⟩ := reached_committed tidy id path
  cases found : s.table.row id with
  | none =>
      have found' : later.revertPhyTrial.table.row id = none := by
        change later.table.row id = none
        rw [table,found]
      simp only [Store.effective,found,found']
  | some d =>
      rw [later.revert_effective id d (by rw [table]; exact found),s.effective_row id d found,kept,idle]
      rfl

theorem plain_untried (tidy : s.Tidy) (d : ParamDef) (member : d ∈ s.table) (plain : d.access ≠ .phy) : valueAt s.trial d.id = none := by
  cases trial : valueAt s.trial d.id with
  | none => rfl
  | some t =>
      obtain ⟨inside,same⟩ := valueAt_mem s.trial d.id t trial
      obtain ⟨e,found,phy,_⟩ := tidy.trialHeld t inside
      rw [same,row_of_mem s.table tidy.sound d member] at found
      cases found
      exact absurd phy plain

theorem restoreDefaults_rows (tidy : s.Tidy) (d : ParamDef) (member : d ∈ s.table) :
    (d.access = .phy →
      (s.restoreDefaults ops).2.effective d.id = s.effective d.id ∧ (s.restoreDefaults ops).2.isOverride d.id = s.isOverride d.id ∧
        (s.restoreDefaults ops).2.markedOverride d.id = s.markedOverride d.id) ∧
      (d.access ≠ .phy → (s.restoreDefaults ops).2.effective d.id = d.default ∧ (s.restoreDefaults ops).2.markedOverride d.id = false) := by
  obtain ⟨persist,left,_⟩ := tidy.restoreDefaults ops
  have found := row_of_mem s.table tidy.sound d member
  have kind := isPhy_row found
  have kept := valueAt_filter s.overrides s.isPhy d.id
  have was := s.effective_row d.id d found
  have now : (s.restoreDefaults ops).2.effective d.id =
      ((valueAt s.trial d.id).map Override.value).getD
        (((valueAt (s.overrides.filter fun o => s.isPhy o.id) d.id).map Override.value).getD d.default) := by
    rw [left]
    exact Store.effective_row _ d.id d found
  have slot : (s.restoreDefaults ops).2.slot d.id = valueAt (s.overrides.filter fun o => s.isPhy o.id) d.id := by
    rw [left]
    rfl
  have trialSlot : (s.restoreDefaults ops).2.trialSlot d.id = valueAt s.trial d.id := by
    rw [left]
    rfl
  unfold Store.markedOverride Store.isOverride
  rw [now,slot,trialSlot,kept]
  constructor
  · intro phy
    rw [if_pos (kind.mpr phy)]
    exact ⟨was.symm,rfl,rfl⟩
  · intro plain
    rw [if_neg fun phy => plain (kind.mp phy),plain_untried tidy d member plain]
    exact ⟨rfl,rfl⟩

theorem store_invariant_over_runs {blocks : Blocks} (operated : Operated ops blocks s) :
    (∀ d ∈ blocks.table, d.min ≤ s.effective d.id ∧ s.effective d.id ≤ d.max ∧ valueAllowed d (s.effective d.id) = true) ∧
    (s.overrides.map Override.id).Nodup ∧ (s.trial.map Override.id).Nodup ∧
    s.overrides.length ≤ blocks.table.length ∧ s.trial.length ≤ phyGroupSize ∧
    (s.trial = [] → ∀ id later, Reached (Store.step ops) (Leaves ops id) s later → later.revertPhyTrial.effective id = s.effective id) ∧
    ((s.commitPhyTrial ops).1 = false → ∃ persist, (s.commitPhyTrial ops).2 = {s with persist := persist}) ∧
    (∀ d ∈ blocks.table, d.access = .phy →
      (s.restoreDefaults ops).2.effective d.id = s.effective d.id ∧ (s.restoreDefaults ops).2.isOverride d.id = s.isOverride d.id ∧
        (s.restoreDefaults ops).2.markedOverride d.id = s.markedOverride d.id) ∧
    (∀ d ∈ blocks.table, d.access ≠ .phy → (s.restoreDefaults ops).2.effective d.id = d.default) := by
  obtain ⟨tidy,table⟩ := operated.tidy
  rw [← table]
  refine ⟨?_,tidy.distinct,tidy.trialDistinct,?_,?_,fun idle id later path => reverted_value tidy idle id path,?_,?_,?_⟩
  · intro d member
    obtain ⟨fixed,listed⟩ := tidy.effective_settled d.id d (row_of_mem s.table tidy.sound d member)
    have range := tidy.sound.ranges d member
    unfold clamp at fixed
    simp only [Int32.lt_iff_toInt_lt,Int32.le_iff_toInt_le] at *
    refine ⟨?_,?_,listed⟩
    · split at fixed
      · rw [← fixed]
      · omega
    · split at fixed
      · omega
      · split at fixed
        · rw [← fixed]
        · omega
  · have bounded := rows_bounded s.table (fun _ => true) s.overrides tidy.distinct fun o member => by
      obtain ⟨d,found,_⟩ := tidy.held o member
      exact ⟨d,found,rfl⟩
    rw [List.filter_true] at bounded
    exact bounded
  · refine (rows_bounded s.table (fun d => d.access = .phy) s.trial tidy.trialDistinct fun o member => ?_).trans tidy.sound.phy
    obtain ⟨d,found,phy,_⟩ := tidy.trialHeld o member
    exact ⟨d,found,by simpa using phy⟩
  · intro failed
    rcases tidy.commit ops with ⟨done,_,_⟩ | ⟨persist,_,same,_⟩ | ⟨p,_,done,_,_⟩
    · rw [done] at failed
      cases failed
    · exact ⟨persist,same⟩
    · rw [done] at failed
      cases failed
  · exact fun d member => (restoreDefaults_rows tidy d member).1
  · exact fun d member plain => ((restoreDefaults_rows tidy d member).2 plain).1

end

-- Any operation but a commit that succeeds.
def Unconfirmed (ops : Persist Unit) (s : Store Unit) : StoreOp Unit → Prop
  | .commitPhyTrial => (s.commitPhyTrial ops).1 = false
  | _ => True

-- freq_hz is tried at 920 MHz, cad_retries set to 7, and the trial dropped: cad_retries stays at 7.
def triedBesideSet : List (StoreOp Unit) :=
  [.apply {paramId := 0x0110,ptype := ptypeU32,len := 4,value := packValue 4 920000000},.apply {paramId := 0x0102,len := 1,value := packValue 1 7}]

theorem revert_keeps_other_sets :
    ¬ ∀ s later : Store Unit, Operated keeping [nodeCommonParams,gateLinkParams] s → s.trial = [] →
      Reached (Store.step keeping) (Unconfirmed keeping) s later → ∀ id, later.revertPhyTrial.effective id = s.effective id := by
  intro claimed
  let enabled := Store.step keeping (Store.fresh (Blocks.table [nodeCommonParams,gateLinkParams]) (some ())) .enablePhyTrial
  have operated : Operated keeping [nodeCommonParams,gateLinkParams] enabled :=
    ⟨gateLinkBlocks_built,gateLinkBlocks_operated.2.1,some (),.step _ _ .refl trivial⟩
  have run : Follows (Store.step keeping) (Unconfirmed keeping) enabled triedBesideSet := ⟨trivial,trivial,trivial⟩
  exact absurd (claimed _ _ operated rfl run.reached 0x0102) (by decide +kernel)

-- A storage that takes single values and refuses the group.
def ungrouped : Persist Unit := {usable := fun _ => true,save := fun _ _ _ => (true,()),clearAll := fun _ => (true,()),saveGroup := fun _ _ => (false,())}

def gateLinkStore : Store Unit := Store.fresh (Blocks.table [nodeCommonParams,gateLinkParams]) (some ())

-- cad_retries is set to 7, freq_hz tried at 920 MHz beside it, and the commit of the trial refused.
def retriesSet : Store Unit :=
  [.enablePhyTrial,.apply {paramId := 0x0102,len := 1,value := packValue 1 7}].foldl (Store.step ungrouped) gateLinkStore

def freqTried : List (StoreOp Unit) := [.apply {paramId := 0x0110,ptype := ptypeU32,len := 4,value := packValue 4 920000000},.commitPhyTrial]

def commitRefused : Store Unit := freqTried.foldl (Store.step ungrouped) retriesSet

theorem store_invariant_commit_refused :
    (∀ d ∈ Blocks.table [nodeCommonParams,gateLinkParams],
      d.min ≤ commitRefused.effective d.id ∧ commitRefused.effective d.id ≤ d.max ∧ valueAllowed d (commitRefused.effective d.id) = true) ∧
    commitRefused.trial.length ≤ phyGroupSize ∧
    (commitRefused.effective 0x0110 = 920000000 ∧ commitRefused.revertPhyTrial.effective 0x0110 = retriesSet.effective 0x0110) ∧
    (∃ persist, (commitRefused.commitPhyTrial ungrouped).2 = {commitRefused with persist := persist}) ∧
    (commitRefused.effective 0x0102 = 7 ∧ (commitRefused.restoreDefaults ungrouped).2.effective 0x0102 = 5) := by
  have start : Follows (Store.step ungrouped) (fun _ _ => True) gateLinkStore
      [.enablePhyTrial,.apply {paramId := 0x0102,len := 1,value := packValue 1 7}] := ⟨trivial,trivial,trivial⟩
  have onward : Follows (Store.step ungrouped) (fun _ _ => True) retriesSet freqTried := ⟨trivial,trivial,trivial⟩
  have leaves : Follows (Store.step ungrouped) (Leaves ungrouped 0x0110) retriesSet freqTried := ⟨fun _ => rfl,fun _ => rfl,trivial⟩
  have operated : ∀ later, Reached (Store.step ungrouped) (fun _ _ => True) gateLinkStore later →
      Operated ungrouped [nodeCommonParams,gateLinkParams] later :=
    fun _ path => ⟨gateLinkBlocks_built,gateLinkBlocks_operated.2.1,some (),path⟩
  have set := operated retriesSet start.reached
  have tried := operated commitRefused (start.reached.follow retriesSet freqTried onward)
  have values : commitRefused.effective 0x0110 = 920000000 ∧ commitRefused.effective 0x0102 = 7 ∧ (commitRefused.commitPhyTrial ungrouped).1 = false ∧
      (⟨0x0102,"cad_retries",.readWrite,ptypeU8,0,10,5⟩ : ParamDef) ∈ Blocks.table [nodeCommonParams,gateLinkParams] := by decide +kernel
  obtain ⟨freq,retries,refused,row⟩ := values
  obtain ⟨ranges,_,_,_,room,_,failed,_,defaults⟩ := store_invariant_over_runs tried
  obtain ⟨_,_,_,_,_,undo,_⟩ := store_invariant_over_runs set
  exact ⟨ranges,room,⟨freq,undo rfl 0x0110 _ leaves.reached⟩,failed refused,retries,defaults _ row (by decide)⟩

end LoraRan.Config
