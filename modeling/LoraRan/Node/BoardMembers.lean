import LoraRan.Node.PhyBoard

namespace LoraRan.Node.BoardMembers
open Protocol Config Library.StepSystem

-- A PHY SET as it ended: whether every entry of it answered OK, and the group it left.
structure Taking where
  whole : Bool
  group : PhyGroup
  deriving DecidableEq

-- A board and, for each slot, the latest PHY SET of its identity. No step reads the latter.
structure Board where
  phy : PhyTrial
  latest : Nat → Option Taking := fun _ => none

inductive Input where
  | set (slot : Nat) (entries : List ConfigEntry) (nowMs : UInt32)
  | retuned (nowMs : UInt32)
  | authenticated
  | tick (nowMs : UInt32)
  | reset
  | reboot

def Board.takeSet (b : Board) (members : UInt8) (slot : Nat) (entries : List ConfigEntry) (nowMs : UInt32) : Board :=
  let phy := b.phy.takeSet entries slot members nowMs
  if (phyEntries entries).isEmpty then {b with phy := phy}
  else {phy := phy,latest := Function.update b.latest slot (some ⟨allOk (b.phy.setEach (phyEntries entries)).1,phy.group⟩)}

def step (members : UInt8) (b : Board) : Input → Board
  | .set slot entries nowMs => b.takeSet members slot entries nowMs
  | .retuned nowMs => {b with phy := b.phy.onRetuned nowMs}
  | .authenticated => {b with phy := b.phy.onAuthenticated}
  | .tick nowMs => {b with phy := (b.phy.tick nowMs).2}
  | .reset => {b with phy := b.phy.resetToDefaults.2}
  | .reboot => {b with phy := (PhyTrial.boot b.phy.store.persist).2}

def start (p : BlobStore) : Board := {phy := (PhyTrial.boot (some p)).2}

def hasSlot (mask : UInt8) (slot : Nat) : Bool := mask.toBitVec.getLsbD slot

-- An entry that asks for the value its row runs at, or is refused.
def Unmoving (t : PhyTrial) (e : ConfigEntry) : Prop :=
  ∀ d, nodeCommonParams.row e.paramId = some d → Taken d e → clamp (ConfigEntry.asked e) d = t.store.effective e.paramId

-- No member whose acceptance counts has a later SET refused, and while the retune to the trial group is owed no SET moves the group,
-- unless its sender is the only member.
def Coherent (members : UInt8) (b : Board) : Input → Prop
  | .set slot entries _ =>
      b.phy.state ≠ .trial →
        ((∀ e ∈ phyEntries entries, PhyExact e) ∨ hasSlot members slot = false ∨ hasSlot b.phy.accepted slot = false) ∧
        (b.phy.retuneToTrial = true → (∀ e ∈ phyEntries entries, Unmoving b.phy e) ∨
          (∀ e ∈ phyEntries entries, PhyExact e) ∧ slot < 8 ∧ ∀ other, hasSlot members other = true → other = slot)
  | _ => True

-- Slots.

theorem hasSlot_bound (mask : UInt8) (slot : Nat) (has : hasSlot mask slot = true) : slot < 8 := by
  by_contra outside
  rw [hasSlot,BitVec.getLsbD_of_ge _ _ (by omega)] at has
  cases has

theorem hasSlot_single : ∀ slot < 8, ∀ other < 8, hasSlot ((1 : UInt8) <<< UInt8.ofNat slot) other = decide (other = slot) := by decide

theorem hasSlot_set (mask : UInt8) (slot other : Nat) (inside : slot < 8) (has : hasSlot (mask ||| ((1 : UInt8) <<< UInt8.ofNat slot)) other = true) :
    hasSlot mask other = true ∨ other = slot := by
  have bound := hasSlot_bound _ _ has
  have single := hasSlot_single slot inside other bound
  simp only [hasSlot,UInt8.toBitVec_or,BitVec.getLsbD_or,Bool.or_eq_true] at has single ⊢
  rw [single,decide_eq_true_eq] at has
  exact has

theorem hasSlot_own (mask : UInt8) (slot : Nat) (inside : slot < 8) : hasSlot (mask ||| ((1 : UInt8) <<< UInt8.ofNat slot)) slot = true := by
  have single := hasSlot_single slot inside slot inside
  simp only [hasSlot,UInt8.toBitVec_or,BitVec.getLsbD_or,decide_true] at single ⊢
  rw [single,Bool.or_true]

theorem hasSlot_kept (mask added : UInt8) (slot : Nat) (has : hasSlot mask slot = true) : hasSlot (mask ||| added) slot = true := by
  simp only [hasSlot,UInt8.toBitVec_or,BitVec.getLsbD_or] at has ⊢
  rw [has,Bool.true_or]

theorem covers_iff (accepted members : UInt8) : accepted &&& members = members ↔ ∀ slot, hasSlot members slot = true → hasSlot accepted slot = true := by
  constructor
  · intro all slot has
    rw [← all] at has
    simp only [hasSlot,UInt8.toBitVec_and,BitVec.getLsbD_and,Bool.and_eq_true] at has
    exact has.1
  · intro each
    apply UInt8.toBitVec_inj.mp
    apply BitVec.eq_of_getLsbD_eq
    intro slot _
    rw [UInt8.toBitVec_and,BitVec.getLsbD_and]
    cases has : members.toBitVec.getLsbD slot with
    | false => rw [Bool.and_false]
    | true =>
        rw [Bool.and_true]
        exact each slot has

-- A SET of unmoving entries leaves every row where it was.
theorem setEach_unmoving (t : PhyTrial) (grounded : t.Grounded) (entries : List ConfigEntry) (phy : ∀ e ∈ entries, isPhy e.paramId = true)
    (unmoving : ∀ e ∈ entries, Unmoving t e) (id : UInt16) : (t.setEach entries).2.store.effective id = t.store.effective id := by
  induction entries generalizing t with
  | nil => rfl
  | cons e rest ih =>
      have first := phy e List.mem_cons_self
      have same : ∀ other, (t.set e).2.store.effective other = t.store.effective other := by
        intro other
        rcases set_cases grounded e first with ⟨_,_,d,found,taken,moved,_⟩ | ⟨_,same,_⟩
        · have value := unmoving e List.mem_cons_self d found taken
          have row : t.store.table.row e.paramId = some d := by rw [grounded.table]; exact found
          have set := t.store.effective_setTrial e.paramId other (clamp (ConfigEntry.asked e) d) d row
          rw [moved]
          refine set.trans ?_
          split
          · rename_i here
            rw [here,value]
          · rfl
        · rw [same]
      have later := ih (t.set e).2 (set_grounded grounded e first) (fun other member => phy other (List.mem_cons_of_mem e member)) ?_
      · rw [PhyTrial.setEach]
        exact later.trans (same id)
      · intro other member d found taken
        rw [same other.paramId]
        exact unmoving other (List.mem_cons_of_mem e member) d found taken

-- What the acceptances counted so far stand for.
structure Counted (members : UInt8) (b : Board) : Prop where
  grounded : b.phy.Grounded
  writable : b.phy.store.phyWritable phyPersist = true
  idle : b.phy.state = .idle → b.phy.accepted = 0
  counted : b.phy.state ≠ .trial → ∀ slot, hasSlot members slot = true → hasSlot b.phy.accepted slot = true →
    b.latest slot = some ⟨true,b.phy.pending⟩
  owed : b.phy.retuneToTrial = true →
    b.phy.state = .pending ∧ b.phy.accepted &&& members = members ∧ b.phy.group = b.phy.pending ∧ b.phy.retuneDue = true

theorem hasSlot_zero (slot : Nat) : hasSlot 0 slot = false := by simp [hasSlot]

theorem set_counted (members : UInt8) (b : Board) (slot : Nat) (entries : List ConfigEntry) (nowMs : UInt32) (counted : Counted members b)
    (coherent : Coherent members b (.set slot entries nowMs)) : Counted members (b.takeSet members slot entries nowMs) := by
  have phy := phyEntries_phy entries
  unfold Board.takeSet PhyTrial.takeSet
  dsimp only
  cases named : (phyEntries entries).isEmpty with
  | true =>
      simp only [if_true]
      exact counted
  | false =>
      simp only [Bool.false_eq_true,if_false]
      obtain ⟨⟨trial,moved⟩,grounded⟩ := setEach_sets counted.grounded (phyEntries entries) phy
      generalize results : (b.phy.setEach (phyEntries entries)).1 = answers
      generalize taken : (b.phy.setEach (phyEntries entries)).2 = t at moved grounded
      have writable : t.store.phyWritable phyPersist = true := by rw [moved]; exact counted.writable
      have state : t.state = b.phy.state := by rw [moved]
      have acceptedSame : t.accepted = b.phy.accepted := by rw [moved]
      have pendingSame : t.pending = b.phy.pending := by rw [moved]
      have owedSame : t.retuneToTrial = b.phy.retuneToTrial := by rw [moved]
      have dueSame : t.retuneDue = b.phy.retuneDue := by rw [moved]
      have okIff := fun open_ => setEach_ok counted.grounded (phyEntries entries) phy open_ counted.writable
      rw [results] at okIff
      have stays : b.phy.state ≠ .trial → (∀ e ∈ phyEntries entries, Unmoving b.phy e) → t.group = b.phy.group := by
        intro _ unmoving
        have rows := setEach_unmoving b.phy counted.grounded (phyEntries entries) phy unmoving
        rw [taken] at rows
        unfold PhyTrial.group PhyGroup.of
        simp only [rows]
      rcases onSet_cases t slot (allOk answers) members nowMs with ⟨refused,same⟩ | ⟨open_,ok,inside,accepted,since,due,toTrial,set,count,whole⟩
      · rw [same]
        refine ⟨grounded,writable,by rw [state,acceptedSame]; exact counted.idle,?_,?_⟩
        · intro open_ other member has
          rw [state] at open_
          rw [acceptedSame] at has
          obtain ⟨fine,_⟩ := coherent open_
          by_cases mine : other = slot
          · -- a member's own acceptance is never taken back by a refusal
            subst mine
            rcases refused with trial | failed | outside
            · exact absurd (state ▸ trial) open_
            · rcases fine with exactly | away | fresh
              · rw [(okIff open_).mpr exactly] at failed
                cases failed
              · rw [away] at member
                cases member
              · rw [fresh] at has
                cases has
            · have bound := hasSlot_bound _ _ member
              omega
          · dsimp only
            rw [Function.update_of_ne mine,pendingSame]
            exact counted.counted open_ other member has
        · intro owed
          obtain ⟨pending,all,group,due⟩ := counted.owed (owedSame ▸ owed)
          have open_ : b.phy.state ≠ .trial := by rw [pending]; decide
          refine ⟨state.trans pending,by rw [acceptedSame]; exact all,?_,dueSame.trans due⟩
          rw [pendingSame]
          rcases (coherent open_).2 (owedSame ▸ owed) with unmoving | ⟨exactly,inside,_⟩
          · exact (stays open_ unmoving).trans group
          · rcases refused with trial | failed | outside
            · exact absurd (state ▸ trial) open_
            · rw [(okIff open_).mpr exactly] at failed
              cases failed
            · omega
      · rw [set]
        refine ⟨grounded_moved grounded _ rfl rfl,writable,(by intro idle; cases idle),?_,?_⟩
        · intro _ other member has
          change hasSlot accepted other = true at has
          rw [count] at has
          by_cases mine : other = slot
          · subst mine
            dsimp only
            rw [Function.update_self,ok]
            rfl
          · dsimp only
            rw [Function.update_of_ne mine]
            rcases hasSlot_set _ slot other inside has with before | own
            · split at before
              · rw [hasSlot_zero] at before
                cases before
              · rename_i kept
                push Not at kept
                rw [acceptedSame] at before
                rw [kept.2,pendingSame]
                exact counted.counted (state ▸ open_) other member before
            · exact absurd own mine
        · intro owed
          change toTrial = true at owed
          rcases whole with ⟨_,all,owes,_⟩ | ⟨_,sameDue,still⟩
          · exact ⟨rfl,all,rfl,owes⟩
          · obtain ⟨pending,all,group,owes⟩ := counted.owed (owedSame ▸ still ▸ owed)
            have open' : b.phy.state ≠ .trial := by rw [pending]; decide
            refine ⟨rfl,?_,rfl,sameDue.trans (dueSame.trans owes)⟩
            change accepted &&& members = members
            rw [covers_iff,count]
            intro other member
            rcases (coherent open').2 (owedSame ▸ still ▸ owed) with unmoving | ⟨_,_,only⟩
            · have same : t.group = t.pending := (stays open' unmoving).trans (group.trans pendingSame.symm)
              rw [if_neg (by rw [state,pending]; simp [same]),acceptedSame]
              exact hasSlot_kept _ _ other ((covers_iff _ _).mp all other member)
            · rw [only other member]
              exact hasSlot_own _ slot inside

-- A board that leaves a change behind counts from nothing.
theorem idle_counted (members : UInt8) (b : Board) (t : PhyTrial) (grounded : t.Grounded) (writable : t.store.phyWritable phyPersist = true)
    (cleared : t.accepted = 0) (free : t.retuneToTrial = false) : Counted members {b with phy := t} := by
  refine ⟨grounded,writable,fun _ => cleared,?_,?_⟩
  · intro _ slot _ has
    change hasSlot t.accepted slot = true at has
    rw [cleared,hasSlot_zero] at has
    cases has
  · intro owed
    change t.retuneToTrial = true at owed
    rw [free] at owed
    cases owed

theorem writable_of (t : PhyTrial) (grounded : t.Grounded) (enabled : t.store.phyTrialEnabled = true) : t.store.phyWritable phyPersist = true := by
  unfold Store.phyWritable
  rw [enabled,show t.store.usable phyPersist = true from grounded.usable]
  rfl

theorem Counted.enabled {members : UInt8} {b : Board} (counted : Counted members b) : b.phy.store.phyTrialEnabled = true := by
  have writable := counted.writable
  unfold Store.phyWritable at writable
  rw [Bool.and_eq_true] at writable
  exact writable.1

theorem step_counted (members : UInt8) (b : Board) (i : Input) (counted : Counted members b) (coherent : Coherent members b i) :
    Counted members (step members b i) := by
  have enabled := counted.enabled
  cases i with
  | set slot entries nowMs => exact set_counted members b slot entries nowMs counted coherent
  | retuned nowMs =>
      have grounded := onRetuned_grounded counted.grounded nowMs
      change Counted members {b with phy := b.phy.onRetuned nowMs}
      rcases b.phy.onRetuned_cases nowMs with ⟨free,moved⟩ | ⟨_,moved⟩
      · rw [moved] at grounded ⊢
        refine ⟨grounded,counted.writable,counted.idle,counted.counted,?_⟩
        intro owed
        change b.phy.retuneToTrial = true at owed
        rw [free] at owed
        cases owed
      · rw [moved] at grounded ⊢
        exact ⟨grounded,writable_of _ grounded enabled,(by intro idle; cases idle),fun open_ => absurd rfl open_,(by intro again; cases again)⟩
  | authenticated =>
      have grounded := onAuthenticated_grounded counted.grounded
      change Counted members {b with phy := b.phy.onAuthenticated}
      have free : b.phy.state = .trial → b.phy.retuneToTrial = false := by
        intro trial
        cases owed : b.phy.retuneToTrial with
        | false => rfl
        | true => rw [(counted.owed owed).1] at trial; cases trial
      rcases PhyTrial.onAuthenticated_cases counted.grounded with ⟨_,same⟩ | ⟨trial,_,same,_⟩ | ⟨trial,_,same⟩ | ⟨trial,_,_,_,_,held,same⟩
      · rw [same]
        exact counted
      · rw [same] at grounded ⊢
        refine ⟨grounded,writable_of _ grounded enabled,counted.idle,fun open_ => absurd trial open_,?_⟩
        intro owed
        change b.phy.retuneToTrial = true at owed
        rw [free trial] at owed
        cases owed
      · rw [same] at grounded ⊢
        exact idle_counted members b _ grounded (writable_of _ grounded enabled) rfl (free trial)
      · rw [same] at grounded ⊢
        exact idle_counted members b _ grounded (writable_of _ grounded (by rw [held]; exact enabled)) rfl (free trial)
  | tick nowMs =>
      have grounded := tick_grounded counted.grounded nowMs
      change Counted members {b with phy := (b.phy.tick nowMs).2}
      rcases b.phy.tick_cases nowMs with ⟨_,settled,moved⟩ | same | ⟨_,moved⟩
      · rw [moved] at grounded ⊢
        refine idle_counted members b _ grounded (writable_of _ grounded enabled) rfl ?_
        cases owed : b.phy.retuneToTrial with
        | false => rfl
        | true =>
            obtain ⟨_,_,_,due⟩ := counted.owed owed
            rw [settled] at due
            cases due
      · rw [same]
        exact counted
      · rw [moved] at grounded ⊢
        exact idle_counted members b _ grounded (writable_of _ grounded enabled) rfl rfl
  | reset =>
      have grounded := reset_grounded counted.grounded
      change Counted members {b with phy := b.phy.resetToDefaults.2}
      obtain ⟨_,_,_,_,held,same⟩ := PhyTrial.reset_eq counted.grounded
      rw [same] at grounded ⊢
      exact idle_counted members b _ grounded (writable_of _ grounded (by rw [held]; exact enabled)) rfl rfl
  | reboot =>
      obtain ⟨p,here,usable⟩ := usable_some b.phy counted.grounded.usable
      change Counted members {b with phy := (PhyTrial.boot b.phy.store.persist).2}
      rw [here]
      obtain ⟨grounded,_,_,cleared,free,on⟩ := boot_grounded p usable
      exact idle_counted members b _ grounded (writable_of _ grounded on) cleared free

theorem start_counted (members : UInt8) (p : BlobStore) (usable : p.usable = true) : Counted members (start p) := by
  obtain ⟨grounded,_,_,cleared,free,on⟩ := boot_grounded p usable
  exact idle_counted members (start p) _ grounded (writable_of _ grounded on) cleared free

-- A board enters a trial only on a group that is what each member's latest SET left, and took whole.
theorem trial_group_accepted_by_all (p : BlobStore) (usable : p.usable = true) (members : UInt8) (b : Board)
    (reached : Reached (step members) (Coherent members) (start p) b) (nowMs : UInt32) (before : b.phy.state ≠ .trial)
    (enters : (b.phy.onRetuned nowMs).state = .trial) (slot : Nat) (member : hasSlot members slot = true) :
    b.latest slot = some ⟨true,(b.phy.onRetuned nowMs).group⟩ := by
  have counted := reached.invariant (Counted members) (start_counted members p usable) fun b i counted coherent =>
    step_counted members b i counted coherent
  cases owed : b.phy.retuneToTrial with
  | false =>
      have stays : (b.phy.onRetuned nowMs).state = b.phy.state := by
        unfold PhyTrial.onRetuned
        simp [owed]
      exact absurd (stays.symm.trans enters) before
  | true =>
      obtain ⟨_,all,group,_⟩ := counted.owed owed
      have same : (b.phy.onRetuned nowMs).group = b.phy.group := by
        unfold PhyTrial.onRetuned
        simp only [owed,Bool.not_true,Bool.false_eq_true,if_false]
        rfl
      rw [same,group]
      exact counted.counted before slot member ((covers_iff _ _).mp all slot member)

-- Both identities of a board take the same group.
def agreeingSets : List Input := [.set 0 [spreadingFactor 7] 0,.set 1 [spreadingFactor 7] 10]

theorem trial_group_accepted_by_two :
    ∃ b : Board, Reached (step 3) (Coherent 3) (start {}) b ∧ (b.phy.onRetuned 20).state = .trial ∧ hasSlot 3 1 = true ∧
      b.latest 1 = some ⟨true,(b.phy.onRetuned 20).group⟩ := by
  have run : Follows (step 3) (Coherent 3) (start {}) agreeingSets := by
    refine ⟨fun _ => ⟨.inl (by decide),?_⟩,fun _ => ⟨.inl (by decide),?_⟩,trivial⟩
    · intro owed
      exact absurd owed (by decide +kernel)
    · intro owed
      exact absurd owed (by decide +kernel)
  let b := agreeingSets.foldl (step 3) (start {})
  have before : b.phy.state ≠ .trial := by decide +kernel
  have enters : (b.phy.onRetuned 20).state = .trial := by decide +kernel
  exact ⟨b,run.reached,enters,by decide,trial_group_accepted_by_all {} rfl 3 b run.reached 20 before enters 1 (by decide)⟩

-- A second SET of one identity before the radio has moved: the count starts again, and the retune owed for the first group stays.
def lateSet : List Input := agreeingSets ++ [.set 0 [spreadingFactor 8] 20]

theorem late_set_enters_unaccepted_trial :
    ∃ b : Board, Reached (step 3) (fun _ _ => True) (start {}) b ∧ b.phy.state ≠ .trial ∧ (b.phy.onRetuned 30).state = .trial ∧
      hasSlot 3 1 = true ∧ b.latest 1 ≠ some ⟨true,(b.phy.onRetuned 30).group⟩ := by
  refine ⟨lateSet.foldl (step 3) (start {}),Follows.reached (by simp [lateSet,agreeingSets,Follows]),?_,?_,?_,?_⟩ <;> decide +kernel

end LoraRan.Node.BoardMembers
