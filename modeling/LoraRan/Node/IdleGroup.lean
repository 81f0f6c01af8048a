import LoraRan.Node.PhyBoard

namespace LoraRan.Node.IdleGroup
open Protocol Config Library.StepSystem

inductive BoardInput where
  | begin
  | reboot
  | set (entries : List ConfigEntry) (slot : Nat) (members : UInt8) (nowMs : UInt32)
  | retuned (nowMs : UInt32)
  | authenticated
  | tick (nowMs : UInt32)
  | reset

def step (t : PhyTrial) : BoardInput → PhyTrial
  | .begin => t.begin.2
  | .reboot => (PhyTrial.boot t.store.persist).2
  | .set entries slot members nowMs => t.takeSet entries slot members nowMs
  | .retuned nowMs => t.onRetuned nowMs
  | .authenticated => t.onAuthenticated
  | .tick nowMs => (t.tick nowMs).2
  | .reset => t.resetToDefaults.2

-- A machine over a store, before begin().
def start (p : BlobStore) : PhyTrial := {store := {table := nodeCommonParams,persist := some p}}

-- An idle board takes a whole SET or nothing of it, and begin() finds no change under way.
def WholeSets (t : PhyTrial) : BoardInput → Prop
  | .set entries slot _ _ =>
      t.state = .idle → t.store.phyWritable phyPersist = true →
        (slot < 8 ∧ ∀ e ∈ phyEntries entries, PhyExact e) ∨ ∀ e ∈ phyEntries entries, ¬ PhyTaken e
  | .begin => t.state = .idle
  | _ => True

instance wholeSetsDecidable (t : PhyTrial) : (i : BoardInput) → Decidable (WholeSets t i)
  | .set _ _ _ _ => inferInstanceAs (Decidable (_ → _ → _ ∨ _))
  | .begin => inferInstanceAs (Decidable (_ = _))
  | .reboot | .retuned _ | .authenticated | .tick _ | .reset => inferInstanceAs (Decidable True)

structure Settles (t : PhyTrial) : Prop where
  grounded : t.Grounded
  idle : t.state = .idle → t.store.trial = []

theorem set_settles (t : PhyTrial) (settles : Settles t) (entries : List ConfigEntry) (slot : Nat) (members : UInt8) (nowMs : UInt32)
    (whole : WholeSets t (.set entries slot members nowMs)) : Settles (t.takeSet entries slot members nowMs) := by
  refine ⟨takeSet_grounded settles.grounded entries slot members nowMs,?_⟩
  have phy := phyEntries_phy entries
  unfold PhyTrial.takeSet
  dsimp only
  split
  · exact settles.idle
  · obtain ⟨⟨trial,moved⟩,_⟩ := setEach_sets settles.grounded (phyEntries entries) phy
    rcases onSet_cases (t.setEach (phyEntries entries)).2 slot (allOk (t.setEach (phyEntries entries)).1) members nowMs with
      ⟨refused,same⟩ | ⟨_,_,_,_,_,_,_,pending,_⟩
    · rw [same]
      intro idle
      have was : t.state = .idle := by rw [moved] at idle; exact idle
      have unmoved : (t.setEach (phyEntries entries)).2 = t := by
        refine setEach_refused settles.grounded _ phy fun writable => ?_
        rcases whole was writable with ⟨inside,exactly⟩ | none_
        · -- a whole SET is counted, so on_set() cannot have refused it
          have ok := (setEach_ok settles.grounded _ phy (by rw [was]; decide) writable).mpr exactly
          rcases refused with trial | failed | outside
          · rw [moved] at trial
            exact absurd (was.symm.trans trial) (by decide)
          · rw [ok] at failed
            cases failed
          · omega
        · exact none_
      rw [unmoved]
      exact settles.idle was
    · rw [pending]
      intro idle
      cases idle

theorem step_settles (t : PhyTrial) (i : BoardInput) (settles : Settles t) (allowed : WholeSets t i) : Settles (step t i) := by
  cases i with
  | begin =>
      obtain ⟨grounded,empty,_⟩ := begin_grounded settles.grounded (settles.idle allowed)
      exact ⟨grounded,fun _ => empty⟩
  | reboot =>
      obtain ⟨p,here,usable⟩ := usable_some t settles.grounded.usable
      obtain ⟨grounded,empty,_⟩ := boot_grounded p usable
      unfold step
      rw [here]
      exact ⟨grounded,fun _ => empty⟩
  | set entries slot members nowMs => exact set_settles t settles entries slot members nowMs allowed
  | retuned nowMs =>
      refine ⟨onRetuned_grounded settles.grounded nowMs,?_⟩
      change (t.onRetuned nowMs).state = .idle → (t.onRetuned nowMs).store.trial = []
      rcases t.onRetuned_cases nowMs with ⟨_,moved⟩ | ⟨_,moved⟩
      · rw [moved]
        exact settles.idle
      · rw [moved]
        intro idle
        cases idle
  | authenticated =>
      refine ⟨onAuthenticated_grounded settles.grounded,?_⟩
      change t.onAuthenticated.state = .idle → t.onAuthenticated.store.trial = []
      rcases PhyTrial.onAuthenticated_cases settles.grounded with ⟨_,same⟩ | ⟨_,_,same,_⟩ | ⟨_,empty,same⟩ | ⟨_,_,_,_,_,held,same⟩
      · rw [same]
        exact settles.idle
      · rw [same]
        exact settles.idle
      · rw [same]
        exact fun _ => empty
      · rw [same,held]
        exact fun _ => rfl
  | tick nowMs =>
      refine ⟨tick_grounded settles.grounded nowMs,?_⟩
      change (t.tick nowMs).2.state = .idle → (t.tick nowMs).2.store.trial = []
      rcases t.tick_cases nowMs with ⟨_,_,moved⟩ | same | ⟨_,moved⟩
      · rw [moved]
        exact fun _ => rfl
      · rw [same]
        exact settles.idle
      · rw [moved]
        exact fun _ => rfl
  | reset =>
      refine ⟨reset_grounded settles.grounded,?_⟩
      change t.resetToDefaults.2.state = .idle → t.resetToDefaults.2.store.trial = []
      obtain ⟨p,store,_,_,held,same⟩ := PhyTrial.reset_eq settles.grounded
      rw [same,held]
      exact fun _ => rfl

theorem start_settles (p : BlobStore) (usable : p.usable = true) : Settles (start p) :=
  ⟨⟨⟨nodeCommonParams_sound,List.nodup_nil,fun _ member => absurd member List.not_mem_nil,List.nodup_nil,
    fun _ member => absurd member List.not_mem_nil⟩,rfl,usable,rfl⟩,fun _ => rfl⟩

-- Idle means the committed group, with nothing of a trial left in the store.
theorem idle_means_committed (p : BlobStore) (usable : p.usable = true) (t : PhyTrial)
    (reached : Reached step WholeSets (start p) t) (idle : t.state = .idle) :
    t.group = t.committed ∧ t.store.trial = [] ∧ t.store.readPersistStatus phyPersist = .persisted := by
  have settles := reached.invariant Settles (start_settles p usable) fun t i settles allowed => step_settles t i settles allowed
  have empty := settles.idle idle
  refine ⟨?_,empty,?_⟩
  · rw [settles.grounded.committed]
    exact group_settled t empty
  · unfold Store.readPersistStatus
    rw [empty,show t.store.usable phyPersist = true from settles.grounded.usable]
    simp

-- 200 kHz is not on the bandwidth's list.
def bandwidth200 : ConfigEntry := {paramId := 0x0112,ptype := ptypeU16,len := 2,value := [200,0,0,0]}

-- A whole change, confirmed.
def confirmedChange : List BoardInput := [.begin,.set [spreadingFactor 7] 0 1 0,.retuned 10,.authenticated]

theorem idle_means_committed_after_change :
    ∃ t : PhyTrial, Reached step WholeSets (start {}) t ∧ t.state = .idle ∧ t.group.spreadingFactor = 7 ∧ t.group = t.committed ∧
      t.store.trial = [] := by
  have run : Follows step WholeSets (start {}) confirmedChange := by decide +kernel
  let t := confirmedChange.foldl step (start {})
  have idle : t.state = .idle := by decide +kernel
  obtain ⟨same,empty,_⟩ := idle_means_committed {} rfl t run.reached idle
  exact ⟨t,run.reached,idle,by decide +kernel,same,empty⟩

-- One SET with a row taken and a row refused: the board stays idle with the row it took in its trial copy.
def mixedSet : List BoardInput := [.begin,.set [spreadingFactor 7,bandwidth200] 0 1 0]

theorem mixed_set_leaves_idle_dirty :
    ∃ t, Reached step (fun _ _ => True) (start {}) t ∧ t.state = .idle ∧ t.group ≠ t.committed ∧ t.store.trial ≠ [] ∧
      t.store.readPersistStatus phyPersist = .appliedNotPersisted := by
  refine ⟨mixedSet.foldl step (start {}),Follows.reached (by simp [mixedSet,Follows]),?_,?_,?_,?_⟩ <;> decide +kernel

end LoraRan.Node.IdleGroup
