import LoraRan.Bridge.PhyOnFlash

namespace LoraRan.Bridge
open Protocol Config Library.StepSystem

namespace PhyChange
variable {m : PhyChange}

-- Before the commit: nothing of this change is on flash.
def Early (m : PhyChange) : Prop :=
  m.phase = .setDue ∨ m.phase = .awaitingSetAck ∨ m.phase = .retuneDue ∨ m.phase = .awaitingRetune ∨ m.phase = .hearing ∨ m.phase = .commitDue ∨
    m.phase = .abandonDue

-- From the retune to the commit the store holds the trial.
def Trying (m : PhyChange) : Prop := m.phase = .awaitingRetune ∨ m.phase = .hearing ∨ m.phase = .commitDue

-- A move that neither starts a change nor retunes.
structure Quiet (m n : PhyChange) : Prop where
  group : n.to_ = m.to_
  blocks : n.blocksTraffic = true → m.blocksTraffic = true
  early : n.Early → m.Early
  trying : n.Trying → m.Trying

theorem quiet_same {n : PhyChange} (group : n.to_ = m.to_) (phase : n.phase = m.phase) : Quiet m n := by
  refine ⟨group,?_,?_,?_⟩ <;> simp only [blocksTraffic,Early,Trying,phase] <;> exact id

theorem quiet_phase {n : PhyChange} (group : n.to_ = m.to_) (blocks : n.blocksTraffic = true → m.blocksTraffic = true) (early : n.Early → m.Early)
    (untried : ¬ n.Trying) : Quiet m n := ⟨group,blocks,early,fun tried => absurd tried untried⟩

theorem onSent_quiet (seq : Seq) (nowMs : UInt32) : Quiet m (m.onSent seq nowMs) := by
  unfold onSent
  split
  · rename_i phase
    refine quiet_phase rfl ?_ ?_ ?_ <;> simp [blocksTraffic,Early,Trying,phase]
  · rename_i phase
    refine quiet_phase rfl ?_ ?_ ?_ <;> simp [blocksTraffic,Early,Trying,phase]
  · exact quiet_same rfl rfl
  · exact quiet_same rfl rfl

theorem onAired_quiet (nowMs : UInt32) : Quiet m (m.onAired nowMs) := by
  unfold onAired
  split
  · exact quiet_same rfl rfl
  · exact quiet_same rfl rfl
  · split <;> exact quiet_same rfl rfl
  · exact quiet_same rfl rfl

theorem onRetuned_quiet (nowMs : UInt32) : Quiet m (m.onRetuned nowMs) := by
  unfold onRetuned
  split
  · exact quiet_same rfl rfl
  · rename_i there
    have phase : m.phase = .awaitingRetune := Decidable.not_not.mp there
    refine ⟨rfl,?_,?_,?_⟩ <;> simp [blocksTraffic,Early,Trying,phase]

theorem onHeard_quiet (src : NodeId) (rxMs : UInt32) : Quiet m (m.onHeard src rxMs) := by
  unfold onHeard
  split <;> exact quiet_same rfl rfl

theorem onConfigAck_quiet (src : NodeId) (ack : NodeConfigAckV1) (seq : Seq) (nowMs : UInt32) :
    Quiet m (m.onConfigAck src ack seq nowMs).2 := by
  unfold onConfigAck
  split
  · rename_i phase
    split
    · exact quiet_same rfl rfl
    · unfold onSetAck abandon
      dsimp only
      split
      · refine quiet_phase rfl ?_ ?_ ?_ <;> simp [blocksTraffic,Early,Trying,phase]
      · by_cases more : m.index + 1 < nfleet {m with ackMs := Function.update m.ackMs m.index nowMs,lastOpenMs := nowMs}
        · rw [if_pos more]
          refine quiet_phase rfl ?_ ?_ ?_ <;> simp [blocksTraffic,Early,Trying,phase]
        · rw [if_neg more]
          refine quiet_phase rfl ?_ ?_ ?_ <;> simp [blocksTraffic,Early,Trying,phase]
  · rename_i phase
    split
    · exact quiet_same rfl rfl
    · refine quiet_phase rfl ?_ ?_ ?_ <;> simp [blocksTraffic,Early,Trying,phase]
  · rename_i phase
    split
    · exact quiet_same rfl rfl
    · refine quiet_phase rfl ?_ ?_ ?_ <;> simp [blocksTraffic,Early,Trying,phase]
  · exact quiet_same rfl rfl

-- Everything one turn of the machine can be.
inductive Turn (m : PhyChange) : PhyStep × PhyChange → Prop
  | retune (phase : m.phase = .retuneDue) : Turn m ({action := .retune,group := m.to_},{m with retuned := true,phase := .awaitingRetune})
  | commit (trying : m.Trying) : Turn m ({action := .commit,group := m.to_},{m with index := 0,getAttempts := 0,phase := .getDue})
  | abandon (step : PhyStep) (n : PhyChange) (kind : step.action = .abandon) (early : m.Early) (group : n.to_ = m.to_)
      (phase : n.phase = .cooldown) : Turn m (step,n)
  | other (step : PhyStep) (n : PhyChange) (kind : step.action ≠ .retune ∧ step.action ≠ .commit ∧ step.action ≠ .abandon) (quiet : Quiet m n) :
      Turn m (step,n)

theorem quiet_turn {step : PhyStep} {n : PhyChange} (kind : step.action = .none ∨ step.action = .sendPoll ∨ step.action = .readback ∨ step.action = .sendGet)
    (quiet : Quiet m n) : Turn m (step,n) := by
  refine .other step n ?_ quiet
  rcases kind with is | is | is | is <;> rw [is] <;> decide

theorem gone_turn (early : m.Early) (n : PhyChange) (group : n.to_ = m.to_) (reason : PhyReason) (culprit : NodeId) :
    Turn m (n.gone reason culprit) := .abandon _ _ rfl early group rfl

theorem next_turn (m : PhyChange) (nowMs : UInt32) : Turn m (m.next nowMs) := by
  cases phase : m.phase with
  | idle =>
      rw [next_idle nowMs phase]
      exact quiet_turn (.inl rfl) (quiet_same rfl rfl)
  | setDue =>
      rw [next_setDue nowMs phase]
      split
      · exact gone_turn (.inl phase) m rfl _ _
      · exact .other _ _ ⟨by simp,by simp,by simp⟩ (quiet_same rfl rfl)
  | awaitingSetAck =>
      rw [next_awaitingSetAck nowMs phase]
      split
      · exact .abandon _ _ rfl (.inr (.inl phase)) rfl rfl
      · split
        · exact .abandon _ _ rfl (.inr (.inl phase)) rfl rfl
        · exact quiet_turn (.inl rfl) (quiet_same rfl rfl)
  | retuneDue =>
      rw [next_retuneDue nowMs phase]
      exact .retune phase
  | awaitingRetune =>
      rw [next_awaitingRetune nowMs phase]
      split
      · exact gone_turn (.inr (.inr (.inr (.inl phase)))) m rfl _ _
      · exact quiet_turn (.inl rfl) (quiet_same rfl rfl)
  | hearing =>
      cases waits : m.unheard with
      | none =>
          rw [next_hearing_all nowMs phase waits]
          exact .commit (.inr (.inl phase))
      | some i =>
          rw [next_hearing_some nowMs phase waits]
          split
          · exact gone_turn (.inr (.inr (.inr (.inr (.inl phase))))) m rfl _ _
          · obtain ⟨j,step,polls,kind⟩ := nextPoll_cases nowMs m
            rw [polls]
            refine quiet_turn ?_ (quiet_same rfl rfl)
            exact kind.imp id .inl
  | commitDue =>
      have settles : m.next nowMs = m.committed := by
        simp only [next,settle,phase]
        rfl
      rw [settles]
      exact .commit (.inr (.inr phase))
  | getDue =>
      rw [next_getDue nowMs phase]
      exact quiet_turn (.inr (.inr (.inr rfl))) (quiet_same rfl rfl)
  | awaitingGet =>
      rcases next_awaitingGet nowMs phase with answer | ⟨_,answer⟩ | ⟨_,answer⟩ | answer <;> rw [answer]
      · exact quiet_turn (.inl rfl) (quiet_same rfl rfl)
      · refine quiet_turn (.inr (.inr (.inr rfl))) (quiet_phase rfl ?_ ?_ ?_) <;> simp [blocksTraffic,Early,Trying,phase]
      · refine quiet_turn (.inr (.inr (.inr rfl))) (quiet_phase rfl ?_ ?_ ?_) <;> simp [blocksTraffic,Early,Trying,phase]
      · refine quiet_turn (.inl rfl) (quiet_phase rfl ?_ ?_ ?_) <;> simp [blocksTraffic,Early,Trying]
  | confirmed =>
      rw [next_confirmed nowMs phase]
      refine .other _ _ ⟨by simp,by simp,by simp⟩ ?_
      unfold nextGet
      by_cases more : m.index + 1 < m.nfleet
      · rw [if_pos more]
        refine quiet_phase rfl ?_ ?_ ?_ <;> simp [blocksTraffic,Early,Trying,phase]
      · rw [if_neg more]
        refine quiet_phase rfl ?_ ?_ ?_ <;> simp [blocksTraffic,Early,Trying]
  | abandonDue =>
      rw [next_abandonDue nowMs phase]
      exact gone_turn (.inr (.inr (.inr (.inr (.inr (.inr phase)))))) m rfl _ _
  | cooldown =>
      rcases next_cooldown nowMs phase with answer | ⟨-,step,kind,answer⟩ <;> rw [answer]
      · exact quiet_turn (.inl rfl) (quiet_same rfl rfl)
      · refine quiet_turn ?_ (quiet_phase rfl ?_ ?_ ?_)
        · rcases kind with is | is
          · exact .inl is
          · exact .inr (.inr (.inl is))
        all_goals simp [blocksTraffic,Early,Trying]
  | readbackDue =>
      have settles : m.next nowMs = ({action := .readback,dst := m.culprit},{m with phase := .idle}) := by simp only [next,settle,phase]
      rw [settles]
      refine quiet_turn (.inr (.inr (.inl rfl))) (quiet_phase rfl ?_ ?_ ?_) <;> simp [blocksTraffic,Early,Trying]

end PhyChange

theorem fit_lawful {g : PhyGroup} (fit : FitGroup g) : withinEirpCeiling g = true := by
  have bounds : (bridgePhyRow phyTxPower).all (fun d => decide (d.min = -9 ∧ d.max = -4)) = true := by decide +kernel
  obtain ⟨d,here,_⟩ := bridgePhyRow_row phyTxPower
  rw [here] at bounds
  obtain ⟨min,max⟩ := of_decide_eq_true bounds
  have settled := (fit phyTxPower d here).1
  have order : d.min < d.max := by
    rw [min,max]
    decide
  have range := clamp_range d order (g phyTxPower)
  rw [settled,min,max] at range
  have low : (-9 : Value).toInt = -9 := by decide
  have high : (-4 : Value).toInt = -4 := by decide
  rw [low,high] at range
  unfold withinEirpCeiling
  rw [decide_eq_true_eq,Int32.toInt_toInt8,Int.bmod_def]
  unfold antennaGainDbi10 eirpCeilingDbm10
  split <;> omega

namespace PhyFlow
variable {f : PhyFlow}
open ConfigStore (Stays Tried)

-- What holds of the flow however its steps fall: an owed answer on flash is the last written commit's, and before the commit of a change the
-- flash has the rows it had when the change started.
structure Sound (f : PhyFlow) : Prop where
  held : f.config.Held
  enabled : f.config.phyTrialEnabled = true ∧ f.config.bridgeStore.phyTrialEnabled = true
  flash : ∃ p, f.config.bridgeStore.persist = some p ∧ p.open_ = true ∧ ∀ b, p.readBlob = some b → b.ackOwed = true → f.kept = some (b.ackRows,b.rows)
  queued : ∀ j ∈ f.queue, FitGroup j.to_
  waits : f.waiting = true → FitGroup f.job.to_
  running : f.change.blocksTraffic = true → f.change.to_ = f.job.to_ ∧ FitGroup f.job.to_
  tried : f.change.Trying → f.config.Tried f.job.to_
  early : f.change.Early → f.config.flashRows = f.before

theorem flashRows_of {c : ConfigStore NvsPersist} {p : NvsPersist} (here : c.bridgeStore.persist = some p) : c.flashRows = p.flashRows := by
  unfold ConfigStore.flashRows
  rw [here]
  rfl

theorem Trying.blocks {m : PhyChange} (trying : m.Trying) : m.blocksTraffic = true := by
  unfold PhyChange.blocksTraffic
  rcases trying with phase | phase | phase <;> rw [phase]

-- The configuration moves without the trial or the flash's group, the machine without starting, retuning or committing.
theorem Sound.moved (sound : f.Sound) (c : ConfigStore NvsPersist) (m : PhyChange) (held : c.Held) (stays : Stays f.config c)
    (quiet : PhyChange.Quiet f.change m) : Sound {f with config := c,change := m} := by
  obtain ⟨p,here,opened,owes⟩ := sound.flash
  obtain ⟨q,there,steady⟩ := stays.flash p here
  refine ⟨held,⟨stays.enabled.1.trans sound.enabled.1,stays.enabled.2.trans sound.enabled.2⟩,⟨q,there,steady.opened.trans opened,?_⟩,sound.queued,
    sound.waits,?_,?_,?_⟩
  · intro b read owed
    obtain ⟨a,readA,owedA,same⟩ := steady.owes b read owed
    have rows : a.rows = b.rows := by
      rw [← NvsPersist.flashRows_of a readA,← NvsPersist.flashRows_of b read]
      exact steady.rows.symm
    rw [← same,← rows]
    exact owes a readA owedA
  · intro blocks
    obtain ⟨same,fit⟩ := sound.running (quiet.blocks blocks)
    exact ⟨quiet.group.trans same,fit⟩
  · intro trying k
    change valueAt c.bridgeStore.trial (phyId k) = _
    rw [stays.trial]
    exact sound.tried (quiet.trying trying) k
  · intro early
    have before := sound.early (quiet.early early)
    rw [flashRows_of here] at before
    change c.flashRows = f.before
    rw [flashRows_of there,steady.rows]
    exact before

-- What the store and the flash do not see.
theorem Sound.ticketed (sound : f.Sound) (ticket : Bool) : Sound {f with ticket := ticket} :=
  ⟨sound.held,sound.enabled,sound.flash,sound.queued,sound.waits,sound.running,sound.tried,sound.early⟩

theorem Sound.kept_config (sound : f.Sound) (m : PhyChange) (quiet : PhyChange.Quiet f.change m) : Sound {f with change := m} :=
  sound.moved f.config m sound.held (.refl _) quiet

theorem Sound.configured (sound : f.Sound) (c : ConfigStore NvsPersist) (held : c.Held) (stays : Stays f.config c) : Sound {f with config := c} :=
  sound.moved c f.change held stays (PhyChange.quiet_same rfl rfl)

theorem onFlash_held {c : ConfigStore NvsPersist} (held : c.Held) (move : NvsPersist → NvsPersist) : (c.onFlash move).Held :=
  ⟨⟨held.bridge.1.persisted _,held.bridge.2⟩,held.nodes⟩

theorem Sound.flashed (sound : f.Sound) (move : NvsPersist → NvsPersist)
    (steady : ∀ p : NvsPersist, p.open_ = true → NvsPersist.Steady p (move p)) : Sound {f with config := f.config.onFlash move} := by
  obtain ⟨p,here,opened,_⟩ := sound.flash
  refine sound.configured _ (onFlash_held sound.held move) (f.config.onFlash_stays move fun q there => ?_)
  rw [here] at there
  cases there
  exact steady p opened

theorem Sound.asked (sound : f.Sound) (req : ConfigSetRequest) : (f.ask req).Sound := by
  have fit := ConfigStore.phyRequest_fit sound.held req
  unfold ask
  dsimp only
  split
  · exact sound
  · have applied : Sound {f with config := (f.config.apply nvsOps .bridge nodeBridge req maxScopeRows).store} :=
      sound.configured _ (sound.held.applyEntries _ _ _ _) (ConfigStore.applyEntries_stays sound.held sound.enabled.1 _ _ _ _)
    refine ⟨applied.held,applied.enabled,applied.flash,fun j member => ?_,applied.waits,applied.running,applied.tried,applied.early⟩
    rcases List.mem_append.mp member with waiting | fresh
    · exact sound.queued j waiting
    · obtain rfl := List.mem_singleton.mp fresh
      exact fit

theorem Sound.taken (sound : f.Sound) : f.take.Sound := by
  unfold take
  split
  · exact sound
  · rename_i free
    have still : f.change.blocksTraffic = false := by
      cases blocks : f.change.blocksTraffic with
      | false => rfl
      | true =>
          rw [blocks] at free
          exact absurd rfl free
    split
    · exact sound
    · rename_i j rest queue
      have inside : ∀ k ∈ rest, k ∈ f.queue := fun k member => by
        rw [queue]
        exact List.mem_cons_of_mem j member
      refine ⟨sound.held,sound.enabled,sound.flash,fun k member => sound.queued k (inside k member),fun _ => sound.queued j (by rw [queue]; exact List.mem_cons_self),
        fun blocks => ?_,fun trying => ?_,sound.early⟩
      · exact absurd (still.symm.trans blocks) (by decide)
      · exact absurd (still.symm.trans (Trying.blocks trying)) (by decide)

theorem Sound.started (sound : f.Sound) (fleet : List NodeId) (nowMs : UInt32) : (f.start fleet nowMs).2.Sound := by
  unfold start
  split
  · exact sound
  · rename_i ready
    have waits : f.waiting = true := by
      cases waiting : f.waiting with
      | true => rfl
      | false => exact absurd (.inl (by rw [waiting]; decide)) ready
    have fit := sound.waits waits
    unfold PhyChange.start
    by_cases refused : f.change.phase ≠ .idle ∨ fleet.length = 0 ∨ maxPhyFleet < fleet.length ∨ ∀ i, f.job.from_ i = f.job.to_ i
    · rw [if_pos refused]
      exact ⟨sound.held,sound.enabled,sound.flash,sound.queued,(by intro waiting; cases waiting),sound.running,sound.tried,sound.early⟩
    · rw [if_neg refused]
      refine ⟨sound.held,sound.enabled,sound.flash,sound.queued,(by intro waiting; cases waiting),fun _ => ⟨rfl,fit⟩,fun trying => ?_,fun _ => rfl⟩
      rcases trying with phase | phase | phase <;> cases phase

-- The retune of a group every row would keep: the trial is whole before anything is sent.
theorem Sound.retunes (sound : f.Sound) (m : PhyChange) (due : f.change.phase = .retuneDue) (group : m.to_ = f.change.to_)
    (phase : m.phase = .awaitingRetune) : Sound (retune {f with change := m} f.change.to_) := by
  obtain ⟨same,fit⟩ := sound.running (by unfold PhyChange.blocksTraffic; rw [due])
  obtain ⟨p,here,opened,owes⟩ := sound.flash
  have writable : f.config.bridgeStore.phyWritable nvsOps = true := by
    unfold Store.phyWritable Store.usable
    rw [sound.enabled.2,here]
    exact opened
  have before := sound.early (.inr (.inr (.inl due)))
  unfold retune
  rw [same,fit_lawful fit]
  simp only [Bool.not_true,Bool.false_eq_true,if_false]
  obtain ⟨tried,trial,store,persist⟩ := ConfigStore.beginPhyTrial_fit sound.held sound.enabled.1 writable fit
  have held : (f.config.beginPhyTrial nvsOps f.job.to_).2.Held := sound.held.beginPhyTrial f.job.to_
  generalize (f.config.beginPhyTrial nvsOps f.job.to_).2 = c at tried trial store persist held ⊢
  have onC : c.bridgeStore.persist = some p := persist.trans here
  have begun : Sound {f with config := c,change := {m with phase := .awaitingRetune}} := by
    refine ⟨held,⟨trial,store.trans sound.enabled.2⟩,⟨p,onC,opened,owes⟩,sound.queued,sound.waits,fun _ => ⟨group.trans same,fit⟩,fun _ => tried,
      fun _ => ?_⟩
    change c.flashRows = f.before
    rw [flashRows_of onC,← flashRows_of here]
    exact before
  have there : ({m with phase := .awaitingRetune} : PhyChange) = m := by
    rw [← phase]
  rw [there] at begun
  exact (begun.flashed (fun p => (p.markTrial true).2) fun _ opened => NvsPersist.markTrial_steady opened true).ticketed true

-- A commit: the group and its answer are on flash and told, or nothing is.
theorem Sound.commits (sound : f.Sound) (m : PhyChange) (trying : f.change.Trying) (group : m.to_ = f.change.to_) (phase : m.phase = .getDue) :
    Sound (commit {f with change := m}).2 ∧
      ((commit {f with change := m}).1 = none ∧ (commit {f with change := m}).2.config.flashRows = f.before ∨
        (commit {f with change := m}).1 = some (f.job.resolution true true) ∧
          (commit {f with change := m}).2.config.flashRows = groupIds f.job.to_) := by
  obtain ⟨same,fit⟩ := sound.running (Trying.blocks trying)
  obtain ⟨p,here,opened,owes⟩ := sound.flash
  have early : f.change.Early := by
    rcases trying with is | is | is
    · exact .inr (.inr (.inr (.inl is)))
    · exact .inr (.inr (.inr (.inr (.inl is))))
    · exact .inr (.inr (.inr (.inr (.inr (.inl is)))))
  have before := sound.early early
  rw [flashRows_of here] at before
  have stagedHeld := onFlash_held sound.held fun p => p.stageOwedAck (phyAckRows f.job.named f.job.status)
  have stagedFlash : (f.config.onFlash fun p => p.stageOwedAck (phyAckRows f.job.named f.job.status)).bridgeStore.persist =
      some (p.stageOwedAck (phyAckRows f.job.named f.job.status)) := by
    change f.config.bridgeStore.persist.map _ = _
    rw [here]
    rfl
  have stagedTried : (f.config.onFlash fun p => p.stageOwedAck (phyAckRows f.job.named f.job.status)).Tried f.job.to_ := sound.tried trying
  have held : ConfigStore.Held ((f.config.onFlash fun p => p.stageOwedAck (phyAckRows f.job.named f.job.status)).commitPhyTrial nvsOps).2 :=
    stagedHeld.step .commitPhyTrial
  obtain ⟨q,onFlash,still,enabled,store,written⟩ := ConfigStore.commit_tried stagedHeld stagedTried stagedFlash opened rfl
  unfold commit
  dsimp only
  generalize (f.config.onFlash fun p => p.stageOwedAck (phyAckRows f.job.named f.job.status)).commitPhyTrial nvsOps = c at held onFlash enabled store written ⊢
  have trialEnabled : c.2.phyTrialEnabled = true ∧ c.2.bridgeStore.phyTrialEnabled = true :=
    ⟨enabled.trans sound.enabled.1,store.trans sound.enabled.2⟩
  have idle : ¬ m.Trying := by
    unfold PhyChange.Trying
    rw [phase]
    decide
  have late : ¬ m.Early := by
    unfold PhyChange.Early
    rw [phase]
    decide
  rcases written with ⟨done,read⟩ | ⟨failed,blob⟩
  · rw [done]
    simp only [Bool.not_true,Bool.false_eq_true,if_false]
    refine ⟨⟨held,trialEnabled,⟨q,onFlash,still,fun b readB _ => ?_⟩,sound.queued,sound.waits,fun _ => ⟨group.trans same,fit⟩,
      fun trying => absurd trying idle,fun early => absurd early late⟩,.inr ⟨trivial,?_⟩⟩
    · rw [read] at readB
      cases readB
      rfl
    · rw [flashRows_of onFlash]
      exact NvsPersist.flashRows_of _ read
  · rw [failed]
    simp only [Bool.not_false,if_true]
    have blob : q.phy = p.phy := blob
    have steady : NvsPersist.Steady p q := NvsPersist.steady_of_blob (still.trans opened.symm) blob
    have rows : c.2.flashRows = f.before := by
      rw [flashRows_of onFlash,steady.rows]
      exact before
    refine ⟨⟨held,trialEnabled,⟨q,onFlash,still,fun b read owed => ?_⟩,sound.queued,sound.waits,fun _ => ?_,fun trying => ?_,fun _ => rows⟩,
      .inl ⟨trivial,rows⟩⟩
    · have reads : q.readBlob = p.readBlob := by
        unfold NvsPersist.readBlob
        rw [still,opened,blob]
      exact owes b (reads.symm.trans read) owed
    · unfold PhyChange.commitFailed PhyChange.abandon
      split <;> exact ⟨group.trans same,fit⟩
    · unfold PhyChange.commitFailed PhyChange.abandon at trying
      split at trying
      · rcases trying with is | is | is <;> cases is
      · exact absurd trying idle

theorem Sound.abandons (sound : f.Sound) (m : PhyChange) (early : f.change.Early) (phase : m.phase = .cooldown) (retuned : Bool) (group : PhyGroup) :
    Sound (abandon {f with change := m} retuned group).2 ∧ (abandon {f with change := m} retuned group).2.config.flashRows = f.before := by
  obtain ⟨p,here,opened,owes⟩ := sound.flash
  have quiet : ∀ c : ConfigStore NvsPersist, c.Held → c.phyTrialEnabled = true ∧ c.bridgeStore.phyTrialEnabled = true →
      c.bridgeStore.persist = some p → Sound {f with config := c,change := m} := by
    intro c held enabled onC
    refine ⟨held,enabled,⟨p,onC,opened,owes⟩,sound.queued,sound.waits,fun blocks => ?_,fun trying => ?_,fun early => ?_⟩
    · unfold PhyChange.blocksTraffic at blocks
      rw [phase] at blocks
      cases blocks
    · rcases trying with is | is | is <;> exact absurd (phase.symm.trans is) (by decide)
    · rcases early with is | is | is | is | is | is | is <;> exact absurd (phase.symm.trans is) (by decide)
  have before := sound.early early
  rw [flashRows_of here] at before
  unfold abandon
  dsimp only
  split
  · have reverted := quiet f.config.revertPhyTrial ⟨⟨sound.held.bridge.1.revert,sound.held.bridge.2⟩,sound.held.nodes⟩ sound.enabled here
    have steady := NvsPersist.markTrial_steady opened false
    refine ⟨(reverted.flashed (fun p => (p.markTrial false).2) fun _ opened => NvsPersist.markTrial_steady opened false).ticketed _,?_⟩
    have onFlash : (f.config.revertPhyTrial.onFlash fun p => (p.markTrial false).2).bridgeStore.persist = some (p.markTrial false).2 := by
      change f.config.bridgeStore.persist.map _ = _
      rw [here]
      rfl
    rw [flashRows_of onFlash,steady.rows]
    exact before
  · refine ⟨(quiet f.config sound.held sound.enabled here).ticketed _,?_⟩
    rw [flashRows_of here]
    exact before

-- One turn of the loop: what it publishes as committed and persisted is on flash, and what it gives up left the flash alone.
theorem Sound.acts (sound : f.Sound) (nowMs : UInt32) :
    (f.act nowMs).2.Sound ∧
      (∀ r, (f.act nowMs).1 = some r → r.committed = true → FitGroup r.target ∧ (f.act nowMs).2.config.flashRows = groupIds r.target) ∧
      ((f.change.next nowMs).1.action = .abandon ∨ (f.change.next nowMs).1.action = .commit ∧ (f.act nowMs).1 = none →
        (f.act nowMs).2.config.flashRows = f.before) := by
  have turn := f.change.next_turn nowMs
  unfold act
  generalize f.change.next nowMs = moved at turn ⊢
  cases turn with
  | retune due =>
      refine ⟨sound.retunes _ due rfl rfl,?_,?_⟩
      · intro r published
        cases published
      · rintro (gives | ⟨gives,_⟩) <;> cases gives
  | commit trying =>
      obtain ⟨same,fit⟩ := sound.running (Trying.blocks trying)
      obtain ⟨later,result⟩ := sound.commits {f.change with index := 0,getAttempts := 0,phase := .getDue} trying rfl rfl
      refine ⟨later,?_,?_⟩
      · intro r published committed
        change (commit {f with change := _}).1 = some r at published
        rcases result with ⟨nothing,_⟩ | ⟨told,rows⟩
        · rw [nothing] at published
          cases published
        · rw [told] at published
          cases published
          exact ⟨fit,rows⟩
      · rintro (gives | ⟨_,refused⟩)
        · cases gives
        · change (commit {f with change := _}).1 = none at refused
          rcases result with ⟨_,rows⟩ | ⟨told,_⟩
          · exact rows
          · rw [told] at refused
            cases refused
  | abandon step n kind early group phase =>
      obtain ⟨later,rows⟩ := sound.abandons n early phase step.retuned step.group
      dsimp only
      rw [kind]
      refine ⟨later,?_,fun _ => rows⟩
      intro r published committed
      change some (f.job.resolution false false) = some r at published
      cases published
      cases committed
  | other step n kind quiet =>
      obtain ⟨notRetune,notCommit,notAbandon⟩ := kind
      have still := sound.kept_config n quiet
      dsimp only
      refine ⟨?_,?_,?_⟩
      · split
        · exact absurd (by assumption) notRetune
        · exact absurd (by assumption) notCommit
        · exact absurd (by assumption) notAbandon
        · exact still.configured _ (still.held.noteSetResults _ _) (ConfigStore.noteSetResults_stays _ _ _)
        · exact still
      · intro r published
        split at published
        · cases published
        · exact absurd (by assumption) notCommit
        · exact absurd (by assumption) notAbandon
        · cases published
        · cases published
      · rintro (gives | ⟨gives,_⟩)
        · exact absurd gives notAbandon
        · exact absurd gives notCommit

-- A restart: the group is the flash's, and the flash owes what it owed.
theorem Sound.restarts (sound : f.Sound) (perNode : NodeId → NvsPersist) (writes : List Bool) :
    (f.restart perNode writes).Sound ∧ (f.restart perNode writes).config.phyGroup = storedGroup f.config.flashRows := by
  obtain ⟨p,here,opened,owes⟩ := sound.flash
  have reopened : NvsPersist.Steady p (p.reopened writes) := NvsPersist.steady_of_blob opened.symm rfl
  obtain ⟨held,enabled,store,⟨q,onFlash,steady⟩,group⟩ := ConfigStore.configBegin_spec (p.reopened writes) rfl perNode
  have whole := reopened.trans steady
  unfold restart
  rw [here]
  refine ⟨⟨held,⟨enabled,store⟩,⟨q,onFlash,whole.opened.trans opened,fun b read owed => ?_⟩,fun j member => absurd member List.not_mem_nil,
    (by intro waiting; cases waiting),(by intro blocks; cases blocks),fun trying => ?_,fun early => ?_⟩,?_⟩
  · obtain ⟨a,readA,owedA,same⟩ := whole.owes b read owed
    have rows : a.rows = b.rows := by
      rw [← NvsPersist.flashRows_of a readA,← NvsPersist.flashRows_of b read]
      exact whole.rows.symm
    rw [← same,← rows]
    exact owes a readA owedA
  · rcases trying with is | is | is <;> cases is
  · rcases early with is | is | is | is | is | is | is <;> cases is
  · rw [flashRows_of here]
    exact group.trans (congrArg storedGroup reopened.rows)

theorem Sound.step (sound : f.Sound) (op : PhyFlowOp) : (f.step op).Sound := by
  cases op with
  | ask req => exact sound.asked req
  | set scope node req cap =>
      exact sound.configured _ (sound.held.applyEntries scope node cap req.entries)
        (ConfigStore.applyEntries_stays sound.held sound.enabled.1 scope node cap req.entries)
  | restoreDefaults scope =>
      exact sound.configured _ (sound.held.step (.restoreDefaults scope)) (ConfigStore.restoreDefaults_stays sound.held scope)
  | noteSetResults node results => exact sound.configured _ (sound.held.noteSetResults node results) (ConfigStore.noteSetResults_stays _ _ _)
  | noteReadback node results =>
      have held : (f.config.step nvsOps (.noteReadback node results)).Held := sound.held.step (.noteReadback node results)
      exact sound.configured _ held (ConfigStore.noteReadback_stays _ _ _)
  | take => exact sound.taken
  | start fleet nowMs => exact sound.started fleet nowMs
  | act nowMs => exact (sound.acts nowMs).1
  | retuned nowMs =>
      change (if f.ticket then _ else f).Sound
      split
      · exact (sound.kept_config _ (PhyChange.onRetuned_quiet nowMs)).ticketed false
      · exact sound
  | onSent seq nowMs => exact sound.kept_config _ (PhyChange.onSent_quiet seq nowMs)
  | onAired nowMs => exact sound.kept_config _ (PhyChange.onAired_quiet nowMs)
  | onHeard src rxMs => exact sound.kept_config _ (PhyChange.onHeard_quiet src rxMs)
  | onConfigAck src ack seq nowMs => exact sound.kept_config _ (PhyChange.onConfigAck_quiet src ack seq nowMs)
  | setAckTimeoutMs ms => exact sound.kept_config _ (PhyChange.quiet_same rfl rfl)
  | clearOwedAck => exact sound.flashed _ fun _ opened => NvsPersist.clearOwedAck_steady opened
  | storage writes => exact sound.flashed _ fun _ _ => NvsPersist.steady_of_blob rfl rfl
  | restart perNode writes => exact (sound.restarts perNode writes).1

theorem fresh_sound (flash : NvsPersist) (opened : flash.open_ = true) (perNode : NodeId → NvsPersist) : (fresh flash perNode).Sound := by
  obtain ⟨held,enabled,store,⟨q,onFlash,steady⟩,_⟩ := ConfigStore.configBegin_spec flash opened perNode
  refine ⟨held,⟨enabled,store⟩,⟨q,onFlash,steady.opened.trans opened,fun b read owed => ?_⟩,fun j member => absurd member List.not_mem_nil,
    (by intro waiting; cases waiting),(by intro blocks; cases blocks),fun trying => ?_,fun early => ?_⟩
  · obtain ⟨a,readA,owedA,same⟩ := steady.owes b read owed
    have rows : a.rows = b.rows := by
      rw [← NvsPersist.flashRows_of a readA,← NvsPersist.flashRows_of b read]
      exact steady.rows.symm
    change (flash.readBlob.filter PhyBlob.ackOwed).map _ = _
    rw [readA,Option.filter_some,owedA,← same,← rows]
    rfl
  · rcases trying with is | is | is <;> cases is
  · rcases early with is | is | is | is | is | is | is <;> cases is

-- However the steps fall, writes fail and the power goes: what is told as committed and persisted is on flash and is what a restart comes up
-- with; a change given up leaves the flash's group as it was when the change started; and an answer the flash owes is its own group's.
theorem phy_persisted_is_on_flash {flash : NvsPersist} (opened : flash.open_ = true) {perNode : NodeId → NvsPersist}
    (run : Reached PhyFlow.step (fun _ _ => True) (fresh flash perNode) f) :
    (∀ nowMs r, (f.act nowMs).1 = some r → r.committed = true → r.persisted = true →
      (f.act nowMs).2.config.flashRows = groupIds r.target ∧
        ∀ perNode writes, ((f.act nowMs).2.restart perNode writes).config.phyGroup = r.target) ∧
    (∀ nowMs, (f.change.next nowMs).1.action = .abandon ∨ (f.change.next nowMs).1.action = .commit ∧ (f.act nowMs).1 = none →
      (f.act nowMs).2.config.flashRows = f.before ∧
        ∀ perNode writes, ((f.act nowMs).2.restart perNode writes).config.phyGroup = storedGroup f.before) ∧
    ∀ p b, f.config.bridgeStore.persist = some p → p.readBlob = some b → b.ackOwed = true → f.kept = some (b.ackRows,b.rows) := by
  have sound := run.invariant PhyFlow.Sound (fresh_sound flash opened perNode) fun _ op sound _ => sound.step op
  refine ⟨fun nowMs r published committed _ => ?_,fun nowMs given => ?_,fun p b here read owed => ?_⟩
  · obtain ⟨later,told,_⟩ := sound.acts nowMs
    obtain ⟨fit,rows⟩ := told r published committed
    refine ⟨rows,fun perNode writes => ?_⟩
    rw [(later.restarts perNode writes).2,rows]
    exact storedGroup_ids fit
  · obtain ⟨later,_,left⟩ := sound.acts nowMs
    have rows := left given
    refine ⟨rows,fun perNode writes => ?_⟩
    rw [(later.restarts perNode writes).2,rows]
  · obtain ⟨q,there,_,owes⟩ := sound.flash
    rw [here] at there
    cases there
    exact owes b read owed

-- A change of the spreading factor to 10, on a bridge with an empty flash: asked, accepted by the gate's node, retuned, heard.
def sfTen : ConfigSetRequest := {entries := [⟨"spreading_factor".toUTF8.toList,some 10⟩]}

def sfTenAccepted : NodeConfigAckV1 :=
  {entries := (List.finRange phyGroupSize).filterMap fun k => (bridgePhyRow k).map fun d =>
    ConfigAckEntry.pack {} (nodePhyIds.getD k 0) .ok d.type (rawBits (if d.name = "spreading_factor" then 10 else d.default) d.type)}

def sfTenRun : List PhyFlowOp :=
  [.ask sfTen,.take,.start [nodeGateLink] 0,.act 0,.onSent 1 0,.onConfigAck nodeGateLink sfTenAccepted 1 10,.act 10,.retuned 20,.onHeard nodeGateLink 30]

def sfTenHeard : PhyFlow := sfTenRun.foldl PhyFlow.step (fresh {} fun node => {scope := .node,node := node})

theorem sfTen_told : (sfTenHeard.act 40).1.map (fun r => (r.committed,r.persisted,r.target ⟨1,by decide⟩)) = some (true,true,10) := by decide +kernel

theorem phy_persisted_sf_ten :
    ∃ r, (sfTenHeard.act 40).1 = some r ∧ r.target ⟨1,by decide⟩ = 10 ∧ (sfTenHeard.act 40).2.config.flashRows = groupIds r.target := by
  have follows : Follows PhyFlow.step (fun _ _ => True) (fresh {} fun node => {scope := .node,node := node}) sfTenRun := by decide
  have run : Reached PhyFlow.step (fun _ _ => True) (fresh {} fun node => {scope := .node,node := node}) sfTenHeard := follows.reached
  obtain ⟨r,published,told⟩ := Option.map_eq_some_iff.mp sfTen_told
  rw [Prod.mk.injEq,Prod.mk.injEq] at told
  exact ⟨r,published,told.2.2,((phy_persisted_is_on_flash rfl run).1 40 r published told.1 told.2.1).1⟩

end PhyFlow

end LoraRan.Bridge
