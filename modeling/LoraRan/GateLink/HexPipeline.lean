import LoraRan.GateLink.GateLinkApp

namespace LoraRan.GateLink
open Protocol Config Node VeDirect

-- The road of a HEX string through the node: the queue, then the link. Nothing but a forward puts one on it.
structure SameRoad (a b : GateLinkApp) : Prop where
  jobs : b.port.jobs = a.port.jobs
  link : b.port.link = a.port.link
  forwards : b.forwards = a.forwards

theorem SameRoad.trans {a b c : GateLinkApp} (first : SameRoad a b) (second : SameRoad b c) : SameRoad a c :=
  ⟨second.jobs.trans first.jobs,second.link.trans first.link,second.forwards.trans first.forwards⟩

-- Nor does anything but the charger's own road move the answer on its way back or the number of the job in hand.
structure SameSlots (a b : GateLinkApp) : Prop extends SameRoad a b where
  answer : b.port.answer = a.port.answer
  token : b.hexToken = a.hexToken

theorem SameSlots.refl (a : GateLinkApp) : SameSlots a a := ⟨⟨rfl,rfl,rfl⟩,rfl,rfl⟩

theorem SameSlots.trans {a b c : GateLinkApp} (first : SameSlots a b) (second : SameSlots b c) : SameSlots a c :=
  ⟨first.toSameRoad.trans second.toSameRoad,second.answer.trans first.answer,second.token.trans first.token⟩

theorem execute_slots (a : GateLinkApp) (cmd : Command) : SameSlots a (a.execute cmd).2 := by
  unfold GateLinkApp.execute
  split
  · split
    · exact SameSlots.refl a
    · split
      · exact SameSlots.refl a
      · unfold GateLinkApp.dispatch
        by_cases waiting : a.port.commands.isSome = true
        · simp only [if_pos waiting,Bool.not_false,if_true]
          exact ⟨⟨rfl,rfl,rfl⟩,rfl,rfl⟩
        · simp only [if_neg waiting,Bool.not_true,Bool.false_eq_true,if_false]
          exact ⟨⟨rfl,rfl,rfl⟩,rfl,rfl⟩
  · repeat' split
    all_goals exact ⟨⟨rfl,rfl,rfl⟩,rfl,rfl⟩

theorem applyParam_slots (a : GateLinkApp) (cfg : GateLinkConfig) (id : UInt16) : SameSlots a (a.applyParam cfg id).2 := by
  unfold GateLinkApp.applyParam
  dsimp only
  repeat' split
  all_goals exact ⟨⟨rfl,rfl,rfl⟩,rfl,rfl⟩

theorem applyAll_slots (a : GateLinkApp) (cfg : GateLinkConfig) (rows : List ParamDef) : SameSlots a (a.applyAll cfg rows).2 := by
  induction rows generalizing a with
  | nil => exact SameSlots.refl a
  | cons d rest ih =>
      unfold GateLinkApp.applyAll
      split
      · exact ih a
      · exact (applyParam_slots a cfg d.id).trans (ih _)

-- The configuration itself is none of the slots.
theorem SameSlots.configured {a b : GateLinkApp} (cfg : GateLinkConfig) (same : SameSlots (GateLinkApp.noteCard {a with config := some cfg}) b) :
    SameSlots a b := ⟨⟨same.jobs,same.link,same.forwards⟩,same.answer,same.token⟩

theorem configSet_slots (a : GateLinkApp) (entry : ConfigEntry) : SameSlots a (a.configSet entry).2.2 := by
  unfold GateLinkApp.configSet
  split
  · exact SameSlots.refl a
  · dsimp only
    split
    · exact SameSlots.configured _ (applyParam_slots _ _ entry.paramId)
    · exact ⟨⟨rfl,rfl,rfl⟩,rfl,rfl⟩

theorem configRestoreDefaults_slots (a : GateLinkApp) : SameSlots a a.configRestoreDefaults.2 := by
  unfold GateLinkApp.configRestoreDefaults
  split
  · exact SameSlots.refl a
  · exact SameSlots.configured _ (applyAll_slots _ _ _)

theorem appRuns_slots (payloads : Payloads) {a b : GateLinkApp} (runs : AppRuns (gateLinkOps payloads) a b) : SameSlots a b := by
  induction runs with
  | refl a => exact SameSlots.refl a
  | trans _ _ first second => exact first.trans second
  | onPoll a c hdr payload nowMs => exact SameSlots.refl a
  | onPing a c hdr payload fragments nowMs => exact SameSlots.refl a
  | execute a c cmd nowMs => exact execute_slots a cmd
  | buildStatus a c reason nowMs => exact SameSlots.refl a
  | buildEvent a c event detail nowMs => exact ⟨⟨rfl,rfl,rfl⟩,rfl,rfl⟩
  | configSet a c entry => exact configSet_slots a entry
  | configGet a c id =>
      change SameSlots a (a.configGet id).2
      unfold GateLinkApp.configGet
      split <;> exact ⟨⟨rfl,rfl,rfl⟩,rfl,rfl⟩
  | configList a c =>
      change SameSlots a a.configList.2
      unfold GateLinkApp.configList
      split <;> exact ⟨⟨rfl,rfl,rfl⟩,rfl,rfl⟩
  | configRestoreDefaults a c => exact configRestoreDefaults_slots a
  | withhold a c what hdr => exact SameSlots.refl a
  | forceRejectCtx a c hdr => exact SameSlots.refl a
  | freshAck a c seq =>
      change SameSlots a a.freshAck.2
      unfold GateLinkApp.freshAck
      split <;> exact ⟨⟨rfl,rfl,rfl⟩,rfl,rfl⟩

-- A forward queues its string as the next job, or leaves the road as it was.
theorem hexForward_cases (a : GateLinkApp) (hex : Bytes) :
    (a.hexForward hex).2.port.link = a.port.link ∧ (a.hexForward hex).2.forwards = a.forwards + 1 ∧
      ((a.hexForward hex).2.port.jobs = a.port.jobs ∨
        a.port.jobs = none ∧ (a.hexForward hex).2.port.jobs = some ⟨a.hexToken + 1,hex,a.forwards + 1⟩) := by
  unfold GateLinkApp.hexForward
  dsimp only
  split
  · exact ⟨rfl,rfl,.inl rfl⟩
  · unfold GateLinkApp.hexSubmit
    dsimp only
    by_cases busy : a.port.vedBusy = true
    · simp [busy]
    · by_cases full : a.port.jobs.isSome = true
      · simp [busy,full]
      · have empty : a.port.jobs = none := by simpa using full
        simp [busy,empty]

-- What holds across a change of the application off the road and across a completed transaction holds across a poll.
theorem pollHex_rule (mac : Mac) (P : Engine GateLinkApp → Prop)
    (onApp : ∀ n app, SameRoad n.app app → P n → P {n with app := app})
    (onComplete : ∀ n status hex, P n → P (Engine.completeHex mac n status hex).2) (n : Engine GateLinkApp) (holds : P n) :
    P (pollHex mac n) := by
  have paid : P (payRefusal mac n) := by
    unfold payRefusal
    split
    · exact holds
    · exact onComplete _ _ _ (onApp n _ ⟨rfl,rfl,rfl⟩ holds)
  unfold pollHex takeAnswer
  generalize payRefusal mac n = m at paid ⊢
  split
  · exact paid
  · dsimp only
    split
    · exact onApp m _ ⟨rfl,rfl,rfl⟩ paid
    · exact onComplete _ _ _ (onApp m _ ⟨rfl,rfl,rfl⟩ paid)

-- Every string on the road, and every one that left it on the wire, satisfies `S`.
structure OnRoad (S : Bytes → Prop) (a : GateLinkApp) : Prop where
  queued : ∀ job, a.port.jobs = some job → S job.hex
  held : a.port.link.active = true → S a.port.link.job.hex
  wire : ∀ job ∈ a.port.link.wire, S job.hex

section
variable {S : Bytes → Prop} {a b : GateLinkApp}

theorem OnRoad.mono {T : Bytes → Prop} (road : OnRoad S a) (implied : ∀ hex, S hex → T hex) : OnRoad T a :=
  ⟨fun job queued => implied _ (road.queued job queued),fun active => implied _ (road.held active),
    fun job member => implied _ (road.wire job member)⟩

theorem SameRoad.onRoad (same : SameRoad a b) (road : OnRoad S a) : OnRoad S b := by
  refine ⟨?_,?_,?_⟩
  · rw [same.jobs]
    exact road.queued
  · rw [same.link]
    exact road.held
  · rw [same.link]
    exact road.wire

theorem hexForward_onRoad (road : OnRoad S a) (hex : Bytes) (admitted : S hex) : OnRoad S (a.hexForward hex).2 := by
  obtain ⟨link,_,kept | ⟨_,queued⟩⟩ := hexForward_cases a hex
  · exact ⟨kept ▸ road.queued,link ▸ road.held,link ▸ road.wire⟩
  · refine ⟨?_,link ▸ road.held,link ▸ road.wire⟩
    intro job isJob
    rw [queued] at isJob
    cases isJob
    exact admitted

theorem appActs_onRoad (payloads : Payloads) {F : Bytes → Prop} (acts : AppActs (gateLinkOps payloads) F a b)
    (implied : ∀ hex, F hex → S hex) (road : OnRoad S a) : OnRoad S b := by
  induction acts with
  | runs moved => exact (appRuns_slots payloads moved).onRoad road
  | forward a c hex nowMs admitted => exact hexForward_onRoad road hex (implied hex admitted)
  | trans _ _ first second => exact second (first road)

theorem vedStart_onRoad (road : OnRoad S a) (nowMs : UInt32) (took : Bool) : OnRoad S (a.vedStart nowMs took) := by
  unfold GateLinkApp.vedStart
  split
  · exact road
  · rename_i idle
    split
    · exact road
    · rename_i job queued
      have admitted := road.queued job queued
      refine ⟨fun _ none => absurd none (by simp),?_,?_⟩
      · dsimp only
        obtain ⟨active,_⟩ | ⟨_,same,_⟩ := start_cases a.port.link job nowMs took
        · exact absurd active idle
        · rw [same]
          exact fun _ => admitted
      · dsimp only
        obtain ⟨active,_⟩ | ⟨_,_,⟨wire,_⟩ | wire⟩ := start_cases a.port.link job nowMs took
        · exact absurd active idle
        · rw [wire]
          exact road.wire
        · rw [wire]
          intro other member
          rcases List.mem_append.mp member with old | new
          · exact road.wire other old
          · obtain rfl := List.mem_singleton.mp new
            exact admitted

theorem tick_active (v : VedLink) (nowMs : UInt32) (took : Bool) (active : (v.tick nowMs took).active = true) : v.active = true := by
  by_contra idle
  have same : v.tick nowMs took = v := by simp [VedLink.tick,idle]
  rw [same] at active
  exact idle active

theorem vedTick_onRoad (road : OnRoad S a) (nowMs : UInt32) (took : Bool) : OnRoad S (a.onLink (a.port.link.tick nowMs took)) := by
  obtain ⟨job,⟨wire,_⟩ | ⟨active,_,_,wire,_⟩⟩ := tick_cases a.port.link nowMs took
  · refine ⟨road.queued,fun still => ?_,?_⟩
    · change S (a.port.link.tick nowMs took).job.hex
      rw [job]
      exact road.held (tick_active _ nowMs took still)
    · change ∀ other ∈ (a.port.link.tick nowMs took).wire, S other.hex
      rw [wire]
      exact road.wire
  · have admitted := road.held active
    refine ⟨road.queued,fun _ => ?_,?_⟩
    · change S (a.port.link.tick nowMs took).job.hex
      rw [job]
      exact admitted
    · change ∀ other ∈ (a.port.link.tick nowMs took).wire, S other.hex
      rw [wire]
      intro other member
      rcases List.mem_append.mp member with old | new
      · exact road.wire other old
      · obtain rfl := List.mem_singleton.mp new
        exact admitted

theorem vedLine_onRoad (road : OnRoad S a) (line : Bytes) : OnRoad S (a.onLink (a.port.link.onHexLine line)) := by
  unfold VedLink.onHexLine
  split
  · exact road
  · split
    · exact road
    · split
      · exact road
      · exact ⟨road.queued,fun active => Bool.noConfusion active,road.wire⟩

end
end LoraRan.GateLink
