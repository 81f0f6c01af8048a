import LoraRan.Bridge.AirTurn

namespace LoraRan.Bridge
open Protocol Library.StepSystem

-- After a restart every node's context is rolled first. Until a node's roll is done it is sent nothing else that draws on its numbers.

-- A PHY change looks at its fleet's rolls once, when it is asked for: what it orders itself is judged strictly only.
def OrderKind.ofPhy : OrderKind → Bool
  | .phyConfig | .phyReadback => true
  | _ => false

def Admission.Clear (strict : Prop) (pending : NodeId → Bool) : Admission → Prop
  | .roll .. | .readback _ => True
  | .command req _ => pending req.dst = false
  | .hex req _ => classifyHex req.hex = .write → pending req.dst = false
  | .config job deferred _ => (deferred = true → strict) → pending job.dst = false
  | .phy dst .. => strict → pending dst = false

-- A PHY change waits for the configuration path or for its start.
def Tasks.phyAsked (t : Tasks) : Bool := t.phyWaiting.isSome || t.configQueue.any QueuedConfig.isPhy

-- Where the bit is looked at, and what is carried from the look to the draw. A PHY change looks at the fleet when it is asked for and
-- takes the fleet when it starts: strictly, no node is watched anew in between. A slot past the fleet names node 0, which there is not.
structure Tasks.Gate (strict : Prop) (t : Tasks) : Prop where
  mirror : ∀ id, t.roll.pending id = true → t.rollPending id = true
  nought : t.roll.pending 0 = false
  queue : ∀ job deferred, .node job deferred ∈ t.configQueue → (deferred = true → strict) → t.roll.pending job.dst = false
  admitted : ∀ a, t.admission = some a → a.Clear strict t.roll.pending
  fleet : strict → ∀ i, t.roll.pending (t.phy.node i) = false
  culprit : strict → t.roll.pending t.phy.culprit = false
  asked : strict → t.phyAsked = true → ∀ id ∈ nodeTable, t.watched id = true → t.roll.pending id = false
  orders : ∀ o ∈ t.orders, o.pending = true → ¬ strict ∧ o.kind.ofPhy = true

def Tasks.Steady (t : Tasks) : TaskInput → Prop
  | .watch watched => t.phyAsked = true → ∀ id, watched id = true → t.watched id = true
  | _ => True

theorem low_falls {pending pending' : NodeId → Bool} (falls : ∀ id, pending' id = true → pending id = true) (id : NodeId)
    (is : pending id = false) : pending' id = false := by
  rw [← Bool.not_eq_true]
  intro high
  rw [falls id high] at is
  cases is

theorem Admission.Clear.fall {strict : Prop} {pending pending' : NodeId → Bool} {a : Admission} (clear : a.Clear strict pending)
    (falls : ∀ id, pending' id = true → pending id = true) : a.Clear strict pending' := by
  have low := low_falls falls
  cases a with
  | roll dst ctx => trivial
  | command req ctx => exact low _ clear
  | hex req ctx => exact fun write => low _ (clear write)
  | config job deferred seq => exact fun strictly => low _ (clear strictly)
  | readback dst => trivial
  | phy dst config ctx => exact fun s => low _ (clear s)

-- Bits that only fall, queues that only empty, a PHY change that stays the one it is, and no new orders.
theorem Tasks.Gate.fall {strict : Prop} {t t' : Tasks} (gate : t.Gate strict) (falls : ∀ id, t'.roll.pending id = true → t.roll.pending id = true)
    (mirror : ∀ id, t'.roll.pending id = true → t'.rollPending id = true) (queue : ∀ q ∈ t'.configQueue, q ∈ t.configQueue)
    (admission : t'.admission = t.admission ∨ t'.admission = none) (phy : t.phy.Within t'.phy)
    (asked : t'.phyAsked = true → t.phyAsked = true) (watched : t'.watched = t.watched) (orders : t'.orders = t.orders) : t'.Gate strict := by
  have low := low_falls falls
  refine ⟨mirror,low 0 gate.nought,?_,?_,?_,?_,?_,?_⟩
  · exact fun job deferred inside strictly => low _ (gate.queue job deferred (queue _ inside) strictly)
  · intro a is
    rcases admission with same | gone
    · rw [same] at is
      exact (gate.admitted a is).fall falls
    · rw [gone] at is
      cases is
  · intro s i
    rw [PhyChange.node,phy.fleet]
    exact low _ (gate.fleet s i)
  · intro s
    rcases phy.culprit with same | ⟨i,is⟩
    · rw [same]
      exact low _ (gate.culprit s)
    · rw [is]
      exact low _ (gate.fleet s i)
  · intro s which id inside seen
    rw [watched] at seen
    exact low id (gate.asked s (asked which) id inside seen)
  · rw [orders]
    exact gate.orders

theorem Tasks.Gate.takes {strict : Prop} {t : Tasks} (gate : t.Gate strict) (a : Admission) (clear : a.Clear strict t.roll.pending) :
    Tasks.Gate strict {t with admission := some a} := by
  refine ⟨gate.mirror,gate.nought,gate.queue,?_,gate.fleet,gate.culprit,gate.asked,gate.orders⟩
  intro b is
  rw [← Option.some.inj is]
  exact clear

theorem Tasks.Gate.ordered {strict : Prop} {t : Tasks} (gate : t.Gate strict) (kind : OrderKind) (dst : NodeId)
    (clear : t.roll.pending dst = true → ¬ strict ∧ kind.ofPhy = true) :
    ∀ o ∈ t.orders ++ [⟨kind,dst,t.roll.pending dst⟩], o.pending = true → ¬ strict ∧ o.kind.ofPhy = true := by
  intro o inside pending
  rcases List.mem_append.mp inside with before | last
  · exact gate.orders o before pending
  · rw [List.mem_singleton.mp last] at pending ⊢
    exact clear pending

theorem mem_queueConfigJob {queue : List QueuedConfig} {job q : QueuedConfig} (inside : q ∈ queueConfigJob queue job) : q = job ∨ q ∈ queue := by
  unfold queueConfigJob at inside
  split at inside
  · exact (List.mem_append.mp inside).elim .inr fun last => .inl (List.mem_singleton.mp last)
  · exact .inr inside

theorem mem_queueConfigJobToFront {queue : List QueuedConfig} {job q : QueuedConfig} (inside : q ∈ queueConfigJobToFront queue job) :
    q = job ∨ q ∈ queue := by
  unfold queueConfigJobToFront at inside
  split at inside
  · exact List.mem_cons.mp inside
  · exact .inr inside

-- A job that joins the queue, wherever in it, and asks for no change.
theorem Tasks.Gate.queued {strict : Prop} {t : Tasks} (gate : t.Gate strict) (job : ConfigJob) (deferred : Bool)
    (clear : (deferred = true → strict) → t.roll.pending job.dst = false) (queue : List QueuedConfig)
    (joins : ∀ q ∈ queue, q = .node job deferred ∨ q ∈ t.configQueue) :
    Tasks.Gate strict {t with admission := none,configQueue := queue} := by
  refine ⟨gate.mirror,gate.nought,?_,nofun,gate.fleet,gate.culprit,?_,gate.orders⟩
  · intro other late inside strictly
    rcases joins _ inside with is | before
    · cases is
      exact clear strictly
    · exact gate.queue other late before strictly
  · intro s which
    refine gate.asked s ?_
    rw [Tasks.phyAsked,Bool.or_eq_true,List.any_eq_true] at which ⊢
    refine which.imp_right ?_
    rintro ⟨q,inside,phy⟩
    rcases joins q inside with is | before
    · rw [is] at phy
      cases phy
    · exact ⟨q,before,phy⟩

theorem Tasks.Gate.drew {strict : Prop} {t : Tasks} (gate : t.Gate strict) (nowMs : UInt32) (a : Admission) (admitted : t.admission = some a)
    (result : Tasks × Option Outgoing) (drew : t.Drew nowMs a result) : result.1.Gate strict := by
  have clear := gate.admitted a admitted
  have same {x : Bool} {P : Prop} (is : x = false) (high : x = true) : P := by
    rw [is] at high
    cases high
  have stays : t.phy.Within t.phy := PhyChange.within_same rfl rfl rfl
  cases drew with
  | nothing => exact gate.fall (fun _ => id) gate.mirror (fun _ => id) (.inr rfl) stays id rfl rfl
  | roll dst ctx seq =>
      have still := t.roll.submit_pending dst ctx seq nowMs
      refine gate.fall (fun id high => ?_) (fun id high => gate.mirror id ?_) (fun _ => id) (.inr rfl) stays id rfl rfl
      · rw [← still]
        exact high
      · rw [← still]
        exact high
  | command req ctx =>
      exact ⟨gate.mirror,gate.nought,gate.queue,nofun,gate.fleet,gate.culprit,gate.asked,
        gate.ordered .command req.dst fun high => same clear high⟩
  | write req ctx seq registry class_ =>
      exact ⟨gate.mirror,gate.nought,gate.queue,nofun,gate.fleet,gate.culprit,gate.asked,
        gate.ordered .hexWrite req.dst fun high => same (clear class_) high⟩
  | read => exact gate.fall (fun _ => id) gate.mirror (fun _ => id) (.inr rfl) stays id rfl rfl
  | returned job deferred seq => exact gate.queued job deferred clear _ fun q inside => mem_queueConfigJobToFront inside
  | config job deferred seq =>
      refine ⟨gate.mirror,gate.nought,gate.queue,nofun,gate.fleet,gate.culprit,gate.asked,gate.ordered _ job.dst fun high => ?_⟩
      cases deferred with
      | false => exact same (clear nofun) high
      | true => exact ⟨fun s => same (clear fun _ => s) high,rfl⟩
  | owed dst => exact gate.fall (fun _ => id) gate.mirror (fun _ => id) (.inr rfl) stays id rfl rfl
  | readback dst => exact gate.fall (fun _ => id) gate.mirror (fun _ => id) (.inr rfl) stays id rfl rfl
  | phy dst config ctx seq registry o =>
      have after : Tasks.Gate strict {t with admission := none,phy := t.phy.onSent seq nowMs} :=
        gate.fall (fun _ => id) gate.mirror (fun _ => id) (.inr rfl) (t.phy.onSent_within seq nowMs) id rfl rfl
      exact ⟨after.mirror,after.nought,after.queue,nofun,after.fleet,after.culprit,after.asked,
        gate.ordered .phyConfig dst fun high => ⟨fun s => same (clear s) high,rfl⟩⟩

section
variable (mac : Mac) (keys : NodeId → NodeKey)

theorem Tasks.Gate.admits {strict : Prop} {t t' : Tasks} (gate : t.Gate strict) (admits : t.Admits t') : t'.Gate strict := by
  have stays : t.phy.Within t.phy := PhyChange.within_same rfl rfl rfl
  have shorter {q : QueuedConfig} {rest : List QueuedConfig} (front : t.configQueue = q :: rest) :
      (∀ other ∈ rest, other ∈ t.configQueue) ∧ (rest.any QueuedConfig.isPhy = true → t.configQueue.any QueuedConfig.isPhy = true) := by
    rw [front]
    exact ⟨fun _ => List.mem_cons_of_mem _,fun some_ => by rw [List.any_cons,some_,Bool.or_true]⟩
  have fewer {q : QueuedConfig} {rest : List QueuedConfig} (front : t.configQueue = q :: rest) :
      (t.phyWaiting.isSome || rest.any QueuedConfig.isPhy) = true → t.phyAsked = true := by
    rw [Tasks.phyAsked,Bool.or_eq_true,Bool.or_eq_true]
    exact Or.imp_right (shorter front).2
  cases admits with
  | nothing => exact gate
  | phy job rest front =>
      refine gate.fall (fun _ => id) gate.mirror (shorter front).1 (.inl rfl) stays (fun _ => ?_) rfl rfl
      rw [Tasks.phyAsked,front,List.any_cons]
      exact Bool.or_true _
  | dropped job deferred rest front =>
      exact gate.fall (fun _ => id) gate.mirror (shorter front).1 (.inl rfl) stays (fewer front) rfl rfl
  | node job deferred rest front registry seq =>
      have before : Tasks.Gate strict {t with configQueue := rest,registry := registry} :=
        gate.fall (fun _ => id) gate.mirror (shorter front).1 (.inl rfl) stays (fewer front) rfl rfl
      refine before.takes (.config job deferred seq) (gate.queue job deferred ?_)
      rw [front]
      exact List.mem_cons_self
  | readback id changePending =>
      have before : Tasks.Gate strict {t with changePending := changePending} :=
        gate.fall (fun _ => fun high => high) gate.mirror (fun _ inside => inside) (.inl rfl) stays (fun asked => asked) rfl rfl
      exact before.takes (.readback id) trivial

theorem Tasks.Gate.phyTicks {strict : Prop} {t : Tasks} (gate : t.Gate strict) (result : Tasks × Option Outgoing) (ticks : t.PhyTicks result) :
    result.1.Gate strict := by
  cases ticks with
  | waits => exact gate
  | moves phy out free within => exact gate.fall (fun _ => id) gate.mirror (fun _ => id) (.inl rfl) within id rfl rfl
  | asks phy i config ctx within =>
      have before : Tasks.Gate strict {t with phy := phy} := gate.fall (fun _ => id) gate.mirror (fun _ => id) (.inl rfl) within id rfl rfl
      exact before.takes (.phy (t.phy.node i) config ctx) fun s => gate.fleet s i
  | defers phy job free within late =>
      have before : Tasks.Gate strict {t with phy := phy} := gate.fall (fun _ => id) gate.mirror (fun _ => id) (.inl rfl) within id rfl rfl
      have after := before.queued job true (fun strictly => by rw [late]; exact gate.culprit (strictly rfl)) _ fun q inside =>
        mem_queueConfigJob inside
      exact ⟨after.mirror,after.nought,after.queue,before.admitted,after.fleet,after.culprit,after.asked,after.orders⟩

theorem Tasks.Gate.step {strict : Prop} {t : Tasks} (gate : t.Gate strict) (i : TaskInput) (steady : strict → t.Steady i) :
    (t.step mac keys i).1.Gate strict := by
  have moved {t' : Tasks} (roll : t'.roll.pending = t.roll.pending) (mirror : t'.rollPending = t.rollPending)
      (queue : t'.configQueue = t.configQueue) (admission : t'.admission = t.admission) (phy : t.phy.Within t'.phy)
      (waits : t'.phyWaiting = t.phyWaiting) (watched : t'.watched = t.watched) (orders : t'.orders = t.orders) : t'.Gate strict := by
    refine gate.fall ?_ ?_ ?_ (.inl admission) phy ?_ watched orders
    · rw [roll]
      exact fun _ => id
    · rw [roll,mirror]
      exact gate.mirror
    · rw [queue]
      exact fun _ => id
    · rw [Tasks.phyAsked,waits,queue]
      exact id
  have stays : t.phy.Within t.phy := PhyChange.within_same rfl rfl rfl
  cases i with
  | hear hdr ack nowMs =>
      unfold Tasks.step
      dsimp only
      split
      · exact gate
      · exact moved rfl rfl rfl rfl stays rfl rfl rfl
  | note nowMs =>
      unfold Tasks.step
      dsimp only
      split
      case h_1 => exact gate
      case h_2 h _ => exact moved (t.roll.onHeard_pending h.src) rfl rfl rfl (t.phy.onHeard_within h.src nowMs) rfl rfl rfl
  | hand nowMs =>
      obtain ⟨inHand,roll,hex,command,is,_,_,_,falls⟩ := t.hand_is nowMs
      unfold Tasks.step
      dsimp only
      rw [is]
      exact gate.fall falls (fun id high => gate.mirror id (falls id high)) (fun _ => id) (.inl rfl) stays id rfl rfl
  | hexRsp => exact moved rfl rfl rfl rfl stays rfl rfl rfl
  | configAck src ack seq nowMs =>
      obtain ⟨phy,config,is,within,_⟩ := t.configAck_is src ack seq nowMs
      unfold Tasks.step
      dsimp only
      rw [is]
      exact moved rfl rfl rfl rfl within rfl rfl rfl
  | configChanged => exact moved rfl rfl rfl rfl stays rfl rfl rfl
  | askConfig dst config =>
      unfold Tasks.step
      dsimp only
      split
      case isTrue => exact gate
      case isFalse clear =>
        have low : t.roll.pending dst = false := by
          rw [← Bool.not_eq_true]
          exact fun high => clear (gate.mirror dst high)
        have after := gate.queued {dst := dst,op := config.op,config := config} false (fun _ => low) _
          fun q inside => mem_queueConfigJob inside
        exact ⟨after.mirror,after.nought,after.queue,gate.admitted,after.fleet,after.culprit,after.asked,after.orders⟩
  | askPhy job refused =>
      unfold Tasks.step
      dsimp only
      split
      case isTrue => exact gate
      case isFalse clear =>
        rw [Bool.or_eq_true,not_or] at clear
        refine ⟨gate.mirror,gate.nought,?_,gate.admitted,gate.fleet,gate.culprit,?_,gate.orders⟩
        · intro other late inside
          rcases mem_queueConfigJob inside with is | before
          · cases is
          · exact gate.queue other late before
        · intro _ _ id inside seen
          rw [← Bool.not_eq_true]
          intro high
          refine clear.2 (List.any_eq_true.mpr ⟨id,inside,?_⟩)
          rw [Bool.and_eq_true]
          exact ⟨seen,gate.mirror id high⟩
  | watch watched =>
      refine ⟨gate.mirror,gate.nought,gate.queue,gate.admitted,gate.fleet,gate.culprit,?_,gate.orders⟩
      exact fun s which id inside seen => gate.asked s which id inside (steady s which id seen)
  | admitRoll =>
      unfold Tasks.step
      dsimp only
      split
      · split
        · exact gate
        · exact gate.takes _ trivial
      · exact gate
  | admitCommand req quiet =>
      unfold Tasks.step
      dsimp only
      split
      case isTrue => exact gate
      case isFalse starts =>
        simp only [Bool.or_eq_true,Bool.not_eq_true',not_or,Bool.not_eq_true] at starts
        exact gate.takes _ starts.1.2
  | admitHex req quiet =>
      unfold Tasks.step
      dsimp only
      split
      · exact gate
      · split
        case isTrue => exact gate
        case isFalse clear =>
          refine gate.takes _ fun write => ?_
          rw [← Bool.not_eq_true]
          exact fun high => clear ⟨write,gate.mirror _ high⟩
  | admitConfig quiet =>
      unfold Tasks.step
      dsimp only
      rcases t.admitConfig_admits quiet with is | ⟨_,admits⟩
      · rw [is]
        exact gate
      · exact gate.admits admits
  | draw nowMs queued ver =>
      unfold Tasks.step
      dsimp only
      split
      case h_1 => exact gate
      case h_2 a admitted => exact gate.drew nowMs a admitted _ (t.draw_drew mac keys nowMs queued ver a)
  | rollTick nowMs queued ver =>
      obtain ⟨registry,roll,rollPending,out,is,_,pending,mirror,_⟩ := t.rollTick_is mac keys nowMs queued ver
      unfold Tasks.step
      dsimp only
      rw [is]
      refine gate.fall (fun id high => ?_) (fun id high => ?_) (fun _ => id) (.inl rfl) stays id rfl rfl
      · rw [← pending]
        exact high
      · dsimp only at high ⊢
        rw [pending] at high
        rcases mirror with same | same
        · rw [same]
          exact gate.mirror id high
        · rw [same]
          exact high
  | commandTick nowMs queued ver =>
      obtain ⟨registry,command,out,is,_⟩ := t.commandTick_is mac keys nowMs queued ver
      unfold Tasks.step
      dsimp only
      rw [is]
      exact moved rfl rfl rfl rfl stays rfl rfl rfl
  | hexTick nowMs armed queued ver =>
      obtain ⟨registry,hex,out,is,_⟩ := t.hexTick_is mac keys nowMs armed queued ver
      unfold Tasks.step
      dsimp only
      rw [is]
      exact moved rfl rfl rfl rfl stays rfl rfl rfl
  | configTick nowMs pollSeq queued ver =>
      obtain ⟨config,changePending,out,is,_⟩ := t.configTick_is mac keys nowMs pollSeq queued ver
      unfold Tasks.step
      dsimp only
      rw [is]
      exact moved rfl rfl rfl rfl stays rfl rfl rfl
  | startPhy nowMs quiet =>
      have asked (waits : t.phyWaiting.isSome = true) : t.phyAsked = true := by
        rw [Tasks.phyAsked,waits]
        rfl
      unfold Tasks.step
      dsimp only
      rcases t.startPhy_is nowMs quiet with is | ⟨_,waits,is | ⟨phy,is,fleet,culprit⟩⟩
      · rw [is]
        exact gate
      · rw [is]
        exact gate.fall (fun _ => id) gate.mirror (fun _ => id) (.inl rfl) stays (fun _ => asked waits) rfl rfl
      · rw [is]
        refine ⟨gate.mirror,gate.nought,gate.queue,gate.admitted,fun s i => ?_,fun s => ?_,fun s _ => gate.asked s (asked waits),gate.orders⟩
        · rw [PhyChange.node,fleet]
          rcases Nat.lt_or_ge i ((nodeTable.filter t.watched).take maxPhyFleet).length with inside | past
          · rw [List.getD_eq_getElem _ _ inside]
            obtain ⟨listed,seen⟩ := List.mem_filter.mp (List.mem_of_mem_take (List.getElem_mem inside))
            exact gate.asked s (asked waits) _ listed seen
          · rw [List.getD_eq_default _ _ past]
            exact gate.nought
        · rw [culprit]
          exact gate.nought
  | phyRetuned nowMs => exact moved rfl rfl rfl rfl (t.phy.onRetuned_within nowMs).1 rfl rfl rfl
  | phyTick nowMs pollSeq committed queued ver => exact gate.phyTicks _ (t.phyTick_ticks nowMs pollSeq committed queued ver)
  | sendPlain hdr payload =>
      unfold Tasks.step
      dsimp only
      split
      · exact gate
      · split
        · exact gate
        · exact gate
  | aired path airedMs =>
      cases path with
      | roll => exact moved (t.roll.onAired_pending airedMs) rfl rfl rfl stays rfl rfl rfl
      | phy =>
          obtain ⟨fleet,culprit,phase⟩ := t.phy.onAired_same airedMs
          exact moved rfl rfl rfl rfl (PhyChange.within_same fleet culprit phase) rfl rfl rfl
      | _ => exact moved rfl rfl rfl rfl stays rfl rfl rfl
  | setParams => exact moved rfl rfl rfl rfl (PhyChange.within_same rfl rfl rfl) rfl rfl rfl
  | restart =>
      refine ⟨fun _ => id,rfl,?_,?_,fun _ _ => rfl,fun _ => rfl,?_,gate.orders⟩
      · intro _ _ inside
        cases inside
      · intro _ is
        cases is
      · intro _ _ _ _ seen
        cases seen

theorem Tasks.start_gate (strict : Prop) : Tasks.Gate strict {} := by
  refine ⟨fun _ => id,rfl,nofun,nofun,fun _ _ => rfl,fun _ => rfl,?_,nofun⟩
  intro _ _ _ _ seen
  cases seen

-- No command, no CONFIG and no HEX write is ordered for a node whose roll is pending, as long as no node is watched anew behind a PHY change
-- that was asked for; and where one is, only that change's own SETs and GETs can be, and the readback it defers.
theorem nothing_before_the_roll {t : Tasks} (path : Reached (Tasks.next mac keys) (fun _ _ => True) {} t) :
    (∀ o ∈ t.orders, o.pending = true → o.kind = .phyConfig ∨ o.kind = .phyReadback) ∧
      (Reached (Tasks.next mac keys) Tasks.Steady {} t → ∀ o ∈ t.orders, o.pending = false) := by
  have gated (strict : Prop) (allowed : Tasks → TaskInput → Prop) (path : Reached (Tasks.next mac keys) allowed {} t)
      (steady : ∀ t i, allowed t i → strict → t.Steady i) : t.Gate strict :=
    path.invariant (Tasks.Gate strict) (Tasks.start_gate strict) fun s i gate permitted => gate.step mac keys i (steady s i permitted)
  constructor
  · intro o inside pending
    have own := ((gated False _ path fun _ _ _ no => no.elim).orders o inside pending).2
    cases kind : o.kind with
    | phyConfig => exact .inl rfl
    | phyReadback => exact .inr rfl
    | _ =>
        rw [kind] at own
        cases own
  · intro steadily o inside
    rw [← Bool.not_eq_true]
    intro pending
    exact ((gated True Tasks.Steady steadily fun _ _ is _ => is).orders o inside pending).1 trivial

end

def trial : PhyJob := {to_ := fun k => if k = phyTrialS then 30 else 1}

-- Behind the gate's roll: the other node is refused while its own is pending, and a PHY change across the gate begins. Its SET is never
-- answered: the readback it defers goes out behind the one asked for meanwhile.
def changed : List TaskInput :=
  [.admitCommand {dst := 0x02,cmd := cmdOpen} true,.askConfig 0x02 {op := configOpGetAll},.askPhy trial false,
    .askConfig 0x01 {op := configOpGetAll},.admitConfig true,.startPhy 8 true,.phyTick 9 0 false true 1,.draw 9 true 1,
    .phyTick 8010 0 false true 1,.phyTick 30010 0 false true 1,.admitConfig true,.draw 30011 true 1,.configTick 30012 0 true 1,
    .configAck 0x01 {op := configOpGetAll} 2 30020,.configTick 30021 0 true 1,.admitConfig true,.draw 30022 true 1]

def changing : List TaskInput := .watch (· == 0x01) :: (rolled ++ changed)

-- Watched anew behind the change that was asked for, the other node is sent its SET while its roll is pending.
def late : List TaskInput :=
  [.askPhy trial false,.watch (· == 0x02),.admitConfig true,.startPhy 8 true,.phyTick 9 0 false true 1,.draw 9 true 1]

def watchedLate : List TaskInput := .watch (· == 0x01) :: (rolled ++ late)

theorem nothing_before_the_roll_changing :
    (changing.foldl (Tasks.next lengthMac fun _ => zeroKey) {}).orders.map Order.kind = [.phyConfig,.config,.phyReadback] ∧
      (∀ o ∈ (changing.foldl (Tasks.next lengthMac fun _ => zeroKey) {}).orders, o.pending = false) ∧
      (watchedLate.foldl (Tasks.next lengthMac fun _ => zeroKey) {}).orders = [⟨.phyConfig,0x02,true⟩] := by
  have run : Follows (Tasks.next lengthMac fun _ => zeroKey) Tasks.Steady {} changing := by
    refine ⟨fun asked => (by cases asked),?_⟩
    repeat refine ⟨trivial,?_⟩
    exact trivial
  have free := run.reached.weaken fun _ _ _ => trivial
  have facts : (changing.foldl (Tasks.next lengthMac fun _ => zeroKey) {}).orders.map Order.kind = [.phyConfig,.config,.phyReadback] ∧
      (watchedLate.foldl (Tasks.next lengthMac fun _ => zeroKey) {}).orders = [⟨.phyConfig,0x02,true⟩] := by decide +kernel
  exact ⟨facts.1,(nothing_before_the_roll lengthMac (fun _ => zeroKey) free).2 run.reached,facts.2⟩

end LoraRan.Bridge
