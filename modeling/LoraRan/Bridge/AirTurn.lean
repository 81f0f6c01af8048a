import LoraRan.Bridge.PathTurns
import LoraRan.Protocol.RoundTrip

namespace LoraRan.Bridge
open Protocol Library.StepSystem

-- The configuration path has the air with an exchange of its own: a readback that began with an answer nobody asked for sends nothing.
def Tasks.holds (t : Tasks) : Holder → Bool
  | .admission => t.admission.any fun a => !a.ofPhy
  | .roll => t.roll.busy
  | .command => t.command.busy
  | .hex => t.hex.busy
  | .config => t.config.own
  | .phy => t.phy.blocksTraffic

def Tasks.Alone (t : Tasks) (h : Holder) : Prop := ∀ other, t.holds other = true → other = h

def Tasks.One (t : Tasks) : Prop := ∀ h, t.holds h = true → t.Alone h

-- All that a step can do to who has the air: leave it, pass it on from an admission, or take it where nothing had it.
def Tasks.Kept (t t' : Tasks) : Prop := ∀ h, t'.holds h = true → t.holds h = true

def Tasks.Passed (t t' : Tasks) (h : Holder) : Prop :=
  t.holds .admission = true ∧ t'.holds .admission = false ∧ ∀ other, t'.holds other = true → t.holds other = true ∨ other = h

def Tasks.Taken (t t' : Tasks) (h : Holder) : Prop := (∀ other, t.holds other = false) ∧ t'.Alone h

inductive Tasks.Turns (t t' : Tasks) : Prop where
  | kept (same : t.Kept t')
  | passed (h : Holder) (onward : t.Passed t' h)
  | taken (h : Holder) (fresh : t.Taken t' h)

theorem Tasks.Turns.one {t t' : Tasks} (turns : t.Turns t') (one : t.One) : t'.One := by
  cases turns with
  | kept same => exact fun h holds other held => one h (same h holds) other (same other held)
  | passed h onward =>
      obtain ⟨had,gone,only⟩ := onward
      have is (other : Holder) (held : t'.holds other = true) : other = h := by
        rcases only other held with before | is
        · have same := one .admission had other before
          rw [same,gone] at held
          cases held
        · exact is
      exact fun a held other also => (is other also).trans (is a held).symm
  | taken h fresh => exact fun a held other also => (fresh.2 other also).trans (fresh.2 a held).symm

-- What each step can do, all of it.

theorem Tasks.take_some {t t' : Tasks} {id : NodeId} {seq : Seq} (taken : t.take id = some (seq,t')) :
    ∃ registry, t' = {t with registry := registry} := by
  unfold Tasks.take at taken
  split at taken
  · cases taken
  · cases taken
    exact ⟨_,rfl⟩

theorem Tasks.adopt_is (t : Tasks) (flag : Bool) (dst : NodeId) (ctx : CtxId) : ∃ registry, t.adopt flag dst ctx = {t with registry := registry} := by
  unfold Tasks.adopt
  split
  · exact ⟨_,rfl⟩
  · exact ⟨_,rfl⟩

section
variable (mac : Mac) (keys : NodeId → NodeKey)

-- What becomes of an admitted request.
inductive Tasks.Drew (t : Tasks) (nowMs : UInt32) : Admission → Tasks × Option Outgoing → Prop where
  | nothing (a : Admission) (registry : Registry) : Drew t nowMs a ({t with admission := none,registry := registry},none)
  | roll (dst : NodeId) (ctx : CtxId) (seq : Seq) (registry : Registry) :
      Drew t nowMs (.roll dst ctx) ({t with admission := none,registry := registry,roll := (t.roll.submit dst ctx seq nowMs).2},none)
  | command (req : CommandRequest) (ctx : CtxId) (seq : Seq) (registry : Registry) :
      Drew t nowMs (.command req ctx)
        ({t with admission := none,registry := registry,orders := t.orders ++ [⟨.command,req.dst,t.roll.pending req.dst⟩],
                 command := (t.command.submit req ctx seq nowMs).2},none)
  | write (req : HexRequest) (ctx : CtxId) (seq : Seq) (registry : Registry) (class_ : classifyHex req.hex = .write) :
      Drew t nowMs (.hex req ctx)
        ({t with admission := none,registry := registry,orders := t.orders ++ [⟨.hexWrite,req.dst,t.roll.pending req.dst⟩],
                 hex := (t.hex.submit req true ctx seq nowMs).2},none)
  | read (req : HexRequest) (ctx : CtxId) :
      Drew t nowMs (.hex req ctx) ({t with admission := none,hex := (t.hex.submit req false ctx 0 nowMs).2},none)
  | returned (job : ConfigJob) (deferred : Bool) (seq : Seq) :
      Drew t nowMs (.config job deferred seq) ({t with admission := none,configQueue := queueConfigJobToFront t.configQueue (.node job deferred)},none)
  | config (job : ConfigJob) (deferred : Bool) (seq : Seq) (ctx : CtxId) (own : (t.config.submit job ctx seq nowMs).2.unsolicited = false) :
      Drew t nowMs (.config job deferred seq)
        ({t with admission := none,
                 orders := t.orders ++ [⟨if deferred then .phyReadback else .config,job.dst,t.roll.pending job.dst⟩],
                 config := (t.config.submit job ctx seq nowMs).2},none)
  | owed (dst : NodeId) :
      Drew t nowMs (.readback dst) ({t with admission := none,changePending := Function.update t.changePending dst true},none)
  | readback (dst : NodeId) (job : ConfigJob) (own : (t.config.submit job 0 0 nowMs).2.unsolicited = false) :
      Drew t nowMs (.readback dst) ({t with admission := none,config := (t.config.submit job 0 0 nowMs).2},none)
  | phy (dst : NodeId) (config : NodeConfigV1) (ctx : CtxId) (seq : Seq) (registry : Registry) (o : Outgoing) :
      Drew t nowMs (.phy dst config ctx)
        ({t with admission := none,registry := registry,orders := t.orders ++ [⟨.phyConfig,dst,t.roll.pending dst⟩],
                 phy := t.phy.onSent seq nowMs},some o)

theorem Tasks.draw_drew (t : Tasks) (nowMs : UInt32) (queued : Bool) (ver : UInt8) (a : Admission) :
    t.Drew nowMs a (t.draw mac keys nowMs queued ver a) := by
  have still : t.Drew nowMs a ({t with admission := none},none) := .nothing a t.registry
  cases a with
  | roll dst ctx =>
      unfold Tasks.draw
      dsimp only
      split
      case h_1 => exact still
      case h_2 seq t' taken =>
        obtain ⟨registry,rfl⟩ := Tasks.take_some taken
        exact .roll dst ctx seq registry
  | command req ctx =>
      unfold Tasks.draw
      dsimp only
      split
      case h_1 => exact still
      case h_2 seq t' taken =>
        obtain ⟨registry,rfl⟩ := Tasks.take_some taken
        exact .command req ctx seq registry
  | hex req ctx =>
      unfold Tasks.draw
      dsimp only
      split
      case isTrue class_ =>
        split
        case h_1 => exact still
        case h_2 seq t' taken =>
          obtain ⟨registry,rfl⟩ := Tasks.take_some taken
          exact .write req ctx seq registry class_
      case isFalse => exact .read req ctx
  | config job deferred seq =>
      unfold Tasks.draw
      dsimp only
      rcases t.config.submit_cases job (t.contextOf job.dst) seq nowMs with ⟨_,refused⟩ | ⟨_,started,own⟩
      · rw [show Tasks.contextOf {t with admission := none} job.dst = t.contextOf job.dst from rfl,refused]
        exact .returned job deferred seq
      · rw [show Tasks.contextOf {t with admission := none} job.dst = t.contextOf job.dst from rfl,if_pos started]
        exact .config job deferred seq _ own
  | readback dst =>
      unfold Tasks.draw
      dsimp only
      rcases t.config.submit_cases {dst := dst,readbackOnly := true} 0 0 nowMs with ⟨_,refused⟩ | ⟨_,started,own⟩
      · rw [refused]
        exact .owed dst
      · rw [if_pos started]
        exact .readback dst _ own
  | phy dst config ctx =>
      unfold Tasks.draw
      dsimp only
      split
      case h_1 => exact still
      case h_2 seq t' taken =>
        obtain ⟨registry,rfl⟩ := Tasks.take_some taken
        split
        · exact .nothing _ registry
        · split
          · exact .phy dst config ctx seq registry _
          · exact .nothing _ registry

theorem Tasks.rollTick_is (t : Tasks) (nowMs : UInt32) (queued : Bool) (ver : UInt8) :
    ∃ registry roll rollPending out, t.rollTick mac keys nowMs queued ver =
        ({t with registry := registry,roll := roll,rollPending := rollPending},out) ∧
      (roll.busy = true → t.roll.busy = true) ∧ roll.pending = t.roll.pending ∧ (rollPending = t.rollPending ∨ rollPending = t.roll.pending) ∧
      (∀ o, out = some o → t.roll.busy = true) := by
  have busy := t.roll.next_busy nowMs
  have pending := t.roll.next_pending nowMs
  unfold Tasks.rollTick
  generalize t.roll.next nowMs = moved at busy pending
  obtain ⟨st,roll⟩ := moved
  dsimp only at busy pending ⊢
  split
  case h_1 => exact ⟨_,_,_,_,rfl,fun b => busy (.inl b),pending,.inl rfl,nofun⟩
  case h_2 =>
    obtain ⟨registry,is⟩ := Tasks.adopt_is {t with roll := roll} (st.outcome == .rolled) st.dst st.ctxId
    rw [is]
    exact ⟨_,_,_,_,rfl,fun b => busy (.inl b),pending,.inr pending,nofun⟩
  case h_3 sends =>
    split
    · exact ⟨_,_,_,_,rfl,fun b => busy (.inl b),pending,.inl rfl,nofun⟩
    · split
      · exact ⟨_,_,_,_,rfl,fun _ => busy (.inr sends),(roll.onSent_pending nowMs).trans pending,.inl rfl,fun _ _ => busy (.inr sends)⟩
      · exact ⟨_,_,_,_,rfl,fun b => busy (.inl b),pending,.inl rfl,nofun⟩

theorem Tasks.commandTick_is (t : Tasks) (nowMs : UInt32) (queued : Bool) (ver : UInt8) :
    ∃ registry command out, t.commandTick mac keys nowMs queued ver = ({t with registry := registry,command := command},out) ∧
      (command.busy = true → t.command.busy = true) ∧ (∀ o, out = some o → t.command.busy = true) := by
  have busy := t.command.next_busy nowMs
  unfold Tasks.commandTick
  generalize t.command.next nowMs = moved at busy
  obtain ⟨st,command⟩ := moved
  dsimp only at busy ⊢
  obtain ⟨registry,is⟩ := Tasks.adopt_is {t with command := command} st.ctxAdopted st.dst st.ctxId
  split
  case h_1 => exact ⟨_,_,_,rfl,fun b => busy (.inl b),nofun⟩
  case h_2 =>
    rw [is]
    exact ⟨_,_,_,rfl,fun b => busy (.inl b),nofun⟩
  case h_3 sends =>
    rw [is]
    split
    · exact ⟨_,_,_,rfl,fun b => busy (.inl b),nofun⟩
    · split
      · exact ⟨_,_,_,rfl,fun _ => busy (.inr sends),fun _ _ => busy (.inr sends)⟩
      · exact ⟨_,_,_,rfl,fun b => busy (.inl b),nofun⟩

theorem Tasks.hexTick_is (t : Tasks) (nowMs : UInt32) (armed queued : Bool) (ver : UInt8) :
    ∃ registry hex out, t.hexTick mac keys nowMs armed queued ver = ({t with registry := registry,hex := hex},out) ∧
      (hex.busy = true → t.hex.busy = true) ∧ (∀ o, out = some o → t.hex.busy = true) := by
  have busy := t.hex.next_busy nowMs armed
  unfold Tasks.hexTick
  generalize t.hex.next nowMs armed = moved at busy
  obtain ⟨st,hex⟩ := moved
  dsimp only at busy ⊢
  obtain ⟨registry,is⟩ := Tasks.adopt_is {t with hex := hex} st.ctxAdopted st.dst st.ctxId
  split
  case h_1 => exact ⟨_,_,_,rfl,fun b => busy (.inl b),nofun⟩
  case h_2 =>
    rw [is]
    exact ⟨_,_,_,rfl,fun b => busy (.inl b),nofun⟩
  case h_3 sends =>
    rw [is]
    split
    · exact ⟨_,_,_,rfl,fun b => busy (.inl b),nofun⟩
    · split
      · exact ⟨_,_,_,rfl,fun _ => busy (.inr sends),fun _ _ => busy (.inr sends)⟩
      · exact ⟨_,_,_,rfl,fun b => busy (.inl b),nofun⟩

theorem Tasks.configTick_is (t : Tasks) (nowMs : UInt32) (pollSeq : Seq) (queued : Bool) (ver : UInt8) :
    ∃ config changePending out, t.configTick mac keys nowMs pollSeq queued ver = ({t with config := config,changePending := changePending},out) ∧
      t.config.Goes config ∧ (t.config.Silent → ∀ o, out = some o → t.config.own = true) := by
  have goes := t.config.next_goes nowMs
  have sends := t.config.next_sends nowMs
  unfold Tasks.configTick
  generalize t.config.next nowMs = moved at goes sends
  obtain ⟨st,config⟩ := moved
  dsimp only at goes sends ⊢
  split
  case h_1 => exact ⟨_,_,_,rfl,goes,fun _ => nofun⟩
  case h_2 =>
    unfold Tasks.configResolved
    split
    · exact ⟨_,_,_,rfl,goes,fun _ => nofun⟩
    · exact ⟨_,_,_,rfl,goes,fun _ => nofun⟩
  case h_3 asks =>
    split
    · exact ⟨_,_,_,rfl,goes,fun _ => nofun⟩
    · split
      · exact ⟨_,_,_,rfl,goes,fun _ => nofun⟩
      · split
        · exact ⟨_,_,_,rfl,goes.trans (config.onSent_goes nowMs),fun silent _ _ => sends silent (.inr asks)⟩
        · exact ⟨_,_,_,rfl,goes,fun _ => nofun⟩
  case h_4 asks =>
    split
    · exact ⟨_,_,_,rfl,goes,fun _ => nofun⟩
    · split
      · exact ⟨_,_,_,rfl,goes.trans (config.onSent_goes nowMs),fun silent _ _ => sends silent (.inl asks)⟩
      · exact ⟨_,_,_,rfl,goes,fun _ => nofun⟩

-- One turn of the PHY change: it moves, and perhaps sends a POLL; it asks for a SET or GET to be admitted; or it queues the readback it owes.
inductive Tasks.PhyTicks (t : Tasks) : Tasks × Option Outgoing → Prop where
  | waits : PhyTicks t (t,none)
  | moves (phy : PhyChange) (out : Option Outgoing) (free : t.admission = none) (within : t.phy.Within phy)
      (turn : ∀ o, out = some o → t.phy.blocksTraffic = true) : PhyTicks t ({t with phy := phy},out)
  | asks (phy : PhyChange) (i : Nat) (config : NodeConfigV1) (ctx : CtxId) (within : t.phy.Within phy) (asking : phy.Asking) :
      PhyTicks t ({t with phy := phy,admission := some (.phy (t.phy.node i) config ctx)},none)
  | defers (phy : PhyChange) (job : ConfigJob) (free : t.admission = none) (within : t.phy.Within phy) (late : job.dst = t.phy.culprit) :
      PhyTicks t ({t with phy := phy,configQueue := queueConfigJob t.configQueue (.node job true)},none)

theorem Tasks.phyTick_ticks (t : Tasks) (nowMs : UInt32) (pollSeq : Seq) (committed queued : Bool) (ver : UInt8) :
    t.PhyTicks (t.phyTick nowMs pollSeq committed queued ver) := by
  obtain ⟨within,named⟩ := t.phy.next_moves nowMs
  unfold Tasks.phyTick
  generalize t.phy.next nowMs = moved at within named
  obtain ⟨st,phy⟩ := moved
  dsimp only at within named ⊢
  split
  case isTrue => exact .waits
  case isFalse busy =>
    have free : t.admission = none := Option.not_isSome_iff_eq_none.mp busy
    have asks (config : NodeConfigV1) (kind : st.action = .sendSet ∨ st.action = .sendGet) :
        t.PhyTicks (Tasks.admitPhy {t with phy := phy} st.dst config,none) := by
      obtain ⟨asking,i,dst⟩ := named.asks kind
      unfold Tasks.admitPhy
      split
      · rw [dst]
        exact .asks phy i config _ within asking
      · exact .moves phy none free within nofun
    split
    case h_1 kind => exact asks _ (.inl kind)
    case h_2 kind => exact asks _ (.inr kind)
    case h_3 kind =>
      split
      · exact .moves phy none free within nofun
      · split
        · exact .moves phy none free within nofun
        · split
          · exact .moves _ _ free (within.trans (phy.onSent_within 0 nowMs)) fun _ _ => named.polls kind
          · exact .moves phy none free within nofun
    case h_4 =>
      split
      · exact .moves phy none free within nofun
      · exact .moves _ none free (within.trans phy.commitFailed_within) nofun
    case h_5 kind => exact .defers phy _ free within (named.readback kind)
    all_goals exact .moves phy none free within nofun

theorem Tasks.hand_is (t : Tasks) (nowMs : UInt32) :
    ∃ inHand roll hex command, t.hand nowMs = {t with inHand := inHand,roll := roll,hex := hex,command := command} ∧
      (roll.busy = true → t.roll.busy = true) ∧ (hex.busy = true → t.hex.busy = true) ∧ (command.busy = true → t.command.busy = true) ∧
      ∀ id, roll.pending id = true → t.roll.pending id = true := by
  unfold Tasks.hand
  split
  · exact ⟨_,_,_,_,rfl,id,id,id,fun _ => id⟩
  · rename_i h held
    split
    · exact ⟨_,_,_,_,rfl,id,id,id,fun _ => id⟩
    · dsimp only
      split
      · exact ⟨_,_,_,_,rfl,id,id,id,fun _ => id⟩
      · rename_i ack _
        have rollBusy := t.roll.onAck_busy h.src ack h.ctx nowMs
        have pending := t.roll.onAck_pending h.src ack h.ctx nowMs
        have hexBusy := t.hex.onAck_busy h.src ack h.ctx nowMs
        have commandBusy := t.command.onAck_busy h.src ack h.ctx nowMs
        split
        · exact ⟨_,_,_,_,rfl,rollBusy,id,id,pending⟩
        · split
          · exact ⟨_,_,_,_,rfl,id,hexBusy,id,fun _ => id⟩
          · exact ⟨_,_,_,_,rfl,id,id,commandBusy,fun _ => id⟩

theorem Tasks.configAck_is (t : Tasks) (src : NodeId) (ack : NodeConfigAckV1) (seq : Seq) (nowMs : UInt32) :
    ∃ phy config, t.configAck src ack seq nowMs = {t with phy := phy,config := config} ∧ t.phy.Within phy ∧ (t.phy.Asking → phy.Asking) ∧
      t.config.Goes config := by
  unfold Tasks.configAck
  dsimp only
  split
  · obtain ⟨within,asking⟩ := t.phy.onConfigAck_within src ack seq nowMs
    exact ⟨_,_,rfl,within,asking,ConfigPath.goes_same rfl rfl⟩
  · exact ⟨_,_,rfl,PhyChange.within_same rfl rfl rfl,id,t.config.onConfigAck_goes src ack seq nowMs⟩

-- What sched_config takes up: a PHY change that goes to wait for its start, a job, or a readback that is owed.
inductive Tasks.Admits (t : Tasks) : Tasks → Prop where
  | nothing : Admits t t
  | phy (job : PhyJob) (rest : List QueuedConfig) (front : t.configQueue = .phy job :: rest) :
      Admits t {t with configQueue := rest,phyWaiting := some job}
  | dropped (job : ConfigJob) (deferred : Bool) (rest : List QueuedConfig) (front : t.configQueue = .node job deferred :: rest) :
      Admits t {t with configQueue := rest}
  | node (job : ConfigJob) (deferred : Bool) (rest : List QueuedConfig) (front : t.configQueue = .node job deferred :: rest) (registry : Registry)
      (seq : Seq) : Admits t {t with configQueue := rest,registry := registry,admission := some (.config job deferred seq)}
  | readback (id : NodeId) (changePending : NodeId → Bool) :
      Admits t {t with changePending := changePending,admission := some (.readback id)}

theorem Tasks.admitConfig_admits (t : Tasks) (quiet : Bool) :
    t.admitConfig quiet = t ∨ t.mayStart quiet = true ∧ t.Admits (t.admitConfig quiet) := by
  unfold Tasks.admitConfig
  split
  case isTrue => exact .inl rfl
  case isFalse starts =>
    simp only [Bool.or_eq_true,Bool.not_eq_true',not_or,Bool.not_eq_false] at starts
    refine .inr ⟨starts.1,?_⟩
    split
    case h_1 job rest front => exact .phy job rest front
    case h_2 job deferred rest front =>
      dsimp only
      split
      case h_1 => exact .dropped job deferred rest front
      case h_2 seq t' taken =>
        obtain ⟨registry,rfl⟩ := Tasks.take_some taken
        exact .node job deferred rest front registry seq
    case h_3 =>
      split
      · exact .nothing
      · exact .readback _ _

theorem Tasks.startPhy_is (t : Tasks) (nowMs : UInt32) (quiet : Bool) :
    t.startPhy nowMs quiet = t ∨ t.mayStart quiet = true ∧ t.phyWaiting.isSome = true ∧
      (t.startPhy nowMs quiet = {t with phyWaiting := none} ∨
       ∃ phy : PhyChange, t.startPhy nowMs quiet = {t with phyWaiting := none,phy := phy} ∧
        phy.fleet = (nodeTable.filter t.watched).take maxPhyFleet ∧ phy.culprit = 0) := by
  unfold Tasks.startPhy
  split
  case h_1 => exact .inl rfl
  case h_2 job waits =>
    split
    case isTrue => exact .inl rfl
    case isFalse may =>
      rw [Bool.not_eq_true',Bool.not_eq_false] at may
      refine .inr ⟨may,by rw [waits]; rfl,?_⟩
      rcases t.phy.start_cases job.from_ job.to_ ((nodeTable.filter t.watched).take maxPhyFleet) nowMs with same | ⟨fleet,culprit,_⟩
      · rw [same]
        exact .inl rfl
      · exact .inr ⟨_,rfl,fleet,culprit⟩

-- What holds with it: a readback nobody asked for sends nothing, and a PHY change's requests lie inside it.
structure Tasks.Turn (t : Tasks) : Prop where
  one : t.One
  silent : t.config.Silent
  phyJob : ∀ dst config ctx, t.admission = some (.phy dst config ctx) → t.phy.Asking

theorem Tasks.mayStart_free (t : Tasks) (quiet : Bool) (may : t.mayStart quiet = true) :
    t.admission = none ∧ ∀ h, t.holds h = false := by
  unfold Tasks.mayStart at may
  simp only [Bool.and_eq_true,Bool.not_eq_true',Option.isNone_iff_eq_none,beq_iff_eq] at may
  obtain ⟨⟨⟨⟨⟨⟨_,command⟩,roll⟩,config⟩,phy⟩,hex⟩,admission⟩ := may
  refine ⟨admission,fun h => ?_⟩
  cases h with
  | admission => rw [Tasks.holds,admission]; rfl
  | roll => exact roll
  | command => exact command
  | hex => exact hex
  | config => rw [Tasks.holds,ConfigPath.own,config]; rfl
  | phy => exact phy

section
variable {t : Tasks}

theorem Tasks.kept_of {t' : Tasks} (admission : t'.holds .admission = true → t.holds .admission = true)
    (roll : t'.roll.busy = true → t.roll.busy = true) (command : t'.command.busy = true → t.command.busy = true)
    (hex : t'.hex.busy = true → t.hex.busy = true) (config : t'.config.own = true → t.config.own = true)
    (phy : t'.phy.blocksTraffic = true → t.phy.blocksTraffic = true) : t.Turns t' :=
  .kept fun h => match h with
    | .admission => admission
    | .roll => roll
    | .command => command
    | .hex => hex
    | .config => config
    | .phy => phy

-- A machine that takes over from the admission is the only one that moves.
theorem Tasks.passed_of {t' : Tasks} (h : Holder) (had : t.holds .admission = true) (gone : t'.admission = none)
    (still : ∀ other, other ≠ .admission → other ≠ h → t'.holds other = true → t.holds other = true) : t.Turns t' := by
  refine .passed h ⟨had,by rw [Tasks.holds,gone]; rfl,fun other held => ?_⟩
  by_cases same : other = h
  · exact .inr same
  · by_cases admitted : other = .admission
    · rw [admitted,Tasks.holds,gone] at held
      cases held
    · exact .inl (still other admitted same held)

theorem Tasks.taken_of {t' : Tasks} (quiet : Bool) (may : t.mayStart quiet = true) (h : Holder)
    (still : ∀ other, other ≠ h → t'.holds other = true → t.holds other = true) : t.Turns t' := by
  refine .taken h ⟨(t.mayStart_free quiet may).2,fun other held => ?_⟩
  by_contra differs
  have before := still other differs held
  rw [(t.mayStart_free quiet may).2 other] at before
  cases before

end

theorem Tasks.Turn.admitted {t : Tasks} (turn : t.Turn) (quiet : Bool) (may : t.mayStart quiet = true) (a : Admission) (own : a.ofPhy = false) :
    Tasks.Turn {t with admission := some a} := by
  refine ⟨Tasks.Turns.one (Tasks.taken_of quiet may .admission fun other differs held => ?_) turn.one,turn.silent,?_⟩
  · cases other with
    | admission => exact absurd rfl differs
    | _ => exact held
  · rintro dst config ctx is
    rw [Option.some.inj is] at own
    cases own

theorem Tasks.Turn.drew {t : Tasks} (turn : t.Turn) (nowMs : UInt32) (a : Admission) (admitted : t.admission = some a)
    (result : Tasks × Option Outgoing) (drew : t.Drew nowMs a result) : result.1.Turn := by
  have had (own : a.ofPhy = false) : t.holds .admission = true := by
    rw [Tasks.holds,admitted,Option.any_some,own]
    rfl
  cases drew with
  | nothing _ registry => exact ⟨Tasks.Turns.one (t := t) (Tasks.kept_of nofun id id id id id) turn.one,turn.silent,nofun⟩
  | roll dst ctx seq registry =>
      refine ⟨Tasks.Turns.one (Tasks.passed_of .roll (had rfl) rfl fun other _ differs held => ?_) turn.one,turn.silent,nofun⟩
      cases other with
      | roll => exact absurd rfl differs
      | admission => cases held
      | _ => exact held
  | command req ctx seq registry =>
      refine ⟨Tasks.Turns.one (Tasks.passed_of .command (had rfl) rfl fun other _ differs held => ?_) turn.one,turn.silent,nofun⟩
      cases other with
      | command => exact absurd rfl differs
      | admission => cases held
      | _ => exact held
  | write req ctx seq registry =>
      refine ⟨Tasks.Turns.one (Tasks.passed_of .hex (had rfl) rfl fun other _ differs held => ?_) turn.one,turn.silent,nofun⟩
      cases other with
      | hex => exact absurd rfl differs
      | admission => cases held
      | _ => exact held
  | read req ctx =>
      refine ⟨Tasks.Turns.one (Tasks.passed_of .hex (had rfl) rfl fun other _ differs held => ?_) turn.one,turn.silent,nofun⟩
      cases other with
      | hex => exact absurd rfl differs
      | admission => cases held
      | _ => exact held
  | returned job deferred seq => exact ⟨Tasks.Turns.one (t := t) (Tasks.kept_of nofun id id id id id) turn.one,turn.silent,nofun⟩
  | config job deferred seq ctx own =>
      refine ⟨Tasks.Turns.one (Tasks.passed_of .config (had rfl) rfl fun other _ differs held => ?_) turn.one,?_,nofun⟩
      · cases other with
        | config => exact absurd rfl differs
        | admission => cases held
        | _ => exact held
      · exact fun unasked => absurd (own.symm.trans unasked) nofun
  | owed dst => exact ⟨Tasks.Turns.one (t := t) (Tasks.kept_of nofun id id id id id) turn.one,turn.silent,nofun⟩
  | readback dst job own =>
      refine ⟨Tasks.Turns.one (Tasks.passed_of .config (had rfl) rfl fun other _ differs held => ?_) turn.one,?_,nofun⟩
      · cases other with
        | config => exact absurd rfl differs
        | admission => cases held
        | _ => exact held
      · exact fun unasked => absurd (own.symm.trans unasked) nofun
  | phy dst config ctx seq registry o =>
      have within := t.phy.onSent_within seq nowMs
      exact ⟨Tasks.Turns.one (t := t) (Tasks.kept_of nofun id id id id within.blocks) turn.one,turn.silent,nofun⟩

theorem Tasks.Turn.admits {t t' : Tasks} (turn : t.Turn) (quiet : Bool) (may : t.mayStart quiet = true) (admits : t.Admits t') : t'.Turn := by
  cases admits with
  | nothing => exact turn
  | phy job rest => exact ⟨turn.one,turn.silent,turn.phyJob⟩
  | dropped job deferred rest => exact ⟨turn.one,turn.silent,turn.phyJob⟩
  | node job deferred rest front registry seq =>
      have before : Tasks.Turn {t with configQueue := rest,registry := registry} := ⟨turn.one,turn.silent,turn.phyJob⟩
      exact before.admitted quiet may (.config job deferred seq) rfl
  | readback id changePending =>
      have before : Tasks.Turn {t with changePending := changePending} := ⟨turn.one,turn.silent,turn.phyJob⟩
      exact before.admitted quiet may (.readback id) rfl

theorem Tasks.Turn.phyTicks {t : Tasks} (turn : t.Turn) (result : Tasks × Option Outgoing) (ticks : t.PhyTicks result) : result.1.Turn := by
  cases ticks with
  | waits => exact turn
  | moves phy out free within =>
      refine ⟨Tasks.Turns.one (t := t) (Tasks.kept_of id id id id id within.blocks) turn.one,turn.silent,fun dst config ctx admitted => ?_⟩
      exact absurd (free.symm.trans admitted) nofun
  | asks phy i config ctx within asking =>
      exact ⟨Tasks.Turns.one (t := t) (Tasks.kept_of nofun id id id id within.blocks) turn.one,turn.silent,fun _ _ _ _ => asking⟩
  | defers phy job free within =>
      refine ⟨Tasks.Turns.one (t := t) (Tasks.kept_of id id id id id within.blocks) turn.one,turn.silent,fun dst config ctx admitted => ?_⟩
      exact absurd (free.symm.trans admitted) nofun

theorem Tasks.Turn.step {t : Tasks} (turn : t.Turn) (i : TaskInput) : (t.step mac keys i).1.Turn := by
  have kept {t' : Tasks} (turns : t.Turns t') (admission : t'.admission = t.admission) (silent : t'.config.Silent)
      (asking : t.phy.Asking → t'.phy.Asking) : t'.Turn := by
    refine ⟨turns.one turn.one,silent,?_⟩
    rw [admission]
    exact fun dst config ctx admitted => asking (turn.phyJob dst config ctx admitted)
  cases i with
  | hear hdr ack nowMs =>
      unfold Tasks.step
      dsimp only
      split
      · exact turn
      · exact kept (Tasks.kept_of id id id id id id) rfl turn.silent id
  | note nowMs =>
      unfold Tasks.step
      dsimp only
      split
      case h_1 => exact turn
      case h_2 h _ =>
        obtain ⟨_,_,phase⟩ := t.phy.onHeard_same h.src nowMs
        have within := t.phy.onHeard_within h.src nowMs
        refine kept (Tasks.kept_of id (t.roll.onHeard_busy h.src) id id id within.blocks) rfl turn.silent ?_
        exact PhyChange.asking_same phase
  | hand nowMs =>
      obtain ⟨inHand,roll,hex,command,is,rollBusy,hexBusy,commandBusy,_⟩ := t.hand_is nowMs
      unfold Tasks.step
      dsimp only
      rw [is]
      exact kept (Tasks.kept_of id rollBusy commandBusy hexBusy id id) rfl turn.silent id
  | hexRsp src seq rsp => exact kept (Tasks.kept_of id id id (t.hex.onRsp_busy src seq rsp) id id) rfl turn.silent id
  | configAck src ack seq nowMs =>
      obtain ⟨phy,config,is,within,asking,goes⟩ := t.configAck_is src ack seq nowMs
      unfold Tasks.step
      dsimp only
      rw [is]
      exact kept (Tasks.kept_of id id id id goes.own within.blocks) rfl (goes.silent turn.silent) asking
  | configChanged src => exact kept (Tasks.kept_of id id id id id id) rfl turn.silent id
  | askConfig dst config =>
      unfold Tasks.step
      dsimp only
      split
      · exact turn
      · exact kept (Tasks.kept_of id id id id id id) rfl turn.silent id
  | askPhy job refused =>
      unfold Tasks.step
      dsimp only
      split
      · exact turn
      · exact kept (Tasks.kept_of id id id id id id) rfl turn.silent id
  | watch watched => exact kept (Tasks.kept_of id id id id id id) rfl turn.silent id
  | admitRoll quiet =>
      unfold Tasks.step
      dsimp only
      split
      case h_1 id may _ =>
        split
        · exact turn
        · exact turn.admitted quiet may (.roll id _) rfl
      case h_2 => exact turn
  | admitCommand req quiet =>
      unfold Tasks.step
      dsimp only
      split
      case isTrue => exact turn
      case isFalse starts =>
        simp only [Bool.or_eq_true,Bool.not_eq_true',not_or,Bool.not_eq_false] at starts
        exact turn.admitted quiet starts.1.1 (.command req _) rfl
  | admitHex req quiet =>
      unfold Tasks.step
      dsimp only
      split
      case isTrue => exact turn
      case isFalse starts =>
        simp only [Bool.or_eq_true,Bool.not_eq_true',not_or,Bool.not_eq_false] at starts
        split
        · exact turn
        · exact turn.admitted quiet starts.1.1.1 (.hex req _) rfl
  | admitConfig quiet =>
      unfold Tasks.step
      dsimp only
      rcases t.admitConfig_admits quiet with is | ⟨may,admits⟩
      · rw [is]
        exact turn
      · exact turn.admits quiet may admits
  | draw nowMs queued ver =>
      unfold Tasks.step
      dsimp only
      split
      case h_1 => exact turn
      case h_2 a admitted => exact turn.drew nowMs a admitted _ (t.draw_drew mac keys nowMs queued ver a)
  | rollTick nowMs queued ver =>
      obtain ⟨registry,roll,rollPending,out,is,busy,_⟩ := t.rollTick_is mac keys nowMs queued ver
      unfold Tasks.step
      dsimp only
      rw [is]
      exact kept (Tasks.kept_of id busy id id id id) rfl turn.silent id
  | commandTick nowMs queued ver =>
      obtain ⟨registry,command,out,is,busy,_⟩ := t.commandTick_is mac keys nowMs queued ver
      unfold Tasks.step
      dsimp only
      rw [is]
      exact kept (Tasks.kept_of id id busy id id id) rfl turn.silent id
  | hexTick nowMs armed queued ver =>
      obtain ⟨registry,hex,out,is,busy,_⟩ := t.hexTick_is mac keys nowMs armed queued ver
      unfold Tasks.step
      dsimp only
      rw [is]
      exact kept (Tasks.kept_of id id id busy id id) rfl turn.silent id
  | configTick nowMs pollSeq queued ver =>
      obtain ⟨config,changePending,out,is,goes,_⟩ := t.configTick_is mac keys nowMs pollSeq queued ver
      unfold Tasks.step
      dsimp only
      rw [is]
      exact kept (Tasks.kept_of id id id id goes.own id) rfl (goes.silent turn.silent) id
  | startPhy nowMs quiet =>
      unfold Tasks.step
      dsimp only
      rcases t.startPhy_is nowMs quiet with is | ⟨may,_,is | ⟨phy,is,_⟩⟩
      · rw [is]
        exact turn
      · rw [is]
        exact kept (Tasks.kept_of id id id id id id) rfl turn.silent id
      · rw [is]
        refine ⟨Tasks.Turns.one (Tasks.taken_of quiet may .phy fun other differs held => ?_) turn.one,turn.silent,fun dst config ctx admitted => ?_⟩
        · cases other with
          | phy => exact absurd rfl differs
          | _ => exact held
        · exact absurd ((t.mayStart_free quiet may).1.symm.trans admitted) nofun
  | phyRetuned nowMs =>
      obtain ⟨within,asking⟩ := t.phy.onRetuned_within nowMs
      exact kept (Tasks.kept_of id id id id id within.blocks) rfl turn.silent asking
  | phyTick nowMs pollSeq committed queued ver => exact turn.phyTicks _ (t.phyTick_ticks nowMs pollSeq committed queued ver)
  | sendPlain hdr payload =>
      unfold Tasks.step
      dsimp only
      split
      · exact turn
      · split
        · exact turn
        · exact turn
  | aired path airedMs =>
      cases path with
      | admission => exact turn
      | roll => exact kept (Tasks.kept_of id (t.roll.onAired_busy airedMs) id id id id) rfl turn.silent id
      | command => exact kept (Tasks.kept_of id id (t.command.onAired_busy airedMs) id id id) rfl turn.silent id
      | hex => exact kept (Tasks.kept_of id id id (t.hex.onAired_busy airedMs) id id) rfl turn.silent id
      | config =>
          have goes := t.config.onAired_goes airedMs
          exact kept (Tasks.kept_of id id id id goes.own id) rfl (goes.silent turn.silent) id
      | phy =>
          obtain ⟨fleet,culprit,phase⟩ := t.phy.onAired_same airedMs
          exact kept (Tasks.kept_of id id id id id (PhyChange.within_same fleet culprit phase).blocks) rfl turn.silent (PhyChange.asking_same phase)
  | setParams => exact kept (Tasks.kept_of id id id id id id) rfl turn.silent id
  | restart =>
      refine ⟨fun h held => ?_,nofun,nofun⟩
      cases h <;> cases held

def Tasks.next (t : Tasks) (i : TaskInput) : Tasks := (t.step mac keys i).1

theorem Tasks.start_turn : Tasks.Turn {} := by
  refine ⟨fun h held => ?_,nofun,nofun⟩
  cases h <;> cases held

theorem Tasks.reached_turn {t : Tasks} (path : Reached (Tasks.next mac keys) (fun _ _ => True) {} t) : t.Turn :=
  path.invariant Tasks.Turn Tasks.start_turn fun _ i turn _ => turn.step mac keys i

-- Whatever sends has the air.
theorem Tasks.Turn.sender {t : Tasks} (turn : t.Turn) (i : TaskInput) (o : Outgoing) (sends : (t.step mac keys i).2 = some o) (h : Holder)
    (sender : i.sender = some h) : t.holds h = true := by
  unfold Tasks.step at sends
  cases i with
  | draw nowMs queued ver =>
      obtain rfl := Option.some.inj sender
      dsimp only at sends
      cases admitted : t.admission with
      | none =>
          rw [admitted] at sends
          cases sends
      | some a =>
          rw [admitted] at sends
          dsimp only at sends
          have drew := t.draw_drew mac keys nowMs queued ver a
          generalize t.draw mac keys nowMs queued ver a = result at drew sends
          cases drew with
          | phy dst config ctx => exact (turn.phyJob dst config ctx admitted).blocks
          | _ => cases sends
  | rollTick nowMs queued ver =>
      obtain rfl := Option.some.inj sender
      obtain ⟨_,_,_,out,is,_,_,_,sent⟩ := t.rollTick_is mac keys nowMs queued ver
      dsimp only at sends
      rw [is] at sends
      exact sent o sends
  | commandTick nowMs queued ver =>
      obtain rfl := Option.some.inj sender
      obtain ⟨_,_,out,is,_,sent⟩ := t.commandTick_is mac keys nowMs queued ver
      dsimp only at sends
      rw [is] at sends
      exact sent o sends
  | hexTick nowMs armed queued ver =>
      obtain rfl := Option.some.inj sender
      obtain ⟨_,_,out,is,_,sent⟩ := t.hexTick_is mac keys nowMs armed queued ver
      dsimp only at sends
      rw [is] at sends
      exact sent o sends
  | configTick nowMs pollSeq queued ver =>
      obtain rfl := Option.some.inj sender
      obtain ⟨_,_,out,is,_,sent⟩ := t.configTick_is mac keys nowMs pollSeq queued ver
      dsimp only at sends
      rw [is] at sends
      exact sent turn.silent o sends
  | phyTick nowMs pollSeq committed queued ver =>
      obtain rfl := Option.some.inj sender
      dsimp only at sends
      have ticks := t.phyTick_ticks nowMs pollSeq committed queued ver
      generalize t.phyTick nowMs pollSeq committed queued ver = result at ticks sends
      cases ticks with
      | moves phy out free within sent => exact sent o sends
      | _ => cases sends
  | _ => cases sender

-- In every run, in whatever order the tasks come: one exchange at a time; every frame of an exchange is sent by the one that has the air,
-- while no other has it; and a frame of no exchange is one of the scheduler's.
theorem one_exchange_at_a_time {t : Tasks} (path : Reached (Tasks.next mac keys) (fun _ _ => True) {} t) :
    t.One ∧ ∀ i o, (t.step mac keys i).2 = some o →
      (∀ h, i.sender = some h → t.holds h = true ∧ t.Alone h) ∧ (i.sender = none → ∃ hdr payload, i = .sendPlain hdr payload) := by
  have turn := Tasks.reached_turn mac keys path
  refine ⟨turn.one,fun i o sends => ⟨fun h sender => ?_,fun none_ => ?_⟩⟩
  · have held := turn.sender mac keys i o sends h sender
    exact ⟨held,turn.one h held⟩
  · unfold Tasks.step at sends
    cases i with
    | sendPlain hdr payload => exact ⟨hdr,payload,rfl⟩
    | draw | rollTick | commandTick | hexTick | configTick | phyTick => cases none_
    | _ => cases sends

end

-- The gate's node is heard and rolled, and answers in its new context.
def rolled : List TaskInput :=
  [.hear {src := 0x01,dst := nodeBridge,ctxId := 7} none 0,.note 0,.hand 0,.admitRoll true,.draw 5 true 1,.rollTick 5 true 1,
    .hear {src := 0x01,dst := nodeBridge,ctxId := 8} (some {ackSeq := 1}) 6,.note 6,.hand 6,.rollTick 7 true 1]

-- The gate is ordered to open, and a readback nobody asked for begins before the frame is sent.
def opening : List TaskInput :=
  rolled ++ [.admitCommand {dst := 0x01,cmd := cmdOpen} true,.draw 8 true 1,
    .configAck 0x01 {op := configOpGetAll,moreFollows := true,entries := [{paramId := 0x0100}]} 0 9]

theorem one_exchange_at_a_time_opening :
    (opening.foldl (Tasks.next lengthMac fun _ => zeroKey) {}).config.phase = .awaitingReadback ∧
      ((opening.foldl (Tasks.next lengthMac fun _ => zeroKey) {}).step lengthMac (fun _ => zeroKey) (.commandTick 10 true 1)).2.isSome = true ∧
      (opening.foldl (Tasks.next lengthMac fun _ => zeroKey) {}).Alone .command := by
  have run : Follows (Tasks.next lengthMac fun _ => zeroKey) (fun _ _ => True) {} opening :=
    ⟨trivial,trivial,trivial,trivial,trivial,trivial,trivial,trivial,trivial,trivial,trivial,trivial,trivial,trivial⟩
  have facts : (opening.foldl (Tasks.next lengthMac fun _ => zeroKey) {}).config.phase = .awaitingReadback ∧
      ((opening.foldl (Tasks.next lengthMac fun _ => zeroKey) {}).step lengthMac (fun _ => zeroKey) (.commandTick 10 true 1)).2.isSome = true := by
    decide +kernel
  obtain ⟨o,sends⟩ := Option.isSome_iff_exists.mp facts.2
  have turn := (one_exchange_at_a_time lengthMac (fun _ => zeroKey) run.reached).2 (.commandTick 10 true 1) o sends
  exact ⟨facts.1,facts.2,(turn.1 .command rfl).2⟩

end LoraRan.Bridge
