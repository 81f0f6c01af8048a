import LoraRan.Bridge.PhyChange
import LoraRan.Library.StepSystem

namespace LoraRan.Bridge
open Protocol Config Library.Clock Library.StepSystem

-- The calls the machine can be given. Times are true milliseconds; the machine sees them through its 32-bit counter.
inductive PhyEvent where
  | start (from_ to_ : PhyGroup) (fleet : List NodeId)
  | next
  | sent (seq : Seq)
  | aired (left : Nat)
  | retuned
  | heard (src : NodeId) (rx : Nat)
  | configAck (src : NodeId) (ack : NodeConfigAckV1) (seq : Seq)
  | commitFailed
  | ackTimeout (ms : UInt32)

structure PhyInput where
  time : Nat
  event : PhyEvent

-- All six rows are there, and every PHY row the answer carries is Ok and equal to the value sent.
def Whole (to_ : PhyGroup) (ack : NodeConfigAckV1) : Prop :=
  (∀ k, ∃ e ∈ ack.entries, phyIndexOf e.paramId = some k) ∧
    ∀ e ∈ ack.entries, ∀ k, phyIndexOf e.paramId = some k →
      e.status = ParamStatus.ok.code ∧ e.len ≠ 0 ∧ entrySigned e.value e.len e.ptype = to_ k

theorem accepts_whole (to_ : PhyGroup) (ack : NodeConfigAckV1) : PhyChange.accepts to_ ack = true ↔ Whole to_ ack := by
  simp only [PhyChange.accepts,Whole,Bool.and_eq_true,List.all_eq_true,List.mem_finRange,true_implies,List.any_eq_true,beq_iff_eq]
  constructor
  · rintro ⟨held,present⟩
    refine ⟨present,?_⟩
    intro e member k row
    have this := held e member
    rw [row] at this
    simpa [PhyChange.entryHolds,and_assoc] using this
  · rintro ⟨present,held⟩
    refine ⟨?_,present⟩
    intro e member
    cases row : phyIndexOf e.paramId with
    | none => rfl
    | some k => simpa [PhyChange.entryHolds,and_assoc] using held e member k row

instance wholeDecidable (to_ : PhyGroup) (ack : NodeConfigAckV1) : Decidable (Whole to_ ack) :=
  decidable_of_iff _ (accepts_whole to_ ack)

-- What has happened since the change in hand was started.
structure PhyBooks where
  begun : Bool := false
  sets : Nat → Option Seq := fun _ => none
  answered : Nat → Bool := fun _ => false
  retunes : Nat := 0
  retunedAt : Option Nat := none
  heardSince : Nat → Bool := fun _ => false
  commits : Nat := 0
  takenBack : Nat := 0
  gets : Nat := 0
  abandons : Nat := 0
  sentAt : Nat := 0
  firstAckAt : Nat := 0
  openings : List Nat := []

structure PhyRun where
  now : Nat := 0
  machine : PhyChange := {}
  books : PhyBooks := {}

namespace PhyRun

def tally (step : PhyStep) (action : PhyAction) : Nat := if step.action = action then 1 else 0

-- An abandon out of the wait for a SET's answer records the window from when that SET left.
def bookStep (s : PhyRun) (step : PhyStep) : PhyBooks :=
  {s.books with
    retunes := s.books.retunes + tally step .retune
    commits := s.books.commits + tally step .commit
    abandons := s.books.abandons + tally step .abandon
    openings :=
      if s.machine.phase = .awaitingSetAck ∧ step.action = .abandon then s.books.sentAt :: s.books.openings else s.books.openings}

def bookSent (s : PhyRun) (seq : Seq) (time : Nat) : PhyBooks :=
  match s.machine.phase with
  | .setDue => {s.books with sets := Function.update s.books.sets s.machine.index (some seq),sentAt := time}
  | .getDue => {s.books with gets := s.books.gets + 1}
  | _ => s.books

def bookAired (s : PhyRun) (left : Nat) : PhyBooks :=
  if s.machine.phase = .awaitingSetAck then {s.books with sentAt := left} else s.books

-- The bridge is on the new settings from the first report after its Retune on.
def bookRetuned (s : PhyRun) (time : Nat) : PhyBooks :=
  if 0 < s.books.retunes ∧ s.books.retunedAt = none then {s.books with retunedAt := some time} else s.books

def HeardFrom (s : PhyRun) (src : NodeId) (rx i : Nat) : Prop :=
  i < s.machine.nfleet ∧ s.machine.node i = src ∧ ∃ t ∈ s.books.retunedAt, t ≤ rx

instance heardFromDecidable (s : PhyRun) (src : NodeId) (rx i : Nat) : Decidable (s.HeardFrom src rx i) :=
  inferInstanceAs (Decidable (_ ∧ _ ∧ _))

def bookHeard (s : PhyRun) (src : NodeId) (rx : Nat) : PhyBooks :=
  {s.books with heardSince := fun i => s.books.heardSince i || decide (s.HeardFrom src rx i)}

-- The answer of node `i` to the SET sent to it, whatever the machine is waiting for.
def Answers (s : PhyRun) (src : NodeId) (ack : NodeConfigAckV1) (seq : Seq) (i : Nat) : Prop :=
  i < s.machine.nfleet ∧ s.machine.node i = src ∧ s.books.sets i = some seq ∧ Whole s.machine.to_ ack

instance answersDecidable (s : PhyRun) (src : NodeId) (ack : NodeConfigAckV1) (seq : Seq) (i : Nat) : Decidable (s.Answers src ack seq i) :=
  inferInstanceAs (Decidable (_ ∧ _ ∧ _ ∧ _))

def bookAck (s : PhyRun) (src : NodeId) (ack : NodeConfigAckV1) (seq : Seq) (time : Nat) (claimed : Bool) : PhyBooks :=
  {s.books with
    answered := fun i => s.books.answered i || decide (s.Answers src ack seq i)
    firstAckAt := if s.machine.haveFirstAck then s.books.firstAckAt else time
    openings := if s.machine.phase = .awaitingSetAck ∧ claimed then time :: s.books.openings else s.books.openings}

def step (s : PhyRun) (i : PhyInput) : PhyRun :=
  match i.event with
  | .start from_ to_ fleet =>
      let started := s.machine.start from_ to_ fleet (stamp i.time)
      if started.1 then {now := i.time,machine := started.2,books := {begun := true}} else {s with now := i.time}
  | .next =>
      let told := s.machine.next (stamp i.time)
      {now := i.time,machine := told.2,books := s.bookStep told.1}
  | .sent seq => {now := i.time,machine := s.machine.onSent seq (stamp i.time),books := s.bookSent seq i.time}
  | .aired left => {now := i.time,machine := s.machine.onAired (stamp left),books := s.bookAired left}
  | .retuned => {now := i.time,machine := s.machine.onRetuned (stamp i.time),books := s.bookRetuned i.time}
  | .heard src rx => {now := i.time,machine := s.machine.onHeard src (stamp rx),books := s.bookHeard src rx}
  | .configAck src ack seq =>
      let taken := s.machine.onConfigAck src ack seq (stamp i.time)
      {now := i.time,machine := taken.2,books := s.bookAck src ack seq i.time taken.1}
  | .commitFailed =>
      {now := i.time,machine := s.machine.commitFailed
       books := {s.books with takenBack := s.books.takenBack + if s.machine.TakesBack then 1 else 0}}
  | .ackTimeout ms => {s with now := i.time,machine := s.machine.setAckTimeoutMs ms}

-- Time does not run back, a frame leaves after it was queued, and none waits half a turn of the counter to be handed over.
def Allowed (s : PhyRun) (i : PhyInput) : Prop :=
  s.now ≤ i.time ∧
    match i.event with
    | .aired left => s.books.sentAt ≤ left ∧ left ≤ i.time
    | .heard _ rx => rx ≤ i.time ∧ i.time < rx + 2 ^ 31
    | _ => True

instance allowedDecidable (s : PhyRun) (i : PhyInput) : Decidable (s.Allowed i) :=
  match i with
  | ⟨_,.start _ _ _⟩ | ⟨_,.next⟩ | ⟨_,.sent _⟩ | ⟨_,.retuned⟩ | ⟨_,.configAck _ _ _⟩ | ⟨_,.commitFailed⟩ | ⟨_,.ackTimeout _⟩ =>
      inferInstanceAs (Decidable (_ ∧ True))
  | ⟨_,.aired _⟩ | ⟨_,.heard _ _⟩ => inferInstanceAs (Decidable (_ ∧ _ ∧ _))

def Accepted (s : PhyRun) : Prop := ∀ i < s.machine.nfleet, s.books.answered i = true
def AllHeard (s : PhyRun) : Prop := ∀ i < s.machine.nfleet, s.books.heardSince i = true

def outcomes (b : PhyBooks) : Nat := b.commits - b.takenBack + b.abandons

def Undecided (b : PhyBooks) : Prop := b.commits = 0 ∧ b.takenBack = 0 ∧ b.abandons = 0 ∧ b.gets = 0
def Committed (b : PhyBooks) : Prop := b.commits = 1 ∧ b.takenBack = 0 ∧ b.abandons = 0
-- The change is lost: it never committed, or its commit was taken back.
def Lost (b : PhyBooks) : Prop := b.takenBack = b.commits ∧ b.commits ≤ 1

-- The trial window of every opening on record has closed.
def Closed (s : PhyRun) : Prop := ∀ t ∈ s.books.openings, t + s.machine.trialMs.toNat ≤ s.now

-- What holds of the record in each phase the machine can rest in.
def Standing (s : PhyRun) : Prop :=
  match s.machine.phase with
  | .idle =>
      (s.books.begun = false ∧ s.books.abandons = 0 ∧ s.books.commits = 0) ∨
        (Committed s.books ∧ 0 < s.books.gets) ∨ (s.books.abandons = 1 ∧ Lost s.books ∧ s.books.openings ≠ [] ∧ s.Closed)
  | .setDue =>
      Undecided s.books ∧ s.books.retunes = 0 ∧ s.machine.index < s.machine.nfleet ∧ ∀ i < s.machine.index, s.books.answered i = true
  | .awaitingSetAck =>
      Undecided s.books ∧ s.books.retunes = 0 ∧ s.machine.index < s.machine.nfleet ∧ (∀ i < s.machine.index, s.books.answered i = true) ∧
        s.books.sets s.machine.index = some s.machine.seq ∧ s.machine.sentMs = stamp s.books.sentAt ∧
        s.books.sentAt ≤ s.now ∧ ∀ t ∈ s.books.openings, t ≤ s.books.sentAt
  | .retuneDue => Undecided s.books ∧ s.books.retunes = 0 ∧ s.machine.haveFirstAck = true ∧ s.Accepted
  | .awaitingRetune =>
      Undecided s.books ∧ 0 < s.books.retunes ∧ s.books.retunedAt = none ∧ s.machine.haveFirstAck = true ∧ s.Accepted
  | .hearing =>
      Undecided s.books ∧ s.machine.haveFirstAck = true ∧ s.Accepted ∧
        ∃ t ≤ s.now, s.books.retunedAt = some t ∧ s.machine.retunedMs = stamp t
  | .getDue =>
      Committed s.books ∧ s.machine.haveFirstAck = true ∧ (s.books.gets = 0 → s.machine.index = 0 ∧ s.machine.getAttempts = 0)
  | .awaitingGet | .confirmed => Committed s.books ∧ s.machine.haveFirstAck = true ∧ 0 < s.books.gets
  | .abandonDue => s.books.abandons = 0 ∧ Lost s.books ∧ s.books.openings ≠ []
  | .cooldown => s.books.abandons = 1 ∧ Lost s.books ∧ s.books.openings ≠ []
  | .commitDue | .readbackDue => False

-- The newest opening on record is the one the machine holds.
def Latest (s : PhyRun) : Prop :=
  s.books.openings ≠ [] → ∃ newest ∈ s.books.openings, s.machine.lastOpenMs = stamp newest ∧ newest ≤ s.now ∧ ∀ t ∈ s.books.openings, t ≤ newest

structure Inv (s : PhyRun) : Prop where
  busy : s.machine.phase ≠ .idle → s.books.begun = true
  moved : s.machine.retuned = decide (0 < s.books.retunes)
  unmoved : s.books.retunes = 0 → s.books.retunedAt = none
  marked : ∀ i, s.machine.heard i = true → s.books.heardSince i = true
  latest : s.Latest
  first : s.machine.haveFirstAck = true → s.machine.firstAckMs = stamp s.books.firstAckAt ∧ s.books.openings ≠ []
  standing : s.Standing

theorem Inv.begin : Inv {} where
  busy := fun active => absurd rfl active
  moved := rfl
  unmoved := fun _ => rfl
  marked := fun _ heard => heard
  latest := fun some => absurd rfl some
  first := fun acked => by cases acked
  standing := .inl ⟨rfl,rfl,rfl⟩

theorem Closed.later {s : PhyRun} {time : Nat} (closed : s.Closed) (later : s.now ≤ time) : Closed {s with now := time} := by
  intro t member
  have passed := closed t member
  change t + s.machine.trialMs.toNat ≤ time
  omega

theorem Standing.later {s : PhyRun} {time : Nat} (standing : s.Standing) (later : s.now ≤ time) : Standing {s with now := time} := by
  unfold Standing at standing ⊢
  cases phase : s.machine.phase <;> simp only [phase] at standing ⊢ <;> try exact standing
  case idle =>
    rcases standing with fresh | done | ⟨gone,lost,opened,closed⟩
    · exact .inl fresh
    · exact .inr (.inl done)
    · exact .inr (.inr ⟨gone,lost,opened,closed.later later⟩)
  case awaitingSetAck =>
    obtain ⟨open_,unmoved,inside,answered,asked,sent,past,newest⟩ := standing
    exact ⟨open_,unmoved,inside,answered,asked,sent,Nat.le_trans past later,newest⟩
  case hearing =>
    obtain ⟨open_,acked,accepted,t,past,at_,held⟩ := standing
    exact ⟨open_,acked,accepted,t,Nat.le_trans past later,at_,held⟩

theorem Inv.later {s : PhyRun} {time : Nat} (inv : Inv s) (later : s.now ≤ time) : Inv {s with now := time} := by
  refine ⟨inv.busy,inv.moved,inv.unmoved,inv.marked,?_,inv.first,inv.standing.later later⟩
  intro some
  obtain ⟨newest,member,held,past,rest⟩ := inv.latest some
  exact ⟨newest,member,held,Nat.le_trans past later,rest⟩

-- What a step leaves alone when it moves the phase only.
def Same (s s' : PhyRun) : Prop :=
  s'.now = s.now ∧ s'.books.begun = s.books.begun ∧ s'.machine.retuned = s.machine.retuned ∧ s'.books.retunes = s.books.retunes ∧
    s'.books.retunedAt = s.books.retunedAt ∧ s'.machine.heard = s.machine.heard ∧ s'.books.heardSince = s.books.heardSince ∧
    s'.machine.lastOpenMs = s.machine.lastOpenMs ∧ s'.books.openings = s.books.openings ∧
    s'.machine.haveFirstAck = s.machine.haveFirstAck ∧ s'.machine.firstAckMs = s.machine.firstAckMs ∧
    s'.books.firstAckAt = s.books.firstAckAt

theorem Inv.carry {s s' : PhyRun} (inv : Inv s) (same : Same s s') (active : s.machine.phase ≠ .idle) (standing : s'.Standing) : Inv s' := by
  obtain ⟨now,begun,flag,retunes,at_,heard,since,open_,openings,acked,ackMs,ackAt⟩ := same
  refine ⟨?_,?_,?_,?_,?_,?_,standing⟩
  · intro _
    rw [begun]
    exact inv.busy active
  · rw [flag,retunes]
    exact inv.moved
  · rw [retunes,at_]
    exact inv.unmoved
  · rw [heard,since]
    exact inv.marked
  · unfold Latest
    rw [openings,open_,now]
    exact inv.latest
  · rw [acked,ackMs,ackAt,openings]
    exact inv.first

theorem bookStep_quiet (s : PhyRun) (step : PhyStep) (unmoved : step.action ≠ .retune) (uncommitted : step.action ≠ .commit)
    (kept : step.action ≠ .abandon) : s.bookStep step = s.books := by
  simp [bookStep,tally,unmoved,uncommitted,kept]

theorem bookStep_abandon (s : PhyRun) (step : PhyStep) (gone : step.action = .abandon) (elsewhere : s.machine.phase ≠ .awaitingSetAck) :
    s.bookStep step = {s.books with abandons := s.books.abandons + 1} := by
  simp [bookStep,tally,gone,elsewhere]

theorem Undecided.lost {b : PhyBooks} (open_ : Undecided b) : Lost b := by
  obtain ⟨commits,back,-,-⟩ := open_
  exact ⟨by rw [commits,back],by omega⟩

-- An abandon ends an undecided change, or one whose commit was taken back.
theorem Inv.dropped {s : PhyRun} (inv : Inv s) (step : PhyStep) (m : PhyChange) (gone : step.action = .abandon)
    (active : s.machine.phase ≠ .idle) (elsewhere : s.machine.phase ≠ .awaitingSetAck) (phase : m.phase = .cooldown)
    (same : Same s ⟨s.now,m,s.books⟩) (kept : s.books.abandons = 0) (lost : Lost s.books) (opened : s.books.openings ≠ []) :
    Inv ⟨s.now,m,s.bookStep step⟩ := by
  rw [bookStep_abandon s step gone elsewhere]
  refine inv.carry same active ?_
  unfold Standing
  simp only [phase]
  exact ⟨by rw [kept],lost,opened⟩

-- One call of `next` at the time the run stands at.
def told (s : PhyRun) : PhyRun := ⟨s.now,(s.machine.next (stamp s.now)).2,s.bookStep (s.machine.next (stamp s.now)).1⟩

theorem told_eq {s : PhyRun} {step : PhyStep} {m : PhyChange} (answer : s.machine.next (stamp s.now) = (step,m)) :
    s.told = ⟨s.now,m,s.bookStep step⟩ := by
  rw [told,answer]

theorem told_setDue {s : PhyRun} (inv : Inv s) (phase : s.machine.phase = .setDue) : Inv s.told := by
  have standing := inv.standing
  unfold Standing at standing
  simp only [phase] at standing
  have answer := PhyChange.next_setDue (stamp s.now) phase
  split at answer
  · next passed =>
    rw [told_eq answer]
    exact inv.dropped _ _ rfl (by rw [phase]; decide) (by rw [phase]; decide) rfl ⟨rfl,rfl,rfl,rfl,rfl,rfl,rfl,rfl,rfl,rfl,rfl,rfl⟩
      standing.1.2.2.1 standing.1.lost (inv.first (PhyChange.deadline_acked _ passed)).2
  · rw [told_eq answer,bookStep_quiet _ _ (by simp) (by simp) (by simp)]
    exact inv

-- The machine gives up the wait for a SET's answer: the window it may have opened is put on record.
theorem told_expired {s : PhyRun} (inv : Inv s) (phase : s.machine.phase = .awaitingSetAck) (step : PhyStep) (m : PhyChange)
    (answer : s.machine.next (stamp s.now) = (step,m)) (left : step.action = .abandon) (rests : m.phase = .cooldown)
    (records : m.lastOpenMs = s.machine.sentMs) (same : Same s ⟨s.now,{m with lastOpenMs := s.machine.lastOpenMs},s.books⟩) : Inv s.told := by
  have standing := inv.standing
  unfold Standing at standing
  simp only [phase] at standing
  obtain ⟨open_,-,-,-,-,sent,past,newest⟩ := standing
  have books : s.bookStep step = {s.books with abandons := s.books.abandons + 1,openings := s.books.sentAt :: s.books.openings} := by
    simp [bookStep,tally,left,phase]
  rw [told_eq answer,books]
  obtain ⟨-,-,flag,-,-,heard,-,-,-,acked,ackMs,-⟩ := same
  refine ⟨fun _ => inv.busy (by rw [phase]; decide),flag.trans inv.moved,inv.unmoved,?_,?_,?_,?_⟩
  · intro i is
    exact inv.marked i (by rw [← heard]; exact is)
  · intro _
    refine ⟨s.books.sentAt,List.mem_cons_self,records.trans sent,past,?_⟩
    intro t member
    rcases List.mem_cons.mp member with rfl | prior
    · exact Nat.le_refl _
    · exact newest t prior
  · intro is
    exact ⟨ackMs.trans (inv.first (acked ▸ is)).1,List.cons_ne_nil _ _⟩
  · unfold Standing
    simp only [rests]
    exact ⟨by rw [open_.2.2.1],open_.lost,List.cons_ne_nil _ _⟩

theorem told_awaitingSetAck {s : PhyRun} (inv : Inv s) (phase : s.machine.phase = .awaitingSetAck) : Inv s.told := by
  have answer := PhyChange.next_awaitingSetAck (stamp s.now) phase
  split at answer
  · exact told_expired inv phase _ _ answer rfl rfl rfl ⟨rfl,rfl,rfl,rfl,rfl,rfl,rfl,rfl,rfl,rfl,rfl,rfl⟩
  · split at answer
    · exact told_expired inv phase _ _ answer rfl rfl rfl ⟨rfl,rfl,rfl,rfl,rfl,rfl,rfl,rfl,rfl,rfl,rfl,rfl⟩
    · rw [told_eq answer,bookStep_quiet _ _ (by simp) (by simp) (by simp)]
      exact inv

theorem told_retuneDue {s : PhyRun} (inv : Inv s) (phase : s.machine.phase = .retuneDue) : Inv s.told := by
  have standing := inv.standing
  unfold Standing at standing
  simp only [phase] at standing
  obtain ⟨open_,unmoved,acked,accepted⟩ := standing
  have books : s.bookStep {action := .retune,group := s.machine.to_} = {s.books with retunes := s.books.retunes + 1} := by
    simp [bookStep,tally]
  rw [told_eq (PhyChange.next_retuneDue _ phase),books]
  refine ⟨fun _ => inv.busy (by rw [phase]; decide),?_,?_,inv.marked,inv.latest,inv.first,?_⟩
  · exact (decide_eq_true (Nat.succ_pos _)).symm
  · intro none_
    exact absurd none_ (Nat.succ_ne_zero _)
  · exact ⟨open_,Nat.succ_pos _,inv.unmoved unmoved,acked,accepted⟩

theorem told_awaitingRetune {s : PhyRun} (inv : Inv s) (phase : s.machine.phase = .awaitingRetune) : Inv s.told := by
  have standing := inv.standing
  unfold Standing at standing
  simp only [phase] at standing
  have answer := PhyChange.next_awaitingRetune (stamp s.now) phase
  split at answer
  · next passed =>
    rw [told_eq answer]
    exact inv.dropped _ _ rfl (by rw [phase]; decide) (by rw [phase]; decide) rfl ⟨rfl,rfl,rfl,rfl,rfl,rfl,rfl,rfl,rfl,rfl,rfl,rfl⟩
      standing.1.2.2.1 standing.1.lost (inv.first (PhyChange.deadline_acked _ passed)).2
  · rw [told_eq answer,bookStep_quiet _ _ (by simp) (by simp) (by simp)]
    exact inv

theorem told_hearing {s : PhyRun} (inv : Inv s) (phase : s.machine.phase = .hearing) : Inv s.told := by
  have standing := inv.standing
  unfold Standing at standing
  simp only [phase] at standing
  have active : s.machine.phase ≠ .idle := by rw [phase]; decide
  have elsewhere : s.machine.phase ≠ .awaitingSetAck := by rw [phase]; decide
  obtain ⟨open_,acked,accepted,mark⟩ := standing
  cases all : s.machine.unheard with
  | none =>
      rw [told_eq (PhyChange.next_hearing_all (stamp s.now) phase all)]
      refine inv.carry ⟨rfl,rfl,rfl,by simp [bookStep,tally],rfl,rfl,rfl,rfl,by simp [bookStep,elsewhere],rfl,rfl,rfl⟩ active ?_
      refine ⟨⟨?_,open_.2.1,?_⟩,acked,fun _ => ⟨rfl,rfl⟩⟩
      · simp [bookStep,tally,open_.1]
      · simp [bookStep,tally,open_.2.2.1]
  | some i =>
      have answer := PhyChange.next_hearing_some (stamp s.now) phase all
      split at answer
      · rw [told_eq answer]
        exact inv.dropped _ _ rfl active elsewhere rfl ⟨rfl,rfl,rfl,rfl,rfl,rfl,rfl,rfl,rfl,rfl,rfl,rfl⟩
          open_.2.2.1 open_.lost (inv.first acked).2
      · obtain ⟨j,step,polls,kind⟩ := PhyChange.nextPoll_cases (stamp s.now) s.machine
        have quiet : s.bookStep step = s.books := by
          refine bookStep_quiet s step ?_ ?_ ?_ <;> rcases kind with is | is <;> rw [is] <;> decide
        rw [told_eq (answer.trans polls),quiet]
        refine inv.carry ⟨rfl,rfl,rfl,rfl,rfl,rfl,rfl,rfl,rfl,rfl,rfl,rfl⟩ active ?_
        unfold Standing
        simp only [phase]
        exact ⟨open_,acked,accepted,mark⟩

theorem told_awaitingGet {s : PhyRun} (inv : Inv s) (phase : s.machine.phase = .awaitingGet) : Inv s.told := by
  have standing := inv.standing
  unfold Standing at standing
  simp only [phase] at standing
  obtain ⟨done,acked,asked⟩ := standing
  have active : s.machine.phase ≠ .idle := by rw [phase]; decide
  rcases PhyChange.next_awaitingGet (stamp s.now) phase with answer | ⟨dst,answer⟩ | ⟨dst,answer⟩ | answer
  all_goals rw [told_eq answer,bookStep_quiet _ _ (by simp) (by simp) (by simp)]
  · exact inv
  · refine inv.carry ⟨rfl,rfl,rfl,rfl,rfl,rfl,rfl,rfl,rfl,rfl,rfl,rfl⟩ active ?_
    exact ⟨done,acked,fun none_ => absurd none_ (Nat.ne_of_gt asked)⟩
  · refine inv.carry ⟨rfl,rfl,rfl,rfl,rfl,rfl,rfl,rfl,rfl,rfl,rfl,rfl⟩ active ?_
    exact ⟨done,acked,fun none_ => absurd none_ (Nat.ne_of_gt asked)⟩
  · refine inv.carry ⟨rfl,rfl,rfl,rfl,rfl,rfl,rfl,rfl,rfl,rfl,rfl,rfl⟩ active ?_
    exact .inr (.inl ⟨done,asked⟩)

theorem told_confirmed {s : PhyRun} (inv : Inv s) (phase : s.machine.phase = .confirmed) : Inv s.told := by
  have standing := inv.standing
  unfold Standing at standing
  simp only [phase] at standing
  obtain ⟨done,acked,asked⟩ := standing
  rw [told_eq (PhyChange.next_confirmed _ phase),bookStep_quiet _ _ (by simp) (by simp) (by simp)]
  refine inv.carry ⟨rfl,rfl,rfl,rfl,rfl,rfl,rfl,rfl,rfl,rfl,rfl,rfl⟩ (by rw [phase]; decide) ?_
  by_cases more : s.machine.index + 1 < s.machine.nfleet
  · have next : s.machine.nextGet.phase = .getDue := if_pos more
    unfold Standing
    simp only [next]
    exact ⟨done,acked,fun none_ => absurd none_ (Nat.ne_of_gt asked)⟩
  · have next : s.machine.nextGet.phase = .idle := if_neg more
    unfold Standing
    simp only [next]
    exact .inr (.inl ⟨done,asked⟩)

-- The counter shows the trial window passed since the newest opening, so it has passed since every one.
theorem told_cooldown {s : PhyRun} (inv : Inv s) (phase : s.machine.phase = .cooldown) : Inv s.told := by
  have standing := inv.standing
  unfold Standing at standing
  simp only [phase] at standing
  obtain ⟨left,lost,opened⟩ := standing
  rcases PhyChange.next_cooldown (stamp s.now) phase with answer | ⟨passed,step,kind,answer⟩
  · rw [told_eq answer,bookStep_quiet _ _ (by simp) (by simp) (by simp)]
    exact inv
  · have quiet : s.bookStep step = s.books := by
      refine bookStep_quiet s step ?_ ?_ ?_ <;> rcases kind with is | is <;> rw [is] <;> decide
    rw [told_eq answer,quiet]
    refine inv.carry ⟨rfl,rfl,rfl,rfl,rfl,rfl,rfl,rfl,rfl,rfl,rfl,rfl⟩ (by rw [phase]; decide) ?_
    refine .inr (.inr ⟨left,lost,opened,?_⟩)
    obtain ⟨newest,-,held,past,rest⟩ := inv.latest opened
    rw [held] at passed
    have over_ := elapsed_real newest s.now _ past passed
    intro t member
    have before := rest t member
    change t + s.machine.trialMs.toNat ≤ s.now
    omega

theorem told_inv {s : PhyRun} (inv : Inv s) : Inv s.told := by
  cases phase : s.machine.phase with
  | idle =>
      rw [told_eq (PhyChange.next_idle _ phase),bookStep_quiet _ _ (by simp) (by simp) (by simp)]
      exact inv
  | setDue => exact told_setDue inv phase
  | awaitingSetAck => exact told_awaitingSetAck inv phase
  | retuneDue => exact told_retuneDue inv phase
  | awaitingRetune => exact told_awaitingRetune inv phase
  | hearing => exact told_hearing inv phase
  | getDue =>
      rw [told_eq (PhyChange.next_getDue _ phase),bookStep_quiet _ _ (by simp) (by simp) (by simp)]
      exact inv
  | awaitingGet => exact told_awaitingGet inv phase
  | confirmed => exact told_confirmed inv phase
  | abandonDue =>
      have standing := inv.standing
      unfold Standing at standing
      simp only [phase] at standing
      rw [told_eq (PhyChange.next_abandonDue _ phase)]
      exact inv.dropped _ _ rfl (by rw [phase]; decide) (by rw [phase]; decide) rfl ⟨rfl,rfl,rfl,rfl,rfl,rfl,rfl,rfl,rfl,rfl,rfl,rfl⟩
        standing.1 standing.2.1 standing.2.2
  | cooldown => exact told_cooldown inv phase
  | commitDue | readbackDue =>
      have standing := inv.standing
      unfold Standing at standing
      simp only [phase] at standing

-- A start the machine takes opens fresh books.
theorem started_inv (s : PhyRun) (from_ to_ : PhyGroup) (fleet : List NodeId) (time : Nat)
    (taken : (s.machine.start from_ to_ fleet (stamp time)).1 = true) :
    Inv ⟨time,(s.machine.start from_ to_ fleet (stamp time)).2,{begun := true}⟩ := by
  unfold PhyChange.start at taken ⊢
  split at taken
  · cases taken
  · next fits =>
    rw [if_neg fits]
    have some : 0 < fleet.length := by
      rw [Nat.pos_iff_ne_zero]
      exact fun empty => fits (.inr (.inl empty))
    refine ⟨fun _ => rfl,rfl,fun _ => rfl,fun _ heard => heard,fun some => absurd rfl some,(fun acked => by cases acked),?_⟩
    exact ⟨⟨rfl,rfl,rfl,rfl⟩,rfl,some,fun i below => absurd below (Nat.not_lt_zero i)⟩

theorem sent_inv {s : PhyRun} (inv : Inv s) (seq : Seq) : Inv ⟨s.now,s.machine.onSent seq (stamp s.now),s.bookSent seq s.now⟩ := by
  have standing := inv.standing
  unfold Standing at standing
  unfold PhyChange.onSent bookSent
  cases phase : s.machine.phase <;> simp only [phase] at standing ⊢ <;> try exact inv
  case setDue =>
    obtain ⟨open_,unmoved,inside,answered⟩ := standing
    refine inv.carry ⟨rfl,rfl,rfl,rfl,rfl,rfl,rfl,rfl,rfl,rfl,rfl,rfl⟩ (by rw [phase]; decide) ?_
    refine ⟨open_,unmoved,inside,answered,by simp,rfl,Nat.le_refl _,?_⟩
    intro t member
    have opened : s.books.openings ≠ [] := fun empty => by
      change t ∈ s.books.openings at member
      rw [empty] at member
      cases member
    obtain ⟨newest,-,-,past,rest⟩ := inv.latest opened
    exact Nat.le_trans (rest t member) past
  case getDue =>
    refine inv.carry ⟨rfl,rfl,rfl,rfl,rfl,rfl,rfl,rfl,rfl,rfl,rfl,rfl⟩ (by rw [phase]; decide) ?_
    exact ⟨standing.1,standing.2.1,Nat.succ_pos _⟩
  case hearing =>
    refine inv.carry ⟨rfl,rfl,rfl,rfl,rfl,rfl,rfl,rfl,rfl,rfl,rfl,rfl⟩ (by rw [phase]; decide) ?_
    exact standing

theorem aired_inv {s : PhyRun} (inv : Inv s) (left : Nat) (after : s.books.sentAt ≤ left) (past : left ≤ s.now) :
    Inv ⟨s.now,s.machine.onAired (stamp left),s.bookAired left⟩ := by
  have standing := inv.standing
  unfold Standing at standing
  unfold PhyChange.onAired bookAired
  cases phase : s.machine.phase <;> simp only [phase,reduceCtorEq,if_true,if_false] at standing ⊢ <;> try exact inv
  case awaitingSetAck =>
    obtain ⟨open_,unmoved,inside,answered,asked,-,-,newest⟩ := standing
    refine inv.carry ⟨rfl,rfl,rfl,rfl,rfl,rfl,rfl,rfl,rfl,rfl,rfl,rfl⟩ (by rw [phase]; decide) ?_
    refine ⟨open_,unmoved,inside,answered,asked,rfl,past,?_⟩
    intro t member
    exact Nat.le_trans (newest t member) after
  case awaitingGet =>
    refine inv.carry ⟨rfl,rfl,rfl,rfl,rfl,rfl,rfl,rfl,rfl,rfl,rfl,rfl⟩ (by rw [phase]; decide) ?_
    exact standing
  case hearing =>
    split
    · refine inv.carry ⟨rfl,rfl,rfl,rfl,rfl,rfl,rfl,rfl,rfl,rfl,rfl,rfl⟩ (by rw [phase]; decide) ?_
      exact standing
    · exact inv

theorem retuned_inv {s : PhyRun} (inv : Inv s) : Inv ⟨s.now,s.machine.onRetuned (stamp s.now),s.bookRetuned s.now⟩ := by
  have standing := inv.standing
  unfold Standing at standing
  unfold PhyChange.onRetuned
  by_cases waits : s.machine.phase = .awaitingRetune
  · simp only [waits] at standing
    obtain ⟨open_,moved,fresh,acked,accepted⟩ := standing
    have books : s.bookRetuned s.now = {s.books with retunedAt := some s.now} := if_pos ⟨moved,fresh⟩
    rw [if_neg (not_not.mpr waits),books]
    refine ⟨fun _ => inv.busy (by rw [waits]; decide),inv.moved,?_,inv.marked,inv.latest,inv.first,?_⟩
    · intro none_
      exact absurd none_ (Nat.ne_of_gt moved)
    · exact ⟨open_,acked,accepted,s.now,Nat.le_refl _,rfl,rfl⟩
  · rw [if_pos waits]
    unfold bookRetuned
    split
    · next late =>
      refine ⟨inv.busy,inv.moved,fun none_ => absurd none_ (Nat.ne_of_gt late.1),inv.marked,inv.latest,inv.first,?_⟩
      unfold Standing
      cases phase : s.machine.phase <;> simp only [phase] at standing ⊢ <;> try exact standing
      case awaitingRetune => exact absurd phase waits
      case hearing =>
        obtain ⟨-,-,-,t,-,at_,-⟩ := standing
        rw [late.2] at at_
        cases at_
    · exact inv

-- A frame heard before the retune shows a negative difference, for it did not wait half a turn to be handed over.
theorem heard_inv {s : PhyRun} (inv : Inv s) (src : NodeId) (rx : Nat) (near : s.now < rx + 2 ^ 31) :
    Inv ⟨s.now,s.machine.onHeard src (stamp rx),s.bookHeard src rx⟩ := by
  have more : ∀ i, s.books.heardSince i = true → (s.bookHeard src rx).heardSince i = true := by
    intro i since
    simp [bookHeard,since]
  unfold PhyChange.onHeard
  split
  · refine ⟨inv.busy,inv.moved,inv.unmoved,?_,inv.latest,inv.first,inv.standing⟩
    intro i heard
    exact more i (inv.marked i heard)
  · next counts =>
    rw [not_or,not_not,Int.not_lt] at counts
    obtain ⟨phase,shown⟩ := counts
    have standing := inv.standing
    unfold Standing at standing
    simp only [phase] at standing
    obtain ⟨-,-,-,t,past,at_,held⟩ := standing
    rw [held] at shown
    have after : t ≤ rx := by
      by_contra early
      have negative := elapsed_before t rx (by omega) (by omega)
      omega
    refine ⟨inv.busy,inv.moved,inv.unmoved,?_,inv.latest,inv.first,inv.standing⟩
    intro i heard
    simp only [Bool.or_eq_true,Bool.and_eq_true,decide_eq_true_eq,beq_iff_eq] at heard
    rcases heard with before | ⟨inside,is⟩
    · exact more i (inv.marked i before)
    · have from_ : s.HeardFrom src rx i := ⟨inside,is,t,at_,after⟩
      simp [bookHeard,from_]

-- An answer under a SET's number only adds to what has been answered.
theorem answered_more (s : PhyRun) (src : NodeId) (ack : NodeConfigAckV1) (seq : Seq) (time : Nat) (claimed : Bool) (i : Nat)
    (before : s.books.answered i = true) : (s.bookAck src ack seq time claimed).answered i = true := by
  simp [bookAck,before]

theorem ack_unclaimed {s : PhyRun} (inv : Inv s) (src : NodeId) (ack : NodeConfigAckV1) (seq : Seq) :
    Inv ⟨s.now,s.machine,s.bookAck src ack seq s.now false⟩ := by
  have more := answered_more s src ack seq s.now false
  refine ⟨inv.busy,inv.moved,inv.unmoved,inv.marked,?_,?_,?_⟩
  · simpa [Latest,bookAck] using inv.latest
  · intro acked
    have known : s.machine.haveFirstAck = true := acked
    simpa [bookAck,known] using inv.first known
  · have standing := inv.standing
    unfold Standing at standing ⊢
    cases phase : s.machine.phase <;> simp only [phase] at standing ⊢
    case idle => simpa [bookAck,Committed,Lost,Closed] using standing
    case setDue =>
      obtain ⟨open_,unmoved,inside,answered⟩ := standing
      exact ⟨open_,unmoved,inside,fun i below => more i (answered i below)⟩
    case awaitingSetAck =>
      obtain ⟨open_,unmoved,inside,answered,asked,sent,past,newest⟩ := standing
      exact ⟨open_,unmoved,inside,fun i below => more i (answered i below),asked,sent,past,by simpa [bookAck] using newest⟩
    case retuneDue => exact ⟨standing.1,standing.2.1,standing.2.2.1,fun i inside => more i (standing.2.2.2 i inside)⟩
    case awaitingRetune =>
      obtain ⟨open_,moved,fresh,acked,accepted⟩ := standing
      exact ⟨open_,moved,fresh,acked,fun i inside => more i (accepted i inside)⟩
    case hearing =>
      obtain ⟨open_,acked,accepted,mark⟩ := standing
      exact ⟨open_,acked,fun i inside => more i (accepted i inside),mark⟩
    case getDue | awaitingGet | confirmed => exact standing
    case abandonDue | cooldown =>
      refine ⟨standing.1,standing.2.1,?_⟩
      simpa [bookAck] using standing.2.2

theorem bookAck_elsewhere (s : PhyRun) (src : NodeId) (ack : NodeConfigAckV1) (seq : Seq) (time : Nat) (claimed : Bool)
    (elsewhere : s.machine.phase ≠ .awaitingSetAck) : s.bookAck src ack seq time claimed = s.bookAck src ack seq time false := by
  simp [bookAck,elsewhere]

-- A GET's answer moves the phase only.
theorem ack_confirms {s : PhyRun} (inv : Inv s) (src : NodeId) (ack : NodeConfigAckV1) (seq : Seq) (claimed : Bool)
    (phase : s.machine.phase = .awaitingGet ∨ s.machine.phase = .getDue) (asked : s.machine.getAttempts ≠ 0) (entries : List ConfigAckEntry) :
    Inv ⟨s.now,{s.machine with confirm := entries,phase := .confirmed},s.bookAck src ack seq s.now claimed⟩ := by
  have elsewhere : s.machine.phase ≠ .awaitingSetAck := by rcases phase with is | is <;> rw [is] <;> decide
  have active : s.machine.phase ≠ .idle := by rcases phase with is | is <;> rw [is] <;> decide
  rw [bookAck_elsewhere s src ack seq s.now claimed elsewhere]
  refine (ack_unclaimed inv src ack seq).carry ⟨rfl,rfl,rfl,rfl,rfl,rfl,rfl,rfl,rfl,rfl,rfl,rfl⟩ active ?_
  have standing := inv.standing
  unfold Standing at standing
  rcases phase with is | is <;> simp only [is] at standing
  · exact standing
  · refine ⟨standing.1,standing.2.1,?_⟩
    rw [Nat.pos_iff_ne_zero]
    exact fun none_ => asked (standing.2.2 none_).2

-- The window the awaited node has opened is the newest on record.
theorem ack_latest (s : PhyRun) (src : NodeId) (ack : NodeConfigAckV1) (seq : Seq) (m : PhyChange) (inv : Inv s)
    (phase : s.machine.phase = .awaitingSetAck) (records : m.lastOpenMs = stamp s.now) :
    Latest ⟨s.now,m,s.bookAck src ack seq s.now true⟩ := by
  have standing := inv.standing
  unfold Standing at standing
  simp only [phase] at standing
  obtain ⟨-,-,-,-,-,-,past,newest⟩ := standing
  intro _
  have openings : (s.bookAck src ack seq s.now true).openings = s.now :: s.books.openings := by simp [bookAck,phase]
  refine ⟨s.now,?_,records,Nat.le_refl _,?_⟩
  · change s.now ∈ (s.bookAck src ack seq s.now true).openings
    rw [openings]
    exact List.mem_cons_self
  · intro t member
    change t ∈ (s.bookAck src ack seq s.now true).openings at member
    rw [openings] at member
    rcases List.mem_cons.mp member with rfl | prior
    · exact Nat.le_refl _
    · exact Nat.le_trans (newest t prior) past

theorem ack_refused {s : PhyRun} (inv : Inv s) (src : NodeId) (ack : NodeConfigAckV1) (seq : Seq) (phase : s.machine.phase = .awaitingSetAck)
    (refused : PhyChange.accepts s.machine.to_ ack = false) :
    Inv ⟨s.now,s.machine.onSetAck src ack (stamp s.now),s.bookAck src ack seq s.now true⟩ := by
  have standing := inv.standing
  unfold Standing at standing
  simp only [phase] at standing
  have machine : s.machine.onSetAck src ack (stamp s.now) =
      {s.machine with ackMs := Function.update s.machine.ackMs s.machine.index (stamp s.now),lastOpenMs := stamp s.now}.abandon .notAccepted src := by
    simp [PhyChange.onSetAck,refused]
  rw [machine]
  refine ⟨fun _ => inv.busy (by rw [phase]; decide),inv.moved,inv.unmoved,inv.marked,ack_latest s src ack seq _ inv phase rfl,?_,?_⟩
  · intro acked
    have known : s.machine.haveFirstAck = true := acked
    refine ⟨?_,by simp [bookAck,phase]⟩
    change s.machine.firstAckMs = _
    simpa [bookAck,known] using (inv.first known).1
  · exact ⟨standing.1.2.2.1,standing.1.lost,by simp [bookAck,phase]⟩

theorem ack_accepted {s : PhyRun} (inv : Inv s) (src : NodeId) (ack : NodeConfigAckV1) (seq : Seq) (phase : s.machine.phase = .awaitingSetAck)
    (is : src = s.machine.node s.machine.index) (under : seq = s.machine.seq) (whole : PhyChange.accepts s.machine.to_ ack = true) :
    Inv ⟨s.now,s.machine.onSetAck src ack (stamp s.now),s.bookAck src ack seq s.now true⟩ := by
  have standing := inv.standing
  unfold Standing at standing
  simp only [phase] at standing
  obtain ⟨open_,unmoved,inside,answered,asked,-,-,-⟩ := standing
  have this : s.Answers src ack seq s.machine.index := ⟨inside,is.symm,under ▸ asked,(accepts_whole _ _).mp whole⟩
  have upTo : ∀ i < s.machine.index + 1, (s.bookAck src ack seq s.now true).answered i = true := by
    intro i below
    by_cases last : i = s.machine.index
    · simp [bookAck,last,this]
    · exact answered_more s src ack seq s.now true i (answered i (by omega))
  have machine : s.machine.onSetAck src ack (stamp s.now) = {s.machine with
      ackMs := Function.update s.machine.ackMs s.machine.index (stamp s.now)
      lastOpenMs := stamp s.now
      haveFirstAck := true
      firstAckMs := if s.machine.haveFirstAck then s.machine.firstAckMs else stamp s.now
      index := s.machine.index + 1
      phase := if s.machine.index + 1 < s.machine.nfleet then .setDue else .retuneDue} := by
    simp [PhyChange.onSetAck,whole]
    rfl
  rw [machine]
  refine ⟨fun _ => inv.busy (by rw [phase]; decide),inv.moved,inv.unmoved,inv.marked,ack_latest s src ack seq _ inv phase rfl,?_,?_⟩
  · intro _
    refine ⟨?_,by simp [bookAck,phase]⟩
    cases acked : s.machine.haveFirstAck with
    | true => simpa [bookAck,acked] using (inv.first acked).1
    | false => simp [bookAck,acked]
  · by_cases more : s.machine.index + 1 < s.machine.nfleet
    · rw [if_pos more]
      exact ⟨open_,unmoved,more,upTo⟩
    · rw [if_neg more]
      refine ⟨open_,unmoved,rfl,?_⟩
      intro i below
      have bound : i < s.machine.nfleet := below
      exact upTo i (by omega)

theorem ack_inv {s : PhyRun} (inv : Inv s) (src : NodeId) (ack : NodeConfigAckV1) (seq : Seq) :
    Inv ⟨s.now,(s.machine.onConfigAck src ack seq (stamp s.now)).2,
      s.bookAck src ack seq s.now (s.machine.onConfigAck src ack seq (stamp s.now)).1⟩ := by
  unfold PhyChange.onConfigAck
  split
  · next phase =>
    split
    · exact ack_unclaimed inv src ack seq
    · next matched =>
      rw [not_or,not_not,not_not] at matched
      cases whole : PhyChange.accepts s.machine.to_ ack with
      | false => exact ack_refused inv src ack seq phase whole
      | true => exact ack_accepted inv src ack seq phase matched.1 matched.2 whole
  · next phase =>
    split
    · exact ack_unclaimed inv src ack seq
    · next matched =>
      rw [not_or,not_or] at matched
      exact ack_confirms inv src ack seq true (.inl phase) matched.2.1 _
  · next phase =>
    split
    · exact ack_unclaimed inv src ack seq
    · next matched =>
      rw [not_or,not_or] at matched
      exact ack_confirms inv src ack seq true (.inr phase) matched.2.1 _
  · exact ack_unclaimed inv src ack seq

theorem commitFailed_inv {s : PhyRun} (inv : Inv s) :
    Inv ⟨s.now,s.machine.commitFailed,{s.books with takenBack := s.books.takenBack + if s.machine.TakesBack then 1 else 0}⟩ := by
  by_cases takes : s.machine.TakesBack
  · have standing := inv.standing
    unfold Standing at standing
    simp only [takes.1] at standing
    obtain ⟨⟨commits,back,kept⟩,acked,-⟩ := standing
    rw [PhyChange.commitFailed,if_pos takes,if_pos takes]
    refine inv.carry ⟨rfl,rfl,rfl,rfl,rfl,rfl,rfl,rfl,rfl,rfl,rfl,rfl⟩ (by rw [takes.1]; decide) ?_
    refine ⟨kept,⟨?_,?_⟩,(inv.first acked).2⟩
    · change s.books.takenBack + 1 = s.books.commits
      omega
    · change s.books.commits ≤ 1
      omega
  · rw [PhyChange.commitFailed,if_neg takes,if_neg takes]
    exact inv

theorem ackTimeout_inv {s : PhyRun} (inv : Inv s) (ms : UInt32) : Inv {s with machine := s.machine.setAckTimeoutMs ms} :=
  ⟨inv.busy,inv.moved,inv.unmoved,inv.marked,inv.latest,inv.first,inv.standing⟩

theorem step_inv (s : PhyRun) (i : PhyInput) (inv : Inv s) (allowed : s.Allowed i) : Inv (s.step i) := by
  have moved := inv.later allowed.1
  obtain ⟨time,event⟩ := i
  cases event with
  | start from_ to_ fleet =>
      change Inv (if _ then _ else _)
      split
      · next taken => exact started_inv s from_ to_ fleet time taken
      · exact moved
  | next => exact told_inv moved
  | sent seq => exact sent_inv moved seq
  | aired left => exact aired_inv moved left allowed.2.1 allowed.2.2
  | retuned => exact retuned_inv moved
  | heard src rx => exact heard_inv moved src rx allowed.2.2
  | configAck src ack seq => exact ack_inv moved src ack seq
  | commitFailed => exact commitFailed_inv moved
  | ackTimeout ms => exact ackTimeout_inv moved ms

theorem reached_inv {s : PhyRun} (path : Reached step Allowed {} s) : Inv s := path.invariant Inv Inv.begin step_inv

theorem inv_rests {s : PhyRun} (inv : Inv s) : s.machine.phase ≠ .commitDue := by
  intro phase
  have standing := inv.standing
  unfold Standing at standing
  simp only [phase] at standing

theorem commit_evidence {s : PhyRun} (inv : Inv s) (nowMs : UInt32) (told : (s.machine.next nowMs).1.action = .commit) :
    s.Accepted ∧ s.AllHeard := by
  obtain ⟨phase,all⟩ := (PhyChange.next_telling nowMs (inv_rests inv)).1 told
  have standing := inv.standing
  unfold Standing at standing
  simp only [phase] at standing
  exact ⟨standing.2.2.1,fun i inside => inv.marked i (PhyChange.unheard_none all i inside)⟩

theorem get_after_commit {s : PhyRun} (inv : Inv s) (nowMs : UInt32) (told : (s.machine.next nowMs).1.action = .sendGet) :
    0 < s.books.commits := by
  have standing := inv.standing
  unfold Standing at standing
  rcases (PhyChange.next_telling nowMs (inv_rests inv)).2.1 told with phase | phase <;> simp only [phase] at standing
  all_goals
    have committed := standing.1.1
    omega

theorem Undecided.none_ {b : PhyBooks} (open_ : Undecided b) : outcomes b = 0 := by
  obtain ⟨commits,-,kept,-⟩ := open_
  rw [outcomes,commits,kept,Nat.zero_sub]

theorem Committed.one {b : PhyBooks} (done : Committed b) : outcomes b = 1 := by
  obtain ⟨commits,back,kept⟩ := done
  rw [outcomes,commits,back,kept]

theorem Lost.abandons {b : PhyBooks} (lost : Lost b) : outcomes b = b.abandons := by
  rw [outcomes,lost.1,Nat.sub_self,Nat.zero_add]

theorem outcomes_le_one {s : PhyRun} (inv : Inv s) : outcomes s.books ≤ 1 := by
  have standing := inv.standing
  unfold Standing at standing
  cases phase : s.machine.phase <;> simp only [phase] at standing
  case idle =>
    rcases standing with ⟨-,kept,commits⟩ | ⟨done,-⟩ | ⟨left,lost,-⟩
    · simp [outcomes,kept,commits]
    · rw [done.one]
    · rw [lost.abandons,left]
  case setDue | awaitingSetAck | retuneDue | awaitingRetune | hearing =>
    rw [standing.1.none_]
    exact Nat.zero_le 1
  case getDue | awaitingGet | confirmed => rw [standing.1.one]
  case abandonDue | cooldown =>
    have sum := standing.2.1.abandons
    have count := standing.1
    omega

-- A change the machine is done with has had its one outcome.
theorem outcomes_idle {s : PhyRun} (inv : Inv s) (begun : s.books.begun = true) (phase : s.machine.phase = .idle) : outcomes s.books = 1 := by
  have standing := inv.standing
  unfold Standing at standing
  simp only [phase] at standing
  rcases standing with ⟨fresh,-⟩ | ⟨done,-⟩ | ⟨left,lost,-⟩
  · rw [begun] at fresh
    cases fresh
  · exact done.one
  · rw [lost.abandons,left]

-- The report of a failed write is never lost: it finds the machine before its first GET.
theorem commit_reversible {s : PhyRun} (inv : Inv s) (commits : 0 < s.books.commits) (back : s.books.takenBack = 0) (unasked : s.books.gets = 0) :
    s.machine.TakesBack := by
  have standing := inv.standing
  unfold Standing at standing
  cases phase : s.machine.phase <;> simp only [phase] at standing
  case idle =>
    rcases standing with ⟨-,-,none_⟩ | ⟨-,asked⟩ | ⟨-,lost,-⟩
    · omega
    · omega
    · have equal := lost.1
      omega
  case setDue | awaitingSetAck | retuneDue | awaitingRetune | hearing =>
    have none_ := standing.1.1
    omega
  case getDue => exact ⟨phase,standing.2.2 unasked⟩
  case awaitingGet | confirmed =>
    have asked := standing.2.2
    omega
  case abandonDue | cooldown =>
    have equal := standing.2.1.1
    omega

theorem outcomes_told {s : PhyRun} (inv : Inv s) (decided : outcomes s.books = 1) : outcomes s.told.books = 1 := by
  have most := outcomes_le_one (told_inv inv)
  have grows : outcomes s.books ≤ outcomes s.told.books := by
    simp only [outcomes,told,bookStep]
    omega
  omega

theorem outcomes_acts (s : PhyRun) (step : PhyStep) (open_ : s.books.takenBack ≤ s.books.commits)
    (acts : step.action = .abandon ∨ step.action = .commit) : outcomes (s.bookStep step) = outcomes s.books + 1 := by
  rcases acts with is | is <;> simp only [outcomes,bookStep,tally,is,reduceCtorEq,if_true,if_false] <;> omega

-- The timer the phase waits on has run, and the counter has not gone half a turn since it was set.
def TimerRun (s : PhyRun) (time : Nat) : Prop :=
  if s.machine.phase = .awaitingSetAck then s.books.sentAt + s.machine.ackTimeoutMs.toNat ≤ time ∧ time < s.books.sentAt + 2 ^ 31
  else s.books.firstAckAt + s.machine.trialMs.toNat ≤ time ∧ time < s.books.firstAckAt + 2 ^ 31

theorem deadline_run {s : PhyRun} (inv : Inv s) (acked : s.machine.haveFirstAck = true) (elsewhere : s.machine.phase ≠ .awaitingSetAck)
    (run : s.TimerRun s.now) : s.machine.deadlinePassed (stamp s.now) = true := by
  rw [TimerRun,if_neg elsewhere] at run
  rw [PhyChange.deadlinePassed,acked,Bool.true_and,decide_eq_true_eq,(inv.first acked).1,
    elapsed_near s.books.firstAckAt s.now (by omega) run.2]
  have budget : (0 : Int) ≤ (s.machine.nfleet : Int) * (s.machine.ackTimeoutMs.toNat : Int) :=
    Int.mul_nonneg (Int.natCast_nonneg _) (Int.natCast_nonneg _)
  omega

-- One call after its timer decides a change, unless its Retune is still to be told.
theorem told_decides {s : PhyRun} (inv : Inv s) (begun : s.books.begun = true) (open_ : outcomes s.books = 0)
    (queued : ¬ (s.machine.phase = .setDue ∧ s.machine.haveFirstAck = false)) (moved : s.machine.phase ≠ .retuneDue)
    (run : s.TimerRun s.now) : outcomes s.told.books = 1 := by
  have standing := inv.standing
  unfold Standing at standing
  have acts : (s.machine.next (stamp s.now)).1.action = .abandon ∨ (s.machine.next (stamp s.now)).1.action = .commit →
      s.books.takenBack ≤ s.books.commits → outcomes s.told.books = 1 := by
    intro acts small
    rw [told,outcomes_acts s _ small acts,open_]
  cases phase : s.machine.phase <;> simp only [phase] at standing
  case idle =>
    rw [outcomes_idle inv begun phase] at open_
    cases open_
  case setDue =>
    refine acts (.inl ?_) (by rw [standing.1.2.1]; exact Nat.zero_le _)
    cases acked : s.machine.haveFirstAck with
    | false => exact absurd ⟨phase,acked⟩ queued
    | true => rw [PhyChange.next_setDue _ phase,if_pos (deadline_run inv acked (by rw [phase]; decide) run)]; rfl
  case awaitingSetAck =>
    obtain ⟨undecided,-,-,-,-,sent,past,-⟩ := standing
    refine acts (.inl ?_) (by rw [undecided.2.1]; exact Nat.zero_le _)
    rw [TimerRun,if_pos phase] at run
    have late : (s.machine.ackTimeoutMs.toNat : Int) ≤ elapsed (stamp s.now) s.machine.sentMs := by
      rw [sent,elapsed_near s.books.sentAt s.now past run.2]
      omega
    rw [PhyChange.next_awaitingSetAck _ phase,if_pos late]
    rfl
  case retuneDue => exact absurd phase moved
  case awaitingRetune =>
    refine acts (.inl ?_) (by rw [standing.1.2.1]; exact Nat.zero_le _)
    rw [PhyChange.next_awaitingRetune _ phase,if_pos (deadline_run inv standing.2.2.2.1 (by rw [phase]; decide) run)]
    rfl
  case hearing =>
    refine acts ?_ (by rw [standing.1.2.1]; exact Nat.zero_le _)
    cases waits : s.machine.unheard with
    | none => exact .inr (by rw [PhyChange.next_hearing_all _ phase waits]; rfl)
    | some i =>
        refine .inl ?_
        rw [PhyChange.next_hearing_some _ phase waits,if_pos (deadline_run inv standing.2.1 (by rw [phase]; decide) run)]
        rfl
  case getDue | awaitingGet | confirmed =>
    rw [standing.1.one] at open_
    cases open_
  case abandonDue => exact acts (.inl (by rw [PhyChange.next_abandonDue _ phase]; rfl)) (by rw [standing.2.1.1])
  case cooldown =>
    rw [standing.2.1.abandons,standing.1] at open_
    cases open_

-- Two calls of `next` after the timer, the first of which may still be the Retune.
theorem told_twice_decides {s : PhyRun} (inv : Inv s) (begun : s.books.begun = true) (open_ : outcomes s.books = 0)
    (queued : ¬ (s.machine.phase = .setDue ∧ s.machine.haveFirstAck = false)) (run : s.TimerRun s.now) :
    outcomes s.told.told.books = 1 := by
  by_cases phase : s.machine.phase = .retuneDue
  · have answer := told_eq (PhyChange.next_retuneDue (stamp s.now) phase)
    have inv' := told_inv inv
    have run' : s.told.TimerRun s.told.now := by
      rw [TimerRun,if_neg (by rw [phase]; decide)] at run
      rw [answer,TimerRun,if_neg (by simp)]
      exact run
    have elsewhere : s.told.machine.phase = .awaitingRetune := by rw [answer]
    refine told_decides inv' ?_ ?_ (by rw [elsewhere]; simp) (by rw [elsewhere]; decide) run'
    · rw [answer]
      exact begun
    · rw [answer]
      simpa [outcomes,bookStep,tally] using open_
  · exact outcomes_told (told_inv inv) (told_decides inv begun open_ queued phase run)

theorem trialMs_exact {m : PhyChange} (fits : (m.to_ phyTrialS).toInt * 1000 < 2 ^ 32) :
    (m.to_ phyTrialS).toInt * 1000 ≤ (m.trialMs.toNat : Int) := by
  rw [PhyChange.trialMs,UInt32.toNat_mul]
  generalize m.to_ phyTrialS = v at fits ⊢
  have signed : v.toInt = if 2 * v.toUInt32.toNat < 2 ^ 32 then (v.toUInt32.toNat : Int) else (v.toUInt32.toNat : Int) - 2 ^ 32 := by
    rw [Int32.toInt,BitVec.toInt_eq_toNat_cond]
    rfl
  have top := v.toUInt32.toNat_lt
  change v.toInt * 1000 ≤ ((v.toUInt32.toNat * 1000 % 2 ^ 32 : Nat) : Int)
  split at signed <;> omega

-- The machine is free again only once the trial window of every opening on record has passed.
theorem start_after_windows {s : PhyRun} (inv : Inv s) (from_ to_ : PhyGroup) (fleet : List NodeId) (nowMs : UInt32)
    (taken : (s.machine.start from_ to_ fleet nowMs).1 = true) (left : 0 < s.books.abandons) : s.books.openings ≠ [] ∧ s.Closed := by
  have phase : s.machine.phase = .idle := by
    unfold PhyChange.start at taken
    split at taken
    · cases taken
    · next fits => exact not_not.mp fun busy => fits (.inl busy)
  have standing := inv.standing
  unfold Standing at standing
  simp only [phase] at standing
  rcases standing with ⟨-,kept,-⟩ | ⟨⟨-,-,kept⟩,-⟩ | ⟨-,-,opened,closed⟩
  · omega
  · omega
  · exact ⟨opened,closed⟩

end PhyRun

open PhyRun

theorem phy_change_commits_on_full_evidence (s : PhyRun) (path : Reached step Allowed {} s) (time : Nat) (later : s.now ≤ time) :
    ((s.machine.next (stamp time)).1.action = .commit → s.Accepted ∧ s.AllHeard) ∧
    ((s.machine.next (stamp time)).1.action = .sendGet → 0 < s.books.commits) ∧
    ((s.machine.next (stamp time)).1.action = .abandon → ((s.machine.next (stamp time)).1.retuned = true ↔ 0 < s.books.retunes)) ∧
    outcomes s.books ≤ 1 ∧
    (s.books.begun = true → s.machine.phase = .idle → outcomes s.books = 1) ∧
    (s.books.begun = true → outcomes s.books = 0 → ¬ (s.machine.phase = .setDue ∧ s.machine.haveFirstAck = false) → s.TimerRun time →
      outcomes ((s.step ⟨time,.next⟩).step ⟨time,.next⟩).books = 1) ∧
    (0 < s.books.commits → s.books.takenBack = 0 → s.books.gets = 0 → s.machine.TakesBack) ∧
    (∀ from_ to_ fleet, (s.machine.start from_ to_ fleet (stamp time)).1 = true → 0 < s.books.abandons →
      s.books.openings ≠ [] ∧ ((s.machine.to_ phyTrialS).toInt * 1000 < 2 ^ 32 →
        ∀ t ∈ s.books.openings, (t : Int) + (s.machine.to_ phyTrialS).toInt * 1000 ≤ (time : Int))) := by
  have inv := reached_inv path
  have moved := inv.later later
  refine ⟨commit_evidence inv _,get_after_commit inv _,?_,outcomes_le_one inv,outcomes_idle inv,?_,commit_reversible inv,?_⟩
  · intro told
    rw [(PhyChange.next_telling (stamp time) (inv_rests inv)).2.2 told,inv.moved]
    exact decide_eq_true_iff
  · intro begun open_ queued run
    have twice : (s.step ⟨time,.next⟩).step ⟨time,.next⟩ = (told {s with now := time}).told := rfl
    rw [twice]
    exact told_twice_decides moved begun open_ queued run
  · intro from_ to_ fleet taken left
    obtain ⟨opened,closed⟩ := start_after_windows inv from_ to_ fleet (stamp time) taken left
    refine ⟨opened,?_⟩
    intro fits t member
    have window := closed t member
    have exact_ := trialMs_exact fits
    omega

-- A change of one node that is answered in full, retuned and heard, at the moment before its Commit.
def heardChange : List PhyInput :=
  let to_ : PhyGroup := fun k => [917000000,9,125,5,-4,120].getD k 0
  let ack : NodeConfigAckV1 := {op := configOpSet,entries :=
    [{paramId := 0x0110,ptype := ptypeU32,len := 4,value := packValue 4 917000000},{paramId := 0x0111,len := 1,value := packValue 1 9},
      {paramId := 0x0112,ptype := ptypeU16,len := 2,value := packValue 2 125},{paramId := 0x0113,len := 1,value := packValue 1 5},
      {paramId := 0x0114,ptype := ptypeI16,len := 2,value := packValue 2 0xFFFC},
      {paramId := 0x0115,ptype := ptypeU16,len := 2,value := packValue 2 120}]}
  [⟨1000,.start (fun _ => 0) to_ [1]⟩,⟨1000,.next⟩,⟨1000,.sent 7⟩,⟨1200,.aired 1100⟩,⟨1500,.configAck 1 ack 7⟩,⟨1600,.next⟩,
    ⟨1700,.retuned⟩,⟨1800,.heard 1 1750⟩]

theorem phy_change_commits_heard_change :
    ((heardChange.foldl PhyRun.step {}).machine.next (stamp 1900)).1.action = .commit ∧ (heardChange.foldl PhyRun.step {}).Accepted ∧
      (heardChange.foldl PhyRun.step {}).AllHeard := by
  have run : Follows PhyRun.step Allowed {} heardChange := by decide +kernel
  have commits : ((heardChange.foldl PhyRun.step {}).machine.next (stamp 1900)).1.action = .commit := by decide +kernel
  exact ⟨commits,(phy_change_commits_on_full_evidence _ run.reached 1900 (by decide +kernel)).1 commits⟩

end LoraRan.Bridge
