import Mathlib.Logic.Function.Basic
import LoraRan.Bridge.Registry
import LoraRan.Library.Occurrence

namespace LoraRan.Bridge.NodeAvailability
open Protocol Library.Occurrence

-- The registry with the count the poll scheduler keeps in each node's row.
structure PolledRegistry where
  registry : Registry := {}
  missedPolls : NodeId → UInt16 := fun _ => 0

def PolledRegistry.observe (r : PolledRegistry) (hdr : Header) (nowMs : UInt32) : Observed × PolledRegistry :=
  let (observed,registry) := r.registry.observe hdr nowMs
  if registered hdr.src then (observed,{registry := registry,missedPolls := Function.update r.missedPolls hdr.src 0}) else (observed,r)

def PolledRegistry.notePollMissed (r : PolledRegistry) (id : NodeId) : Bool × PolledRegistry :=
  if !registered id then (false,r)
  else
    let m := r.missedPolls id
    (true,{r with missedPolls := Function.update r.missedPolls id (if m < 65535 then m + 1 else m)})

inductive Availability where
  | unknown | online | offline
  deriving DecidableEq, Repr

structure AvailabilityChange where
  changed : Bool := false
  before : Availability := .unknown
  after : Availability := .unknown

structure Row where
  state : Availability := .unknown
  watched : Bool := false
  pending : Bool := false
  seenAny : Bool := false
  framesAt : UInt32 := 0

def missedPollThresholdDefault : UInt16 := 3

structure AvailabilityWatchdog where
  threshold : UInt16 := missedPollThresholdDefault
  rows : Nat → Row := fun _ => {}

def AvailabilityWatchdog.setThreshold (w : AvailabilityWatchdog) (polls : UInt16) : AvailabilityWatchdog :=
  {w with threshold := if polls = 0 then 1 else polls}

-- A frame since the last tick, by the count of frames: a frame followed by a miss would not show in the polls.
def Row.hasFrame (r : Row) (s : NodeState) : Bool := s.heard && (!r.seenAny || decide (s.framesHeard ≠ r.framesAt))

def Row.sample (r : Row) (deployed : Bool) (s : NodeState) : Row :=
  let seen := if s.heard then {r with seenAny := true,framesAt := s.framesHeard} else r
  {seen with watched := r.watched || deployed || s.heard}

-- The polls are looked at after the frame: observing one cleared the count.
def Row.next (r : Row) (threshold : UInt16) (s : NodeState) (missedPolls : UInt16) : Availability :=
  let next := if r.hasFrame s then .online else r.state
  if threshold ≤ missedPolls then .offline else next

def Row.judge (r : Row) (threshold : UInt16) (deployed : Bool) (s : NodeState) (missedPolls : UInt16) : AvailabilityChange × Row :=
  let next := r.next threshold s missedPolls
  let sampled := r.sample deployed s
  if next ≠ r.state then ({changed := true,before := r.state,after := next},{sampled with state := next,pending := true})
  else ({},sampled)

def AvailabilityWatchdog.evaluate (w : AvailabilityWatchdog) (i : Nat) (deployed : Bool) (s : NodeState) (missedPolls : UInt16) :
    AvailabilityChange × AvailabilityWatchdog :=
  if nodeTable.length ≤ i then ({},w)
  else
    let (change,row) := (w.rows i).judge w.threshold deployed s missedPolls
    (change,{w with rows := Function.update w.rows i row})

def AvailabilityWatchdog.clearPending (w : AvailabilityWatchdog) (i : Nat) : AvailabilityWatchdog :=
  if i < nodeTable.length then {w with rows := Function.update w.rows i {w.rows i with pending := false}} else w

def AvailabilityWatchdog.markKnownPending (w : AvailabilityWatchdog) : AvailabilityWatchdog :=
  {w with rows := fun i => if i < nodeTable.length ∧ (w.rows i).state ≠ .unknown then {w.rows i with pending := true} else w.rows i}

inductive Event where
  | frame (hdr : Header) (nowMs : UInt32)
  | missed (id : NodeId)
  | setThreshold (polls : UInt16)
  | evaluate (i : Nat) (deployed : Bool)
  | queued (i : Nat)
  | markKnownPending

structure Sched where
  registry : PolledRegistry := {}
  watchdog : AvailabilityWatchdog := {}

-- A row is judged from a copy of its node's registry state, taken at that tick.
def Sched.step (s : Sched) : Event → Sched
  | .frame hdr nowMs => {s with registry := (s.registry.observe hdr nowMs).2}
  | .missed id => {s with registry := (s.registry.notePollMissed id).2}
  | .setThreshold polls => {s with watchdog := s.watchdog.setThreshold polls}
  | .evaluate i deployed =>
      let id := nodeTable.getD i 0
      {s with watchdog := (s.watchdog.evaluate i deployed (s.registry.registry.state id) (s.registry.missedPolls id)).2}
  | .queued i => {s with watchdog := s.watchdog.clearPending i}
  | .markKnownPending => {s with watchdog := s.watchdog.markKnownPending}

def run (events : List Event) : Sched := events.foldl Sched.step {}

def rowAt (i : Fin nodeTable.length) (events : List Event) : Row := (run events).watchdog.rows i

def stateAt (i : Fin nodeTable.length) (events : List Event) : Availability := (rowAt i events).state

def thresholdAt (events : List Event) : Nat := (run events).watchdog.threshold.toNat

-- What was really heard of a row's node and missed from it, counted without a limit.
structure Evidence where
  frames : Nat := 0
  judged : Nat := 0
  missed : Nat := 0
  streak : Nat := 0

-- Frames and misses since the row was last judged; the streak is of misses since the last frame.
def Evidence.fresh (e : Evidence) : Nat := e.frames - e.judged

def Evidence.see (i : Fin nodeTable.length) (e : Evidence) : Event → Evidence
  | .frame hdr _ => if hdr.src = nodeTable.get i then {e with frames := e.frames + 1,streak := 0} else e
  | .missed id => if id = nodeTable.get i then {e with missed := e.missed + 1,streak := e.streak + 1} else e
  | .evaluate j _ => if j = i then {e with judged := e.frames,missed := 0} else e
  | .setThreshold _ | .queued _ | .markKnownPending => e

def evidence (i : Fin nodeTable.length) (events : List Event) : Evidence := events.foldl (Evidence.see i) {}

structure Tracks (i : Fin nodeTable.length) (s : Sched) (e : Evidence) : Prop where
  order : e.judged ≤ e.frames
  missed : (s.registry.missedPolls (nodeTable.get i)).toNat = min e.streak 65535
  heard : (s.registry.registry.state (nodeTable.get i)).heard = decide (0 < e.frames)
  count : (s.registry.registry.state (nodeTable.get i)).framesHeard.toNat = e.frames % 2 ^ 32
  seen : (s.watchdog.rows i).seenAny = decide (0 < e.judged)
  sampled : 0 < e.judged → (s.watchdog.rows i).framesAt.toNat = e.judged % 2 ^ 32
  unknown : (s.watchdog.rows i).state = .unknown → e.judged = 0

-- A frame shows unless exactly a whole number of turns of the counter came since the row was first judged with one.
def Evidence.shows (e : Evidence) : Prop := 0 < e.fresh ∧ (e.judged = 0 ∨ e.fresh % 2 ^ 32 ≠ 0)

instance (e : Evidence) : Decidable e.shows := inferInstanceAs (Decidable (_ ∧ _))

def verdict (e : Evidence) (threshold : Nat) (before : Availability) : Availability :=
  if threshold ≤ e.streak then .offline else if e.shows then .online else before

theorem observe_other (r : Registry) (hdr : Header) (nowMs : UInt32) (id : NodeId) (other : hdr.src ≠ id) :
    (r.observe hdr nowMs).2.state id = r.state id := by
  unfold Registry.observe
  split
  · rfl
  · dsimp only
    split
    · exact Function.update_of_ne (Ne.symm other) _ _
    · exact Function.update_of_ne (Ne.symm other) _ _

theorem observe_heard (r : Registry) (hdr : Header) (nowMs : UInt32) (known : registered hdr.src = true) :
    ((r.observe hdr nowMs).2.state hdr.src).heard = true ∧
      ((r.observe hdr nowMs).2.state hdr.src).framesHeard = (r.state hdr.src).framesHeard + 1 := by
  unfold Registry.observe
  rw [known]
  simp only [Bool.not_true,Bool.false_eq_true,if_false]
  split
  · simp [NodeState.hear]
  · simp [NodeState.hear]

theorem row_registered (i : Fin nodeTable.length) : registered (nodeTable.get i) = true := by
  rw [registered,List.contains_iff_mem]
  exact List.get_mem nodeTable i

theorem rows_not_length (i : Fin nodeTable.length) : ¬ nodeTable.length ≤ i.val := Nat.not_le.mpr i.isLt

theorem hasFrame_shows (i : Fin nodeTable.length) (s : Sched) (e : Evidence) (tracks : Tracks i s e) :
    (s.watchdog.rows i).hasFrame (s.registry.registry.state (nodeTable.get i)) = true ↔ e.shows := by
  have order := tracks.order
  have count := tracks.count
  simp only [Row.hasFrame,tracks.heard,tracks.seen,Evidence.shows,Evidence.fresh,Bool.and_eq_true,Bool.or_eq_true,Bool.not_eq_true',
    decide_eq_true_eq,decide_eq_false_iff_not]
  by_cases judged : 0 < e.judged
  · have sampled := tracks.sampled judged
    rw [ne_eq,← UInt32.toNat_inj,count,sampled]
    omega
  · omega

-- What the code decides, by the counts it samples, is what the evidence says.
theorem next_verdict (i : Fin nodeTable.length) (s : Sched) (e : Evidence) (tracks : Tracks i s e) :
    (s.watchdog.rows i).next s.watchdog.threshold (s.registry.registry.state (nodeTable.get i)) (s.registry.missedPolls (nodeTable.get i)) =
      verdict e s.watchdog.threshold.toNat (s.watchdog.rows i).state := by
  have shown := hasFrame_shows i s e tracks
  have bound := s.watchdog.threshold.toNat_lt
  have reached : s.watchdog.threshold ≤ s.registry.missedPolls (nodeTable.get i) ↔ s.watchdog.threshold.toNat ≤ e.streak := by
    rw [UInt16.le_iff_toNat_le,tracks.missed]
    omega
  simp only [Row.next,verdict,reached,shown]

theorem judge_next (r : Row) (threshold : UInt16) (deployed : Bool) (s : NodeState) (missedPolls : UInt16) :
    (r.judge threshold deployed s missedPolls).2.state = r.next threshold s missedPolls ∧
      (r.judge threshold deployed s missedPolls).2.seenAny = (s.heard || r.seenAny) ∧
      (r.judge threshold deployed s missedPolls).2.framesAt = (if s.heard then s.framesHeard else r.framesAt) := by
  unfold Row.judge
  cases heard : s.heard with
  | true =>
      dsimp only
      split
      · simp [Row.sample,heard]
      case isFalse same => simp [Row.sample,heard,of_not_not same]
  | false =>
      dsimp only
      split
      · simp [Row.sample,heard]
      case isFalse same => simp [Row.sample,heard,of_not_not same]

theorem evaluate_rows (w : AvailabilityWatchdog) (i : Fin nodeTable.length) (deployed : Bool) (s : NodeState) (missedPolls : UInt16) :
    (w.evaluate i deployed s missedPolls).2.rows i = ((w.rows i).judge w.threshold deployed s missedPolls).2 := by
  rw [AvailabilityWatchdog.evaluate,if_neg (rows_not_length i)]
  exact Function.update_self _ _ _

theorem evaluate_other (w : AvailabilityWatchdog) (i j : Nat) (deployed : Bool) (s : NodeState) (missedPolls : UInt16) (other : j ≠ i) :
    (w.evaluate j deployed s missedPolls).2.rows i = w.rows i := by
  unfold AvailabilityWatchdog.evaluate
  split
  · rfl
  · exact Function.update_of_ne (Ne.symm other) _ _

-- Queueing a publication and marking one owed touch nothing but what is pending.
theorem clearPending_row (w : AvailabilityWatchdog) (i j : Nat) :
    (w.clearPending j).rows i = {w.rows i with pending := (w.rows i).pending && !decide (j = i ∧ j < nodeTable.length)} := by
  unfold AvailabilityWatchdog.clearPending
  by_cases inside : j < nodeTable.length
  · rw [if_pos inside]
    by_cases same : j = i
    · subst same
      simp [inside]
    · simp [Function.update_of_ne (Ne.symm same),same]
  · simp [inside]

theorem markKnownPending_row (w : AvailabilityWatchdog) (i : Nat) :
    (w.markKnownPending.rows i) =
      {w.rows i with pending := (w.rows i).pending || decide (i < nodeTable.length ∧ (w.rows i).state ≠ .unknown)} := by
  by_cases known : i < nodeTable.length ∧ (w.rows i).state ≠ .unknown
  · simp [AvailabilityWatchdog.markKnownPending,known]
  · simp only [AvailabilityWatchdog.markKnownPending,if_neg known,decide_eq_false known,Bool.or_false]

theorem tracks_frame (i : Fin nodeTable.length) (s : Sched) (e : Evidence) (hdr : Header) (nowMs : UInt32) (tracks : Tracks i s e) :
    Tracks i (s.step (.frame hdr nowMs)) (e.see i (.frame hdr nowMs)) := by
  by_cases mine : hdr.src = nodeTable.get i
  · have known : registered hdr.src = true := mine ▸ row_registered i
    have heard := observe_heard s.registry.registry hdr nowMs known
    rw [mine] at heard known
    have order := tracks.order
    have counted := tracks.count
    simp only [Sched.step,PolledRegistry.observe,Evidence.see,mine,known,if_true]
    refine ⟨?_,?_,?_,?_,tracks.seen,tracks.sampled,tracks.unknown⟩
    · simp only
      omega
    · simp
    · rw [heard.1]
      simp
    · rw [heard.2,UInt32.toNat_add,counted,show (1 : UInt32).toNat = 1 by rfl]
      simp only
      omega
  · have unchanged : (s.registry.observe hdr nowMs).2.missedPolls (nodeTable.get i) = s.registry.missedPolls (nodeTable.get i) ∧
        (s.registry.observe hdr nowMs).2.registry.state (nodeTable.get i) = s.registry.registry.state (nodeTable.get i) := by
      unfold PolledRegistry.observe
      dsimp only
      split
      · exact ⟨Function.update_of_ne (Ne.symm mine) _ _,observe_other _ _ _ _ mine⟩
      · exact ⟨rfl,rfl⟩
    simp only [Sched.step,Evidence.see,if_neg mine]
    refine ⟨tracks.order,?_,?_,?_,tracks.seen,tracks.sampled,tracks.unknown⟩
    · rw [unchanged.1]
      exact tracks.missed
    · rw [unchanged.2]
      exact tracks.heard
    · rw [unchanged.2]
      exact tracks.count

theorem tracks_missed (i : Fin nodeTable.length) (s : Sched) (e : Evidence) (id : NodeId) (tracks : Tracks i s e) :
    Tracks i (s.step (.missed id)) (e.see i (.missed id)) := by
  have counted := tracks.missed
  by_cases mine : id = nodeTable.get i
  · subst mine
    simp only [Sched.step,PolledRegistry.notePollMissed,row_registered i,Evidence.see,if_true,Bool.not_true,Bool.false_eq_true,if_false]
    refine ⟨tracks.order,?_,tracks.heard,tracks.count,tracks.seen,tracks.sampled,tracks.unknown⟩
    dsimp only
    rw [Function.update_self]
    split
    case isTrue short =>
      have held := UInt16.lt_iff_toNat_lt.mp short
      rw [UInt16.toNat_add,counted,show (1 : UInt16).toNat = 1 by rfl]
      rw [counted,show (65535 : UInt16).toNat = 65535 by rfl] at held
      omega
    case isFalse full =>
      rw [UInt16.lt_iff_toNat_lt,counted,show (65535 : UInt16).toNat = 65535 by rfl] at full
      rw [counted]
      omega
  · have unchanged : (s.registry.notePollMissed id).2.missedPolls (nodeTable.get i) = s.registry.missedPolls (nodeTable.get i) ∧
        (s.registry.notePollMissed id).2.registry = s.registry.registry := by
      unfold PolledRegistry.notePollMissed
      dsimp only
      split
      · exact ⟨rfl,rfl⟩
      · exact ⟨Function.update_of_ne (Ne.symm mine) _ _,rfl⟩
    simp only [Sched.step,Evidence.see,if_neg mine]
    refine ⟨tracks.order,?_,?_,?_,tracks.seen,tracks.sampled,tracks.unknown⟩
    · rw [unchanged.1]
      exact counted
    · rw [unchanged.2]
      exact tracks.heard
    · rw [unchanged.2]
      exact tracks.count

theorem tracks_evaluate (i : Fin nodeTable.length) (s : Sched) (e : Evidence) (j : Nat) (deployed : Bool) (tracks : Tracks i s e) :
    Tracks i (s.step (.evaluate j deployed)) (e.see i (.evaluate j deployed)) := by
  by_cases mine : j = i
  · subst mine
    have place : nodeTable.getD i 0 = nodeTable.get i := List.getD_eq_getElem nodeTable 0 i.isLt
    have next := next_verdict i s e tracks
    have order := tracks.order
    have heard := tracks.heard
    have shown := hasFrame_shows i s e tracks
    simp only [Sched.step,Evidence.see,if_true,place]
    obtain ⟨state,seen,at_⟩ := judge_next (s.watchdog.rows i) s.watchdog.threshold deployed
      (s.registry.registry.state (nodeTable.get i)) (s.registry.missedPolls (nodeTable.get i))
    refine ⟨Nat.le_refl _,tracks.missed,heard,tracks.count,?_,?_,?_⟩
    · rw [evaluate_rows,seen,heard,tracks.seen]
      by_cases some_ : 0 < e.frames
      · simp [some_]
      · simp [some_,show ¬ 0 < e.judged by omega]
    · intro some_
      rw [evaluate_rows,at_,heard,if_pos (decide_eq_true some_)]
      exact tracks.count
    · rw [evaluate_rows,state,next]
      intro still
      unfold verdict at still
      split at still
      · cases still
      · split at still
        · cases still
        case isFalse hidden =>
          have none_ := tracks.unknown still
          simp only [Evidence.shows,Evidence.fresh] at hidden
          simp only
          omega
  · simp only [Sched.step,Evidence.see,if_neg mine]
    have unchanged := evaluate_other s.watchdog i j deployed (s.registry.registry.state (nodeTable.getD j 0))
      (s.registry.missedPolls (nodeTable.getD j 0)) mine
    refine ⟨tracks.order,tracks.missed,tracks.heard,tracks.count,?_,?_,?_⟩
    · rw [unchanged]
      exact tracks.seen
    · rw [unchanged]
      exact tracks.sampled
    · rw [unchanged]
      exact tracks.unknown

theorem tracks_step (i : Fin nodeTable.length) (s : Sched) (e : Evidence) (event : Event) (tracks : Tracks i s e) :
    Tracks i (s.step event) (e.see i event) := by
  cases event with
  | frame hdr nowMs => exact tracks_frame i s e hdr nowMs tracks
  | missed id => exact tracks_missed i s e id tracks
  | evaluate j deployed => exact tracks_evaluate i s e j deployed tracks
  | setThreshold polls => exact ⟨tracks.order,tracks.missed,tracks.heard,tracks.count,tracks.seen,tracks.sampled,tracks.unknown⟩
  | queued j =>
      have row := clearPending_row s.watchdog i j
      refine ⟨tracks.order,tracks.missed,tracks.heard,tracks.count,?_,?_,?_⟩
      · rw [Sched.step,row]
        exact tracks.seen
      · rw [Sched.step,row]
        exact tracks.sampled
      · rw [Sched.step,row]
        exact tracks.unknown
  | markKnownPending =>
      have row := markKnownPending_row s.watchdog i
      refine ⟨tracks.order,tracks.missed,tracks.heard,tracks.count,?_,?_,?_⟩
      · rw [Sched.step,row]
        exact tracks.seen
      · rw [Sched.step,row]
        exact tracks.sampled
      · rw [Sched.step,row]
        exact tracks.unknown

theorem tracks_run (i : Fin nodeTable.length) (events : List Event) : Tracks i (run events) (evidence i events) := by
  induction events using List.reverseRecOn with
  | nil => exact ⟨Nat.le_refl 0,rfl,rfl,rfl,rfl,fun impossible => absurd impossible (Nat.lt_irrefl 0),fun _ => rfl⟩
  | append_singleton events event ih =>
      rw [run,evidence,List.foldl_append,List.foldl_append]
      exact tracks_step i _ _ event ih

-- A row's state is touched only by its own evaluations.
theorem state_kept (i : Fin nodeTable.length) (events : List Event) (event : Event) (other : ∀ deployed, event ≠ .evaluate i deployed) :
    stateAt i (events ++ [event]) = stateAt i events := by
  simp only [stateAt,rowAt,run,List.foldl_append,List.foldl_cons,List.foldl_nil]
  cases event with
  | frame | missed | setThreshold => rfl
  | evaluate j deployed =>
      have mine : j ≠ i := fun same => other deployed (same ▸ rfl)
      rw [Sched.step,evaluate_other _ _ _ _ _ _ mine]
  | queued j => rw [Sched.step,clearPending_row]
  | markKnownPending => rw [Sched.step,markKnownPending_row]

theorem state_judged (i : Fin nodeTable.length) (events : List Event) (deployed : Bool) :
    stateAt i (events ++ [.evaluate i deployed]) = verdict (evidence i events) (thresholdAt events) (stateAt i events) := by
  have place : nodeTable.getD i 0 = nodeTable.get i := List.getD_eq_getElem nodeTable 0 i.isLt
  have next := next_verdict i (run events) (evidence i events) (tracks_run i events)
  simp only [stateAt,rowAt,thresholdAt,run,List.foldl_append,List.foldl_cons,List.foldl_nil] at next ⊢
  rw [Sched.step,place,evaluate_rows,(judge_next ..).1]
  exact next

theorem pending_kept (i : Fin nodeTable.length) (events : List Event) (event : Event) (unqueued : event ≠ .queued i)
    (owed : (rowAt i events).pending = true) : (rowAt i (events ++ [event])).pending = true := by
  simp only [rowAt,run,List.foldl_append,List.foldl_cons,List.foldl_nil] at owed ⊢
  cases event with
  | frame | missed | setThreshold => exact owed
  | evaluate j deployed =>
      by_cases mine : j = i
      · subst mine
        rw [Sched.step,evaluate_rows]
        unfold Row.judge
        dsimp only
        split
        · rfl
        · unfold Row.sample
          dsimp only
          split <;> exact owed
      · rw [Sched.step,evaluate_other _ _ _ _ _ _ mine]
        exact owed
  | queued j =>
      have other : ¬ (j = i ∧ j < nodeTable.length) := fun both => unqueued (both.1 ▸ rfl)
      rw [Sched.step,clearPending_row,owed,decide_eq_false other]
      rfl
  | markKnownPending =>
      rw [Sched.step,markKnownPending_row,owed]
      rfl

theorem pending_moved (i : Fin nodeTable.length) (events : List Event) (deployed : Bool)
    (moved : stateAt i (events ++ [.evaluate i deployed]) ≠ stateAt i events) : (rowAt i (events ++ [.evaluate i deployed])).pending = true := by
  simp only [stateAt,rowAt,run,List.foldl_append,List.foldl_cons,List.foldl_nil] at moved ⊢
  rw [Sched.step,evaluate_rows] at moved ⊢
  unfold Row.judge at moved ⊢
  dsimp only at moved ⊢
  split
  · rfl
  case isFalse same =>
    rw [if_neg same] at moved
    refine absurd ?_ moved
    unfold Row.sample
    dsimp only
    split <;> rfl

theorem moves_judged (i : Fin nodeTable.length) (events : List Event) (event : Event) (moved : Moves (stateAt i) events event) :
    ∃ deployed, event = .evaluate i deployed := by
  by_contra other
  exact moved (state_kept i events event fun deployed is => other ⟨deployed,is⟩)

-- The law of a row over a whole run.
structure MovesOnEvidence (i : Fin nodeTable.length) (events : List Event) : Prop where
  moves : Always (fun pre event => Moves (stateAt i) pre event →
    (∃ deployed, event = .evaluate i deployed) ∧ 0 < (evidence i pre).fresh + (evidence i pre).missed) events
  judged : Always (fun pre event => ∀ deployed, event = .evaluate i deployed →
    (thresholdAt pre ≤ (evidence i pre).streak → stateAt i (pre ++ [event]) = .offline) ∧
      (0 < (evidence i pre).fresh → (evidence i pre).streak < thresholdAt pre → stateAt i (pre ++ [event]) = .online)) events
  offline : stateAt i events = .offline ↔
    ∃ pre event, LastMove (stateAt i) events pre event ∧ thresholdAt pre ≤ (evidence i pre).streak
  online : stateAt i events = .online ↔
    ∃ pre event, LastMove (stateAt i) events pre event ∧ 0 < (evidence i pre).fresh ∧ (evidence i pre).streak < thresholdAt pre
  unknown : stateAt i events = .unknown ↔ Always (fun pre event => ∀ deployed, event = .evaluate i deployed →
    (evidence i pre).frames = 0 ∧ (evidence i pre).streak < thresholdAt pre) events
  pending : ∀ pre event post, events = pre ++ event :: post → Moves (stateAt i) pre event → (∀ later ∈ post, later ≠ .queued i) →
    (rowAt i events).pending = true

-- Where a row is judged with no frame and no miss since it was last judged, its misses have not come up to the threshold
-- by the threshold coming down; and the frames since are no whole number of turns of the counter that would hide them.
def Evidenced (i : Fin nodeTable.length) (pre : List Event) : Prop :=
  ((evidence i pre).fresh + (evidence i pre).missed = 0 → thresholdAt pre ≤ (evidence i pre).streak → stateAt i pre = .offline) ∧
    (0 < (evidence i pre).fresh → (evidence i pre).streak < thresholdAt pre → (evidence i pre).shows ∨ stateAt i pre = .online)

theorem state_nil (i : Fin nodeTable.length) : stateAt i [] = .unknown := rfl

theorem moved_verdict (i : Fin nodeTable.length) (pre : List Event) (event : Event) (moved : Moves (stateAt i) pre event) :
    stateAt i (pre ++ [event]) = .offline ∧ thresholdAt pre ≤ (evidence i pre).streak ∨
      stateAt i (pre ++ [event]) = .online ∧ 0 < (evidence i pre).fresh ∧ (evidence i pre).streak < thresholdAt pre := by
  obtain ⟨deployed,rfl⟩ := moves_judged i pre event moved
  have judged := state_judged i pre deployed
  unfold Moves at moved
  rw [judged] at moved ⊢
  unfold verdict at moved ⊢
  split
  case isTrue reached => exact .inl ⟨rfl,reached⟩
  case isFalse short =>
    rw [if_neg short] at moved
    split
    case isTrue shows => exact .inr ⟨rfl,shows.1,Nat.lt_of_not_le short⟩
    case isFalse hidden =>
      rw [if_neg hidden] at moved
      exact absurd rfl moved

theorem last_move (i : Fin nodeTable.length) (events : List Event) (known : stateAt i events ≠ .unknown) :
    ∃ pre event, LastMove (stateAt i) events pre event ∧ Moves (stateAt i) pre event := by
  obtain ⟨pre,event,last⟩ := lastMove_exists (stateAt i) events (state_nil i ▸ known)
  exact ⟨pre,event,last,last.moves⟩

theorem offline_iff (i : Fin nodeTable.length) (events : List Event) : stateAt i events = .offline ↔
    ∃ pre event, LastMove (stateAt i) events pre event ∧ thresholdAt pre ≤ (evidence i pre).streak := by
  constructor
  · intro is
    obtain ⟨pre,event,last,moved⟩ := last_move i events (by rw [is]; decide)
    refine ⟨pre,event,last,?_⟩
    rcases moved_verdict i pre event moved with ⟨_,reached⟩ | ⟨online,_⟩
    · exact reached
    · rw [last.value,online] at is
      cases is
  · rintro ⟨pre,event,last,reached⟩
    rw [last.value]
    rcases moved_verdict i pre event last.moves with ⟨offline,_⟩ | ⟨_,_,short⟩
    · exact offline
    · omega

theorem online_iff (i : Fin nodeTable.length) (events : List Event) : stateAt i events = .online ↔
    ∃ pre event, LastMove (stateAt i) events pre event ∧ 0 < (evidence i pre).fresh ∧ (evidence i pre).streak < thresholdAt pre := by
  constructor
  · intro is
    obtain ⟨pre,event,last,moved⟩ := last_move i events (by rw [is]; decide)
    refine ⟨pre,event,last,?_⟩
    rcases moved_verdict i pre event moved with ⟨offline,_⟩ | ⟨_,later⟩
    · rw [last.value,offline] at is
      cases is
    · exact later
  · rintro ⟨pre,event,last,_,short⟩
    rw [last.value]
    rcases moved_verdict i pre event last.moves with ⟨_,reached⟩ | ⟨online,_⟩
    · omega
    · exact online

theorem verdict_unknown (e : Evidence) (threshold : Nat) (before : Availability) (early : before = .unknown → e.judged = 0) (order : e.judged ≤ e.frames) :
    verdict e threshold before = .unknown ↔ before = .unknown ∧ e.frames = 0 ∧ e.streak < threshold := by
  unfold verdict
  split
  case isTrue reached =>
    constructor
    · intro impossible
      cases impossible
    · rintro ⟨_,_,short⟩
      omega
  case isFalse short =>
    split
    case isTrue shows =>
      constructor
      · intro impossible
        cases impossible
      · rintro ⟨_,none_,_⟩
        have some_ := shows.1
        unfold Evidence.fresh at some_
        omega
    case isFalse hidden =>
      constructor
      · intro is
        have first := early is
        simp only [Evidence.shows,Evidence.fresh] at hidden
        exact ⟨is,by omega,Nat.lt_of_not_le short⟩
      · exact fun facts => facts.1

theorem unknown_iff (i : Fin nodeTable.length) (events : List Event) : stateAt i events = .unknown ↔
    Always (fun pre event => ∀ deployed, event = .evaluate i deployed →
      (evidence i pre).frames = 0 ∧ (evidence i pre).streak < thresholdAt pre) events := by
  induction events using List.reverseRecOn with
  | nil => exact ⟨fun _ => always_nil,fun _ => rfl⟩
  | append_singleton events event ih =>
      rw [always_snoc,← ih]
      by_cases mine : ∃ deployed, event = .evaluate i deployed
      · obtain ⟨deployed,rfl⟩ := mine
        have tracks := tracks_run i events
        have early : stateAt i events = .unknown → (evidence i events).judged = 0 := tracks.unknown
        rw [state_judged,verdict_unknown _ _ _ early tracks.order]
        constructor
        · exact fun ⟨is,facts⟩ => ⟨is,fun _ _ => facts⟩
        · exact fun ⟨is,facts⟩ => ⟨is,facts deployed rfl⟩
      · rw [state_kept i events event fun deployed is => mine ⟨deployed,is⟩]
        constructor
        · exact fun is => ⟨is,fun deployed same => absurd ⟨deployed,same⟩ mine⟩
        · exact fun both => both.1

theorem pending_run (i : Fin nodeTable.length) (pre post : List Event) (event : Event) (moved : Moves (stateAt i) pre event)
    (unqueued : ∀ later ∈ post, later ≠ .queued i) : (rowAt i (pre ++ event :: post)).pending = true := by
  induction post using List.reverseRecOn with
  | nil =>
      obtain ⟨deployed,rfl⟩ := moves_judged i pre event moved
      exact pending_moved i pre deployed moved
  | append_singleton post last ih =>
      have owed := ih fun later member => unqueued later (List.mem_append_left _ member)
      rw [← List.cons_append,← List.append_assoc]
      exact pending_kept i _ last (unqueued last (List.mem_append_right _ (List.mem_singleton.mpr rfl))) owed

-- One evaluation keeps the law exactly where its evidence is whole.
theorem judged_evidenced (i : Fin nodeTable.length) (pre : List Event) (deployed : Bool) :
    ((Moves (stateAt i) pre (.evaluate i deployed) → 0 < (evidence i pre).fresh + (evidence i pre).missed) ∧
      (0 < (evidence i pre).fresh → (evidence i pre).streak < thresholdAt pre → stateAt i (pre ++ [.evaluate i deployed]) = .online)) ↔
      Evidenced i pre := by
  have judged := state_judged i pre deployed
  unfold Moves Evidenced
  rw [judged]
  unfold verdict
  constructor
  · rintro ⟨moves,later⟩
    constructor
    · intro none_ reached
      rw [if_pos reached] at moves
      by_contra other
      have some_ := moves (Ne.symm other)
      omega
    · intro some_ short
      have online := later some_ short
      rw [if_neg (Nat.not_le.mpr short)] at online
      split at online
      · exact .inl (by assumption)
      · exact .inr online
  · rintro ⟨still,seen⟩
    constructor
    · intro moved
      by_contra none_
      split at moved
      case isTrue reached => exact moved (still (by omega) reached).symm
      case isFalse =>
        split at moved
        case isTrue shows =>
          have some_ := shows.1
          omega
        case isFalse => exact moved rfl
    · intro some_ short
      rw [if_neg (Nat.not_le.mpr short)]
      split
      · rfl
      case isFalse hidden => exact (seen some_ short).resolve_left hidden

theorem moves_on_evidence (i : Fin nodeTable.length) (events : List Event) :
    MovesOnEvidence i events ↔ Always (fun pre event => ∀ deployed, event = .evaluate i deployed → Evidenced i pre) events := by
  constructor
  · rintro ⟨moves,judged,_,_,_,_⟩ ⟨pre,event,post,rfl,fails⟩
    refine fails fun deployed is => ?_
    subst is
    have moves := moves.here pre post
    have judged := judged.here pre post
    exact (judged_evidenced i pre deployed).mp ⟨fun moved => (moves moved).2,(judged deployed rfl).2⟩
  · intro whole
    have step := fun pre deployed (evidenced : Evidenced i pre) => (judged_evidenced i pre deployed).mpr evidenced
    refine ⟨whole.imp ?_,whole.imp ?_,offline_iff i events,online_iff i events,unknown_iff i events,?_⟩
    · intro pre event evidenced moved
      obtain ⟨deployed,rfl⟩ := moves_judged i pre event moved
      exact ⟨⟨deployed,rfl⟩,(step pre deployed (evidenced deployed rfl)).1 moved⟩
    · intro pre event evidenced deployed is
      subst is
      refine ⟨fun reached => ?_,(step pre deployed (evidenced deployed rfl)).2⟩
      rw [state_judged,verdict,if_pos reached]
    · rintro pre event post rfl moved unqueued
      exact pending_run i pre post event moved unqueued

-- The gate answers, misses two polls of three and is judged online; then the threshold is set to two.
def loweredThreshold : List Event :=
  [.frame {src := 1} 0,.missed 1,.missed 1,.evaluate 0 true,.setThreshold 2]

theorem lowered_threshold_moves_a_row : ¬ MovesOnEvidence ⟨0,by decide⟩ (loweredThreshold ++ [.evaluate 0 true]) := by
  intro law
  have moved : Moves (stateAt ⟨0,by decide⟩) loweredThreshold (.evaluate 0 true) := by
    unfold Moves
    decide +kernel
  have some_ := (law.moves.here loweredThreshold [] (.evaluate 0 true) moved).2
  exact absurd some_ (by decide +kernel)

end LoraRan.Bridge.NodeAvailability
