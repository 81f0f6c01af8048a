import LoraRan.GateLink.AlarmWatch
import LoraRan.Library.StepSystem

namespace LoraRan.GateLink.BootAlarms
open Library.StepSystem

-- What the three tasks share of an alarm, and what each keeps of its own: io_task's debounced inputs, lora_task's
-- boot check still to be made, app_task's watch and the ids both draw from.
structure Tasks where
  inputs : UInt8 := 0
  inputsRead : Bool := false
  bootAlarmsOwed : Bool := true
  watch : AlarmWatch := {}
  ids : UInt32 := 0

def Tasks.io (t : Tasks) (inputs : UInt8) : Tasks := {t with inputs := inputs,inputsRead := true}

-- send_boot_alarm() for each alarm of the snapshot, an id for each.
def Tasks.lora (t : Tasks) : List Alarm × Tasks :=
  if t.bootAlarmsOwed && t.inputsRead then
    let present := alarms.filter (asserted t.inputs)
    (present,{t with bootAlarmsOwed := false,ids := t.ids + UInt32.ofNat present.length})
  else ([],t)

def Tasks.app (t : Tasks) (g : GateContext) : List Push × Tasks :=
  if t.inputsRead then
    let (_,watch,ids,out) := t.watch.update t.inputs g t.ids []
    (out,{t with watch := watch,ids := ids})
  else ([],t)

-- A pass takes its snapshot once and shares nothing else of an alarm, so it is one step, at the snapshot.
inductive Pass where
  | io (inputs : UInt8)
  | lora
  | app (g : GateContext)

-- An assertion of an input, by the step it began at.
abbrev Assertion := Alarm × Nat

-- The tasks and their record: when each input was last asserted, the EVENTs sent and when, the assertions app_task
-- read, and those of them it took for no edge.
structure Board where
  tasks : Tasks := {}
  now : Nat := 0
  since : Alarm → Nat := fun _ => 0
  sent : List (Alarm × Nat) := []
  reads : List Assertion := []
  taken : List Assertion := []
  lastPass : Option Nat := none
  checkedAt : Nat := 0

-- The current assertion began after app_task's last pass.
def Board.unread (s : Board) (a : Alarm) : Bool :=
  match s.lastPass with
  | none => true
  | some pass => decide (pass < s.since a)

-- app_task's next pass finds the input asserted and no edge on it.
def Board.edgeless (s : Board) (a : Alarm) : Bool :=
  asserted s.tasks.inputs a && (!s.tasks.watch.seen || asserted s.tasks.watch.last a) && s.unread a

def step (s : Board) : Pass → Board
  | .io inputs =>
      {s with
        tasks := s.tasks.io inputs
        since := fun a => if asserted inputs a && !asserted s.tasks.inputs a then s.now else s.since a
        now := s.now + 1}
  | .lora =>
      let (present,tasks) := s.tasks.lora
      {s with
        tasks := tasks
        sent := present.map (fun a => (a,s.now)) ++ s.sent
        checkedAt := if s.tasks.bootAlarmsOwed && s.tasks.inputsRead then s.now else s.checkedAt
        now := s.now + 1}
  | .app g =>
      let (out,tasks) := s.tasks.app g
      if s.tasks.inputsRead then
        {s with
          tasks := tasks
          sent := (alarms.filter (raises out)).map (fun a => (a,s.now)) ++ s.sent
          reads := (alarms.filter (asserted s.tasks.inputs)).map (fun a => (a,s.since a)) ++ s.reads
          taken := (alarms.filter s.edgeless).map (fun a => (a,s.since a)) ++ s.taken
          lastPass := some s.now
          now := s.now + 1}
      else {s with now := s.now + 1}

-- An assertion app_task takes for no edge is one lora_task's boot check reads: it began before the check, or lasts
-- until it.
def Overlaps (s : Board) : Pass → Prop
  | .io inputs => s.tasks.bootAlarmsOwed = true → ∀ a ∈ alarms, asserted s.tasks.inputs a = true → (a,s.since a) ∈ s.taken → asserted inputs a = true
  | .lora => True
  | .app _ => s.tasks.bootAlarmsOwed = false → ∀ a ∈ alarms, s.edgeless a = true → s.since a ≤ s.checkedAt

instance overlapsDecidable (s : Board) : (i : Pass) → Decidable (Overlaps s i)
  | .io _ => inferInstanceAs (Decidable (_ = _ → ∀ a ∈ alarms, _))
  | .lora => .isTrue trivial
  | .app _ => inferInstanceAs (Decidable (_ = _ → ∀ a ∈ alarms, _))

def Reported (s : Board) (read : Assertion) : Prop := ∃ t, read.2 ≤ t ∧ (read.1,t) ∈ s.sent

-- Read before the boot check, still asserted and so the check's to report.
structure Left (s : Board) (read : Assertion) : Prop where
  owed : s.tasks.bootAlarmsOwed = true
  present : asserted s.tasks.inputs read.1 = true
  current : read.2 = s.since read.1
  taken : read ∈ s.taken

structure Watched (s : Board) : Prop where
  began : ∀ a, s.since a ≤ s.now
  began_before : s.tasks.bootAlarmsOwed = false → s.checkedAt < s.now
  passed : ∀ pass, s.lastPass = some pass → pass < s.now
  first : s.tasks.watch.seen = s.lastPass.isSome
  live : ∀ a, asserted s.tasks.inputs a = true → s.tasks.inputsRead = true
  checked : s.tasks.bootAlarmsOwed = false → ∀ a, asserted s.tasks.inputs a = true → s.since a ≤ s.checkedAt → (a,s.checkedAt) ∈ s.sent
  known : ∀ a pass, s.lastPass = some pass → asserted s.tasks.inputs a = true → s.since a ≤ pass → (a,s.since a) ∈ s.reads
  reads : ∀ read ∈ s.reads, Reported s read ∨ Left s read

theorem mem_alarms (a : Alarm) : a ∈ alarms := by
  cases a with
  | fire => decide
  | hardShutdown => decide

theorem start_watched : Watched {} := by
  refine ⟨fun _ => Nat.le_refl _,?_,?_,rfl,?_,?_,?_,?_⟩
  · intro never
    cases never
  · intro pass never
    cases never
  · intro a never
    rw [asserted_zero] at never
    cases never
  · intro never
    cases never
  · intro a pass never
    cases never
  · intro read member
    cases member

theorem io_watched (s : Board) (inputs : UInt8) (watched : Watched s) (overlaps : Overlaps s (.io inputs)) : Watched (step s (.io inputs)) := by
  -- An assertion is as old as it was, or it begins now.
  have aged : ∀ a, asserted inputs a = true → asserted s.tasks.inputs a = true ∧ (step s (.io inputs)).since a = s.since a ∨
      (step s (.io inputs)).since a = s.now := by
    intro a now
    cases before : asserted s.tasks.inputs a with
    | true => exact .inl ⟨rfl,by simp [step,before]⟩
    | false => exact .inr (by simp [step,now,before])
  refine ⟨?_,?_,?_,watched.first,fun _ _ => rfl,?_,?_,?_⟩
  · intro a
    have before := watched.began a
    change (if _ then s.now else s.since a) ≤ s.now + 1
    split
    · exact Nat.le_succ _
    · exact Nat.le_succ_of_le before
  · intro done
    exact Nat.lt_succ_of_lt (watched.began_before done)
  · intro pass last
    exact Nat.lt_succ_of_lt (watched.passed pass last)
  · intro done a now early
    rcases aged a now with ⟨before,same⟩ | fresh
    · rw [same] at early
      exact watched.checked done a before early
    · rw [fresh] at early
      exact absurd (watched.began_before done) (Nat.not_lt_of_le early)
  · intro a pass last now early
    rcases aged a now with ⟨before,same⟩ | fresh
    · rw [same] at early ⊢
      exact watched.known a pass last before early
    · rw [fresh] at early
      exact absurd (watched.passed pass last) (Nat.not_lt_of_le early)
  · intro read member
    rcases watched.reads read member with ⟨t,late,sent⟩ | left
    · exact .inl ⟨t,late,sent⟩
    · have kept := overlaps left.owed read.1 (mem_alarms _) left.present (left.current ▸ left.taken)
      have same : (step s (.io inputs)).since read.1 = s.since read.1 := by simp [step,left.present]
      exact .inr ⟨left.owed,kept,left.current.trans same.symm,left.taken⟩

theorem lora_checks (t : Tasks) (due : (t.bootAlarmsOwed && t.inputsRead) = true) : t.lora = (alarms.filter (asserted t.inputs),{t with
    bootAlarmsOwed := false
    ids := t.ids + UInt32.ofNat (alarms.filter (asserted t.inputs)).length}) := by
  rw [Tasks.lora,if_pos due]

theorem lora_sends (s : Board) (a : Alarm) (due : (s.tasks.bootAlarmsOwed && s.tasks.inputsRead) = true) (present : asserted s.tasks.inputs a = true) :
    (a,s.now) ∈ (step s .lora).sent := by
  have here : a ∈ s.tasks.lora.1 := by
    rw [lora_checks s.tasks due]
    exact List.mem_filter.mpr ⟨mem_alarms a,present⟩
  exact List.mem_append_left _ (List.mem_map.mpr ⟨a,here,rfl⟩)

-- The boot check reports whatever was left to it.
theorem lora_reported (s : Board) (watched : Watched s) (read : Assertion) (member : read ∈ s.reads) : Reported (step s .lora) read := by
  rcases watched.reads read member with ⟨t,late,sent⟩ | left
  · exact ⟨t,late,List.mem_append_right _ sent⟩
  · have due : (s.tasks.bootAlarmsOwed && s.tasks.inputsRead) = true := by rw [left.owed,watched.live read.1 left.present]; rfl
    exact ⟨s.now,left.current ▸ watched.began read.1,lora_sends s read.1 due left.present⟩

theorem lora_watched (s : Board) (watched : Watched s) : Watched (step s .lora) := by
  have reported := lora_reported s watched
  by_cases due : (s.tasks.bootAlarmsOwed && s.tasks.inputsRead) = true
  · have checks := lora_checks s.tasks due
    have checked : (step s .lora).checkedAt = s.now := by simp [step,due]
    have tasks : (step s .lora).tasks = s.tasks.lora.2 := rfl
    rw [checks] at tasks
    refine ⟨fun a => Nat.le_succ_of_le (watched.began a),?_,fun pass last => Nat.lt_succ_of_lt (watched.passed pass last),?_,?_,?_,?_,?_⟩
    · intro _
      rw [checked]
      exact Nat.lt_succ_self _
    · rw [tasks]
      exact watched.first
    · rw [tasks]
      exact watched.live
    · intro _ a present _
      rw [tasks] at present
      rw [checked]
      exact lora_sends s a due present
    · rw [tasks]
      exact watched.known
    · exact fun read member => .inl (reported read member)
  · have waits : s.tasks.lora = ([],s.tasks) := by rw [Tasks.lora,if_neg due]
    have checked : (step s .lora).checkedAt = s.checkedAt := by simp [step,due]
    have tasks : (step s .lora).tasks = s.tasks := congrArg Prod.snd waits
    have sent : (step s .lora).sent = s.sent := by simp [step,waits]
    refine ⟨fun a => Nat.le_succ_of_le (watched.began a),?_,fun pass last => Nat.lt_succ_of_lt (watched.passed pass last),?_,?_,?_,?_,?_⟩
    · intro done
      rw [tasks] at done
      rw [checked]
      exact Nat.lt_succ_of_lt (watched.began_before done)
    · rw [tasks]
      exact watched.first
    · rw [tasks]
      exact watched.live
    · rw [tasks,checked,sent]
      exact watched.checked
    · rw [tasks]
      exact watched.known
    · exact fun read member => .inl (reported read member)

-- app_task's pass leaves what io_task and lora_task go by.
theorem app_tasks (t : Tasks) (g : GateContext) (reads : t.inputsRead = true) :
    t.app g = ((t.watch.update t.inputs g t.ids []).2.2.2,{t with
      watch := ⟨true,t.inputs &&& (inFire ||| inAlarm)⟩
      ids := (t.watch.update t.inputs g t.ids []).2.2.1}) := by
  rw [Tasks.app,if_pos reads]
  dsimp only
  rw [update_watch]

-- One input a pass finds asserted: an edge of its own, an assertion the last pass read, or one the boot check is for.
theorem app_accounts (s s' : Board) (g : GateContext) (watched : Watched s) (overlaps : Overlaps s (.app g)) (a : Alarm)
    (present : asserted s.tasks.inputs a = true) (older : ∀ read ∈ s.reads, Reported s' read ∨ Left s' read)
    (sent : s'.sent = (alarms.filter (raises (s.tasks.watch.update s.tasks.inputs g s.tasks.ids []).2.2.2)).map (fun a => (a,s.now)) ++ s.sent)
    (taken : s'.taken = (alarms.filter s.edgeless).map (fun a => (a,s.since a)) ++ s.taken) (since : s'.since = s.since)
    (owed : s'.tasks.bootAlarmsOwed = s.tasks.bootAlarmsOwed) (inputs : s'.tasks.inputs = s.tasks.inputs) :
    Reported s' (a,s.since a) ∨ Left s' (a,s.since a) := by
  by_cases rises : (s.tasks.watch.seen && !asserted s.tasks.watch.last a) = true
  · refine .inl ⟨s.now,watched.began a,?_⟩
    have raised := update_raises s.tasks.watch s.tasks.inputs g s.tasks.ids a
    simp only [Bool.and_eq_true,Bool.not_eq_true'] at rises
    rw [rises.1,rises.2,present] at raised
    rw [sent]
    exact List.mem_append_left _ (List.mem_map.mpr ⟨a,List.mem_filter.mpr ⟨mem_alarms a,raised⟩,rfl⟩)
  · cases unread : s.unread a with
    | false =>
        -- The last pass read this assertion.
        unfold Board.unread at unread
        split at unread
        · cases unread
        · rename_i pass last
          exact older _ (watched.known a pass last present (Nat.le_of_not_lt (of_decide_eq_false unread)))
    | true =>
        have edgeless : s.edgeless a = true := by
          simp only [Bool.and_eq_true,Bool.not_eq_true',not_and,Bool.not_eq_false] at rises
          simp only [Board.edgeless,present,unread,Bool.true_and,Bool.and_true,Bool.or_eq_true,Bool.not_eq_true']
          cases seen : s.tasks.watch.seen with
          | false => exact .inl rfl
          | true => exact .inr (rises seen)
        cases due : s.tasks.bootAlarmsOwed with
        | false =>
            have early := overlaps due a (mem_alarms a) edgeless
            refine .inl ⟨s.checkedAt,early,?_⟩
            rw [sent]
            exact List.mem_append_right _ (watched.checked due a present early)
        | true =>
            refine .inr ⟨owed.trans due,by rw [inputs]; exact present,by rw [since],?_⟩
            rw [taken]
            exact List.mem_append_left _ (List.mem_map.mpr ⟨a,List.mem_filter.mpr ⟨mem_alarms a,edgeless⟩,rfl⟩)

theorem app_watched (s : Board) (g : GateContext) (watched : Watched s) (overlaps : Overlaps s (.app g)) : Watched (step s (.app g)) := by
  cases reads : s.tasks.inputsRead with
  | false =>
      have same : step s (.app g) = {s with now := s.now + 1} := by simp [step,reads]
      rw [same]
      exact ⟨fun a => Nat.le_succ_of_le (watched.began a),fun done => Nat.lt_succ_of_lt (watched.began_before done),
        fun pass last => Nat.lt_succ_of_lt (watched.passed pass last),watched.first,watched.live,watched.checked,watched.known,
        fun read member => (watched.reads read member).imp id fun left => ⟨left.owed,left.present,left.current,left.taken⟩⟩
  | true =>
      have passes := app_tasks s.tasks g reads
      have stepped : step s (.app g) = {s with
          tasks := (s.tasks.app g).2
          sent := (alarms.filter (raises (s.tasks.app g).1)).map (fun a => (a,s.now)) ++ s.sent
          reads := (alarms.filter (asserted s.tasks.inputs)).map (fun a => (a,s.since a)) ++ s.reads
          taken := (alarms.filter s.edgeless).map (fun a => (a,s.since a)) ++ s.taken
          lastPass := some s.now
          now := s.now + 1} := by simp [step,reads]
      rw [passes] at stepped
      have older : ∀ read ∈ s.reads, Reported (step s (.app g)) read ∨ Left (step s (.app g)) read := by
        intro read member
        rw [stepped]
        rcases watched.reads read member with ⟨t,late,sent⟩ | left
        · exact .inl ⟨t,late,List.mem_append_right _ sent⟩
        · exact .inr ⟨left.owed,left.present,left.current,List.mem_append_right _ left.taken⟩
      refine ⟨?_,?_,?_,?_,?_,?_,?_,?_⟩
      · rw [stepped]
        exact fun a => Nat.le_succ_of_le (watched.began a)
      · rw [stepped]
        exact fun done => Nat.lt_succ_of_lt (watched.began_before done)
      · rw [stepped]
        intro pass last
        cases last
        exact Nat.lt_succ_self _
      · rw [stepped]
        rfl
      · rw [stepped]
        exact watched.live
      · rw [stepped]
        exact fun done a present early => List.mem_append_right _ (watched.checked done a present early)
      · rw [stepped]
        exact fun a pass last present _ => List.mem_append_left _ (List.mem_map.mpr ⟨a,List.mem_filter.mpr ⟨mem_alarms a,present⟩,rfl⟩)
      · intro read member
        have member' := member
        rw [stepped] at member'
        rcases List.mem_append.mp member' with new | old
        · obtain ⟨a,here,rfl⟩ := List.mem_map.mp new
          have present : asserted s.tasks.inputs a = true := (List.mem_filter.mp here).2
          exact app_accounts s _ g watched overlaps a present older (by rw [stepped]) (by rw [stepped]) (by rw [stepped]) (by rw [stepped]) (by rw [stepped])
        · exact older read old

theorem step_watched (s : Board) (i : Pass) (watched : Watched s) (overlaps : Overlaps s i) : Watched (step s i) := by
  cases i with
  | io inputs => exact io_watched s inputs watched overlaps
  | lora => exact lora_watched s watched
  | app g => exact app_watched s g watched overlaps

-- Every assertion app_task reads is reported by lora_task's next pass at the latest, in every run in which the boot
-- check reads what app_task takes for no edge.
theorem read_alarms_are_reported (s : Board) (path : Reached step Overlaps {} s) (a : Alarm) (began : Nat) (read : (a,began) ∈ s.reads) :
    ∃ t, began ≤ t ∧ (a,t) ∈ (step s .lora).sent := by
  have watched : Watched s := path.invariant Watched start_watched step_watched
  exact lora_reported s watched (a,began) read

-- A fire that burned before the board booted, read by app_task first.
def atBoot : List Pass := [.io 0x10,.app {}]

theorem read_alarms_are_reported_at_boot : (.fire,0) ∈ (atBoot.foldl step {}).reads ∧ ∃ t, 0 ≤ t ∧ (.fire,t) ∈ (step (atBoot.foldl step {}) .lora).sent := by
  have run : Follows step Overlaps {} atBoot := by decide
  have read : (Alarm.fire,0) ∈ (atBoot.foldl step {}).reads := by decide
  exact ⟨read,read_alarms_are_reported _ run.reached .fire 0 read⟩

-- A fire that began between the boot check and app_task's first pass, and one that ended between that pass and the check.
def afterCheck : List Pass := [.io 0,.lora,.io 0x10,.app {},.lora,.app {}]

def beforeCheck : List Pass := [.io 0x10,.app {},.io 0,.lora,.app {}]

theorem boot_alarm_goes_unreported :
    ((.fire,2) ∈ (afterCheck.foldl step {}).reads ∧ (step (afterCheck.foldl step {}) .lora).sent = []) ∧
      (.fire,0) ∈ (beforeCheck.foldl step {}).reads ∧ (step (beforeCheck.foldl step {}) .lora).sent = [] := by
  decide

end LoraRan.GateLink.BootAlarms
