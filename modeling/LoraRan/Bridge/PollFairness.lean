import LoraRan.Bridge.Scheduler
import Mathlib.Data.List.Induction

namespace LoraRan.Bridge
open Protocol
open Library.Clock
open Library.Occurrence

inductive PollCall where
  | next (time : Nat) (mayStart : Bool)
  | sent (node : NodeId) (intervalS : UInt16) (time : Nat)
  | heard (node : NodeId) (time : Nat)
  | enrol (node : NodeId)
  | timeout (ms : UInt32)
  deriving DecidableEq, Repr

def PollCall.time : PollCall → Option Nat
  | .next time _ | .sent _ _ time | .heard _ time => some time
  | .enrol _ | .timeout _ => none

-- The scheduler beside what really happened: the nodes `next` has named since a poll last went, the polls sent and neither
-- answered nor given up, when each node polled falls due again, and the true counts.
structure PollRun where
  sched : PollScheduler := {}
  asked : List NodeId := []
  opened : List (NodeId × Nat) := []
  due : NodeId → Option Nat := fun _ => none
  sends : Nat := 0
  answers : Nat := 0
  misses : Nat := 0

def PollRun.close (r : PollRun) (node : NodeId) : List (NodeId × Nat) := r.opened.filter fun p => p.1 != node

def PollRun.closed (r : PollRun) (node : NodeId) : Nat := (r.opened.filter fun p => p.1 == node).length

def PollRun.call (r : PollRun) : PollCall → PollRun
  | .next time mayStart =>
    match r.sched.next (stamp time) mayStart with
    | (s,.none) => {r with sched := s}
    | (s,.poll node) => {r with sched := s,asked := node :: r.asked}
    | (s,.missed node) => {r with sched := s,opened := r.close node,misses := r.misses + r.closed node}
  | .sent node intervalS time =>
    {r with sched := r.sched.onSent node intervalS (stamp time),asked := [],opened := (node,time) :: r.opened,
            due := Function.update r.due node (some (time + intervalS.toNat * 1000)),sends := r.sends + 1}
  | .heard node time =>
    {r with sched := (r.sched.onHeard node (stamp time)).1,opened := r.close node,answers := r.answers + r.closed node}
  | .enrol node => {r with sched := r.sched.enrol node}
  | .timeout ms => {r with sched := {r.sched with replyTimeoutMs := ms}}

def polled (calls : List PollCall) : PollRun := calls.foldl PollRun.call {}

theorem polled_snoc (calls : List PollCall) (c : PollCall) : polled (calls ++ [c]) = (polled calls).call c := by
  unfold polled
  rw [List.foldl_append]
  rfl

-- Times do not go back, a poll goes only to a node `next` has named since the poll before it, with an interval of a second or
-- more, and no node is left due for half a turn of the counter.
structure FairCall (pre : List PollCall) (c : PollCall) : Prop where
  onward : ∀ x ∈ pre, ∀ before after, x.time = some before → c.time = some after → before ≤ after
  asked : ∀ node intervalS time, c = .sent node intervalS time → node ∈ (polled pre).asked ∧ intervalS ≠ 0
  served : ∀ node due time, (polled pre).due node = some due → c.time = some time → time < due + 2147483648

def FairCalls : List PollCall → Prop := Always FairCall

theorem stamp_interval (time : Nat) (intervalS : UInt16) (positive : intervalS ≠ 0) :
    stamp time + intervalMs intervalS = stamp (time + intervalS.toNat * 1000) := by
  have small := intervalS.toNat_lt
  apply UInt32.toNat_inj.mp
  rw [intervalMs,if_neg positive,UInt32.toNat_add,UInt32.toNat_mul,UInt16.toNat_toUInt32,stamp_toNat,stamp_toNat]
  change (time % 4294967296 + intervalS.toNat * 1000 % 4294967296) % 4294967296 = _
  omega

theorem stamp_succ (n : Nat) : stamp n + 1 = stamp (n + 1) := by
  apply UInt32.toNat_inj.mp
  rw [UInt32.toNat_add,stamp_toNat,stamp_toNat]
  change (n % 4294967296 + 1) % 4294967296 = _
  omega

-- The one poll on the air, or none.
inductive OneOpen (calls : List PollCall) (r : PollRun) : Prop where
  | none (closed : r.sched.outstanding = false) (empty : r.opened = [])
  | poll (time due : Nat) (open_ : r.sched.outstanding = true) (one : r.opened = [(r.sched.outstandingNode,time)])
      (marked : r.sched.sentMs = stamp time) (known : registered r.sched.outstandingNode = true)
      (told : ∃ c ∈ calls, c.time = some time) (falls : r.due r.sched.outstandingNode = some due) (soon : due ≤ time + 65535000)

-- The scheduler's own fields against what happened.
structure Accounted (calls : List PollCall) (r : PollRun) : Prop where
  named : ∀ node ∈ r.asked, registered node = true ∧ (r.sched.rows node).enrolled = true ∧ r.sched.outstanding = false
  dues : ∀ node, (r.sched.rows node).dueSet = true ↔ r.due node ≠ none
  stamped : ∀ node due, r.due node = some due → (r.sched.rows node).dueMs = stamp due ∧ (r.sched.rows node).enrolled = true ∧
    ∃ c ∈ calls, ∃ time, c.time = some time ∧ time < due ∧ due ≤ time + 65535000
  one : OneOpen calls r
  sends : r.sends = r.answers + r.misses + r.opened.length
  stats : r.sched.stats = {sent := stamp r.sends,answered := stamp r.answers,missed := stamp r.misses}

-- Rows that were not enrolled may have become so; nothing else about the rows has changed.
def Enrolls (s s' : PollScheduler) : Prop :=
  ∀ k, s'.rows k = s.rows k ∨ (s.rows k).enrolled = false ∧ s'.rows k = {s.rows k with enrolled := true,dueSet := false}

theorem Enrolls.update {s : PollScheduler} {node : NodeId} (out : (s.rows node).enrolled = false) (s' : PollScheduler)
    (rows : s'.rows = Function.update s.rows node {s.rows node with enrolled := true,dueSet := false}) : Enrolls s s' := by
  intro k
  rw [rows]
  by_cases same : k = node
  · subst same
    exact .inr ⟨out,Function.update_self ..⟩
  · exact .inl (Function.update_of_ne same ..)

theorem enrol_enrolls (s : PollScheduler) (node : NodeId) : Enrolls s (s.enrol node) := by
  unfold PollScheduler.enrol
  split
  · exact fun _ => .inl rfl
  · rename_i fresh
    rw [not_or] at fresh
    exact Enrolls.update (Bool.eq_false_iff.mpr fresh.2) _ rfl

section Step

variable {calls : List PollCall} {r : PollRun}

theorem Accounted.told (acc : Accounted calls r) (c : PollCall) : Accounted (calls ++ [c]) r := by
  have wider : ∀ x ∈ calls, x ∈ calls ++ [c] := fun x member => List.mem_append_left _ member
  refine ⟨acc.named,acc.dues,?_,?_,acc.sends,acc.stats⟩
  · intro node due falls
    obtain ⟨stamped,enrolled,x,member,time⟩ := acc.stamped node due falls
    exact ⟨stamped,enrolled,x,wider x member,time⟩
  · cases acc.one with
    | none closed empty => exact .none closed empty
    | poll time due open_ one marked known told falls soon =>
      obtain ⟨x,member,at_⟩ := told
      exact .poll time due open_ one marked known ⟨x,wider x member,at_⟩ falls soon

-- The rows' part, which an enrolment leaves standing.
theorem Accounted.enrolled (acc : Accounted calls r) {s' : PollScheduler} (grows : Enrolls r.sched s') :
    (∀ node, (s'.rows node).dueSet = true ↔ r.due node ≠ none) ∧
      (∀ node due, r.due node = some due → (s'.rows node).dueMs = stamp due ∧ (s'.rows node).enrolled = true ∧
        ∃ c ∈ calls, ∃ time, c.time = some time ∧ time < due ∧ due ≤ time + 65535000) ∧
      ∀ node, (r.sched.rows node).enrolled = true → (s'.rows node).enrolled = true := by
  refine ⟨?_,?_,?_⟩
  · intro node
    rcases grows node with same | ⟨out,fresh⟩
    · rw [same]
      exact acc.dues node
    · have never : r.due node = none := by
        cases hd : r.due node with
        | none => rfl
        | some due =>
          have in_ := (acc.stamped node due hd).2.1
          rw [out] at in_
          cases in_
      rw [fresh,never]
      simp
  · intro node due falls
    obtain ⟨stamped,in_,told⟩ := acc.stamped node due falls
    rcases grows node with same | ⟨out,_⟩
    · rw [same]
      exact ⟨stamped,in_,told⟩
    · rw [out] at in_
      cases in_
  · intro node in_
    rcases grows node with same | ⟨_,fresh⟩
    · rw [same]
      exact in_
    · rw [fresh]

-- A poll goes out: its node had been named, so nothing was on the air.
theorem accounted_sent {node : NodeId} {intervalS : UInt16} {time : Nat} (acc : Accounted calls r) (named : node ∈ r.asked)
    (positive : intervalS ≠ 0) : Accounted (calls ++ [.sent node intervalS time]) (r.call (.sent node intervalS time)) := by
  obtain ⟨known,enrolled,idle⟩ := acc.named node named
  have present : PollCall.sent node intervalS time ∈ calls ++ [.sent node intervalS time] := List.mem_append_right _ List.mem_cons_self
  have interval : 1 ≤ intervalS.toNat := by
    refine Nat.pos_of_ne_zero ?_
    intro zero
    exact positive (UInt16.toNat_inj.mp zero)
  have short := intervalS.toNat_lt
  have empty : r.opened = [] := by
    cases acc.one with
    | none _ empty => exact empty
    | poll _ _ open_ => exact absurd (idle.symm.trans open_) Bool.false_ne_true
  have sched : (r.call (.sent node intervalS time)).sched = {r.sched with
      rows := Function.update r.sched.rows node {r.sched.rows node with
        dueMs := stamp time + intervalMs intervalS,dueSet := true,sentMs := stamp time},
      outstanding := true,outstandingNode := node,sentMs := stamp time,stats := {r.sched.stats with sent := r.sched.stats.sent + 1}} := by
    simp [PollRun.call,PollScheduler.onSent,known]
  refine ⟨?_,?_,?_,?_,?_,?_⟩
  · intro k member
    cases member
  · intro k
    rw [sched]
    by_cases same : k = node
    · subst same
      simp [PollRun.call]
    · simp only [PollRun.call,Function.update_of_ne same]
      exact acc.dues k
  · intro k due falls
    rw [sched]
    by_cases same : k = node
    · subst same
      simp only [PollRun.call,Function.update_self,Option.some.injEq] at falls ⊢
      subst falls
      exact ⟨stamp_interval time intervalS positive,enrolled,_,present,time,rfl,by omega,by omega⟩
    · simp only [PollRun.call,Function.update_of_ne same] at falls ⊢
      obtain ⟨stamped,in_,x,member,told⟩ := acc.stamped k due falls
      exact ⟨stamped,in_,x,List.mem_append_left _ member,told⟩
  · refine .poll time (time + intervalS.toNat * 1000) ?_ ?_ ?_ ?_ ⟨_,present,rfl⟩ ?_ (by omega)
    · rw [sched]
    · rw [sched]
      change (node,time) :: r.opened = _
      rw [empty]
    · rw [sched]
    · rw [sched]
      exact known
    · rw [sched]
      exact Function.update_self ..
  · change r.sends + 1 = r.answers + r.misses + ((node,time) :: r.opened).length
    rw [List.length_cons,acc.sends]
    omega
  · rw [sched]
    dsimp only
    rw [acc.stats,stamp_succ]
    rfl

theorem close_own {node : NodeId} {time : Nat} (one : r.opened = [(node,time)]) : r.close node = [] ∧ r.closed node = 1 := by
  simp [PollRun.close,PollRun.closed,one]

theorem close_other {node : NodeId} (apart : ∀ p ∈ r.opened, p.1 ≠ node) : r.close node = r.opened ∧ r.closed node = 0 := by
  refine ⟨List.filter_eq_self.mpr ?_,List.length_eq_zero_iff.mpr (List.filter_eq_nil_iff.mpr ?_)⟩
  · intro p member
    exact bne_iff_ne.mpr (apart p member)
  · intro p member same
    exact apart p member (beq_iff_eq.mp same)

theorem accounted_next (time : Nat) (mayStart : Bool) (acc : Accounted calls r) :
    Accounted (calls ++ [.next time mayStart]) (r.call (.next time mayStart)) := by
  have wide := acc.told (.next time mayStart)
  rcases next_cases r.sched (stamp time) mayStart with quiet | ⟨open_,gone⟩ | ⟨node,late,idle,picked,asks⟩
  · have called : r.call (.next time mayStart) = r := by
      simp [PollRun.call,quiet]
    rw [called]
    exact wide
  · have called : r.call (.next time mayStart) = {r with
        sched := {r.sched with outstanding := false,stats := {r.sched.stats with missed := r.sched.stats.missed + 1}},
        opened := r.close r.sched.outstandingNode,misses := r.misses + r.closed r.sched.outstandingNode} := by
      simp [PollRun.call,gone]
    cases acc.one with
    | none closed => exact absurd (closed.symm.trans open_) Bool.false_ne_true
    | poll at_ due _ one =>
      obtain ⟨empty,single⟩ := close_own one
      have sends := acc.sends
      rw [called,empty,single]
      refine ⟨?_,wide.dues,wide.stamped,.none rfl rfl,?_,?_⟩
      · intro k member
        exact ⟨(acc.named k member).1,(acc.named k member).2.1,rfl⟩
      · change r.sends = r.answers + (r.misses + 1) + 0
        rw [one] at sends
        simp only [List.length_cons,List.length_nil] at sends
        omega
      · change ({r.sched.stats with missed := r.sched.stats.missed + 1} : PollStats) = _
        rw [acc.stats,stamp_succ]
  · obtain ⟨known,due,_⟩ := mostOverdue_spec picked
    have called : r.call (.next time mayStart) = {r with asked := node :: r.asked} := by
      simp [PollRun.call,asks]
    rw [called]
    refine ⟨?_,wide.dues,wide.stamped,?_,wide.sends,wide.stats⟩
    · intro k member
      rcases List.mem_cons.mp member with rfl | earlier
      · exact ⟨known,(late_due due).1,idle⟩
      · exact acc.named k earlier
    · cases wide.one with
      | none closed empty => exact .none closed empty
      | poll at_ falls open_ one marked inTable told due soon => exact .poll at_ falls open_ one marked inTable told due soon

theorem accounted_enrol (c : PollCall) (node : NodeId) (acc : Accounted calls r) :
    Accounted (calls ++ [c]) {r with sched := r.sched.enrol node} := by
  have wide := acc.told c
  obtain ⟨dues,stamped,in_⟩ := wide.enrolled (enrol_enrolls r.sched node)
  obtain ⟨outstanding,own,sentMs,stats⟩ := enrol_rest r.sched node
  refine ⟨?_,dues,stamped,?_,wide.sends,?_⟩
  · intro k member
    obtain ⟨known,enrolled,idle⟩ := acc.named k member
    exact ⟨known,in_ k enrolled,outstanding.trans idle⟩
  · cases wide.one with
    | none closed empty => exact .none (outstanding.trans closed) empty
    | poll at_ falls open_ one marked inTable told due soon =>
      exact .poll at_ falls (outstanding.trans open_) (one.trans (by rw [← own])) (sentMs.trans marked) (own ▸ inTable) told
        (own ▸ due) soon
  · exact stats.trans acc.stats

-- Whether a frame from a node answers the poll on the air.
theorem answers_iff (acc : Accounted calls r) (node : NodeId) :
    (r.sched.outstanding = true ∧ r.sched.outstandingNode = node) ↔ ∃ time, r.opened = [(node,time)] := by
  cases acc.one with
  | none closed empty =>
    rw [closed,empty]
    simp
  | poll at_ due open_ one =>
    rw [open_,one]
    constructor
    · rintro ⟨_,rfl⟩
      exact ⟨at_,rfl⟩
    · rintro ⟨time,same⟩
      simp only [List.cons.injEq,Prod.mk.injEq,and_true] at same
      exact ⟨rfl,same.1⟩

theorem opened_apart (acc : Accounted calls r) (node : NodeId) (silent : ¬(r.sched.outstanding = true ∧ r.sched.outstandingNode = node)) :
    ∀ p ∈ r.opened, p.1 ≠ node := by
  cases acc.one with
  | none _ empty =>
    rw [empty]
    intro p member
    cases member
  | poll at_ due open_ one =>
    rw [one]
    intro p member same
    rw [List.mem_singleton] at member
    subst member
    exact silent ⟨open_,same⟩

theorem accounted_heard (node : NodeId) (time : Nat) (acc : Accounted calls r) :
    Accounted (calls ++ [.heard node time]) (r.call (.heard node time)) := by
  have wide := acc.told (.heard node time)
  by_cases own : r.sched.outstanding = true ∧ r.sched.outstandingNode = node
  · obtain ⟨at_,one⟩ := (answers_iff acc node).mp own
    obtain ⟨empty,single⟩ := close_own one
    have known : registered node = true := by
      cases acc.one with
      | none closed => exact absurd (closed.symm.trans own.1) Bool.false_ne_true
      | poll _ _ _ _ _ inTable => exact own.2 ▸ inTable
    have called : r.call (.heard node time) = {r with sched := r.sched.answered.enrol node,opened := [],answers := r.answers + 1} := by
      simp only [PollRun.call,onHeard_eq r.sched node (stamp time) known,if_pos own,empty,single]
    have enrols := enrol_enrolls r.sched.answered node
    obtain ⟨dues,stamped,in_⟩ := wide.enrolled enrols
    obtain ⟨outstanding,_,_,stats⟩ := enrol_rest r.sched.answered node
    have sends := acc.sends
    rw [one,List.length_singleton] at sends
    rw [called]
    refine ⟨?_,dues,stamped,.none outstanding rfl,?_,?_⟩
    · intro k member
      obtain ⟨inTable,enrolled,_⟩ := acc.named k member
      exact ⟨inTable,in_ k enrolled,outstanding⟩
    · change r.sends = r.answers + 1 + r.misses + 0
      omega
    · change (r.sched.answered.enrol node).stats = _
      rw [stats]
      change ({r.sched.stats with answered := r.sched.stats.answered + 1} : PollStats) = _
      rw [acc.stats,stamp_succ]
  · obtain ⟨same,none_⟩ := close_other (opened_apart acc node own)
    by_cases known : registered node = true
    · have called : r.call (.heard node time) = {r with sched := r.sched.enrol node} := by
        simp only [PollRun.call,onHeard_eq r.sched node (stamp time) known,if_neg own,same,none_,Nat.add_zero]
      rw [called]
      exact accounted_enrol (.heard node time) node acc
    · have called : r.call (.heard node time) = r := by
        simp only [PollRun.call,PollScheduler.onHeard,known,Bool.not_false,if_true,same,none_,Nat.add_zero]
      rw [called]
      exact wide

theorem accounted_timeout (ms : UInt32) (acc : Accounted calls r) : Accounted (calls ++ [.timeout ms]) (r.call (.timeout ms)) := by
  have wide := acc.told (.timeout ms)
  refine ⟨wide.named,wide.dues,wide.stamped,?_,wide.sends,wide.stats⟩
  cases wide.one with
  | none closed empty => exact .none closed empty
  | poll at_ falls open_ one marked inTable told due soon => exact .poll at_ falls open_ one marked inTable told due soon

theorem accounted_call (c : PollCall) (acc : Accounted calls r)
    (asked : ∀ node intervalS time, c = .sent node intervalS time → node ∈ r.asked ∧ intervalS ≠ 0) :
    Accounted (calls ++ [c]) (r.call c) := by
  cases c with
  | next time mayStart => exact accounted_next time mayStart acc
  | sent node intervalS time =>
    obtain ⟨named,positive⟩ := asked node intervalS time rfl
    exact accounted_sent acc named positive
  | heard node time => exact accounted_heard node time acc
  | enrol node => exact accounted_enrol (.enrol node) node acc
  | timeout ms => exact accounted_timeout ms acc

end Step

theorem accounted (calls : List PollCall) (fair : FairCalls calls) : Accounted calls (polled calls) := by
  induction calls using List.reverseRecOn with
  | nil =>
    refine ⟨?_,?_,?_,.none rfl rfl,rfl,rfl⟩
    · intro node member
      cases member
    · intro node
      exact ⟨fun on => (by cases on),fun some_ => absurd rfl some_⟩
    · intro node due falls
      cases falls
  | append_singleton calls c ih =>
    obtain ⟨prior,now⟩ := (always_snoc calls c).mp fair
    rw [polled_snoc]
    exact accounted_call c (ih prior) now.asked

section Turn

variable {calls : List PollCall} {r : PollRun} {time : Nat}

-- A row whose time has come is late by the true difference; one whose time is yet to come is not late at all.
theorem late_of_due (acc : Accounted calls r) (node : NodeId) (due : Nat) (falls : r.due node = some due) (come : due ≤ time)
    (near : time < due + 2147483648) : ∃ late, (r.sched.rows node).late (stamp time) = some late ∧ late.toNat = time - due := by
  obtain ⟨stamped,enrolled,_⟩ := acc.stamped node due falls
  have set_ : (r.sched.rows node).dueSet = true := (acc.dues node).mpr (by rw [falls]; exact Option.some_ne_none due)
  have span := stamp_sub due time come
  rw [Nat.mod_eq_of_lt (by omega)] at span
  have hit : reached (stamp time) (stamp due) = true := by
    simp only [reached,span,decide_eq_true_eq]
    omega
  refine ⟨stamp time - stamp due,?_,span⟩
  unfold PollRow.late
  rw [enrolled,set_,stamped,hit]
  simp

theorem late_never (acc : Accounted calls r) (node : NodeId) (enrolled : (r.sched.rows node).enrolled = true) (never : r.due node = none) :
    (r.sched.rows node).late (stamp time) = some 0xFFFFFFFF := by
  have unset : (r.sched.rows node).dueSet = false := by
    rw [Bool.eq_false_iff]
    intro on
    exact (acc.dues node).mp on never
  unfold PollRow.late
  rw [enrolled,unset]
  simp

theorem late_bound (acc : Accounted calls r) (node : NodeId) (due : Nat) (falls : r.due node = some due) (late : UInt32)
    (known : (r.sched.rows node).late (stamp time) = some late) (onward : ∀ x ∈ calls, ∀ before, x.time = some before → before ≤ time)
    (near : time < due + 2147483648) : due ≤ time ∧ late.toNat = time - due := by
  obtain ⟨stamped,_,x,member,sent,at_,after_,soon⟩ := acc.stamped node due falls
  have set_ : (r.sched.rows node).dueSet = true := (acc.dues node).mpr (by rw [falls]; exact Option.some_ne_none due)
  obtain ⟨hit,span⟩ := (late_due known).2.2 set_
  have earlier := onward x member sent at_
  rw [stamped] at hit span
  have come : due ≤ time := by
    by_contra ahead
    simp only [reached,decide_eq_true_eq,UInt32.toNat_sub,stamp_toNat] at hit
    omega
  refine ⟨come,?_⟩
  rw [span,stamp_sub due time come,Nat.mod_eq_of_lt (by omega)]

-- A node polled since another fell due is not named before it.
theorem named_in_turn (acc : Accounted calls r) (x y : NodeId) (from_ dueY : Nat) (late : UInt32)
    (picked : r.sched.mostOverdue (stamp time) = some (y,late)) (enrolled : r.sched.isEnrolled x = true)
    (due : ∀ d, r.due x = some d → d ≤ from_) (falls : r.due y = some dueY) (later : from_ < dueY)
    (served : ∀ node d, r.due node = some d → time < d + 2147483648)
    (onward : ∀ c ∈ calls, ∀ before, c.time = some before → before ≤ time) : False := by
  obtain ⟨_,known,first⟩ := mostOverdue_spec picked
  obtain ⟨come,span⟩ := late_bound acc y dueY falls late known onward (served y dueY falls)
  unfold PollScheduler.isEnrolled at enrolled
  rw [Bool.and_eq_true] at enrolled
  cases hx : r.due x with
  | none =>
    have above := first x enrolled.1 _ (late_never acc x enrolled.2 hx)
    have value := UInt32.le_iff_toNat_le.mp above
    have near := served y dueY falls
    change 4294967295 ≤ late.toNat at value
    omega
  | some dueX =>
    have early := due dueX hx
    obtain ⟨lateX,own,spanX⟩ : ∃ l, (r.sched.rows x).late (stamp time) = some l ∧ l.toNat = time - dueX :=
      late_of_due acc x dueX hx (by omega) (served x dueX hx)
    have above := UInt32.le_iff_toNat_le.mp (first x enrolled.1 _ own)
    omega

end Turn

def sentTo (node : NodeId) (calls : List PollCall) : Nat :=
  calls.countP fun c => match c with
    | .sent k _ _ => k == node
    | _ => false

def Names (pre : List PollCall) (node : NodeId) (c : PollCall) : Prop :=
  ∃ time mayStart, c = .next time mayStart ∧ ((polled pre).sched.next (stamp time) mayStart).2 = .poll node

-- An enrolled node that has fallen due by `from_` and that `next` has not named since, and the calls from then on that do not either.
structure Waits (pre : List PollCall) (node : NodeId) (from_ : Nat) (mid : List PollCall) : Prop where
  enrolled : (polled pre).sched.isEnrolled node = true
  due : ∀ d, (polled pre).due node = some d → d ≤ from_
  unasked : node ∉ (polled pre).asked
  later : ∀ c ∈ mid, ∀ time, c.time = some time → from_ ≤ time
  unnamed : ∀ before c after, mid = before ++ c :: after → ¬Names (pre ++ before) node c

theorem Waits.init {pre mid : List PollCall} {node : NodeId} {from_ : Nat} {c : PollCall} (waits : Waits pre node from_ (mid ++ [c])) :
    Waits pre node from_ mid := by
  refine ⟨waits.enrolled,waits.due,waits.unasked,?_,?_⟩
  · intro x member
    exact waits.later x (List.mem_append_left _ member)
  · intro before x after split_
    exact waits.unnamed before x (after ++ [c]) (by rw [split_,List.append_assoc,List.cons_append])

-- What holds of a run while a node waits.
structure Waiting (x y : NodeId) (from_ count : Nat) (r : PollRun) : Prop where
  enrolled : r.sched.isEnrolled x = true
  due : ∀ d, r.due x = some d → d ≤ from_
  unasked : x ∉ r.asked
  turn : count = 0 ∨ count = 1 ∧ y ∉ r.asked ∧ ∃ d, r.due y = some d ∧ from_ < d

theorem sentTo_snoc (node : NodeId) (mid : List PollCall) (c : PollCall) : sentTo node (mid ++ [c]) = sentTo node mid + sentTo node [c] := by
  unfold sentTo
  exact List.countP_append

-- Rows stay enrolled.
theorem enrolled_stays {calls : List PollCall} {r : PollRun} {node : NodeId} (acc : Accounted calls r) (c : PollCall)
    (enrolled : r.sched.isEnrolled node = true) : (r.call c).sched.isEnrolled node = true := by
  unfold PollScheduler.isEnrolled at enrolled ⊢
  rw [Bool.and_eq_true] at enrolled ⊢
  refine ⟨enrolled.1,?_⟩
  have grown : ∀ s', Enrolls r.sched s' → (s'.rows node).enrolled = true := fun s' grows => (acc.enrolled grows).2.2 node enrolled.2
  cases c with
  | next time mayStart =>
    rcases next_cases r.sched (stamp time) mayStart with quiet | ⟨_,gone⟩ | ⟨_,_,_,_,asks⟩
    · simp only [PollRun.call,quiet]
      exact enrolled.2
    · simp only [PollRun.call,gone]
      exact enrolled.2
    · simp only [PollRun.call,asks]
      exact enrolled.2
  | sent k intervalS time =>
    simp only [PollRun.call,PollScheduler.onSent]
    split
    · exact enrolled.2
    · by_cases same : node = k
      · subst same
        simp [enrolled.2]
      · simp only [Function.update_of_ne same]
        exact enrolled.2
  | heard k time =>
    simp only [PollRun.call]
    by_cases known : registered k = true
    · rw [onHeard_eq r.sched k (stamp time) known]
      split
      · exact grown _ (enrol_enrolls r.sched.answered k)
      · exact grown _ (enrol_enrolls r.sched k)
    · simp only [PollScheduler.onHeard,known,Bool.not_false,if_true]
      exact enrolled.2
  | enrol k => exact grown _ (enrol_enrolls r.sched k)
  | timeout ms => exact enrolled.2

-- One call of a run in which `x` waits.
theorem waiting_call {calls : List PollCall} {x y : NodeId} {from_ count : Nat} {c : PollCall} (acc : Accounted calls (polled calls))
    (fair : FairCall calls c) (later : ∀ time, c.time = some time → from_ ≤ time) (unnamed : ¬Names calls x c)
    (waiting : Waiting x y from_ count (polled calls)) : Waiting x y from_ (count + sentTo y [c]) ((polled calls).call c) := by
  have enrolled := enrolled_stays acc c waiting.enrolled
  cases c with
  | next time mayStart =>
    have quietly : sentTo y [.next time mayStart] = 0 := rfl
    rw [quietly,Nat.add_zero]
    rcases next_cases (polled calls).sched (stamp time) mayStart with quiet | ⟨_,gone⟩ | ⟨node,late,idle,picked,asks⟩
    · have called : (polled calls).call (.next time mayStart) = polled calls := by
        simp [PollRun.call,quiet]
      rw [called]
      exact waiting
    · refine ⟨enrolled,?_,?_,?_⟩
      all_goals simp only [PollRun.call,gone]
      · exact waiting.due
      · exact waiting.unasked
      · exact waiting.turn
    · have other : node ≠ x := by
        rintro rfl
        exact unnamed ⟨time,mayStart,rfl,by rw [asks]⟩
      refine ⟨enrolled,?_,?_,?_⟩
      all_goals simp only [PollRun.call,asks]
      · exact waiting.due
      · rw [List.mem_cons,not_or]
        exact ⟨other.symm,waiting.unasked⟩
      · rcases waiting.turn with none_ | ⟨once,out,dueY,falls,past⟩
        · exact .inl none_
        · refine .inr ⟨once,?_,dueY,falls,past⟩
          rw [List.mem_cons,not_or]
          refine ⟨?_,out⟩
          rintro rfl
          exact named_in_turn acc x y from_ dueY late picked waiting.enrolled waiting.due falls past
            (fun k d due => fair.served k d time due rfl) (fun b member before told => fair.onward b member before time told rfl)
  | sent node intervalS time =>
    obtain ⟨named,positive⟩ := fair.asked node intervalS time rfl
    have other : node ≠ x := by
      rintro rfl
      exact waiting.unasked named
    have interval : 0 < intervalS.toNat := by
      refine Nat.pos_of_ne_zero ?_
      intro zero
      exact positive (UInt16.toNat_inj.mp zero)
    have now := later time rfl
    refine ⟨enrolled,?_,List.not_mem_nil,?_⟩
    · intro d falls
      simp only [PollRun.call,Function.update_of_ne other.symm] at falls
      exact waiting.due d falls
    · by_cases same : node = y
      · subst same
        have single : sentTo node [.sent node intervalS time] = 1 := by simp [sentTo]
        rcases waiting.turn with none_ | ⟨_,out,_⟩
        · refine .inr ⟨by rw [none_,single],List.not_mem_nil,time + intervalS.toNat * 1000,?_,by omega⟩
          simp [PollRun.call]
        · exact absurd named out
      · have none_ : sentTo y [.sent node intervalS time] = 0 := by simp [sentTo,same]
        rw [none_,Nat.add_zero]
        rcases waiting.turn with zero | ⟨once,_,dueY,falls,past⟩
        · exact .inl zero
        · refine .inr ⟨once,List.not_mem_nil,dueY,?_,past⟩
          simp only [PollRun.call]
          rw [Function.update_of_ne (Ne.symm same)]
          exact falls
  | heard node time => exact ⟨enrolled,waiting.due,waiting.unasked,waiting.turn⟩
  | enrol node => exact ⟨enrolled,waiting.due,waiting.unasked,waiting.turn⟩
  | timeout ms => exact ⟨enrolled,waiting.due,waiting.unasked,waiting.turn⟩

theorem waits_run (pre mid : List PollCall) (x y : NodeId) (from_ : Nat) (fair : FairCalls (pre ++ mid))
    (waits : Waits pre x from_ mid) : Waiting x y from_ (sentTo y mid) (polled (pre ++ mid)) := by
  induction mid using List.reverseRecOn with
  | nil =>
    rw [List.append_nil]
    exact ⟨waits.enrolled,waits.due,waits.unasked,.inl rfl⟩
  | append_singleton mid c ih =>
    rw [← List.append_assoc] at fair ⊢
    obtain ⟨prior,now⟩ := (always_snoc (pre ++ mid) c).mp fair
    rw [polled_snoc,sentTo_snoc]
    refine waiting_call (accounted _ prior) now ?_ ?_ (ih prior waits.init)
    · exact waits.later c (List.mem_append_right _ List.mem_cons_self)
    · exact waits.unnamed mid c [] rfl

theorem stamp_add (a b : Nat) : stamp (a + b) = stamp a + stamp b := by
  apply UInt32.toNat_inj.mp
  rw [UInt32.toNat_add,stamp_toNat,stamp_toNat,stamp_toNat]
  omega

theorem answer_time {calls : List PollCall} (acc : Accounted calls (polled calls)) (node : NodeId) (time sent : Nat)
    (fair : FairCall calls (.heard node time)) (open_ : (node,sent) ∈ (polled calls).opened) :
    (polled calls).sched.outstanding = true ∧ (polled calls).sched.outstandingNode = node ∧ registered node = true ∧
      (stamp time - (polled calls).sched.sentMs).toNat = time - sent ∧ stamp time - (polled calls).sched.sentMs ≠ notAnAnswer := by
  cases acc.one with
  | none _ empty =>
    rw [empty] at open_
    cases open_
  | poll at_ due on one marked known told falls soon =>
    rw [one,List.mem_singleton,Prod.mk.injEq] at open_
    obtain ⟨own,rfl⟩ := open_
    obtain ⟨c,member,when⟩ := told
    have onward := fair.onward c member sent time when rfl
    have near := fair.served _ due time falls rfl
    have span := stamp_sub sent time onward
    rw [Nat.mod_eq_of_lt (by omega)] at span
    rw [marked]
    refine ⟨on,own.symm,own ▸ known,span,?_⟩
    intro max
    rw [max] at span
    change 4294967295 = time - sent at span
    omega

theorem polling_fair_and_accounted (calls : List PollCall) (fair : FairCalls calls) :
    (polled calls).opened.length ≤ 1 ∧
    ((polled calls).sched.outstanding = true ↔ (polled calls).opened ≠ []) ∧
    (polled calls).sched.stats.sent = (polled calls).sched.stats.answered + (polled calls).sched.stats.missed +
      (if (polled calls).sched.outstanding then 1 else 0) ∧
    (polled calls).sends = (polled calls).answers + (polled calls).misses + (polled calls).opened.length ∧
    (polled calls).sched.stats =
      {sent := stamp (polled calls).sends,answered := stamp (polled calls).answers,missed := stamp (polled calls).misses} ∧
    (∀ node time, FairCall calls (.heard node time) →
      (∀ sent, (node,sent) ∈ (polled calls).opened →
        ((polled calls).sched.onHeard node (stamp time)).2.toNat = time - sent ∧
        ((polled calls).sched.onHeard node (stamp time)).2 ≠ notAnAnswer ∧
        ((polled calls).sched.onHeard node (stamp time)).1.stats.answered = (polled calls).sched.stats.answered + 1 ∧
        ((polled calls).sched.onHeard node (stamp time)).1.outstanding = false) ∧
      ((∀ sent, (node,sent) ∉ (polled calls).opened) →
        ((polled calls).sched.onHeard node (stamp time)).2 = notAnAnswer ∧
        ((polled calls).sched.onHeard node (stamp time)).1.stats = (polled calls).sched.stats ∧
        ((polled calls).sched.onHeard node (stamp time)).1.outstanding = (polled calls).sched.outstanding)) ∧
    ∀ pre mid x y from_, calls = pre ++ mid → Waits pre x from_ mid → y ≠ x → sentTo y mid ≤ 1 := by
  have acc := accounted calls fair
  refine ⟨?_,?_,?_,acc.sends,acc.stats,?_,?_⟩
  · cases acc.one with
    | none _ empty => rw [empty]; exact Nat.zero_le 1
    | poll at_ due on one => rw [one]; exact Nat.le_refl 1
  · cases acc.one with
    | none closed empty => rw [closed,empty]; simp
    | poll at_ due on one => rw [on,one]; simp
  · rw [acc.stats,acc.sends,stamp_add,stamp_add]
    cases acc.one with
    | none closed empty => rw [closed,empty]; rfl
    | poll at_ due on one => rw [on,one]; rfl
  · intro node time heard
    refine ⟨?_,?_⟩
    · intro sent open_
      obtain ⟨on,own,known,span,answer⟩ := answer_time acc node time sent heard open_
      obtain ⟨outstanding,_,_,stats⟩ := enrol_rest (polled calls).sched.answered node
      rw [onHeard_eq _ node _ known,if_pos ⟨on,own⟩]
      exact ⟨span,answer,by rw [stats]; rfl,outstanding⟩
    · intro closed
      have silent : ¬((polled calls).sched.outstanding = true ∧ (polled calls).sched.outstandingNode = node) := by
        intro own
        obtain ⟨at_,one⟩ := (answers_iff acc node).mp own
        exact closed at_ (by rw [one]; exact List.mem_singleton_self _)
      obtain ⟨outstanding,_,_,stats⟩ := enrol_rest (polled calls).sched node
      by_cases known : registered node = true
      · rw [onHeard_eq _ node _ known,if_neg silent]
        exact ⟨rfl,stats,outstanding⟩
      · simp [PollScheduler.onHeard,known]
  · rintro pre mid x y from_ rfl waits apart
    rcases (waits_run pre mid x y from_ fair waits).turn with none_ | ⟨once,_⟩
    · omega
    · omega

theorem enrol_fair (pre : List PollCall) (node : NodeId) : FairCall pre (.enrol node) := by
  refine ⟨?_,?_,?_⟩
  · intro _ _ _ _ _ timed
    cases timed
  · intro _ _ _ own
    cases own
  · intro _ _ _ _ timed
    cases timed

-- Two nodes deployed as the counter turns over: the first is polled and answers 600 ms later, past the turn.

def deployedPair : List PollCall := [.enrol 1,.enrol 2]

def firstPoll : List PollCall := [.next 4294967000 true,.sent 1 60 4294967000]

theorem polling_fair_and_accounted_pair :
    ((polled (deployedPair ++ firstPoll)).sched.onHeard 1 (stamp 4294967600)).2.toNat = 600 ∧ sentTo 1 firstPoll ≤ 1 := by
  have dues : ∀ node due, (polled (deployedPair ++ firstPoll)).due node = some due → due = 4295027000 := by
    intro node due falls
    change Function.update (fun _ => none) 1 (some 4295027000) node = some due at falls
    by_cases first : node = 1
    · subst first
      rw [Function.update_self] at falls
      exact (Option.some.inj falls).symm
    · rw [Function.update_of_ne first] at falls
      cases falls
  have fair : FairCalls (deployedPair ++ firstPoll) := by
    refine (always_snoc [PollCall.enrol 1,.enrol 2,.next 4294967000 true] _).mpr ⟨(always_snoc [PollCall.enrol 1,.enrol 2] _).mpr
      ⟨(always_snoc [PollCall.enrol 1] _).mpr ⟨(always_snoc [] _).mpr ⟨always_nil,?_⟩,?_⟩,?_⟩,?_⟩
    · exact enrol_fair [] 1
    · exact enrol_fair [.enrol 1] 2
    · refine ⟨?_,fun _ _ _ own => (by cases own),fun _ _ _ falls => (by cases falls)⟩
      intro x member before after told
      simp only [List.mem_cons,List.not_mem_nil,or_false] at member
      rcases member with rfl | rfl <;> cases told
    · refine ⟨?_,?_,fun _ _ _ falls => (by cases falls)⟩
      · intro x member before after told own
        simp only [List.mem_cons,List.not_mem_nil,or_false] at member
        rcases member with rfl | rfl | rfl <;> cases told
        cases own
        exact Nat.le_refl _
      · intro node intervalS time own
        cases own
        exact ⟨by decide +kernel,by decide⟩
  have law := polling_fair_and_accounted (deployedPair ++ firstPoll) fair
  obtain ⟨_,_,_,_,_,heard,turn⟩ := law
  have answer : FairCall (deployedPair ++ firstPoll) (.heard 1 4294967600) := by
    refine ⟨?_,fun _ _ _ own => (by cases own),?_⟩
    · intro x member before after told own
      change x ∈ [PollCall.enrol 1,.enrol 2,.next 4294967000 true,.sent 1 60 4294967000] at member
      simp only [List.mem_cons,List.not_mem_nil,or_false] at member
      cases own
      rcases member with rfl | rfl | rfl | rfl <;> cases told <;> exact Nat.le_of_ble_eq_true rfl
    · intro node due time falls own
      cases own
      rw [dues node due falls]
      exact Nat.le_of_ble_eq_true rfl
  refine ⟨((heard 1 4294967600 answer).1 4294967000 (by decide +kernel)).1,turn deployedPair firstPoll 2 1 0 rfl ?_ (by decide)⟩
  refine ⟨by decide +kernel,fun d falls => (by cases falls),by decide +kernel,fun _ _ _ _ => Nat.zero_le _,?_⟩
  intro before c after split_
  rintro ⟨time,mayStart,rfl,named⟩
  rcases before with - | ⟨b,before⟩
  · cases split_
    revert named
    decide +kernel
  · rcases before with - | ⟨b',before⟩
    · cases split_
    · simp [firstPoll] at split_

end LoraRan.Bridge
