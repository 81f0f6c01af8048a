import LoraRan.Bridge.Registry
import LoraRan.Library.Clock
import LoraRan.Library.Occurrence

namespace LoraRan.Bridge
open Protocol
open Library.Clock
open Library.Occurrence

def pollReplyTimeoutDefaultMs : UInt32 := 10000

def notAnAnswer : UInt32 := 0xFFFFFFFF

inductive PollStep where
  | none
  | poll (node : NodeId)
  | missed (node : NodeId)
  deriving DecidableEq, Repr

structure PollStats where
  sent : UInt32 := 0
  answered : UInt32 := 0
  missed : UInt32 := 0
  deriving DecidableEq, Repr

structure PollRow where
  enrolled : Bool := false
  dueSet : Bool := false
  dueMs : UInt32 := 0
  sentMs : UInt32 := 0
  deriving DecidableEq, Repr

structure PollScheduler where
  rows : NodeId → PollRow := fun _ => {}
  outstanding : Bool := false
  outstandingNode : NodeId := 0
  sentMs : UInt32 := 0
  replyTimeoutMs : UInt32 := pollReplyTimeoutDefaultMs
  stats : PollStats := {}

def intervalMs (intervalS : UInt16) : UInt32 := (if intervalS = 0 then 1 else intervalS.toUInt32) * 1000

-- How late a row is, when it takes part at all. A row never polled counts as later than any other.
def PollRow.late (r : PollRow) (nowMs : UInt32) : Option UInt32 :=
  if !r.enrolled then none
  else if r.dueSet ∧ !reached nowMs r.dueMs then none
  else some (if r.dueSet then nowMs - r.dueMs else 0xFFFFFFFF)

def laterOf (s : PollScheduler) (nowMs : UInt32) (best : Option (NodeId × UInt32)) (id : NodeId) : Option (NodeId × UInt32) :=
  match (s.rows id).late nowMs with
  | none => best
  | some late =>
    match best with
    | none => some (id,late)
    | some (held,heldLate) => if heldLate < late then some (id,late) else some (held,heldLate)

def PollScheduler.mostOverdue (s : PollScheduler) (nowMs : UInt32) : Option (NodeId × UInt32) := nodeTable.foldl (laterOf s nowMs) none

def PollScheduler.next (s : PollScheduler) (nowMs : UInt32) (mayStart : Bool) : PollScheduler × PollStep :=
  if s.outstanding then
    if nowMs - s.sentMs < s.replyTimeoutMs then (s,.none)
    else ({s with outstanding := false,stats := {s.stats with missed := s.stats.missed + 1}},.missed s.outstandingNode)
  else if !mayStart then (s,.none)
  else
    match s.mostOverdue nowMs with
    | none => (s,.none)
    | some (node,_) => (s,.poll node)

def PollScheduler.onSent (s : PollScheduler) (node : NodeId) (intervalS : UInt16) (nowMs : UInt32) : PollScheduler :=
  if !registered node then s
  else
    let row := {s.rows node with dueMs := nowMs + intervalMs intervalS,dueSet := true,sentMs := nowMs}
    {s with rows := Function.update s.rows node row,outstanding := true,outstandingNode := node,sentMs := nowMs,
            stats := {s.stats with sent := s.stats.sent + 1}}

def PollScheduler.retime (s : PollScheduler) (node : NodeId) (intervalS : UInt16) : PollScheduler :=
  if !registered node ∨ !(s.rows node).dueSet then s
  else {s with rows := Function.update s.rows node {s.rows node with dueMs := (s.rows node).sentMs + intervalMs intervalS}}

def PollScheduler.enrol (s : PollScheduler) (node : NodeId) : PollScheduler :=
  if !registered node ∨ (s.rows node).enrolled then s
  else {s with rows := Function.update s.rows node {s.rows node with enrolled := true,dueSet := false}}

def PollScheduler.isEnrolled (s : PollScheduler) (node : NodeId) : Bool := registered node && (s.rows node).enrolled

def PollScheduler.onHeard (s : PollScheduler) (node : NodeId) (nowMs : UInt32) : PollScheduler × UInt32 :=
  if !registered node then (s,notAnAnswer)
  else
    let answers : Bool := s.outstanding && s.outstandingNode == node
    let s' := if answers then {s with outstanding := false,stats := {s.stats with answered := s.stats.answered + 1}} else s
    let answerMs := if answers then nowMs - s.sentMs else notAnAnswer
    if !(s'.rows node).enrolled then
      ({s' with rows := Function.update s'.rows node {s'.rows node with enrolled := true,dueSet := false}},answerMs)
    else (s',answerMs)

def PollScheduler.answered (s : PollScheduler) : PollScheduler :=
  {s with outstanding := false,stats := {s.stats with answered := s.stats.answered + 1}}

-- A frame heard: the poll it answers, if it does, and the enrolment.
theorem onHeard_eq (s : PollScheduler) (node : NodeId) (nowMs : UInt32) (known : registered node = true) :
    s.onHeard node nowMs =
      if s.outstanding = true ∧ s.outstandingNode = node then (s.answered.enrol node,nowMs - s.sentMs) else (s.enrol node,notAnAnswer) := by
  have enrolment : ∀ s' : PollScheduler, (if !(s'.rows node).enrolled then
      {s' with rows := Function.update s'.rows node {s'.rows node with enrolled := true,dueSet := false}} else s') = s'.enrol node := by
    intro s'
    unfold PollScheduler.enrol
    cases he : (s'.rows node).enrolled <;> simp [known]
  unfold PollScheduler.onHeard
  rw [if_neg (by simp [known])]
  by_cases own : s.outstanding = true ∧ s.outstandingNode = node
  · have answers : (s.outstanding && s.outstandingNode == node) = true := by simp [own]
    rw [answers,if_pos own,← enrolment]
    simp only [if_true]
    exact (apply_ite (fun s' : PollScheduler => (s',nowMs - s.sentMs)) _ _ _).symm
  · have silent : (s.outstanding && s.outstandingNode == node) = false := by
      rw [Bool.eq_false_iff]
      intro answers
      rw [Bool.and_eq_true,beq_iff_eq] at answers
      exact own answers
    rw [silent,if_neg own,← enrolment]
    simp only [Bool.false_eq_true,if_false]
    exact (apply_ite (fun s' : PollScheduler => (s',notAnAnswer)) _ _ _).symm

theorem enrol_rest (s : PollScheduler) (node : NodeId) : (s.enrol node).outstanding = s.outstanding ∧
    (s.enrol node).outstandingNode = s.outstandingNode ∧ (s.enrol node).sentMs = s.sentMs ∧ (s.enrol node).stats = s.stats := by
  unfold PollScheduler.enrol
  split <;> exact ⟨rfl,rfl,rfl,rfl⟩

theorem late_due {r : PollRow} {nowMs late : UInt32} (due : r.late nowMs = some late) :
    r.enrolled = true ∧ (r.dueSet = false → late = 0xFFFFFFFF) ∧
      (r.dueSet = true → reached nowMs r.dueMs = true ∧ late = nowMs - r.dueMs) := by
  unfold PollRow.late at due
  split at due
  · cases due
  · rename_i enrolled
    split at due
    · cases due
    · rename_i open_
      cases hs : r.dueSet with
      | false =>
        rw [hs] at due
        refine ⟨by simpa using enrolled,fun _ => (Option.some.inj due).symm,fun on => by cases on⟩
      | true =>
        rw [hs] at due open_
        refine ⟨by simpa using enrolled,fun off => (by cases off),fun _ => ⟨by simpa using open_,(Option.some.inj due).symm⟩⟩

-- One row against the best so far.
theorem laterOf_cases (s : PollScheduler) (nowMs : UInt32) (best : Option (NodeId × UInt32)) (id : NodeId) :
    (laterOf s nowMs best id = best ∨ ∃ late, (s.rows id).late nowMs = some late ∧ laterOf s nowMs best id = some (id,late)) ∧
      (∀ held heldLate, best = some (held,heldLate) → ∃ k late, laterOf s nowMs best id = some (k,late) ∧ heldLate ≤ late) ∧
      ∀ other, (s.rows id).late nowMs = some other → ∃ k late, laterOf s nowMs best id = some (k,late) ∧ other ≤ late := by
  unfold laterOf
  cases hl : (s.rows id).late nowMs with
  | none =>
    refine ⟨.inl rfl,?_,?_⟩
    · intro held heldLate same
      exact ⟨held,heldLate,same,UInt32.le_refl _⟩
    · intro other known
      cases known
  | some late =>
    cases best with
    | none =>
      refine ⟨.inr ⟨late,rfl,rfl⟩,?_,?_⟩
      · intro held heldLate same
        cases same
      · intro other known
        cases known
        exact ⟨id,late,rfl,UInt32.le_refl _⟩
    | some pair =>
      obtain ⟨held,heldLate⟩ := pair
      dsimp only
      split
      · rename_i later
        refine ⟨.inr ⟨late,rfl,rfl⟩,?_,?_⟩
        · intro k other same
          cases same
          exact ⟨id,late,rfl,UInt32.le_of_lt later⟩
        · intro other known
          cases known
          exact ⟨id,late,rfl,UInt32.le_refl _⟩
      · rename_i earlier
        refine ⟨.inl rfl,?_,?_⟩
        · intro k other same
          cases same
          exact ⟨held,heldLate,rfl,UInt32.le_refl _⟩
        · intro other known
          cases known
          exact ⟨held,heldLate,rfl,UInt32.not_lt.mp earlier⟩

-- The fold over the table keeps the latest of what it has passed.
theorem laterOf_fold (s : PollScheduler) (nowMs : UInt32) (ids : List NodeId) (best : Option (NodeId × UInt32)) (node : NodeId) (late : UInt32)
    (picked : ids.foldl (laterOf s nowMs) best = some (node,late)) :
    (best = some (node,late) ∨ node ∈ ids ∧ (s.rows node).late nowMs = some late) ∧
      (∀ held heldLate, best = some (held,heldLate) → heldLate ≤ late) ∧
      ∀ id ∈ ids, ∀ other, (s.rows id).late nowMs = some other → other ≤ late := by
  induction ids generalizing best with
  | nil =>
    rw [List.foldl_nil] at picked
    subst picked
    refine ⟨.inl rfl,?_,?_⟩
    · intro held heldLate same
      cases same
      exact UInt32.le_refl _
    · intro id member
      cases member
  | cons id ids ih =>
    rw [List.foldl_cons] at picked
    obtain ⟨from_,above,all⟩ := ih _ picked
    obtain ⟨kept,passed,own⟩ := laterOf_cases s nowMs best id
    refine ⟨?_,?_,?_⟩
    · rcases from_ with held | ⟨member,known⟩
      · rcases kept with same | ⟨l,known,taken⟩
        · exact .inl (same ▸ held)
        · rw [held] at taken
          cases taken
          exact .inr ⟨List.mem_cons_self,known⟩
      · exact .inr ⟨List.mem_cons_of_mem _ member,known⟩
    · intro held heldLate same
      obtain ⟨k,l,now,more⟩ := passed held heldLate same
      exact UInt32.le_trans more (above k l now)
    · intro k member other known
      rcases List.mem_cons.mp member with rfl | rest
      · obtain ⟨k',l,now,more⟩ := own other known
        exact UInt32.le_trans more (above k' l now)
      · exact all k rest other known

theorem mostOverdue_spec {s : PollScheduler} {nowMs late : UInt32} {node : NodeId} (picked : s.mostOverdue nowMs = some (node,late)) :
    registered node = true ∧ (s.rows node).late nowMs = some late ∧
      ∀ id, registered id = true → ∀ other, (s.rows id).late nowMs = some other → other ≤ late := by
  obtain ⟨from_,_,all⟩ := laterOf_fold s nowMs nodeTable none node late picked
  rcases from_ with absurd_ | ⟨member,known⟩
  · cases absurd_
  · refine ⟨List.contains_iff_mem.mpr member,known,?_⟩
    intro id inTable
    exact all id (List.contains_iff_mem.mp inTable)

-- What one call of `next` can be.
theorem next_cases (s : PollScheduler) (nowMs : UInt32) (mayStart : Bool) :
    (s.next nowMs mayStart = (s,.none)) ∨
    (s.outstanding = true ∧ s.next nowMs mayStart =
      ({s with outstanding := false,stats := {s.stats with missed := s.stats.missed + 1}},.missed s.outstandingNode)) ∨
    ∃ node late, s.outstanding = false ∧ s.mostOverdue nowMs = some (node,late) ∧ s.next nowMs mayStart = (s,.poll node) := by
  unfold PollScheduler.next
  cases ho : s.outstanding with
  | true =>
    by_cases waiting : nowMs - s.sentMs < s.replyTimeoutMs
    · exact .inl (by rw [if_pos rfl,if_pos waiting])
    · exact .inr (.inl ⟨rfl,by rw [if_pos rfl,if_neg waiting]⟩)
  | false =>
    cases mayStart with
    | false => exact .inl rfl
    | true =>
      cases hm : s.mostOverdue nowMs with
      | none => exact .inl rfl
      | some pair => exact .inr (.inr ⟨pair.1,pair.2,rfl,rfl,rfl⟩)

end LoraRan.Bridge
