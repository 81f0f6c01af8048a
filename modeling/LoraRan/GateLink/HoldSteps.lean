import LoraRan.GateLink.GateState

namespace LoraRan.GateLink

namespace GateTracker
section
variable (t : GateTracker) (inputs : UInt8) (nowMs : UInt32) (p : GateParams) (seen next : GateState)

-- What each part of an update leaves of the tracker.

def fireRises : Bool := t.primed && inputs &&& ~~~t.prevInputs &&& inFire != 0

def moved : Bool := t.lranClaimMoved || (decide (seen ≠ t.observed) && t.lranClaim)

theorem edges_parts : ∃ exitSeen exitMs fireSeen fireMs, t.edges inputs nowMs = {t with
    prevInputs := inputs,primed := true,exitSeen := exitSeen,exitMs := exitMs,fireSeen := fireSeen,fireMs := fireMs
    fireClaim := t.fireClaim || t.fireRises inputs} := by
  have rises : (if t.primed then inputs &&& ~~~t.prevInputs else 0) &&& inFire ≠ 0 ↔ t.fireRises inputs = true := by
    unfold fireRises
    cases t.primed with
    | true => simp
    | false => simp
  unfold edges
  dsimp only
  generalize (if t.primed then inputs &&& ~~~t.prevInputs else 0) = rising at rises ⊢
  by_cases fire : rising &&& inFire ≠ 0
  · rw [rises.mp fire,if_pos fire]
    split
    · exact ⟨_,_,_,_,by rw [Bool.or_true]⟩
    · exact ⟨_,_,_,_,by rw [Bool.or_true]⟩
  · have still : t.fireRises inputs = false := Bool.eq_false_iff.mpr fun is => fire (rises.mpr is)
    rw [still,if_neg fire]
    split
    · exact ⟨_,_,_,_,by rw [Bool.or_false]⟩
    · exact ⟨_,_,_,_,by rw [Bool.or_false]⟩

theorem claim_eq : t.claim seen nowMs p = {t with
    observed := seen,lranClaimMoved := t.moved seen
    lranClaim := t.lranClaim && (t.moved seen || within nowMs t.lranClaimMs p.causeWindowMs)} := by
  have whole : ∀ d : GateTracker, (if d.lranClaim && !d.lranClaimMoved && !within nowMs d.lranClaimMs p.causeWindowMs then {d with lranClaim := false} else d) =
      {d with lranClaim := d.lranClaim && (d.lranClaimMoved || within nowMs d.lranClaimMs p.causeWindowMs)} := by
    intro d
    obtain ⟨_,_,_,_,_,_,_,_,_,_,_,_,_,_,_,_,_,claim,moved,since,_⟩ := d
    cases claim <;> cases moved <;> cases within nowMs since p.causeWindowMs <;> rfl
  unfold claim moved
  dsimp only
  rw [whole]
  by_cases same : seen = t.observed
  · simp [same]
  · simp [same]

-- Since when the inputs have shown a hold, if they do.
def since : UInt32 := if t.holdCandidate then t.holdSinceMs else nowMs

theorem confirm_eq : t.confirm seen nowMs p =
    ({t with holdCandidate := decide (seen = .openHeld),holdSinceMs := if seen = .openHeld then t.since nowMs else t.holdSinceMs},
      if seen = .openHeld ∧ nowMs - t.since nowMs < p.holdConfirmMs then t.state else seen) := by
  unfold confirm since
  obtain ⟨_,_,_,_,candidate,_,_,_,_,_,_,_,_,_,_,_,_,_,_,_,_⟩ := t
  by_cases held : seen = .openHeld
  · subst held
    cases candidate with
    | true => simp
    | false => simp
  · simp [held]

theorem opening_parts : ∃ cause causePending, t.beginOpening nowMs p = {t with cause := cause,causePending := causePending} := by
  unfold beginOpening
  dsimp only
  split
  · exact ⟨_,_,rfl⟩
  · split
    · exact ⟨_,_,rfl⟩
    · split
      · exact ⟨_,_,rfl⟩
      · exact ⟨_,_,rfl⟩

-- What a move of the derived state touches besides the cause.
structure Moved (n : GateTracker) : Prop where
  state : n.state = next
  beforeHold : n.beforeHold = if next = .openHeld then t.state else t.beforeHold
  lranClaim : n.lranClaim = (t.lranClaim && next != .closed)
  fireClaim : n.fireClaim = (t.fireClaim && next != .closed)
  levels : n.prevInputs = t.prevInputs ∧ n.primed = t.primed ∧ n.observed = t.observed
  candidate : n.holdCandidate = t.holdCandidate ∧ n.holdSinceMs = t.holdSinceMs
  hold : n.held = t.held ∧ n.source = t.source
  claim : n.lranClaimMoved = t.lranClaimMoved ∧ n.lranClaimMs = t.lranClaimMs

theorem move_moved : t.Moved next (t.move next nowMs p) := by
  have begun : ∃ cause causePending, (if t.state = .closed then ({t with state := next} : GateTracker).beginOpening nowMs p else {t with state := next}) =
      {t with state := next,cause := cause,causePending := causePending} := by
    split
    · exact opening_parts _ nowMs p
    · exact ⟨_,_,rfl⟩
  obtain ⟨cause,pending,opening⟩ := begun
  unfold move
  dsimp only
  rw [opening]
  cases next with
  | openHeld =>
      cases pending <;> constructor <;> simp
  | openCountdown =>
      cases pending <;> constructor <;> simp
  | closed => constructor <;> simp
  | unknown => constructor <;> simp
  | moving => constructor <;> simp
  | fault => constructor <;> simp

theorem settleHold_eq : t.settleHold = {t with
    held := t.state == .openHeld
    source := if (t.state == .openHeld) = t.held then t.source else if t.state = .openHeld then t.attributed else .none
    lranClaim := t.lranClaim && (t.state == .openHeld) == t.held} := by
  unfold settleHold
  dsimp only
  by_cases same : (t.state == .openHeld) = t.held
  · rw [if_pos same]
    simp [same]
  · rw [if_neg same]
    simp [same]

-- The state an update derives.
def derived : GateState :=
  if observe inputs = .openHeld ∧ nowMs - t.since nowMs < p.holdConfirmMs then t.state else observe inputs

-- The claims as they stand when an update comes to attribute a hold.

def lranStands : Bool :=
  t.lranClaim && (t.moved (observe inputs) || within nowMs t.lranClaimMs p.causeWindowMs) &&
    !(t.derived inputs nowMs p == .closed && t.state != .closed)

def fireStands : Bool := (t.fireClaim || t.fireRises inputs) && !(t.derived inputs nowMs p == .closed && t.state != .closed)

-- What an update leaves and reports.
structure Updated (n : GateTracker) (changed : GateChanged) : Prop where
  state : n.state = t.derived inputs nowMs p
  held : n.held = (n.state == .openHeld)
  changes : changed = {state := n.state ≠ t.state,hold := n.held != t.held}
  levels : n.prevInputs = inputs ∧ n.primed = true ∧ n.observed = observe inputs
  candidate : n.holdCandidate = decide (observe inputs = .openHeld)
  holdSince : n.holdSinceMs = if observe inputs = .openHeld then t.since nowMs else t.holdSinceMs
  claim : n.lranClaimMoved = t.moved (observe inputs) ∧ n.lranClaimMs = t.lranClaimMs
  lranClaim : n.lranClaim = (t.lranStands inputs nowMs p && n.held == t.held)
  fireClaim : n.fireClaim = t.fireStands inputs nowMs p
  source : n.source =
    if n.held = t.held then t.source
    else if n.held then
      (if (if n.state ≠ t.state ∧ n.state = .openHeld then t.state else t.beforeHold) = .unknown then .unknown
        else if t.lranStands inputs nowMs p then .lran
        else if t.fireStands inputs nowMs p then .keypadFire
        else .manual)
    else .none

-- The tracker an update has before it moves.
structure Before (n : GateTracker) : Prop where
  hold : n.state = t.state ∧ n.held = t.held ∧ n.source = t.source ∧ n.beforeHold = t.beforeHold
  levels : n.prevInputs = inputs ∧ n.primed = true ∧ n.observed = observe inputs
  candidate : n.holdCandidate = decide (observe inputs = .openHeld)
  holdSince : n.holdSinceMs = if observe inputs = .openHeld then t.since nowMs else t.holdSinceMs
  claim : n.lranClaimMoved = t.moved (observe inputs) ∧ n.lranClaimMs = t.lranClaimMs
  lranClaim : n.lranClaim = (t.lranClaim && (t.moved (observe inputs) || within nowMs t.lranClaimMs p.causeWindowMs))
  fireClaim : n.fireClaim = (t.fireClaim || t.fireRises inputs)

theorem before_parts : ∃ n, ((t.edges inputs nowMs).claim (observe inputs) nowMs p).confirm (observe inputs) nowMs p = (n,t.derived inputs nowMs p) ∧
    t.Before inputs nowMs p n := by
  obtain ⟨exitSeen,exitMs,fireSeen,fireMs,edges⟩ := t.edges_parts inputs nowMs
  rw [edges,claim_eq,confirm_eq]
  refine ⟨_,rfl,?_⟩
  constructor
  case hold => exact ⟨rfl,rfl,rfl,rfl⟩
  case levels => exact ⟨rfl,rfl,rfl⟩
  case claim => exact ⟨rfl,rfl⟩
  all_goals rfl

-- And once it has moved, before it looks whether a hold began or ended.
structure Derived (q : GateTracker) : Prop where
  state : q.state = t.derived inputs nowMs p
  hold : q.held = t.held ∧ q.source = t.source
  beforeHold : q.beforeHold = if q.state ≠ t.state ∧ q.state = .openHeld then t.state else t.beforeHold
  levels : q.prevInputs = inputs ∧ q.primed = true ∧ q.observed = observe inputs
  candidate : q.holdCandidate = decide (observe inputs = .openHeld)
  holdSince : q.holdSinceMs = if observe inputs = .openHeld then t.since nowMs else t.holdSinceMs
  claim : q.lranClaimMoved = t.moved (observe inputs) ∧ q.lranClaimMs = t.lranClaimMs
  lranClaim : q.lranClaim = t.lranStands inputs nowMs p
  fireClaim : q.fireClaim = t.fireStands inputs nowMs p

theorem derived_updated {q : GateTracker} (derived : t.Derived inputs nowMs p q) :
    t.Updated inputs nowMs p q.settleHold {state := t.derived inputs nowMs p ≠ t.state,hold := q.settleHold.held != q.held} := by
  obtain ⟨state,⟨held,source⟩,beforeHold,levels,candidate,holdSince,claim,lranClaim,fireClaim⟩ := derived
  rw [settleHold_eq]
  refine ⟨state,rfl,?_,levels,candidate,holdSince,claim,?_,fireClaim,?_⟩
  · rw [← state,← held]
  · rw [← lranClaim,← held]
  · unfold attributed
    rw [← lranClaim,← fireClaim,← held,← source,← beforeHold]
    simp only [beq_iff_eq]

theorem update_updated : t.Updated inputs nowMs p (t.update inputs nowMs p).1 (t.update inputs nowMs p).2 := by
  obtain ⟨n,read,before⟩ := t.before_parts inputs nowMs p
  unfold update
  dsimp only
  rw [read]
  dsimp only
  obtain ⟨⟨state,held,source,beforeHold⟩,levels,candidate,holdSince,claim,lranClaim,fireClaim⟩ := before
  by_cases still : t.derived inputs nowMs p = n.state
  · rw [if_pos still]
    have stays : t.derived inputs nowMs p = t.state := still.trans state
    have lapses : (t.derived inputs nowMs p == .closed && t.state != .closed) = false := by
      rw [stays]
      by_cases closed : t.state = .closed
      · simp [closed]
      · simp [closed]
    have derived : t.Derived inputs nowMs p n := by
      refine ⟨still.symm,⟨held,source⟩,?_,levels,candidate,holdSince,claim,?_,?_⟩
      · rw [state,if_neg fun moves => moves.1 rfl]
        exact beforeHold
      · unfold lranStands
        rw [lapses,lranClaim]
        simp
      · unfold fireStands
        rw [lapses,fireClaim]
        simp
    have updated := t.derived_updated inputs nowMs p derived
    rw [← state] at updated
    exact updated
  · rw [if_neg still]
    have moves : t.derived inputs nowMs p ≠ t.state := fun same => still (same.trans state.symm)
    have lapses : (t.derived inputs nowMs p == .closed && t.state != .closed) = !(t.derived inputs nowMs p != .closed) := by
      by_cases closed : t.derived inputs nowMs p = .closed
      · have other : t.state ≠ .closed := fun same => moves (closed.trans same.symm)
        simp [closed,other]
      · have apart : (t.derived inputs nowMs p != .closed) = true := bne_iff_ne.mpr closed
        rw [apart,beq_false_of_ne closed]
        rfl
    obtain ⟨state',beforeHold',lranClaim',fireClaim',⟨prev,primed,observed⟩,⟨candidate',since'⟩,⟨held',source'⟩,moved',ms'⟩ :=
      n.move_moved nowMs p (t.derived inputs nowMs p)
    have derived : t.Derived inputs nowMs p (n.move (t.derived inputs nowMs p) nowMs p) := by
      refine ⟨state',⟨held'.trans held,source'.trans source⟩,?_,?_,candidate'.trans candidate,since'.trans holdSince,
        ⟨moved'.trans claim.1,ms'.trans claim.2⟩,?_,?_⟩
      · rw [beforeHold',state',state,beforeHold]
        by_cases opens : t.derived inputs nowMs p = .openHeld
        · rw [if_pos opens,if_pos ⟨moves,opens⟩]
        · rw [if_neg opens,if_neg fun both => opens both.2]
      · exact ⟨prev.trans levels.1,primed.trans levels.2.1,observed.trans levels.2.2⟩
      · unfold lranStands
        rw [lapses,lranClaim',lranClaim,Bool.not_not]
      · unfold fireStands
        rw [lapses,fireClaim',fireClaim,Bool.not_not]
    have updated := t.derived_updated inputs nowMs p derived
    rw [← state] at updated
    exact updated

-- A pulse touches the claim and nothing of the state.
structure Pulsed (n : GateTracker) : Prop where
  hold : n.state = t.state ∧ n.held = t.held ∧ n.source = t.source
  levels : n.prevInputs = t.prevInputs ∧ n.primed = t.primed ∧ n.observed = t.observed
  candidate : n.holdCandidate = t.holdCandidate ∧ n.holdSinceMs = t.holdSinceMs
  fireClaim : n.fireClaim = t.fireClaim

theorem notePulse_pulsed (relay : UInt8) : t.Pulsed (t.notePulse relay nowMs) := by
  unfold notePulse
  dsimp only
  split <;> split <;> first | exact ⟨⟨rfl,rfl,rfl⟩,⟨rfl,rfl,rfl⟩,⟨rfl,rfl⟩,rfl⟩ | (split <;> exact ⟨⟨rfl,rfl,rfl⟩,⟨rfl,rfl,rfl⟩,⟨rfl,rfl⟩,rfl⟩)

theorem notePulse_claim (relay : UInt8) :
    ((t.notePulse relay nowMs).lranClaim,(t.notePulse relay nowMs).lranClaimMoved,(t.notePulse relay nowMs).lranClaimMs) =
      if relay = relayOpenLock then (true,false,nowMs)
      else (t.lranClaim && relay != relayUnlock,t.lranClaimMoved,t.lranClaimMs) := by
  unfold notePulse
  dsimp only
  by_cases lock : relay = relayOpenLock
  · subst lock
    simp
  · simp only [lock,false_or,if_false]
    by_cases release : relay = relayUnlock
    · subst release
      have other : relayUnlock ≠ relayOpen := by decide
      simp [other]
    · have kept : (relay != relayUnlock) = true := bne_iff_ne.mpr release
      rw [if_neg release,kept,Bool.and_true]
      split <;> rfl

end
end GateTracker

end LoraRan.GateLink
