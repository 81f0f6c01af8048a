import LoraRan.GateLink.IoTask
import LoraRan.Library.StepSystem

namespace LoraRan.GateLink
open Library.Clock Library.StepSystem

-- The pulser beside the true time it reads through a 32-bit counter. `due` is the latest pulse's trailing edge as
-- scheduled, `edge` that of the last pulse that has ended; no branch reads either.
structure PulserRun where
  pulser : RelayPulser := {}
  now : Nat := 0
  due : Nat := 0
  edge : Option Nat := none

inductive PulserInput where
  | pass (time : Nat)
  | start (relay : UInt8) (widthMs spacingMs : UInt32)

def PulserRun.pass (s : PulserRun) (time : Nat) : PulserRun :=
  match s.pulser.update (stamp time) with
  | (false,pulser) => {s with pulser := pulser,now := time}
  | (true,pulser) => {s with pulser := pulser,now := time,edge := some s.due}

def PulserRun.start (s : PulserRun) (relay : UInt8) (widthMs spacingMs : UInt32) : PulserRun :=
  match s.pulser.start relay widthMs spacingMs (stamp s.now) with
  | (.started,pulser) => {s with pulser := pulser,due := s.now + widthMs.toNat}
  | (_,pulser) => {s with pulser := pulser}

def PulserRun.step (s : PulserRun) : PulserInput → PulserRun
  | .pass time => s.pass time
  | .start relay widthMs spacingMs => s.start relay widthMs spacingMs

def secondMs : Nat := 1000

-- Passes at most a second apart, and the table's ranges of relay_pulse_ms and relay_min_spacing_ms.
def PulserAllowed (s : PulserRun) : PulserInput → Prop
  | .pass time => s.now ≤ time ∧ time ≤ s.now + secondMs
  | .start _ widthMs spacingMs => 100 ≤ widthMs.toNat ∧ widthMs.toNat ≤ 2000 ∧ 100 ≤ spacingMs.toNat ∧ spacingMs.toNat ≤ 5000

structure PulserRun.Timed (s : PulserRun) : Prop where
  ended : s.pulser.ended = true ↔ s.edge.isSome = true
  running : s.pulser.active = true → s.pulser.endMs = stamp s.due ∧ s.now < s.due ∧ s.due ≤ s.now + 2000
  idle : s.pulser.active = false → ∀ e ∈ s.edge, s.pulser.endMs = stamp e
  past : ∀ e ∈ s.edge, e ≤ s.now

theorem stamp_add (time : Nat) (span : UInt32) : stamp time + span = stamp (time + span.toNat) := by
  apply UInt32.toNat_inj.mp
  rw [UInt32.toNat_add,stamp_toNat,stamp_toNat]
  omega

-- A reading less than half a turn away from a deadline tells on which side of it the true time lies.
theorem reached_near (time at_ : Nat) (near : time < at_ + 2 ^ 31) (near' : at_ ≤ time + 2 ^ 31) : reached (stamp time) (stamp at_) = true ↔ at_ ≤ time := by
  simp only [reached,decide_eq_true_eq,UInt32.toNat_sub,stamp_toNat]
  omega

theorem update_cases (p : RelayPulser) (nowMs : UInt32) :
    (p.active = true ∧ reached nowMs p.endMs = true ∧ p.update nowMs = (true,{p with active := false,ended := true})) ∨
    ((p.active = true → reached nowMs p.endMs = false) ∧ p.update nowMs = (false,p)) := by
  unfold RelayPulser.update
  cases active : p.active with
  | false => exact .inr ⟨(by intro running; cases running),if_pos (.inl rfl)⟩
  | true =>
      cases due : reached nowMs p.endMs with
      | false => exact .inr ⟨fun _ => rfl,if_pos (.inr rfl)⟩
      | true => exact .inl ⟨rfl,rfl,if_neg (by simp)⟩

theorem pass_timed {s : PulserRun} (timed : s.Timed) (time : Nat) (allowed : PulserAllowed s (.pass time)) : (s.pass time).Timed := by
  obtain ⟨later,soon⟩ := allowed
  unfold secondMs at soon
  unfold PulserRun.pass
  rcases update_cases s.pulser (stamp time) with ⟨active,due,same⟩ | ⟨notDue,same⟩
  · obtain ⟨scheduled,before,near⟩ := timed.running active
    rw [scheduled,reached_near time s.due (by omega) (by omega)] at due
    rw [same]
    refine ⟨?_,?_,?_,?_⟩
    · exact ⟨fun _ => rfl,fun _ => rfl⟩
    · intro running; cases running
    · intro _ e known
      cases known
      exact scheduled
    · intro e known
      cases known
      exact due
  · rw [same]
    refine ⟨timed.ended,?_,timed.idle,fun e known => (timed.past e known).trans later⟩
    intro active
    obtain ⟨scheduled,before,near⟩ := timed.running active
    have early := notDue active
    rw [scheduled] at early
    have ahead : ¬ s.due ≤ time := fun passed => by
      rw [(reached_near time s.due (by omega) (by omega)).mpr passed] at early
      cases early
    exact ⟨scheduled,by change time < s.due; omega,by change s.due ≤ time + 2000; omega⟩

theorem start_timed {s : PulserRun} (timed : s.Timed) (relay : UInt8) (widthMs spacingMs : UInt32)
    (allowed : PulserAllowed s (.start relay widthMs spacingMs)) : (s.start relay widthMs spacingMs).Timed := by
  obtain ⟨wide,narrow,_⟩ := allowed
  unfold PulserRun.start
  cases ran : s.pulser.start relay widthMs spacingMs (stamp s.now) with
  | mk result next =>
      rcases start_parts _ _ _ _ _ _ _ ran with ⟨rfl,_,_,rfl⟩ | ⟨refused,rfl,_⟩
      · refine ⟨timed.ended,?_,?_,timed.past⟩
        · intro _
          refine ⟨stamp_add s.now widthMs,?_,?_⟩
          · change s.now < s.now + widthMs.toNat
            omega
          · change s.now + widthMs.toNat ≤ s.now + 2000
            omega
        · intro idle; cases idle
      · cases result with
        | started => exact absurd rfl refused
        | badRelay => exact timed
        | badWidth => exact timed
        | busy => exact timed
        | tooSoon => exact timed

theorem pulser_timed {s : PulserRun} (path : Reached PulserRun.step PulserAllowed {} s) : s.Timed := by
  refine path.invariant PulserRun.Timed ⟨by decide,?_,?_,?_⟩ ?_
  · intro running; cases running
  · intro _ e known; cases known
  · intro e known; cases known
  · intro s i timed allowed
    cases i with
    | pass time => exact pass_timed timed time allowed
    | start relay widthMs spacingMs => exact start_timed timed relay widthMs spacingMs allowed

-- The answer to a start of a valid relay, as the spacing means it: by the true time since the last trailing edge.
def PulserRun.SpacedTruly (s : PulserRun) (relay : UInt8) (widthMs spacingMs : UInt32) : Prop :=
  ((s.pulser.start relay widthMs spacingMs (stamp s.now)).1 = .tooSoon ↔ ∃ e ∈ s.edge, s.now < e + spacingMs.toNat) ∧
    ((s.pulser.start relay widthMs spacingMs (stamp s.now)).1 = .started ↔ ¬ ∃ e ∈ s.edge, s.now < e + spacingMs.toNat)

-- The spacing still runs, or it ended in the past half of the circle.
def PulserRun.EdgeNear (s : PulserRun) (spacingMs : UInt32) : Prop :=
  ∀ e ∈ s.edge, s.now < e + spacingMs.toNat ∨ (s.now - e - spacingMs.toNat) % 2 ^ 32 < 2 ^ 31

-- A valid relay, a width and an idle pulser leave only the spacing to ask.
theorem start_idle (p : RelayPulser) (relay : UInt8) (widthMs spacingMs nowMs : UInt32) (valid : relay < relayCount) (wide : widthMs ≠ 0)
    (idle : p.active = false) :
    p.start relay widthMs spacingMs nowMs =
      if p.ended = true ∧ reached nowMs (p.endMs + spacingMs) = false then (.tooSoon,p)
      else (.started,{p with active := true,relay := relay,endMs := nowMs + widthMs}) := by
  unfold RelayPulser.start
  rw [if_neg (UInt8.not_le.mpr valid),if_neg wide,if_neg (by rw [idle]; decide)]
  simp

theorem start_spaced_iff {s : PulserRun} (timed : s.Timed) (relay : UInt8) (widthMs spacingMs : UInt32) (valid : relay < relayCount)
    (wide : widthMs ≠ 0) (short : spacingMs.toNat ≤ 5000) (idle : s.pulser.active = false) :
    s.SpacedTruly relay widthMs spacingMs ↔ s.EdgeNear spacingMs := by
  unfold PulserRun.SpacedTruly PulserRun.EdgeNear
  rw [start_idle s.pulser relay widthMs spacingMs _ valid wide idle]
  cases known : s.edge with
  | none =>
      have fresh : ¬ s.pulser.ended = true := fun ended => by
        have some_ := timed.ended.mp ended
        rw [known] at some_
        cases some_
      rw [if_neg fun both => fresh both.1]
      simp
  | some e =>
      have ended : s.pulser.ended = true := timed.ended.mpr (by rw [known]; rfl)
      have scheduled := timed.idle idle e known
      have past := timed.past e known
      have asked : reached (stamp s.now) (s.pulser.endMs + spacingMs) = true ↔
          ¬ s.now < e + spacingMs.toNat ∧ (s.now - e - spacingMs.toNat) % 2 ^ 32 < 2 ^ 31 := by
        rw [scheduled]
        constructor
        · intro hit
          have passed := not_early e s.now spacingMs (by omega) past hit
          exact ⟨by omega,(reached_past e s.now spacingMs passed).mp hit⟩
        · intro both
          exact (reached_past e s.now spacingMs (by omega)).mpr both.2
      simp only [Option.mem_some_iff,exists_eq_left',forall_eq']
      cases hit : reached (stamp s.now) (s.pulser.endMs + spacingMs) with
      | true =>
          obtain ⟨over_,near⟩ := asked.mp hit
          rw [if_neg (by simp)]
          simpa [over_] using near
      | false =>
          have missed : ¬ (¬ s.now < e + spacingMs.toNat ∧ (s.now - e - spacingMs.toNat) % 2 ^ 32 < 2 ^ 31) := fun both => by
            rw [asked.mpr both] at hit
            cases hit
          rw [if_pos ⟨ended,rfl⟩]
          by_cases soon : s.now < e + spacingMs.toNat
          · simp [soon]
          · simpa [soon] using missed

-- io_task's later passes at most a second apart, each with its own parameters in range.
def Paced (spacingMs : Nat) : Nat → List (Nat × IoParams) → Prop
  | _, [] => True
  | last, (time,params) :: rest =>
      last ≤ time ∧ time ≤ last + secondMs ∧ params.InRange ∧ params.spacingMs.toNat ≤ spacingMs ∧ Paced spacingMs time rest

-- The pass at which a waiting sequence starts its pulse, when it alone drives the pulser.
def startsAt (q : CommandSequencer) (p : RelayPulser) : List (Nat × IoParams) → Option Nat
  | [] => none
  | (time,params) :: rest =>
      let p := (p.update (stamp time)).2
      match q.service p params.widthMs params.spacingMs params.settleMs (stamp time) with
      | (true,_,_) => some time
      | (false,q,p) => startsAt q p rest

theorem update_idle (p : RelayPulser) (nowMs : UInt32) (idle : p.active = false) : (p.update nowMs).2 = p := by
  unfold RelayPulser.update
  rw [if_pos (.inl (by rw [idle]; rfl))]

-- One pass of a sequence whose time has come: it starts, or the spacing holds it and nothing changes.
theorem service_waiting (q : CommandSequencer) (p : RelayPulser) (params : IoParams) (nowMs : UInt32) (waiting : q.state = .waiting)
    (valid : q.relayAt < relayCount) (wide : params.widthMs ≠ 0) (idle : p.active = false) (come : reached nowMs q.notBeforeMs = true) :
    ((p.ended = true ∧ reached nowMs (p.endMs + params.spacingMs) = false) ∧
        q.service p params.widthMs params.spacingMs params.settleMs nowMs = (false,q,p)) ∨
      (¬ (p.ended = true ∧ reached nowMs (p.endMs + params.spacingMs) = false) ∧
        (q.service p params.widthMs params.spacingMs params.settleMs nowMs).1 = true) := by
  unfold CommandSequencer.service CommandSequencer.tryStart
  rw [if_neg (by rw [waiting]; decide),if_neg (by simp [waiting,come]),start_idle p _ _ _ _ valid wide idle]
  by_cases held : p.ended = true ∧ reached nowMs (p.endMs + params.spacingMs) = false
  · rw [if_pos held]
    exact .inl ⟨held,rfl⟩
  · rw [if_neg held]
    exact .inr ⟨held,rfl⟩

theorem startsAt_start (q : CommandSequencer) (p : RelayPulser) (time : Nat) (params : IoParams) (rest : List (Nat × IoParams))
    (idle : p.active = false) (starts : (q.service p params.widthMs params.spacingMs params.settleMs (stamp time)).1 = true) :
    startsAt q p ((time,params) :: rest) = some time := by
  rw [startsAt]
  rw [update_idle p _ idle]
  split
  · rfl
  · rename_i missed
    rw [missed] at starts
    cases starts

theorem startsAt_hold (q : CommandSequencer) (p : RelayPulser) (time : Nat) (params : IoParams) (rest : List (Nat × IoParams))
    (idle : p.active = false) (holds : q.service p params.widthMs params.spacingMs params.settleMs (stamp time) = (false,q,p)) :
    startsAt q p ((time,params) :: rest) = startsAt q p rest := by
  rw [startsAt]
  rw [update_idle p _ idle,holds]

theorem wide_of_range {params : IoParams} (inRange : params.InRange) : params.widthMs ≠ 0 := by
  intro zero
  have width := inRange.width.1
  rw [zero] at width
  exact absurd width (by decide)

-- The last trailing edge is recent: the sequence starts by the first pass after the spacing, by induction on the passes.
theorem startsAt_recent {q : CommandSequencer} {p : RelayPulser} {notBefore e spacingMs : Nat} (waiting : q.state = .waiting)
    (due : q.notBeforeMs = stamp notBefore) (valid : q.relayAt < relayCount) (idle : p.active = false) (scheduled : p.endMs = stamp e)
    (near : e ≤ notBefore + secondMs) (small : spacingMs ≤ 5000) (passes : List (Nat × IoParams)) (last : Nat) (come : notBefore ≤ last)
    (past : e ≤ last) (early : last < e + spacingMs) (paced : Paced spacingMs last passes) (enough : ∃ pass ∈ passes, e + spacingMs ≤ pass.1) :
    ∃ t, startsAt q p passes = some t ∧ t ≤ e + spacingMs + secondMs := by
  unfold secondMs at *
  induction passes generalizing last with
  | nil =>
      obtain ⟨_,member,_⟩ := enough
      cases member
  | cons pass rest ih =>
      obtain ⟨time,params⟩ := pass
      obtain ⟨later,soon,inRange,narrow,pacedRest⟩ := paced
      unfold secondMs at soon
      have hasCome : reached (stamp time) q.notBeforeMs = true := by
        rw [due]
        exact (reached_near time notBefore (by omega) (by omega)).mpr (by omega)
      rcases service_waiting q p params (stamp time) waiting valid (wide_of_range inRange) idle hasCome with ⟨held,served⟩ | ⟨_,served⟩
      · have ahead : time < e + params.spacingMs.toNat := by
          by_contra passed
          have hit := (reached_past e time params.spacingMs (by omega)).mpr (by omega)
          rw [← scheduled,held.2] at hit
          cases hit
        rw [startsAt_hold q p time params rest idle served]
        refine ih time (by omega) (by omega) (by omega) pacedRest ?_
        obtain ⟨found,member,over_⟩ := enough
        rcases List.mem_cons.mp member with rfl | inside
        · change e + spacingMs ≤ time at over_
          omega
        · exact ⟨found,inside,over_⟩
      · exact ⟨time,startsAt_start q p time params rest idle served,by omega⟩

theorem relay_spacing_true_time {s : PulserRun} (path : Reached PulserRun.step PulserAllowed {} s) :
    (∀ relay widthMs spacingMs, relay < relayCount → widthMs ≠ 0 → 100 ≤ spacingMs.toNat ∧ spacingMs.toNat ≤ 5000 → s.pulser.active = false →
      (s.SpacedTruly relay widthMs spacingMs ↔ s.EdgeNear spacingMs)) ∧
    (∀ (q : CommandSequencer) (notBefore spacingMs : Nat) (params : IoParams) (rest : List (Nat × IoParams)), s.pulser.active = false →
      q.state = .waiting → q.relayAt < relayCount → q.notBeforeMs = stamp notBefore → notBefore ≤ s.now → s.now ≤ notBefore + secondMs →
      params.InRange → params.spacingMs.toNat ≤ spacingMs → spacingMs ≤ 5000 → Paced spacingMs s.now rest →
      (∃ pass ∈ rest, s.now + spacingMs ≤ pass.1) → s.EdgeNear params.spacingMs →
        ∃ t, startsAt q s.pulser ((s.now,params) :: rest) = some t ∧ t ≤ s.now + spacingMs + secondMs) := by
  have timed := pulser_timed path
  refine ⟨fun relay widthMs spacingMs valid wide range idle => start_spaced_iff timed relay widthMs spacingMs valid wide range.2 idle,?_⟩
  intro q notBefore spacingMs params rest idle waiting valid due come fresh inRange narrow small paced enough near
  have wide := wide_of_range inRange
  have short := inRange.spacing.2
  have hasCome : reached (stamp s.now) q.notBeforeMs = true := by
    unfold secondMs at fresh
    rw [due]
    exact (reached_near s.now notBefore (by omega) (by omega)).mpr come
  have truly := (start_spaced_iff timed q.relayAt params.widthMs params.spacingMs valid wide short idle).mpr near
  unfold PulserRun.SpacedTruly at truly
  rw [start_idle s.pulser _ _ _ _ valid wide idle] at truly
  rcases service_waiting q s.pulser params (stamp s.now) waiting valid wide idle hasCome with ⟨held,served⟩ | ⟨_,served⟩
  · rw [if_pos held] at truly
    obtain ⟨e,known,early⟩ := truly.1.mp rfl
    have past := timed.past e known
    rw [startsAt_hold q s.pulser s.now params rest idle served]
    obtain ⟨found,member,over_⟩ := enough
    unfold secondMs at fresh
    obtain ⟨t,starts,bound⟩ := startsAt_recent waiting due valid idle (timed.idle idle e known) (by unfold secondMs; omega) small rest s.now come past
      (by omega) paced ⟨found,member,by omega⟩
    exact ⟨t,starts,by omega⟩
  · exact ⟨s.now,startsAt_start q s.pulser s.now params rest idle served,by omega⟩

-- Idle passes, one a second, for as long as one likes.
theorem idle_passes {s : PulserRun} (path : Reached PulserRun.step PulserAllowed {} s) (idle : s.pulser.active = false) (n : Nat) :
    Reached PulserRun.step PulserAllowed {} {s with now := s.now + n * secondMs} := by
  induction n with
  | zero => simpa using path
  | succ n ih =>
      have paced : PulserAllowed {s with now := s.now + n * secondMs} (.pass (s.now + (n + 1) * secondMs)) := by
        unfold PulserAllowed secondMs
        dsimp only
        omega
      have next := Reached.step _ (.pass (s.now + (n + 1) * secondMs)) ih paced
      have same : PulserRun.step {s with now := s.now + n * secondMs} (.pass (s.now + (n + 1) * secondMs)) =
          {s with now := s.now + (n + 1) * secondMs} := by
        change PulserRun.pass {s with now := s.now + n * secondMs} (s.now + (n + 1) * secondMs) = _
        unfold PulserRun.pass
        have quiet : s.pulser.update (stamp (s.now + (n + 1) * secondMs)) = (false,s.pulser) := by
          unfold RelayPulser.update
          rw [if_pos (.inl (by rw [idle]; rfl))]
        rw [quiet]
      rw [same] at next
      exact next

-- One pulse of K3 at boot, and its trailing edge.
def firstPulse : PulserRun := ((({} : PulserRun).step (.start k3Open 500 500)).step (.pass 500))

theorem firstPulse_reached : Reached PulserRun.step PulserAllowed {} firstPulse :=
  .step _ _ (.step _ _ .refl (by unfold PulserAllowed; decide)) (by unfold PulserAllowed; decide)

-- Twenty-five days after that pulse, a start is answered TooSoon.
theorem start_too_soon_for_weeks :
    ¬ ∀ s : PulserRun, Reached PulserRun.step PulserAllowed {} s → s.pulser.active = false → s.SpacedTruly k3Open 500 500 := by
  intro claimed
  have truly := (claimed _ (idle_passes firstPulse_reached (by decide) 2160000) (by decide)).1.mp (by decide +kernel)
  exact absurd truly (by decide +kernel)

theorem relay_spacing_after_pulse : firstPulse.SpacedTruly k3Open 500 500 :=
  ((relay_spacing_true_time firstPulse_reached).1 k3Open 500 500 (by decide) (by decide) (by decide) (by decide)).mpr
    (by intro e known; cases known; exact .inl (by decide))

end LoraRan.GateLink
