import Mathlib.Data.List.Induction
import LoraRan.GateLink.IoTask

namespace LoraRan.GateLink
open Library.Clock Protocol

structure Leading where
  relay : UInt8
  time : Nat
  ok : Bool

structure Trailing where
  time : Nat
  settleMs : UInt32
  ok : Bool

-- What an observer of the visible actions knows about one sequence taken from the queue.
structure SeqRecord where
  seq : RelaySequence
  starts : List Leading := []
  edges : List Trailing := []
  ended : Option (SequenceEnd × Bool) := none

structure History where
  closed : List SeqRecord := []
  current : Option SeqRecord := none
  ownPulse : Bool := false
  lastWritten : UInt8 := 0

-- A trailing edge belongs to the sequence exactly when the sequence started the pulse that ends.
def History.record (h : History) : IoEvent → History
  | .wrote mask ok => if ok then {h with lastWritten := mask} else h
  | .edge time settleMs ok =>
      if h.ownPulse then
        {h with ownPulse := false,current := h.current.map fun r => {r with edges := r.edges ++ [⟨time,settleMs,ok⟩]}}
      else h
  | .taken seq => {h with closed := h.closed ++ h.current.toList,current := some {seq := seq}}
  | .started relay time ok =>
      {h with ownPulse := true,current := h.current.map fun r => {r with starts := r.starts ++ [⟨relay,time,ok⟩]}}
  | .bench _ => {h with ownPulse := false}
  | .ended how failed =>
      {h with closed := h.closed ++ (h.current.map fun r => {r with ended := some (how,failed)}).toList,current := none}

def observe (trace : List IoEvent) : History := trace.foldl History.record {}

def IoTask.history (s : IoTask) : History := observe s.trace

def takenSequences (trace : List IoEvent) : List RelaySequence :=
  trace.filterMap fun
    | .taken seq => some seq
    | _ => none

-- The observer loses no sequence: whatever the trace, the taken sequences are the recorded ones in order.
theorem taken_recorded (trace : List IoEvent) :
    takenSequences trace = ((observe trace).closed ++ (observe trace).current.toList).map (·.seq) := by
  induction trace using List.reverseRecOn with
  | nil => rfl
  | append_singleton trace event ih =>
      simp only [takenSequences,observe,List.filterMap_append,List.foldl_append,List.foldl_cons,List.foldl_nil] at ih ⊢
      rw [ih]
      generalize List.foldl History.record {} trace = h
      cases event with
      | wrote mask ok => cases ok <;> simp [History.record]
      | edge time settleMs ok =>
          cases own : h.ownPulse <;> cases known : h.current <;> simp [History.record,own,known]
      | taken seq => simp [History.record]
      | started relay time ok => cases known : h.current <;> simp [History.record,known]
      | bench relay => simp [History.record]
      | ended how failed => cases known : h.current <;> simp [History.record,known]

def SeqRecord.Failed (r : SeqRecord) : Prop := (∃ x ∈ r.starts, x.ok = false) ∨ ∃ e ∈ r.edges, e.ok = false

-- The second leading edge keeps its distance from the pass that saw the first trailing edge.
def SeqRecord.Spaced (r : SeqRecord) : Prop :=
  ∀ e b, r.edges[0]? = some e → r.starts[1]? = some b → e.time + e.settleMs.toNat ≤ b.time

structure SeqRecord.Complete (r : SeqRecord) : Prop where
  relays : r.starts.map (·.relay) = r.seq.expected
  edges : r.edges.length = r.starts.length
  spaced : r.Spaced

structure SeqRecord.Completed (r : SeqRecord) : Prop extends r.Complete where
  reported : ∃ failed, r.ended = some (.done,failed) ∧ (r.Failed → failed = true)

structure SeqRecord.Underway (r : SeqRecord) : Prop where
  relays : r.starts.map (·.relay) <+: r.seq.expected
  spaced : r.Spaced
  running : r.ended = none

-- The sequencer carries exactly this record's sequence and has not reported its end.
structure Loaded (q : CommandSequencer) (r : SeqRecord) : Prop where
  relays : q.relays = r.seq
  fit : r.seq.Fit
  running : r.ended = none
  silent : q.ended = false

def OneStart (r : SeqRecord) (a : Leading) (edges : List Trailing) : Prop :=
  r.starts = [a] ∧ r.edges = edges ∧ a.relay = r.seq.first

def TwoStarts (r : SeqRecord) (a b : Leading) (edges : List Trailing) : Prop :=
  r.starts = [a,b] ∧ r.edges = edges ∧ a.relay = r.seq.first ∧ b.relay = r.seq.second ∧ r.seq.second ≠ noRelay

-- Where the sequencer stands, read off the record. `firstEdge`, `secondEdge` and `finished` exist only inside a pass.
inductive Phase (q : CommandSequencer) (p : RelayPulser) (own : Bool) (now : Nat) (settleMs : UInt32) : Option SeqRecord → Prop
  | idle (place : q.state = .idle) (foreign : own = false) (silent : q.ended = false) : Phase q p own now settleMs none
  | first (r : SeqRecord) (loaded : Loaded q r) (place : q.state = .waiting ∧ q.step = 0) (foreign : own = false)
      (shape : r.starts = [] ∧ r.edges = []) : Phase q p own now settleMs (some r)
  | firstPulse (r : SeqRecord) (a : Leading) (loaded : Loaded q r) (place : q.state = .pulsing ∧ q.step = 0)
      (live : own = true ∧ p.active = true) (shape : OneStart r a []) : Phase q p own now settleMs (some r)
  | firstEdge (r : SeqRecord) (a : Leading) (e : Trailing) (loaded : Loaded q r) (place : q.state = .pulsing ∧ q.step = 0)
      (dead : own = false ∧ p.active = false) (shape : OneStart r a [e]) (seen : e.time = now ∧ e.settleMs = settleMs) :
      Phase q p own now settleMs (some r)
  | settling (r : SeqRecord) (a : Leading) (e : Trailing) (loaded : Loaded q r) (place : q.state = .waiting ∧ q.step = 1)
      (foreign : own = false) (shape : OneStart r a [e]) (two : r.seq.second ≠ noRelay)
      (due : e.time ≤ now ∧ e.settleMs.toNat ≤ 2 ^ 31 ∧ q.notBeforeMs = stamp e.time + e.settleMs) :
      Phase q p own now settleMs (some r)
  | secondPulse (r : SeqRecord) (a b : Leading) (e : Trailing) (loaded : Loaded q r) (place : q.state = .pulsing ∧ q.step = 1)
      (live : own = true ∧ p.active = true) (shape : TwoStarts r a b [e]) (late : e.time + e.settleMs.toNat ≤ b.time) :
      Phase q p own now settleMs (some r)
  | secondEdge (r : SeqRecord) (a b : Leading) (e f : Trailing) (loaded : Loaded q r) (place : q.state = .pulsing ∧ q.step = 1)
      (dead : own = false ∧ p.active = false) (shape : TwoStarts r a b [e,f]) (late : e.time + e.settleMs.toNat ≤ b.time) :
      Phase q p own now settleMs (some r)
  | finished (r : SeqRecord) (place : q.state = .idle) (foreign : own = false) (ended : q.ended = true ∧ q.how = .done)
      (complete : r.Complete) (running : r.ended = none) : Phase q p own now settleMs (some r)

theorem OneStart.prefix_expected (shape : OneStart r a edges) : r.starts.map (·.relay) <+: r.seq.expected := by
  rw [shape.1]
  unfold RelaySequence.expected
  split
  · simp [shape.2.2]
  · exact ⟨[r.seq.second],by simp [shape.2.2]⟩

theorem OneStart.spaced (shape : OneStart r a edges) : r.Spaced := by
  simp [SeqRecord.Spaced,shape.1]

theorem OneStart.complete (shape : OneStart r a [e]) (single : r.seq.second = noRelay) : r.Complete :=
  ⟨by simp [shape.1,shape.2.2,RelaySequence.expected,single],by simp [shape.1,shape.2.1],shape.spaced⟩

theorem TwoStarts.expected (shape : TwoStarts r a b edges) : r.starts.map (·.relay) = r.seq.expected := by
  obtain ⟨starts,_,first,second,two⟩ := shape
  simp [starts,first,second,RelaySequence.expected,two]

theorem TwoStarts.spaced (shape : TwoStarts r a b (e :: rest)) (late : e.time + e.settleMs.toNat ≤ b.time) : r.Spaced := by
  simpa [SeqRecord.Spaced,shape.1,shape.2.1] using late

theorem Phase.underway (phase : Phase q p own now settleMs (some r)) : r.Underway := by
  cases phase with
  | first _ loaded _ _ shape => exact ⟨by simp [shape.1],by simp [SeqRecord.Spaced,shape.1],loaded.running⟩
  | firstPulse _ a loaded _ _ shape => exact ⟨shape.prefix_expected,shape.spaced,loaded.running⟩
  | firstEdge _ a e loaded _ _ shape => exact ⟨shape.prefix_expected,shape.spaced,loaded.running⟩
  | settling _ a e loaded _ _ shape => exact ⟨shape.prefix_expected,shape.spaced,loaded.running⟩
  | secondPulse _ a b e loaded _ _ shape late => exact ⟨shape.expected ▸ List.prefix_refl _,shape.spaced late,loaded.running⟩
  | secondEdge _ a b e f loaded _ _ shape late => exact ⟨shape.expected ▸ List.prefix_refl _,shape.spaced late,loaded.running⟩
  | finished _ _ _ _ complete running => exact ⟨complete.relays ▸ List.prefix_refl _,complete.spaced,running⟩

structure Good (s : IoTask) (now : Nat) (settleMs : UInt32) : Prop where
  relay : s.pulser.relay < relayCount
  queued : ∀ seq ∈ s.cmdQ, seq.Fit
  masks : ∀ mask ok, .wrote mask ok ∈ s.trace → OneRelay mask
  phase : Phase s.sequencer s.pulser s.history.ownPulse now settleMs s.history.current
  failures : ∀ r ∈ s.history.current, r.Failed → s.seqI2cFailures ≠ 0
  closed : ∀ r ∈ s.history.closed, r.Completed
  counted : s.io.cmdSeq = UInt32.ofNat s.history.closed.length
  published : ∀ r ∈ s.history.closed.getLast?, r.ended = some (s.io.cmdEnd,s.io.cmdWriteFailed)
  released : s.pulser.active = false → s.history.lastWritten ≠ 0 → s.releaseOwed = true

-- Between passes: a pulse of the sequence is running whenever the sequencer says so, and no end is unreported.
structure Settled (s : IoTask) (now : Nat) (settleMs : UInt32) : Prop extends Good s now settleMs where
  pulsing : s.sequencer.state = .pulsing → s.pulser.active = true
  silent : s.sequencer.ended = false

@[simp] theorem log_trace (s : IoTask) (events : List IoEvent) : (s.log events).trace = s.trace ++ events := rfl

theorem log_history (s : IoTask) (events : List IoEvent) : (s.log events).history = events.foldl History.record s.history := by
  simp [IoTask.history,observe,List.foldl_append]

theorem Phase.later (phase : Phase q p own now settleMs known) (order : now ≤ next)
    (outside : q.state = .pulsing → p.active = true) : Phase q p own next settleMs' known := by
  cases phase with
  | idle place foreign silent => exact .idle place foreign silent
  | first r loaded place foreign shape => exact .first r loaded place foreign shape
  | firstPulse r a loaded place live shape => exact .firstPulse r a loaded place live shape
  | firstEdge r a e loaded place dead => exact absurd (outside place.1) (by simp [dead.2])
  | settling r a e loaded place foreign shape two due =>
      exact .settling r a e loaded place foreign shape two ⟨by omega,due.2⟩
  | secondPulse r a b e loaded place live shape late => exact .secondPulse r a b e loaded place live shape late
  | secondEdge r a b e f loaded place dead => exact absurd (outside place.1) (by simp [dead.2])
  | finished r place foreign ended complete running => exact .finished r place foreign ended complete running

-- While the sequencer is not pulsing, the pulser is free to serve a bench pulse.
theorem Phase.other_pulser (phase : Phase q p own now settleMs known) (quiet : q.state ≠ .pulsing) (p' : RelayPulser) :
    own = false ∧ Phase q p' false now settleMs known := by
  cases phase with
  | idle place foreign silent => exact ⟨foreign,.idle place rfl silent⟩
  | first r loaded place foreign shape => exact ⟨foreign,.first r loaded place rfl shape⟩
  | firstPulse r a loaded place => exact absurd place.1 quiet
  | firstEdge r a e loaded place => exact absurd place.1 quiet
  | settling r a e loaded place foreign shape two due => exact ⟨foreign,.settling r a e loaded place rfl shape two due⟩
  | secondPulse r a b e loaded place => exact absurd place.1 quiet
  | secondEdge r a b e f loaded place => exact absurd place.1 quiet
  | finished r place foreign ended complete running => exact ⟨foreign,.finished r place rfl ended complete running⟩

theorem writeEvent_mask (mask mask' : UInt8) (w : WriteOutcome) (ok : Bool)
    (logged : IoEvent.wrote mask' ok ∈ writeEvent mask w) : mask' = mask := by
  cases w <;> simp_all [writeEvent]

theorem writeEvent_history (h : History) (mask : UInt8) (w : WriteOutcome) :
    (writeEvent mask w).foldl History.record h = {h with lastWritten := if w.ok then mask else h.lastWritten} := by
  cases w <;> rfl

-- A trailing edge closes the running pulse: the sequence's own, or a bench pulse it does not look at.
theorem Phase.trailing (phase : Phase q p own now settleMs known) (outside : q.state = .pulsing → p.active = true)
    (ends : p'.active = false) (ok : Bool) :
    Phase q p' false now settleMs
      (if own then known.map fun r => {r with edges := r.edges ++ [⟨now,settleMs,ok⟩]} else known) := by
  cases phase with
  | idle place foreign silent => rw [foreign]; exact .idle place rfl silent
  | first r loaded place foreign shape => rw [foreign]; exact .first r loaded place rfl shape
  | firstPulse r a loaded place live shape =>
      rw [live.1]
      refine .firstEdge _ a ⟨now,settleMs,ok⟩ ⟨loaded.relays,loaded.fit,loaded.running,loaded.silent⟩ place ⟨rfl,ends⟩
        ⟨shape.1,?_,shape.2.2⟩ ⟨rfl,rfl⟩
      simp [shape.2.1]
  | firstEdge r a e loaded place dead => exact absurd (outside place.1) (by simp [dead.2])
  | settling r a e loaded place foreign shape two due => rw [foreign]; exact .settling r a e loaded place rfl shape two due
  | secondPulse r a b e loaded place live shape late =>
      rw [live.1]
      refine .secondEdge _ a b e ⟨now,settleMs,ok⟩ ⟨loaded.relays,loaded.fit,loaded.running,loaded.silent⟩ place ⟨rfl,ends⟩
        ⟨shape.1,?_,shape.2.2⟩ late
      simp [shape.2.1]
  | secondEdge r a b e f loaded place dead => exact absurd (outside place.1) (by simp [dead.2])
  | finished r place foreign ended complete running => rw [foreign]; exact .finished r place rfl ended complete running

-- Extending the trace: what the new events must say for the state to stay good.
theorem Good.extended (base : IoTask) (events : List IoEvent) (h : History) (now : Nat) (settleMs : UInt32)
    (observed : events.foldl History.record base.history = h) (relay : base.pulser.relay < relayCount)
    (queued : ∀ seq ∈ base.cmdQ, seq.Fit) (prior : ∀ mask ok, .wrote mask ok ∈ base.trace → OneRelay mask)
    (added : ∀ mask ok, .wrote mask ok ∈ events → OneRelay mask)
    (phase : Phase base.sequencer base.pulser h.ownPulse now settleMs h.current)
    (failures : ∀ r ∈ h.current, r.Failed → base.seqI2cFailures ≠ 0) (closed : ∀ r ∈ h.closed, r.Completed)
    (counted : base.io.cmdSeq = UInt32.ofNat h.closed.length)
    (published : ∀ r ∈ h.closed.getLast?, r.ended = some (base.io.cmdEnd,base.io.cmdWriteFailed))
    (released : base.pulser.active = false → h.lastWritten ≠ 0 → base.releaseOwed = true) :
    Good (base.log events) now settleMs := by
  have history : (base.log events).history = h := by rw [log_history,observed]
  refine ⟨relay,queued,?_,by rw [history]; exact phase,by rw [history]; exact failures,by rw [history]; exact closed,
    by rw [history]; exact counted,by rw [history]; exact published,by rw [history]; exact released⟩
  intro mask ok logged
  rcases List.mem_append.mp logged with old | new
  · exact prior mask ok old
  · exact added mask ok new

theorem update_ends (p p' : RelayPulser) (now : UInt32) (updated : p.update now = (true,p')) :
    p.active = true ∧ p' = {p with active := false,ended := true} := by
  unfold RelayPulser.update at updated
  split at updated
  · cases updated
  · rename_i due
    cases updated
    cases active : p.active with
    | false => exact absurd (.inl (by simp [active])) due
    | true => exact ⟨rfl,rfl⟩

def withEdge (h : History) (e : Trailing) : Option SeqRecord :=
  if h.ownPulse then h.current.map fun r => {r with edges := r.edges ++ [e]} else h.current

theorem edge_history (h : History) (time : Nat) (settleMs : UInt32) (ok : Bool) :
    h.record (.edge time settleMs ok) = {h with ownPulse := false,current := withEdge h ⟨time,settleMs,ok⟩} := by
  cases own : h.ownPulse with
  | true => simp [History.record,withEdge,own]
  | false => simp [History.record,withEdge,own]; rw [← own]

theorem withEdge_failed (h : History) (e : Trailing) (r : SeqRecord) (now' : r ∈ withEdge h e) (failed : r.Failed) :
    (∃ prior ∈ h.current, prior.Failed) ∨ (h.ownPulse = true ∧ h.current ≠ none ∧ e.ok = false) := by
  unfold withEdge at now'
  split at now'
  · rename_i own
    obtain ⟨prior,known,rfl⟩ := Option.map_eq_some_iff.mp now'
    rcases failed with ⟨x,member,bad⟩ | ⟨f,member,bad⟩
    · exact .inl ⟨prior,known,.inl ⟨x,member,bad⟩⟩
    · rcases List.mem_append.mp member with old | new
      · exact .inl ⟨prior,known,.inr ⟨f,old,bad⟩⟩
      · rw [List.mem_singleton.mp new] at bad
        exact .inr ⟨own,by rw [known]; simp,bad⟩
  · exact .inl ⟨r,now',failed⟩

theorem Phase.running_of_own (phase : Phase q p true now settleMs known) : q.running = true := by
  cases phase with
  | idle _ foreign => cases foreign
  | first _ _ _ foreign => cases foreign
  | firstPulse _ _ _ place => simp [CommandSequencer.running,place.1]
  | firstEdge _ _ _ _ _ dead => cases dead.1
  | settling _ _ _ _ _ foreign => cases foreign
  | secondPulse _ _ _ _ _ place => simp [CommandSequencer.running,place.1]
  | secondEdge _ _ _ _ _ _ _ dead => cases dead.1
  | finished _ _ foreign => cases foreign

theorem trailingEdge_good (s : IoTask) (i : PassInput) (now : Nat) (settleMs : UInt32) (settled : Settled s now settleMs)
    (order : now ≤ i.time) :
    Good (s.trailingEdge i) i.time i.params.settleMs ∧ (s.trailingEdge i).sequencer = s.sequencer := by
  have phase : Phase s.sequencer s.pulser s.history.ownPulse i.time i.params.settleMs s.history.current :=
    settled.phase.later order settled.pulsing
  unfold IoTask.trailingEdge
  split
  · exact ⟨⟨settled.relay,settled.queued,settled.masks,phase,settled.failures,settled.closed,settled.counted,
      settled.published,settled.released⟩,rfl⟩
  · rename_i pulser updated
    obtain ⟨active,rfl⟩ := update_ends _ _ _ updated
    refine ⟨Good.extended _ _ {s.history with
        ownPulse := false
        current := withEdge s.history ⟨i.time,i.params.settleMs,i.releaseWrite.ok⟩
        lastWritten := if i.releaseWrite.ok then 0 else s.history.lastWritten} _ _ ?_ settled.relay settled.queued settled.masks
      ?_ ?_ ?_ settled.closed settled.counted settled.published ?_,rfl⟩
    · rw [List.foldl_append,writeEvent_history,List.foldl_cons,List.foldl_nil,edge_history]
      rfl
    · intro mask ok logged
      rcases List.mem_append.mp logged with write | edge
      · exact .inl (writeEvent_mask _ _ _ _ write)
      · simp at edge
    · exact phase.trailing settled.pulsing rfl _
    · intro r known failed
      dsimp only
      rcases withEdge_failed _ _ _ known failed with ⟨prior,before,bad⟩ | ⟨own,_,bad⟩
      · have counted := settled.failures prior before bad
        split <;> omega
      · rw [own] at phase
        have lost : i.releaseWrite.ok = false := bad
        rw [if_pos (by simp [lost,phase.running_of_own])]
        omega
    · intro _ energised
      cases ok : i.releaseWrite.ok with
      | false => rfl
      | true => simp [ok] at energised

theorem takeCommand_good (s : IoTask) (i : PassInput) (settleMs : UInt32) (good : Good s i.time settleMs)
    (silent : s.sequencer.ended = false) :
    Good (s.takeCommand i) i.time settleMs ∧ (s.takeCommand i).sequencer.ended = false := by
  unfold IoTask.takeCommand
  split
  · exact ⟨good,silent⟩
  · rename_i quiet
    have idle : s.sequencer.state = .idle := by simpa [CommandSequencer.running] using quiet
    split
    · exact ⟨good,silent⟩
    · rename_i cmd rest queue
      -- An idle sequencer with no unreported end carries no record, so the new one displaces nothing.
      have empty : s.history.current = none ∧ s.history.ownPulse = false := by
        have phase := good.phase
        cases known : s.history.current with
        | none =>
            rw [known] at phase
            cases phase with
            | idle _ foreign => exact ⟨rfl,foreign⟩
        | some r =>
            rw [known] at phase
            cases phase with
            | first _ _ place => rw [idle] at place; cases place.1
            | firstPulse _ _ _ place => rw [idle] at place; cases place.1
            | firstEdge _ _ _ _ place => rw [idle] at place; cases place.1
            | settling _ _ _ _ place => rw [idle] at place; cases place.1
            | secondPulse _ _ _ _ _ place => rw [idle] at place; cases place.1
            | secondEdge _ _ _ _ _ _ place => rw [idle] at place; cases place.1
            | finished _ _ _ ended => rw [silent] at ended; cases ended.1
      have begun : s.sequencer.begin cmd (stamp i.time) = (true,{s.sequencer with
          relays := cmd,step := 0,notBeforeMs := stamp i.time,ended := false,state := .waiting}) := by
        simp [CommandSequencer.begin,idle]
      rw [begun]
      refine ⟨Good.extended _ _ {s.history with current := some {seq := cmd}} _ _ ?_ good.relay ?_ good.masks (by simp) ?_ ?_
        good.closed good.counted good.published good.released,rfl⟩
      · change s.history.record (.taken cmd) = _
        simp [History.record,empty.1]
      · intro seq member
        exact good.queued seq (by rw [queue]; exact List.mem_cons_of_mem _ member)
      · rw [empty.2]
        exact .first _ ⟨rfl,good.queued cmd (by rw [queue]; exact List.mem_cons_self ..),rfl,rfl⟩ ⟨rfl,rfl⟩ rfl ⟨rfl,rfl⟩
      · intro r known failed
        cases known
        rcases failed with ⟨_,member,_⟩ | ⟨_,member,_⟩ <;> cases member

def withStart (known : Option SeqRecord) (a : Leading) : Option SeqRecord :=
  known.map fun r => {r with starts := r.starts ++ [a]}

-- A waiting step either stays where it is or starts exactly the relay that is next in its sequence.
theorem Phase.tryStart (phase : Phase q p own now settleMs known) (quiet : q.state ≠ .pulsing) (width spacing : UInt32)
    (nonzero : width ≠ 0) (ran : q.tryStart p width spacing (stamp now) = (fired,q',p')) :
    (fired = false ∧ p' = p ∧ q' = q) ∨
    (fired = true ∧ p.active = false ∧ p'.active = true ∧ p'.relay < relayCount ∧ q'.ended = false ∧
      ∀ ok, Phase q' p' true now settleMs (withStart known ⟨p'.relay,now,ok⟩)) := by
  rcases tryStart_parts _ _ _ _ _ _ _ _ ran with ⟨rfl,waiting,due,small,free,rfl,rfl⟩ | ⟨rfl,rfl,same | ⟨_,waiting,refused⟩⟩
  · refine .inr ⟨rfl,free,rfl,small,?_⟩
    cases phase with
    | idle place => rw [place] at waiting; cases waiting
    | first r loaded place foreign shape =>
        have relay : q.relayAt = r.seq.first := by simp [CommandSequencer.relayAt,place.2,loaded.relays]
        refine ⟨loaded.silent,fun ok => .firstPulse _ ⟨q.relayAt,now,ok⟩ ⟨loaded.relays,loaded.fit,loaded.running,loaded.silent⟩
          ⟨rfl,place.2⟩ ⟨rfl,rfl⟩ ⟨by simp [shape.1],shape.2,relay⟩⟩
    | firstPulse _ _ _ place => exact absurd place.1 quiet
    | firstEdge _ _ _ _ place => exact absurd place.1 quiet
    | settling r a e loaded place foreign shape two late =>
        have relay : q.relayAt = r.seq.second := by simp [CommandSequencer.relayAt,place.2,loaded.relays]
        rw [late.2.2] at due
        refine ⟨loaded.silent,fun ok => .secondPulse _ a ⟨q.relayAt,now,ok⟩ e
          ⟨loaded.relays,loaded.fit,loaded.running,loaded.silent⟩ ⟨rfl,place.2⟩ ⟨rfl,rfl⟩
          ⟨by simp [shape.1],shape.2.1,shape.2.2,relay,two⟩ (not_early _ _ _ late.2.1 late.1 due)⟩
    | secondPulse _ _ _ _ _ place => exact absurd place.1 quiet
    | secondEdge _ _ _ _ _ _ place => exact absurd place.1 quiet
    | finished _ place => rw [place] at waiting; cases waiting
  · exact .inl ⟨rfl,rfl,same⟩
  · -- A refusal needs a relay the board does not have or a zero width; neither can be asked for.
    have fits : q.relayAt < relayCount := by
      cases phase with
      | idle place => rw [place] at waiting; cases waiting
      | first r loaded place =>
          have relay : q.relayAt = r.seq.first := by simp [CommandSequencer.relayAt,place.2,loaded.relays]
          rw [relay]; exact loaded.fit.first
      | firstPulse _ _ _ place => exact absurd place.1 quiet
      | firstEdge _ _ _ _ place => exact absurd place.1 quiet
      | settling r a e loaded place _ _ two =>
          have relay : q.relayAt = r.seq.second := by simp [CommandSequencer.relayAt,place.2,loaded.relays]
          rw [relay]
          exact loaded.fit.second.resolve_left two
      | secondPulse _ _ _ _ _ place => exact absurd place.1 quiet
      | secondEdge _ _ _ _ _ _ place => exact absurd place.1 quiet
      | finished _ place => rw [place] at waiting; cases waiting
    exact absurd (refused fits) nonzero

theorem Phase.service (phase : Phase q p own now settleMs known) (small : p.relay < relayCount) (width spacing : UInt32)
    (nonzero : width ≠ 0) (short : settleMs.toNat ≤ 2 ^ 31)
    (ran : q.service p width spacing settleMs (stamp now) = (fired,q',p')) :
    (fired = false ∧ p' = p ∧ Phase q' p own now settleMs known ∧ (q'.state = .pulsing → p.active = true)) ∨
    (fired = true ∧ p.active = false ∧ p'.active = true ∧ p'.relay < relayCount ∧ q'.ended = false ∧
      ∀ ok, Phase q' p' true now settleMs (withStart known ⟨p'.relay,now,ok⟩)) := by
  unfold CommandSequencer.service at ran
  split at ran
  · rename_i pulsing
    split at ran
    · rename_i energised
      cases ran
      have active : p.active = true := by
        cases active : p.active with
        | true => rfl
        | false => exact absurd (mask_idle p active) energised
      exact .inl ⟨rfl,rfl,phase,fun _ => active⟩
    · rename_i dark
      have inactive : p.active = false := by
        cases active : p.active with
        | false => rfl
        | true => exact absurd (mask_active p active small) dark
      split at ran
      · rename_i last
        cases ran
        refine .inl ⟨rfl,rfl,?_,fun impossible => by cases impossible⟩
        cases phase with
        | idle place => rw [place] at pulsing; cases pulsing
        | first _ _ place => rw [place.1] at pulsing; cases pulsing
        | firstPulse _ _ _ _ live => rw [inactive] at live; cases live.2
        | firstEdge r a e loaded place dead shape seen =>
            have single : r.seq.second = noRelay := by
              rcases last with step | none
              · rw [place.2] at step; cases step
              · rw [← loaded.relays]; exact none
            exact .finished r rfl dead.1 ⟨rfl,rfl⟩ (shape.complete single) loaded.running
        | settling _ _ _ _ place => rw [place.1] at pulsing; cases pulsing
        | secondPulse _ _ _ _ _ _ live => rw [inactive] at live; cases live.2
        | secondEdge r a b e f loaded place dead shape late =>
            exact .finished r rfl dead.1 ⟨rfl,rfl⟩ ⟨shape.expected,by simp [shape.1,shape.2.1],shape.spaced late⟩ loaded.running
        | finished _ place => rw [place] at pulsing; cases pulsing
      · rename_i more
        have next : Phase {q with step := 1,notBeforeMs := stamp now + settleMs,state := .waiting} p own now settleMs known := by
          cases phase with
          | idle place => rw [place] at pulsing; cases pulsing
          | first _ _ place => rw [place.1] at pulsing; cases pulsing
          | firstPulse _ _ _ _ live => rw [inactive] at live; cases live.2
          | firstEdge r a e loaded place dead shape seen =>
              have two : r.seq.second ≠ noRelay := by
                intro none
                exact more (.inr (by rw [loaded.relays]; exact none))
              exact .settling r a e ⟨loaded.relays,loaded.fit,loaded.running,loaded.silent⟩ ⟨rfl,rfl⟩ dead.1 shape two
                ⟨Nat.le_of_eq seen.1,by rw [seen.2]; exact short,by rw [seen.1,seen.2]⟩
          | settling _ _ _ _ place => rw [place.1] at pulsing; cases pulsing
          | secondPulse _ _ _ _ _ _ live => rw [inactive] at live; cases live.2
          | secondEdge _ _ _ _ _ _ place => exact absurd (.inl place.2) more
          | finished _ place => rw [place] at pulsing; cases pulsing
        rcases next.tryStart (by simp) width spacing nonzero ran with ⟨rfl,rfl,rfl⟩ | started
        · exact .inl ⟨rfl,rfl,next,fun impossible => by cases impossible⟩
        · exact .inr started
  · rename_i quiet
    rcases phase.tryStart quiet width spacing nonzero ran with ⟨rfl,rfl,rfl⟩ | started
    · exact .inl ⟨rfl,rfl,phase,fun pulsing => absurd pulsing quiet⟩
    · exact .inr started

theorem withStart_failed (known : Option SeqRecord) (a : Leading) (r : SeqRecord) (added : r ∈ withStart known a)
    (failed : r.Failed) : (∃ prior ∈ known, prior.Failed) ∨ a.ok = false := by
  obtain ⟨prior,before,rfl⟩ := Option.map_eq_some_iff.mp added
  rcases failed with ⟨x,member,bad⟩ | ⟨f,member,bad⟩
  · rcases List.mem_append.mp member with old | new
    · exact .inl ⟨prior,before,.inl ⟨x,old,bad⟩⟩
    · rw [List.mem_singleton.mp new] at bad
      exact .inr bad
  · exact .inl ⟨prior,before,.inr ⟨f,member,bad⟩⟩

theorem serviceSequence_good (s : IoTask) (i : PassInput) (good : Good s i.time i.params.settleMs) (ranged : i.params.InRange) :
    Good (s.serviceSequence i) i.time i.params.settleMs ∧
      ((s.serviceSequence i).sequencer.state = .pulsing → (s.serviceSequence i).pulser.active = true) := by
  have nonzero : i.params.widthMs ≠ 0 := by
    intro zero
    have wide := ranged.width.1
    rw [zero] at wide
    exact absurd wide (by decide)
  have short : i.params.settleMs.toNat ≤ 2 ^ 31 := Nat.le_trans ranged.settle.2 (by decide)
  unfold IoTask.serviceSequence
  split
  · rename_i sequencer pulser ran
    rcases good.phase.service good.relay _ _ nonzero short ran with ⟨_,rfl,phase,live⟩ | ⟨impossible,_⟩
    · exact ⟨⟨good.relay,good.queued,good.masks,phase,good.failures,good.closed,good.counted,good.published,good.released⟩,live⟩
    · cases impossible
  · rename_i sequencer pulser ran
    rcases good.phase.service good.relay _ _ nonzero short ran with ⟨impossible,_⟩ | ⟨_,_,active,small,_,phase⟩
    · cases impossible
    · refine ⟨Good.extended _ _ {s.history with
          ownPulse := true
          current := withStart s.history.current ⟨pulser.relay,i.time,i.startWrite.ok⟩
          lastWritten := if i.startWrite.ok then pulser.mask else s.history.lastWritten} _ _ ?_ small good.queued good.masks
        ?_ (phase _) ?_ good.closed good.counted good.published ?_,fun _ => active⟩
      · rw [List.foldl_append,writeEvent_history]
        rfl
      · intro mask ok logged
        rcases List.mem_append.mp logged with write | start
        · rw [writeEvent_mask _ _ _ _ write]
          exact mask_one pulser small
        · simp at start
      · intro r known failed
        dsimp only
        rcases withStart_failed _ _ _ known failed with ⟨prior,before,bad⟩ | bad
        · have counted := good.failures prior before bad
          split <;> omega
        · have lost : i.startWrite.ok = false := bad
          rw [if_neg (by simp [lost])]
          omega
      · intro inactive
        rw [active] at inactive
        cases inactive

theorem reportEnd_settled (s : IoTask) (now : Nat) (settleMs : UInt32) (good : Good s now settleMs)
    (live : s.sequencer.state = .pulsing → s.pulser.active = true) : Settled s.reportEnd now settleMs := by
  unfold IoTask.reportEnd CommandSequencer.takeEnd
  cases ended : s.sequencer.ended with
  | false => exact ⟨good,live,ended⟩
  | true =>
      have finished : ∃ r, s.history.current = some r ∧ s.sequencer.state = .idle ∧ s.history.ownPulse = false ∧
          s.sequencer.how = .done ∧ r.Complete ∧ r.ended = none := by
        have phase := good.phase
        generalize s.history.current = known at phase
        cases phase with
        | idle _ _ silent => rw [ended] at silent; cases silent
        | first _ loaded => exact absurd loaded.silent (by simp [ended])
        | firstPulse _ _ loaded => exact absurd loaded.silent (by simp [ended])
        | firstEdge _ _ _ loaded => exact absurd loaded.silent (by simp [ended])
        | settling _ _ _ loaded => exact absurd loaded.silent (by simp [ended])
        | secondPulse _ _ _ _ loaded => exact absurd loaded.silent (by simp [ended])
        | secondEdge _ _ _ _ _ loaded => exact absurd loaded.silent (by simp [ended])
        | finished r place foreign ends complete running => exact ⟨r,rfl,place,foreign,ends.2,complete,running⟩
      obtain ⟨r,known,idle,foreign,how,complete,running⟩ := finished
      have closing : r.Failed → (s.seqI2cFailures != 0) = true := by
        intro failed
        simpa using good.failures r known failed
      refine ⟨Good.extended _ _ {s.history with
          closed := s.history.closed ++ [{r with ended := some (s.sequencer.how,s.seqI2cFailures != 0)}]
          current := none} _ _ ?_ good.relay good.queued good.masks (by simp) ?_ (by simp) ?_ ?_ ?_ good.released,?_,rfl⟩
      · change s.history.record (.ended s.sequencer.how (s.seqI2cFailures != 0)) = _
        simp [History.record,known]
      · rw [foreign]; exact .idle idle rfl rfl
      · intro record member
        rcases List.mem_append.mp member with old | new
        · exact good.closed record old
        · rw [List.mem_singleton.mp new]
          exact ⟨⟨complete.relays,complete.edges,complete.spaced⟩,_,by simp [how],closing⟩
      · simp [good.counted]
      · simp
      · intro pulsing
        have impossible : s.sequencer.state = .pulsing := pulsing
        rw [idle] at impossible
        cases impossible

theorem benchPulse_settled (s : IoTask) (i : PassInput) (now : Nat) (settleMs : UInt32) (settled : Settled s now settleMs) :
    Settled (s.benchPulse i) now settleMs := by
  unfold IoTask.benchPulse
  split
  · exact settled
  · rename_i req asked
    dsimp only
    split
    · rename_i pulser started
      rcases start_parts _ _ _ _ _ _ _ started with ⟨_,small,free,equal⟩ | ⟨other,_⟩
      · -- The pulser was free, so no pulse of the sequence is interrupted.
        have quiet : s.sequencer.state ≠ .pulsing := by
          intro pulsing
          rw [settled.pulsing pulsing] at free
          cases free
        have active : pulser.active = true := by rw [equal]
        have inside : pulser.relay < relayCount := by rw [equal]; exact small
        obtain ⟨foreign,phase⟩ := settled.phase.other_pulser quiet pulser
        refine ⟨Good.extended _ _ {s.history with
            ownPulse := false
            lastWritten := if i.benchWrite then pulser.mask else s.history.lastWritten} _ _ ?_ inside settled.queued settled.masks
          ?_ phase settled.failures settled.closed settled.counted settled.published ?_,fun pulsing => absurd pulsing quiet,
          settled.silent⟩
        · cases i.benchWrite <;> rfl
        · intro mask ok logged
          have written : mask = pulser.mask := by
            simp at logged
            exact logged.1
          rw [written]
          exact mask_one _ inside
        · intro inactive
          exact absurd active (by simpa using inactive)
      · exact absurd rfl other
    · rename_i other started
      rcases start_parts _ _ _ _ _ _ _ started with ⟨impossible,_⟩ | ⟨_,rfl,_⟩
      · exact absurd impossible other
      · exact ⟨⟨settled.relay,settled.queued,settled.masks,settled.phase,settled.failures,settled.closed,settled.counted,
          settled.published,settled.released⟩,settled.pulsing,settled.silent⟩

theorem pollRetry_settled (s : IoTask) (i : PassInput) (now : Nat) (settleMs : UInt32) (settled : Settled s now settleMs) :
    Settled (s.pollRetry i) now settleMs := by
  unfold IoTask.pollRetry
  split
  · dsimp only
    split
    · refine ⟨Good.extended _ _ {s.history with
          lastWritten := if i.retryWrite.ok then s.pulser.mask else s.history.lastWritten} _ _ ?_ settled.relay settled.queued
        settled.masks ?_ settled.phase settled.failures settled.closed settled.counted settled.published ?_,settled.pulsing,
        settled.silent⟩
      · rw [writeEvent_history]
        rfl
      · intro mask ok logged
        rw [writeEvent_mask _ _ _ _ logged]
        exact mask_one _ settled.relay
      · intro inactive energised
        have dark : s.pulser.mask = 0 := mask_idle _ inactive
        cases ok : i.retryWrite.ok with
        | false => rfl
        | true => simp [ok,dark] at energised
    · exact ⟨⟨settled.relay,settled.queued,settled.masks,settled.phase,settled.failures,settled.closed,settled.counted,
        settled.published,settled.released⟩,settled.pulsing,settled.silent⟩
  · exact settled

-- What the claims about a pass assume of its inputs: parameters inside their rows, commands the application can dispatch.
structure PassInput.Lawful (i : PassInput) : Prop where
  ranged : i.params.InRange
  dispatched : ∀ seq ∈ i.commands, ∃ cmd, relaySequenceFor cmd = some seq

theorem pass_settled (s : IoTask) (i : PassInput) (now : Nat) (settleMs : UInt32) (settled : Settled s now settleMs)
    (order : now ≤ i.time) (lawful : i.Lawful) : Settled (s.pass i) i.time i.params.settleMs := by
  have queued : Settled {s with cmdQ := s.cmdQ ++ i.commands} now settleMs := by
    refine ⟨⟨settled.relay,?_,settled.masks,settled.phase,settled.failures,settled.closed,settled.counted,settled.published,
      settled.released⟩,settled.pulsing,settled.silent⟩
    intro seq member
    rcases List.mem_append.mp member with old | new
    · exact settled.queued seq old
    · obtain ⟨cmd,given⟩ := lawful.dispatched seq new
      exact relaySequenceFor_fit cmd seq given
  unfold IoTask.pass
  dsimp only
  split
  · exact ⟨⟨queued.relay,queued.queued,queued.masks,queued.phase.later order queued.pulsing,queued.failures,queued.closed,
      queued.counted,queued.published,queued.released⟩,queued.pulsing,queued.silent⟩
  · obtain ⟨edged,sameSequencer⟩ := trailingEdge_good _ i now settleMs queued order
    obtain ⟨taken,_⟩ := takeCommand_good _ i _ edged (by rw [sameSequencer]; exact queued.silent)
    obtain ⟨served,live⟩ := serviceSequence_good _ i taken lawful.ranged
    exact pollRetry_settled _ i _ _ (benchPulse_settled _ i _ _ (reportEnd_settled _ _ _ served live))

theorem initial_settled (nextPoll : UInt32) (settleMs : UInt32) : Settled {nextPoll := nextPoll} 0 settleMs :=
  ⟨⟨show (0 : UInt8) < relayCount by decide,by simp,by simp,.idle rfl rfl rfl,by simp [IoTask.history,observe],
    by simp [IoTask.history,observe],rfl,by simp [IoTask.history,observe],fun _ energised => absurd rfl energised⟩,
    fun pulsing => SequencerState.noConfusion pulsing,rfl⟩

def IoTask.run (s : IoTask) (passes : List PassInput) : IoTask := passes.foldl IoTask.pass s

theorem run_settled (s : IoTask) (passes : List PassInput) (now : Nat) (settleMs : UInt32) (settled : Settled s now settleMs)
    (ordered : (now :: passes.map (·.time)).IsChain (· ≤ ·)) (lawful : ∀ i ∈ passes, i.Lawful) :
    ∃ now' settleMs', Settled (s.run passes) now' settleMs' := by
  induction passes generalizing s now settleMs with
  | nil => exact ⟨now,settleMs,settled⟩
  | cons i rest ih =>
      rw [List.map_cons,List.isChain_cons_cons] at ordered
      exact ih (s.pass i) i.time i.params.settleMs
        (pass_settled s i now settleMs settled ordered.1 (lawful i (List.mem_cons_self ..))) ordered.2
        (fun j member => lawful j (List.mem_cons_of_mem _ member))

theorem io_task_actuation_integrity (nextPoll : UInt32) (passes : List PassInput)
    (ordered : (passes.map (·.time)).IsChain (· ≤ ·)) (lawful : ∀ i ∈ passes, i.Lawful) :
    let s := IoTask.run {nextPoll := nextPoll} passes
    (∀ mask ok, .wrote mask ok ∈ s.trace → OneRelay mask) ∧
    takenSequences s.trace = (s.history.closed ++ s.history.current.toList).map (·.seq) ∧
    (∀ r ∈ s.history.closed, r.Completed) ∧ (∀ r ∈ s.history.current, r.Underway) ∧
    s.io.cmdSeq = UInt32.ofNat s.history.closed.length ∧
    (∀ r ∈ s.history.closed.getLast?, r.ended = some (s.io.cmdEnd,s.io.cmdWriteFailed)) ∧
    (s.pulser.active = false → s.history.lastWritten ≠ s.pulser.mask → s.releaseOwed = true) := by
  have chained : (0 :: passes.map (·.time)).IsChain (· ≤ ·) := by
    cases times : passes.map (·.time) with
    | nil => simp
    | cons time rest => rw [List.isChain_cons_cons,← times]; exact ⟨Nat.zero_le _,ordered⟩
  obtain ⟨now,settleMs,settled⟩ := run_settled _ passes 0 0 (initial_settled nextPoll 0) chained lawful
  refine ⟨settled.masks,taken_recorded _,settled.closed,?_,settled.counted,settled.published,?_⟩
  · intro r known
    have phase := settled.phase
    rw [Option.mem_def.mp known] at phase
    exact phase.underway
  · intro inactive energised
    rw [mask_idle _ inactive] at energised
    exact settled.released inactive energised

-- An immediate close across four passes, the first leading-edge write failing.
def closeNow : List PassInput :=
  [{time := 0,params := ⟨100,500,300,500⟩,commands := [{first := k2Unlock,second := k4CloseNow}],startWrite := .failed},
   {time := 500,params := ⟨100,500,300,500⟩},{time := 1000,params := ⟨100,500,300,500⟩},
   {time := 1500,params := ⟨100,500,300,500⟩}]

theorem io_task_actuation_integrity_close_now :
    (IoTask.run {} closeNow).io.cmdSeq = 1 ∧ (IoTask.run {} closeNow).io.cmdWriteFailed = true ∧
      ∀ r ∈ (IoTask.run {} closeNow).history.closed, r.Completed := by
  have lawful : ∀ i ∈ closeNow, i.Lawful := by
    intro i member
    have params : i.params = ⟨100,500,300,500⟩ ∧ ∀ seq ∈ i.commands, seq = {first := k2Unlock,second := k4CloseNow} := by
      simp only [closeNow,List.mem_cons,List.not_mem_nil,or_false] at member
      rcases member with rfl | rfl | rfl | rfl <;> simp
    refine ⟨by rw [params.1]; exact ⟨by decide,by decide,by decide,by decide⟩,?_⟩
    intro seq queued
    exact ⟨{cmd := cmdClose,arg := 1},by rw [params.2 seq queued]; rfl⟩
  obtain ⟨_,_,completed,_⟩ := io_task_actuation_integrity 0 closeNow (by decide) lawful
  exact ⟨by decide +kernel,by decide +kernel,completed⟩

end LoraRan.GateLink
