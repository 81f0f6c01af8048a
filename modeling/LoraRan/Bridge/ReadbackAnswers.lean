import LoraRan.Bridge.ConfigPath
import LoraRan.Library.StepSystem

namespace LoraRan.Bridge
open Protocol Config Library.StepSystem
open ConfigPath (BeginsWalk)

-- One answer of a node: its messages in order, every one but the last marked. Only the first of a walk starts at the table's first row.
structure NodeAnswer where
  src : NodeId
  messages : List (Seq × NodeConfigAckV1)
  marked : ∀ k m, messages[k]? = some m → m.2.moreFollows = decide (k + 1 < messages.length)
  ascends : ∀ k m, messages[k]? = some m → BeginsWalk m.2 → k = 0
  alike : ∀ m ∈ messages, ∀ m' ∈ messages, m.2.op = m'.2.op
  deriving DecidableEq

def NodeAnswer.entries (a : NodeAnswer) : List ConfigAckEntry := a.messages.flatMap fun m => m.2.entries

-- A whole GET_ALL walk of the table.
def NodeAnswer.IsWalk (a : NodeAnswer) : Prop :=
  (∀ m ∈ a.messages, m.2.op = configOpGetAll) ∧ ∃ m ∈ a.messages.head?, BeginsWalk m.2

instance isWalkDecidable (a : NodeAnswer) : Decidable a.IsWalk := inferInstanceAs (Decidable (_ ∧ _))

-- What one answer may be at most, and the bridge can hold.
def NodeAnswer.Fits (a : NodeAnswer) : Prop := a.messages.length ≤ maxConfigAckMessages ∧ a.entries.length ≤ maxStagedResults

instance fitsDecidable (a : NodeAnswer) : Decidable a.Fits := inferInstanceAs (Decidable (_ ∧ _))

inductive ConfigEvent where
  | submit (job : ConfigJob) (ctx : CtxId) (seq : Seq) (nowMs : UInt32)
  | next (nowMs : UInt32)
  | sent (nowMs : UInt32)
  | aired (airedMs : UInt32)
  | answer (a : NodeAnswer)
  | deliver (a : NodeAnswer) (k : Nat) (nowMs : UInt32)
  | ackTimeout (ms : UInt32)
  | readbackTimeout (ms : UInt32)

-- The path, the answers nodes have sent so far, and of the job in hand: the outcomes told and the answer it is being given.
structure ConfigRun where
  path : ConfigPath := {}
  sent : List NodeAnswer := []
  begun : Bool := false
  told : List ConfigOutcome := []
  current : Option NodeAnswer := none

namespace ConfigRun

def begins (s : ConfigRun) (ack : NodeConfigAckV1) : Bool := decide (s.path.phase = .idle ∧ BeginsWalk ack)

-- The path as it stands when it looks whether a message is for it.
def opened (s : ConfigRun) (src : NodeId) (ack : NodeConfigAckV1) (nowMs : UInt32) : ConfigPath :=
  if s.begins ack then s.path.begin_ src nowMs else s.path

def Takes (s : ConfigRun) (a : NodeAnswer) (m : Seq × NodeConfigAckV1) (nowMs : UInt32) : Prop := (s.opened a.src m.2 nowMs).Takes a.src m.1

instance runTakesDecidable (s : ConfigRun) (a : NodeAnswer) (m : Seq × NodeConfigAckV1) (nowMs : UInt32) : Decidable (s.Takes a m nowMs) :=
  inferInstanceAs (Decidable (ConfigPath.Takes _ _ _))

def deliver (s : ConfigRun) (a : NodeAnswer) (m : Seq × NodeConfigAckV1) (nowMs : UInt32) : ConfigRun :=
  {s with
    path := s.path.onConfigAck a.src m.2 m.1 nowMs
    begun := s.begun || s.begins m.2
    told := if s.begins m.2 then [] else s.told
    current := if s.Takes a m nowMs then some a else s.current}

def step (s : ConfigRun) : ConfigEvent → ConfigRun
  | .submit job ctx seq nowMs =>
      if (s.path.submit job ctx seq nowMs).1 then
        {s with path := (s.path.submit job ctx seq nowMs).2,begun := true,told := [],current := none}
      else s
  | .next nowMs =>
      let step := (s.path.next nowMs).1
      {s with path := (s.path.next nowMs).2,told := if step.action = .resolve then s.told ++ [step.outcome] else s.told}
  | .sent nowMs => {s with path := s.path.onSent nowMs}
  | .aired airedMs => {s with path := s.path.onAired airedMs}
  | .answer a => {s with sent := a :: s.sent}
  | .deliver a k nowMs =>
      match a.messages[k]? with
      | some m => s.deliver a m nowMs
      | none => s
  | .ackTimeout ms => {s with path := {s.path with ackTimeoutMs := ms}}
  | .readbackTimeout ms => {s with path := {s.path with readbackTimeoutMs := ms}}

-- Any message of any answer sent, at any time and any number of times.
def Allowed (s : ConfigRun) : ConfigEvent → Prop
  | .deliver a k _ => a ∈ s.sent ∧ k < a.messages.length
  | _ => True

instance configAllowedDecidable (s : ConfigRun) (e : ConfigEvent) : Decidable (s.Allowed e) :=
  match e with
  | .deliver _ _ _ => inferInstanceAs (Decidable (_ ∧ _))
  | .submit _ _ _ _ | .next _ | .sent _ | .aired _ | .answer _ | .ackTimeout _ | .readbackTimeout _ => .isTrue trivial

-- A message the path takes is the next of the answer it has been taking, and a readback takes a walk. An answer that opens a
-- readback on an idle path is checked by the code.
def InTurn (s : ConfigRun) (a : NodeAnswer) (k : Nat) (m : Seq × NodeConfigAckV1) : Prop :=
  a.Fits ∧ (s.begins m.2 = false →
    k = s.path.messagesStaged ∧ (k ≠ 0 → s.current = some a) ∧ (s.path.phase = .awaitingReadback → a.IsWalk))

instance inTurnDecidable (s : ConfigRun) (a : NodeAnswer) (k : Nat) (m : Seq × NodeConfigAckV1) : Decidable (s.InTurn a k m) :=
  inferInstanceAs (Decidable (_ ∧ (_ → _)))

def Orderly (s : ConfigRun) (e : ConfigEvent) : Prop :=
  s.Allowed e ∧
    match e with
    | .deliver a k nowMs => ∀ m ∈ a.messages[k]?, s.Takes a m nowMs → s.InTurn a k m
    | .next nowMs => s.path.AckExpired nowMs → s.path.messagesStaged = 0
    | _ => True

instance orderlyDecidable (s : ConfigRun) (e : ConfigEvent) : Decidable (s.Orderly e) :=
  match e with
  | .deliver a k nowMs => inferInstanceAs (Decidable (_ ∧ ∀ m ∈ a.messages[k]?, s.Takes a m nowMs → s.InTurn a k m))
  | .next nowMs => inferInstanceAs (Decidable (_ ∧ (s.path.AckExpired nowMs → s.path.messagesStaged = 0)))
  | .submit _ _ _ _ | .sent _ | .aired _ | .answer _ | .ackTimeout _ | .readbackTimeout _ => inferInstanceAs (Decidable (_ ∧ True))

-- The rows published are those of one whole answer of the job's node: the one to its request, or a walk.
def Whole (s : ConfigRun) (step : ConfigStep) : Prop :=
  ∃ a ∈ s.sent, a.src = step.dst ∧ step.results = a.entries ∧
    ((step.outcome = .acked ∧ ∀ m ∈ a.messages, m.1 = s.path.seq) ∨ (step.outcome = .readbackOk ∧ a.IsWalk))

-- The outcomes told of a job that is over.
def Complete (readbackOnly : Bool) (told : List ConfigOutcome) : Prop :=
  if readbackOnly then told = [.readbackOk] ∨ told = [.abandoned]
  else told = [.acked] ∨ told = [.unknown,.readbackOk] ∨ told = [.unknown,.abandoned]

-- The outcomes told so far, by phase.
def Telling (s : ConfigRun) : Prop :=
  match s.path.phase with
  | .idle => s.begun = true → Complete s.path.job.readbackOnly s.told
  | .sendDue | .awaitingAck => s.told = [] ∧ s.path.job.readbackOnly = false
  | .readbackDue | .awaitingReadback => s.told = if s.path.job.readbackOnly then [] else [.unknown]
  | .resolved =>
      (s.path.outcome = .acked ∧ s.told = [] ∧ s.path.job.readbackOnly = false) ∨
        (s.path.outcome = .readbackOk ∧ s.told = if s.path.job.readbackOnly then [] else [.unknown])

theorem next_telling (s : ConfigRun) (nowMs : UInt32) (telling : s.Telling) : Telling (s.step (.next nowMs)) := by
  unfold Telling at telling
  change Telling {s with path := (s.path.next nowMs).2,told := _}
  unfold ConfigPath.next
  cases phase : s.path.phase <;> simp only [phase] at telling ⊢
  case idle | sendDue | readbackDue =>
    unfold Telling
    simp only [phase]
    exact telling
  case awaitingAck =>
    obtain ⟨none_,asked⟩ := telling
    split
    · simp [Telling,none_,asked]
    · unfold Telling
      simp only [phase]
      exact ⟨none_,asked⟩
  case awaitingReadback =>
    split
    · intro _
      unfold Complete
      cases kind : s.path.job.readbackOnly <;> simp [telling,kind]
    · unfold Telling
      simp only [phase]
      exact telling
  case resolved =>
    intro _
    unfold Complete
    rcases telling with ⟨outcome,none_,asked⟩ | ⟨outcome,told⟩
    · simp [outcome,none_,asked]
    · cases kind : s.path.job.readbackOnly <;> simp [outcome,told,kind]

theorem sent_telling (s : ConfigRun) (nowMs : UInt32) (telling : s.Telling) : Telling (s.step (.sent nowMs)) := by
  unfold Telling at telling
  change Telling {s with path := s.path.onSent nowMs}
  unfold ConfigPath.onSent
  cases phase : s.path.phase <;> simp only [phase,reduceCtorEq,if_true,if_false] at telling ⊢ <;> exact telling

theorem aired_telling (s : ConfigRun) (airedMs : UInt32) (telling : s.Telling) : Telling (s.step (.aired airedMs)) := by
  change Telling {s with path := s.path.onAired airedMs}
  unfold ConfigPath.onAired
  split
  · exact telling
  · exact telling

theorem submit_telling (s : ConfigRun) (job : ConfigJob) (ctx : CtxId) (seq : Seq) (nowMs : UInt32) (telling : s.Telling) :
    Telling (s.step (.submit job ctx seq nowMs)) := by
  change Telling (if _ then _ else _)
  unfold ConfigPath.submit
  by_cases idle : s.path.phase = .idle
  · rw [if_neg (not_not.mpr idle)]
    cases job.readbackOnly <;> simp [Telling]
  · rw [if_pos idle]
    exact telling

-- A message taken leaves the phase, or closes the answer.
theorem takeMessage_telling (s : ConfigRun) (ack : NodeConfigAckV1) (nowMs : UInt32) (telling : s.Telling)
    (waits : s.path.phase = .awaitingAck ∨ s.path.phase = .awaitingReadback) : Telling {s with path := s.path.takeMessage ack nowMs} := by
  obtain ⟨first,⟨-,is⟩ | ⟨-,-,is⟩ | ⟨-,-,is⟩⟩ := s.path.takeMessage_cases ack nowMs <;> rw [is]
  · exact telling
  · exact telling
  · unfold Telling at telling
    rcases waits with phase | phase <;> simp only [phase] at telling
    · exact .inl ⟨if_pos phase,telling⟩
    · exact .inr ⟨if_neg (by rw [phase]; decide),telling⟩

theorem deliver_telling (s : ConfigRun) (a : NodeAnswer) (m : Seq × NodeConfigAckV1) (nowMs : UInt32) (telling : s.Telling) :
    Telling (s.deliver a m nowMs) := by
  have opened : Telling {s with path := s.opened a.src m.2 nowMs,begun := s.begun || s.begins m.2,told := if s.begins m.2 then [] else s.told} := by
    unfold ConfigRun.opened
    cases kind : s.begins m.2 with
    | true => exact rfl
    | false => simpa using telling
  have path : s.path.onConfigAck a.src m.2 m.1 nowMs =
      if s.Takes a m nowMs then (s.opened a.src m.2 nowMs).takeMessage m.2 nowMs else s.opened a.src m.2 nowMs := by
    simp only [ConfigPath.onConfigAck,Takes,ConfigRun.opened,begins,decide_eq_true_eq]
  unfold deliver
  rw [path]
  split
  · next takes =>
    refine takeMessage_telling ⟨s.opened a.src m.2 nowMs,s.sent,_,_,_⟩ m.2 nowMs opened ?_
    rcases takes.2 with ⟨phase,-⟩ | phase
    · exact .inl phase
    · exact .inr phase
  · exact opened

theorem step_telling (s : ConfigRun) (e : ConfigEvent) (telling : s.Telling) : Telling (s.step e) := by
  cases e with
  | submit job ctx seq nowMs => exact submit_telling s job ctx seq nowMs telling
  | next nowMs => exact next_telling s nowMs telling
  | sent nowMs => exact sent_telling s nowMs telling
  | aired airedMs => exact aired_telling s airedMs telling
  | answer a => exact telling
  | deliver a k nowMs =>
      change Telling (match a.messages[k]? with | some m => s.deliver a m nowMs | none => s)
      split
      · exact deliver_telling s a _ nowMs telling
      · exact telling
  | ackTimeout ms => exact telling
  | readbackTimeout ms => exact telling

-- The staged rows are those of the first `k` messages of one answer, and the messages are what the phase waits for.
def Begun (p : ConfigPath) (a : NodeAnswer) (k : Nat) : Prop :=
  a.src = p.job.dst ∧ p.staged = (a.messages.take k).flatMap (fun m => m.2.entries) ∧
    (p.phase = .awaitingAck → ∀ m ∈ a.messages.take k, m.1 = p.seq) ∧ (p.phase = .awaitingReadback → a.IsWalk)

def Empty (p : ConfigPath) : Prop := p.messagesStaged = 0 ∧ p.staged = []

-- While it waits the path holds nothing, or the beginning of the answer it is being given.
def Holding (s : ConfigRun) : Prop :=
  Empty s.path ∨ ∃ a ∈ s.sent, s.current = some a ∧ 0 < s.path.messagesStaged ∧ Begun s.path a s.path.messagesStaged

def Standing (s : ConfigRun) : Prop :=
  match s.path.phase with
  | .idle => True
  | .sendDue | .readbackDue => Empty s.path
  | .awaitingAck | .awaitingReadback => s.Holding
  | .resolved =>
      ∃ a ∈ s.sent, a.src = s.path.job.dst ∧ s.path.staged = a.entries ∧
        ((s.path.outcome = .acked ∧ ∀ m ∈ a.messages, m.1 = s.path.seq) ∨ (s.path.outcome = .readbackOk ∧ a.IsWalk))

theorem entries_split (a : NodeAnswer) (k : Nat) (m : Seq × NodeConfigAckV1) (at_ : a.messages[k]? = some m) :
    (a.messages.take (k + 1)).flatMap (fun m => m.2.entries) = (a.messages.take k).flatMap (fun m => m.2.entries) ++ m.2.entries := by
  rw [List.take_add_one,at_,List.flatMap_append]
  simp

theorem take_fits (a : NodeAnswer) (fits : a.Fits) (k : Nat) (m : Seq × NodeConfigAckV1) (at_ : a.messages[k]? = some m) :
    m.2.entries.take (maxStagedResults - ((a.messages.take k).flatMap (fun m => m.2.entries)).length) = m.2.entries := by
  apply List.take_of_length_le
  have whole : a.entries = (a.messages.take (k + 1)).flatMap (fun m => m.2.entries) ++ (a.messages.drop (k + 1)).flatMap (fun m => m.2.entries) := by
    rw [NodeAnswer.entries,← List.flatMap_append,List.take_append_drop]
  have bound := fits.2
  rw [whole,entries_split a k m at_,List.length_append,List.length_append] at bound
  omega

-- The next message of the answer in hand: the path holds one message more, or the whole answer.
theorem take_standing (s : ConfigRun) (a : NodeAnswer) (m : Seq × NodeConfigAckV1) (nowMs : UInt32) (member : a ∈ s.sent)
    (at_ : a.messages[s.path.messagesStaged]? = some m) (fits : a.Fits) (begun : Begun s.path a s.path.messagesStaged)
    (takes : s.path.Takes a.src m.1) : Standing {s with path := s.path.takeMessage m.2 nowMs,current := some a} := by
  obtain ⟨src,rows,numbers,walk⟩ := begun
  have inside : s.path.messagesStaged < a.messages.length := (List.getElem?_eq_some_iff.mp at_).1
  have mark := a.marked _ m at_
  have all : ∀ m' ∈ a.messages.take (s.path.messagesStaged + 1), s.path.phase = .awaitingAck → m'.1 = s.path.seq := by
    intro m' listed phase
    rw [List.take_add_one,at_,List.mem_append] at listed
    rcases listed with before | last
    · exact numbers phase m' before
    · simp only [Option.toList_some,List.mem_singleton] at last
      rw [last]
      rcases takes.2 with ⟨-,number⟩ | other
      · exact number
      · rw [phase] at other
        cases other
  obtain ⟨first,⟨full,-⟩ | ⟨-,more,is⟩ | ⟨-,last,is⟩⟩ := s.path.takeMessage_cases m.2 nowMs
  · have bound := fits.1
    omega
  · rw [is,rows,take_fits a fits _ m at_,← entries_split a _ m at_]
    have held : Holding {s with
        path := {s.path with
          readbackFirstMs := first
          staged := (a.messages.take (s.path.messagesStaged + 1)).flatMap fun m => m.2.entries
          messagesStaged := s.path.messagesStaged + 1
          persist := ackPersistOf m.2.persistStatus}
        current := some a} := .inr ⟨a,member,rfl,Nat.succ_pos _,src,rfl,fun phase m' listed => all m' listed phase,walk⟩
    rcases takes.2 with ⟨phase,-⟩ | phase
    · unfold Standing
      simp only [phase] at held ⊢
      exact held
    · unfold Standing
      simp only [phase] at held ⊢
      exact held
  · rw [is,rows,take_fits a fits _ m at_,← entries_split a _ m at_]
    rw [last,eq_comm,decide_eq_false_iff_not] at mark
    have everything : a.messages.take (s.path.messagesStaged + 1) = a.messages := List.take_of_length_le (by omega)
    rw [everything] at all ⊢
    refine ⟨a,member,src,rfl,?_⟩
    rcases takes.2 with ⟨phase,-⟩ | phase
    · exact .inl ⟨if_pos phase,fun m' listed => all m' listed phase⟩
    · exact .inr ⟨if_neg (by rw [phase]; decide),walk phase⟩

-- The message that opens a readback on an idle path is the first of a walk.
theorem begins_walk (a : NodeAnswer) (k : Nat) (m : Seq × NodeConfigAckV1) (at_ : a.messages[k]? = some m) (starts : BeginsWalk m.2) :
    k = 0 ∧ a.IsWalk := by
  have first := a.ascends k m at_ starts
  subst first
  refine ⟨rfl,?_,m,?_,starts⟩
  · intro m' listed
    rw [a.alike m' listed m (List.mem_of_getElem? at_)]
    exact starts.1
  · rw [List.head?_eq_getElem?]
    exact at_

theorem waiting_holds (s : ConfigRun) (a : NodeAnswer) (m : Seq × NodeConfigAckV1) (takes : s.path.Takes a.src m.1) (standing : s.Standing) :
    s.Holding := by
  unfold Standing at standing
  rcases takes.2 with ⟨phase,-⟩ | phase <;> simp only [phase] at standing <;> exact standing

-- A message in turn continues what the path holds, from the answer's beginning when it holds nothing.
theorem begun_next (s : ConfigRun) (a : NodeAnswer) (m : Seq × NodeConfigAckV1) (holding : s.Holding)
    (same : s.path.messagesStaged ≠ 0 → s.current = some a) (walk : s.path.phase = .awaitingReadback → a.IsWalk)
    (takes : s.path.Takes a.src m.1) : Begun s.path a s.path.messagesStaged := by
  rcases holding with ⟨none_,clear⟩ | ⟨held,-,current,some_,begun⟩
  · rw [none_]
    refine ⟨takes.1,by rw [clear]; rfl,?_,walk⟩
    intro _ m' listed
    cases listed
  · have equal := same (Nat.ne_of_gt some_)
    rw [current,Option.some.injEq] at equal
    rw [← equal]
    exact begun

theorem deliver_standing (s : ConfigRun) (a : NodeAnswer) (k : Nat) (m : Seq × NodeConfigAckV1) (nowMs : UInt32) (member : a ∈ s.sent)
    (at_ : a.messages[k]? = some m) (turn : s.Takes a m nowMs → s.InTurn a k m) (standing : s.Standing) : Standing (s.deliver a m nowMs) := by
  have path : s.path.onConfigAck a.src m.2 m.1 nowMs =
      if s.Takes a m nowMs then (s.opened a.src m.2 nowMs).takeMessage m.2 nowMs else s.opened a.src m.2 nowMs := by
    simp only [ConfigPath.onConfigAck,Takes,ConfigRun.opened,begins,decide_eq_true_eq]
  unfold deliver
  rw [path]
  by_cases takes : s.Takes a m nowMs
  · rw [if_pos takes,if_pos takes]
    obtain ⟨fits,order⟩ := turn takes
    unfold Takes at takes
    cases kind : s.begins m.2 with
    | true =>
        have starts : BeginsWalk m.2 := (of_decide_eq_true kind).2
        obtain ⟨zero,walk⟩ := begins_walk a k m at_ starts
        subst zero
        have opened : s.opened a.src m.2 nowMs = s.path.begin_ a.src nowMs := if_pos kind
        rw [opened] at takes ⊢
        refine take_standing ⟨s.path.begin_ a.src nowMs,s.sent,_,_,s.current⟩ a m nowMs member at_ fits ?_ takes
        exact ⟨rfl,rfl,(fun waits => by cases waits),fun _ => walk⟩
    | false =>
        obtain ⟨count,same,walk⟩ := order kind
        have opened : s.opened a.src m.2 nowMs = s.path := if_neg (by rw [kind]; decide)
        rw [opened] at takes ⊢
        rw [count] at at_
        have begun := begun_next s a m (waiting_holds s a m takes standing) (by rw [← count]; exact same) walk takes
        exact take_standing ⟨s.path,s.sent,_,_,s.current⟩ a m nowMs member at_ fits begun takes
  · rw [if_neg takes,if_neg takes]
    cases kind : s.begins m.2 with
    | true =>
        have opened : s.opened a.src m.2 nowMs = s.path.begin_ a.src nowMs := if_pos kind
        refine absurd ?_ takes
        rw [Takes,opened]
        exact ⟨rfl,.inr rfl⟩
    | false =>
        have opened : s.opened a.src m.2 nowMs = s.path := if_neg (by rw [kind]; decide)
        rw [opened]
        exact standing

theorem next_standing (s : ConfigRun) (nowMs : UInt32) (clear : s.path.AckExpired nowMs → s.path.messagesStaged = 0) (standing : s.Standing) :
    Standing (s.step (.next nowMs)) := by
  unfold Standing at standing
  change Standing {s with path := (s.path.next nowMs).2,told := _}
  unfold ConfigPath.next
  cases phase : s.path.phase <;> simp only [phase] at standing ⊢
  case idle =>
    unfold Standing
    simp only [phase]
  case sendDue | readbackDue =>
    unfold Standing
    simp only [phase]
    exact standing
  case awaitingAck =>
    split
    · next expired =>
      rcases standing with empty | ⟨a,-,-,some_,-⟩
      · exact empty
      · rw [clear expired] at some_
        cases some_
    · unfold Standing
      simp only [phase]
      exact standing
  case awaitingReadback =>
    split
    · trivial
    · unfold Standing
      simp only [phase]
      exact standing
  case resolved => trivial

theorem sent_standing (s : ConfigRun) (nowMs : UInt32) (standing : s.Standing) : Standing (s.step (.sent nowMs)) := by
  unfold Standing at standing
  change Standing {s with path := s.path.onSent nowMs}
  unfold ConfigPath.onSent
  cases phase : s.path.phase <;> simp only [phase,reduceCtorEq,if_true,if_false] at standing ⊢
  case sendDue | readbackDue => exact .inl standing
  case idle => trivial
  case resolved => exact standing
  case awaitingAck | awaitingReadback =>
    rcases standing with empty | ⟨a,member,current,some_,src,rows,numbers,walk⟩
    · exact .inl empty
    · rw [phase] at numbers walk
      exact .inr ⟨a,member,current,some_,src,rows,numbers,walk⟩

theorem answer_standing (s : ConfigRun) (a : NodeAnswer) (standing : s.Standing) : Standing (s.step (.answer a)) := by
  unfold Standing at standing
  change Standing {s with sent := a :: s.sent}
  unfold Standing
  cases phase : s.path.phase <;> simp only [phase] at standing ⊢
  case sendDue | readbackDue => exact standing
  case awaitingAck | awaitingReadback =>
    rcases standing with empty | ⟨held,member,rest⟩
    · exact .inl empty
    · exact .inr ⟨held,List.mem_cons_of_mem a member,rest⟩
  case resolved =>
    obtain ⟨held,member,rest⟩ := standing
    exact ⟨held,List.mem_cons_of_mem a member,rest⟩

theorem submit_standing (s : ConfigRun) (job : ConfigJob) (ctx : CtxId) (seq : Seq) (nowMs : UInt32) (standing : s.Standing) :
    Standing (s.step (.submit job ctx seq nowMs)) := by
  change Standing (if _ then _ else _)
  unfold ConfigPath.submit
  by_cases idle : s.path.phase = .idle
  · rw [if_neg (not_not.mpr idle)]
    cases job.readbackOnly <;> exact ⟨rfl,rfl⟩
  · rw [if_pos idle]
    exact standing

theorem aired_standing (s : ConfigRun) (airedMs : UInt32) (standing : s.Standing) : Standing (s.step (.aired airedMs)) := by
  change Standing {s with path := s.path.onAired airedMs}
  unfold ConfigPath.onAired
  split
  · exact standing
  · exact standing

theorem step_standing (s : ConfigRun) (e : ConfigEvent) (standing : s.Standing) (orderly : s.Orderly e) : Standing (s.step e) := by
  cases e with
  | submit job ctx seq nowMs => exact submit_standing s job ctx seq nowMs standing
  | next nowMs => exact next_standing s nowMs orderly.2 standing
  | sent nowMs => exact sent_standing s nowMs standing
  | aired airedMs => exact aired_standing s airedMs standing
  | answer a => exact answer_standing s a standing
  | deliver a k nowMs =>
      change Standing (match a.messages[k]? with | some m => s.deliver a m nowMs | none => s)
      split
      · next m at_ => exact deliver_standing s a k m nowMs orderly.1.1 at_ (orderly.2 m at_) standing
      · exact standing
  | ackTimeout ms => exact standing
  | readbackTimeout ms => exact standing

theorem updates_whole (s : ConfigRun) (nowMs : UInt32) (standing : s.Standing) (updates : (s.path.next nowMs).1.updatesState = true) :
    s.Whole (s.path.next nowMs).1 := by
  unfold Standing at standing
  unfold ConfigPath.next at updates ⊢
  cases phase : s.path.phase <;> simp only [phase] at standing updates ⊢
  case idle | sendDue | readbackDue => cases updates
  case awaitingAck | awaitingReadback => split at updates <;> cases updates
  case resolved => exact standing

end ConfigRun

open ConfigRun

theorem published_readback_is_one_answer (s : ConfigRun) :
    (Reached step Allowed {} s → s.begun = true → s.path.phase = .idle → Complete s.path.job.readbackOnly s.told) ∧
      (Reached step Orderly {} s → ∀ nowMs, (s.path.next nowMs).1.updatesState = true → s.Whole (s.path.next nowMs).1) := by
  constructor
  · intro path begun idle
    have initial : Telling {} := fun none_ => by cases none_
    have telling : s.Telling := path.invariant Telling initial fun s e telling _ => step_telling s e telling
    unfold Telling at telling
    simp only [idle] at telling
    exact telling begun
  · intro path nowMs updates
    have initial : Standing {} := trivial
    exact updates_whole s nowMs (path.invariant Standing initial step_standing) updates

-- A SET's answer in two messages, and a table of one row walked in one.
def setAnswer : NodeAnswer where
  src := 1
  messages := [(7,{op := configOpSet,moreFollows := true,entries := [{paramId := 0x1000,ptype := ptypeU16,len := 2,value := packValue 2 600}]}),
    (7,{op := configOpSet,entries := [{paramId := 0x1001,ptype := ptypeU16,len := 2,value := packValue 2 700}]})]
  marked := by
    intro k m at_
    rcases k with _ | _ | k <;> simp at at_ <;> subst at_ <;> rfl
  ascends := by
    intro k m at_ starts
    rcases k with _ | _ | k <;> simp at at_ <;> subst at_ <;> exact absurd starts (by decide)
  alike := by decide

def tableWalk : NodeAnswer where
  src := 1
  messages := [(40,{op := configOpGetAll,entries := [{paramId := 0x0100,len := 1,value := packValue 1 8}]})]
  marked := by
    intro k m at_
    rcases k with _ | k <;> simp at at_
    subst at_
    rfl
  ascends := by
    intro k m at_ _
    rcases k with _ | k <;> simp at at_
    rfl
  alike := by decide

def answeredSet : List ConfigEvent :=
  [.submit {dst := 1} 5 7 0,.next 0,.sent 0,.answer setAnswer,.deliver setAnswer 0 200,.deliver setAnswer 1 300]

theorem published_set_answer : (((answeredSet.foldl step {}).path.next 400).1.updatesState = true) ∧
    (answeredSet.foldl step {}).Whole ((answeredSet.foldl step {}).path.next 400).1 := by
  have run : Follows step Orderly {} answeredSet := by decide +kernel
  have updates : ((answeredSet.foldl step {}).path.next 400).1.updatesState = true := by decide +kernel
  exact ⟨updates,(published_readback_is_one_answer _).2 run.reached 400 updates⟩

-- The SET's second message is lost. Its first is still staged when the readback that follows the timeout is published.
def leftOverRow : List ConfigEvent :=
  [.submit {dst := 1} 5 7 0,.next 0,.sent 0,.answer setAnswer,.deliver setAnswer 0 200,.next 8000,.next 8000,.sent 8000,.answer tableWalk,
    .deliver tableWalk 0 8500]

theorem published_readback_mixes_answers : ∃ s nowMs, Reached step Allowed {} s ∧ (s.path.next nowMs).1.updatesState = true ∧
    ¬ s.Whole (s.path.next nowMs).1 := by
  have run : Follows step Allowed {} leftOverRow := by decide +kernel
  refine ⟨leftOverRow.foldl step {},8600,run.reached,by decide +kernel,?_⟩
  rintro ⟨a,member,-,rows,-⟩
  have sent : (leftOverRow.foldl step {}).sent = [tableWalk,setAnswer] := by decide +kernel
  rw [sent,List.mem_cons,List.mem_singleton] at member
  rcases member with rfl | rfl <;> revert rows <;> decide +kernel

end LoraRan.Bridge
