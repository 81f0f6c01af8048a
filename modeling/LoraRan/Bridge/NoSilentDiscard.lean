import LoraRan.Bridge.RxLadder
import LoraRan.Library.StepSystem
import LoraRan.Protocol.BoundedReads

namespace LoraRan.Bridge
open Protocol Library.StepSystem Library.CheckedReads
open Library.Staging (window)

-- The counters that say what became of a set. Any fragment may move them, whatever its own fate.
def setCounters : List Counter := [.rxReassemblyTimeout,.rxReassemblyAbandoned,.rxFragDuplicate]

-- `after` is `before` with the counter of one status raised by one, the set counters apart. Ok has no counter.
def Charged (before after : Counters) (st : Status) : Prop :=
  ∀ k ∉ setCounters, after.read k = if counterOf st = some k then before.read k + 1 else before.read k

-- A status a frame can be discarded with: it has a counter of its own.
def Named (st : Status) : Prop := ∃ k ∉ Counter.rxFrames :: setCounters, counterOf st = some k

theorem Charged.refl (c : Counters) : Charged c c .ok := by
  intro k _
  rfl

theorem Charged.then {a b c : Counters} {st : Status} (first : Charged a b .ok) (second : Charged b c st) : Charged a c st := by
  intro k other
  rw [second k other,first k other]
  rfl

theorem bump_charged (c : Counters) (st : Status) : Charged c (c.bump st) st := by
  intro k _
  exact bump_read c st k

theorem bump_set_charged (c : Counters) (st : Status) (k : Counter) (about : counterOf st = some k) (quiet : k ∈ setCounters) :
    Charged c (c.bump st) .ok := by
  intro other apart
  have differ : counterOf st ≠ some other := by
    rw [about]
    intro same
    cases same
    exact apart quiet
  rw [bump_read,if_neg differ]
  rfl

theorem noteDuplicate_charged (c : Counters) (duplicate : Bool) : Charged c (c.noteDuplicate duplicate) .ok := by
  intro k apart
  cases duplicate with
  | false => rfl
  | true =>
      cases k with
      | rxFragDuplicate => exact absurd (by decide) apart
      | _ => rfl

section
variable (r : Reassembler) (c : Counters) (f : Frame) (nowMs : UInt32)

theorem tick_charged : Charged c (r.tick c nowMs).2 .ok := by
  unfold Reassembler.tick
  split
  · exact bump_set_charged c _ .rxReassemblyTimeout rfl (by decide)
  · exact .refl c

theorem claim_charged : Charged c (r.claim c f nowMs).2 .ok := by
  unfold Reassembler.claim
  dsimp only
  generalize (if r.complete = true ∧ (!r.active) = true then r.reset else r) = freed
  split
  · split
    · exact .refl c
    · exact bump_set_charged c _ .rxReassemblyAbandoned rfl (by decide)
  · exact .refl c

theorem overflow_charged : Charged c (r.overflow c).2.2 (r.overflow c).1 ∧ ((r.overflow c).1 ≠ .ok → Named (r.overflow c).1) :=
  ⟨bump_charged c _,fun _ => ⟨.rxFragmentOverflow,by decide,rfl⟩⟩

theorem place_charged : Charged c (r.place c f).2.2 (r.place c f).1 ∧ ((r.place c f).1 ≠ .ok → Named (r.place c f).1) := by
  unfold Reassembler.place
  dsimp only
  split
  · exact overflow_charged r c
  · split
    · exact overflow_charged r c
    · have noted := noteDuplicate_charged c (r.got f.hdr.fragIndex.toNat)
      split
      · exact ⟨noted,fun refused => absurd rfl refused⟩
      · split
        · obtain ⟨charged,named⟩ := overflow_charged r (c.noteDuplicate (r.got f.hdr.fragIndex.toNat))
          exact ⟨noted.then charged,named⟩
        · exact ⟨noted,fun refused => absurd rfl refused⟩

-- Every refusal of the reassembler is counted once, under its own name.
theorem accept_charged : Charged c (r.accept c f nowMs).2.2 (r.accept c f nowMs).1 ∧
    ((r.accept c f nowMs).1 ≠ .ok → Named (r.accept c f nowMs).1) := by
  have ticked := tick_charged r c nowMs
  unfold Reassembler.accept
  split
  · exact ⟨bump_charged c _,fun _ => ⟨.rxBadFrag,by decide,rfl⟩⟩
  · split
    · exact ⟨bump_charged c _,fun _ => ⟨.rxFragmentOverflow,by decide,rfl⟩⟩
    · split
      · unfold Reassembler.acceptSingle
        split
        · exact ⟨bump_charged c _,fun _ => ⟨.rxFragmentOverflow,by decide,rfl⟩⟩
        · exact ⟨.refl c,fun refused => absurd rfl refused⟩
      · dsimp only
        split
        · exact ⟨ticked.then (bump_charged _ _),fun _ => ⟨.rxNotFragmentable,by decide,rfl⟩⟩
        · split
          · exact ⟨ticked.then (bump_charged _ _),fun _ => ⟨.rxRejectedMac,by decide,rfl⟩⟩
          · split
            · exact ⟨ticked.then (bump_charged _ _),fun _ => ⟨.rxFragLate,by decide,rfl⟩⟩
            · obtain ⟨charged,named⟩ := place_charged ((r.tick c nowMs).1.claim (r.tick c nowMs).2 f nowMs).1
                ((r.tick c nowMs).1.claim (r.tick c nowMs).2 f nowMs).2 f
              exact ⟨ticked.then ((claim_charged _ _ f nowMs).then charged),named⟩

end

theorem decodeHeader_named (buf : Bytes) (ctx : DecodeCtx) (refused : (decodeHeader buf ctx).1 ≠ .ok) : Named (decodeHeader buf ctx).1 := by
  revert refused
  unfold decodeHeader
  split; · exact fun _ => ⟨.rxRunt,by decide,rfl⟩
  split; · exact fun _ => ⟨.rxOversize,by decide,rfl⟩
  split; · exact fun _ => ⟨.rxBadCrc,by decide,rfl⟩
  dsimp only
  split; · exact fun _ => ⟨.rxBadVer,by decide,rfl⟩
  split; · exact fun _ => ⟨.rxNotAddressed,by decide,rfl⟩
  split; · exact fun _ => ⟨.rxUnknownHdrExt,by decide,rfl⟩
  split; · exact fun _ => ⟨.rxBadFrag,by decide,rfl⟩
  split; · exact fun _ => ⟨.rxFragmentOverflow,by decide,rfl⟩
  split; · exact fun _ => ⟨.rxUnknownType,by decide,rfl⟩
  exact fun refused => absurd rfl refused

theorem payloadBoundary_named (h : Header) (buf : Bytes) (st : Status) (refused : payloadBoundary h buf = .error st) : Named st := by
  unfold payloadBoundary at refused
  dsimp only at refused
  repeat' split at refused
  all_goals cases refused
  all_goals first
    | exact ⟨.rxBadLength,by decide,rfl⟩
    | exact ⟨.rxNotFragmentable,by decide,rfl⟩

theorem checkPayloadLen_named (h : Header) (payload : Bytes) (refused : checkPayloadLen h payload ≠ .ok) : Named (checkPayloadLen h payload) := by
  revert refused
  unfold checkPayloadLen checkVariablePayload
  repeat' split
  all_goals first
    | exact fun refused => absurd rfl refused
    | exact fun _ => ⟨.rxBadLength,by decide,rfl⟩
    | exact fun _ => ⟨.rxFragmentOverflow,by decide,rfl⟩

theorem authenticate_named (ctx : DecodeCtx) (covered : Bytes) (f : Frame) (refused : (authenticate ctx covered f).1 ≠ .ok) :
    Named (authenticate ctx covered f).1 := by
  revert refused
  unfold authenticate
  repeat' split
  all_goals first
    | exact fun refused => absurd rfl refused
    | exact fun _ => ⟨.rxRejectedCtx,by decide,rfl⟩
    | exact fun _ => ⟨.rxRejectedMac,by decide,rfl⟩

theorem decodePayload_named (buf : Bytes) (ctx : DecodeCtx) (f : Frame) (refused : (decodePayload buf ctx f).1 ≠ .ok) :
    Named (decodePayload buf ctx f).1 := by
  revert refused
  unfold decodePayload
  dsimp only
  split; · exact fun _ => ⟨.rxRunt,by decide,rfl⟩
  split; · exact fun _ => ⟨.rxBadFrag,by decide,rfl⟩
  split; · exact fun _ => ⟨.rxFragmentOverflow,by decide,rfl⟩
  split
  · rename_i failure stopped
    exact fun _ => payloadBoundary_named _ _ _ stopped
  · split; · exact fun _ => ⟨.rxUnknownSchema,by decide,rfl⟩
    split; · exact fun _ => ⟨.rxNotFragmentable,by decide,rfl⟩
    split
    · exact fun refused => checkPayloadLen_named _ _ refused
    · exact fun refused => authenticate_named _ _ _ refused

-- A slot of the ladder. Only fragments reach it, so what it has delivered is never beside a live set.
structure Sound (r : Reassembler) : Prop where
  tidy : Tidy r
  apart : r.active = true → r.complete = false

-- The fragment sits in its sender's live set.
structure HeldIn (r : Reassembler) (f : Frame) : Prop where
  live : r.active = true
  key : r.key = f.setKey
  present : r.got f.hdr.fragIndex.toNat = true
  piece : r.piece f.hdr.fragIndex.toNat = f.payload

-- The fragment filled its set, and the delivery buffer is the whole of it.
structure Filled (r : Reassembler) (f : Frame) : Prop where
  idle : r.active = false
  complete : r.complete = true
  key : r.key = f.setKey
  present : r.piece f.hdr.fragIndex.toNat = f.payload
  all : ∀ i < f.hdr.fragTotal.toNat, r.got i = true
  out : r.out = (List.range f.hdr.fragTotal.toNat).flatMap r.piece

theorem reset_sound (r : Reassembler) : Sound r.reset := ⟨reset_tidy r,fun active => by cases active⟩

theorem tick_sound {r : Reassembler} (sound : Sound r) (c : Counters) (nowMs : UInt32) : Sound (r.tick c nowMs).1 := by
  unfold Reassembler.tick
  split
  · exact reset_sound r
  · exact sound

theorem claim_sound {r : Reassembler} (sound : Sound r) (c : Counters) (f : Frame) (nowMs : UInt32) : Sound (r.claim c f nowMs).1 := by
  refine ⟨claim_tidy sound.tidy c f nowMs,?_⟩
  rcases claim_cases r c f nowMs with ⟨_,_,kept⟩ | ⟨_,complete,_⟩
  · rw [kept]
    exact sound.apart
  · exact fun _ => complete

theorem place_sound {r : Reassembler} (sound : Sound r) (c : Counters) (f : Frame) (active : r.active = true) (key : r.key = f.setKey)
    (small : f.hdr.fragIndex.toNat < maxFragments.toNat) :
    Sound (r.place c f).2.1 ∧ ((r.place c f).1 = .ok → HeldIn (r.place c f).2.1 f ∨ Filled (r.place c f).2.1 f) := by
  have tidy := place_tidy sound.tidy c f small
  rcases place_cases r c f sound.tidy.windows with ⟨refused,dropped⟩ | ⟨_,total,placed,put,ends⟩
  · rw [dropped]
    exact ⟨reset_sound r,fun taken => absurd taken refused⟩
  · have live : placed.active = true := put.active.trans active
    have here : placed.got f.hdr.fragIndex.toNat = true := by
      rw [put.got]
      exact Function.update_self ..
    rcases ends with still | ⟨filled,done⟩
    · rw [still] at tidy ⊢
      refine ⟨⟨tidy,fun _ => put.complete.trans (sound.apart active)⟩,fun _ => .inl ⟨live,put.key.trans key,here,put.here⟩⟩
    · rw [done] at tidy ⊢
      have count : f.hdr.fragTotal = placed.total := total.trans put.total.symm
      refine ⟨⟨tidy,fun active => by cases active⟩,fun _ => .inr ⟨rfl,rfl,put.key.trans key,put.here,?_,?_⟩⟩
      · intro i below
        exact List.all_eq_true.mp filled i (List.mem_range.mpr (count ▸ below))
      · rw [count]
        rfl

theorem accept_sound {r : Reassembler} (sound : Sound r) (c : Counters) (f : Frame) (nowMs : UInt32) (longer : f.hdr.fragTotal ≠ 1) :
    Sound (r.accept c f nowMs).2.1 ∧
      ((r.accept c f nowMs).1 = .ok → HeldIn (r.accept c f nowMs).2.1 f ∨ Filled (r.accept c f nowMs).2.1 f) := by
  have ticked := tick_sound sound c nowMs
  unfold Reassembler.accept
  split
  · exact ⟨sound,fun taken => by cases taken⟩
  · split
    · exact ⟨sound,fun taken => by cases taken⟩
    · rename_i inside
      obtain ⟨few,below⟩ := not_or.mp inside
      have small : f.hdr.fragIndex.toNat < maxFragments.toNat :=
        Nat.lt_of_lt_of_le (UInt8.lt_iff_toNat_lt.mp (UInt8.not_le.mp below)) (UInt8.le_iff_toNat_le.mp (UInt8.not_lt.mp few))
      dsimp only
      split
      · exact ⟨ticked,fun taken => by cases taken⟩
      · split
        · exact ⟨ticked,fun taken => by cases taken⟩
        · split
          · exact ⟨ticked,fun taken => by cases taken⟩
          · refine place_sound (claim_sound ticked _ f nowMs) _ f ?_ ?_ small
            · rcases claim_cases (r.tick c nowMs).1 (r.tick c nowMs).2 f nowMs with ⟨active,_,kept⟩ | ⟨active,_⟩
              · rw [kept]
                exact active
              · exact active
            · rcases claim_cases (r.tick c nowMs).1 (r.tick c nowMs).2 f nowMs with ⟨_,key,kept⟩ | ⟨_,_,key,_⟩
              · rw [kept]
                exact key
              · exact key

theorem searchSlot_own (slots : Fin reassemblySlots → Slot) (src : NodeId) (nowMs : UInt32) (order : List (Fin reassemblySlots)) (c : Candidates)
    (i : Fin reassemblySlots) (found : searchSlot slots src nowMs order c = .inl i) : (slots i).used = true ∧ (slots i).src = src := by
  induction order generalizing c with
  | nil => cases found
  | cons j rest ih =>
      unfold searchSlot at found
      split at found
      · rename_i own
        cases found
        exact own
      · exact ih _ found

-- The slot handed to a sender is its own by then, with the set it had there or with none.
theorem slotFor_parts (l : RxLadder) (src : NodeId) (nowMs : UInt32) :
    ∃ s c, (l.slotFor src nowMs).2 = {l with slots := Function.update l.slots (l.slotFor src nowMs).1 s,counters := c} ∧
      Charged l.counters c .ok ∧ s.used = true ∧ s.src = src ∧
      (s = {l.slots (l.slotFor src nowMs).1 with lastMs := nowMs} ∨ s = (l.slots (l.slotFor src nowMs).1).assign src nowMs) := by
  unfold RxLadder.slotFor
  split
  · rename_i i found
    obtain ⟨used,own⟩ := searchSlot_own _ _ _ _ _ _ found
    exact ⟨_,_,rfl,.refl _,used,own,.inl rfl⟩
  · split
    · exact ⟨_,_,rfl,.refl _,rfl,rfl,.inr rfl⟩
    · exact ⟨_,_,rfl,.refl _,rfl,rfl,.inr rfl⟩
    · exact ⟨_,_,rfl,bump_set_charged _ _ .rxReassemblyAbandoned rfl (by decide),rfl,rfl,.inr rfl⟩

theorem forgetCompleted_sound {r : Reassembler} (sound : Sound r) : Sound r.forgetCompleted :=
  ⟨sound.tidy.of_same rfl rfl rfl rfl rfl,sound.apart⟩

def RxLadder.Sound (l : RxLadder) : Prop := ∀ i, Bridge.Sound (l.slots i).reassembler

def Delivers (l : RxLadder) (f : Frame) (d : RxDelivery) : Prop :=
  d.hdr = f.hdr ∧ (f.hdr.fragTotal = 1 ∧ d.payload = f.payload ∨
    ∃ i, (l.slots i).used = true ∧ (l.slots i).src = f.hdr.src ∧ Filled (l.slots i).reassembler f ∧ d.payload = (l.slots i).reassembler.out)

def Holds (l : RxLadder) (f : Frame) : Prop :=
  ∃ i, (l.slots i).used = true ∧ (l.slots i).src = f.hdr.src ∧ HeldIn (l.slots i).reassembler f

-- The three ends of a frame, told apart by what is delivered and by the status left behind.
inductive Ends (f : Frame) (d : Option RxDelivery) (l : RxLadder) : Prop
  | delivered (delivery : RxDelivery) : d = some delivery → l.last = .ok → Delivers l f delivery → Ends f d l
  | held : d = none → l.last = .ok → Holds l f → Ends f d l
  | discarded : d = none → l.last ≠ .ok → Named l.last → Ends f d l

theorem reassemble_ends {l : RxLadder} (sound : l.Sound) (i : Fin reassemblySlots) (f : Frame) (nowMs : UInt32) (longer : f.hdr.fragTotal ≠ 1)
    (used : (l.slots i).used = true) (own : (l.slots i).src = f.hdr.src) :
    (l.reassemble i f nowMs).2.Sound ∧ Charged l.counters (l.reassemble i f nowMs).2.counters (l.reassemble i f nowMs).2.last ∧
      Ends f (l.reassemble i f nowMs).1 (l.reassemble i f nowMs).2 := by
  obtain ⟨soundAfter,outcome⟩ := accept_sound (sound i) l.counters f nowMs longer
  obtain ⟨charged,named⟩ := accept_charged (l.slots i).reassembler l.counters f nowMs
  unfold RxLadder.reassemble
  dsimp only
  generalize (l.slots i).reassembler.accept l.counters f nowMs = result at soundAfter outcome charged named ⊢
  obtain ⟨st,r,c⟩ := result
  dsimp only at soundAfter outcome charged named ⊢
  have slots : ∀ chunk j, Bridge.Sound (Function.update l.slots i {l.slots i with reassembler := r,chunk := chunk} j).reassembler := by
    intro chunk j
    by_cases here : j = i
    · rw [here,Function.update_self]
      exact soundAfter
    · rw [Function.update_of_ne here]
      exact sound j
  split
  · rename_i nothing
    refine ⟨slots _,charged,?_⟩
    by_cases taken : st = .ok
    · have open' : r.complete = false := by simpa [taken] using nothing
      rcases outcome taken with held | filled
      · refine .held rfl taken ⟨i,?_,?_,?_⟩
        · simp [used]
        · simp [own]
        · simpa using held
      · rw [filled.complete] at open'
        cases open'
    · exact .discarded rfl taken (named taken)
  · rename_i something
    obtain ⟨taken,complete⟩ := not_or.mp something
    have taken := not_not.mp taken
    refine ⟨slots _,charged,.delivered _ rfl taken ⟨rfl,.inr ⟨i,?_,?_,?_,?_⟩⟩⟩
    · simp [used]
    · simp [own]
    · rcases outcome taken with held | filled
      · have ended : r.complete = true := by simpa using complete
        rw [soundAfter.apart held.live] at ended
        cases ended
      · simpa using filled
    · simp

theorem admitted_ends {l : RxLadder} (sound : l.Sound) (f : Frame) (nowMs : UInt32) :
    (l.admitted f nowMs).2.Sound ∧ Charged l.counters (l.admitted f nowMs).2.counters (l.admitted f nowMs).2.last ∧
      Ends f (l.admitted f nowMs).1 (l.admitted f nowMs).2 := by
  unfold RxLadder.admitted
  dsimp only
  split
  · rename_i single
    exact ⟨sound,.refl _,.delivered _ rfl rfl ⟨rfl,.inl ⟨single,rfl⟩⟩⟩
  · rename_i longer
    obtain ⟨s,c,chosen,charged,used,own,origin⟩ := slotFor_parts {l with last := .ok} f.hdr.src nowMs
    generalize RxLadder.slotFor {l with last := .ok} f.hdr.src nowMs = picked at chosen origin ⊢
    obtain ⟨i,l'⟩ := picked
    dsimp only at chosen origin ⊢
    have soundThen : l'.Sound := by
      intro j
      rw [chosen]
      dsimp only
      by_cases here : j = i
      · rw [here,Function.update_self]
        rcases origin with kept | assigned
        · rw [kept]
          exact sound i
        · rw [assigned]
          exact forgetCompleted_sound (reset_sound _)
      · rw [Function.update_of_ne here]
        exact sound j
    obtain ⟨after,more,ends⟩ := reassemble_ends soundThen i f nowMs longer (by rw [chosen]; simpa using used) (by rw [chosen]; simpa using own)
    refine ⟨after,?_,ends⟩
    have before : Charged l.counters l'.counters .ok := by
      rw [chosen]
      exact charged
    exact before.then more

-- The frame as far as it was decoded.
def RxLadder.decoded (l : RxLadder) (buf : Bytes) : Frame :=
  let f := (decodeHeader buf ladderCtx).2
  (decodePayload buf {ladderCtx with mac := l.mac,nodeKey := l.keyFor f.hdr.src} f).2

theorem offered_parts (l : RxLadder) (buf : Bytes) : (l.offered buf).slots = l.slots ∧ (l.offered buf).mac = l.mac ∧
    (l.offered buf).keys = l.keys ∧ (l.offered buf).counters = {l.counters with rxFrames := l.counters.rxFrames + 1} := by
  unfold RxLadder.offered
  dsimp only
  split
  · exact ⟨rfl,rfl,rfl,rfl⟩
  · exact ⟨rfl,rfl,rfl,rfl⟩

theorem discard_ends {l : RxLadder} (sound : l.Sound) (f : Frame) (st : Status) (named : Named st) :
    (l.discard st).Sound ∧ Charged l.counters (l.discard st).counters (l.discard st).last ∧ Ends f none (l.discard st) := by
  refine ⟨sound,bump_charged _ _,.discarded rfl ?_ named⟩
  rintro rfl
  obtain ⟨k,_,none⟩ := named
  cases none

theorem accept_ends {l : RxLadder} (sound : l.Sound) (buf : Bytes) (nowMs : UInt32) :
    (l.accept buf nowMs).2.Sound ∧ Charged (l.offered buf).counters (l.accept buf nowMs).2.counters (l.accept buf nowMs).2.last ∧
      Ends (l.decoded buf) (l.accept buf nowMs).1 (l.accept buf nowMs).2 := by
  obtain ⟨slots,mac,keys,_⟩ := offered_parts l buf
  have soundThen : (l.offered buf).Sound := by
    intro i
    rw [slots]
    exact sound i
  have key : ∀ src, (l.offered buf).keyFor src = l.keyFor src := by
    intro src
    rw [RxLadder.keyFor,keys]
    rfl
  unfold RxLadder.accept RxLadder.decoded
  dsimp only
  rw [mac,key]
  split
  · rename_i refused
    exact discard_ends soundThen _ _ (decodeHeader_named _ _ refused)
  · split
    · rename_i refused
      exact discard_ends soundThen _ _ (decodePayload_named _ _ _ refused)
    · split
      · exact discard_ends soundThen _ _ ⟨.rxRejectedMac,by decide,rfl⟩
      · split
        · exact discard_ends soundThen _ _ ⟨.rxUnknownSrc,by decide,rfl⟩
        · exact admitted_ends soundThen _ nowMs

-- The ladder with its reads spelled out. Past the payload's copy into the slot nothing of the buffer is looked at.
def RxLadder.offeredIn (l : RxLadder) (mem : Memory) (len : Nat) : Option RxLadder :=
  let l := {l with
    counters := {l.counters with rxFrames := l.counters.rxFrames + 1}
    lastSrc := 0
    lastSeq := 0
    lastType := 0
    lastSchema := 0
    lastFrag := 0}
  if hdrLen ≤ len then do
    let src ← mem 2
    let seq ← readU16 mem 4
    let ver ← mem 0
    let type ← mem 1
    let frag ← mem 10
    let schema ← mem 11
    return {l with lastSrc := src,lastSeq := seq,lastVer := ver,lastType := type,lastFrag := frag,lastSchema := schema}
  else some l

def RxLadder.acceptIn (l : RxLadder) (mem : Memory) (len : Nat) (nowMs : UInt32) : Option (Option RxDelivery × RxLadder) := do
  let l ← l.offeredIn mem len
  let (st,f) ← decodeHeaderIn mem len ladderCtx
  if st ≠ .ok then return (none,l.discard st)
  else
    let (st,f) ← decodePayloadIn mem len {ladderCtx with mac := l.mac,nodeKey := l.keyFor f.hdr.src} f
    if st ≠ .ok then return (none,l.discard st)
    else
      let authenticated ← frameHasMacIn f.hdr.type mem hdrLen f.payload.length
      if authenticated ∧ !f.macVerified then return (none,l.discard .rejectedMac)
      else if !l.registered f.hdr.src then return (none,l.discard .unknownSrc)
      else return l.admitted f nowMs

theorem offeredIn_inside (l : RxLadder) (buf : Bytes) : l.offeredIn (memoryOf buf) buf.length = some (l.offered buf) := by
  unfold RxLadder.offeredIn RxLadder.offered
  dsimp only
  split
  · rename_i long
    have length : 16 ≤ buf.length := long
    rw [memoryOf_inside buf 2 (by omega),readU16_inside buf 4 (by omega),memoryOf_inside buf 0 (by omega),memoryOf_inside buf 1 (by omega),
      memoryOf_inside buf 10 (by omega),memoryOf_inside buf 11 (by omega)]
    rfl
  · rfl

theorem decodePayload_window (buf : Bytes) (ctx : DecodeCtx) (inout : Frame) (taken : (decodePayload buf ctx inout).1 = .ok) :
    hdrLen + (decodePayload buf ctx inout).2.payload.length ≤ buf.length ∧
      (decodePayload buf ctx inout).2.payload = window buf hdrLen (decodePayload buf ctx inout).2.payload.length := by
  have accepted : decodePayload buf ctx inout = (.ok,(decodePayload buf ctx inout).2) := by rw [← taken]
  obtain ⟨present,payloadLen,long,_,boundary,_,_,_,verified⟩ := decodePayload_parts _ _ _ _ accepted
  obtain ⟨length,_⟩ := payloadBoundary_length _ _ _ _ long boundary
  obtain ⟨_,_,_,payload,_⟩ := authenticate_parts _ _ _ _ verified
  have size : (decodePayload buf ctx inout).2.payload.length = payloadLen := by
    rw [payload]
    exact window_length buf hdrLen payloadLen (by omega)
  rw [size]
  exact ⟨by omega,payload⟩

-- No read of accept() falls outside the buffer it was given.
theorem acceptIn_inside (l : RxLadder) (buf : Bytes) (nowMs : UInt32) :
    l.acceptIn (memoryOf buf) buf.length nowMs = some (l.accept buf nowMs) := by
  unfold RxLadder.acceptIn RxLadder.accept
  rw [offeredIn_inside,decodeHeaderIn_inside]
  simp only [Option.bind_eq_bind,Option.bind_some]
  split; · rfl
  rw [decodePayloadIn_inside]
  simp only [Option.bind_some]
  split; · rfl
  rename_i taken
  obtain ⟨inside,payload⟩ := decodePayload_window _ _ _ (not_not.mp taken)
  rw [frameHasMacIn_inside buf hdrLen _ _ inside,← payload]
  simp only [Option.bind_some]
  split; · rfl
  split; · rfl
  rfl

theorem tickSlot_sound (nowMs : UInt32) (s : RxLadder × List ExpiredSet) (i : Fin reassemblySlots) (sound : s.1.Sound) :
    (RxLadder.tickSlot nowMs s i).1.Sound := by
  unfold RxLadder.tickSlot
  dsimp only
  split
  · exact sound
  · intro j
    by_cases here : j = i
    · rw [here]
      simpa using tick_sound (sound i) s.1.counters nowMs
    · simpa [here] using sound j

theorem ladder_tick_sound {l : RxLadder} (sound : l.Sound) (nowMs : UInt32) (cap : Nat) : (l.tick nowMs cap).2.2.Sound := by
  have all : ∀ (order : List (Fin reassemblySlots)) (s : RxLadder × List ExpiredSet), s.1.Sound →
      (order.foldl (RxLadder.tickSlot nowMs) s).1.Sound := by
    intro order
    induction order with
    | nil => exact fun _ sound => sound
    | cons i rest ih => exact fun s sound => ih _ (tickSlot_sound nowMs s i sound)
  exact all (List.finRange reassemblySlots) (l,[]) sound

-- The calls a ladder receives, in any order.
inductive LadderOp where
  | accept (buf : Bytes) (nowMs : UInt32)
  | tick (nowMs : UInt32) (cap : Nat)
  | onPhyCrcError
  | setAuth (mac : Option Mac) (keys : Option PeerKeys)
  | setFragTimeoutMs (ms : UInt32)

def RxLadder.step (l : RxLadder) : LadderOp → RxLadder
  | .accept buf nowMs => (l.accept buf nowMs).2
  | .tick nowMs cap => (l.tick nowMs cap).2.2
  | .onPhyCrcError => l.onPhyCrcError
  | .setAuth mac keys => l.setAuth mac keys
  | .setFragTimeoutMs ms => l.setFragTimeoutMs ms

theorem step_sound {l : RxLadder} (sound : l.Sound) (op : LadderOp) : (l.step op).Sound := by
  cases op with
  | accept buf nowMs => exact (accept_ends sound buf nowMs).1
  | tick nowMs cap => exact ladder_tick_sound sound nowMs cap
  | onPhyCrcError => exact sound
  | setAuth mac keys => exact sound
  | setFragTimeoutMs ms =>
      intro i
      exact ⟨(sound i).tidy.of_same rfl rfl rfl rfl rfl,(sound i).apart⟩

theorem run_sound (ops : List LadderOp) (l : RxLadder) (sound : l.Sound) : (ops.foldl RxLadder.step l).Sound := by
  induction ops generalizing l with
  | nil => exact sound
  | cons op rest ih => exact ih (l.step op) (step_sound sound op)

theorem start_sound : RxLadder.Sound {} := fun _ => ⟨start_mapped.tidy,fun active => by cases active⟩

-- After any calls, one more frame is counted in, ends in one of three ways, and moves no counter but the one its end names.
theorem no_frame_is_discarded_silently (ops : List LadderOp) (buf : Bytes) (nowMs : UInt32) :
    let l := ops.foldl RxLadder.step {}
    let r := l.accept buf nowMs
    r.2.counters.rxFrames = l.counters.rxFrames + 1 ∧ Ends (l.decoded buf) r.1 r.2 ∧
      (∀ k ∉ Counter.rxFrames :: setCounters,
        r.2.counters.read k = if counterOf r.2.last = some k then l.counters.read k + 1 else l.counters.read k) ∧
      l.acceptIn (memoryOf buf) buf.length nowMs = some r := by
  intro l r
  obtain ⟨_,charged,ends⟩ := accept_ends (run_sound ops {} start_sound) buf nowMs
  obtain ⟨_,_,_,counted⟩ := offered_parts l buf
  rw [counted] at charged
  refine ⟨?_,ends,?_,acceptIn_inside l buf nowMs⟩
  · have never : ∀ st, counterOf st ≠ some .rxFrames := by
      intro st
      cases st <;> decide
    have frames := charged .rxFrames (by decide)
    rw [if_neg (never _)] at frames
    exact frames
  · intro k apart
    have other : k ≠ .rxFrames := fun same => apart (by simp [same])
    have quiet : k ∉ setCounters := fun member => apart (List.mem_cons_of_mem _ member)
    rw [charged k quiet]
    have same : Counters.read {l.counters with rxFrames := l.counters.rxFrames + 1} k = l.counters.read k := by
      cases k with
      | rxFrames => exact absurd rfl other
      | _ => rfl
    rw [same]

end LoraRan.Bridge
