import LoraRan.Protocol.Deliveries

namespace LoraRan.Protocol
open Library.Staging

-- The largest payload among some fragments: the sender's chunk, as far as they tell.
def longest (frames : List Frame) : Nat := frames.foldl (fun most f => max most f.payload.length) 0

theorem longest_snoc (frames : List Frame) (f : Frame) : longest (frames ++ [f]) = max (longest frames) f.payload.length := by
  unfold longest
  rw [List.foldl_append]
  rfl

-- A fragment the receive ladder lets through to reassembly.
structure Passable (f : Frame) : Prop where
  counted : f.hdr.fragTotal ≠ 0
  few : f.hdr.fragTotal ≤ maxFragments
  indexed : f.hdr.fragIndex < f.hdr.fragTotal
  longer : f.hdr.fragTotal ≠ 1
  fragmentable : typeIsFragmentable f.hdr.type = true
  verified : frameHasMac f.hdr.type f.payload = true → f.macVerified = true

-- A fragment of the set completed last, with no live set to join.
def Gathering.late (s : Gathering) (f : Frame) (nowMs : UInt32) : Bool :=
  !s.joins f nowMs && (s.slot.tick s.counters nowMs).1.sameCompleted f

theorem accept_passable (s : Gathering) (f : Frame) (nowMs : UInt32) (passable : Passable f) :
    s.slot.accept s.counters f nowMs =
      if s.late f nowMs then (.fragLate,(s.slot.tick s.counters nowMs).1,(s.slot.tick s.counters nowMs).2.bump .fragLate)
      else (((s.slot.tick s.counters nowMs).1).claim (s.slot.tick s.counters nowMs).2 f nowMs).1.place
        (((s.slot.tick s.counters nowMs).1).claim (s.slot.tick s.counters nowMs).2 f nowMs).2 f := by
  have inside : ¬(maxFragments < f.hdr.fragTotal ∨ f.hdr.fragTotal ≤ f.hdr.fragIndex) := by
    rintro (many | outside)
    · exact absurd passable.few (UInt8.not_le.mpr many)
    · exact absurd passable.indexed (UInt8.not_lt.mpr outside)
  have unmarked : ¬(frameHasMac f.hdr.type f.payload = true ∧ (!f.macVerified) = true) := by
    rintro ⟨due,unverified⟩
    rw [passable.verified due] at unverified
    cases unverified
  unfold Reassembler.accept Gathering.late Gathering.joins
  dsimp only
  rw [if_neg passable.counted,if_neg inside,if_neg passable.longer,if_neg (by rw [passable.fragmentable]; decide),if_neg unmarked]
  by_cases late : (!((s.slot.tick s.counters nowMs).1.active && (s.slot.tick s.counters nowMs).1.sameSet f)) = true ∧
      (s.slot.tick s.counters nowMs).1.sameCompleted f = true
  · rw [if_pos late,if_pos (Bool.and_eq_true_iff.mpr late)]
  · rw [if_neg late,if_neg (fun both => late (Bool.and_eq_true_iff.mp both))]

theorem place_short (r : Reassembler) (counters : Counters) (f : Frame) (taken : (r.place counters f).1 = .ok) :
    f.payload.length ≤ maxPayloadPlain := by
  have plain : reassemblyCap f.hdr.type ≤ maxPayloadPlain := by
    unfold reassemblyCap
    split <;> decide
  unfold Reassembler.place at taken
  dsimp only at taken
  split at taken
  · cases taken
  · split at taken
    · cases taken
    · omega

-- The chunk kept beside the slot is that of the set it holds.
def Cut (slot : Reassembler) (accepted : List Frame) (chunk : UInt8) : Prop := slot.active = true → chunk.toNat = longest accepted

def widen (chunk : UInt8) (st : Status) (f : Frame) : UInt8 :=
  if st = .ok ∧ chunk.toNat < f.payload.length then UInt8.ofNat f.payload.length else chunk

-- What a chunk's keeper owes the slot: a set begun by this fragment finds no larger chunk left over, and a late fragment takes
-- nothing from the set still live.
structure Renews (s : Gathering) (chunk : UInt8) (resets : Bool) (f : Frame) (nowMs : UInt32) : Prop where
  begun : s.joins f nowMs = false → s.late f nowMs = false → resets = true ∨ chunk.toNat ≤ f.payload.length
  passed : s.late f nowMs = true → (s.slot.tick s.counters nowMs).1.active = true → resets = false ∨ chunk = 0

theorem widen_toNat (chunk : UInt8) (f : Frame) (short : f.payload.length ≤ maxPayloadPlain) :
    (widen chunk .ok f).toNat = max chunk.toNat f.payload.length := by
  have bound : maxPayloadPlain = 204 := rfl
  unfold widen
  split
  · rename_i wider
    rw [UInt8.toNat_ofNat',Nat.mod_eq_of_lt (by omega)]
    omega
  · rename_i kept
    have fits : ¬chunk.toNat < f.payload.length := fun wider => kept ⟨rfl,wider⟩
    omega

theorem joins_live (s : Gathering) (f : Frame) (nowMs : UInt32) (joins : s.joins f nowMs = true) :
    (s.slot.tick s.counters nowMs).1 = s.slot ∧ s.slot.active = true := by
  unfold Gathering.joins at joins
  dsimp only at joins
  have going : (s.slot.tick s.counters nowMs).1 = s.slot := by
    unfold Reassembler.tick at joins ⊢
    split at joins
    · cases joins
    · rename_i fresh
      rw [if_neg fresh]
  rw [going] at joins
  exact ⟨going,(Bool.and_eq_true_iff.mp joins).1⟩

theorem tick_live (s : Gathering) (nowMs : UInt32) (live : (s.slot.tick s.counters nowMs).1.active = true) :
    (s.slot.tick s.counters nowMs).1 = s.slot := by
  unfold Reassembler.tick at live ⊢
  split at live
  · cases live
  · rename_i fresh
    rw [if_neg fresh]

-- A fragment taken widens the chunk of its own set, and of no other.
theorem chunk_taken (s : Gathering) (chunk : UInt8) (resets : Bool) (f : Frame) (nowMs : UInt32) (passable : Passable f)
    (cut : Cut s.slot s.accepted chunk) (kept : s.joins f nowMs = true → resets = false) (renews : Renews s chunk resets f nowMs)
    (taken : (s.slot.accept s.counters f nowMs).1 = .ok) :
    (widen (if resets then 0 else chunk) .ok f).toNat = longest (s.setOf f nowMs) := by
  rw [accept_passable s f nowMs passable] at taken
  by_cases late : s.late f nowMs = true
  · rw [if_pos late] at taken
    cases taken
  · rw [if_neg late] at taken
    have short := place_short _ _ _ taken
    rw [widen_toNat _ _ short]
    unfold Gathering.setOf
    cases joins : s.joins f nowMs with
    | true =>
      obtain ⟨_,live⟩ := joins_live s f nowMs joins
      rw [kept joins,if_pos rfl,longest_snoc,← cut live]
      rfl
    | false =>
      have alone : longest [f] = f.payload.length := Nat.zero_max _
      have own : (if false = true then s.accepted ++ [f] else [f]) = [f] := rfl
      rw [own,alone]
      rcases renews.begun joins (Bool.eq_false_iff.mpr late) with reset | small
      · rw [reset]
        exact Nat.zero_max _
      · cases resets with
        | true => exact Nat.zero_max _
        | false => exact max_eq_right small

-- What the slot holds after a fragment, and what it is made of.
def Gathering.acceptedAfter (s : Gathering) (f : Frame) (nowMs : UInt32) : List Frame :=
  if (s.slot.accept s.counters f nowMs).1 = .ok then s.setOf f nowMs else s.accepted

theorem chunk_kept (s : Gathering) (chunk : UInt8) (resets : Bool) (f : Frame) (nowMs : UInt32) (passable : Passable f)
    (tidy : Tidy s.slot) (cut : Cut s.slot s.accepted chunk) (kept : s.joins f nowMs = true → resets = false)
    (renews : Renews s chunk resets f nowMs) :
    Cut (s.slot.accept s.counters f nowMs).2.1 (s.acceptedAfter f nowMs)
      (widen (if resets then 0 else chunk) (s.slot.accept s.counters f nowMs).1 f) := by
  intro live
  unfold Gathering.acceptedAfter
  by_cases taken : (s.slot.accept s.counters f nowMs).1 = .ok
  · rw [if_pos taken,taken]
    exact chunk_taken s chunk resets f nowMs passable cut kept renews taken
  · rw [if_neg taken]
    have still : widen (if resets then 0 else chunk) (s.slot.accept s.counters f nowMs).1 f = if resets then 0 else chunk :=
      if_neg (fun both => taken both.1)
    rw [still]
    rw [accept_passable s f nowMs passable] at taken live
    by_cases late : s.late f nowMs = true
    · rw [if_pos late] at live
      have same := tick_live s nowMs live
      rcases renews.passed late live with standing | none_
      · rw [standing]
        exact cut (same ▸ live)
      · have empty := cut (same ▸ live)
        rw [none_] at empty ⊢
        rw [ite_self]
        exact empty
    · rw [if_neg late] at taken live
      have windows := (claim_tidy (tick_tidy tidy s.counters nowMs) (s.slot.tick s.counters nowMs).2 f nowMs).windows
      rcases place_cases _ (((s.slot.tick s.counters nowMs).1).claim (s.slot.tick s.counters nowMs).2 f nowMs).2 f windows with ⟨_,dropped⟩ | ⟨done,_⟩
      · rw [dropped] at live
        cases live
      · exact absurd done taken

-- A slot only ever given fragments, with what its set is made of and the chunk kept for it.
structure Cutting (slot : Reassembler) (accepted : List Frame) (chunk : UInt8) : Prop where
  tidy : Tidy slot
  live : slot.active = true → Live slot accepted
  short : Short slot
  alone : slot.complete = true → slot.active = false
  cut : Cut slot accepted chunk

variable {slot : Reassembler} {accepted : List Frame} {chunk : UInt8}

theorem Cutting.mapped (held : Cutting slot accepted chunk) (counters : Counters) : Mapped {slot := slot,counters := counters,accepted := accepted} :=
  ⟨held.tidy,held.live,fun c member => (by cases member)⟩

theorem cutting_idle (tidy : Tidy slot) (idle : slot.active = false) : Cutting slot accepted chunk := by
  refine ⟨tidy,?_,?_,fun _ => idle,?_⟩
  all_goals
    intro live
    rw [idle] at live
    cases live

theorem cutting_tick (held : Cutting slot accepted chunk) (counters : Counters) (nowMs : UInt32) :
    Cutting (slot.tick counters nowMs).1 accepted chunk := by
  unfold Reassembler.tick
  split
  · exact cutting_idle (reset_tidy slot) rfl
  · exact held

theorem cutting_timeout (held : Cutting slot accepted chunk) (ms : UInt32) : Cutting (slot.setTimeoutMs ms) accepted chunk := by
  refine ⟨held.tidy.of_same rfl rfl rfl rfl rfl,?_,held.short,held.alone,held.cut⟩
  intro active
  obtain ⟨same,several,below,pieces⟩ := held.live active
  exact ⟨same,several,below,pieces⟩

theorem place_alone (r : Reassembler) (counters : Counters) (f : Frame) (windows : r.Windows) (open_ : r.complete = false) :
    (r.place counters f).2.1.complete = true → (r.place counters f).2.1.active = false := by
  rcases place_cases r counters f windows with ⟨_,dropped⟩ | ⟨_,_,put,placing,still | ⟨_,done⟩⟩
  · rw [dropped]
    exact fun _ => rfl
  · rw [still,placing.complete,open_]
    intro on
    cases on
  · rw [done]
    exact fun _ => rfl

theorem cutting_accept (held : Cutting slot accepted chunk) (counters : Counters) (resets : Bool) (f : Frame) (nowMs : UInt32)
    (passable : Passable f)
    (kept : Gathering.joins {slot := slot,counters := counters,accepted := accepted} f nowMs = true → resets = false)
    (renews : Renews {slot := slot,counters := counters,accepted := accepted} chunk resets f nowMs) :
    Cutting (slot.accept counters f nowMs).2.1
      (Gathering.acceptedAfter {slot := slot,counters := counters,accepted := accepted} f nowMs)
      (widen (if resets then 0 else chunk) (slot.accept counters f nowMs).1 f) := by
  have whole := accept_mapped (held.mapped counters) f nowMs
  have slotted := step_slot {slot := slot,counters := counters,accepted := accepted} f nowMs
  have made : (Gathering.step {slot := slot,counters := counters,accepted := accepted} (.accept f nowMs)).accepted =
      Gathering.acceptedAfter {slot := slot,counters := counters,accepted := accepted} f nowMs := by
    unfold Gathering.step Gathering.acceptedAfter
    dsimp only
    by_cases taken : (slot.accept counters f nowMs).1 = .ok
    · rw [if_neg (by simp [taken,passable.longer]),if_pos taken]
      rfl
    · rw [if_pos (.inl taken),if_neg taken]
  obtain ⟨tidy,live,_⟩ := whole
  rw [slotted] at tidy live
  rw [made] at live
  refine ⟨tidy,live,accept_short held.tidy held.short counters f nowMs,?_,?_⟩
  · have passed := accept_passable {slot := slot,counters := counters,accepted := accepted} f nowMs passable
    dsimp only at passed
    rw [passed]
    split
    · exact (cutting_tick held counters nowMs).alone
    · refine place_alone _ _ f (claim_tidy (tick_tidy held.tidy counters nowMs) _ f nowMs).windows ?_
      rw [claim_complete]
      cases on : (slot.tick counters nowMs).1.active with
      | false => rfl
      | true =>
        have open_ : (slot.tick counters nowMs).1.complete = false := by
          rw [Bool.eq_false_iff]
          intro complete
          have idle := (cutting_tick held counters nowMs).alone complete
          rw [on] at idle
          cases idle
        rw [open_,Bool.and_false]
  · exact chunk_kept {slot := slot,counters := counters,accepted := accepted} chunk resets f nowMs passable held.tidy held.cut kept renews

-- What is delivered is the set the fragment finished, and the chunk is that set's.
theorem cutting_delivered (held : Cutting slot accepted chunk) (counters : Counters) (resets : Bool) (f : Frame) (nowMs : UInt32)
    (passable : Passable f)
    (kept : Gathering.joins {slot := slot,counters := counters,accepted := accepted} f nowMs = true → resets = false)
    (renews : Renews {slot := slot,counters := counters,accepted := accepted} chunk resets f nowMs)
    (taken : (slot.accept counters f nowMs).1 = .ok) (complete : (slot.accept counters f nowMs).2.1.complete = true) :
    (slot.accept counters f nowMs).2.1.out = Gathering.assembled {slot := slot,counters := counters,accepted := accepted} f nowMs ∧
      Gathering.Finishes {slot := slot,counters := counters,accepted := accepted} f nowMs ∧
      (widen (if resets then 0 else chunk) .ok f).toNat =
        longest (Gathering.setOf {slot := slot,counters := counters,accepted := accepted} f nowMs) := by
  have clear : ¬Gathering.Overlain {slot := slot,counters := counters,accepted := accepted} f nowMs := by
    rintro ⟨_,joins,standing,_⟩
    obtain ⟨_,live⟩ := joins_live _ f nowMs joins
    rw [held.alone standing] at live
    cases live
  obtain ⟨told,read⟩ := (describes_iff _ (held.mapped counters) held.short f nowMs taken).mpr clear
  refine ⟨?_,?_,?_⟩
  · rw [read complete,if_neg passable.longer]
  · exact (told.mp complete).resolve_left passable.longer
  · exact chunk_taken {slot := slot,counters := counters,accepted := accepted} chunk resets f nowMs passable held.cut kept renews taken

end LoraRan.Protocol
