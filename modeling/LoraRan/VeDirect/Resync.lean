import LoraRan.VeDirect.TextStream

namespace LoraRan.VeDirect
open Protocol

def TextCounters.drops (c : TextCounters) : TextDrop → UInt32
  | .none => 0
  | .badChecksum => c.badChecksum
  | .unsynced => c.unsynced
  | .interrupted => c.interrupted
  | .overflow => c.overflow
  | .hexTooLong => c.hexTooLong

-- A block end that delivers nothing: one drop counter moves, and last_drop() names it.
def Refused (before : TextParser) (fed : TextEvent × TextParser) : Prop :=
  fed.1 = .dropped ∧ fed.2.lastDrop ∈ [.badChecksum,.unsynced,.interrupted,.overflow] ∧
    ∀ why, fed.2.counters.drops why = before.counters.drops why + (if why = fed.2.lastDrop then 1 else 0)

-- A HEX line never interrupts a checksum byte or another HEX line.
def TextParser.Resumable (p : TextParser) : Prop := p.resume ≠ .checksum ∧ p.resume ≠ .hex

theorem feedText_resume (p : TextParser) (b : UInt8) : (p.feedText b).2.resume = p.resume := by
  unfold TextParser.feedText
  cases p.state with
  | idle => dsimp only; split <;> rfl
  | recordBegin => dsimp only [TextParser.feedLabel]; split <;> (try split) <;> rfl
  | label => dsimp only [TextParser.feedLabel]; split <;> (try split) <;> rfl
  | value => dsimp only [TextParser.feedValue,TextParser.endRecord]; split <;> (try split) <;> (try split) <;> rfl
  | checksum => dsimp only [TextParser.endBlock]; split <;> rfl
  | hex => rfl

theorem feedHex_resume (p : TextParser) (b : UInt8) : (p.feedHex b).2.resume = p.resume := by
  unfold TextParser.feedHex TextParser.endHex
  split
  · dsimp only; split <;> rfl
  · split
    · rfl
    · split <;> rfl

theorem feed_resumable (p : TextParser) (b : UInt8) (resumable : p.Resumable) : (p.feed b).2.Resumable := by
  unfold TextParser.feed TextParser.Resumable
  dsimp only
  by_cases starts : b = colon ∧ p.state ≠ .checksum ∧ p.state ≠ .hex
  · rw [if_pos starts,if_pos (show p.beginHex.state = .hex from rfl),feedHex_resume]
    exact starts.2
  · rw [if_neg starts]
    split
    · rw [feedHex_resume]
      exact resumable
    · rw [feedText_resume]
      exact resumable

theorem feedAll_resumable (p : TextParser) (bytes : Bytes) (resumable : p.Resumable) : (p.feedAll bytes).Resumable := by
  induction bytes generalizing p with
  | nil => exact resumable
  | cons b rest ih => exact ih (p.feed b).2 (feed_resumable p b resumable)

-- The states a byte leads to.

theorem idle_feeds (p : TextParser) (b : UInt8) (state : p.state = .idle) (noColon : b ≠ colon) :
    (p.feed b).2.state = if b = lineFeed then .recordBegin else .idle := by
  rw [feed_text p b (by rw [state]; decide) fun starts => absurd starts noColon]
  simp only [TextParser.feedText,state]
  split
  · rfl
  · simp

theorem value_feeds (p : TextParser) (b : UInt8) (state : p.state = .value) (noColon : b ≠ colon) :
    (p.feed b).2.state = if b = lineFeed then .recordBegin else .value := by
  rw [feed_text p b (by rw [state]; decide) fun starts => absurd starts noColon]
  simp only [TextParser.feedText,state,TextParser.feedValue]
  split
  · rfl
  · split
    · simp
    · split <;> simp

theorem label_feeds (p : TextParser) (b : UInt8) (state : p.state = .label) (noColon : b ≠ colon) :
    (p.feed b).2.state = .label ∧ b ≠ tab ∨ b = tab ∧ ((p.feed b).2.state = .value ∨ (p.feed b).2.state = .checksum) := by
  rw [feed_text p b (by rw [state]; decide) fun starts => absurd starts noColon]
  simp only [TextParser.feedText,state,TextParser.feedLabel]
  split
  · rename_i tabbed
    refine .inr ⟨tabbed,?_⟩
    split
    · exact .inr rfl
    · exact .inl rfl
  · rename_i noTab
    refine .inl ⟨?_,noTab⟩
    split <;> simp

theorem begin_feeds (p : TextParser) (b : UInt8) (state : p.state = .recordBegin) (noColon : b ≠ colon) (noTab : b ≠ tab) :
    (p.feed b).2.state = .label := by
  rw [feed_text p b (by rw [state]; decide) fun starts => absurd starts noColon]
  simp only [TextParser.feedText,state,TextParser.feedLabel,if_neg noTab]
  rfl

theorem hex_feeds (p : TextParser) (b : UInt8) (state : p.state = .hex) :
    (b = carriageReturn → (p.feed b).2.state = .hex ∧ (p.feed b).2.resume = p.resume) ∧ (b = lineFeed → (p.feed b).2.state = p.resume) := by
  have inside : ¬ (b = colon ∧ p.state ≠ .checksum ∧ p.state ≠ .hex) := fun starts => starts.2.2 state
  have fed : p.feed b = p.feedHex b := by simp only [TextParser.feed,if_neg inside,if_pos state]
  rw [fed]
  constructor
  · rintro rfl
    exact ⟨state,rfl⟩
  · rintro rfl
    simp only [TextParser.feedHex,if_true,TextParser.endHex]
    split <;> rfl

-- The byte after a Checksum label ends a block, whatever it is.
theorem checksum_feeds (p : TextParser) (b : UInt8) (state : p.state = .checksum) :
    (p.feed b).2.text.Clear ∧ ((p.feed b).1 = .block ∨ Refused p (p.feed b)) := by
  rw [feed_text p b (by rw [state]; decide) fun _ => state]
  simp only [TextParser.feedText,state]
  rw [← state]
  generalize counted : ({p with checksum := p.checksum + b,started := true} : TextParser) = q
  have same : q.counters = p.counters := by rw [← counted]
  refine ⟨by unfold TextParser.endBlock; dsimp only; split <;> exact ⟨rfl,rfl,rfl,rfl⟩,?_⟩
  unfold Refused TextParser.endBlock
  rw [← same]
  dsimp only
  cases drop : q.blockDrop with
  | none => exact .inl rfl
  | hexTooLong =>
      simp only [TextParser.blockDrop] at drop
      split at drop
      · split at drop <;> cases drop
      · split at drop
        · cases drop
        · split at drop <;> cases drop
  | badChecksum | unsynced | interrupted | overflow =>
      refine .inr ⟨rfl,by simp,?_⟩
      intro why
      cases why <;> simp [TextCounters.drops]

-- A state the bytes of a record do not leave.
theorem feedAll_stays (state : TextState) (Quiet : UInt8 → Prop)
    (keeps : ∀ (p : TextParser) (b : UInt8), p.state = state → Quiet b → (p.feed b).2.state = state) (p : TextParser) (bytes : Bytes)
    (here : p.state = state) (quiet : ∀ b ∈ bytes, Quiet b) : (p.feedAll bytes).state = state := by
  induction bytes generalizing p with
  | nil => exact here
  | cons b rest ih =>
      exact ih (p.feed b).2 (keeps p b here (quiet b List.mem_cons_self)) fun c member => quiet c (List.mem_cons_of_mem b member)

def Unbroken (b : UInt8) : Prop := b ≠ lineFeed ∧ b ≠ colon

theorem idle_stays (p : TextParser) (b : UInt8) (state : p.state = .idle) (unbroken : Unbroken b) : (p.feed b).2.state = .idle := by
  rw [idle_feeds p b state unbroken.2,if_neg unbroken.1]

theorem value_stays (p : TextParser) (b : UInt8) (state : p.state = .value) (unbroken : Unbroken b) : (p.feed b).2.state = .value := by
  rw [value_feeds p b state unbroken.2,if_neg unbroken.1]

theorem label_stays (p : TextParser) (b : UInt8) (state : p.state = .label) (plain : b ≠ tab ∧ b ≠ colon) : (p.feed b).2.state = .label := by
  rcases label_feeds p b state plain.2 with ⟨stays,_⟩ | ⟨tabbed,_⟩
  · exact stays
  · exact absurd tabbed plain.1

-- The line break after a value, in the two states that wait for one.
theorem line_ends (p : TextParser) (bytes : Bytes) (waits : p.state = .idle ∨ p.state = .value) (unbroken : ∀ b ∈ bytes, Unbroken b) :
    (p.feedAll (bytes ++ [lineFeed])).state = .recordBegin := by
  rw [feedAll_append]
  change ((p.feedAll bytes).feed lineFeed).2.state = .recordBegin
  rcases waits with idle | value
  · have stays := feedAll_stays .idle Unbroken idle_stays p bytes idle unbroken
    rw [idle_feeds _ lineFeed stays (by decide),if_pos rfl]
  · have stays := feedAll_stays .value Unbroken value_stays p bytes value unbroken
    rw [value_feeds _ lineFeed stays (by decide),if_pos rfl]

theorem carriageReturn_unbroken : Unbroken carriageReturn := ⟨by decide,by decide⟩

-- After a line break the parser reads text, whatever it was in.
theorem break_leaves (p : TextParser) (resumable : p.Resumable) :
    (p.feedAll [carriageReturn,lineFeed]).state ≠ .checksum ∧ (p.feedAll [carriageReturn,lineFeed]).state ≠ .hex := by
  change (((p.feed carriageReturn).2).feed lineFeed).2.state ≠ .checksum ∧ (((p.feed carriageReturn).2).feed lineFeed).2.state ≠ .hex
  cases state : p.state with
  | idle =>
      have first := idle_stays p carriageReturn state carriageReturn_unbroken
      rw [idle_feeds _ lineFeed first (by decide)]
      exact ⟨by decide,by decide⟩
  | recordBegin =>
      have first := begin_feeds p carriageReturn state (by decide) (by decide)
      rw [label_stays _ lineFeed first ⟨by decide,by decide⟩]
      exact ⟨by decide,by decide⟩
  | label =>
      have first := label_stays p carriageReturn state ⟨by decide,by decide⟩
      rw [label_stays _ lineFeed first ⟨by decide,by decide⟩]
      exact ⟨by decide,by decide⟩
  | value =>
      have first := value_stays p carriageReturn state carriageReturn_unbroken
      rw [value_feeds _ lineFeed first (by decide)]
      exact ⟨by decide,by decide⟩
  | checksum =>
      have first : (p.feed carriageReturn).2.state = .idle := (checksum_feeds p carriageReturn state).1.1
      rw [idle_feeds _ lineFeed first (by decide)]
      exact ⟨by decide,by decide⟩
  | hex =>
      obtain ⟨first,same⟩ := (hex_feeds p carriageReturn state).1 rfl
      rw [(hex_feeds _ lineFeed first).2 rfl,same]
      exact resumable

-- From any text state a whole record leads to the start of the next.
theorem record_settles (p : TextParser) (r : Record) (noCheck : p.state ≠ .checksum) (noHex : p.state ≠ .hex) :
    (p.feedAll r.line).state = .recordBegin := by
  have unbroken : ∀ b, Printed b → Unbroken b := fun b printed => ⟨printed.2.2.2.1,printed.2.2.2.2⟩
  have valueReturned : ∀ b ∈ r.value ++ [carriageReturn], Unbroken b := by
    intro b member
    rcases List.mem_append.mp member with inside | last
    · exact unbroken b (r.valuePrinted b inside)
    · rw [List.mem_singleton.mp last]
      exact carriageReturn_unbroken
  have whole : r.line = (r.label ++ tab :: (r.value ++ [carriageReturn])) ++ [lineFeed] := by simp [Record.line]
  have lineUnbroken : ∀ b ∈ r.label ++ tab :: (r.value ++ [carriageReturn]), Unbroken b := by
    intro b member
    rcases List.mem_append.mp member with inLabel | tabbed
    · exact unbroken b (r.labelPrinted b inLabel)
    · rcases List.mem_cons.mp tabbed with rfl | later
      · exact ⟨by decide,by decide⟩
      · exact valueReturned b later
  cases state : p.state with
  | idle => rw [whole]; exact line_ends p _ (.inl state) lineUnbroken
  | value => rw [whole]; exact line_ends p _ (.inr state) lineUnbroken
  | recordBegin =>
      obtain ⟨takes,read⟩ := record_read p.text r state
      have taken := (feed_taken p r.line takes).trans read
      have same : (p.feedAll r.line).state = (p.text.recorded r).state := congrArg Text.state taken
      rw [same]
      unfold Text.recorded
      split <;> exact state
  | label =>
      have labelling := feedAll_stays .label (fun b => b ≠ tab ∧ b ≠ colon) label_stays p r.label state
        fun b member => ⟨(r.labelPrinted b member).2.1,(r.labelPrinted b member).2.2.2.2⟩
      let q := p.feedAll r.label
      have line : p.feedAll r.line = (q.feed tab).2.feedAll ((r.value ++ [carriageReturn]) ++ [lineFeed]) := by
        rw [whole,List.append_assoc,feedAll_append]
        rfl
      rw [line]
      rcases label_feeds q tab labelling (by decide) with ⟨_,noTab⟩ | ⟨_,value | checksum⟩
      · exact absurd rfl noTab
      · exact line_ends _ _ (.inr value) valueReturned
      · -- the label read as Checksum: the byte after the tab ends a block
        cases chars : r.value ++ [carriageReturn] with
        | nil => simp at chars
        | cons b rest =>
            rw [chars] at valueReturned
            have ended : (((q.feed tab).2).feed b).2.state = .idle := (checksum_feeds _ b checksum).1.1
            exact line_ends _ rest (.inl ended) fun c member => valueReturned c (List.mem_cons_of_mem b member)
  | checksum => exact absurd state noCheck
  | hex => exact absurd state noHex

-- A whole block with a record in it leads to where a block begins.
theorem block_settles (p : TextParser) (m : MpptBlock) (resumable : p.Resumable) (nonempty : m.records ≠ []) :
    (p.feedAll m.wire).text.Clear := by
  obtain ⟨r,rest,records⟩ := List.exists_cons_of_ne_nil nonempty
  have opened := break_leaves p resumable
  let q := (p.feedAll [carriageReturn,lineFeed]).feedAll r.line
  have begins : q.text.state = .recordBegin := record_settles _ r opened.1 opened.2
  obtain ⟨takes,checksum,_,_⟩ := rest_read q.text rest begins
  have read := feed_taken q _ takes
  have wire : p.feedAll m.wire = ((q.feedAll (rest.flatMap Record.line ++ (checksumLabel ++ [tab]))).feed m.check).2 := by
    rw [MpptBlock.wire,body_lines,records,List.flatMap_cons,feedAll_append,feedAll_append,List.append_assoc,feedAll_append]
    rfl
  rw [wire]
  exact (checksum_feeds _ m.check ((congrArg Text.state read).trans checksum)).1

-- Noise costs at most the block it lands in and the one after it.
theorem parser_resynchronises (noise : Bytes) (first second : MpptBlock) (nonempty : first.records ≠ []) :
    let p := ({} : TextParser).feedAll noise
    let q := p.feedAll (first.wire ++ second.body)
    (q.feed second.check).1 = .block ∧ (q.feed second.check).2.block = second.fields ∧
      ∀ before b after, first.wire ++ second.wire = before ++ b :: after → (p.feedAll before).state = .checksum →
        ((p.feedAll before).feed b).1 = .block ∨ Refused (p.feedAll before) ((p.feedAll before).feed b) := by
  intro p q
  have resumable : p.Resumable := feedAll_resumable {} noise ⟨by decide,by decide⟩
  have clear := block_settles p first resumable nonempty
  obtain ⟨takes,checksum,summed,clean,held⟩ := body_read (p.feedAll first.wire).text second clear
  have read : q.text = second.body.foldl Text.step (p.feedAll first.wire).text := by
    rw [show q = _ from feedAll_append p first.wire second.body]
    exact feed_taken _ _ takes
  have sums : q.checksum + second.check = 0 := by
    rw [show q.checksum = _ from (congrArg Text.checksum read).trans summed,MpptBlock.check]
    grind
  obtain ⟨delivered,fields,_⟩ := block_ends q second.check ((congrArg Text.state read).trans checksum) sums
    ((congrArg Text.overflow read).trans clean)
  refine ⟨delivered,fields.trans ((congrArg Text.scratch read).trans held),?_⟩
  intro before b after _ state
  exact (checksum_feeds (p.feedAll before) b state).2

-- V 12, after a HEX line that was cut.
def voltageBlock : MpptBlock where
  records := [⟨[0x56],[0x31,0x32],by decide,by decide,
    by simp [Printed,tab,carriageReturn,lineFeed,colon],by simp [Printed,tab,carriageReturn,lineFeed,colon],by decide⟩]
  fits := by decide

theorem parser_resynchronises_after_cut_line :
    voltageBlock.records ≠ [] ∧
      let q := ({} : TextParser).feedAll [colon,0x37] |>.feedAll (voltageBlock.wire ++ voltageBlock.body)
      (q.feed voltageBlock.check).1 = .block ∧ (q.feed voltageBlock.check).2.block = voltageBlock.fields := by
  have nonempty : voltageBlock.records ≠ [] := List.cons_ne_nil _ _
  obtain ⟨delivered,fields,_⟩ := parser_resynchronises [colon,0x37] voltageBlock voltageBlock nonempty
  exact ⟨nonempty,delivered,fields⟩

end LoraRan.VeDirect
