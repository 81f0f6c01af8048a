import Mathlib.Data.List.TakeWhile
import LoraRan.VeDirect.Text

namespace LoraRan.VeDirect
open Protocol

-- A byte a label or a value may hold: no delimiter of either protocol.
def Printed (b : UInt8) : Prop := b ≠ 0 ∧ b ≠ tab ∧ b ≠ carriageReturn ∧ b ≠ lineFeed ∧ b ≠ colon

instance printedDecidable (b : UInt8) : Decidable (Printed b) := inferInstanceAs (Decidable (_ ∧ _ ∧ _ ∧ _ ∧ _))

-- A record the MPPT writes, within the parser's limits.
structure Record where
  label : Bytes
  value : Bytes
  labelled : 1 ≤ label.length ∧ label.length ≤ labelChars
  short : value.length ≤ valueChars
  labelPrinted : ∀ b ∈ label, Printed b
  valuePrinted : ∀ b ∈ value, Printed b
  named : label ≠ checksumLabel

structure MpptBlock where
  records : List Record
  fits : records.length ≤ maxFields

def Record.field (r : Record) : TextField := ⟨r.label,r.value⟩

def Record.wire (r : Record) : Bytes := [carriageReturn,lineFeed] ++ r.label ++ [tab] ++ r.value

def sumOf (bytes : Bytes) : UInt8 := bytes.foldl (· + ·) 0

def MpptBlock.fields (m : MpptBlock) : List TextField := m.records.map Record.field

-- Everything before the checksum byte.
def MpptBlock.body (m : MpptBlock) : Bytes := m.records.flatMap Record.wire ++ ([carriageReturn,lineFeed] ++ checksumLabel ++ [tab])

-- The byte that brings the sum to zero, whatever byte that is.
def MpptBlock.check (m : MpptBlock) : UInt8 := 0 - sumOf m.body

def MpptBlock.wire (m : MpptBlock) : Bytes := m.body ++ [m.check]

-- A HEX line: ':' and the bytes after it.
structure HexLine where
  chars : Bytes
  returned : Bool
  short : chars.length < maxChars
  unbroken : ∀ b ∈ chars, b ≠ lineFeed ∧ b ≠ carriageReturn

def HexLine.line (h : HexLine) : Bytes := colon :: h.chars

def HexLine.wire (h : HexLine) : Bytes := h.line ++ (if h.returned then [carriageReturn] else []) ++ [lineFeed]

-- A block with HEX lines in it: `lines i` come directly before byte `i` of the body. None comes directly before the checksum byte.
structure WovenBlock where
  block : MpptBlock
  lines : Nat → List HexLine

def weave (lines : Nat → List HexLine) : Bytes → Bytes
  | [] => []
  | b :: rest => (lines 0).flatMap HexLine.wire ++ b :: weave (fun i => lines (i + 1)) rest

def insertedLines (lines : Nat → List HexLine) (body : Bytes) : List HexLine := (List.range body.length).flatMap lines

def WovenBlock.wire (w : WovenBlock) : Bytes := weave w.lines w.block.body ++ [w.block.check]

def HexLine.report (h : HexLine) : Report := .hexLine h.line

def WovenBlock.reports (w : WovenBlock) : List Report := (insertedLines w.lines w.block.body).map HexLine.report ++ [.block w.block.fields]

-- The text half of the parser: what a HEX line leaves alone.
structure Text where
  state : TextState := .idle
  checksum : UInt8 := 0
  overflow : Bool := false
  fieldLong : Bool := false
  field : TextField := {}
  scratch : List TextField := []

def TextParser.text (p : TextParser) : Text := ⟨p.state,p.checksum,p.overflow,p.fieldLong,p.field,p.scratch⟩

def TextParser.withText (p : TextParser) (t : Text) : TextParser :=
  {p with state := t.state,checksum := t.checksum,overflow := t.overflow,fieldLong := t.fieldLong,field := t.field,scratch := t.scratch}

-- A byte of a record, read by the parser that has seen nothing but text.
def Text.step (t : Text) (b : UInt8) : Text := (TextParser.feedText (TextParser.withText {} t) b).2.text

-- The next byte is text and ends no block.
def Text.Takes (t : Text) (b : UInt8) : Prop := t.state ≠ .checksum ∧ t.state ≠ .hex ∧ b ≠ colon

def Text.TakesAll : Text → Bytes → Prop
  | _, [] => True
  | t, b :: rest => t.Takes b ∧ (t.step b).TakesAll rest

theorem takesAll_append (t : Text) (first second : Bytes) (reads : t.TakesAll first) (goesOn : (first.foldl Text.step t).TakesAll second) :
    t.TakesAll (first ++ second) := by
  induction first generalizing t with
  | nil => exact goesOn
  | cons b rest ih => exact ⟨reads.1,ih (t.step b) reads.2 goesOn⟩

theorem sumOf_append (first second : Bytes) : sumOf (first ++ second) = sumOf first + sumOf second := by
  have general : ∀ (bytes : Bytes) (start : UInt8), bytes.foldl (· + ·) start = start + sumOf bytes := by
    intro bytes
    induction bytes with
    | nil => intro start; simp [sumOf]
    | cons b rest ih =>
        intro start
        have first : sumOf (b :: rest) = 0 + b + sumOf rest := ih (0 + b)
        rw [List.foldl_cons,ih,first,UInt8.zero_add,UInt8.add_assoc]
  unfold sumOf
  rw [List.foldl_append,general second]
  rfl

theorem sumOf_cons (b : UInt8) (rest : Bytes) : sumOf (b :: rest) = b + sumOf rest := by
  have split := sumOf_append [b] rest
  simpa [sumOf] using split

-- feedText() and the rest of the parser.

theorem feed_text (p : TextParser) (b : UInt8) (noHex : p.state ≠ .hex) (noStart : b = colon → p.state = .checksum) : p.feed b = p.feedText b := by
  have plain : ¬ (b = colon ∧ p.state ≠ .checksum ∧ p.state ≠ .hex) := fun starts => starts.2.1 (noStart starts.1)
  simp only [TextParser.feed,if_neg plain,if_neg noHex]

theorem feed_takes (p : TextParser) (b : UInt8) (takes : p.text.Takes b) :
    (p.feed b).1 = .none ∧ (p.feed b).2.text = p.text.step b := by
  obtain ⟨noCheck,noHex,noColon⟩ := takes
  change p.state ≠ .checksum at noCheck
  change p.state ≠ .hex at noHex
  rw [feed_text p b noHex fun starts => absurd starts noColon]
  unfold Text.step TextParser.feedText TextParser.withText
  cases state : p.state with
  | idle =>
      simp only [TextParser.text,state,true_and]
      split
      · rfl
      · simp
  | recordBegin =>
      simp only [TextParser.text,state,TextParser.feedLabel,true_and]
      split <;> (try split) <;> rfl
  | label =>
      simp only [TextParser.text,state,TextParser.feedLabel,true_and]
      split <;> (try split) <;> simp
  | value =>
      simp only [TextParser.text,state,TextParser.feedValue,TextParser.endRecord,true_and]
      split <;> (try split) <;> (try split) <;> simp
  | checksum => exact absurd state noCheck
  | hex => exact absurd state noHex

theorem reports_append (p : TextParser) (first second : Bytes) :
    p.reports (first ++ second) = p.reports first ++ (p.feedAll first).reports second := by
  induction first generalizing p with
  | nil => rfl
  | cons b rest ih =>
      rw [List.cons_append,TextParser.reports,ih,TextParser.reports,List.append_assoc]
      rfl

theorem feedAll_append (p : TextParser) (first second : Bytes) : p.feedAll (first ++ second) = (p.feedAll first).feedAll second :=
  List.foldl_append

-- HEX lines.

theorem feed_hexChars (p : TextParser) (chars : Bytes) (inside : p.state = .hex) (room : p.hex.length + chars.length ≤ maxChars)
    (unbroken : ∀ b ∈ chars, b ≠ lineFeed ∧ b ≠ carriageReturn) :
    p.reports chars = [] ∧ p.feedAll chars = {p with hex := p.hex ++ chars} := by
  induction chars generalizing p with
  | nil => simp [TextParser.reports,TextParser.feedAll]
  | cons b rest ih =>
      obtain ⟨noFeed,noReturn⟩ := unbroken b List.mem_cons_self
      rw [List.length_cons] at room
      have fed : p.feed b = (.none,{p with hex := p.hex ++ [b]}) := by
        have kept : ¬ (b = colon ∧ p.state ≠ .checksum ∧ p.state ≠ .hex) := fun starts => starts.2.2 inside
        have short : p.hex.length < maxChars := by omega
        simp only [TextParser.feed,if_neg kept,if_pos inside,TextParser.feedHex,if_neg noFeed,if_neg noReturn,if_pos short]
      obtain ⟨silent,later⟩ := ih {p with hex := p.hex ++ [b]} inside (by simp; omega) fun c member => unbroken c (List.mem_cons_of_mem b member)
      constructor
      · rw [TextParser.reports,fed,silent]
        rfl
      · have next : p.feedAll (b :: rest) = TextParser.feedAll {p with hex := p.hex ++ [b]} rest := by
          simp only [TextParser.feedAll,List.foldl_cons,fed]
        rw [next,later]
        simp

-- A whole line is reported, and the text goes on where it was interrupted.
theorem feed_hexLine (p : TextParser) (h : HexLine) (noCheck : p.state ≠ .checksum) (noHex : p.state ≠ .hex) :
    p.reports h.wire = [h.report] ∧ (p.feedAll h.wire).text = p.text := by
  let opened : TextParser := {p.beginHex with hex := [colon]}
  have begun : p.feed colon = (.none,opened) := by
    have starts : colon = colon ∧ p.state ≠ .checksum ∧ p.state ≠ .hex := ⟨rfl,noCheck,noHex⟩
    unfold TextParser.feed
    rw [if_pos starts]
    rfl
  obtain ⟨silent,read⟩ := feed_hexChars opened h.chars rfl (by have short := h.short; simp [opened]; omega) h.unbroken
  let whole : TextParser := {opened with hex := h.line}
  have line : p.feedAll h.line = whole := by
    have split : p.feedAll h.line = opened.feedAll h.chars := by simp only [HexLine.line,TextParser.feedAll,List.foldl_cons,begun]
    rw [split,read]
    rfl
  have quiet : p.reports h.line = [] := by
    rw [HexLine.line,TextParser.reports,begun,silent]
    rfl
  have returned : whole.feed carriageReturn = (.none,whole) := rfl
  have ended : whole.feed lineFeed = (.hexLine,{whole with state := p.state,counters := {p.counters with hexLines := p.counters.hexLines + 1}}) := rfl
  constructor
  · rw [HexLine.wire,List.append_assoc,reports_append,quiet,line]
    cases h.returned with
    | false =>
        simp only [Bool.false_eq_true,if_false,List.nil_append,TextParser.reports,ended]
        rfl
    | true =>
        simp only [if_true,List.cons_append,List.nil_append,TextParser.reports,returned,ended]
        rfl
  · rw [HexLine.wire,List.append_assoc,feedAll_append,line]
    cases h.returned with
    | false =>
        simp only [Bool.false_eq_true,if_false,List.nil_append,TextParser.feedAll,List.foldl_cons,List.foldl_nil,ended]
        rfl
    | true =>
        simp only [if_true,List.cons_append,List.nil_append,TextParser.feedAll,List.foldl_cons,List.foldl_nil,returned,ended]
        rfl

theorem feed_hexLines (p : TextParser) (lines : List HexLine) (noCheck : p.state ≠ .checksum) (noHex : p.state ≠ .hex) :
    p.reports (lines.flatMap HexLine.wire) = lines.map HexLine.report ∧ (p.feedAll (lines.flatMap HexLine.wire)).text = p.text := by
  induction lines generalizing p with
  | nil => exact ⟨rfl,rfl⟩
  | cons h rest ih =>
      obtain ⟨reported,same⟩ := feed_hexLine p h noCheck noHex
      have state : (p.feedAll h.wire).state = p.state := congrArg Text.state same
      obtain ⟨others,unmoved⟩ := ih (p.feedAll h.wire) (by rw [state]; exact noCheck) (by rw [state]; exact noHex)
      rw [List.flatMap_cons]
      constructor
      · rw [reports_append,reported,others]
        rfl
      · rw [feedAll_append,unmoved,same]

-- HEX lines between the bytes of a text cost the text nothing.
theorem feed_woven (p : TextParser) (lines : Nat → List HexLine) (body : Bytes) (reads : p.text.TakesAll body) :
    p.reports (weave lines body) = (insertedLines lines body).map HexLine.report ∧
      (p.feedAll (weave lines body)).text = body.foldl Text.step p.text := by
  induction body generalizing p lines with
  | nil => exact ⟨rfl,rfl⟩
  | cons b rest ih =>
      obtain ⟨takes,later⟩ := reads
      obtain ⟨reported,same⟩ := feed_hexLines p (lines 0) takes.1 takes.2.1
      let q := p.feedAll ((lines 0).flatMap HexLine.wire)
      have takes' : q.text.Takes b := by rw [same]; exact takes
      obtain ⟨silent,stepped⟩ := feed_takes q b takes'
      have moved : (q.feed b).2.text = p.text.step b := by rw [stepped,same]
      obtain ⟨others,final⟩ := ih (q.feed b).2 (fun i => lines (i + 1)) (by rw [moved]; exact later)
      have inserted : insertedLines lines (b :: rest) = lines 0 ++ insertedLines (fun i => lines (i + 1)) rest := by
        simp only [insertedLines,List.length_cons,List.range_succ_eq_map,List.flatMap_cons,List.flatMap_map]
      rw [weave,inserted]
      constructor
      · rw [reports_append,reported,TextParser.reports,List.map_append]
        change _ ++ (((q.feed b).2.reported (q.feed b).1).toList ++ (q.feed b).2.reports (weave (fun i => lines (i + 1)) rest)) = _
        rw [others,silent]
        rfl
      · rw [feedAll_append]
        change ((q.feed b).2.feedAll (weave (fun i => lines (i + 1)) rest)).text = _
        rw [final,moved]
        rfl

-- Text alone.
theorem feed_taken (p : TextParser) (body : Bytes) (reads : p.text.TakesAll body) : (p.feedAll body).text = body.foldl Text.step p.text := by
  induction body generalizing p with
  | nil => rfl
  | cons b rest ih =>
      obtain ⟨_,stepped⟩ := feed_takes p b reads.1
      have later := ih (p.feed b).2 (by rw [stepped]; exact reads.2)
      rw [stepped] at later
      exact later

-- Reading a block, one part of a record after the other.

def Text.endRecord (t : Text) : Text :=
  if t.fieldLong ∨ t.scratch.length = maxFields then {t with overflow := true} else {t with scratch := t.scratch ++ [t.field]}

theorem idle_step (t : Text) (b : UInt8) (state : t.state = .idle) :
    t.step b = {t with checksum := t.checksum + b,state := if b = lineFeed then .recordBegin else .idle} := by
  unfold Text.step TextParser.feedText TextParser.withText
  simp only [state]
  split <;> rfl

theorem begin_step (t : Text) (b : UInt8) (state : t.state = .recordBegin) (noTab : b ≠ tab) :
    t.step b = {t with checksum := t.checksum + b,state := .label,fieldLong := false,field := ⟨[b],[]⟩} := by
  unfold Text.step TextParser.feedText TextParser.withText
  simp only [state,TextParser.feedLabel,if_neg noTab]
  rfl

theorem label_step (t : Text) (b : UInt8) (state : t.state = .label) (noTab : b ≠ tab) (room : t.field.label.length < labelChars) :
    t.step b = {t with checksum := t.checksum + b,field := ⟨t.field.label ++ [b],t.field.value⟩} := by
  unfold Text.step TextParser.feedText TextParser.withText
  simp only [state,TextParser.feedLabel,if_neg noTab,if_pos room]
  simp [TextParser.text]

theorem value_step (t : Text) (b : UInt8) (state : t.state = .value) (noFeed : b ≠ lineFeed) (noReturn : b ≠ carriageReturn)
    (room : t.field.value.length < valueChars) :
    t.step b = {t with checksum := t.checksum + b,field := ⟨t.field.label,t.field.value ++ [b]⟩} := by
  unfold Text.step TextParser.feedText TextParser.withText
  simp only [state,TextParser.feedValue,if_neg noFeed,if_neg noReturn,if_pos room]
  simp [TextParser.text]

theorem value_ended (t : Text) (state : t.state = .value) :
    (t.step carriageReturn).step lineFeed =
      {t.endRecord with checksum := t.checksum + carriageReturn + lineFeed,state := .recordBegin} := by
  have returned : t.step carriageReturn = {t with checksum := t.checksum + carriageReturn} := by
    unfold Text.step TextParser.feedText TextParser.withText
    simp only [state,TextParser.feedValue,if_neg (show carriageReturn ≠ lineFeed by decide),if_true]
    simp [TextParser.text]
  rw [returned]
  unfold Text.step TextParser.feedText TextParser.withText
  simp only [state,TextParser.feedValue,if_true,TextParser.endRecord,Text.endRecord]
  split <;> rfl

-- The tab after a label.
theorem label_ended (t : Text) (state : t.state = .label) (short : t.fieldLong = false) :
    t.step tab = {t with checksum := t.checksum + tab,state := if cString t.field.label = checksumLabel then .checksum else .value} := by
  unfold Text.step TextParser.feedText TextParser.withText
  simp only [state,TextParser.feedLabel,if_true,short]
  split
  · rename_i found
    simp [TextParser.text,found.2]
  · rename_i other
    have differs : cString t.field.label ≠ checksumLabel := by simpa using other
    simp [TextParser.text,differs]

theorem label_read (t : Text) (chars : Bytes) (state : t.state = .label) (printed : ∀ b ∈ chars, Printed b)
    (room : t.field.label.length + chars.length ≤ labelChars) :
    t.TakesAll chars ∧
      chars.foldl Text.step t = {t with checksum := t.checksum + sumOf chars,field := ⟨t.field.label ++ chars,t.field.value⟩} := by
  induction chars generalizing t with
  | nil => exact ⟨trivial,by simp [sumOf]⟩
  | cons b rest ih =>
      have fine := printed b List.mem_cons_self
      rw [List.length_cons] at room
      have stepped := label_step t b state fine.2.1 (by omega)
      obtain ⟨takes,read⟩ := ih (t.step b) (by rw [stepped]; exact state) (fun c member => printed c (List.mem_cons_of_mem b member))
        (by rw [stepped]; simp; omega)
      refine ⟨⟨⟨by rw [state]; decide,by rw [state]; decide,fine.2.2.2.2⟩,takes⟩,?_⟩
      rw [List.foldl_cons,read,stepped,sumOf_cons]
      simp [UInt8.add_assoc]

theorem value_read (t : Text) (chars : Bytes) (state : t.state = .value) (printed : ∀ b ∈ chars, Printed b)
    (room : t.field.value.length + chars.length ≤ valueChars) :
    t.TakesAll chars ∧
      chars.foldl Text.step t = {t with checksum := t.checksum + sumOf chars,field := ⟨t.field.label,t.field.value ++ chars⟩} := by
  induction chars generalizing t with
  | nil => exact ⟨trivial,by simp [sumOf]⟩
  | cons b rest ih =>
      have fine := printed b List.mem_cons_self
      rw [List.length_cons] at room
      have stepped := value_step t b state fine.2.2.2.1 fine.2.2.1 (by omega)
      obtain ⟨takes,read⟩ := ih (t.step b) (by rw [stepped]; exact state) (fun c member => printed c (List.mem_cons_of_mem b member))
        (by rw [stepped]; simp; omega)
      refine ⟨⟨⟨by rw [state]; decide,by rw [state]; decide,fine.2.2.2.2⟩,takes⟩,?_⟩
      rw [List.foldl_cons,read,stepped,sumOf_cons]
      simp [UInt8.add_assoc]

theorem cString_printed (chars : Bytes) (printed : ∀ b ∈ chars, Printed b) : cString chars = chars := by
  rw [cString,List.takeWhile_eq_self_iff]
  intro b member
  simpa using (printed b member).1

-- A label from its first byte to the tab.
theorem label_whole (t : Text) (label : Bytes) (state : t.state = .recordBegin) (printed : ∀ b ∈ label, Printed b)
    (bounds : 1 ≤ label.length ∧ label.length ≤ labelChars) :
    t.TakesAll (label ++ [tab]) ∧
      (label ++ [tab]).foldl Text.step t =
        {t with
          checksum := t.checksum + sumOf (label ++ [tab])
          state := if label = checksumLabel then .checksum else .value
          fieldLong := false
          field := ⟨label,[]⟩} := by
  cases label with
  | nil => simp at bounds
  | cons b rest =>
      have fine := printed b List.mem_cons_self
      rw [List.length_cons] at bounds
      have stepped := begin_step t b state fine.2.1
      obtain ⟨takes,read⟩ := label_read (t.step b) rest (by rw [stepped]) (fun c member => printed c (List.mem_cons_of_mem b member))
        (by rw [stepped]; simp; omega)
      have named : cString (b :: rest) = b :: rest := cString_printed (b :: rest) printed
      have labelling : (rest.foldl Text.step (t.step b)).state = .label := by rw [read,stepped]
      have ended := label_ended (rest.foldl Text.step (t.step b)) labelling (by rw [read,stepped])
      have begun : t.Takes b := ⟨by rw [state]; decide,by rw [state]; decide,fine.2.2.2.2⟩
      have closes : (rest.foldl Text.step (t.step b)).Takes tab := ⟨by rw [labelling]; decide,by rw [labelling]; decide,by decide⟩
      refine ⟨⟨begun,takesAll_append (t.step b) rest [tab] takes ⟨closes,trivial⟩⟩,?_⟩
      have summed : sumOf (b :: rest ++ [tab]) = b + (sumOf rest + tab) := by
        rw [List.cons_append,sumOf_cons,sumOf_append]
        simp [sumOf]
      rw [List.foldl_append,List.foldl_cons,List.foldl_cons,List.foldl_nil,ended,read,stepped,summed]
      simp [named,UInt8.add_assoc]

-- A record without the line break before it, and with the one after it.
def Record.line (r : Record) : Bytes := r.label ++ [tab] ++ r.value ++ [carriageReturn,lineFeed]

def Text.recorded (t : Text) (r : Record) : Text :=
  if t.scratch.length = maxFields then {t with overflow := true} else {t with scratch := t.scratch ++ [r.field]}

theorem record_read (t : Text) (r : Record) (state : t.state = .recordBegin) :
    t.TakesAll r.line ∧
      r.line.foldl Text.step t = {t.recorded r with checksum := t.checksum + sumOf r.line,fieldLong := false,field := r.field} := by
  obtain ⟨takes,named⟩ := label_whole t r.label state r.labelPrinted r.labelled
  rw [if_neg r.named] at named
  let u := (r.label ++ [tab]).foldl Text.step t
  have valued : u.state = .value := by rw [show u = _ from named]
  obtain ⟨reads,read⟩ := value_read u r.value valued r.valuePrinted (by rw [show u = _ from named]; simpa using r.short)
  let v := r.value.foldl Text.step u
  have stays : v.state = .value := by rw [show v = _ from read]; exact valued
  have ended := value_ended v stays
  have returns : v.Takes carriageReturn := ⟨by rw [stays]; decide,by rw [stays]; decide,by decide⟩
  have still : (v.step carriageReturn).state = .value := by
    unfold Text.step TextParser.feedText TextParser.withText
    simp only [stays,TextParser.feedValue,if_neg (show carriageReturn ≠ lineFeed by decide),if_true]
    rfl
  have breaks : (v.step carriageReturn).Takes lineFeed := ⟨by rw [still]; decide,by rw [still]; decide,by decide⟩
  constructor
  · rw [Record.line,List.append_assoc]
    refine takesAll_append t _ _ takes ?_
    exact takesAll_append u _ _ reads ⟨returns,breaks,trivial⟩
  · have folded : r.line.foldl Text.step t = (v.step carriageReturn).step lineFeed := by
      rw [Record.line,List.foldl_append,List.foldl_append]
      rfl
    have summed : sumOf r.line = sumOf (r.label ++ [tab]) + sumOf r.value + carriageReturn + lineFeed := by
      rw [Record.line,sumOf_append,sumOf_append]
      simp [sumOf,UInt8.add_assoc]
    rw [folded,ended,summed]
    have here : v = {t with
        checksum := t.checksum + sumOf (r.label ++ [tab]) + sumOf r.value
        state := .value
        fieldLong := false
        field := r.field} := by
      rw [show v = _ from read,show u = _ from named]
      simp [Record.field]
    rw [here]
    unfold Text.endRecord Text.recorded
    simp only [Bool.false_eq_true,false_or]
    split <;> simp [UInt8.add_assoc,state]

theorem records_read (t : Text) (records : List Record) (state : t.state = .recordBegin) :
    t.TakesAll (records.flatMap Record.line) ∧ ((records.flatMap Record.line).foldl Text.step t).state = .recordBegin ∧
      ((records.flatMap Record.line).foldl Text.step t).checksum = t.checksum + sumOf (records.flatMap Record.line) ∧
      (t.overflow = false → t.scratch.length + records.length ≤ maxFields →
        ((records.flatMap Record.line).foldl Text.step t).overflow = false ∧
          ((records.flatMap Record.line).foldl Text.step t).scratch = t.scratch ++ records.map Record.field) := by
  induction records generalizing t with
  | nil => exact ⟨trivial,state,by simp [sumOf],fun clean _ => ⟨clean,by simp⟩⟩
  | cons r rest ih =>
      obtain ⟨takes,read⟩ := record_read t r state
      have begins : (r.line.foldl Text.step t).state = .recordBegin := by
        rw [read]
        unfold Text.recorded
        split <;> exact state
      obtain ⟨later,final,summed,kept⟩ := ih (r.line.foldl Text.step t) begins
      rw [List.flatMap_cons,List.foldl_append]
      refine ⟨takesAll_append t _ _ takes later,final,?_,?_⟩
      · rw [summed,read,sumOf_append,UInt8.add_assoc]
      · intro clean room
        rw [List.length_cons] at room
        have pushed : t.recorded r = {t with scratch := t.scratch ++ [r.field]} := if_neg (by omega)
        obtain ⟨unbroken,held⟩ := kept (by rw [read,pushed]; exact clean) (by rw [read,pushed]; simp; omega)
        refine ⟨unbroken,?_⟩
        rw [held,read,pushed]
        simp

theorem body_lines (m : MpptBlock) : m.body = [carriageReturn,lineFeed] ++ (m.records.flatMap Record.line ++ (checksumLabel ++ [tab])) := by
  have moved : ∀ records : List Record,
      records.flatMap Record.wire ++ [carriageReturn,lineFeed] = [carriageReturn,lineFeed] ++ records.flatMap Record.line := by
    intro records
    induction records with
    | nil => rfl
    | cons r rest ih =>
        rw [List.flatMap_cons,List.flatMap_cons,List.append_assoc,ih]
        simp [Record.wire,Record.line]
  rw [MpptBlock.body,List.append_assoc [carriageReturn,lineFeed],← List.append_assoc,moved,List.append_assoc]

theorem checksumLabel_printed : ∀ b ∈ checksumLabel, Printed b := by
  intro b member
  simp only [checksumLabel,List.mem_cons,List.not_mem_nil,or_false] at member
  rcases member with rfl | rfl | rfl | rfl | rfl | rfl | rfl | rfl <;> exact ⟨by decide,by decide,by decide,by decide,by decide⟩

-- From the start of a record to the checksum byte.
theorem rest_read (t : Text) (records : List Record) (state : t.state = .recordBegin) :
    t.TakesAll (records.flatMap Record.line ++ (checksumLabel ++ [tab])) ∧
      ((records.flatMap Record.line ++ (checksumLabel ++ [tab])).foldl Text.step t).state = .checksum ∧
      ((records.flatMap Record.line ++ (checksumLabel ++ [tab])).foldl Text.step t).checksum =
        t.checksum + sumOf (records.flatMap Record.line ++ (checksumLabel ++ [tab])) ∧
      (t.overflow = false → t.scratch.length + records.length ≤ maxFields →
        ((records.flatMap Record.line ++ (checksumLabel ++ [tab])).foldl Text.step t).overflow = false ∧
          ((records.flatMap Record.line ++ (checksumLabel ++ [tab])).foldl Text.step t).scratch = t.scratch ++ records.map Record.field) := by
  obtain ⟨takes,begins,summed,kept⟩ := records_read t records state
  obtain ⟨closes,closed⟩ := label_whole _ checksumLabel begins checksumLabel_printed (by decide)
  rw [if_pos rfl] at closed
  refine ⟨takesAll_append t _ _ takes closes,?_,?_,?_⟩
  · rw [List.foldl_append,closed]
  · rw [List.foldl_append,closed,sumOf_append _ (checksumLabel ++ [tab])]
    simp only [summed,UInt8.add_assoc]
  · intro clean room
    obtain ⟨unbroken,held⟩ := kept clean room
    rw [List.foldl_append,closed]
    exact ⟨unbroken,held⟩

-- Where every block begins.
def Text.Clear (t : Text) : Prop := t.state = .idle ∧ t.checksum = 0 ∧ t.overflow = false ∧ t.scratch = []

theorem body_read (t : Text) (m : MpptBlock) (clear : t.Clear) :
    t.TakesAll m.body ∧ (m.body.foldl Text.step t).state = .checksum ∧ (m.body.foldl Text.step t).checksum = sumOf m.body ∧
      (m.body.foldl Text.step t).overflow = false ∧ (m.body.foldl Text.step t).scratch = m.fields := by
  obtain ⟨state,zero,clean,empty⟩ := clear
  have returned : t.step carriageReturn = {t with checksum := t.checksum + carriageReturn,state := .idle} := idle_step t carriageReturn state
  let u : Text := {t with checksum := t.checksum + carriageReturn + lineFeed,state := .recordBegin}
  have broken : (t.step carriageReturn).step lineFeed = u := by rw [returned,idle_step _ lineFeed rfl]; rfl
  obtain ⟨takes,final,summed,kept⟩ := rest_read u m.records rfl
  obtain ⟨unbroken,held⟩ := kept clean (by simpa [u,empty] using m.fits)
  have start : t.Takes carriageReturn := ⟨by rw [state]; decide,by rw [state]; decide,by decide⟩
  have next : (t.step carriageReturn).Takes lineFeed := by rw [returned]; exact ⟨by simp,by simp,by decide⟩
  rw [body_lines,List.foldl_append,List.foldl_cons,List.foldl_cons,List.foldl_nil,broken]
  refine ⟨⟨start,next,by rw [broken]; exact takes⟩,final,?_,unbroken,?_⟩
  · have opening : sumOf [carriageReturn,lineFeed] = carriageReturn + lineFeed := by decide
    rw [summed,sumOf_append [carriageReturn,lineFeed],opening]
    simp [u,zero]
  · rw [held]
    simp [u,empty,MpptBlock.fields]

-- The checksum byte that fits.
theorem block_ends (p : TextParser) (b : UInt8) (state : p.state = .checksum) (sums : p.checksum + b = 0) (clean : p.overflow = false) :
    (p.feed b).1 = .block ∧ (p.feed b).2.block = p.scratch ∧ (p.feed b).2.text.Clear := by
  have passes : TextParser.blockDrop {p with checksum := p.checksum + b,started := true} = .none := by
    simp only [TextParser.blockDrop,if_pos sums,clean,Bool.false_eq_true,if_false]
  rw [feed_text p b (by rw [state]; decide) fun _ => state]
  simp only [TextParser.feedText,state]
  rw [← state]
  simp only [TextParser.endBlock,passes]
  exact ⟨if_pos trivial,trivial,rfl,rfl,rfl,rfl⟩

theorem woven_block (p : TextParser) (w : WovenBlock) (clear : p.text.Clear) :
    p.reports w.wire = w.reports ∧ (p.feedAll w.wire).text.Clear := by
  obtain ⟨takes,state,summed,clean,held⟩ := body_read p.text w.block clear
  obtain ⟨reported,read⟩ := feed_woven p w.lines w.block.body takes
  let q := p.feedAll (weave w.lines w.block.body)
  have qState : q.state = .checksum := (congrArg Text.state read).trans state
  have qSum : q.checksum = sumOf w.block.body := (congrArg Text.checksum read).trans summed
  have qClean : q.overflow = false := (congrArg Text.overflow read).trans clean
  have qHeld : q.scratch = w.block.fields := (congrArg Text.scratch read).trans held
  obtain ⟨event,block,cleared⟩ := block_ends q w.block.check qState (by rw [qSum,MpptBlock.check]; grind) qClean
  constructor
  · rw [WovenBlock.wire,reports_append,reported]
    change _ ++ ((((q.feed w.block.check).2).reported (q.feed w.block.check).1).toList ++ []) = w.reports
    rw [event,TextParser.reported,block,qHeld]
    rfl
  · rw [WovenBlock.wire,feedAll_append]
    exact cleared

theorem woven_blocks (p : TextParser) (blocks : List WovenBlock) (clear : p.text.Clear) :
    p.reports (blocks.flatMap WovenBlock.wire) = blocks.flatMap WovenBlock.reports ∧ (p.feedAll (blocks.flatMap WovenBlock.wire)).text.Clear := by
  induction blocks generalizing p with
  | nil => exact ⟨rfl,clear⟩
  | cons w rest ih =>
      obtain ⟨reported,cleared⟩ := woven_block p w clear
      obtain ⟨others,final⟩ := ih (p.feedAll w.wire) cleared
      rw [List.flatMap_cons,List.flatMap_cons,reports_append,reported,others,feedAll_append]
      exact ⟨rfl,final⟩

-- Every block and every HEX line is delivered unchanged, in order of completion, and nothing else is reported.
theorem text_stream_round_trip (blocks : List WovenBlock) (trailing : List HexLine) :
    ({} : TextParser).reports (blocks.flatMap WovenBlock.wire ++ trailing.flatMap HexLine.wire) =
      blocks.flatMap WovenBlock.reports ++ trailing.map HexLine.report := by
  obtain ⟨delivered,clear⟩ := woven_blocks {} blocks ⟨rfl,rfl,rfl,rfl⟩
  let p := ({} : TextParser).feedAll (blocks.flatMap WovenBlock.wire)
  have idle : p.state = .idle := clear.1
  obtain ⟨reported,_⟩ := feed_hexLines p trailing (by rw [idle]; decide) (by rw [idle]; decide)
  rw [reports_append,delivered,reported]

end LoraRan.VeDirect
