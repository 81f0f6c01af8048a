import LoraRan.Config.Overrides
import LoraRan.Library.DecimalText

namespace LoraRan.GateLink
open Protocol Config Library.DecimalText

-- config.json in bytes: one object, string keys without escapes, integer values, whitespace anywhere.

abbrev FileEntry := ParamDef × Value

def configFileCap : Nat := 3072
def configKeyCap : Nat := 48

-- The tables' names are plain ASCII.
def nameBytes (name : String) : Bytes := name.toList.map fun c => UInt8.ofNat c.toNat

def valueText (v : Value) : Bytes := if v.toInt < 0 then 0x2D :: digits v.toInt.natAbs else digits v.toInt.natAbs

def lineText (e : FileEntry) : Bytes := [0x20,0x20,0x22] ++ nameBytes e.1.name ++ [0x22,0x3A,0x20] ++ valueText e.2

def linesText : List FileEntry → Bytes
  | [] => []
  | [last] => lineText last ++ [0x0A]
  | e :: rest => lineText e ++ [0x2C,0x0A] ++ linesText rest

def fileText (rows : List FileEntry) : Bytes :=
  if rows.isEmpty then [0x7B,0x7D,0x0A] else [0x7B,0x0A] ++ linesText rows ++ [0x7D,0x0A]

-- Nothing at all when the text does not fit with its closing zero: a file is never cut short.
def formatConfig (rows : List FileEntry) (cap : Nat) : Bytes := if (fileText rows).length < cap then fileText rows else []

def isSpace (b : UInt8) : Bool := b == 0x20 || b == 0x09 || b == 0x0D || b == 0x0A

namespace Reader

def skipWs (text : Bytes) : Bytes := text.dropWhile isSpace

def take (c : UInt8) (text : Bytes) : Option Bytes :=
  match skipWs text with
  | [] => none
  | b :: rest => if b = c then some rest else none

def atEnd (text : Bytes) : Bool := (skipWs text).isEmpty

-- `n` bytes of the key are held so far.
def keyBody (cap n : Nat) : Bytes → Option (Bytes × Bytes)
  | [] => none
  | b :: rest =>
      if b = 0x22 then some ([],rest)
      else if b = 0x5C ∨ cap ≤ n + 1 then none
      else (keyBody cap (n + 1) rest).map fun found => (b :: found.1,found.2)

def key (cap : Nat) (text : Bytes) : Option (Bytes × Bytes) := (take 0x22 text).bind (keyBody cap 0)

-- A fraction, an exponent or an overflow is an error, not a truncation.
def number (negative : Bool) (text : Bytes) : Option (Value × Bytes) :=
  if !(text.head?.any isDigit) then none
  else match readDigits (2 ^ 31) 0 text with
    | none => none
    | some (v,rest) =>
        let v : Int := if negative then -(v : Int) else (v : Int)
        if rest.head?.any (fun b => b == 0x2E || b == 0x65 || b == 0x45) then none
        else if v < -(2 ^ 31) ∨ 2 ^ 31 - 1 < v then none
        else some (Int32.ofInt v,rest)

def integer (text : Bytes) : Option (Value × Bytes) :=
  match skipWs text with
  | 0x2D :: rest => number true rest
  | text => number false text

end Reader

-- A key is compared up to its first zero byte.
def findByName (table : Table) (name : Bytes) : Option ParamDef := table.find? fun d => nameBytes d.name == name.takeWhile (· != 0)

open Reader

-- The entries up to the closing brace, and what follows it. Each takes at least its opening quote, so a text never outlasts
-- as much fuel as it has bytes. The count of unknown names is left out.
def parseEntries (table : Table) : Nat → Bytes → Option (List FileEntry × Bytes)
  | 0,_ => none
  | fuel + 1,text => do
      let (name,text) ← key configKeyCap text
      let text ← take 0x3A text
      let (v,text) ← integer text
      let known := ((findByName table name).map fun d => (d,v)).toList
      match take 0x2C text with
      | some text => do
          let (rest,text) ← parseEntries table fuel text
          some (known ++ rest,text)
      | none => do
          let text ← take 0x7D text
          some (known,text)

-- None is a file abandoned whole.
def parseConfig (table : Table) (text : Bytes) (cap : Nat) : Option (List FileEntry) := do
  let text ← take 0x7B text
  match take 0x7D text with
  | some text => if atEnd text then some [] else none
  | none => do
      let (entries,text) ← parseEntries table text.length text
      if atEnd text then some (entries.take cap) else none

-- Reading stops where the next thing begins.
theorem take_here (c : UInt8) (rest : Bytes) (solid : isSpace c = false) : take c (c :: rest) = some rest := by
  simp [take,skipWs,solid]

theorem take_space (c b : UInt8) (rest : Bytes) (space : isSpace b = true) : take c (b :: rest) = take c rest := by
  simp [take,skipWs,space]

theorem take_other (c b : UInt8) (rest : Bytes) (solid : isSpace b = false) (other : b ≠ c) : take c (b :: rest) = none := by
  simp [take,skipWs,solid,other]

-- A name the reader takes back as it was written.
def Plain (name : Bytes) (n : Nat) : Prop := (∀ b ∈ name, b ≠ 0x22 ∧ b ≠ 0x5C ∧ b ≠ 0) ∧ n + name.length < configKeyCap

instance plainDecidable (name : Bytes) (n : Nat) : Decidable (Plain name n) := @instDecidableAnd _ _ (List.decidableBAll _ name) inferInstance

theorem keyBody_plain (name rest : Bytes) (n : Nat) (plain : Plain name n) : keyBody configKeyCap n (name ++ 0x22 :: rest) = some (name,rest) := by
  induction name generalizing n with
  | nil => rw [List.nil_append,keyBody,if_pos rfl]
  | cons b name ih =>
      obtain ⟨clean,short⟩ := plain
      rw [List.length_cons] at short
      have first := clean b List.mem_cons_self
      have later := ih (n + 1) ⟨fun other member => clean other (List.mem_cons_of_mem b member),by omega⟩
      rw [List.cons_append,keyBody,if_neg first.1,if_neg (by rintro (escape | full); exacts [first.2.1 escape,by omega]),later]
      rfl

-- What may follow a value: nothing that could be read as more of it.
def Closes (rest : Bytes) : Prop := ∀ b ∈ rest.head?, isDigit b = false ∧ (b == 0x2E || b == 0x65 || b == 0x45) = false

theorem number_reads (negative : Bool) (v : Value) (rest : Bytes) (closes : Closes rest)
    (sign : v.toInt = if negative then -(v.toInt.natAbs : Int) else (v.toInt.natAbs : Int)) :
    number negative (digits v.toInt.natAbs ++ rest) = some (v,rest) := by
  have low := v.le_toInt
  have high := v.toInt_lt
  obtain ⟨b,more,head,digit⟩ := digits_head v.toInt.natAbs
  have starts : (digits v.toInt.natAbs ++ rest).head?.any isDigit = true := by
    rw [head,List.cons_append,List.head?_cons,Option.any_some]
    exact digit
  have open_ : rest.head?.any (fun b => b == 0x2E || b == 0x65 || b == 0x45) = false := by
    cases first : rest.head? with
    | none => rfl
    | some b => exact (closes b first).2
  unfold number
  rw [starts,readDigits_digits (2 ^ 31) _ rest (by omega) (fun b first => (closes b first).1)]
  simp only [Bool.not_true,Bool.false_eq_true,if_false,open_,← sign]
  rw [if_neg (by omega),Int32.ofInt_toInt]

theorem digit_solid (b : UInt8) (digit : isDigit b = true) : isSpace b = false ∧ b ≠ 0x2D := by
  constructor
  · cases space : isSpace b with
    | false => rfl
    | true =>
        simp only [isSpace,Bool.or_eq_true,beq_iff_eq] at space
        rcases space with ((rfl | rfl) | rfl) | rfl <;> cases digit
  · rintro rfl
    cases digit

theorem integer_reads (v : Value) (rest : Bytes) (closes : Closes rest) : integer (0x20 :: valueText v ++ rest) = some (v,rest) := by
  unfold integer valueText
  by_cases negative : v.toInt < 0
  · rw [if_pos negative]
    have skipped : skipWs (0x20 :: 0x2D :: digits v.toInt.natAbs ++ rest) = 0x2D :: (digits v.toInt.natAbs ++ rest) := by
      simp [skipWs,isSpace]
    rw [skipped]
    exact number_reads true v rest closes (by rw [if_pos rfl]; omega)
  · rw [if_neg negative]
    obtain ⟨b,more,head,digit⟩ := digits_head v.toInt.natAbs
    have solid := digit_solid b digit
    have skipped : skipWs (0x20 :: digits v.toInt.natAbs ++ rest) = digits v.toInt.natAbs ++ rest := by
      rw [head,skipWs,List.cons_append,List.cons_append,List.dropWhile_cons,if_pos (by decide),List.dropWhile_cons,if_neg (by rw [solid.1]; decide)]
    rw [skipped]
    split
    · next starts =>
      rw [head] at starts
      cases starts
      exact absurd rfl solid.2
    · exact number_reads false v rest closes (by rw [if_neg (by decide)]; omega)

theorem closes_comma (rest : Bytes) : Closes (0x2C :: rest) := by
  rintro b ⟨⟩
  decide

theorem closes_newline (rest : Bytes) : Closes (0x0A :: rest) := by
  rintro b ⟨⟩
  decide

-- One line read back: what comes after it decides how the reading goes on.
theorem line_reads (table : Table) (fuel : Nat) (e : FileEntry) (rest : Bytes) (plain : Plain (nameBytes e.1.name) 0)
    (known : findByName table (nameBytes e.1.name) = some e.1) (closes : Closes rest) :
    parseEntries table (fuel + 1) (lineText e ++ rest) =
      match take 0x2C rest with
      | some text => (parseEntries table fuel text).map fun found => (e :: found.1,found.2)
      | none => (take 0x7D rest).map fun text => ([e],text) := by
  have name : key configKeyCap (lineText e ++ rest) = some (nameBytes e.1.name,[0x3A] ++ (0x20 :: valueText e.2 ++ rest)) := by
    unfold key lineText
    simp only [List.cons_append,List.nil_append,List.append_assoc]
    rw [take_space _ _ _ (by decide),take_space _ _ _ (by decide),take_here _ _ (by decide)]
    exact keyBody_plain _ _ 0 plain
  rw [parseEntries,name]
  simp only [Option.bind_eq_bind,Option.bind_some,List.singleton_append]
  rw [take_here _ _ (by decide)]
  simp only [Option.bind_some]
  rw [integer_reads e.2 rest closes]
  simp only [Option.bind_some,known,Option.map_some,Option.toList_some,List.singleton_append]
  cases take 0x2C rest with
  | some text =>
      dsimp only
      cases parseEntries table fuel text <;> rfl
  | none => cases take 0x7D rest <;> rfl

theorem parseEntries_space (table : Table) (fuel : Nat) (b : UInt8) (text : Bytes) (space : isSpace b = true) :
    parseEntries table fuel (b :: text) = parseEntries table fuel text := by
  cases fuel with
  | zero => rfl
  | succ fuel => rw [parseEntries,parseEntries,key,key,take_space _ _ _ space]

theorem lines_start (rows : List FileEntry) (some_ : rows ≠ []) : ∃ more, linesText rows = 0x20 :: 0x20 :: 0x22 :: more := by
  match rows,some_ with
  | [_],_ => exact ⟨_,rfl⟩
  | _ :: _ :: _,_ => exact ⟨_,rfl⟩

theorem lines_long (rows : List FileEntry) : rows.length ≤ (linesText rows).length := by
  induction rows with
  | nil => exact Nat.le_refl 0
  | cons e rest ih =>
      cases rest with
      | nil => simp [linesText,lineText]
      | cons next rest =>
          have split_ : linesText (e :: next :: rest) = lineText e ++ [0x2C,0x0A] ++ linesText (next :: rest) := rfl
          rw [split_,List.length_append,List.length_append,List.length_cons]
          simp only [List.length_cons] at ih ⊢
          omega

theorem lines_read (table : Table) (rows : List FileEntry) (some_ : rows ≠ []) (fuel : Nat) (enough : rows.length ≤ fuel)
    (plain : ∀ e ∈ rows, Plain (nameBytes e.1.name) 0) (known : ∀ e ∈ rows, findByName table (nameBytes e.1.name) = some e.1) :
    parseEntries table fuel (linesText rows ++ [0x7D,0x0A]) = some (rows,[0x0A]) := by
  induction rows generalizing fuel with
  | nil => exact absurd rfl some_
  | cons e rest ih =>
      obtain ⟨fuel,rfl⟩ : ∃ less, fuel = less + 1 := ⟨fuel - 1,by rw [List.length_cons] at enough; omega⟩
      have firstPlain := plain e List.mem_cons_self
      have firstKnown := known e List.mem_cons_self
      cases rest with
      | nil =>
          rw [linesText,List.append_assoc,List.cons_append,List.nil_append,line_reads table fuel e _ firstPlain firstKnown (closes_newline _),
            take_space _ _ _ (by decide),take_other _ _ _ (by decide) (by decide),take_space _ _ _ (by decide),take_here _ _ (by decide)]
          rfl
      | cons next rest =>
          have later := ih (by simp) fuel (by rw [List.length_cons] at enough; omega)
            (fun other member => plain other (List.mem_cons_of_mem e member)) (fun other member => known other (List.mem_cons_of_mem e member))
          have split_ : linesText (e :: next :: rest) = lineText e ++ [0x2C,0x0A] ++ linesText (next :: rest) := rfl
          rw [split_,List.append_assoc,List.append_assoc,List.cons_append,List.cons_append,List.nil_append,
            line_reads table fuel e _ firstPlain firstKnown (closes_comma _),take_here _ _ (by decide)]
          dsimp only
          rw [parseEntries_space table fuel _ _ (by decide),later]
          rfl

-- Every entry of the tables' rows survives the file.
theorem parse_format (table : Table) (rows : List FileEntry) (cap : Nat) (room : rows.length ≤ cap)
    (plain : ∀ e ∈ rows, Plain (nameBytes e.1.name) 0) (known : ∀ e ∈ rows, findByName table (nameBytes e.1.name) = some e.1) :
    parseConfig table (fileText rows) cap = some rows := by
  by_cases empty : rows = []
  · subst empty
    rfl
  · have text : fileText rows = 0x7B :: 0x0A :: (linesText rows ++ [0x7D,0x0A]) := by
      rw [fileText,if_neg (by simpa using empty)]
      rfl
    obtain ⟨more,starts⟩ := lines_start rows empty
    have open_ : take 0x7D (0x0A :: (linesText rows ++ [0x7D,0x0A])) = none := by
      rw [starts,take_space _ _ _ (by decide),List.cons_append,take_space _ _ _ (by decide),List.cons_append,take_space _ _ _ (by decide),
        List.cons_append,take_other _ _ _ (by decide) (by decide)]
    have enough : rows.length ≤ (0x0A :: (linesText rows ++ [0x7D,0x0A])).length := by
      have long := lines_long rows
      rw [List.length_cons,List.length_append]
      omega
    rw [parseConfig,text,take_here _ _ (by decide)]
    simp only [Option.bind_eq_bind,Option.bind_some]
    rw [open_]
    dsimp only
    rw [parseEntries_space table _ _ _ (by decide),lines_read table rows empty _ enough plain known]
    simp only [Option.bind_some]
    rw [if_pos (by decide),List.take_of_length_le room]

theorem skipWs_length (text : Bytes) : (skipWs text).length ≤ text.length := (List.dropWhile_sublist _).length_le

theorem take_shorter (c : UInt8) (text rest : Bytes) (took : take c text = some rest) : rest.length < text.length := by
  have short := skipWs_length text
  unfold take at took
  split at took
  · cases took
  · next is =>
    split at took
    · cases took
      rw [is,List.length_cons] at short
      omega
    · cases took

theorem keyBody_shorter (cap n : Nat) (text : Bytes) (found : Bytes × Bytes) (read : keyBody cap n text = some found) :
    found.2.length < text.length := by
  induction text generalizing n found with
  | nil => cases read
  | cons b text ih =>
      rw [keyBody] at read
      split at read
      · cases read
        exact Nat.lt_succ_self _
      · split at read
        · cases read
        · obtain ⟨inner,is,rfl⟩ := Option.map_eq_some_iff.mp read
          exact Nat.lt_succ_of_lt (ih (n + 1) inner is)

theorem readDigits_shorter (limit value : Nat) (text : Bytes) (found : Nat × Bytes) (read : readDigits limit value text = some found) :
    found.2.length ≤ text.length := by
  induction text generalizing value with
  | nil =>
      cases read
      exact Nat.le_refl _
  | cons b text ih =>
      rw [readDigits] at read
      split at read
      · dsimp only at read
        split at read
        · cases read
        · exact Nat.le_succ_of_le (ih _ read)
      · cases read
        exact Nat.le_refl _

theorem number_shorter (negative : Bool) (text : Bytes) (found : Value × Bytes) (read : number negative text = some found) :
    found.2.length ≤ text.length := by
  unfold number at read
  split at read
  · cases read
  · split at read
    · cases read
    · next v rest is =>
      dsimp only at read
      generalize (if negative = true then -(v : Int) else (v : Int)) = signed at read
      split at read
      · cases read
      · split at read
        · cases read
        · cases read
          exact readDigits_shorter _ _ _ _ is

theorem integer_shorter (text : Bytes) (found : Value × Bytes) (read : integer text = some found) : found.2.length ≤ text.length := by
  have short := skipWs_length text
  unfold integer at read
  split at read
  · next is =>
    have less := number_shorter _ _ _ read
    rw [is,List.length_cons] at short
    omega
  · exact Nat.le_trans (number_shorter _ _ _ read) short

-- As much fuel as bytes is enough: more changes nothing.
theorem parseEntries_fuel (table : Table) (fuel : Nat) (text : Bytes) (enough : text.length ≤ fuel) :
    parseEntries table (fuel + 1) text = parseEntries table fuel text := by
  induction fuel generalizing text with
  | zero =>
      rw [List.length_eq_zero_iff.mp (Nat.le_zero.mp enough)]
      rfl
  | succ fuel ih =>
      rw [parseEntries,parseEntries]
      cases name : key configKeyCap text with
      | none => rfl
      | some found =>
          simp only [Option.bind_eq_bind,Option.bind_some]
          cases colon : take 0x3A found.2 with
          | none => rfl
          | some after =>
              simp only [Option.bind_some]
              cases value : integer after with
              | none => rfl
              | some pair =>
                  simp only [Option.bind_some]
                  cases comma : take 0x2C pair.2 with
                  | none => rfl
                  | some next =>
                      have shorter : next.length ≤ fuel := by
                        obtain ⟨body,quote,read⟩ := Option.bind_eq_some_iff.mp name
                        have first := take_shorter _ _ _ quote
                        have second := keyBody_shorter _ _ _ _ read
                        have third := take_shorter _ _ _ colon
                        have fourth := integer_shorter _ _ value
                        have fifth := take_shorter _ _ _ comma
                        omega
                      simp only [ih next shorter]

-- The source's loop counts no rounds: it ends within as many as the text has bytes, whatever the file holds.
theorem parseEntries_ends (table : Table) (text : Bytes) (more : Nat) :
    parseEntries table (text.length + more) text = parseEntries table text.length text := by
  induction more with
  | zero => rfl
  | succ more ih => exact (parseEntries_fuel table (text.length + more) text (Nat.le_add_right _ _)).trans ih

end LoraRan.GateLink
