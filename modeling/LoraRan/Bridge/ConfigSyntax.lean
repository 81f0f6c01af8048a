import LoraRan.Bridge.ConfigJson

namespace LoraRan.Bridge.ConfigJson
open Protocol Config
open Library.Json (quote backslash blank skip expect itemsFrom items items_front items_ends itemsFrom_some)
open Library.DecimalText (isDigit readDigits)

-- What each reader makes of a text, with no turns to count and no look that can miss.

def nameText : Bytes → Option (Bytes × Bytes)
  | [] => none
  | b :: r =>
      if b = quote then some ([],r)
      else if b = backslash then none
      else (nameText r).map fun t => (b :: t.1,t.2)

def named (r : Bytes) : Option (Bytes × Bytes) :=
  (expect quote r).bind fun r => (nameText r).filter fun t => t.1.length < kMaxParamNameLen

-- The text from its closing quote on; `escaped` is behind a backslash.
def fromQuote : Bool → Bytes → Bytes
  | _, [] => []
  | true, _ :: r => fromQuote false r
  | false, b :: r => if b = quote then b :: r else fromQuote (b == backslash) r

-- Brackets of one kind, `depth` more open than the outermost.
inductive Scan where
  | plain (depth : Nat)
  | text (depth : Nat) (escaped : Bool)

def scan (opening closing : UInt8) : Scan → Bytes → Option Bytes
  | _, [] => none
  | .plain depth, b :: r =>
      if b = quote then scan opening closing (.text depth false) r
      else if b = opening then scan opening closing (.plain (depth + 1)) r
      else if b = closing then
        match depth with
        | 0 => some r
        | depth+1 => scan opening closing (.plain depth) r
      else scan opening closing (.plain depth) r
  | .text depth true, _ :: r => scan opening closing (.text depth false) r
  | .text depth false, b :: r =>
      if b = quote then scan opening closing (.plain depth) r else scan opening closing (.text depth (b == backslash)) r

def closingOf (opening : UInt8) : UInt8 := if opening = 0x7B then 0x7D else 0x5D

def signOf : Bytes → Bool × Bytes
  | [] => (false,[])
  | b :: r => if b = 0x2D ∨ b = 0x2B then (b == 0x2D,r) else (false,b :: r)

-- A number whose whole part is not its end is no integer.
def floating (r : Bytes) : Bool := r.head?.any fun c => c == 0x2E || c == 0x65 || c == 0x45

def unsigned (negative : Bool) : Bytes → Option (Value × Bytes)
  | [] => none
  | b :: r =>
      if !isDigit b then none
      else (readDigits Reader.valueLimit 0 (b :: r)).bind fun read =>
        if floating read.2 || !Reader.inRange (Reader.signed negative read.1) then none
        else some (Int32.ofInt (Reader.signed negative read.1),read.2)

def integer (start : Bytes) : Option (Value × Bytes) := unsigned (signOf start).1 (signOf start).2

def readValue (start : Bytes) : Option (Value × Bytes) :=
  if start.take 4 = Reader.trueWord then some (1,start.drop 4)
  else if start.take 5 = Reader.falseWord then some (0,start.drop 5)
  else integer start

def passValue : Bytes → Option Bytes
  | [] => none
  | b :: r =>
      if b = quote then
        match fromQuote false r with
        | [] => none
        | _ :: q => some q
      else if b = 0x7B ∨ b = 0x5B then scan b (closingOf b) (.plain 0) r
      else some ((b :: r).dropWhile fun b => !Reader.endsBare b)

-- A value's own text, what it reads as, and what stands behind it.
structure Passed where
  text : Bytes
  value : Option Value

def passed (start : Bytes) : Option (Passed × Bytes) :=
  match readValue start with
  | some (v,rest) => some (⟨start.take (start.length - rest.length),some v⟩,rest)
  | none => (passValue start).map fun rest => (⟨start.take (start.length - rest.length),none⟩,rest)

structure Piece where
  name : Bytes
  value : Passed

def Piece.entry (p : Piece) : ConfigSetEntry := ⟨cString p.name,p.value.value⟩

def piece (r : Bytes) : Option (Piece × Bytes) :=
  (named r).bind fun name => (expect Library.Json.colon name.2).bind fun r =>
    (passed (skip r)).map fun v => (⟨name.1,v.1⟩,v.2)

inductive Asked where
  | op (key word : Bytes)
  | set (key : Bytes) (pieces : List Piece)

-- The value under a key.
def asked (key r : Bytes) : Option (Asked × Bytes) :=
  if cString key = opKey then (named r).map fun word => (.op key word.1,word.2)
  else if cString key = setKey then (expect 0x7B r).bind fun r => (items piece 0x7D r).map fun ps => (.set key ps.1,ps.2)
  else none

-- The payload as one object with one member.
def asks (payload : Bytes) : Option Asked :=
  (expect 0x7B payload).bind fun r => (named r).bind fun key => (expect Library.Json.colon key.2).bind fun r =>
    (asked key.1 r).bind fun a => (expect 0x7D a.2).bind fun r => if skip r = [] then some a.1 else none

def Asked.request : Asked → Option ConfigSetRequest
  | .op _ word =>
      if cString word = getAllWord then some {op := configOpGetAll}
      else if cString word = restoreDefaultsWord then some {op := configOpRestoreDefaults}
      else none
  | .set _ pieces =>
      if 0 < pieces.length ∧ pieces.length ≤ maxConfigSetEntries then some {op := configOpSet,entries := pieces.map Piece.entry} else none

-- Each reader, given more turns than there are bytes, is its plain form.

theorem skip_length (r : Bytes) : (skip r).length ≤ r.length := List.Sublist.length_le (List.dropWhile_sublist _)

theorem skipSpace_skips (n : Nat) (r : Bytes) (turns : r.length < n) : Reader.skipSpace n r = some (skip r) := by
  induction r generalizing n with
  | nil =>
      obtain ⟨k,rfl⟩ : ∃ k, n = k + 1 := ⟨n - 1,by omega⟩
      rfl
  | cons b r ih =>
      rw [List.length_cons] at turns
      obtain ⟨k,rfl⟩ : ∃ k, n = k + 1 := ⟨n - 1,by omega⟩
      rw [Reader.skipSpace,Library.Json.skip_cons]
      change (if blank b then Reader.skipSpace k r else some (b :: r)) = _
      split
      · exact ih k (by omega)
      · rfl

theorem take_expects (n : Nat) (c : UInt8) (r : Bytes) (turns : r.length < n) :
    Reader.take n c r = some (match expect c r with
      | some rest => (true,rest)
      | none => (false,skip r)) := by
  unfold Reader.take expect
  rw [skipSpace_skips n r turns,Option.bind_some]
  cases skip r with
  | nil => rfl
  | cons b rest =>
      change some (if b = c then (true,rest) else (false,b :: rest)) = _
      dsimp only
      split
      · rfl
      · rfl

theorem stringChars_reads (cap n : Nat) (out r : Bytes) (turns : r.length < n) (short : out.length < cap) :
    Reader.stringChars cap n out r = some (((nameText r).filter fun t => out.length + t.1.length < cap).map fun t => (out ++ t.1,t.2)) := by
  induction r generalizing n out with
  | nil =>
      obtain ⟨k,rfl⟩ : ∃ k, n = k + 1 := ⟨n - 1,by omega⟩
      rfl
  | cons b r ih =>
      rw [List.length_cons] at turns
      obtain ⟨k,rfl⟩ : ∃ k, n = k + 1 := ⟨n - 1,by omega⟩
      rw [Reader.stringChars,nameText]
      change (if b = quote then some (some (out,r)) else if b = backslash then some none
        else if cap ≤ out.length + 1 then some none else Reader.stringChars cap k (out ++ [b]) r) = _
      by_cases closes : b = quote
      · rw [if_pos closes,if_pos closes]
        simp [short]
      · rw [if_neg closes,if_neg closes]
        by_cases slash : b = backslash
        · rw [if_pos slash,if_pos slash]
          rfl
        · rw [if_neg slash,if_neg slash]
          by_cases full : cap ≤ out.length + 1
          · rw [if_pos full]
            cases nameText r with
            | none => rfl
            | some t =>
                have long : ¬ out.length + (b :: t.1).length < cap := by
                  rw [List.length_cons]
                  omega
                simp only [Option.map_some,Option.filter_some,decide_eq_true_eq,if_neg long,Option.map_none]
          · rw [if_neg full,ih k (out ++ [b]) (by omega) (by rw [List.length_append,List.length_singleton]; omega)]
            cases nameText r with
            | none => rfl
            | some t =>
                have same : (out ++ [b]).length + t.1.length = out.length + (b :: t.1).length := by
                  simp only [List.length_append,List.length_cons,List.length_nil]
                  omega
                simp only [Option.map_some,Option.filter_some,decide_eq_true_eq,same]
                split
                · simp only [Option.map_some,List.append_assoc,List.singleton_append]
                · rfl

theorem string_named (n : Nat) (r : Bytes) (turns : r.length < n) : Reader.string n kMaxParamNameLen r = some (named r) := by
  unfold Reader.string named expect
  rw [skipSpace_skips n r turns,Option.bind_some]
  have shrinks := skip_length r
  generalize skip r = start at shrinks
  cases start with
  | nil => rfl
  | cons b rest =>
      rw [List.length_cons] at shrinks
      change (if b = quote then Reader.stringChars kMaxParamNameLen n [] rest else some none) = _
      dsimp only
      split
      · rw [Option.bind_some,stringChars_reads _ n [] rest (by omega) (by decide)]
        simp only [List.length_nil,Nat.zero_add,List.nil_append,Option.map_id']
      · rfl

theorem fromQuote_length (escaped : Bool) (r : Bytes) : (fromQuote escaped r).length ≤ r.length := by
  induction r generalizing escaped with
  | nil => cases escaped <;> exact Nat.le_refl _
  | cons b r ih =>
      rw [List.length_cons]
      cases escaped with
      | true => exact Nat.le_succ_of_le (ih false)
      | false =>
          rw [fromQuote]
          split
          · exact Nat.le_refl _
          · exact Nat.le_succ_of_le (ih _)

-- A backslash takes the byte behind it along, where there is one.
theorem fromQuote_escaped (r : Bytes) : fromQuote true r = fromQuote false r.tail := by
  cases r with
  | nil => rfl
  | cons b r => rfl

theorem skipText_finds (n : Nat) (r : Bytes) (turns : r.length < n) : Reader.skipText n r = some (fromQuote false r) := by
  induction n using Nat.strongRecOn generalizing r with
  | ind n ih =>
      obtain ⟨k,rfl⟩ : ∃ k, n = k + 1 := ⟨n - 1,by omega⟩
      cases r with
      | nil => rfl
      | cons b r =>
          rw [List.length_cons] at turns
          rw [Reader.skipText,fromQuote]
          change (if b = quote then some (b :: r) else if b = backslash then Reader.skipText k r.tail else Reader.skipText k r) = _
          split
          · rfl
          · split
            case isTrue slash =>
              have shorter : r.tail.length ≤ r.length := by
                rw [List.length_tail]
                omega
              have is : (b == backslash) = true := beq_iff_eq.mpr slash
              rw [ih k (by omega) r.tail (by omega),is,fromQuote_escaped]
            case isFalse slash =>
              have is : (b == backslash) = false := beq_eq_false_iff_ne.mpr slash
              rw [ih k (by omega) r (by omega),is]

theorem scan_text (opening closing : UInt8) (depth : Nat) (escaped : Bool) (r : Bytes) :
    scan opening closing (.text depth escaped) r = match fromQuote escaped r with
      | [] => none
      | _ :: q => scan opening closing (.plain depth) q := by
  induction r generalizing escaped with
  | nil => cases escaped <;> rfl
  | cons b r ih =>
      cases escaped with
      | true => exact ih false
      | false =>
          rw [scan,fromQuote]
          split
          · rfl
          · exact ih _

theorem scan_plain (opening closing : UInt8) (depth : Nat) (b : UInt8) (r : Bytes) :
    scan opening closing (.plain depth) (b :: r) =
      if b = quote then scan opening closing (.text depth false) r
      else if b = opening then scan opening closing (.plain (depth + 1)) r
      else if b = closing then if depth = 0 then some r else scan opening closing (.plain (depth - 1)) r
      else scan opening closing (.plain depth) r := by
  cases depth with
  | zero => rfl
  | succ depth => rfl

theorem skipNested_scans (opening closing : UInt8) (n depth : Nat) (r : Bytes) (turns : r.length < n) :
    Reader.skipNested opening closing n ((depth : Int) + 1) r = some (scan opening closing (.plain depth) r) := by
  induction n using Nat.strongRecOn generalizing r depth with
  | ind n ih =>
      obtain ⟨k,rfl⟩ : ∃ k, n = k + 1 := ⟨n - 1,by omega⟩
      cases r with
      | nil => rfl
      | cons b r =>
          rw [List.length_cons] at turns
          rw [Reader.skipNested,scan_plain]
          change (if b = quote then (Reader.skipText k r).bind fun r => if r.isEmpty then some none else Reader.skipNested opening closing k (depth + 1) r.tail
            else if b = opening then Reader.skipNested opening closing k ((depth : Int) + 1 + 1) r
            else if b = closing then if (depth : Int) + 1 - 1 = 0 then some (some r) else Reader.skipNested opening closing k ((depth : Int) + 1 - 1) r
            else Reader.skipNested opening closing k ((depth : Int) + 1) r) = _
          by_cases text : b = quote
          · rw [if_pos text,if_pos text,skipText_finds k r (by omega),Option.bind_some,scan_text]
            have shorter := fromQuote_length false r
            generalize fromQuote false r = q at shorter
            cases q with
            | nil => rfl
            | cons c q =>
                rw [List.length_cons] at shorter
                exact ih k (by omega) depth q (by omega)
          · rw [if_neg text,if_neg text]
            by_cases opens : b = opening
            · rw [if_pos opens,if_pos opens]
              exact ih k (by omega) (depth + 1) r (by omega)
            · rw [if_neg opens,if_neg opens]
              by_cases closes : b = closing
              · rw [if_pos closes,if_pos closes]
                cases depth with
                | zero => rfl
                | succ depth =>
                    rw [if_neg (by omega),if_neg (Nat.succ_ne_zero depth)]
                    have inner := ih k (by omega) depth r (by omega)
                    rw [Nat.add_sub_cancel,← inner]
                    congr 1
                    omega
              · rw [if_neg closes,if_neg closes]
                exact ih k (by omega) depth r (by omega)

theorem skipBare_finds (n : Nat) (r : Bytes) (turns : r.length < n) :
    Reader.skipBare n r = some (r.dropWhile fun b => !Reader.endsBare b) := by
  induction r generalizing n with
  | nil =>
      obtain ⟨k,rfl⟩ : ∃ k, n = k + 1 := ⟨n - 1,by omega⟩
      rfl
  | cons b r ih =>
      rw [List.length_cons] at turns
      obtain ⟨k,rfl⟩ : ∃ k, n = k + 1 := ⟨n - 1,by omega⟩
      rw [Reader.skipBare,List.dropWhile_cons]
      change (if Reader.endsBare b then some (b :: r) else Reader.skipBare k r) = _
      cases Reader.endsBare b with
      | true => rfl
      | false => exact ih k (by omega)

theorem skipValue_passes (n : Nat) (start : Bytes) (turns : start.length < n) (here : skip start = start) :
    Reader.skipValue n start = some (passValue start) := by
  unfold Reader.skipValue
  rw [skipSpace_skips n start turns,here,Option.bind_some]
  cases start with
  | nil => rfl
  | cons b r =>
      rw [List.length_cons] at turns
      rw [passValue]
      change (if b = quote then (Reader.skipText n r).map fun r => if r.isEmpty then none else some r.tail
        else if b = 0x7B ∨ b = 0x5B then Reader.skipNested b (if b = 0x7B then 0x7D else 0x5D) n 0 (b :: r)
        else (Reader.skipBare n (b :: r)).map some) = _
      by_cases text : b = quote
      · rw [if_pos text,if_pos text,skipText_finds n r (by omega),Option.map_some]
        cases fromQuote false r with
        | nil => rfl
        | cons c q => rfl
      · rw [if_neg text,if_neg text]
        by_cases nested : b = 0x7B ∨ b = 0x5B
        · rw [if_pos nested,if_pos nested]
          obtain ⟨k,rfl⟩ : ∃ k, n = k + 1 := ⟨n - 1,by omega⟩
          rw [Reader.skipNested]
          change (if b = quote then _ else if b = b then Reader.skipNested b (closingOf b) k ((0 : Nat) + 1) r else _) = _
          rw [if_neg text,if_pos rfl]
          exact skipNested_scans b (closingOf b) k 0 r (by omega)
        · rw [if_neg nested,if_neg nested,skipBare_finds n (b :: r) (by rw [List.length_cons]; omega)]
          rfl

theorem literal_takes (word r : Bytes) :
    Reader.literal word r = some (if r.take word.length = word then (true,r.drop word.length) else (false,r)) := by
  unfold Reader.literal Reader.lookAll
  by_cases short : r.length < word.length
  · rw [if_pos short,if_neg]
    intro same
    have len := congrArg List.length same
    rw [List.length_take] at len
    omega
  · rw [if_neg short,if_neg short,Option.map_some]

theorem digits_reads (n v : Nat) (r : Bytes) (turns : r.length < n) :
    Reader.digits n v r = some (readDigits Reader.valueLimit v r) := by
  induction r generalizing n v with
  | nil =>
      obtain ⟨k,rfl⟩ : ∃ k, n = k + 1 := ⟨n - 1,by omega⟩
      rfl
  | cons b r ih =>
      rw [List.length_cons] at turns
      obtain ⟨k,rfl⟩ : ∃ k, n = k + 1 := ⟨n - 1,by omega⟩
      rw [Reader.digits,readDigits]
      change (if !isDigit b then some (some (v,b :: r)) else if Reader.valueLimit < v * 10 + (b.toNat - 0x30) then some none
        else Reader.digits k (v * 10 + (b.toNat - 0x30)) r) = _
      cases isDigit b with
      | false => rfl
      | true =>
          dsimp only
          simp only [Bool.not_true,Bool.false_eq_true,if_false,if_true]
          split
          · rfl
          · exact ih k _ (by omega)

-- The number part of the value reader: from the sign on, with the cursor back at the start where it fails.
theorem integer_reads (n : Nat) (start : Bytes) (turns : start.length < n) :
    ((Reader.sign start).bind fun s =>
      if s.2.isEmpty then some (none,start)
      else (Reader.look s.2).bind fun b =>
        if !isDigit b then some (none,start)
        else (Reader.digits n 0 s.2).bind fun read =>
          match read with
          | none => some (none,start)
          | some (v,r) => (Reader.floats r).map fun float =>
              if float || !Reader.inRange (Reader.signed s.1 v) then (none,start) else (some (Int32.ofInt (Reader.signed s.1 v)),r)) =
    some (match integer start with
      | some (v,rest) => (some v,rest)
      | none => (none,start)) := by
  have floats (r : Bytes) : Reader.floats r = some (floating r) := by
    cases r with
    | nil => rfl
    | cons b r => rfl
  have signs : Reader.sign start = some (signOf start) := by
    cases start with
    | nil => rfl
    | cons b r => rfl
  have shorter : (signOf start).2.length ≤ start.length := by
    cases start with
    | nil => exact Nat.le_refl _
    | cons b r =>
        rw [signOf]
        split
        · exact Nat.le_succ _
        · exact Nat.le_refl _
  unfold integer
  rw [signs,Option.bind_some]
  generalize signOf start = s at shorter
  obtain ⟨negative,r⟩ := s
  dsimp only at shorter ⊢
  cases r with
  | nil => rfl
  | cons b r =>
      rw [digits_reads n 0 (b :: r) (by omega),unsigned]
      change (if !isDigit b then some (none,start) else _) = _
      cases isDigit b with
      | false => rfl
      | true =>
          simp only [Bool.not_true,Bool.false_eq_true,if_false,Option.bind_some]
          cases readDigits Reader.valueLimit 0 (b :: r) with
          | none => rfl
          | some read =>
              simp only [floats,Option.map_some,Option.bind_some]
              split
              · rfl
              · rfl

theorem value_reads (n : Nat) (r : Bytes) (turns : r.length < n) :
    Reader.value n r = some (match readValue (skip r) with
      | some (v,rest) => (some v,rest)
      | none => (none,skip r)) := by
  have shorter := skip_length r
  unfold Reader.value
  rw [skipSpace_skips n r turns,Option.bind_some]
  generalize skip r = start at shorter
  unfold readValue
  by_cases yes : start.take 4 = Reader.trueWord
  · have taken : Reader.literal Reader.trueWord start = some (true,start.drop 4) := by
      rw [literal_takes]
      exact congrArg some (if_pos yes)
    rw [taken,if_pos yes]
    rfl
  · have left : Reader.literal Reader.trueWord start = some (false,start) := by
      rw [literal_takes]
      exact congrArg some (if_neg yes)
    rw [left,if_neg yes]
    by_cases no : start.take 5 = Reader.falseWord
    · have taken : Reader.literal Reader.falseWord start = some (true,start.drop 5) := by
        rw [literal_takes]
        exact congrArg some (if_pos no)
      rw [if_pos no]
      change ((Reader.literal Reader.falseWord start).bind _) = _
      rw [taken]
      rfl
    · have left : Reader.literal Reader.falseWord start = some (false,start) := by
        rw [literal_takes]
        exact congrArg some (if_neg no)
      rw [if_neg no]
      change ((Reader.literal Reader.falseWord start).bind _) = _
      rw [left]
      exact integer_reads n start (by omega)

-- What each reader leaves is an end of what it was given.

theorem nameText_ends (r t rest : Bytes) (reads : nameText r = some (t,rest)) :
    r = t ++ quote :: rest ∧ quote ∉ t ∧ backslash ∉ t := by
  induction r generalizing t with
  | nil => cases reads
  | cons b r ih =>
      rw [nameText] at reads
      split at reads
      case isTrue closes =>
        cases reads
        rw [closes]
        exact ⟨rfl,List.not_mem_nil,List.not_mem_nil⟩
      case isFalse other =>
        split at reads
        case isTrue => cases reads
        case isFalse plain =>
          obtain ⟨⟨u,end_⟩,inner,is⟩ := Option.map_eq_some_iff.mp reads
          cases is
          obtain ⟨whole,quoteless,slashless⟩ := ih u inner
          refine ⟨by rw [whole]; rfl,?_,?_⟩
          · exact List.not_mem_cons_of_ne_of_not_mem (fun same => other same.symm) quoteless
          · exact List.not_mem_cons_of_ne_of_not_mem (fun same => plain same.symm) slashless

theorem expect_ends (b : UInt8) (r rest : Bytes) (found : expect b r = some rest) : rest.length < r.length := by
  obtain ⟨pad,whole,_⟩ := Library.Json.expect_local b r rest found
  rw [whole,List.length_append,List.length_cons]
  omega

theorem named_ends (r t rest : Bytes) (reads : named r = some (t,rest)) :
    (∃ start, expect quote r = some start ∧ nameText start = some (t,rest)) ∧ t.length < kMaxParamNameLen ∧ rest.length < r.length := by
  unfold named at reads
  obtain ⟨start,opens,reads⟩ := Option.bind_eq_some_iff.mp reads
  obtain ⟨text,short⟩ := Option.filter_eq_some_iff.mp reads
  have shorter := expect_ends quote r start opens
  have whole := congrArg List.length (nameText_ends start t rest text).1
  rw [List.length_append,List.length_cons] at whole
  exact ⟨⟨start,opens,text⟩,of_decide_eq_true short,by omega⟩

theorem fromQuote_suffix (escaped : Bool) (r : Bytes) : fromQuote escaped r <:+ r := by
  induction r generalizing escaped with
  | nil => cases escaped <;> exact List.suffix_refl _
  | cons b r ih =>
      cases escaped with
      | true => exact (ih false).trans (List.suffix_cons b r)
      | false =>
          rw [fromQuote]
          split
          · exact List.suffix_refl _
          · exact (ih _).trans (List.suffix_cons b r)

theorem scan_suffix (opening closing : UInt8) (s : Scan) (r rest : Bytes) (found : scan opening closing s r = some rest) : rest <:+ r := by
  induction r generalizing s with
  | nil => cases s <;> cases found
  | cons b r ih =>
      have later (s : Scan) (found : scan opening closing s r = some rest) := (ih s found).trans (List.suffix_cons b r)
      cases s with
      | plain depth =>
          rw [scan_plain] at found
          split at found
          · exact later _ found
          · split at found
            · exact later _ found
            · split at found
              · split at found
                · cases found
                  exact List.suffix_cons b _
                · exact later _ found
              · exact later _ found
      | text depth escaped =>
          cases escaped with
          | true => exact later _ found
          | false =>
              rw [scan] at found
              split at found
              · exact later _ found
              · exact later _ found

theorem readDigits_suffix (limit v w : Nat) (r rest : Bytes) (reads : readDigits limit v r = some (w,rest)) : rest <:+ r := by
  induction r generalizing v with
  | nil =>
      cases reads
      exact List.suffix_refl _
  | cons b r ih =>
      rw [readDigits] at reads
      split at reads
      · dsimp only at reads
        split at reads
        · cases reads
        · exact (ih _ reads).trans (List.suffix_cons b r)
      · cases reads
        exact List.suffix_refl _

theorem integer_suffix (start : Bytes) (v : Value) (rest : Bytes) (reads : integer start = some (v,rest)) : rest <:+ start := by
  have signs : (signOf start).2 <:+ start := by
    cases start with
    | nil => exact List.suffix_refl _
    | cons b r =>
        rw [signOf]
        split
        · exact List.suffix_cons b r
        · exact List.suffix_refl _
  unfold integer at reads
  refine List.IsSuffix.trans ?_ signs
  generalize (signOf start).2 = r at reads
  cases r with
  | nil => cases reads
  | cons b r =>
      rw [unsigned] at reads
      split at reads
      · cases reads
      · obtain ⟨⟨w,after⟩,digits,reads⟩ := Option.bind_eq_some_iff.mp reads
        split at reads
        · cases reads
        · cases reads
          exact readDigits_suffix _ _ _ _ _ digits

theorem readValue_suffix (start : Bytes) (v : Value) (rest : Bytes) (reads : readValue start = some (v,rest)) : rest <:+ start := by
  unfold readValue at reads
  split at reads
  · cases reads
    exact List.drop_suffix 4 start
  · split at reads
    · cases reads
      exact List.drop_suffix 5 start
    · exact integer_suffix start v rest reads

theorem passValue_suffix (start rest : Bytes) (passes : passValue start = some rest) : rest <:+ start := by
  cases start with
  | nil => cases passes
  | cons b r =>
      rw [passValue] at passes
      split at passes
      · have ends := fromQuote_suffix false r
        generalize fromQuote false r = q at passes ends
        cases q with
        | nil => cases passes
        | cons c q =>
            cases passes
            exact (List.suffix_cons c rest).trans (ends.trans (List.suffix_cons b r))
      · split at passes
        · exact (scan_suffix _ _ _ _ _ passes).trans (List.suffix_cons b r)
        · cases passes
          exact List.dropWhile_suffix _

theorem passed_splits (start : Bytes) (p : Passed) (rest : Bytes) (passes : passed start = some (p,rest)) : start = p.text ++ rest := by
  unfold passed at passes
  cases reads : readValue start with
  | some read =>
      obtain ⟨v,after⟩ := read
      rw [reads] at passes
      cases passes
      exact (List.suffix_iff_eq_append.mp (readValue_suffix start v rest reads)).symm
  | none =>
      rw [reads] at passes
      obtain ⟨after,bare,is⟩ := Option.map_eq_some_iff.mp passes
      cases is
      exact (List.suffix_iff_eq_append.mp (passValue_suffix start rest bare)).symm

theorem piece_ends (r : Bytes) (p : Piece) (rest : Bytes) (reads : piece r = some (p,rest)) :
    rest.length < r.length ∧ p.value.text.length < r.length ∧ p.name.length < kMaxParamNameLen := by
  unfold piece at reads
  obtain ⟨⟨t,afterName⟩,name,reads⟩ := Option.bind_eq_some_iff.mp reads
  obtain ⟨afterColon,colon_,reads⟩ := Option.bind_eq_some_iff.mp reads
  obtain ⟨⟨v,end_⟩,value,is⟩ := Option.map_eq_some_iff.mp reads
  cases is
  obtain ⟨_,short,shorter⟩ := named_ends r t afterName name
  have two := expect_ends _ _ _ colon_
  have three := skip_length afterColon
  have whole := congrArg List.length (passed_splits _ _ _ value)
  rw [List.length_append] at whole
  dsimp only at two whole ⊢
  exact ⟨by omega,by omega,short⟩

theorem named_skips (r : Bytes) : named (skip r) = named r := by
  unfold named expect
  rw [Library.Json.skip_skip]

theorem piece_skips (r : Bytes) : piece (skip r) = piece r := by
  unfold piece
  rw [named_skips]

theorem entry_pieces (n : Nat) (r : Bytes) (turns : r.length < n) :
    entry n r = some ((piece r).map fun p => (p.1.entry,p.2)) := by
  unfold entry piece
  rw [string_named n r turns,Option.bind_some]
  cases name : named r with
  | none => rfl
  | some t =>
      obtain ⟨t,afterName⟩ := t
      obtain ⟨_,_,shorter⟩ := named_ends r t afterName name
      dsimp only
      rw [take_expects n _ afterName (by omega),Option.bind_some,Option.bind_some]
      cases parted : expect Library.Json.colon afterName with
      | none => rfl
      | some afterColon =>
          have two := expect_ends _ _ _ parted
          have three := skip_length afterColon
          dsimp only
          rw [if_neg (by decide),value_reads n afterColon (by omega),Option.bind_some,Option.bind_some]
          unfold passed
          cases reads : readValue (skip afterColon) with
          | some read =>
              obtain ⟨v,rest⟩ := read
              rfl
          | none =>
              dsimp only
              rw [skipValue_passes n (skip afterColon) (by omega) (Library.Json.skip_skip afterColon)]
              cases passValue (skip afterColon) with
              | none => rfl
              | some rest => rfl

-- A comma goes on, a brace closes, anything else is wrong.
theorem take_next {α : Type} (n : Nat) (r : Bytes) (turns : r.length < n) (goOn : Cursor → Option α) (close : Cursor → α) (bad : α) :
    ((Reader.take n Library.Json.comma r).bind fun more =>
      if more.1 then goOn more.2
      else (Reader.take n 0x7D more.2).map fun closed => if closed.1 then close closed.2 else bad) =
    match skip r with
    | [] => some bad
    | b :: rest => if b = Library.Json.comma then goOn rest else if b = 0x7D then some (close rest) else some bad := by
  rw [take_expects n Library.Json.comma r turns,Option.bind_some]
  unfold expect
  have shrinks := skip_length r
  have stays := Library.Json.skip_skip r
  generalize skip r = here at shrinks stays
  cases here with
  | nil =>
      dsimp only
      rw [if_neg (by decide),take_expects n 0x7D [] (by rw [List.length_nil]; omega)]
      rfl
  | cons b rest =>
      dsimp only
      by_cases isComma : b = Library.Json.comma
      · simp only [if_pos isComma,if_true]
      · simp only [if_neg isComma]
        rw [if_neg (by decide),take_expects n 0x7D (b :: rest) (by omega)]
        unfold expect
        rw [stays]
        dsimp only
        by_cases isClose : b = 0x7D
        · simp only [if_pos isClose,Option.map_some,if_true]
        · simp only [if_neg isClose,Option.map_some,Bool.false_eq_true,if_false]

-- The loop over a set: its entries are the pieces between the braces, up to as many as a set may name.
theorem setEntries_items (n turns : Nat) (held : List ConfigSetEntry) (r : Bytes) (long : r.length < turns) (enough : r.length < n) :
    ∃ answer, setEntries n turns held r = some answer ∧ ∀ es rest, answer = .ok (es,rest) ↔
      ∃ ps, itemsFrom piece 0x7D turns r = some (ps,rest) ∧ held.length + ps.length ≤ maxConfigSetEntries ∧ es = held ++ ps.map Piece.entry := by
  induction turns generalizing held r with
  | zero => omega
  | succ turns ih =>
      have refused (e : String) (why : ∀ ps rest, itemsFrom piece 0x7D (turns+1) r = some (ps,rest) → ¬ held.length + ps.length ≤ maxConfigSetEntries) :
          ∃ answer, some (Except.error e) = some answer ∧ ∀ es rest, answer = .ok (es,rest) ↔
            ∃ ps, itemsFrom piece 0x7D (turns+1) r = some (ps,rest) ∧ held.length + ps.length ≤ maxConfigSetEntries ∧ es = held ++ ps.map Piece.entry := by
        refine ⟨_,rfl,fun es rest => ⟨fun is => (by cases is),?_⟩⟩
        rintro ⟨ps,reads,fits,_⟩
        exact absurd fits (why ps rest reads)
      rw [setEntries]
      by_cases full : maxConfigSetEntries ≤ held.length
      · rw [if_pos full]
        refine refused kTooMany fun ps rest reads => ?_
        rw [itemsFrom] at reads
        obtain ⟨⟨p,after⟩,_,reads⟩ := Option.bind_eq_some_iff.mp reads
        dsimp only at reads
        cases front : skip after with
        | nil =>
            rw [front] at reads
            cases reads
        | cons b later =>
            rw [front] at reads
            dsimp only at reads
            split at reads
            · obtain ⟨_,_,is⟩ := Option.map_eq_some_iff.mp reads
              cases is
              rw [List.length_cons]
              omega
            · split at reads
              · cases reads
                rw [List.length_singleton]
                omega
              · cases reads
      · rw [if_neg full,entry_pieces n r enough,Option.bind_some]
        cases first : piece r with
        | none =>
            refine refused kBadSet fun ps rest reads => ?_
            rw [itemsFrom,first] at reads
            cases reads
        | some read =>
            obtain ⟨p,after⟩ := read
            obtain ⟨shorter,_⟩ := piece_ends r p after first
            have shrinks := skip_length after
            dsimp only [Option.map_some]
            rw [take_next n after (by omega) (setEntries n turns (held ++ [p.entry])) (fun rest => .ok (held ++ [p.entry],rest)) (.error kBadSet)]
            rw [itemsFrom,first,Option.bind_some] at refused ⊢
            dsimp only at refused ⊢
            cases front : skip after with
            | nil =>
                rw [front] at refused
                refine refused kBadSet fun ps rest reads => ?_
                cases reads
            | cons b later =>
                rw [front,List.length_cons] at shrinks
                rw [front] at refused
                dsimp only at refused ⊢
                by_cases isComma : b = Library.Json.comma
                · simp only [if_pos isComma]
                  obtain ⟨answer,is,exactly⟩ := ih (held ++ [p.entry]) later (by omega) (by omega)
                  refine ⟨answer,is,fun es rest => (exactly es rest).trans ?_⟩
                  rw [List.length_append,List.length_singleton]
                  constructor
                  · rintro ⟨ps,reads,fits,isEs⟩
                    refine ⟨p :: ps,?_,?_,?_⟩
                    · rw [reads]
                      rfl
                    · rw [List.length_cons]
                      omega
                    · rw [isEs,List.map_cons,List.append_assoc]
                      rfl
                  · rintro ⟨ps,reads,fits,isEs⟩
                    obtain ⟨⟨qs,end_⟩,inner,is⟩ := Option.map_eq_some_iff.mp reads
                    cases is
                    refine ⟨qs,inner,?_,?_⟩
                    · rw [List.length_cons] at fits
                      dsimp only at fits
                      omega
                    · rw [isEs,List.map_cons,List.append_assoc]
                      rfl
                · simp only [if_neg isComma] at refused ⊢
                  by_cases isClose : b = 0x7D
                  · simp only [if_pos isClose]
                    refine ⟨_,rfl,fun es rest => ?_⟩
                    constructor
                    · intro is
                      cases is
                      refine ⟨[p],rfl,?_,rfl⟩
                      rw [List.length_singleton]
                      omega
                    · rintro ⟨ps,reads,_,isEs⟩
                      cases reads
                      rw [isEs]
                      rfl
                  · simp only [if_neg isClose] at refused ⊢
                    refine refused kBadSet fun ps rest reads => ?_
                    cases reads

-- An answer that comes, and accepts just what is wanted.
def Answers {α : Type} (read : Option (Except String α)) (wanted : α → Prop) : Prop :=
  ∃ answer, read = some answer ∧ ∀ a, answer = .ok a ↔ wanted a

theorem answers_error {α : Type} (e : String) (wanted : α → Prop) (none_ : ∀ a, ¬ wanted a) : Answers (some (.error e)) wanted :=
  ⟨_,rfl,fun a => ⟨fun is => (by cases is),fun holds => absurd holds (none_ a)⟩⟩

theorem setObject_items (n : Nat) (r : Bytes) (turns : r.length < n) :
    Answers (setObject n r) fun s => ∃ start ps, expect 0x7B r = some start ∧ items piece 0x7D start = some (ps,s.2) ∧
      0 < ps.length ∧ ps.length ≤ maxConfigSetEntries ∧ s.1 = ps.map Piece.entry := by
  unfold setObject
  rw [take_expects n 0x7B r turns,Option.bind_some]
  cases opened : expect 0x7B r with
  | none =>
      refine answers_error kBadSet _ fun s => ?_
      rintro ⟨start,_,is,_⟩
      cases is
  | some start =>
      have shorter := expect_ends 0x7B r start opened
      have stays := Library.Json.skip_skip start
      have shrinks := skip_length start
      dsimp only
      rw [if_neg (by decide),take_expects n 0x7D start (by omega),Option.bind_some]
      have same (s : List ConfigSetEntry × Cursor) : (∃ start_ ps, some start = some start_ ∧ items piece 0x7D start_ = some (ps,s.2) ∧
          0 < ps.length ∧ ps.length ≤ maxConfigSetEntries ∧ s.1 = ps.map Piece.entry) ↔
          ∃ ps, items piece 0x7D start = some (ps,s.2) ∧ 0 < ps.length ∧ ps.length ≤ maxConfigSetEntries ∧ s.1 = ps.map Piece.entry := by
        constructor
        · rintro ⟨_,ps,is,rest⟩
          cases is
          exact ⟨ps,rest⟩
        · rintro ⟨ps,rest⟩
          exact ⟨start,ps,rfl,rest⟩
      cases closed : expect 0x7D start with
      | some after =>
          obtain ⟨pad,whole,blanks,shown⟩ := Library.Json.expect_local 0x7D start after closed
          have front : skip start = 0x7D :: after := by
            rw [whole,Library.Json.skip_pad _ _ blanks,Library.Json.skip_front _ _ shown]
          refine answers_error kEmptySet _ fun s holds => ?_
          obtain ⟨ps,reads,some_,_⟩ := (same s).mp holds
          unfold items at reads
          rw [front] at reads
          cases reads
          exact absurd some_ (Nat.lt_irrefl 0)
      | none =>
          dsimp only
          rw [if_neg (by decide)]
          obtain ⟨answer,is,exactly⟩ := setEntries_items n n [] (skip start) (by omega) (by omega)
          refine ⟨answer,is,fun s => ((exactly s.1 s.2).trans ?_).trans (same s).symm⟩
          rw [items_front piece (fun r p rest reads => (piece_ends r p rest reads).1) piece_skips 0x7D start closed n (by omega)]
          constructor
          · rintro ⟨ps,reads,fits,isEs⟩
            rw [List.length_nil] at fits
            exact ⟨ps,reads,itemsFrom_some piece 0x7D n (skip start) ps s.2 reads,by omega,isEs⟩
          · rintro ⟨ps,reads,_,fits,isEs⟩
            exact ⟨ps,reads,by rw [List.length_nil]; omega,isEs⟩

def Asked.parsed : Asked → ConfigSetRequest → Parsed
  | .op _ _, req => {haveOp := true,out := req}
  | .set _ _, req => {haveSet := true,out := req}

theorem memberValue_asked (n : Nat) (key r : Bytes) (turns : r.length < n) :
    Answers (memberValue n key {} r) fun q => ∃ a req, asked key r = some (a,q.2) ∧ a.request = some req ∧ q.1 = a.parsed req := by
  unfold memberValue asked
  by_cases isOp : cString key = opKey
  · rw [if_pos isOp,if_pos isOp]
    unfold opWord
    rw [string_named n r turns]
    cases word : named r with
    | none =>
        refine answers_error kBadOp _ fun q => ?_
        rintro ⟨a,req,is,_⟩
        cases is
    | some w =>
        refine ⟨_,rfl,fun q => ?_⟩
        dsimp only [Option.map_some]
        constructor
        · intro is
          by_cases getAll : cString w.1 = getAllWord
          · rw [if_pos getAll] at is
            cases is
            exact ⟨_,{op := configOpGetAll},rfl,if_pos getAll,rfl⟩
          · rw [if_neg getAll] at is
            by_cases defaults : cString w.1 = restoreDefaultsWord
            · rw [if_pos defaults] at is
              cases is
              exact ⟨_,{op := configOpRestoreDefaults},rfl,(if_neg getAll).trans (if_pos defaults),rfl⟩
            · rw [if_neg defaults] at is
              cases is
        · rintro ⟨a,req,is,request,parsed⟩
          rw [Option.some.injEq,Prod.mk.injEq] at is
          obtain ⟨rfl,rest⟩ := is
          obtain ⟨q1,q2⟩ := q
          dsimp only at rest parsed
          subst rest parsed
          unfold Asked.request at request
          dsimp only at request
          by_cases getAll : cString w.1 = getAllWord
          · rw [if_pos getAll] at request ⊢
            cases request
            rfl
          · rw [if_neg getAll] at request ⊢
            by_cases defaults : cString w.1 = restoreDefaultsWord
            · rw [if_pos defaults] at request ⊢
              cases request
              rfl
            · rw [if_neg defaults] at request
              cases request
  · rw [if_neg isOp,if_neg isOp]
    by_cases isSet : cString key = setKey
    · rw [if_pos isSet,if_pos isSet]
      obtain ⟨answer,is,exactly⟩ := setObject_items n r turns
      refine ⟨answer.map fun s => ({haveSet := true,out := {op := configOpSet,entries := [] ++ s.1}},s.2),?_,fun q => ?_⟩
      · rw [is]
        rfl
      · constructor
        · intro got
          cases answer with
          | error e => cases got
          | ok s =>
              cases got
              obtain ⟨start,ps,opened,reads,some_,fits,isEs⟩ := (exactly s).mp rfl
              refine ⟨.set key ps,{op := configOpSet,entries := ps.map Piece.entry},?_,if_pos ⟨some_,fits⟩,?_⟩
              · rw [opened,Option.bind_some,reads]
                rfl
              · dsimp only
                rw [isEs]
                rfl
        · rintro ⟨a,req,reads,request,parsed⟩
          obtain ⟨start,opened,reads⟩ := Option.bind_eq_some_iff.mp reads
          obtain ⟨⟨ps,end_⟩,list,same⟩ := Option.map_eq_some_iff.mp reads
          rw [Prod.mk.injEq] at same
          obtain ⟨rfl,rest⟩ := same
          obtain ⟨q1,q2⟩ := q
          dsimp only at rest parsed
          subst rest parsed
          unfold Asked.request at request
          dsimp only at request
          split at request
          case isTrue size =>
            cases request
            rw [(exactly (ps.map Piece.entry,end_)).mpr ⟨start,ps,opened,list,size.1,size.2,rfl⟩]
            rfl
          case isFalse => cases request
    · rw [if_neg isSet,if_neg isSet]
      refine answers_error kNoKey _ fun q => ?_
      rintro ⟨a,req,is,_⟩
      cases is

-- A second member is refused, whatever it is.
theorem members_again (n turns : Nat) (p : Parsed) (r : Bytes) (one : p.haveSet = true ∨ p.haveOp = true) (enough : r.length < n) :
    ∃ e, members n (turns+1) p r = some (.error e) := by
  rw [members,string_named n r enough,Option.bind_some]
  cases name : named r with
  | none => exact ⟨_,rfl⟩
  | some key =>
      obtain ⟨_,_,shorter⟩ := named_ends r key.1 key.2 name
      dsimp only
      rw [take_expects n _ key.2 (by omega),Option.bind_some]
      cases expect Library.Json.colon key.2 with
      | none => exact ⟨_,rfl⟩
      | some after =>
          have refused : ∃ e, memberValue n key.1 p after = some (.error e) := by
            unfold memberValue
            split
            · split
              · exact ⟨_,rfl⟩
              case isFalse noOp =>
                rw [if_pos (one.resolve_right noOp)]
                exact ⟨_,rfl⟩
            · split
              · split
                · exact ⟨_,rfl⟩
                case isFalse noSet =>
                  rw [if_pos (one.resolve_left noSet)]
                  exact ⟨_,rfl⟩
              · exact ⟨_,rfl⟩
          obtain ⟨e,is⟩ := refused
          dsimp only
          rw [if_neg (by decide),is]
          exact ⟨e,rfl⟩

theorem asked_ends (key r : Bytes) (a : Asked) (rest : Bytes) (reads : asked key r = some (a,rest)) : rest.length ≤ r.length := by
  unfold asked at reads
  split at reads
  · obtain ⟨⟨w,end_⟩,word,is⟩ := Option.map_eq_some_iff.mp reads
    cases is
    exact Nat.le_of_lt (named_ends r w _ word).2.2
  · split at reads
    · obtain ⟨start,opened,reads⟩ := Option.bind_eq_some_iff.mp reads
      obtain ⟨⟨ps,end_⟩,list,is⟩ := Option.map_eq_some_iff.mp reads
      cases is
      have shorter := expect_ends 0x7B r start opened
      have inner := items_ends piece (fun r p rest reads => (piece_ends r p rest reads).1) 0x7D start ps _ list
      dsimp only
      omega
    · cases reads

theorem members_asks (n turns : Nat) (r : Bytes) (enough : r.length < n) :
    Answers (members n (turns+2) {} r) fun q => ∃ key after a rest req, named r = some key ∧ expect Library.Json.colon key.2 = some after ∧
      asked key.1 after = some (a,rest) ∧ a.request = some req ∧ q.1 = a.parsed req ∧ expect 0x7D rest = some q.2 := by
  rw [members,string_named n r enough,Option.bind_some]
  cases name : named r with
  | none =>
      refine answers_error kNotObject _ fun q => ?_
      rintro ⟨key,after,a,rest,req,is,_⟩
      cases is
  | some key =>
      obtain ⟨_,_,shorter⟩ := named_ends r key.1 key.2 name
      dsimp only
      rw [take_expects n _ key.2 (by omega),Option.bind_some]
      cases parted : expect Library.Json.colon key.2 with
      | none =>
          refine answers_error kNotObject _ fun q => ?_
          rintro ⟨key,after,a,rest,req,is,colon_,_⟩
          cases is
          rw [parted] at colon_
          cases colon_
      | some after =>
          have two := expect_ends _ _ _ parted
          dsimp only
          rw [if_neg (by decide)]
          obtain ⟨answer,is,exactly⟩ := memberValue_asked n key.1 after (by omega)
          rw [is,Option.bind_some]
          have same (q : Parsed × Cursor) : (∃ key_ after_ a rest req, some key = some key_ ∧ expect Library.Json.colon key_.2 = some after_ ∧
              asked key_.1 after_ = some (a,rest) ∧ a.request = some req ∧ q.1 = a.parsed req ∧ expect 0x7D rest = some q.2) ↔
              ∃ a rest req, asked key.1 after = some (a,rest) ∧ a.request = some req ∧ q.1 = a.parsed req ∧ expect 0x7D rest = some q.2 := by
            constructor
            · rintro ⟨key_,after_,a,rest,req,isKey,colon_,more⟩
              cases isKey
              rw [parted] at colon_
              cases colon_
              exact ⟨a,rest,req,more⟩
            · rintro ⟨a,rest,req,more⟩
              exact ⟨key,after,a,rest,req,rfl,parted,more⟩
          cases answer with
          | error e =>
              refine answers_error e _ fun q holds => ?_
              obtain ⟨a,rest,req,reads,request,_⟩ := (same q).mp holds
              cases (exactly (a.parsed req,rest)).mpr ⟨a,req,reads,request,rfl⟩
          | ok s =>
              obtain ⟨p,rest⟩ := s
              obtain ⟨a,req,reads,request,parsed⟩ := (exactly (p,rest)).mp rfl
              dsimp only at reads parsed ⊢
              have three := asked_ends key.1 after a rest reads
              have shrinks := skip_length rest
              rw [take_next n rest (by omega) (members n (turns+1) p) (fun r => .ok (p,r)) (.error kNotObject)]
              have only (q : Parsed × Cursor) (holds : ∃ a rest req, asked key.1 after = some (a,rest) ∧ a.request = some req ∧
                  q.1 = a.parsed req ∧ expect 0x7D rest = some q.2) : q.1 = p ∧ expect 0x7D rest = some q.2 := by
                obtain ⟨a2,rest2,req2,reads2,request2,parsed2,closed⟩ := holds
                rw [reads] at reads2
                cases reads2
                rw [request] at request2
                cases request2
                exact ⟨parsed2.trans parsed.symm,closed⟩
              cases front : skip rest with
              | nil =>
                  refine answers_error kNotObject _ fun q holds => ?_
                  obtain ⟨_,closed⟩ := only q ((same q).mp holds)
                  unfold expect at closed
                  rw [front] at closed
                  cases closed
              | cons b later =>
                  rw [front,List.length_cons] at shrinks
                  dsimp only
                  by_cases isComma : b = Library.Json.comma
                  · rw [if_pos isComma]
                    have one : p.haveSet = true ∨ p.haveOp = true := by
                      rw [parsed]
                      cases a with
                      | op => exact .inr rfl
                      | set => exact .inl rfl
                    obtain ⟨e,refused⟩ := members_again n turns p later one (by omega)
                    rw [refused]
                    refine answers_error e _ fun q holds => ?_
                    obtain ⟨_,closed⟩ := only q ((same q).mp holds)
                    unfold expect at closed
                    rw [front,isComma] at closed
                    cases closed
                  · rw [if_neg isComma]
                    by_cases isClose : b = 0x7D
                    · rw [if_pos isClose]
                      refine ⟨_,rfl,fun q => (Iff.trans ?_ (same q).symm)⟩
                      have found : expect 0x7D rest = some later := by
                        unfold expect
                        rw [front]
                        exact if_pos isClose
                      constructor
                      · intro got
                        cases got
                        exact ⟨a,rest,req,reads,request,parsed,found⟩
                      · intro holds
                        obtain ⟨isP,closed⟩ := only q holds
                        rw [found] at closed
                        obtain ⟨q1,q2⟩ := q
                        cases closed
                        rw [← isP]
                    · rw [if_neg isClose]
                      refine answers_error kNotObject _ fun q holds => ?_
                      obtain ⟨_,closed⟩ := only q ((same q).mp holds)
                      unfold expect at closed
                      rw [front] at closed
                      dsimp only at closed
                      rw [if_neg isClose] at closed
                      cases closed

theorem conclude_ends (n : Nat) (a : Asked) (req : ConfigSetRequest) (r : Bytes) (turns : r.length < n) :
    conclude n (a.parsed req) r = some (if skip r = [] then .ok req else .error kNotObject) := by
  unfold conclude
  rw [skipSpace_skips n r turns,Option.map_some]
  cases skip r with
  | nil =>
      cases a with
      | op => rfl
      | set => rfl
  | cons b rest => rfl

-- For every payload the parser comes to an end inside it, and takes just the requests the payload asks.
theorem parse_asks (payload : Bytes) :
    Answers (parseConfigSet payload) fun req => ∃ a, asks payload = some a ∧ a.request = some req := by
  unfold parseConfigSet asks
  dsimp only
  by_cases empty : payload.length = 0
  · rw [if_pos empty]
    refine answers_error kNotObject _ fun req => ?_
    rintro ⟨a,reads,_⟩
    rw [List.length_eq_zero_iff.mp empty] at reads
    cases reads
  · rw [if_neg empty,take_expects _ 0x7B payload (Nat.lt_succ_self _),Option.bind_some]
    cases opened : expect 0x7B payload with
    | none =>
        refine answers_error kNotObject _ fun req => ?_
        rintro ⟨a,reads,_⟩
        cases reads
    | some start =>
        have shorter := expect_ends 0x7B payload start opened
        have shrinks := skip_length start
        dsimp only
        rw [if_neg (by decide),take_expects _ 0x7D start (by omega),Option.bind_some]
        cases closed : expect 0x7D start with
        | some after =>
            obtain ⟨pad,whole,blanks,shown⟩ := Library.Json.expect_local 0x7D start after closed
            have front : skip start = 0x7D :: after := by
              rw [whole,Library.Json.skip_pad _ _ blanks,Library.Json.skip_front _ _ shown]
            have two := expect_ends 0x7D start after closed
            dsimp only
            unfold conclude
            rw [if_pos rfl,skipSpace_skips _ after (by omega),Option.map_some]
            have never : ∀ req, ¬ ∃ a, ((some start).bind fun r => (named r).bind fun key => (expect Library.Json.colon key.2).bind fun r =>
                (asked key.1 r).bind fun a => (expect 0x7D a.2).bind fun r => if skip r = [] then some a.1 else none) = some a ∧ a.request = some req := by
              rintro req ⟨a,reads,_⟩
              rw [Option.bind_some] at reads
              unfold named expect at reads
              rw [front] at reads
              cases reads
            cases skip after with
            | nil => exact answers_error _ _ never
            | cons b rest => exact answers_error _ _ never
        | none =>
            obtain ⟨k,isK⟩ : ∃ k, payload.length + 1 = k + 2 := ⟨payload.length - 1,by omega⟩
            dsimp only
            rw [if_neg (by decide)]
            obtain ⟨answer,is,exactly⟩ := members_asks (payload.length+1) k (skip start) (by omega)
            rw [show members (payload.length+1) (payload.length+1) {} (skip start) = some answer from by rw [← is,← isK],Option.bind_some]
            cases answer with
            | error e =>
                refine answers_error e _ fun req => ?_
                rintro ⟨a,reads,request⟩
                rw [Option.bind_some] at reads
                obtain ⟨key,name,reads⟩ := Option.bind_eq_some_iff.mp reads
                obtain ⟨after,parted,reads⟩ := Option.bind_eq_some_iff.mp reads
                obtain ⟨⟨a2,rest⟩,value,reads⟩ := Option.bind_eq_some_iff.mp reads
                obtain ⟨last,closes,reads⟩ := Option.bind_eq_some_iff.mp reads
                split at reads
                case isFalse => cases reads
                case isTrue =>
                  cases reads
                  rw [← named_skips] at name
                  cases (exactly (a2.parsed req,last)).mpr ⟨key,after,a2,rest,req,name,parted,value,request,rfl,closes⟩
            | ok s =>
                obtain ⟨p,last⟩ := s
                obtain ⟨key,after,a,rest,req,name,parted,value,request,parsed,closes⟩ := (exactly (p,last)).mp rfl
                rw [named_skips] at name
                have walk : ((some start).bind fun r => (named r).bind fun key => (expect Library.Json.colon key.2).bind fun r =>
                    (asked key.1 r).bind fun a => (expect 0x7D a.2).bind fun r => if skip r = [] then some a.1 else none) =
                    if skip last = [] then some a else none := by
                  rw [Option.bind_some,name,Option.bind_some,parted,Option.bind_some,value,Option.bind_some]
                  dsimp only at closes ⊢
                  rw [closes,Option.bind_some]
                have one := (named_ends start key.1 key.2 name).2.2
                have two := expect_ends _ _ _ parted
                have three := asked_ends _ _ _ _ value
                have four := expect_ends _ _ _ closes
                dsimp only at parsed four ⊢
                rw [walk,parsed,conclude_ends _ a req last (by omega)]
                by_cases ends : skip last = []
                · rw [if_pos ends,if_pos ends]
                  refine ⟨_,rfl,fun other => ?_⟩
                  constructor
                  · intro got
                    cases got
                    exact ⟨a,rfl,request⟩
                  · rintro ⟨b,same,other_⟩
                    cases same
                    rw [request] at other_
                    cases other_
                    rfl
                · rw [if_neg ends,if_neg ends]
                  refine answers_error kNotObject _ fun other => ?_
                  rintro ⟨b,same,_⟩
                  cases same

end LoraRan.Bridge.ConfigJson
