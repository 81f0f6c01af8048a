import LoraRan.Bridge.ConfigSyntax
import Mathlib.Data.List.TakeWhile

namespace LoraRan.Bridge.ConfigJson
open Protocol Config
open Library.Json (quote backslash blank skip expect Doc Utf8 StrState NumState Plain Printable Behind Stops Kinds skip_pad skip_front skip_splits
  skip_shown skip_skip stops_pad itemsFrom items items_one items_follow itemsFrom_below value_local value_kinds string_local number_local string_text)
open Library.DecimalText (isDigit readDigits)

-- What a text says when it is read as JSON.

def decimalFrom (v : Nat) (ds : Bytes) : Nat := ds.foldl (fun v b => v * 10 + (b.toNat - 0x30)) v

-- A number with neither fraction nor exponent.
def wholeNumber : Bytes → Option Int
  | [] => none
  | b :: ds =>
      if b = 0x2D then if ds.all isDigit then some (-(decimalFrom 0 ds : Int)) else none
      else if (b :: ds).all isDigit then some (decimalFrom 0 (b :: ds) : Int)
      else none

def readable : Doc → Option Value
  | .bool b => some (if b then 1 else 0)
  | .num text => (wholeNumber text).bind fun v => if -2147483648 ≤ v ∧ v ≤ 2147483647 then some (Int32.ofInt v) else none
  | _ => none

-- One of the three documents, with names a parameter could have.
inductive Means : Doc → ConfigSetRequest → Prop where
  | getAll : Means (.obj [(opKey,.str getAllWord)]) {op := configOpGetAll}
  | restoreDefaults : Means (.obj [(opKey,.str restoreDefaultsWord)]) {op := configOpRestoreDefaults}
  | set (ms : List (Bytes × Doc)) (some_ : 0 < ms.length) (fits : ms.length ≤ maxConfigSetEntries)
      (names : ∀ m ∈ ms, backslash ∉ m.1 ∧ m.1.length < kMaxParamNameLen) :
      Means (.obj [(setKey,.obj ms)]) {op := configOpSet,entries := ms.map fun m => ⟨m.1,readable m.2⟩}

def Strict (payload : Bytes) (req : ConfigSetRequest) : Prop := ∃ d, Library.Json.parse payload = some d ∧ Means d req

-- The names and values a payload is split into are JSON, each by itself.
def Piece.Sound (p : Piece) : Prop := Printable p.name ∧ (Library.Json.parse p.value.text).isSome = true

def Asked.Sound : Asked → Prop
  | .op key word => Printable key ∧ Printable word
  | .set key pieces => Printable key ∧ ∀ p ∈ pieces, p.Sound

-- Names.

theorem string_named_text (u : Utf8) (r t rest : Bytes) (reads : Library.Json.string (.char u) r = some (t,rest)) (slashless : backslash ∉ t) :
    nameText r = some (t,rest) := by
  induction r generalizing u t with
  | nil => cases reads
  | cons b r ih =>
      rw [Library.Json.string] at reads
      rw [nameText]
      by_cases closes : StrState.char u = .char .start ∧ b = quote
      · rw [if_pos closes] at reads
        cases reads
        rw [if_pos closes.2]
      · rw [if_neg closes] at reads
        obtain ⟨next,stepped,later⟩ := Option.bind_eq_some_iff.mp reads
        obtain ⟨⟨v,end_⟩,inner,is⟩ := Option.map_eq_some_iff.mp later
        cases is
        have plain : b ≠ backslash := fun same => slashless (by rw [← same]; exact List.mem_cons_self)
        unfold StrState.step at stepped
        dsimp only at stepped
        rw [if_neg fun both => plain both.2] at stepped
        split at stepped
        case isTrue => cases stepped
        case isFalse =>
          obtain ⟨w,moved,is⟩ := Option.map_eq_some_iff.mp stepped
          subst is
          have other : b ≠ quote := by
            intro same
            rw [same,Utf8.ascii_ends u quote (by decide)] at moved
            split at moved
            case isTrue start => exact closes ⟨by rw [start],same⟩
            case isFalse => cases moved
          rw [if_neg other,if_neg plain,ih w v inner fun inside => slashless (List.mem_cons_of_mem b inside)]
          rfl

-- A string without escapes is a name of printable text, and the other way round.
theorem string_name (r t rest : Bytes) :
    Library.Json.string (.char .start) r = some (t,rest) ∧ backslash ∉ t ↔ nameText r = some (t,rest) ∧ Printable t := by
  constructor
  · rintro ⟨reads,slashless⟩
    have name := string_named_text .start r t rest reads slashless
    obtain ⟨whole,quoteless,_⟩ := nameText_ends r t rest name
    rw [whole,string_text t rest ⟨quoteless,slashless⟩] at reads
    split at reads
    case isTrue printable => exact ⟨name,printable⟩
    case isFalse => cases reads
  · rintro ⟨name,printable⟩
    obtain ⟨whole,quoteless,slashless⟩ := nameText_ends r t rest name
    rw [whole,string_text t rest ⟨quoteless,slashless⟩,if_pos printable]
    exact ⟨rfl,slashless⟩

theorem cString_printable (t : Bytes) (printable : Printable t) : cString t = t := by
  refine List.takeWhile_eq_self_iff.mpr fun b inside => ?_
  have shown := printable.shown b inside
  rw [bne_iff_ne]
  rintro rfl
  exact absurd shown (by decide)

-- Texts passed over.

theorem char_unescaped (u : Utf8) : decide (StrState.char u = StrState.escaped) = false := decide_eq_false fun same => by cases same

theorem hex_unescaped (more : Nat) : decide (StrState.hex more = StrState.escaped) = false := decide_eq_false fun same => by cases same

theorem string_fromQuote (s : StrState) (r t rest : Bytes) (reads : Library.Json.string s r = some (t,rest)) :
    fromQuote (decide (s = .escaped)) r = quote :: rest := by
  induction r generalizing s t with
  | nil => cases reads
  | cons b r ih =>
      rw [Library.Json.string] at reads
      by_cases closes : s = .char .start ∧ b = quote
      · rw [if_pos closes] at reads
        cases reads
        rw [closes.1,closes.2]
        rfl
      · rw [if_neg closes] at reads
        obtain ⟨next,stepped,later⟩ := Option.bind_eq_some_iff.mp reads
        obtain ⟨⟨v,end_⟩,inner,is⟩ := Option.map_eq_some_iff.mp later
        cases is
        have deeper := ih next v inner
        cases s with
        | escaped =>
            have back : next ≠ .escaped := by
              unfold StrState.step at stepped
              dsimp only at stepped
              split at stepped
              · cases stepped
                exact fun other => by cases other
              · split at stepped
                · cases stepped
                  exact fun other => by cases other
                · cases stepped
            rw [decide_eq_false back] at deeper
            exact deeper
        | char u =>
            unfold StrState.step at stepped
            dsimp only at stepped
            rw [char_unescaped,fromQuote]
            by_cases slash : u = .start ∧ b = backslash
            · rw [if_pos slash] at stepped
              cases stepped
              rw [if_neg (by rw [slash.2]; decide),slash.2]
              exact deeper
            · rw [if_neg slash] at stepped
              split at stepped
              case isTrue => cases stepped
              case isFalse =>
                obtain ⟨w,moved,is⟩ := Option.map_eq_some_iff.mp stepped
                subst is
                have ascii (same : b < 0x80) : u = .start := by
                  rw [Utf8.ascii_ends u b same] at moved
                  split at moved
                  case isTrue start => exact start
                  case isFalse => cases moved
                have other : b ≠ quote := fun same => closes ⟨by rw [ascii (by rw [same]; decide)],same⟩
                have plain : b ≠ backslash := fun same => slash ⟨ascii (by rw [same]; decide),same⟩
                rw [if_neg other,beq_eq_false_iff_ne.mpr plain]
                exact deeper
        | hex more =>
            have digit : Library.Json.hexDigit b = true ∧ next ≠ .escaped := by
              cases more with
              | zero =>
                  unfold StrState.step at stepped
                  dsimp only at stepped
                  split at stepped
                  case isTrue is =>
                    cases stepped
                    exact ⟨is,fun other => by cases other⟩
                  case isFalse => cases stepped
              | succ more =>
                  unfold StrState.step at stepped
                  dsimp only at stepped
                  split at stepped
                  case isTrue is =>
                    cases stepped
                    exact ⟨is,fun other => by cases other⟩
                  case isFalse => cases stepped
            have other : b ≠ quote := fun same => absurd digit.1 (by rw [same]; decide)
            have plain : b ≠ backslash := fun same => absurd digit.1 (by rw [same]; decide)
            rw [decide_eq_false digit.2] at deeper
            rw [hex_unescaped,fromQuote,if_neg other,beq_eq_false_iff_ne.mpr plain]
            exact deeper

-- Bytes that no bracket count and no bare word stops at.
def quiet (b : UInt8) : Bool := b != quote && b != 0x7B && b != 0x7D && b != 0x5B && b != 0x5D && b != Library.Json.comma

def Brackets (opening closing : UInt8) : Prop := opening = 0x7B ∧ closing = 0x7D ∨ opening = 0x5B ∧ closing = 0x5D

theorem scan_quiet (opening closing : UInt8) (kind : Brackets opening closing) (depth : Nat) (w r : Bytes) (all : ∀ b ∈ w, quiet b = true) :
    scan opening closing (.plain depth) (w ++ r) = scan opening closing (.plain depth) r := by
  induction w with
  | nil => rfl
  | cons b w ih =>
      have here := all b List.mem_cons_self
      unfold quiet at here
      simp only [Bool.and_eq_true,bne_iff_ne] at here
      obtain ⟨⟨⟨⟨⟨notQuote,notOpen⟩,notClose⟩,notOpen2⟩,notClose2⟩,_⟩ := here
      have opens : b ≠ opening := by
        rcases kind with ⟨rfl,_⟩ | ⟨rfl,_⟩
        · exact notOpen
        · exact notOpen2
      have closes : b ≠ closing := by
        rcases kind with ⟨_,rfl⟩ | ⟨_,rfl⟩
        · exact notClose
        · exact notClose2
      rw [List.cons_append,scan_plain,if_neg notQuote,if_neg opens,if_neg closes]
      exact ih fun c inside => all c (List.mem_cons_of_mem b inside)

theorem blank_quiet (b : UInt8) (is : blank b = true) : quiet b = true := by
  unfold blank at is
  simp only [Bool.or_eq_true,beq_iff_eq] at is
  rcases is with ((rfl | rfl) | rfl) | rfl
  · rfl
  · rfl
  · rfl
  · rfl

theorem scan_skip (opening closing : UInt8) (kind : Brackets opening closing) (depth : Nat) (r : Bytes) :
    scan opening closing (.plain depth) r = scan opening closing (.plain depth) (skip r) := by
  obtain ⟨pad,whole,blanks⟩ := skip_splits r
  conv_lhs => rw [whole]
  exact scan_quiet opening closing kind depth pad (skip r) fun b inside => blank_quiet b (blanks b inside)

theorem scan_string (opening closing : UInt8) (depth : Nat) (r t rest : Bytes) (reads : Library.Json.string (.char .start) r = some (t,rest)) :
    scan opening closing (.plain depth) (quote :: r) = scan opening closing (.plain depth) rest := by
  have ends := string_fromQuote (.char .start) r t rest reads
  rw [char_unescaped] at ends
  rw [scan_plain,if_pos rfl,scan_text,ends]

-- A count that passes over each item stands at the closing bracket after the last.
theorem scan_items {α : Type} (f : Bytes → Option (α × Bytes)) (opening closing close : UInt8) (kind : Brackets opening closing) (depth : Nat)
    (passes : ∀ text a rest, f text = some (a,rest) → scan opening closing (.plain depth) text = scan opening closing (.plain depth) rest)
    (text : Bytes) (as : List α) (rest : Bytes) (reads : items f close text = some (as,rest)) :
    scan opening closing (.plain depth) text = scan opening closing (.plain depth) (close :: rest) := by
  have comma_ (r : Bytes) : scan opening closing (.plain depth) (Library.Json.comma :: r) = scan opening closing (.plain depth) r := by
    have notQuote : Library.Json.comma ≠ quote := by decide
    have opens : Library.Json.comma ≠ opening := by rcases kind with ⟨rfl,_⟩ | ⟨rfl,_⟩ <;> decide
    have closes : Library.Json.comma ≠ closing := by rcases kind with ⟨_,rfl⟩ | ⟨_,rfl⟩ <;> decide
    rw [scan_plain,if_neg notQuote,if_neg opens,if_neg closes]
  have list (n : Nat) : ∀ text as, itemsFrom f close n text = some (as,rest) →
      scan opening closing (.plain depth) text = scan opening closing (.plain depth) (close :: rest) := by
    induction n with
    | zero =>
        intro text as reads
        cases reads
    | succ n ih =>
        intro text as reads
        rw [itemsFrom] at reads
        obtain ⟨⟨a,after⟩,first,reads⟩ := Option.bind_eq_some_iff.mp reads
        rw [passes text a after first,scan_skip opening closing kind depth after]
        dsimp only at reads
        cases front : skip after with
        | nil =>
            rw [front] at reads
            cases reads
        | cons b later =>
            rw [front] at reads
            dsimp only at reads
            split at reads
            case isTrue isComma =>
              obtain ⟨⟨more,end_⟩,inner,is⟩ := Option.map_eq_some_iff.mp reads
              cases is
              rw [isComma,comma_]
              exact ih later more inner
            case isFalse =>
              split at reads
              case isTrue isClose =>
                cases reads
                rw [isClose]
              case isFalse => cases reads
  unfold items at reads
  cases front : skip text with
  | nil =>
      rw [front] at reads
      cases reads
  | cons b later =>
      rw [front] at reads
      dsimp only at reads
      split at reads
      case isTrue isClose =>
        cases reads
        rw [scan_skip opening closing kind depth text,front,isClose]
      case isFalse => exact list _ text as reads

theorem number_quiet (s : NumState) (text t rest : Bytes) (reads : Library.Json.number s text = some (t,rest)) : ∀ b ∈ t, quiet b = true := by
  have numeric (s next : NumState) (b : UInt8) (stepped : s.step b = some next) : quiet b = true := by
    have noisy : ∀ c : UInt8, c = quote ∨ c = 0x7B ∨ c = 0x7D ∨ c = 0x5B ∨ c = 0x5D ∨ c = Library.Json.comma → s.step c = none := by
      rintro c (rfl | rfl | rfl | rfl | rfl | rfl) <;> cases s <;> rfl
    unfold quiet
    simp only [Bool.and_eq_true,bne_iff_ne]
    have other (c : UInt8) (is : s.step c = none) : b ≠ c := by
      rintro rfl
      rw [is] at stepped
      cases stepped
    exact ⟨⟨⟨⟨⟨other _ (noisy _ (.inl rfl)),other _ (noisy _ (.inr (.inl rfl)))⟩,other _ (noisy _ (.inr (.inr (.inl rfl))))⟩,
      other _ (noisy _ (.inr (.inr (.inr (.inl rfl)))))⟩,other _ (noisy _ (.inr (.inr (.inr (.inr (.inl rfl))))))⟩,
      other _ (noisy _ (.inr (.inr (.inr (.inr (.inr rfl))))))⟩
  induction text generalizing s t with
  | nil =>
      rw [Library.Json.number] at reads
      split at reads
      · cases reads
        exact fun b inside => by cases inside
      · cases reads
  | cons b text ih =>
      rw [Library.Json.number] at reads
      cases stepped : s.step b with
      | some next =>
          rw [stepped] at reads
          obtain ⟨⟨u,end_⟩,inner,is⟩ := Option.map_eq_some_iff.mp reads
          cases is
          intro c inside
          rcases List.mem_cons.mp inside with rfl | later
          · exact numeric s next c stepped
          · exact ih next u inner c later
      | none =>
          rw [stepped] at reads
          dsimp only at reads
          split at reads
          · cases reads
            exact fun b inside => by cases inside
          · cases reads

theorem scan_member (f : Bytes → Option (Doc × Bytes)) (opening closing : UInt8) (kind : Brackets opening closing) (depth : Nat)
    (passes : ∀ text d rest, f text = some (d,rest) → scan opening closing (.plain depth) text = scan opening closing (.plain depth) rest)
    (text : Bytes) (m : Bytes × Doc) (rest : Bytes) (reads : Library.Json.member f text = some (m,rest)) :
    scan opening closing (.plain depth) text = scan opening closing (.plain depth) rest := by
  unfold Library.Json.member at reads
  obtain ⟨opened,start,reads⟩ := Option.bind_eq_some_iff.mp reads
  obtain ⟨⟨key,afterKey⟩,keyed,reads⟩ := Option.bind_eq_some_iff.mp reads
  obtain ⟨afterColon,colon_,reads⟩ := Option.bind_eq_some_iff.mp reads
  obtain ⟨⟨d,end_⟩,valued,is⟩ := Option.map_eq_some_iff.mp reads
  cases is
  obtain ⟨pad,isText,padBlank,_⟩ := Library.Json.expect_local quote text opened start
  obtain ⟨pad2,isAfterKey,pad2Blank,_⟩ := Library.Json.expect_local Library.Json.colon afterKey afterColon colon_
  have blanks (pad : Bytes) (all : ∀ c ∈ pad, blank c = true) := fun b inside => blank_quiet b (all b inside)
  rw [isText,scan_quiet opening closing kind depth pad _ (blanks pad padBlank),scan_string opening closing depth opened key afterKey keyed,
    isAfterKey,scan_quiet opening closing kind depth pad2 _ (blanks pad2 pad2Blank)]
  exact (scan_quiet opening closing kind depth [Library.Json.colon] afterColon (List.all_eq_true.mp rfl)).trans (passes afterColon d _ valued)

-- Whatever a value is, a count inside brackets stands behind it as deep as before.
theorem scan_value (opening closing : UInt8) (kind : Brackets opening closing) (n depth : Nat) (text : Bytes) (d : Doc) (rest : Bytes)
    (reads : Library.Json.value n text = some (d,rest)) :
    scan opening closing (.plain depth) text = scan opening closing (.plain depth) rest := by
  induction n generalizing depth text d rest with
  | zero => cases reads
  | succ n ih =>
      rw [scan_skip opening closing kind depth text]
      cases front : skip text with
      | nil =>
          rw [Library.Json.value,front] at reads
          cases reads
      | cons b later =>
          have member (depth : Nat) := scan_member (Library.Json.value n) opening closing kind depth fun text d rest => ih depth text d rest
          have word (w : Bytes) (all : ∀ b ∈ w, quiet b = true) := scan_quiet opening closing kind depth w rest all
          have notQuote : (0x7B : UInt8) ≠ quote ∧ (0x7D : UInt8) ≠ quote ∧ (0x5B : UInt8) ≠ quote ∧ (0x5D : UInt8) ≠ quote := by decide
          cases value_kinds n text b later front d rest reads with
          | obj inner =>
              have whole (depth : Nat) := scan_items _ opening closing 0x7D kind depth (member depth) later _ rest inner
              rcases kind with ⟨rfl,rfl⟩ | ⟨rfl,rfl⟩
              · rw [scan_plain,if_neg notQuote.1,if_pos rfl,whole (depth+1),scan_plain,if_neg notQuote.2.1,if_neg (by decide),if_pos rfl,
                  if_neg (Nat.succ_ne_zero depth)]
                rfl
              · rw [scan_plain,if_neg notQuote.1,if_neg (by decide),if_neg (by decide),whole depth,scan_plain,if_neg notQuote.2.1,if_neg (by decide),
                  if_neg (by decide)]
          | arr inner =>
              have whole (depth : Nat) := scan_items _ opening closing 0x5D kind depth (fun text d rest reads => ih depth text d rest reads) later _ rest inner
              rcases kind with ⟨rfl,rfl⟩ | ⟨rfl,rfl⟩
              · rw [scan_plain,if_neg notQuote.2.2.1,if_neg (by decide),if_neg (by decide),whole depth,scan_plain,if_neg notQuote.2.2.2,if_neg (by decide),
                  if_neg (by decide)]
              · rw [scan_plain,if_neg notQuote.2.2.1,if_pos rfl,whole (depth+1),scan_plain,if_neg notQuote.2.2.2,if_neg (by decide),if_pos rfl,
                  if_neg (Nat.succ_ne_zero depth)]
                rfl
          | str inner => exact scan_string opening closing depth later _ rest inner
          | null => exact word [0x6E,0x75,0x6C,0x6C] (List.all_eq_true.mp rfl)
          | yes => exact word [0x74,0x72,0x75,0x65] (List.all_eq_true.mp rfl)
          | no => exact word [0x66,0x61,0x6C,0x73,0x65] (List.all_eq_true.mp rfl)
          | num inner =>
              obtain ⟨whole,_⟩ := number_local .start (b :: later) _ rest inner
              rw [whole]
              exact word _ (number_quiet .start (b :: later) _ rest inner)

-- Numbers.

theorem decimalFrom_grows (ds : Bytes) (v : Nat) : v ≤ decimalFrom v ds := by
  induction ds generalizing v with
  | nil => exact Nat.le_refl v
  | cons b ds ih =>
      have step := ih (v * 10 + (b.toNat - 0x30))
      change v ≤ decimalFrom (v * 10 + (b.toNat - 0x30)) ds
      omega

theorem readDigits_all (limit v : Nat) (ds after : Bytes) (all : ∀ b ∈ ds, isDigit b = true) (stops : ∀ b ∈ after.head?, isDigit b = false)
    (small : v ≤ limit) : readDigits limit v (ds ++ after) = if decimalFrom v ds ≤ limit then some (decimalFrom v ds,after) else none := by
  induction ds generalizing v with
  | nil =>
      rw [List.nil_append]
      change _ = if v ≤ limit then some (v,after) else none
      rw [if_pos small]
      cases after with
      | nil => rfl
      | cons b after =>
          rw [readDigits,stops b rfl]
          rfl
  | cons b ds ih =>
      rw [List.cons_append,readDigits,if_pos (all b List.mem_cons_self)]
      change (if limit < v * 10 + (b.toNat - 0x30) then none else readDigits limit (v * 10 + (b.toNat - 0x30)) (ds ++ after)) =
        if decimalFrom (v * 10 + (b.toNat - 0x30)) ds ≤ limit then some (decimalFrom (v * 10 + (b.toNat - 0x30)) ds,after) else none
      have grows := decimalFrom_grows ds (v * 10 + (b.toNat - 0x30))
      by_cases large : limit < v * 10 + (b.toNat - 0x30)
      · rw [if_pos large,if_neg (by omega)]
      · rw [if_neg large]
        exact ih _ (fun c inside => all c (List.mem_cons_of_mem b inside)) (by omega)

-- What makes a number more than its whole part.
def Floats (tail : Bytes) : Prop := tail = [] ∨ ∃ c more, tail = c :: more ∧ (c = 0x2E ∨ c = 0x65 ∨ c = 0x45)

theorem number_whole (s : NumState) (own : s = .zero ∨ s = .int) (text t rest : Bytes) (reads : Library.Json.number s text = some (t,rest)) :
    ∃ ds tail, t = ds ++ tail ∧ (∀ b ∈ ds, isDigit b = true) ∧ Floats tail := by
  induction text generalizing s t with
  | nil =>
      rw [Library.Json.number] at reads
      split at reads
      · cases reads
        exact ⟨[],[],rfl,fun b inside => (by cases inside),.inl rfl⟩
      · cases reads
  | cons b text ih =>
      rw [Library.Json.number] at reads
      cases stepped : s.step b with
      | none =>
          rw [stepped] at reads
          dsimp only at reads
          split at reads
          · cases reads
            exact ⟨[],[],rfl,fun b inside => (by cases inside),.inl rfl⟩
          · cases reads
      | some next =>
          rw [stepped] at reads
          obtain ⟨⟨u,end_⟩,inner,is⟩ := Option.map_eq_some_iff.mp reads
          cases is
          unfold NumState.step at stepped
          by_cases digit : isDigit b = true
          · rw [if_pos digit] at stepped
            rcases own with rfl | rfl
            · cases stepped
            · cases stepped
              obtain ⟨ds,tail,whole,all,floats⟩ := ih .int (.inr rfl) u inner
              refine ⟨b :: ds,tail,by rw [whole]; rfl,?_,floats⟩
              intro c inside
              rcases List.mem_cons.mp inside with rfl | later
              · exact digit
              · exact all c later
          · rw [if_neg digit] at stepped
            refine ⟨[],b :: u,rfl,fun b inside => (by cases inside),.inr ⟨b,u,rfl,?_⟩⟩
            split at stepped
            · rcases own with rfl | rfl
              · cases stepped
              · cases stepped
            · split at stepped
              · split at stepped
                case isTrue exp => rcases own with rfl | rfl <;> cases exp
                case isFalse => cases stepped
              · split at stepped
                case isTrue is => exact .inl is
                case isFalse =>
                  split at stepped
                  case isTrue is => exact .inr is
                  case isFalse => cases stepped

theorem number_parts (b : UInt8) (later t rest : Bytes) (reads : Library.Json.number .start (b :: later) = some (t,rest)) :
    ∃ (negative : Bool) (d : UInt8) (ds tail : Bytes), t = (if negative then [0x2D] else []) ++ (d :: ds ++ tail) ∧ isDigit d = true ∧
      (∀ c ∈ ds, isDigit c = true) ∧ Floats tail := by
  have lead (s : NumState) (own : s = .start ∨ s = .minus) (c : UInt8) (text t : Bytes) (digit : isDigit c = true)
      (reads : Library.Json.number s (c :: text) = some (t,rest)) :
      ∃ ds tail, t = c :: ds ++ tail ∧ (∀ c ∈ ds, isDigit c = true) ∧ Floats tail := by
    rw [Library.Json.number] at reads
    have stepped : s.step c = some (if c = 0x30 then .zero else .int) := by
      unfold NumState.step
      rw [if_pos digit]
      rcases own with rfl | rfl
      · rfl
      · rfl
    rw [stepped] at reads
    obtain ⟨⟨u,end_⟩,inner,is⟩ := Option.map_eq_some_iff.mp reads
    cases is
    have inside : (if c = 0x30 then NumState.zero else .int) = .zero ∨ (if c = 0x30 then NumState.zero else .int) = .int := by
      split
      · exact .inl rfl
      · exact .inr rfl
    obtain ⟨ds,tail,whole,all,floats⟩ := number_whole _ inside text u _ inner
    exact ⟨ds,tail,by rw [whole]; rfl,all,floats⟩
  by_cases digit : isDigit b = true
  · obtain ⟨ds,tail,whole,all,floats⟩ := lead .start (.inl rfl) b later t digit reads
    exact ⟨false,b,ds,tail,whole,digit,all,floats⟩
  · rw [Library.Json.number] at reads
    have start : NumState.step .start b = if b = 0x2D then some .minus else none := by
      unfold NumState.step
      rw [if_neg digit]
      split
      · rfl
      · split
        · rfl
        · split
          · rfl
          · split
            · rfl
            · rfl
    rw [start] at reads
    by_cases minus : b = 0x2D
    · rw [if_pos minus] at reads
      obtain ⟨⟨u,end_⟩,inner,is⟩ := Option.map_eq_some_iff.mp reads
      cases is
      cases later with
      | nil => cases inner
      | cons c later =>
          have next : isDigit c = true := by
            by_contra other
            rw [Library.Json.number] at inner
            have stuck : NumState.step .minus c = none := by
              unfold NumState.step
              rw [if_neg other]
              split
              · rfl
              · split
                · rfl
                · split
                  · rfl
                  · split
                    · rfl
                    · rfl
            rw [stuck] at inner
            cases inner
          obtain ⟨ds,tail,whole,all,floats⟩ := lead .minus (.inr rfl) c later u next inner
          exact ⟨true,c,ds,tail,by rw [whole,minus]; rfl,next,all,floats⟩
    · rw [if_neg minus] at reads
      cases reads

theorem digit_plain (d : UInt8) (digit : isDigit d = true) : d ≠ 0x2D ∧ d ≠ 0x2B ∧ d ≠ 0x74 ∧ d ≠ 0x66 := by
  refine ⟨?_,?_,?_,?_⟩
  · rintro rfl
    cases digit
  · rintro rfl
    cases digit
  · rintro rfl
    cases digit
  · rintro rfl
    cases digit

theorem wholeNumber_parts (negative : Bool) (d : UInt8) (ds tail : Bytes) (digit : isDigit d = true) (all : ∀ c ∈ ds, isDigit c = true)
    (floats : Floats tail) : wholeNumber ((if negative then [0x2D] else []) ++ (d :: ds ++ tail)) =
      if tail = [] then some (Reader.signed negative (decimalFrom 0 (d :: ds))) else none := by
  have every : (d :: ds ++ tail).all isDigit = true ↔ tail = [] := by
    rw [List.all_eq_true]
    constructor
    · intro holds
      rcases floats with empty | ⟨c,more,is,which⟩
      · exact empty
      · have here := holds c (List.mem_append_right _ (by rw [is]; exact List.mem_cons_self))
        rcases which with rfl | rfl | rfl
        · cases here
        · cases here
        · cases here
    · rintro rfl c inside
      rw [List.append_nil] at inside
      rcases List.mem_cons.mp inside with rfl | later
      · exact digit
      · exact all c later
  have same : tail = [] → d :: ds ++ tail = d :: ds := by
    rintro rfl
    exact List.append_nil _
  cases negative with
  | true =>
      rw [if_pos rfl,List.singleton_append,wholeNumber,if_pos rfl]
      by_cases empty : tail = []
      · rw [if_pos (every.mpr empty),if_pos empty,same empty]
        rfl
      · rw [if_neg fun holds => empty (every.mp holds),if_neg empty]
  | false =>
      rw [if_neg nofun,List.nil_append,List.cons_append,wholeNumber,if_neg (digit_plain d digit).1,← List.cons_append]
      by_cases empty : tail = []
      · rw [if_pos (every.mpr empty),if_pos empty,same empty]
        rfl
      · rw [if_neg fun holds => empty (every.mp holds),if_neg empty]

-- The reader's integer is the number as it is written, when it is a whole one in range.
theorem integer_number (b : UInt8) (later t rest : Bytes) (reads : Library.Json.number .start (b :: later) = some (t,rest)) (stops : Stops rest) :
    readValue (b :: later) = (readable (.num t)).map fun v => (v,rest) := by
  obtain ⟨negative,d,ds,tail,isT,digit,all,floats⟩ := number_parts b later t rest reads
  obtain ⟨whole,_⟩ := number_local .start (b :: later) t rest reads
  obtain ⟨notMinus,notPlus,notTrue,notFalse⟩ := digit_plain d digit
  have split_ : b :: later = (if negative then [0x2D] else []) ++ (d :: ds ++ (tail ++ rest)) := by
    rw [whole,isT]
    simp only [List.append_assoc]
  have signs : signOf (b :: later) = (negative,d :: ds ++ (tail ++ rest)) := by
    rw [split_]
    cases negative with
    | true => rfl
    | false => exact if_neg fun either => either.elim notMinus notPlus
  have words : (b :: later).take 4 ≠ Reader.trueWord ∧ (b :: later).take 5 ≠ Reader.falseWord := by
    rw [split_]
    cases negative with
    | true => exact ⟨fun same => (by cases (List.cons_eq_cons.mp same).1),fun same => (by cases (List.cons_eq_cons.mp same).1)⟩
    | false => exact ⟨fun same => notTrue (List.cons_eq_cons.mp same).1,fun same => notFalse (List.cons_eq_cons.mp same).1⟩
  unfold readValue
  rw [if_neg words.1,if_neg words.2]
  unfold integer
  rw [signs]
  change unsigned negative (d :: (ds ++ (tail ++ rest))) = _
  rw [unsigned,digit]
  simp only [Bool.not_true,Bool.false_eq_true,if_false]
  have ends : ∀ c ∈ (tail ++ rest).head?, isDigit c = false := by
    intro c inside
    rcases floats with rfl | ⟨e,more,rfl,which⟩
    · rcases stops c inside with blank_ | rfl | rfl | rfl
      · unfold blank at blank_
        simp only [Bool.or_eq_true,beq_iff_eq] at blank_
        rcases blank_ with ((rfl | rfl) | rfl) | rfl <;> rfl
      · rfl
      · rfl
      · rfl
    · cases inside
      rcases which with rfl | rfl | rfl <;> rfl
  have every : ∀ c ∈ d :: ds, isDigit c = true := by
    intro c inside
    rcases List.mem_cons.mp inside with rfl | later
    · exact digit
    · exact all c later
  rw [← List.cons_append,readDigits_all Reader.valueLimit 0 (d :: ds) (tail ++ rest) every ends (Nat.zero_le _)]
  change _ = ((wholeNumber t).bind _).map _
  rw [isT,wholeNumber_parts negative d ds tail digit all floats]
  have range (v : Int) : Reader.inRange v = decide (-2147483648 ≤ v ∧ v ≤ 2147483647) := by
    unfold Reader.inRange
    rw [Bool.decide_and]
  rcases floats with rfl | ⟨e,more,rfl,which⟩
  · have still : floating ([] ++ rest) = false := by
      unfold floating
      cases rest with
      | nil => rfl
      | cons c rest =>
          rcases stops c rfl with blank_ | rfl | rfl | rfl
          · unfold blank at blank_
            simp only [Bool.or_eq_true,beq_iff_eq] at blank_
            rcases blank_ with ((rfl | rfl) | rfl) | rfl <;> rfl
          · rfl
          · rfl
          · rfl
    rw [if_pos rfl,Option.bind_some]
    by_cases fits : decimalFrom 0 (d :: ds) ≤ Reader.valueLimit
    · rw [if_pos fits,Option.bind_some]
      dsimp only
      rw [still,range,Bool.false_or]
      by_cases inside : -2147483648 ≤ Reader.signed negative (decimalFrom 0 (d :: ds)) ∧ Reader.signed negative (decimalFrom 0 (d :: ds)) ≤ 2147483647
      · rw [decide_eq_true inside,if_pos inside]
        rfl
      · rw [decide_eq_false inside,if_neg inside]
        rfl
    · have outside : ¬ (-2147483648 ≤ Reader.signed negative (decimalFrom 0 (d :: ds)) ∧ Reader.signed negative (decimalFrom 0 (d :: ds)) ≤ 2147483647) := by
        unfold Reader.valueLimit at fits
        unfold Reader.signed
        split
        · omega
        · omega
      rw [if_neg fits,if_neg outside]
      rfl
  · have moves : floating (e :: more ++ rest) = true := by
      rcases which with rfl | rfl | rfl <;> rfl
    rw [if_neg (List.cons_ne_nil e more)]
    split
    · rw [Option.bind_some]
      dsimp only
      rw [moves]
      rfl
    · rfl

-- Values.

theorem behind_stops (close : UInt8) (closes : close = 0x7D ∨ close = 0x5D) (rest : Bytes) (behind : Behind close rest) : Stops rest := by
  obtain ⟨c,later,front,which⟩ := behind
  intro b inside
  cases rest with
  | nil => cases inside
  | cons d rest =>
      cases inside
      cases is : blank b with
      | true => exact .inl rfl
      | false =>
          rw [skip_front b rest is] at front
          rw [(List.cons_eq_cons.mp front).1]
          rcases which with isComma | isClose
          · exact .inr (.inl isComma)
          · rcases closes with brace | bracket
            · exact .inr (.inr (.inl (isClose.trans brace)))
            · exact .inr (.inr (.inr (isClose.trans bracket)))

-- A word ends where the value behind it is looked for.
theorem word_passes (w rest : Bytes) (all : ∀ b ∈ w, quiet b = true) (behind : Behind 0x7D rest) :
    (w ++ rest).dropWhile (fun b => !Reader.endsBare b) = skip rest := by
  have bare (b : UInt8) (is : quiet b = true) : (!Reader.endsBare b) = true := by
    unfold quiet at is
    simp only [Bool.and_eq_true,bne_iff_ne] at is
    obtain ⟨⟨⟨⟨⟨_,_⟩,notBrace⟩,_⟩,notBracket⟩,notComma⟩ := is
    unfold Reader.endsBare
    simp only [Bool.not_eq_true',Bool.or_eq_false_iff,beq_eq_false_iff_ne]
    exact ⟨⟨notComma,notBrace⟩,notBracket⟩
  rw [List.dropWhile_append_of_pos fun b inside => bare b (all b inside)]
  obtain ⟨pad,whole,blanks⟩ := skip_splits rest
  obtain ⟨c,later,front,which⟩ := behind
  conv_lhs => rw [whole]
  rw [List.dropWhile_append_of_pos fun b inside => bare b (blank_quiet b (blanks b inside)),front,List.dropWhile_cons]
  rcases which with rfl | rfl
  · rfl
  · rfl

theorem readValue_other (b : UInt8) (later : Bytes) (notTrue : b ≠ 0x74) (notFalse : b ≠ 0x66) (notSign : ¬ (b = 0x2D ∨ b = 0x2B))
    (notDigit : isDigit b = false) : readValue (b :: later) = none := by
  have yes : (b :: later).take 4 ≠ Reader.trueWord := fun same => notTrue (List.cons_eq_cons.mp same).1
  have no : (b :: later).take 5 ≠ Reader.falseWord := fun same => notFalse (List.cons_eq_cons.mp same).1
  have sign : signOf (b :: later) = (false,b :: later) := if_neg notSign
  unfold readValue integer
  rw [if_neg yes,if_neg no,sign,unsigned,notDigit]
  rfl

-- A value between its separators is passed over to the separator, and read as what it says.
theorem value_passed (n : Nat) (start : Bytes) (d : Doc) (rest : Bytes) (reads : Library.Json.value n start = some (d,rest)) (here : skip start = start)
    (behind : Behind 0x7D rest) :
    ∃ p rest2, passed start = some (p,rest2) ∧ p.value = readable d ∧ ∃ pad, rest = pad ++ rest2 ∧ ∀ b ∈ pad, blank b = true := by
  obtain ⟨k,rfl⟩ : ∃ k, n = k + 1 := by
    cases n with
    | zero => cases reads
    | succ k => exact ⟨k,rfl⟩
  have stops := behind_stops 0x7D (.inl rfl) rest behind
  have read (v : Value) (is : readValue start = some (v,rest)) (means : readable d = some v) :
      ∃ p rest2, passed start = some (p,rest2) ∧ p.value = readable d ∧ ∃ pad, rest = pad ++ rest2 ∧ ∀ b ∈ pad, blank b = true := by
    refine ⟨_,rest,by rw [passed,is],means.symm,[],rfl,?_⟩
    exact fun b inside => by cases inside
  have over_ (rest2 : Bytes) (is : readValue start = none) (passes : passValue start = some rest2) (means : readable d = none)
      (pad : ∃ pad, rest = pad ++ rest2 ∧ ∀ b ∈ pad, blank b = true) :
      ∃ p rest2, passed start = some (p,rest2) ∧ p.value = readable d ∧ ∃ pad, rest = pad ++ rest2 ∧ ∀ b ∈ pad, blank b = true := by
    refine ⟨_,rest2,by rw [passed,is]; dsimp only; rw [passes,Option.map_some],means.symm,pad⟩
  have none_ : ∃ pad, rest = pad ++ rest ∧ ∀ b ∈ pad, blank b = true := ⟨[],rfl,fun b inside => by cases inside⟩
  cases start with
  | nil => cases reads
  | cons b later =>
      have kinds := value_kinds k (b :: later) b later here d rest reads
      cases kinds with
      | obj inner =>
          refine over_ rest (readValue_other _ _ (by decide) (by decide) (by decide) rfl) ?_ rfl none_
          rw [passValue,if_neg (by decide),if_pos (.inl rfl)]
          have whole := scan_items _ 0x7B 0x7D 0x7D (.inl ⟨rfl,rfl⟩) 0 (scan_member _ 0x7B 0x7D (.inl ⟨rfl,rfl⟩) 0
            fun text d rest => scan_value 0x7B 0x7D (.inl ⟨rfl,rfl⟩) k 0 text d rest) later _ rest inner
          exact whole
      | arr inner =>
          refine over_ rest (readValue_other _ _ (by decide) (by decide) (by decide) rfl) ?_ rfl none_
          rw [passValue,if_neg (by decide),if_pos (.inr rfl)]
          have whole := scan_items _ 0x5B 0x5D 0x5D (.inr ⟨rfl,rfl⟩) 0 (fun text d rest => scan_value 0x5B 0x5D (.inr ⟨rfl,rfl⟩) k 0 text d rest)
            later _ rest inner
          exact whole
      | @str _ t _ inner =>
          refine over_ rest (readValue_other _ _ (by decide) (by decide) (by decide) rfl) ?_ rfl none_
          have ends := string_fromQuote (.char .start) later t rest inner
          rw [char_unescaped] at ends
          rw [passValue,if_pos rfl,ends]
      | null =>
          refine over_ (skip rest) (readValue_other _ _ (by decide) (by decide) (by decide) rfl) ?_ rfl (skip_splits rest)
          rw [passValue,if_neg (by decide),if_neg (by decide)]
          exact congrArg some (word_passes [0x6E,0x75,0x6C,0x6C] rest (List.all_eq_true.mp rfl) behind)
      | yes => exact read 1 rfl rfl
      | no => exact read 0 rfl rfl
      | @num _ _ t _ inner =>
          have number_ := integer_number b later t rest inner stops
          cases is : readable (.num t) with
          | some v =>
              rw [is] at number_
              exact is ▸ read v number_ is
          | none =>
              rw [is] at number_
              obtain ⟨whole,_⟩ := number_local .start (b :: later) t rest inner
              have noisy := number_quiet .start (b :: later) t rest inner
              obtain ⟨negative,c,ds,tail,isT,_⟩ := number_parts b later t rest inner
              have inside : b ∈ t := by
                cases t with
                | nil => cases negative <;> cases isT
                | cons e t =>
                    rw [(List.cons_eq_cons.mp whole).1]
                    exact List.mem_cons_self
              have first := noisy b inside
              unfold quiet at first
              simp only [Bool.and_eq_true,bne_iff_ne] at first
              obtain ⟨⟨⟨⟨⟨notQuote,notBrace⟩,_⟩,notBracket⟩,_⟩,_⟩ := first
              refine is ▸ over_ (skip rest) number_ ?_ is (skip_splits rest)
              rw [passValue,if_neg notQuote,if_neg fun either => either.elim notBrace notBracket,whole]
              exact congrArg some (word_passes t rest noisy behind)

theorem value_skips (n : Nat) (text : Bytes) : Library.Json.value n (skip text) = Library.Json.value n text := by
  cases n with
  | zero => rfl
  | succ n => rw [Library.Json.value,Library.Json.value,skip_skip]

-- The text a value was read from is that value by itself.
theorem value_whole (n : Nat) (text rest pad rest2 : Bytes) (d : Doc) (reads : Library.Json.value n (text ++ rest2) = some (d,rest))
    (passed_ : rest = pad ++ rest2) (blanks : ∀ b ∈ pad, blank b = true) : Library.Json.parse text = some d := by
  obtain ⟨own,whole,_,again⟩ := value_local n (text.length + 1) _ d rest reads
  rw [passed_,← List.append_assoc] at whole
  have isText := List.append_cancel_right whole
  have short := congrArg List.length isText
  rw [List.length_append] at short
  have stops : Stops pad := by
    have padded := stops_pad pad [] blanks fun b inside => (by cases inside)
    rw [List.append_nil] at padded
    exact padded
  have readAgain := again (by omega) pad stops
  rw [← isText] at readAgain
  have ended : skip pad = [] := by
    have padded := skip_pad pad [] blanks
    rw [List.append_nil] at padded
    exact padded
  unfold Library.Json.parse
  rw [readAgain]
  dsimp only
  rw [if_pos ended]

-- A value by itself is that value in front of a separator.
theorem value_front (n : Nat) (text rest : Bytes) (d : Doc) (whole : Library.Json.parse text = some d) (short : text.length < n)
    (behind : Behind 0x7D rest) : ∃ pad, Library.Json.value n (text ++ rest) = some (d,pad ++ rest) ∧ ∀ b ∈ pad, blank b = true := by
  unfold Library.Json.parse at whole
  split at whole
  case h_2 => cases whole
  case h_1 e pad reads =>
    split at whole
    case isFalse => cases whole
    case isTrue ended =>
      cases whole
      obtain ⟨pad2,isPad,blanks⟩ := skip_splits pad
      rw [ended,List.append_nil] at isPad
      rw [← isPad] at blanks
      obtain ⟨own,isText,_,again⟩ := value_local _ n text d pad reads
      have longer := congrArg List.length isText
      rw [List.length_append] at longer
      refine ⟨pad,?_,blanks⟩
      rw [isText,List.append_assoc]
      exact again (by omega) (pad ++ rest) (stops_pad pad rest blanks (behind_stops 0x7D (.inl rfl) rest behind))

-- What a member of the object and a piece of the request have in common.
structure Same (m : Bytes × Doc) (p : Piece) : Prop where
  name : p.name = m.1
  value : p.value.value = readable m.2
  sound : p.Sound
  slashless : backslash ∉ m.1
  short : m.1.length < kMaxParamNameLen

theorem member_piece (n : Nat) (text : Bytes) (m : Bytes × Doc) (rest : Bytes) (reads : Library.Json.member (Library.Json.value n) text = some (m,rest))
    (named_ : backslash ∉ m.1 ∧ m.1.length < kMaxParamNameLen) (behind : Behind 0x7D rest) :
    ∃ p rest2, piece text = some (p,rest2) ∧ skip rest2 = skip rest ∧ Same m p := by
  unfold Library.Json.member at reads
  obtain ⟨opened,start,reads⟩ := Option.bind_eq_some_iff.mp reads
  obtain ⟨⟨key,afterKey⟩,keyed,reads⟩ := Option.bind_eq_some_iff.mp reads
  obtain ⟨afterColon,colon_,reads⟩ := Option.bind_eq_some_iff.mp reads
  obtain ⟨⟨d,end_⟩,valued,is⟩ := Option.map_eq_some_iff.mp reads
  cases is
  obtain ⟨name,printable⟩ := (string_name opened key afterKey).mp ⟨keyed,named_.1⟩
  rw [← value_skips] at valued
  obtain ⟨v,rest2,passes,is,pad,isRest,blanks⟩ := value_passed n (skip afterColon) d _ valued (skip_skip afterColon) behind
  have text_ := value_whole n v.text _ pad rest2 d (by rw [← passed_splits _ v rest2 passes]; exact valued) isRest blanks
  refine ⟨⟨key,v⟩,rest2,?_,?_,⟨rfl,is,⟨printable,by rw [text_]; rfl⟩,named_.1,named_.2⟩⟩
  · unfold piece named
    dsimp only at colon_ named_
    rw [start,Option.bind_some,name,Option.filter_some,decide_eq_true named_.2,if_pos rfl,Option.bind_some,colon_,Option.bind_some,passes]
    rfl
  · rw [isRest,skip_pad pad rest2 blanks]

theorem piece_member (n : Nat) (text : Bytes) (p : Piece) (rest : Bytes) (reads : piece text = some (p,rest)) (sound : p.Sound)
    (short : p.value.text.length < n) (behind : Behind 0x7D rest) :
    ∃ m rest2, Library.Json.member (Library.Json.value n) text = some (m,rest2) ∧ skip rest2 = skip rest ∧ Same m p := by
  unfold piece at reads
  obtain ⟨⟨key,afterKey⟩,name,reads⟩ := Option.bind_eq_some_iff.mp reads
  obtain ⟨afterColon,colon_,reads⟩ := Option.bind_eq_some_iff.mp reads
  obtain ⟨⟨v,end_⟩,passes,is⟩ := Option.map_eq_some_iff.mp reads
  cases is
  obtain ⟨⟨opened,start,named_⟩,fits,_⟩ := named_ends text key afterKey name
  obtain ⟨keyed,slashless⟩ := (string_name opened key afterKey).mpr ⟨named_,sound.1⟩
  obtain ⟨d,isDoc⟩ := Option.isSome_iff_exists.mp sound.2
  obtain ⟨pad,valued,blanks⟩ := value_front n v.text _ d isDoc short behind
  rw [← passed_splits _ v _ passes] at valued
  have padded : skip (pad ++ end_) = skip end_ := skip_pad pad end_ blanks
  have further : Behind 0x7D (pad ++ end_) := by
    obtain ⟨b,later,front,which⟩ := behind
    exact ⟨b,later,padded.trans front,which⟩
  obtain ⟨w,_,passesToo,is,_⟩ := value_passed n (skip afterColon) d _ valued (skip_skip afterColon) further
  rw [passes] at passesToo
  cases passesToo
  refine ⟨(key,d),pad ++ end_,?_,padded,⟨rfl,is,sound,slashless,fits⟩⟩
  unfold Library.Json.member
  dsimp only at colon_
  rw [start,Option.bind_some,keyed,Option.bind_some]
  dsimp only
  rw [colon_,Option.bind_some,← value_skips,valued]
  rfl

-- Documents.

theorem expect_front (b : UInt8) (text later : Bytes) : expect b text = some later ↔ skip text = b :: later := by
  unfold expect
  constructor
  · intro found
    split at found
    case h_1 c rest front =>
      split at found
      case isTrue same =>
        cases found
        rw [front,same]
      case isFalse => cases found
    case h_2 => cases found
  · intro front
    rw [front]
    exact if_pos rfl

theorem value_obj (n : Nat) (text : Bytes) (ms : List (Bytes × Doc)) (rest : Bytes) : Library.Json.value (n+1) text = some (.obj ms,rest) ↔
    ∃ later, expect 0x7B text = some later ∧ items (Library.Json.member (Library.Json.value n)) 0x7D later = some (ms,rest) := by
  constructor
  · intro reads
    cases front : skip text with
    | nil =>
        rw [Library.Json.value,front] at reads
        cases reads
    | cons b later =>
        cases value_kinds n text b later front _ rest reads with
        | obj inner => exact ⟨later,(expect_front _ _ _).mpr front,inner⟩
  · rintro ⟨later,opens,inner⟩
    rw [Library.Json.value,(expect_front _ _ _).mp opens]
    dsimp only
    rw [if_pos rfl,inner]
    rfl

theorem value_str (n : Nat) (text t rest : Bytes) : Library.Json.value (n+1) text = some (.str t,rest) ↔
    ∃ later, expect quote text = some later ∧ Library.Json.string (.char .start) later = some (t,rest) := by
  constructor
  · intro reads
    cases front : skip text with
    | nil =>
        rw [Library.Json.value,front] at reads
        cases reads
    | cons b later =>
        cases value_kinds n text b later front _ rest reads with
        | str inner => exact ⟨later,(expect_front _ _ _).mpr front,inner⟩
  · rintro ⟨later,opens,inner⟩
    rw [Library.Json.value,(expect_front _ _ _).mp opens]
    dsimp only
    rw [if_neg (by decide),if_neg (by decide),if_pos rfl,inner]
    rfl

theorem member_begins (f : Bytes → Option (Doc × Bytes)) (text : Bytes) (m : Bytes × Doc) (rest : Bytes)
    (reads : Library.Json.member f text = some (m,rest)) : ∃ b later, skip text = b :: later ∧ b ≠ 0x7D := by
  unfold Library.Json.member at reads
  obtain ⟨opened,start,_⟩ := Option.bind_eq_some_iff.mp reads
  exact ⟨quote,opened,(expect_front _ _ _).mp start,by decide⟩

-- The payload as an object with one member, as either of the two readers goes through it.
theorem parse_one (payload key : Bytes) (d : Doc) : Library.Json.parse payload = some (.obj [(key,d)]) ↔
    ∃ later opened afterKey afterColon after rest, expect 0x7B payload = some later ∧ expect quote later = some opened ∧
      Library.Json.string (.char .start) opened = some (key,afterKey) ∧ expect Library.Json.colon afterKey = some afterColon ∧
      Library.Json.value payload.length afterColon = some (d,after) ∧ expect 0x7D after = some rest ∧ skip rest = [] := by
  have whole : Library.Json.parse payload = some (.obj [(key,d)]) ↔
      ∃ rest, Library.Json.value (payload.length + 1) payload = some (.obj [(key,d)],rest) ∧ skip rest = [] := by
    unfold Library.Json.parse
    constructor
    · intro parses
      split at parses
      case h_1 e rest reads =>
        split at parses
        case isTrue ended =>
          cases parses
          exact ⟨rest,reads,ended⟩
        case isFalse => cases parses
      case h_2 => cases parses
    · rintro ⟨rest,reads,ended⟩
      rw [reads]
      exact if_pos ended
  rw [whole]
  constructor
  · rintro ⟨rest,reads,ended⟩
    obtain ⟨later,opens,inner⟩ := (value_obj _ _ _ _).mp reads
    obtain ⟨after,first,closes⟩ := (items_one _ 0x7D (by decide) (member_begins _) later (key,d) rest).mp inner
    unfold Library.Json.member at first
    obtain ⟨opened,start,first⟩ := Option.bind_eq_some_iff.mp first
    obtain ⟨⟨k,afterKey⟩,keyed,first⟩ := Option.bind_eq_some_iff.mp first
    obtain ⟨afterColon,colon_,first⟩ := Option.bind_eq_some_iff.mp first
    obtain ⟨⟨e,end_⟩,valued,is⟩ := Option.map_eq_some_iff.mp first
    cases is
    exact ⟨later,opened,afterKey,afterColon,_,rest,opens,start,keyed,colon_,valued,closes,ended⟩
  · rintro ⟨later,opened,afterKey,afterColon,after,rest,opens,start,keyed,colon_,valued,closes,ended⟩
    refine ⟨rest,(value_obj _ _ _ _).mpr ⟨later,opens,(items_one _ 0x7D (by decide) (member_begins _) later (key,d) rest).mpr ⟨after,?_,closes⟩⟩,ended⟩
    unfold Library.Json.member
    rw [start,Option.bind_some,keyed,Option.bind_some]
    dsimp only
    rw [colon_,Option.bind_some,valued]
    rfl

theorem asks_one (payload : Bytes) (a : Asked) : asks payload = some a ↔
    ∃ later opened key afterKey afterColon after rest, expect 0x7B payload = some later ∧ expect quote later = some opened ∧
      nameText opened = some (key,afterKey) ∧ key.length < kMaxParamNameLen ∧ expect Library.Json.colon afterKey = some afterColon ∧
      asked key afterColon = some (a,after) ∧ expect 0x7D after = some rest ∧ skip rest = [] := by
  unfold asks
  constructor
  · intro reads
    obtain ⟨later,opens,reads⟩ := Option.bind_eq_some_iff.mp reads
    obtain ⟨⟨key,afterKey⟩,name,reads⟩ := Option.bind_eq_some_iff.mp reads
    obtain ⟨afterColon,colon_,reads⟩ := Option.bind_eq_some_iff.mp reads
    obtain ⟨⟨b,after⟩,valued,reads⟩ := Option.bind_eq_some_iff.mp reads
    obtain ⟨rest,closes,reads⟩ := Option.bind_eq_some_iff.mp reads
    split at reads
    case isFalse => cases reads
    case isTrue ended =>
      cases reads
      obtain ⟨⟨opened,start,text⟩,short,_⟩ := named_ends later key afterKey name
      exact ⟨later,opened,key,afterKey,afterColon,after,rest,opens,start,text,short,colon_,valued,closes,ended⟩
  · rintro ⟨later,opened,key,afterKey,afterColon,after,rest,opens,start,text,short,colon_,valued,closes,ended⟩
    unfold named
    rw [opens,Option.bind_some,start,Option.bind_some,text,Option.filter_some,decide_eq_true short,if_pos rfl,Option.bind_some]
    dsimp only
    rw [colon_,Option.bind_some,valued,Option.bind_some]
    dsimp only
    rw [closes,Option.bind_some,if_pos ended]

-- The words a request is made of can all be read as names.
theorem words_plain :
    (backslash ∉ opKey ∧ opKey.length < kMaxParamNameLen) ∧ (backslash ∉ setKey ∧ setKey.length < kMaxParamNameLen ∧ cString setKey ≠ opKey) ∧
    (backslash ∉ getAllWord ∧ getAllWord.length < kMaxParamNameLen) ∧
    backslash ∉ restoreDefaultsWord ∧ restoreDefaultsWord.length < kMaxParamNameLen ∧ cString restoreDefaultsWord ≠ getAllWord := by
  decide +kernel

-- A word that a parameter's name could be, under one of the keys.
theorem word_asks (payload word : Bytes) (parses : Library.Json.parse payload = some (.obj [(opKey,.str word)])) (slashless : backslash ∉ word)
    (short : word.length < kMaxParamNameLen) : asks payload = some (.op opKey word) ∧ (Asked.op opKey word).Sound := by
  obtain ⟨later,opened,afterKey,afterColon,after,rest,opens,start,keyed,colon_,valued,closes,ended⟩ := (parse_one _ _ _).mp parses
  obtain ⟨name,keyPrintable⟩ := (string_name opened opKey afterKey).mp ⟨keyed,words_plain.1.1⟩
  obtain ⟨n,len⟩ : ∃ n, payload.length = n + 1 := by
    cases payload with
    | nil => cases opens
    | cons b payload => exact ⟨payload.length,rfl⟩
  rw [len] at valued
  obtain ⟨inner,startWord,text⟩ := (value_str n afterColon word after).mp valued
  obtain ⟨nameWord,printable⟩ := (string_name inner word after).mp ⟨text,slashless⟩
  refine ⟨(asks_one payload _).mpr ⟨later,opened,opKey,afterKey,afterColon,after,rest,opens,start,name,words_plain.1.2,colon_,?_,closes,ended⟩,
    keyPrintable,printable⟩
  unfold asked named
  rw [if_pos (cString_printable opKey keyPrintable),startWord,Option.bind_some,nameWord,Option.filter_some,decide_eq_true short,if_pos rfl]
  rfl

theorem asks_word (payload key word : Bytes) (asks_ : asks payload = some (.op key word)) (sound : (Asked.op key word).Sound) :
    Library.Json.parse payload = some (.obj [(opKey,.str word)]) := by
  obtain ⟨later,opened,k,afterKey,afterColon,after,rest,opens,start,name,_,colon_,valued,closes,ended⟩ := (asks_one payload _).mp asks_
  unfold asked at valued
  split at valued
  case isTrue isOp =>
    obtain ⟨⟨w,end_⟩,word_,is⟩ := Option.map_eq_some_iff.mp valued
    cases is
    obtain ⟨⟨inner,startWord,text⟩,_,_⟩ := named_ends afterColon w _ word_
    have isKey : key = opKey := by rw [← isOp,cString_printable key sound.1]
    subst isKey
    obtain ⟨keyed,_⟩ := (string_name opened _ afterKey).mpr ⟨name,sound.1⟩
    obtain ⟨n,len⟩ : ∃ n, payload.length = n + 1 := by
      cases payload with
      | nil => cases opens
      | cons b payload => exact ⟨payload.length,rfl⟩
    refine (parse_one _ _ _).mpr ⟨later,opened,afterKey,afterColon,_,rest,opens,start,keyed,colon_,?_,closes,ended⟩
    rw [len]
    exact (value_str n afterColon w _).mpr ⟨inner,startWord,((string_name inner w _).mpr ⟨text,sound.2⟩).1⟩
  case isFalse =>
    split at valued
    · obtain ⟨_,_,valued⟩ := Option.bind_eq_some_iff.mp valued
      obtain ⟨_,_,is⟩ := Option.map_eq_some_iff.mp valued
      cases is
    · cases valued

theorem set_asks (payload : Bytes) (ms : List (Bytes × Doc)) (parses : Library.Json.parse payload = some (.obj [(setKey,.obj ms)]))
    (names : ∀ m ∈ ms, backslash ∉ m.1 ∧ m.1.length < kMaxParamNameLen) :
    ∃ ps, asks payload = some (.set setKey ps) ∧ Printable setKey ∧ List.Forall₂ Same ms ps := by
  obtain ⟨later,opened,afterKey,afterColon,after,rest,opens,start,keyed,colon_,valued,closes,ended⟩ := (parse_one _ _ _).mp parses
  obtain ⟨name,keyPrintable⟩ := (string_name opened setKey afterKey).mp ⟨keyed,words_plain.2.1.1⟩
  obtain ⟨n,len⟩ : ∃ n, payload.length = n + 1 := by
    cases payload with
    | nil => cases opens
    | cons b payload => exact ⟨payload.length,rfl⟩
  rw [len] at valued
  obtain ⟨inner,startSet,listed⟩ := (value_obj n afterColon ms after).mp valued
  obtain ⟨ps,pieces,same⟩ := items_follow _ piece _ Same 0x7D (member_piece n) inner ms after listed names
  refine ⟨ps,(asks_one payload _).mpr ⟨later,opened,setKey,afterKey,afterColon,after,rest,opens,start,name,words_plain.2.1.2.1,colon_,?_,closes,ended⟩,
    keyPrintable,same⟩
  unfold asked
  rw [if_neg words_plain.2.1.2.2,if_pos (cString_printable setKey keyPrintable),startSet,Option.bind_some,pieces]
  rfl

theorem asks_set (payload key : Bytes) (ps : List Piece) (asks_ : asks payload = some (.set key ps)) (sound : (Asked.set key ps).Sound) :
    ∃ ms, Library.Json.parse payload = some (.obj [(setKey,.obj ms)]) ∧ List.Forall₂ Same ms ps := by
  obtain ⟨later,opened,k,afterKey,afterColon,after,rest,opens,start,name,_,colon_,valued,closes,ended⟩ := (asks_one payload _).mp asks_
  unfold asked at valued
  split at valued
  · obtain ⟨_,_,is⟩ := Option.map_eq_some_iff.mp valued
    cases is
  · split at valued
    case isFalse => cases valued
    case isTrue isSet =>
      obtain ⟨inner,startSet,valued⟩ := Option.bind_eq_some_iff.mp valued
      obtain ⟨⟨qs,end_⟩,listed,is⟩ := Option.map_eq_some_iff.mp valued
      cases is
      have isKey : key = setKey := by rw [← isSet,cString_printable key sound.1]
      subst isKey
      obtain ⟨keyed,_⟩ := (string_name opened _ afterKey).mpr ⟨name,sound.1⟩
      obtain ⟨n,len⟩ : ∃ n, payload.length = n + 1 := by
        cases payload with
        | nil => cases opens
        | cons b payload => exact ⟨payload.length,rfl⟩
      -- The object lies far enough inside the payload for its own depth.
      have inside : inner.length < n := by
        have one := expect_ends _ _ _ opens
        have two := expect_ends _ _ _ start
        have three := congrArg List.length (nameText_ends _ _ _ name).1
        have four := expect_ends _ _ _ colon_
        have five := expect_ends _ _ _ startSet
        rw [List.length_append,List.length_cons] at three
        omega
      have sizes : ∀ p ∈ qs, p.Sound ∧ p.value.text.length < n := by
        intro p held
        refine ⟨sound.2 p held,?_⟩
        have shrinks (text : Bytes) (p : Piece) (rest : Bytes) (reads : piece text = some (p,rest)) := (piece_ends text p rest reads).1
        have below (text : Bytes) (p : Piece) (rest : Bytes) (reads : piece text = some (p,rest)) := (piece_ends text p rest reads).2.1
        unfold items at listed
        split at listed
        · cases listed
        · split at listed
          · cases listed
            cases held
          · have small := itemsFrom_below piece shrinks (fun p => p.value.text.length) below 0x7D _ inner qs _ listed p held
            omega
      obtain ⟨ms,members_,same⟩ := items_follow piece (Library.Json.member (Library.Json.value n)) _ (fun p m => Same m p) 0x7D
        (fun text p rest reads fits => piece_member n text p rest reads fits.1 fits.2) inner qs _ listed sizes
      refine ⟨ms,(parse_one _ _ _).mpr ⟨later,opened,afterKey,afterColon,_,rest,opens,start,keyed,colon_,?_,closes,ended⟩,same.flip⟩
      rw [len]
      exact (value_obj n afterColon ms _).mpr ⟨inner,startSet,members_⟩

theorem same_entries (ms : List (Bytes × Doc)) (ps : List Piece) (same : List.Forall₂ Same ms ps) :
    ps.map Piece.entry = ms.map (fun m => ⟨m.1,readable m.2⟩) ∧ (∀ p ∈ ps, p.Sound) ∧ ∀ m ∈ ms, backslash ∉ m.1 ∧ m.1.length < kMaxParamNameLen := by
  induction same with
  | nil => exact ⟨rfl,fun p inside => (by cases inside),fun m inside => (by cases inside)⟩
  | @cons m p ms ps first _ ih =>
      obtain ⟨entries,sound,names⟩ := ih
      refine ⟨?_,?_,?_⟩
      · rw [List.map_cons,List.map_cons,entries]
        congr 1
        unfold Piece.entry
        rw [cString_printable p.name first.sound.1,first.name,first.value]
      · intro q inside
        rcases List.mem_cons.mp inside with rfl | later
        · exact first.sound
        · exact sound q later
      · intro k inside
        rcases List.mem_cons.mp inside with rfl | later
        · exact ⟨first.slashless,first.short⟩
        · exact names k later

theorem strict_asks (payload : Bytes) (req : ConfigSetRequest) :
    Strict payload req ↔ ∃ a, asks payload = some a ∧ a.request = some req ∧ a.Sound := by
  constructor
  · rintro ⟨d,parses,means⟩
    cases means with
    | getAll =>
        obtain ⟨asks_,sound⟩ := word_asks payload getAllWord parses words_plain.2.2.1.1 words_plain.2.2.1.2
        exact ⟨_,asks_,if_pos (cString_printable getAllWord sound.2),sound⟩
    | restoreDefaults =>
        obtain ⟨slashless,short,other⟩ := words_plain.2.2.2
        obtain ⟨asks_,sound⟩ := word_asks payload restoreDefaultsWord parses slashless short
        exact ⟨_,asks_,(if_neg other).trans (if_pos (cString_printable restoreDefaultsWord sound.2)),sound⟩
    | set ms some_ fits names =>
        obtain ⟨ps,asks_,printable,same⟩ := set_asks payload ms parses names
        obtain ⟨entries,sound,_⟩ := same_entries ms ps same
        refine ⟨_,asks_,?_,printable,sound⟩
        have size := same.length_eq
        unfold Asked.request
        dsimp only
        rw [if_pos ⟨by omega,by omega⟩,entries]
  · rintro ⟨a,asks_,request,sound⟩
    cases a with
    | op key word =>
        have parses := asks_word payload key word asks_ sound
        unfold Asked.request at request
        dsimp only at request
        rw [cString_printable word sound.2] at request
        split at request
        case isTrue isAll =>
          cases request
          subst isAll
          exact ⟨_,parses,.getAll⟩
        case isFalse =>
          split at request
          case isTrue isRestore =>
            cases request
            subst isRestore
            exact ⟨_,parses,.restoreDefaults⟩
          case isFalse => cases request
    | set key ps =>
        obtain ⟨ms,parses,same⟩ := asks_set payload key ps asks_ sound
        obtain ⟨entries,_,names⟩ := same_entries ms ps same
        have size := same.length_eq
        unfold Asked.request at request
        dsimp only at request
        split at request
        case isTrue count =>
          cases request
          rw [entries]
          exact ⟨_,parses,.set ms (by omega) (by omega) names⟩
        case isFalse => cases request

-- What the parser accepts is the document it says, but for the texts it passes over without looking: exactly where each of them is JSON too.
theorem parse_strict (payload : Bytes) (req : ConfigSetRequest) :
    Strict payload req ↔ parseConfigSet payload = some (.ok req) ∧ ∀ a, asks payload = some a → a.Sound := by
  obtain ⟨answer,is,exactly⟩ := parse_asks payload
  rw [strict_asks,is]
  constructor
  · rintro ⟨a,asks_,request,sound⟩
    refine ⟨by rw [(exactly req).mpr ⟨a,asks_,request⟩],fun b asksToo => ?_⟩
    rw [asks_] at asksToo
    cases asksToo
    exact sound
  · rintro ⟨accepts,sound⟩
    obtain ⟨a,asks_,request⟩ := (exactly req).mp (Option.some.inj accepts)
    exact ⟨a,asks_,request,sound a asks_⟩

end LoraRan.Bridge.ConfigJson
