import LoraRan.Library.Json

namespace LoraRan.Library.Json
open LittleEndian (Bytes)
open DecimalText

-- What the reader makes of text that is put together from keys and values.

theorem Utf8.ascii_ends (s : Utf8) (b : UInt8) (ascii : b < 0x80) : s.step b = if s = .start then some .start else none := by
  have low (bound : UInt8) (high : 0x80 ≤ bound) : ¬ bound ≤ b := by
    rw [UInt8.le_iff_toNat_le] at high ⊢
    rw [UInt8.lt_iff_toNat_lt] at ascii
    omega
  cases s with
  | start => exact if_pos ascii
  | tail more =>
      cases more with
      | zero => exact if_neg fun both => low _ (by decide) both.1
      | succ more => exact if_neg fun both => low _ (by decide) both.1
  | afterE0 => exact if_neg fun both => low _ (by decide) both.1
  | afterED => exact if_neg fun both => low _ (by decide) both.1
  | afterF0 => exact if_neg fun both => low _ (by decide) both.1
  | afterF4 => exact if_neg fun both => low _ (by decide) both.1

-- Text the writer leaves unescaped.
structure Plain (text : Bytes) : Prop where
  quoteless : quote ∉ text
  slashless : backslash ∉ text

theorem Plain.tail {b : UInt8} {rest : Bytes} (plain : Plain (b :: rest)) : Plain rest :=
  ⟨fun inside => plain.quoteless (List.mem_cons_of_mem b inside),fun inside => plain.slashless (List.mem_cons_of_mem b inside)⟩

-- Plain text closes at the quote put behind it, whole characters and nothing below a space in it; else it closes nowhere.
theorem string_plain (s : Utf8) (text rest : Bytes) (plain : Plain text) :
    string (.char s) (text ++ quote :: rest) = if text.all (fun b => 0x20 ≤ b) = true ∧ s.run text = some .start then some (text,rest) else none := by
  induction text generalizing s with
  | nil =>
      rw [List.nil_append,string]
      by_cases between : s = .start
      · subst between
        rw [if_pos ⟨rfl,rfl⟩,if_pos ⟨rfl,rfl⟩]
      · rw [if_neg fun both => between (StrState.char.inj both.1),if_neg fun both => between (Option.some.inj both.2)]
        have stuck : StrState.step (.char s) quote = none := by
          unfold StrState.step
          dsimp only
          rw [if_neg fun both => between both.1,if_neg (by decide),Utf8.ascii_ends s quote (by decide),if_neg between]
          rfl
        rw [stuck]
        rfl
  | cons b text ih =>
      have notQuote : b ≠ quote := fun same => plain.quoteless (by rw [same]; exact List.mem_cons_self)
      have notSlash : b ≠ backslash := fun same => plain.slashless (by rw [same]; exact List.mem_cons_self)
      rw [List.cons_append,string,if_neg fun both => notQuote both.2]
      have stepped : StrState.step (.char s) b = if b < 0x20 then none else (s.step b).map .char := if_neg fun both => notSlash both.2
      rw [stepped]
      by_cases control : b < 0x20
      · have hidden : ¬ (b :: text).all (fun c => 0x20 ≤ c) = true := by
          intro shown
          have here := of_decide_eq_true (List.all_eq_true.mp shown b List.mem_cons_self)
          rw [UInt8.le_iff_toNat_le] at here
          rw [UInt8.lt_iff_toNat_lt] at control
          omega
        rw [if_pos control,if_neg fun both => hidden both.1]
        rfl
      · have seen : 0x20 ≤ b := by
          rw [UInt8.lt_iff_toNat_lt] at control
          rw [UInt8.le_iff_toNat_le]
          omega
        rw [if_neg control,Utf8.run]
        cases moved : s.step b with
        | none => rw [if_neg (by simp)]; rfl
        | some next =>
            have all : (b :: text).all (fun c => 0x20 ≤ c) = true ↔ text.all (fun c => 0x20 ≤ c) = true := by
              rw [List.all_cons,Bool.and_eq_true]
              exact and_iff_right (decide_eq_true seen)
            rw [Option.map_some,Option.bind_some,Option.bind_some,ih next plain.tail]
            refine Eq.trans ?_ (if_congr (and_congr_left' all.symm) rfl rfl)
            split
            · rfl
            · rfl

theorem string_text (text rest : Bytes) (plain : Plain text) :
    string (.char .start) (text ++ quote :: rest) = if Printable text then some (text,rest) else none := by
  rw [string_plain .start text rest plain]
  exact if_congr ⟨fun h => ⟨by simpa using h.1,h.2⟩,fun h => ⟨by simpa using h.shown,h.utf8⟩⟩ rfl rfl

-- A value inside an object or an array is followed by one of these, the outermost by nothing.
def Ends (rest : Bytes) : Prop := ∀ b ∈ rest.head?, b = comma ∨ b = 0x7D ∨ b = 0x5D

theorem digits_lead (n : Nat) : ∃ b rest, digits n = b :: rest ∧ isDigit b = true ∧ (∀ c ∈ rest, isDigit c = true) ∧ (b = 0x30 → rest = []) := by
  induction n using Nat.strongRecOn with
  | ind n ih =>
      by_cases small : n < 10
      · exact ⟨_,[],digits_small n small,(digit_reads n small).1,fun _ inside => by (cases inside),fun _ => rfl⟩
      · obtain ⟨b,rest,front,digit,digits,lead⟩ := ih (n / 10) (by omega)
        rw [digits_large n (by omega),front]
        refine ⟨b,_,rfl,digit,?_,?_⟩
        · intro c inside
          rcases List.mem_append.mp inside with early | last
          · exact digits c early
          · rw [List.mem_singleton.mp last]
            exact (digit_reads (n % 10) (by omega)).1
        · rintro rfl
          have alone := lead rfl
          rw [alone] at front
          by_cases one : n / 10 < 10
          · rw [digits_small _ one] at front
            have zero := (digit_reads _ one).2
            rw [(List.cons_eq_cons.mp front).1] at zero
            change 0 = n / 10 at zero
            omega
          · rw [digits_large _ (by omega)] at front
            have two := congrArg List.length front
            obtain ⟨c,more,head,_⟩ := digits_head (n / 10 / 10)
            rw [head] at two
            simp at two

theorem NumState.ends_step (s : NumState) (b : UInt8) (ends : b = comma ∨ b = 0x7D ∨ b = 0x5D) : s.step b = none := by
  rcases ends with rfl | rfl | rfl
  · cases s <;> rfl
  · cases s <;> rfl
  · cases s <;> rfl

theorem number_stops (s : NumState) (done : s.done = true) (rest : Bytes) (ends : Ends rest) : number s rest = some ([],rest) := by
  cases rest with
  | nil => exact if_pos done
  | cons b rest =>
      rw [number,NumState.ends_step s b (ends b rfl)]
      exact if_pos done

-- The digits of a number's whole part, of its fraction, and what may follow them.
theorem number_run (s : NumState) (own : s = .int ∨ s = .frac) (text rest : Bytes) (digits : ∀ c ∈ text, isDigit c = true) :
    number s (text ++ rest) = (number s rest).map fun r => (text ++ r.1,r.2) := by
  have step (c : UInt8) (digit : isDigit c = true) : s.step c = some s := by
    unfold NumState.step
    rw [if_pos digit]
    rcases own with rfl | rfl
    · rfl
    · rfl
  induction text with
  | nil =>
      rw [List.nil_append]
      cases number s rest with
      | none => rfl
      | some r => rfl
  | cons c text ih =>
      rw [List.cons_append,number,step c (digits c List.mem_cons_self)]
      dsimp only
      rw [ih fun e inside => digits e (List.mem_cons_of_mem c inside),Option.map_map]
      rfl

def leadState (n : Nat) : NumState := if n = 0 then .zero else .int

theorem number_lead (s : NumState) (opens : s = .start ∨ s = .minus) (n : Nat) (rest : Bytes) :
    number s (digits n ++ rest) = (number (leadState n) rest).map fun r => (digits n ++ r.1,r.2) := by
  obtain ⟨b,more,front,digit,all,lead⟩ := digits_lead n
  have step : s.step b = some (if b = 0x30 then .zero else .int) := by
    unfold NumState.step
    rw [if_pos digit]
    rcases opens with rfl | rfl
    · rfl
    · rfl
  have zero : b = 0x30 ↔ n = 0 := by
    have value := digitsValue_digits n
    rw [front] at value
    constructor
    · rintro rfl
      rw [lead rfl] at value
      exact value.symm
    · rintro rfl
      exact (List.cons_eq_cons.mp (front.symm.trans (digits_small 0 (by decide)))).1
  rw [front,List.cons_append,number,step]
  dsimp only
  unfold leadState
  by_cases none_ : n = 0
  · rw [if_pos none_,if_pos (zero.mpr none_),lead (zero.mpr none_),List.nil_append]
    rfl
  · rw [if_neg none_,if_neg fun is => none_ (zero.mp is),number_run .int (.inl rfl) more rest all,Option.map_map]
    rfl

theorem leadState_done (n : Nat) : (leadState n).done = true := by
  unfold leadState
  split <;> rfl

theorem number_digits (s : NumState) (opens : s = .start ∨ s = .minus) (n : Nat) (rest : Bytes) (ends : Ends rest) :
    number s (digits n ++ rest) = some (digits n,rest) := by
  rw [number_lead s opens n rest,number_stops _ (leadState_done n) rest ends,Option.map_some,List.append_nil]

-- A whole part, a point and one digit or more.
theorem number_fraction (s : NumState) (opens : s = .start ∨ s = .minus) (n : Nat) (frac rest : Bytes) (some_ : frac ≠ [])
    (all : ∀ c ∈ frac, isDigit c = true) (ends : Ends rest) :
    number s (digits n ++ 0x2E :: frac ++ rest) = some (digits n ++ 0x2E :: frac,rest) := by
  obtain ⟨c,more,rfl⟩ := List.exists_cons_of_ne_nil some_
  have point : (leadState n).step 0x2E = some .point := by
    unfold leadState
    split <;> rfl
  have first : NumState.step .point c = some .frac := if_pos (all c List.mem_cons_self)
  have fraction : number .point (c :: (more ++ rest)) = some (c :: more,rest) := by
    rw [number,first]
    dsimp only
    rw [number_run .frac (.inr rfl) more rest fun d inside => all d (List.mem_cons_of_mem c inside),number_stops .frac rfl rest ends,
      Option.map_some,List.append_nil]
    rfl
  rw [List.append_assoc,number_lead s opens n,List.cons_append,number,point]
  dsimp only
  rw [List.cons_append,fraction]
  rfl

-- The text of one value, wherever it stands, reads as the given one, or nowhere as any.
def Reads (n : Nat) (text : Bytes) (d : Option Doc) : Prop := ∀ rest, Ends rest → value n (text ++ rest) = d.map fun d => (d,rest)

theorem reads_null (n : Nat) : Reads (n+1) [0x6E,0x75,0x6C,0x6C] (some .null) := by
  intro rest _
  rfl

theorem reads_string (n : Nat) (text : Bytes) (plain : Plain text) :
    Reads (n+1) (quote :: text ++ [quote]) (if Printable text then some (.str text) else none) := by
  intro rest _
  have shape : quote :: text ++ [quote] ++ rest = quote :: (text ++ quote :: rest) := by simp
  rw [shape,value]
  have open_ : skip (quote :: (text ++ quote :: rest)) = quote :: (text ++ quote :: rest) := rfl
  rw [open_]
  dsimp only
  rw [if_neg (by decide),if_neg (by decide),if_pos rfl,string_text text rest plain]
  split
  · rfl
  · rfl

-- A number's first byte opens no other value.
theorem value_number (n : Nat) (b : UInt8) (rest : Bytes) (opens : isDigit b = true ∨ b = 0x2D) :
    value (n+1) (b :: rest) = (number .start (b :: rest)).map fun r => (.num r.1,r.2) := by
  have unlike (c : UInt8) (other : isDigit c = false ∧ c ≠ 0x2D) : b ≠ c := by
    rintro rfl
    rcases opens with digit | minus
    · rw [other.1] at digit
      cases digit
    · exact other.2 minus
  have seen : blank b = false := by
    unfold blank
    simp only [Bool.or_eq_false_iff,beq_eq_false_iff_ne]
    exact ⟨⟨⟨unlike _ (by decide),unlike _ (by decide)⟩,unlike _ (by decide)⟩,unlike _ (by decide)⟩
  have here : skip (b :: rest) = b :: rest := List.dropWhile_cons_of_neg (by rw [seen]; decide)
  rw [value,here]
  dsimp only
  rw [if_neg (unlike _ (by decide)),if_neg (unlike _ (by decide)),if_neg (unlike _ (by decide)),if_neg (unlike _ (by decide)),
    if_neg (unlike _ (by decide)),if_neg (unlike _ (by decide))]

def signedText (v : Int) : Bytes := if v < 0 then 0x2D :: digits v.natAbs else digits v.natAbs

-- A number's text, a minus before it where it is negative.
theorem reads_minus (n : Nat) (negative : Bool) (text : Bytes) (opens : ∃ b rest, text = b :: rest ∧ isDigit b = true)
    (whole : ∀ s rest, s = .start ∨ s = .minus → Ends rest → number s (text ++ rest) = some (text,rest)) :
    Reads (n+1) ((if negative then [0x2D] else []) ++ text) (some (.num ((if negative then [0x2D] else []) ++ text))) := by
  intro rest ends
  cases negative with
  | true =>
      simp only [if_true,List.cons_append,List.nil_append]
      have step : NumState.step .start 0x2D = some .minus := rfl
      rw [value_number n _ _ (.inr rfl),number,step]
      dsimp only
      rw [whole .minus rest (.inr rfl) ends]
      rfl
  | false =>
      obtain ⟨b,more,rfl,digit⟩ := opens
      have read := whole .start rest (.inl rfl) ends
      simp only [Bool.false_eq_true,if_false,List.nil_append,List.cons_append] at read ⊢
      rw [value_number n b _ (.inl digit),read]
      rfl

theorem reads_signed (n : Nat) (v : Int) : Reads (n+1) (signedText v) (some (.num (signedText v))) := by
  have shape : signedText v = (if decide (v < 0) then [0x2D] else []) ++ digits v.natAbs := by
    unfold signedText
    by_cases negative : v < 0
    · simp [negative]
    · simp [negative]
  obtain ⟨b,more,front,digit,_⟩ := digits_lead v.natAbs
  rw [shape]
  exact reads_minus n _ _ ⟨b,more,front,digit⟩ fun s rest opens ends => number_digits s opens v.natAbs rest ends

theorem reads_fraction (n : Nat) (negative : Bool) (whole : Nat) (frac : Bytes) (some_ : frac ≠ []) (all : ∀ c ∈ frac, isDigit c = true) :
    Reads (n+1) ((if negative then [0x2D] else []) ++ (digits whole ++ 0x2E :: frac))
      (some (.num ((if negative then [0x2D] else []) ++ (digits whole ++ 0x2E :: frac)))) := by
  obtain ⟨b,more,front,digit,_⟩ := digits_lead whole
  refine reads_minus n negative _ ⟨b,more ++ 0x2E :: frac,by rw [front]; rfl,digit⟩ ?_
  intro s rest opens ends
  exact number_fraction s opens whole frac rest some_ all ends

theorem reads_bool (n : Nat) (v : Bool) :
    Reads (n+1) (if v then [0x74,0x72,0x75,0x65] else [0x66,0x61,0x6C,0x73,0x65]) (some (.bool v)) := by
  intro rest _
  cases v with
  | true => rfl
  | false => rfl

-- One member of an object: its key, its value's text and what that text reads as.
structure Written where
  key : Bytes
  text : Bytes
  doc : Option Doc

namespace Written

def bytes (m : Written) : Bytes := quote :: m.key ++ quote :: colon :: m.text

def tailText (ms : List Written) : Bytes := ms.flatMap fun m => comma :: m.bytes

def joined : List Written → Bytes
  | [] => []
  | m :: ms => m.bytes ++ tailText ms

def shown (m : Written) : Option (Bytes × Doc) := if Printable m.key then m.doc.map fun d => (m.key,d) else none

structure Sound (n : Nat) (m : Written) : Prop where
  plain : Plain m.key
  reads : Reads n m.text m.doc

theorem member_reads {n : Nat} {m : Written} (sound : m.Sound n) (rest : Bytes) (ends : Ends rest) :
    member (value n) (m.bytes ++ rest) = m.shown.map fun d => (d,rest) := by
  have shape : m.bytes ++ rest = quote :: (m.key ++ quote :: (colon :: (m.text ++ rest))) := by simp [bytes]
  have opening : expect quote (quote :: (m.key ++ quote :: (colon :: (m.text ++ rest)))) = some (m.key ++ quote :: (colon :: (m.text ++ rest))) := rfl
  have middle : expect colon (colon :: (m.text ++ rest)) = some (m.text ++ rest) := rfl
  unfold member shown
  rw [shape,opening,Option.bind_some,string_text m.key _ sound.plain]
  split
  · rw [Option.bind_some,middle,Option.bind_some,sound.reads rest ends]
    cases m.doc with
    | none => rfl
    | some d => rfl
  · rfl

theorem itemsFrom_reads {n : Nat} (m : Written) (ms : List Written) (sound : ∀ w ∈ m :: ms, Sound n w) (fuel : Nat) (deep : ms.length < fuel) (rest : Bytes) :
    itemsFrom (member (value n)) 0x7D fuel (m.bytes ++ tailText ms ++ 0x7D :: rest) = ((m :: ms).mapM shown).map fun ds => (ds,rest) := by
  induction ms generalizing m fuel with
  | nil =>
      obtain ⟨fuel,rfl⟩ : ∃ k, fuel = k + 1 := ⟨fuel - 1,by omega⟩
      have one := member_reads (sound m List.mem_cons_self) (0x7D :: rest) (by intro b here; cases here; exact .inr (.inl rfl))
      have shape : m.bytes ++ tailText [] ++ 0x7D :: rest = m.bytes ++ 0x7D :: rest := by simp [tailText]
      rw [itemsFrom,shape,one,List.mapM_cons,List.mapM_nil]
      cases m.shown with
      | none => rfl
      | some d => rfl
  | cons w ms ih =>
      obtain ⟨fuel,rfl⟩ : ∃ k, fuel = k + 1 := ⟨fuel - 1,by omega⟩
      have later := ih w (fun x inside => sound x (List.mem_cons_of_mem m inside)) fuel (by simpa using deep)
      have one := member_reads (sound m List.mem_cons_self) (comma :: (w.bytes ++ tailText ms ++ 0x7D :: rest))
        (by intro b here; cases here; exact .inl rfl)
      have shape : m.bytes ++ tailText (w :: ms) ++ 0x7D :: rest = m.bytes ++ comma :: (w.bytes ++ tailText ms ++ 0x7D :: rest) := by
        simp [tailText]
      rw [itemsFrom,shape,one,List.mapM_cons]
      cases m.shown with
      | none => rfl
      | some d =>
          have skipped : skip (comma :: (w.bytes ++ tailText ms ++ 0x7D :: rest)) = comma :: (w.bytes ++ tailText ms ++ 0x7D :: rest) := rfl
          rw [Option.map_some,Option.bind_some]
          dsimp only
          rw [skipped]
          dsimp only
          rw [if_pos rfl,later]
          cases (w :: ms).mapM shown with
          | none => rfl
          | some ds => rfl

end Written

def objText (ms : List Written) : Bytes := 0x7B :: Written.joined ms ++ [0x7D]

-- An object's text reads as its members, when every key is printable and every value reads; else as nothing.
theorem reads_obj (n : Nat) (ms : List Written) (sound : ∀ m ∈ ms, m.Sound n) :
    Reads (n+1) (objText ms) ((ms.mapM Written.shown).map .obj) := by
  intro rest _
  have shape : objText ms ++ rest = 0x7B :: (Written.joined ms ++ 0x7D :: rest) := by simp [objText]
  have opening : skip (0x7B :: (Written.joined ms ++ 0x7D :: rest)) = 0x7B :: (Written.joined ms ++ 0x7D :: rest) := rfl
  rw [shape,value,opening]
  dsimp only
  rw [if_pos rfl]
  cases ms with
  | nil => rfl
  | cons m ms =>
      have front : skip (Written.joined (m :: ms) ++ 0x7D :: rest) = Written.joined (m :: ms) ++ 0x7D :: rest := rfl
      have count : ms.length < (Written.joined (m :: ms) ++ 0x7D :: rest).length := by
        have tails (ms : List Written) : ms.length ≤ (Written.tailText ms).length := by
          induction ms with
          | nil => exact Nat.le_refl 0
          | cons w ms ih =>
              have one : Written.tailText (w :: ms) = comma :: w.bytes ++ Written.tailText ms := rfl
              rw [one,List.length_cons,List.length_append,List.length_cons]
              omega
        have here := tails ms
        rw [List.length_append,Written.joined,List.length_append,List.length_cons]
        omega
      have read : items (member (value n)) 0x7D (Written.joined (m :: ms) ++ 0x7D :: rest) =
          ((m :: ms).mapM Written.shown).map fun ds => (ds,rest) := by
        unfold items
        rw [front]
        exact Written.itemsFrom_reads m ms sound _ count rest
      rw [read]
      cases (m :: ms).mapM Written.shown with
      | none => rfl
      | some ds => rfl

-- Two brackets are fuel for two levels and more.
theorem parse_reads (text : Bytes) (d : Option Doc) (reads : ∀ n, Reads (n+3) text d) (long : 2 ≤ text.length) : parse text = d := by
  obtain ⟨n,deep⟩ : ∃ n, text.length + 1 = n + 3 := ⟨text.length - 2,by omega⟩
  have whole := reads n [] (by intro b here; cases here)
  rw [List.append_nil] at whole
  unfold parse
  rw [deep,whole]
  cases d with
  | none => rfl
  | some d => rfl

end LoraRan.Library.Json
