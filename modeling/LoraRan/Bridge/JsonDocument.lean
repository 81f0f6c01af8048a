import LoraRan.Bridge.JsonWriter

namespace LoraRan.Bridge
open Protocol Library.Json Library.DecimalText

-- Text that is written as it is and read back as it is: shown bytes of ASCII, no quote and no backslash.
def word (t : Bytes) : Bool := t.all fun b => decide (0x20 ≤ b) && decide (b < 0x80) && decide (b ≠ quote) && decide (b ≠ backslash)

theorem word_bytes {t : Bytes} (is : word t = true) (b : UInt8) (inside : b ∈ t) : 0x20 ≤ b ∧ b < 0x80 ∧ b ≠ quote ∧ b ≠ backslash := by
  have here := List.all_eq_true.mp is b inside
  simpa [and_assoc] using here

theorem word_plain {t : Bytes} (is : word t = true) : Plain t :=
  ⟨fun inside => (word_bytes is _ inside).2.2.1 rfl,fun inside => (word_bytes is _ inside).2.2.2 rfl⟩

theorem word_printable {t : Bytes} (is : word t = true) : Printable t := by
  refine ⟨fun b inside => (word_bytes is b inside).1,?_⟩
  have ascii : ∀ b ∈ t, b < 0x80 := fun b inside => (word_bytes is b inside).2.1
  clear is
  induction t with
  | nil => rfl
  | cons b rest ih =>
      rw [Utf8.run,Utf8.ascii_ends .start b (ascii b List.mem_cons_self),if_pos rfl,Option.bind_some]
      exact ih fun c inside => ascii c (List.mem_cons_of_mem b inside)

theorem word_escaped {t : Bytes} (is : word t = true) : t.flatMap escapeByte = t :=
  escape_plain t (word_plain is) fun b inside => (word_bytes is b inside).1

-- A call that writes one member of the object it stands in, and what the member reads as.
def JsonCall.written : JsonCall → Option Written
  | .u32 key v => some ⟨key,digits v.toNat,some (.num (digits v.toNat))⟩
  | .i32 key v => some ⟨key,signedText v.toInt,some (.num (signedText v.toInt))⟩
  | .null key => some ⟨key,nullText,some .null⟩
  | .decimal key scaled decimals => some ⟨key,decimalText scaled decimals,some (.num (decimalText scaled decimals))⟩
  | .boolean key v => some ⟨key,boolText v,some (.bool v)⟩
  | .str key (some v) => some ⟨key,quote :: v ++ [quote],some (.str v)⟩
  | .str _ none | .beginObject _ | .endObject => none

-- Members only, of words.
def JsonCall.flat : JsonCall → Bool
  | .u32 key _ | .i32 key _ | .null key | .decimal key _ _ | .boolean key _ => word key
  | .str key (some v) => word key && word v
  | .str _ none => true
  | .beginObject _ | .endObject => false

def JsonCall.member (c : JsonCall) : Option (Bytes × Doc) := c.written.bind fun m => m.doc.map fun d => (m.key,d)

theorem callInto_written (s : Bytes × Bool) (c : JsonCall) (flat : c.flat = true) :
    callInto s c = match c.written with
      | none => s
      | some m => (s.1 ++ (if s.2 then m.bytes else comma :: m.bytes),false) := by
  obtain ⟨text,first⟩ := s
  cases c with
  | u32 | i32 | null | decimal | boolean => cases first <;> simp [callInto,JsonCall.written,JsonObject.keyText,Written.bytes]
  | str key v =>
      cases v with
      | none => rfl
      | some v =>
          have escaped := word_escaped (Bool.and_eq_true_iff.mp flat).2
          cases first <;> simp [callInto,JsonCall.written,JsonObject.keyText,Written.bytes,escaped]
  | beginObject | endObject => cases flat

theorem jsonText_written (calls : List JsonCall) (flat : ∀ c ∈ calls, c.flat = true) :
    jsonText calls = objText (calls.filterMap JsonCall.written) := by
  have grows : ∀ (calls : List JsonCall) (s : Bytes × Bool), (∀ c ∈ calls, c.flat = true) →
      (calls.foldl callInto s).1 =
        s.1 ++ if s.2 then Written.joined (calls.filterMap JsonCall.written) else Written.tailText (calls.filterMap JsonCall.written) := by
    intro calls
    induction calls with
    | nil =>
        intro s _
        cases s.2 <;> simp [Written.joined,Written.tailText]
    | cons c rest ih =>
        intro s flat
        rw [List.foldl_cons,ih _ fun d inside => flat d (List.mem_cons_of_mem c inside),callInto_written s c (flat c List.mem_cons_self)]
        cases is : c.written with
        | none => rw [List.filterMap_cons_none is]
        | some m =>
            rw [List.filterMap_cons_some is]
            cases s.2 with
            | true => simp [Written.joined]
            | false => simp [Written.tailText]
  rw [jsonText,grows calls _ flat,objText]
  rfl

theorem decimal_reads (n : Nat) (scaled : Int) (decimals : Nat) :
    Reads (n+1) (decimalText scaled decimals) (some (.num (decimalText scaled decimals))) := by
  have shape : decimalText scaled decimals = (if decide (scaled < 0) then [0x2D] else []) ++
      if decimals = 0 then digits (scaled.natAbs / 10 ^ decimals)
      else digits (scaled.natAbs / 10 ^ decimals) ++ 0x2E :: (List.replicate (decimals - (digits (scaled.natAbs % 10 ^ decimals)).length) 0x30 ++
        digits (scaled.natAbs % 10 ^ decimals)) := by
    unfold decimalText
    by_cases negative : scaled < 0
    · by_cases whole : decimals = 0 <;> simp [negative,whole]
    · by_cases whole : decimals = 0 <;> simp [negative,whole]
  rw [shape]
  by_cases whole : decimals = 0
  · rw [if_pos whole]
    obtain ⟨b,more,front,digit,_⟩ := digits_lead (scaled.natAbs / 10 ^ decimals)
    exact reads_minus n _ _ ⟨b,more,front,digit⟩ fun s rest opens ends => number_digits s opens _ rest ends
  · rw [if_neg whole]
    refine reads_fraction n _ _ _ ?_ ?_
    · obtain ⟨b,more,front,_⟩ := digits_head (scaled.natAbs % 10 ^ decimals)
      rw [front]
      exact List.append_ne_nil_of_right_ne_nil _ (List.cons_ne_nil b more)
    · intro c inside
      rcases List.mem_append.mp inside with zero | digit
      · rw [List.eq_of_mem_replicate zero]
        rfl
      · exact List.all_eq_true.mp (digits_all _) c digit

theorem written_sound (n : Nat) (c : JsonCall) (m : Written) (flat : c.flat = true) (is : c.written = some m) :
    m.Sound (n+1) ∧ m.shown = c.member := by
  have shown : c.member = m.doc.map fun d => (m.key,d) := by rw [JsonCall.member,is]; rfl
  rw [shown]
  cases c with
  | u32 key v =>
      cases is
      refine ⟨⟨word_plain flat,?_⟩,if_pos (word_printable flat)⟩
      have signed := reads_signed n v.toNat
      rw [signedText,if_neg (by omega),Int.natAbs_natCast] at signed
      exact signed
  | i32 key v =>
      cases is
      exact ⟨⟨word_plain flat,reads_signed n v.toInt⟩,if_pos (word_printable flat)⟩
  | null key =>
      cases is
      exact ⟨⟨word_plain flat,reads_null n⟩,if_pos (word_printable flat)⟩
  | decimal key scaled decimals =>
      cases is
      exact ⟨⟨word_plain flat,decimal_reads n scaled decimals⟩,if_pos (word_printable flat)⟩
  | boolean key v =>
      cases is
      exact ⟨⟨word_plain flat,reads_bool n v⟩,if_pos (word_printable flat)⟩
  | str key v =>
      cases v with
      | none => cases is
      | some v =>
          cases is
          obtain ⟨named,valued⟩ := Bool.and_eq_true_iff.mp flat
          have read := reads_string n v (word_plain valued)
          rw [if_pos (word_printable valued)] at read
          exact ⟨⟨word_plain named,read⟩,if_pos (word_printable named)⟩
  | beginObject | endObject => cases is

-- A document written by such calls reads back as the members they wrote, in their order.
theorem document_reads (calls : List JsonCall) (flat : ∀ c ∈ calls, c.flat = true) :
    parse (jsonText calls) = some (.obj (calls.filterMap JsonCall.member)) := by
  have shown : (calls.filterMap JsonCall.written).mapM Written.shown = some (calls.filterMap JsonCall.member) := by
    induction calls with
    | nil => rfl
    | cons c rest ih =>
        have later := ih fun d inside => flat d (List.mem_cons_of_mem c inside)
        cases is : c.written with
        | none =>
            have none_ : c.member = none := by rw [JsonCall.member,is]; rfl
            rw [List.filterMap_cons_none is,List.filterMap_cons_none none_]
            exact later
        | some m =>
            have here := (written_sound 0 c m (flat c List.mem_cons_self) is).2
            have doc : ∃ d, m.doc = some d := by
              unfold JsonCall.written at is
              split at is
              all_goals cases is
              all_goals exact ⟨_,rfl⟩
            obtain ⟨d,doc⟩ := doc
            have some_ : c.member = some (m.key,d) := by rw [JsonCall.member,is,Option.bind_some,doc]; rfl
            rw [List.filterMap_cons_some is,List.filterMap_cons_some some_,List.mapM_cons,here,some_,later]
            rfl
  rw [jsonText_written calls flat]
  have read : ∀ n, Reads (n+3) (objText (calls.filterMap JsonCall.written)) (some (.obj (calls.filterMap JsonCall.member))) := by
    intro n
    have whole := reads_obj (n+2) (calls.filterMap JsonCall.written) (by
      intro m inside
      obtain ⟨c,member,is⟩ := List.mem_filterMap.mp inside
      exact (written_sound (n+1) c m (flat c member) is).1)
    rw [shown] at whole
    exact whole
  exact parse_reads _ _ read (by simp [objText])

-- The value under a key of a document.
def documentField (payload key : Bytes) : Option Doc :=
  match parse payload with
  | some (.obj members) => members.lookup key
  | _ => none

def JsonCall.key : JsonCall → Bytes
  | .u32 key _ | .i32 key _ | .null key | .decimal key _ _ | .boolean key _ | .str key _ | .beginObject key => key
  | .endObject => []

@[simp] theorem key_u32 (key : Bytes) (v : UInt32) : (JsonCall.u32 key v).key = key := rfl
@[simp] theorem key_i32 (key : Bytes) (v : Int32) : (JsonCall.i32 key v).key = key := rfl
@[simp] theorem key_null (key : Bytes) : (JsonCall.null key).key = key := rfl
@[simp] theorem key_decimal (key : Bytes) (scaled : Int) (decimals : Nat) : (JsonCall.decimal key scaled decimals).key = key := rfl
@[simp] theorem key_boolean (key : Bytes) (v : Bool) : (JsonCall.boolean key v).key = key := rfl
@[simp] theorem key_str (key : Bytes) (v : Option Bytes) : (JsonCall.str key v).key = key := rfl

theorem member_key (c : JsonCall) (key : Bytes) (d : Doc) (is : c.member = some (key,d)) : key = c.key := by
  cases c with
  | str k v =>
      cases v with
      | none => cases is
      | some v => cases is; rfl
  | beginObject | endObject => cases is
  | u32 | i32 | null | decimal | boolean => cases is; rfl

theorem lookup_member (calls : List JsonCall) (distinct : (calls.map JsonCall.key).Nodup) (c : JsonCall) (inside : c ∈ calls) (d : Doc)
    (is : c.member = some (c.key,d)) : (calls.filterMap JsonCall.member).lookup c.key = some d := by
  induction calls with
  | nil => cases inside
  | cons first rest ih =>
      rw [List.map_cons,List.nodup_cons] at distinct
      rcases List.mem_cons.mp inside with rfl | later
      · rw [List.filterMap_cons_some is,List.lookup_cons_self]
      · have other : c.key ≠ first.key := fun same => distinct.1 (same ▸ List.mem_map_of_mem later)
        cases made : first.member with
        | none =>
            rw [List.filterMap_cons_none made]
            exact ih distinct.2 later
        | some m =>
            have named := member_key first m.1 m.2 made
            rw [List.filterMap_cons_some made,List.lookup_cons,beq_eq_false_iff_ne.mpr (named ▸ other)]
            exact ih distinct.2 later

theorem documentField_call (calls : List JsonCall) (flat : ∀ c ∈ calls, c.flat = true) (distinct : (calls.map JsonCall.key).Nodup)
    (c : JsonCall) (inside : c ∈ calls) (d : Doc) (is : c.member = some (c.key,d)) : documentField (jsonText calls) c.key = some d := by
  unfold documentField
  rw [document_reads calls flat]
  exact lookup_member calls distinct c inside d is

end LoraRan.Bridge
