import LoraRan.Library.JsonText
import LoraRan.Protocol.Types

namespace LoraRan.Bridge
open Protocol Library.Json Library.DecimalText

-- The text written so far, its closing zero apart. A text the buffer does not hold is refused, never cut short.
structure JsonObject where
  cap : Nat
  out : Bytes := []
  ok : Bool := true
  first : Bool := true

-- A call of the writer. A key is text as C holds it, without its closing zero, and so is a string.
inductive JsonCall where
  | u32 (key : Bytes) (v : UInt32)
  | i32 (key : Bytes) (v : Int32)
  | null (key : Bytes)
  | decimal (key : Bytes) (scaled : Int) (decimals : Nat)
  | boolean (key : Bytes) (v : Bool)
  | str (key : Bytes) (v : Option Bytes)
  | beginObject (key : Bytes)
  | endObject
  deriving DecidableEq

def nullText : Bytes := [0x6E,0x75,0x6C,0x6C]
def boolText (v : Bool) : Bytes := if v then [0x74,0x72,0x75,0x65] else [0x66,0x61,0x6C,0x73,0x65]

-- In units of 10^-decimals, the part behind the point at its full width.
def decimalText (scaled : Int) (decimals : Nat) : Bytes :=
  let sign : Bytes := if scaled < 0 then [0x2D] else []
  let whole := scaled.natAbs / 10 ^ decimals
  let frac := digits (scaled.natAbs % 10 ^ decimals)
  if decimals = 0 then sign ++ digits whole else sign ++ digits whole ++ 0x2E :: (List.replicate (decimals - frac.length) 0x30 ++ frac)

def hexChar (n : UInt8) : UInt8 := if n < 10 then 0x30 + n else 0x61 + (n - 10)

-- The two mandatory escapes and the control range.
def escapeByte (b : UInt8) : Bytes :=
  if b = quote ∨ b = backslash then [backslash,b]
  else if b < 0x20 then [backslash,0x75,0x30,0x30,hexChar (b / 16),hexChar (b % 16)]
  else [b]

namespace JsonObject

def append (j : JsonObject) (text : Bytes) : JsonObject :=
  if !j.ok then j
  else if j.cap - j.out.length ≤ text.length then {j with ok := false}
  else {j with out := j.out ++ text}

def start (cap : Nat) : JsonObject := if cap = 0 then {cap := cap,ok := false} else ({cap := cap} : JsonObject).append [0x7B]

def keyText (first : Bool) (key : Bytes) : Bytes := (if first then [] else [comma]) ++ quote :: key ++ [quote,colon]

-- The key goes in as it is.
def openKey (j : JsonObject) (key : Bytes) : JsonObject := {j.append (keyText j.first key) with first := false}

def field (j : JsonObject) (key text : Bytes) : JsonObject := (j.openKey key).append text

def escape (j : JsonObject) (v : Bytes) : JsonObject := v.foldl (fun j b => j.append (escapeByte b)) j

def call (j : JsonObject) : JsonCall → JsonObject
  | .u32 key v => j.field key (digits v.toNat)
  | .i32 key v => j.field key (signedText v.toInt)
  | .null key => j.field key nullText
  | .decimal key scaled decimals => j.field key (decimalText scaled decimals)
  | .boolean key v => j.field key (boolText v)
  | .str _ none => j
  | .str key (some v) => (((j.openKey key).append [quote]).escape v).append [quote]
  | .beginObject key => {(j.openKey key).append [0x7B] with first := true}
  | .endObject => {j.append [0x7D] with first := false}

-- The document, or nothing where it did not fit.
def finish (j : JsonObject) : Option Bytes := if (j.append [0x7D]).ok then some (j.append [0x7D]).out else none

end JsonObject

def writeJson (cap : Nat) (calls : List JsonCall) : Option Bytes := (calls.foldl JsonObject.call (.start cap)).finish

-- The text of the calls, with room for all of it, and whether the next key is its object's first.
def callInto (s : Bytes × Bool) : JsonCall → Bytes × Bool
  | .u32 key v => (s.1 ++ JsonObject.keyText s.2 key ++ digits v.toNat,false)
  | .i32 key v => (s.1 ++ JsonObject.keyText s.2 key ++ signedText v.toInt,false)
  | .null key => (s.1 ++ JsonObject.keyText s.2 key ++ nullText,false)
  | .decimal key scaled decimals => (s.1 ++ JsonObject.keyText s.2 key ++ decimalText scaled decimals,false)
  | .boolean key v => (s.1 ++ JsonObject.keyText s.2 key ++ boolText v,false)
  | .str _ none => s
  | .str key (some v) => (s.1 ++ JsonObject.keyText s.2 key ++ quote :: v.flatMap escapeByte ++ [quote],false)
  | .beginObject key => (s.1 ++ JsonObject.keyText s.2 key ++ [0x7B],true)
  | .endObject => (s.1 ++ [0x7D],false)

def jsonText (calls : List JsonCall) : Bytes := (calls.foldl callInto ([0x7B],true)).1 ++ [0x7D]

-- The writer has written the text, or has had no room for it.
structure Wrote (cap : Nat) (j : JsonObject) (s : Bytes × Bool) : Prop where
  size : j.cap = cap
  first : j.first = s.2
  fits : j.ok = true ↔ s.1.length < cap
  text : j.ok = true → j.out = s.1

namespace Wrote
variable {cap : Nat} {j : JsonObject} {s : Bytes × Bool}

theorem append (wrote : Wrote cap j s) (text : Bytes) : Wrote cap (j.append text) (s.1 ++ text,s.2) := by
  have fits := wrote.fits
  unfold JsonObject.append
  by_cases ok : j.ok = true
  · have out := wrote.text ok
    have held := fits.mp ok
    rw [if_neg (by rw [ok]; decide),wrote.size,out]
    by_cases full : cap - s.1.length ≤ text.length
    · rw [if_pos full]
      refine ⟨rfl,wrote.first,⟨fun good => by (cases good),fun room => ?_⟩,fun good => by (cases good)⟩
      rw [List.length_append] at room
      omega
    · rw [if_neg full]
      refine ⟨rfl,wrote.first,⟨fun _ => ?_,fun _ => ok⟩,fun _ => rfl⟩
      rw [List.length_append]
      omega
  · have past : ¬ s.1.length < cap := fun room => ok (fits.mpr room)
    rw [if_pos (by simpa using ok)]
    refine ⟨wrote.size,wrote.first,⟨fun good => absurd good ok,fun room => ?_⟩,fun good => absurd good ok⟩
    rw [List.length_append] at room
    omega

theorem mark (wrote : Wrote cap j s) (first : Bool) : Wrote cap {j with first := first} (s.1,first) :=
  ⟨wrote.size,rfl,wrote.fits,wrote.text⟩

theorem openKey (wrote : Wrote cap j s) (key : Bytes) : Wrote cap (j.openKey key) (s.1 ++ JsonObject.keyText s.2 key,false) := by
  unfold JsonObject.openKey
  rw [wrote.first]
  exact (wrote.append _).mark false

theorem field (wrote : Wrote cap j s) (key text : Bytes) : Wrote cap (j.field key text) (s.1 ++ JsonObject.keyText s.2 key ++ text,false) :=
  (wrote.openKey key).append text

theorem escape (wrote : Wrote cap j s) (v : Bytes) : Wrote cap (j.escape v) (s.1 ++ v.flatMap escapeByte,s.2) := by
  unfold JsonObject.escape
  induction v generalizing j s with
  | nil =>
      rw [List.flatMap_nil,List.append_nil]
      exact wrote
  | cons b rest ih =>
      have later := ih (wrote.append (escapeByte b))
      rw [List.append_assoc] at later
      exact later

theorem call (wrote : Wrote cap j s) (c : JsonCall) : Wrote cap (j.call c) (callInto s c) := by
  cases c with
  | u32 key v => exact wrote.field key _
  | i32 key v => exact wrote.field key _
  | null key => exact wrote.field key _
  | decimal key scaled decimals => exact wrote.field key _
  | boolean key v => exact wrote.field key _
  | str key v =>
      cases v with
      | none => exact wrote
      | some v =>
          have whole := (((wrote.openKey key).append [quote]).escape v).append [quote]
          have shape : s.1 ++ JsonObject.keyText s.2 key ++ [quote] ++ v.flatMap escapeByte ++ [quote] =
              s.1 ++ JsonObject.keyText s.2 key ++ quote :: v.flatMap escapeByte ++ [quote] := by simp
          rw [shape] at whole
          exact whole
  | beginObject key => exact ((wrote.openKey key).append [0x7B]).mark true
  | endObject => exact (wrote.append [0x7D]).mark false

theorem calls (wrote : Wrote cap j s) (calls : List JsonCall) : Wrote cap (calls.foldl JsonObject.call j) (calls.foldl callInto s) := by
  induction calls generalizing j s with
  | nil => exact wrote
  | cons c rest ih => exact ih (wrote.call c)

end Wrote

-- A document is written whole or not at all.
theorem writeJson_text (cap : Nat) (calls : List JsonCall) :
    writeJson cap calls = if (jsonText calls).length < cap then some (jsonText calls) else none := by
  have opened : Wrote cap (.start cap) ([0x7B],true) := by
    unfold JsonObject.start
    split
    · rename_i empty
      subst empty
      exact ⟨rfl,rfl,⟨fun good => by (cases good),fun room => by (cases room)⟩,fun good => by (cases good)⟩
    · rename_i some
      have fresh : Wrote cap {cap := cap} ([],true) := ⟨rfl,rfl,⟨fun _ => Nat.pos_of_ne_zero some,fun _ => rfl⟩,fun _ => rfl⟩
      exact fresh.append [0x7B]
  have closed := (opened.calls calls).append [0x7D]
  unfold writeJson JsonObject.finish
  by_cases room : (jsonText calls).length < cap
  · have ok := closed.fits.mpr room
    rw [if_pos ok,if_pos room,closed.text ok]
    rfl
  · rw [if_neg fun ok => room (closed.fits.mp ok),if_neg room]

-- Text with nothing to escape goes in as it is.
theorem escape_plain (v : Bytes) (plain : Plain v) (shown : ∀ b ∈ v, 0x20 ≤ b) : v.flatMap escapeByte = v := by
  induction v with
  | nil => rfl
  | cons b rest ih =>
      have one : escapeByte b = [b] := by
        have notQuote : b ≠ quote := fun same => plain.quoteless (by rw [same]; exact List.mem_cons_self)
        have notSlash : b ≠ backslash := fun same => plain.slashless (by rw [same]; exact List.mem_cons_self)
        have seen := shown b List.mem_cons_self
        have low : ¬ b < 0x20 := by
          rw [UInt8.le_iff_toNat_le] at seen
          rw [UInt8.lt_iff_toNat_lt]
          omega
        unfold escapeByte
        rw [if_neg (not_or.mpr ⟨notQuote,notSlash⟩),if_neg low]
      rw [List.flatMap_cons,one,ih plain.tail fun c inside => shown c (List.mem_cons_of_mem b inside)]
      rfl

-- The most bytes a call writes.
def callMost : JsonCall → Nat
  | .u32 key _ => key.length + 14
  | .i32 key _ => key.length + 15
  | .null key => key.length + 8
  | .decimal key scaled decimals => key.length + 4 + (decimalText scaled decimals).length
  | .boolean key _ => key.length + 9
  | .str _ none => 0
  | .str key (some v) => key.length + 6 + 6 * v.length
  | .beginObject key => key.length + 5
  | .endObject => 1

theorem keyText_length (first : Bool) (key : Bytes) : (JsonObject.keyText first key).length ≤ key.length + 4 := by
  unfold JsonObject.keyText
  split <;> simp

theorem escapeByte_length (b : UInt8) : (escapeByte b).length ≤ 6 := by
  unfold escapeByte
  split
  · exact Nat.le_add_left 2 4
  · split
    · exact Nat.le_refl 6
    · exact Nat.le_add_left 1 5

theorem escaped_length (v : Bytes) : (v.flatMap escapeByte).length ≤ 6 * v.length := by
  induction v with
  | nil => exact Nat.le_refl 0
  | cons b rest ih =>
      have one := escapeByte_length b
      rw [List.flatMap_cons,List.length_append,List.length_cons]
      omega

theorem callInto_length (s : Bytes × Bool) (c : JsonCall) : (callInto s c).1.length ≤ s.1.length + callMost c := by
  have named := fun key => keyText_length s.2 key
  cases c with
  | u32 key v =>
      have value := digits_length v.toNat 10 (by decide) (Nat.lt_trans v.toNat_lt (by decide))
      have key_ := named key
      simp only [callInto,callMost,List.length_append]
      omega
  | i32 key v =>
      have low := v.le_toInt
      have high := v.toInt_lt
      have value := digits_length v.toInt.natAbs 10 (by decide) (by omega)
      have key_ := named key
      simp only [callInto,callMost,List.length_append,signedText]
      split
      · rw [List.length_cons]
        omega
      · omega
  | null key =>
      have key_ := named key
      simp only [callInto,callMost,List.length_append,nullText,List.length_cons,List.length_nil]
      omega
  | decimal key scaled decimals =>
      have key_ := named key
      simp only [callInto,callMost,List.length_append]
      omega
  | boolean key v =>
      have key_ := named key
      cases v <;> simp [callInto,callMost,boolText] <;> omega
  | str key v =>
      cases v with
      | none => exact Nat.le_refl _
      | some v =>
          have key_ := named key
          have value := escaped_length v
          simp only [callInto,callMost,List.length_append,List.length_cons,List.length_nil]
          omega
  | beginObject key =>
      have key_ := named key
      simp only [callInto,callMost,List.length_append,List.length_cons,List.length_nil]
      omega
  | endObject => simp [callInto,callMost]

theorem jsonText_length (calls : List JsonCall) : (jsonText calls).length ≤ (calls.map callMost).sum + 2 := by
  have grows : ∀ (calls : List JsonCall) (s : Bytes × Bool), (calls.foldl callInto s).1.length ≤ s.1.length + (calls.map callMost).sum := by
    intro calls
    induction calls with
    | nil => exact fun s => Nat.le_refl _
    | cons c rest ih =>
        intro s
        have one := callInto_length s c
        have more := ih (callInto s c)
        rw [List.foldl_cons,List.map_cons,List.sum_cons]
        omega
  have whole := grows calls ([0x7B],true)
  rw [jsonText,List.length_append]
  simp only [List.length_singleton] at whole ⊢
  omega

end LoraRan.Bridge
