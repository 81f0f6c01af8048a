import LoraRan.Library.CheckedReads

namespace LoraRan.Library.ByteStream
open LittleEndian CheckedReads

-- A bounded writer. A write that does not fit is not made, and none is made after it.
structure ByteWriter where
  cap : Nat
  out : Bytes := []
  ok : Bool := true

def ByteWriter.put (w : ByteWriter) (chunk : Bytes) : ByteWriter :=
  if !w.ok || decide (w.cap < w.out.length + chunk.length) then {w with ok := false} else {w with out := w.out ++ chunk}

def write (cap : Nat) (chunks : List Bytes) : ByteWriter := chunks.foldl ByteWriter.put {cap := cap}

theorem put_fits (w : ByteWriter) (chunk : Bytes) (ok : w.ok = true) (room : w.out.length + chunk.length ≤ w.cap) :
    w.put chunk = {w with out := w.out ++ chunk} := by
  unfold ByteWriter.put
  rw [if_neg (by simp [ok,room])]

-- Chunks that fit together are written whole, one after the other.
theorem puts_fit (w : ByteWriter) (chunks : List Bytes) (ok : w.ok = true) (room : w.out.length + chunks.flatten.length ≤ w.cap) :
    chunks.foldl ByteWriter.put w = {w with out := w.out ++ chunks.flatten} := by
  induction chunks generalizing w with
  | nil => simp
  | cons chunk rest ih =>
    rw [List.flatten_cons,List.length_append] at room
    have later := ih {w with out := w.out ++ chunk} ok (by rw [List.length_append,Nat.add_assoc]; exact room)
    rw [List.foldl_cons,put_fits w chunk ok (by omega),later,List.flatten_cons,List.append_assoc]

theorem write_fits (cap : Nat) (chunks : List Bytes) (room : chunks.flatten.length ≤ cap) :
    write cap chunks = {cap := cap,out := chunks.flatten} := by
  rw [write,puts_fit _ _ rfl (by simpa using room)]
  rfl

-- A bounded reader over a buffer. A read that does not fit yields zero, and so does every read after it.
structure ByteReader where
  mem : Memory
  len : Nat
  pos : Nat := 0
  ok : Bool := true

-- `none` is a read outside the buffer.
abbrev Reading := StateT ByteReader Option

def fetch {α : Type} (n : Nat) (get : Memory → Nat → Option α) (zero : α) : Reading α := fun r =>
  if !r.ok || decide (r.len < r.pos + n) then some (zero,{r with ok := false})
  else (get r.mem r.pos).map fun v => (v,{r with pos := r.pos + n})

def u8 : Reading UInt8 := fetch 1 (fun mem pos => mem pos) 0
def u16 : Reading UInt16 := fetch 2 readU16 0
def u32 : Reading UInt32 := fetch 4 readU32 0
def i8 : Reading Int8 := do return (← u8).toInt8
def i16 : Reading Int16 := do return (← u16).toInt16
def skip (n : Nat) : Reading Unit := fetch n (fun _ _ => some ()) ()

-- A reader over the first `len` bytes of a memory, at one position in it.
def upTo (mem : Memory) (len pos : Nat) : ByteReader := {mem := mem,len := len,pos := pos}

-- The memory holds these bytes as far as the reader may read.
def Covers (mem : Memory) (len : Nat) (bytes : Bytes) : Prop := ∀ i < len, mem i = some (u8At bytes i)

theorem covers_whole (bytes : Bytes) (len : Nat) (inside : len ≤ bytes.length) : Covers (memoryOf bytes) len bytes :=
  fun i below => memoryOf_inside bytes i (by omega)

theorem covers_rest (bytes : Bytes) (skipped len : Nat) (inside : skipped + len ≤ bytes.length) :
    Covers (fun i => memoryOf bytes (skipped + i)) len (bytes.drop skipped) := by
  intro i below
  simp [memoryOf,u8At,List.getElem?_eq_getElem (show skipped + i < bytes.length by omega)]

section
variable {β : Type} {mem : Memory} {len : Nat} {bytes : Bytes} (covers : Covers mem len bytes) (pos : Nat)

theorem fetch_inside {α : Type} (n : Nat) (get : Memory → Nat → Option α) (zero value : α) (inside : pos + n ≤ len)
    (got : get mem pos = some value) : fetch n get zero (upTo mem len pos) = some (value,upTo mem len (pos + n)) := by
  have covered : ¬ ((!(upTo mem len pos).ok || decide ((upTo mem len pos).len < (upTo mem len pos).pos + n)) = true) := by
    change ¬ (decide (len < pos + n) = true)
    simpa using inside
  unfold fetch
  rw [if_neg covered]
  change (get mem pos).map _ = _
  rw [got]
  rfl

theorem read_bind {α : Type} (p : Reading α) (k : α → Reading β) (r r' : ByteReader) (value : α) (read : p r = some (value,r')) :
    (p >>= k) r = k value r' := by
  change (p r).bind (fun x => k x.1 x.2) = _
  rw [read]
  rfl

include covers

theorem u8_read (inside : pos + 1 ≤ len) : u8 (upTo mem len pos) = some (u8At bytes pos,upTo mem len (pos + 1)) :=
  fetch_inside pos 1 _ _ _ inside (covers pos (by omega))

theorem u16_read (inside : pos + 2 ≤ len) : u16 (upTo mem len pos) = some (u16At bytes pos,upTo mem len (pos + 2)) := by
  have got : readU16 mem pos = some (u16At bytes pos) := by
    rw [readU16,covers pos (by omega),covers (pos + 1) (by omega)]
    rfl
  exact fetch_inside pos 2 _ _ _ inside got

theorem u32_read (inside : pos + 4 ≤ len) : u32 (upTo mem len pos) = some (u32At bytes pos,upTo mem len (pos + 4)) := by
  have got : readU32 mem pos = some (u32At bytes pos) := by
    rw [readU32,covers pos (by omega),covers (pos + 1) (by omega),covers (pos + 2) (by omega),covers (pos + 3) (by omega)]
    rfl
  exact fetch_inside pos 4 _ _ _ inside got

variable (k8 : UInt8 → Reading β) (k16 : UInt16 → Reading β) (k32 : UInt32 → Reading β) (ki8 : Int8 → Reading β) (ki16 : Int16 → Reading β)

theorem u8_bind (inside : pos + 1 ≤ len) : (u8 >>= k8) (upTo mem len pos) = k8 (u8At bytes pos) (upTo mem len (pos + 1)) :=
  read_bind _ _ _ _ _ (u8_read covers pos inside)

theorem u16_bind (inside : pos + 2 ≤ len) : (u16 >>= k16) (upTo mem len pos) = k16 (u16At bytes pos) (upTo mem len (pos + 2)) :=
  read_bind _ _ _ _ _ (u16_read covers pos inside)

theorem u32_bind (inside : pos + 4 ≤ len) : (u32 >>= k32) (upTo mem len pos) = k32 (u32At bytes pos) (upTo mem len (pos + 4)) :=
  read_bind _ _ _ _ _ (u32_read covers pos inside)

theorem i8_bind (inside : pos + 1 ≤ len) : (i8 >>= ki8) (upTo mem len pos) = ki8 (u8At bytes pos).toInt8 (upTo mem len (pos + 1)) :=
  read_bind _ _ _ _ _ (read_bind _ _ _ _ _ (u8_read covers pos inside))

theorem i16_bind (inside : pos + 2 ≤ len) : (i16 >>= ki16) (upTo mem len pos) = ki16 (u16At bytes pos).toInt16 (upTo mem len (pos + 2)) :=
  read_bind _ _ _ _ _ (read_bind _ _ _ _ _ (u16_read covers pos inside))

omit covers in
theorem skip_bind (n : Nat) (k : Unit → Reading β) (inside : pos + n ≤ len) :
    (skip n >>= k) (upTo mem len pos) = k () (upTo mem len (pos + n)) :=
  read_bind _ _ _ _ _ (fetch_inside pos n _ _ _ inside rfl)

end

-- A list of known length is its own bytes.
theorem bytes_listed (bytes : Bytes) : bytes = (List.range bytes.length).map (u8At bytes) := by
  apply List.ext_getElem (by simp)
  intro i here _
  simp [u8At,List.getD_eq_getElem?_getD,List.getElem?_eq_getElem here]

end LoraRan.Library.ByteStream
