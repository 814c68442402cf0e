/-
Byte buffers with a header and a trailer.  A writer gets the bytes of its reservation
and changes them in place.  The bytes of the header come first; the trailer is taken
right behind the payload, wherever that ends.
-/
import SwapBufferQueue.Machine
import SwapBufferQueue.Lib.Segments

namespace SwapBufferQueue

universe x

open Segments

/-- `WriteBytesSlice`: the size of a value, and what it makes of the bytes it is given.
The pair of a size and a closure is the constructor. -/
abbrev WriteBytesSlice := Segments.Writer UInt8

/-- The bytes of a `&[u8]` are copied.  The copy panics on another length, so nothing is
promised there. -/
def WriteBytesSlice.ofBytes (bytes : List UInt8) : WriteBytesSlice where
  size := bytes.length
  write content := if content.length = bytes.length then bytes else content
  length_write content := by
    split
    · rename_i hlength
      exact hlength.symm
    · rfl

/-- A byte slice between its header and its trailer. -/
structure BytesSlice (headerSize trailerSize : Nat) where
  bytes : List UInt8
deriving Repr, DecidableEq

section BytesSlice

variable {headerSize trailerSize : Nat}

namespace BytesSlice

def header (slice : BytesSlice headerSize trailerSize) : Option (List UInt8) :=
  if headerSize ≤ slice.bytes.length then some (slice.bytes.take headerSize) else none

def trailer (slice : BytesSlice headerSize trailerSize) : Option (List UInt8) :=
  if trailerSize ≤ slice.bytes.length then
    some (slice.bytes.drop (slice.bytes.length - trailerSize))
  else none

def frame (slice : BytesSlice headerSize trailerSize) : List UInt8 :=
  slice.bytes

def deref (slice : BytesSlice headerSize trailerSize) : Option (List UInt8) :=
  if trailerSize ≤ slice.bytes.length ∧ headerSize ≤ slice.bytes.length - trailerSize then
    some ((slice.bytes.take (slice.bytes.length - trailerSize)).drop headerSize)
  else none

/-- `slice.header().copy_from_slice(header)`. -/
def writeHeader (slice : BytesSlice headerSize trailerSize) (header : List UInt8) :
    Option (BytesSlice headerSize trailerSize) :=
  if headerSize ≤ slice.bytes.length ∧ header.length = headerSize then
    some ⟨header ++ slice.bytes.drop headerSize⟩
  else none

/-- `slice.trailer().copy_from_slice(trailer)`. -/
def writeTrailer (slice : BytesSlice headerSize trailerSize) (trailer : List UInt8) :
    Option (BytesSlice headerSize trailerSize) :=
  if trailerSize ≤ slice.bytes.length ∧ trailer.length = trailerSize then
    some ⟨slice.bytes.take (slice.bytes.length - trailerSize) ++ trailer⟩
  else none

/-- The parts of a slice: header, payload and trailer are what the source's methods
return, they have their sizes and they partition the frame. -/
structure Shows (slice : BytesSlice headerSize trailerSize)
    (header payload trailer : List UInt8) : Prop where
  header_eq : slice.header = some header
  deref_eq : slice.deref = some payload
  trailer_eq : slice.trailer = some trailer
  frame_eq : slice.frame = header ++ payload ++ trailer
  length_header : header.length = headerSize
  length_trailer : trailer.length = trailerSize

theorem shows_of_append {header payload trailer : List UInt8}
    (hheader : header.length = headerSize) (htrailer : trailer.length = trailerSize) :
    (⟨header ++ payload ++ trailer⟩ : BytesSlice headerSize trailerSize).Shows
      header payload trailer := by
  subst hheader htrailer
  have hlength : (header ++ payload ++ trailer).length - trailer.length =
      (header ++ payload).length := by
    rw [List.length_append]
    omega
  have hle : header.length ≤ (header ++ payload).length := by
    rw [List.length_append]
    omega
  have hle' : trailer.length ≤ (header ++ payload ++ trailer).length := by
    rw [List.length_append]
    omega
  constructor
  · rw [BytesSlice.header, if_pos (by rw [List.length_append]; omega), List.append_assoc,
      List.take_left]
  · simp only [deref, hlength]
    rw [if_pos ⟨hle', hle⟩, List.take_left, List.drop_left]
  · simp only [BytesSlice.trailer, hlength]
    rw [if_pos hle', List.drop_left]
  · rfl
  · rfl
  · rfl

section Shows

variable {slice : BytesSlice headerSize trailerSize} {header payload trailer : List UInt8}

theorem Shows.length_bytes (hshows : slice.Shows header payload trailer) :
    slice.bytes.length = headerSize + payload.length + trailerSize := by
  have hframe := hshows.frame_eq
  rw [frame] at hframe
  rw [hframe, List.length_append, List.length_append, hshows.length_header,
    hshows.length_trailer]

theorem Shows.write {header' trailer' : List UInt8}
    (hshows : slice.Shows header payload trailer)
    (hheader : header'.length = headerSize) (htrailer : trailer'.length = trailerSize) :
    (slice.writeHeader header').bind (fun slice => slice.writeTrailer trailer') =
      some ⟨header' ++ payload ++ trailer'⟩ := by
  have hlength := hshows.length_bytes
  have hframe := hshows.frame_eq
  have hlength' : (header' ++ (payload ++ trailer)).length - trailerSize =
      (header' ++ payload).length := by
    rw [← hshows.length_trailer]
    simp only [List.length_append]
    omega
  have hdrop : slice.bytes.drop headerSize = payload ++ trailer := by
    rw [frame] at hframe
    rw [hframe, List.append_assoc, ← hshows.length_header, List.drop_left]
  rw [writeHeader, if_pos ⟨by omega, hheader⟩, Option.bind_some, hdrop, writeTrailer]
  simp only [hlength']
  rw [if_pos, ← List.append_assoc, List.take_left]
  refine ⟨?_, htrailer⟩
  rw [← hshows.length_trailer]
  simp only [List.length_append]
  omega

end Shows

end BytesSlice

/-- `insert_into` on the bytes of a buffer: the value writes its slice, which lies behind
the header. -/
def insertBytes (headerSize : Nat) (bytes : List UInt8) (index : Nat)
    (writer : WriteBytesSlice) : Option (List UInt8) :=
  writeAt bytes (headerSize + index) writer

/-- `Buffer::slice` on the bytes of a buffer; `none` is an index out of bounds. -/
def sliceBytes (bytes : List UInt8) (start stop : Nat) :
    Option (BytesSlice headerSize trailerSize) :=
  if start ≤ headerSize + stop + trailerSize ∧
      headerSize + stop + trailerSize ≤ bytes.length then
    some ⟨(bytes.take (headerSize + stop + trailerSize)).drop start⟩
  else none

/-- The bytes of a buffer once a slice from an index on has been changed: the slice
borrows them. -/
def restoreBytes (bytes : List UInt8) (start : Nat)
    (slice : BytesSlice headerSize trailerSize) : List UInt8 :=
  bytes.take start ++ slice.bytes ++ bytes.drop (start + slice.bytes.length)

end BytesSlice

/-- `WriteVecBuffer`: one boxed slice of bytes. -/
structure WriteVecBuffer (headerSize trailerSize : Nat) where
  bytes : List UInt8
deriving Repr, DecidableEq

namespace WriteVecBuffer

variable {headerSize trailerSize : Nat}

def default : WriteVecBuffer headerSize trailerSize := ⟨[]⟩

def capacity (b : WriteVecBuffer headerSize trailerSize) : Nat :=
  b.bytes.length - (headerSize + trailerSize)

def insertInto (b : WriteVecBuffer headerSize trailerSize) (index : Nat)
    (writer : WriteBytesSlice) : Option (WriteVecBuffer headerSize trailerSize) :=
  (insertBytes headerSize b.bytes index writer).map mk

def slice (b : WriteVecBuffer headerSize trailerSize) (start stop : Nat) :
    Option (BytesSlice headerSize trailerSize) :=
  sliceBytes b.bytes start stop

def restore (b : WriteVecBuffer headerSize trailerSize) (start : Nat)
    (slice : BytesSlice headerSize trailerSize) : WriteVecBuffer headerSize trailerSize :=
  ⟨restoreBytes b.bytes start slice⟩

/-- The box is replaced by one of zeros. -/
def resize (_ : WriteVecBuffer headerSize trailerSize) (capacity : Nat) :
    WriteVecBuffer headerSize trailerSize :=
  ⟨List.replicate (headerSize + capacity + trailerSize) 0⟩

theorem capacity_resize (b : WriteVecBuffer headerSize trailerSize) (capacity : Nat) :
    (b.resize capacity).capacity = capacity := by
  rw [WriteVecBuffer.capacity, resize, List.length_replicate]
  omega

theorem capacity_default :
    (default : WriteVecBuffer headerSize trailerSize).capacity = 0 :=
  Nat.zero_sub _

/-- Bytes are not dropped, and they are not drained. -/
instance : Buffer (WriteVecBuffer headerSize trailerSize) UInt8
    (BytesSlice headerSize trailerSize) where
  default := default
  capacity := capacity
  insertInto b index value := b.insertInto index (WriteBytesSlice.ofBytes value)
  slice := slice
  clear b _ _ := some ([], b)
  remove _ _ := none
  resize b capacity := some (b.resize capacity)

end WriteVecBuffer

/-- Three arrays, one behind another. -/
structure ArrayWithHeaderAndTrailer (α : Type) (headerSize n trailerSize : Nat) where
  header : Vector α headerSize
  array : Vector α n
  trailer : Vector α trailerSize
deriving Repr, DecidableEq

namespace ArrayWithHeaderAndTrailer

variable {α : Type} {headerSize n trailerSize : Nat}

def new (default : α) : ArrayWithHeaderAndTrailer α headerSize n trailerSize :=
  ⟨Vector.replicate _ default, Vector.replicate _ default, Vector.replicate _ default⟩

def deref (a : ArrayWithHeaderAndTrailer α headerSize n trailerSize) : List α :=
  a.header.toList ++ a.array.toList ++ a.trailer.toList

/-- The three arrays after the target of `deref_mut` has got this content. -/
def derefMut (content : List α) (hlength : content.length = headerSize + n + trailerSize) :
    ArrayWithHeaderAndTrailer α headerSize n trailerSize where
  header := ⟨(content.take headerSize).toArray, by simp; omega⟩
  array := ⟨((content.drop headerSize).take n).toArray, by simp; omega⟩
  trailer := ⟨(content.drop (headerSize + n)).toArray, by simp; omega⟩

theorem length_deref (a : ArrayWithHeaderAndTrailer α headerSize n trailerSize) :
    a.deref.length = headerSize + n + trailerSize := by
  simp only [deref, List.length_append, Vector.length_toList]

theorem deref_derefMut {content : List α}
    (hlength : content.length = headerSize + n + trailerSize) :
    (derefMut content hlength).deref = content := by
  simp only [deref, derefMut, Vector.toList_mk]
  rw [List.append_assoc, ← List.drop_drop, List.take_append_drop, List.take_append_drop]

end ArrayWithHeaderAndTrailer

/-- `WriteArrayBuffer`: its bytes are in place. -/
structure WriteArrayBuffer (n headerSize trailerSize : Nat) where
  array : ArrayWithHeaderAndTrailer UInt8 headerSize n trailerSize
deriving Repr, DecidableEq

namespace WriteArrayBuffer

variable {n headerSize trailerSize : Nat}

def default : WriteArrayBuffer n headerSize trailerSize :=
  ⟨ArrayWithHeaderAndTrailer.new 0⟩

def capacity (_ : WriteArrayBuffer n headerSize trailerSize) : Nat := n

/-- A write keeps the length of the bytes, so the array takes them back. -/
def setBytes (b : WriteArrayBuffer n headerSize trailerSize) (bytes : List UInt8) :
    WriteArrayBuffer n headerSize trailerSize :=
  if hlength : bytes.length = headerSize + n + trailerSize then
    ⟨ArrayWithHeaderAndTrailer.derefMut bytes hlength⟩
  else b

theorem deref_setBytes (b : WriteArrayBuffer n headerSize trailerSize) {bytes : List UInt8}
    (hlength : bytes.length = b.array.deref.length) :
    (b.setBytes bytes).array.deref = bytes := by
  rw [ArrayWithHeaderAndTrailer.length_deref] at hlength
  rw [setBytes, dif_pos hlength, ArrayWithHeaderAndTrailer.deref_derefMut]

def insertInto (b : WriteArrayBuffer n headerSize trailerSize) (index : Nat)
    (writer : WriteBytesSlice) : Option (WriteArrayBuffer n headerSize trailerSize) :=
  (insertBytes headerSize b.array.deref index writer).map b.setBytes

def slice (b : WriteArrayBuffer n headerSize trailerSize) (start stop : Nat) :
    Option (BytesSlice headerSize trailerSize) :=
  sliceBytes b.array.deref start stop

def restore (b : WriteArrayBuffer n headerSize trailerSize) (start : Nat)
    (slice : BytesSlice headerSize trailerSize) :
    WriteArrayBuffer n headerSize trailerSize :=
  b.setBytes (restoreBytes b.array.deref start slice)

/-- An array is not resized. -/
instance : Buffer (WriteArrayBuffer n headerSize trailerSize) UInt8
    (BytesSlice headerSize trailerSize) where
  default := default
  capacity := capacity
  insertInto b index value := b.insertInto index (WriteBytesSlice.ofBytes value)
  slice := slice
  clear b _ _ := some ([], b)
  remove _ _ := none
  resize _ _ := none

end WriteArrayBuffer

/-- What the two byte buffers share: their bytes, and how the operations act on them. -/
class FramedBuffer (B : Type) {headerSize trailerSize : outParam Nat}
    [Buffer B UInt8 (BytesSlice headerSize trailerSize)] where
  bytes : B → List UInt8
  insertWriter : B → Nat → WriteBytesSlice → Option B
  restore : B → Nat → BytesSlice headerSize trailerSize → B
  length_bytes {b : B} : 0 < Buffer.capacity b →
    (bytes b).length = headerSize + Buffer.capacity b + trailerSize
  bytes_insertWriter (b : B) (index : Nat) (writer : WriteBytesSlice) :
    (insertWriter b index writer).map bytes = insertBytes headerSize (bytes b) index writer
  slice_eq (b : B) (start stop : Nat) :
    Buffer.slice b start stop = sliceBytes (bytes b) start stop
  bytes_restore {b : B} {start : Nat} {slice : BytesSlice headerSize trailerSize} :
    start + slice.bytes.length ≤ (bytes b).length →
      bytes (restore b start slice) = restoreBytes (bytes b) start slice

instance (headerSize trailerSize : Nat) :
    FramedBuffer (WriteVecBuffer headerSize trailerSize) where
  bytes b := b.bytes
  insertWriter := WriteVecBuffer.insertInto
  restore := WriteVecBuffer.restore
  length_bytes {b} hpos := by
    change 0 < b.bytes.length - (headerSize + trailerSize) at hpos
    change b.bytes.length =
      headerSize + (b.bytes.length - (headerSize + trailerSize)) + trailerSize
    omega
  bytes_insertWriter b index writer := by
    rw [WriteVecBuffer.insertInto, Option.map_map]
    exact Option.map_id'
  slice_eq _ _ _ := rfl
  bytes_restore _ := rfl

theorem length_restoreBytes {headerSize trailerSize : Nat} {bytes : List UInt8} {start : Nat}
    {slice : BytesSlice headerSize trailerSize}
    (hfits : start + slice.bytes.length ≤ bytes.length) :
    (restoreBytes bytes start slice).length = bytes.length := by
  simp only [restoreBytes, List.length_append, List.length_take, List.length_drop]
  omega

instance (n headerSize trailerSize : Nat) :
    FramedBuffer (WriteArrayBuffer n headerSize trailerSize) where
  bytes b := b.array.deref
  insertWriter := WriteArrayBuffer.insertInto
  restore := WriteArrayBuffer.restore
  length_bytes {b} _ := b.array.length_deref
  bytes_insertWriter b index writer := by
    rw [WriteArrayBuffer.insertInto, Option.map_map]
    cases hwrite : insertBytes headerSize b.array.deref index writer with
    | none => rfl
    | some bytes => exact congrArg some (b.deref_setBytes (length_writeAt hwrite))
  slice_eq _ _ _ := rfl
  bytes_restore {b _ _} hfits := b.deref_setBytes (length_restoreBytes hfits)

section Framed

variable {B : Type} {headerSize trailerSize : Nat}
variable [Buffer B UInt8 (BytesSlice headerSize trailerSize)] [FramedBuffer B]

open FramedBuffer

/-- The `insert_into` calls of the reserved values, in the given order. -/
def insertWriters (b : B) (order : List (Nat × WriteBytesSlice)) : Option B :=
  order.foldl (fun result placed => result.bind fun b =>
    insertWriter b placed.1 placed.2) (some b)

/-- The payload survives a header and a trailer: the holder of the slice writes them,
gives the batch back and dequeues it again.  In between the others may do anything
that leaves the batch and its lock word alone. -/
def SurvivesRequeue (T : Type x) [DecidableEq T] (b : B)
    (slice : BytesSlice headerSize trailerSize) (payload : List UInt8) : Prop :=
  ∀ header trailer : List UInt8, header.length = headerSize → trailer.length = trailerSize →
    ∃ framed, (slice.writeHeader header).bind (fun slice => slice.writeTrailer trailer) =
        some framed ∧
      ∀ (s : State T B UInt8 (BytesSlice headerSize trailerSize)) (t : T) (i : Fin 2),
        checkOverflow payload.length = true →
        s.queue.buffers i = restore b 0 framed → s.queue.buffersLength i = payload.length →
          s.pcs t = .slice i 0 payload.length framed →
        ∃ trace s₁, Runs.execute step s [(t, .requeue), (t, .run false)] =
            some (trace, s₁) ∧
          ∀ s₂ : State T B UInt8 (BytesSlice headerSize trailerSize),
            s₂.queue.buffers i = s₁.queue.buffers i →
              s₂.queue.buffersLength i = s₁.queue.buffersLength i →
              s₂.queue.dequeuingLength = s₁.queue.dequeuingLength →
              s₂.pcs t = s₁.pcs t →
            ∃ trace' s₃ slice', Runs.execute step s₂ [(t, .tryDequeue), (t, .run false),
                (t, .run false), (t, .run false)] = some (trace', s₃) ∧
              s₃.pcs t = .slice i 0 payload.length slice' ∧
              slice'.Shows header payload trailer

/-- What a byte buffer promises of values reserved one behind another and inserted in
some order. -/
structure FramesApart (T : Type x) [DecidableEq T] (b : B) (writers : List WriteBytesSlice)
    (order : List (Nat × WriteBytesSlice)) : Prop where
  /-- The insertions done so far have left every byte outside the payload alone. -/
  inserts {done rest : List (Nat × WriteBytesSlice)} : done ++ rest = order →
    ∃ b', insertWriters b done = some b' ∧ (bytes b').length = (bytes b).length ∧
      (bytes b').take headerSize = (bytes b).take headerSize ∧
      (bytes b').drop (headerSize + totalSize writers) =
        (bytes b).drop (headerSize + totalSize writers)
  /-- Once all are done the slice shows what was written, in the order of the indices,
  which for copied bytes is their concatenation. -/
  shows : ∃ b' slice header trailer, insertWriters b order = some b' ∧
    Buffer.slice b' 0 (totalSize writers) = some slice ∧
    slice.Shows header (written (bytes b) headerSize writers) trailer ∧
    (written (bytes b) headerSize writers).length = totalSize writers ∧
    SurvivesRequeue T b' slice (written (bytes b) headerSize writers)
  copied (values : List (List UInt8)) : writers = values.map WriteBytesSlice.ofBytes →
    written (bytes b) headerSize writers = values.flatten

end Framed

section Requeue

variable {T : Type x} {B : Type} {α σ : Type} [DecidableEq T] [Buffer B α σ]
variable {s : State T B α σ} {t : T} {i : Fin 2} {slice : σ}

/-- A slice given back leaves its length in the lock word. -/
theorem execute_requeue {start stop : Nat} (hpc : s.pcs t = .slice i start stop slice)
    (hlt : start < stop) :
    ∃ trace s', Runs.execute step s [(t, .requeue), (t, .run false)] = some (trace, s') ∧
      s'.queue = { s.queue with
        dequeuingLength := (DequeuingLength.new i (stop - start)).word } ∧
      s'.pcs t = .idle (some .done) := by
  have hrange : s.queue.act (.slice i start stop slice) (.requeue : Action α) = some (s.queue,
      .storeDequeuing (DequeuingLength.new i (stop - start)) .done, .silent) := by
    rw [Queue.act, requeueRange, if_neg (Nat.lt_asymm hlt), if_pos hlt]
  exact ⟨_, _, Runs.execute_cons (step_of_act hpc hrange)
    (Runs.execute_cons (step_of_act (Function.update_self _ _ _) rfl) rfl), rfl,
    Function.update_self _ _ _⟩

/-- A batch whose length is in the lock word is sliced when it is dequeued. -/
theorem execute_tryDequeue {outcome : Option (Outcome α)} {start stop : Nat}
    (hpc : s.pcs t = .idle outcome) (hlt : start < stop) (hlength : stop - start < 2 ^ 62)
    (hword : s.queue.dequeuingLength = (DequeuingLength.new i (stop - start)).word)
    (hstop : s.queue.buffersLength i = stop)
    (hslice : Buffer.slice (s.queue.buffers i) start stop = some slice) :
    ∃ trace s', Runs.execute step s [(t, .tryDequeue), (t, .run false), (t, .run false),
        (t, .run false)] = some (trace, s') ∧ s'.pcs t = .slice i start stop slice := by
  obtain ⟨hindex, hlen, hunlocked⟩ := DequeuingLength.new_spec i hlength
  let locked : Queue B := { s.queue with dequeuingLength := dequeuingLocked }
  have hlock : s.queue.act (.dequeueLock .none : Pc α σ) (.run false) = some (locked,
      .dequeueSpin i (stop - start) 0, .locked (DequeuingLength.new i (stop - start))) := by
    have hword' : DequeuingLength.tryFromAtomic s.queue.dequeuingLength =
        some (DequeuingLength.new i (stop - start)) := by
      rw [DequeuingLength.tryFromAtomic_eq_some_iff, hword]
      exact ⟨hunlocked, rfl⟩
    rw [Queue.act, Queue.run, hword']
    simp only [dequeueEntry]
    rw [if_neg (by omega), hindex, hlen]
  have hspin : locked.act (.dequeueSpin i (stop - start) 0 : Pc α σ) (.run false) =
      some (locked, .dequeueSlice i start stop, .silent) := by
    have hstop' : locked.buffersLength i = stop := hstop
    rw [Queue.act, Queue.run, hstop', if_pos (Nat.sub_le _ _),
      Nat.sub_sub_self (Nat.le_of_lt hlt)]
  have hsliced : locked.act (.dequeueSlice i start stop : Pc α σ) (.run false) =
      some (locked, .slice i start stop slice, .sliced i start stop) := by
    have hslice' : Buffer.slice (locked.buffers i) start stop = some slice := hslice
    rw [Queue.act, Queue.run, hslice']
  exact ⟨_, _, Runs.execute_cons (step_of_act hpc rfl)
    (Runs.execute_cons (step_of_act (Function.update_self _ _ _) hlock)
      (Runs.execute_cons (step_of_act (Function.update_self _ _ _) hspin)
        (Runs.execute_cons (step_of_act (Function.update_self _ _ _) hsliced) rfl))),
    Function.update_self _ _ _⟩

end Requeue

section Results

variable {B : Type} {headerSize trailerSize : Nat}
variable [Buffer B UInt8 (BytesSlice headerSize trailerSize)] [FramedBuffer B]

open FramedBuffer

theorem bytes_insertWriters (order : List (Nat × WriteBytesSlice)) (b : B) :
    (insertWriters b order).map bytes = writeAll (bytes b)
      (order.map fun placed => (headerSize + placed.1, placed.2)) := by
  suffices hall : ∀ result : Option B,
      (order.foldl (fun result placed => result.bind fun b =>
        insertWriter b placed.1 placed.2) result).map bytes =
      (order.map fun placed => (headerSize + placed.1, placed.2)).foldl
        (fun result placed => result.bind fun list => writeAt list placed.1 placed.2)
        (result.map bytes) from hall (some b)
  induction order with
  | nil => exact fun result => rfl
  | cons placed order ih =>
      intro result
      rw [List.foldl_cons, ih, List.map_cons, List.foldl_cons]
      congr 1
      cases result with
      | none => rfl
      | some b => exact bytes_insertWriter b placed.1 placed.2

theorem exists_insertWriters {order : List (Nat × WriteBytesSlice)} {b : B}
    {content : List UInt8} (hwrites : writeAll (bytes b)
      (order.map fun placed => (headerSize + placed.1, placed.2)) = some content) :
    ∃ b', insertWriters b order = some b' ∧ bytes b' = content := by
  rw [← bytes_insertWriters] at hwrites
  exact Option.map_eq_some_iff.mp hwrites

/-- The indices of the reserved values, as places in the bytes. -/
theorem map_place (writers : List WriteBytesSlice) (start : Nat) :
    (place start writers).map (fun placed => (headerSize + placed.1, placed.2)) =
      place (headerSize + start) writers := by
  induction writers generalizing start with
  | nil => rfl
  | cons writer rest ih =>
      rw [place, List.map_cons, ih, place, Nat.add_assoc]

/-- Copied bytes are written whatever was there. -/
theorem written_ofBytes (values : List (List UInt8)) {list : List UInt8} {start : Nat}
    (hfits : start + totalSize (values.map WriteBytesSlice.ofBytes) ≤ list.length) :
    written list start (values.map WriteBytesSlice.ofBytes) = values.flatten := by
  induction values generalizing start with
  | nil => rfl
  | cons value rest ih =>
      have htotal : totalSize ((value :: rest).map WriteBytesSlice.ofBytes) =
          value.length + totalSize (rest.map WriteBytesSlice.ofBytes) := rfl
      have hsize : (WriteBytesSlice.ofBytes value).size = value.length := rfl
      have hsegment : (segment list start (WriteBytesSlice.ofBytes value).size).length =
          value.length := by
        rw [length_segment (by omega), hsize]
      rw [List.map_cons, written, ih (by omega), List.flatten_cons]
      congr 1
      exact if_pos hsegment

theorem slice_of_append {b : B} {header payload trailer rest : List UInt8}
    (hbytes : bytes b = header ++ payload ++ trailer ++ rest)
    (hheader : header.length = headerSize) (htrailer : trailer.length = trailerSize) :
    Buffer.slice b 0 payload.length =
      some (⟨header ++ payload ++ trailer⟩ : BytesSlice headerSize trailerSize) := by
  have hlength : headerSize + payload.length + trailerSize =
      (header ++ payload ++ trailer).length := by
    rw [List.length_append, List.length_append, hheader, htrailer]
  rw [slice_eq, sliceBytes, hbytes, if_pos, hlength, List.take_left, List.drop_zero]
  refine ⟨Nat.zero_le _, ?_⟩
  rw [List.length_append, hlength]
  exact Nat.le_add_right _ _

theorem bytes_restore_of_append {b : B} {first rest : List UInt8}
    {slice : BytesSlice headerSize trailerSize} (hbytes : bytes b = first ++ rest)
    (hlength : slice.bytes.length = first.length) :
    bytes (restore b 0 slice) = slice.bytes ++ rest := by
  rw [bytes_restore (by rw [hbytes, List.length_append]; omega), restoreBytes, hbytes,
    hlength, Nat.zero_add, List.drop_left, List.take_zero, List.nil_append]

theorem survivesRequeue {T : Type x} [DecidableEq T] {b : B}
    {slice : BytesSlice headerSize trailerSize} {header payload trailer rest : List UInt8}
    (hbytes : bytes b = header ++ payload ++ trailer ++ rest)
    (hshows : slice.Shows header payload trailer) (hpos : 0 < payload.length) :
    SurvivesRequeue T b slice payload := by
  intro header' trailer' hheader htrailer
  refine ⟨_, hshows.write hheader htrailer, ?_⟩
  intro s t i hchecked hbuffer hlength hpc
  obtain ⟨trace, s₁, hrequeue, hqueue, hpc₁⟩ := execute_requeue hpc hpos
  refine ⟨trace, s₁, hrequeue, ?_⟩
  intro s₂ hbuffer₂ hlength₂ hword₂ hpc₂
  have hrestored : bytes (s₂.queue.buffers i) = header' ++ payload ++ trailer' ++ rest := by
    rw [hbuffer₂, hqueue, hbuffer]
    refine bytes_restore_of_append hbytes ?_
    simp only [List.length_append]
    rw [hheader, htrailer, hshows.length_header, hshows.length_trailer]
  have hbound : payload.length - 0 < 2 ^ 62 := by
    have hlt := (checkOverflow_iff _).mp hchecked
    omega
  obtain ⟨trace', s₃, hdequeue, hpc₃⟩ := execute_tryDequeue (hpc₂.trans hpc₁) hpos hbound
    (by rw [hword₂, hqueue]) (by rw [hlength₂, hqueue]; exact hlength)
    (slice_of_append hrestored hheader htrailer)
  exact ⟨trace', s₃, _, hdequeue, hpc₃, BytesSlice.shows_of_append hheader htrailer⟩

variable {b : B} {writers : List WriteBytesSlice} {order : List (Nat × WriteBytesSlice)}

theorem exists_insertWriters_inside (horder : order.Perm (place 0 writers))
    (hfits : headerSize + totalSize writers ≤ (bytes b).length)
    {done rest : List (Nat × WriteBytesSlice)} (hdone : done ++ rest = order) :
    ∃ b', insertWriters b done = some b' ∧ (bytes b').length = (bytes b).length ∧
      (bytes b').take headerSize = (bytes b).take headerSize ∧
      (bytes b').drop (headerSize + totalSize writers) =
        (bytes b).drop (headerSize + totalSize writers) := by
  have hinside : ∀ placed ∈ done.map fun placed => (headerSize + placed.1, placed.2),
      headerSize ≤ placed.1 ∧
        placed.1 + placed.2.size ≤ headerSize + totalSize writers := by
    intro placed hmem
    obtain ⟨source, hsource, rfl⟩ := List.mem_map.mp hmem
    have hbounds := mem_place_bounds (horder.mem_iff.mp
      (hdone ▸ List.mem_append_left rest hsource))
    simp only
    omega
  obtain ⟨content, hwrites, hlength, htake, hdrop⟩ := writeAll_inside _ hinside hfits
  obtain ⟨b', hinsert, hbytes⟩ := exists_insertWriters hwrites
  rw [← hbytes] at hlength htake hdrop
  exact ⟨b', hinsert, hlength, htake, hdrop⟩

theorem exists_insertWriters_all (horder : order.Perm (place 0 writers))
    (hfits : headerSize + totalSize writers ≤ (bytes b).length) :
    ∃ b', insertWriters b order = some b' ∧
      bytes b' = (bytes b).take headerSize ++ written (bytes b) headerSize writers ++
        (bytes b).drop (headerSize + totalSize writers) := by
  apply exists_insertWriters
  have hperm := horder.map fun placed => (headerSize + placed.1, placed.2)
  rw [map_place, Nat.add_zero] at hperm
  rw [writeAll_perm hperm, writeAll_place writers hfits]

theorem framesApart_of_fits (T : Type x) [DecidableEq T]
    (horder : order.Perm (place 0 writers)) (hpos : 0 < totalSize writers)
    (hfits : totalSize writers ≤ Buffer.capacity b) : FramesApart T b writers order := by
  have hlength := length_bytes (Nat.lt_of_lt_of_le hpos hfits)
  have hfits' : headerSize + totalSize writers ≤ (bytes b).length := by omega
  have hwritten := length_written writers hfits'
  refine ⟨fun hdone => exists_insertWriters_inside horder hfits' hdone, ?_, ?_⟩
  · obtain ⟨b', hinsert, hbytes⟩ := exists_insertWriters_all horder hfits'
    have hheader : ((bytes b).take headerSize).length = headerSize := by
      rw [List.length_take]
      omega
    have htrailer : (((bytes b).drop (headerSize + totalSize writers)).take
        trailerSize).length = trailerSize := by
      rw [List.length_take, List.length_drop]
      omega
    rw [← List.take_append_drop trailerSize
      ((bytes b).drop (headerSize + totalSize writers)), ← List.append_assoc] at hbytes
    have hslice := slice_of_append hbytes hheader htrailer
    have hshows : (⟨_⟩ : BytesSlice headerSize trailerSize).Shows _
        (written (bytes b) headerSize writers) _ :=
      BytesSlice.shows_of_append hheader htrailer
    rw [hwritten] at hslice
    exact ⟨b', _, _, _, hinsert, hslice, hshows, hwritten,
      survivesRequeue hbytes hshows (hwritten ▸ hpos)⟩
  · rintro values rfl
    exact written_ofBytes values hfits'

end Results

/-- Both byte buffers, whatever bytes they start with, keep the header, the payload and
the trailer of every batch apart; a buffer that was never resized has no capacity. -/
theorem framed_bytes_apart (T : Type x) [DecidableEq T] (n headerSize trailerSize : Nat)
    {writers : List WriteBytesSlice} {order : List (Nat × WriteBytesSlice)}
    (horder : order.Perm (place 0 writers)) (hpos : 0 < totalSize writers) :
    (∀ b : WriteVecBuffer headerSize trailerSize, totalSize writers ≤ b.capacity →
      FramesApart T b writers order) ∧
    (∀ b : WriteArrayBuffer n headerSize trailerSize, totalSize writers ≤ b.capacity →
      FramesApart T b writers order) ∧
    (∀ (b : WriteVecBuffer headerSize trailerSize) (capacity : Nat),
      (b.resize capacity).capacity = capacity) ∧
    (WriteVecBuffer.default : WriteVecBuffer headerSize trailerSize).capacity = 0 :=
  ⟨fun _ hfits => framesApart_of_fits T horder hpos hfits,
    fun _ hfits => framesApart_of_fits T horder hpos hfits,
    WriteVecBuffer.capacity_resize, WriteVecBuffer.capacity_default⟩

/-- A value of two bytes and one of a single byte, inserted last to first into a used
buffer. -/
theorem framed_bytes_apart_reversed :
    FramesApart Unit (⟨[9, 8, 7, 6, 5, 4]⟩ : WriteVecBuffer 1 2)
      [WriteBytesSlice.ofBytes [1, 2], WriteBytesSlice.ofBytes [3]]
      [(2, WriteBytesSlice.ofBytes [3]), (0, WriteBytesSlice.ofBytes [1, 2])] :=
  (framed_bytes_apart Unit 3 1 2 (List.Perm.swap _ _ _) (by decide)).1 _ (by decide)

end SwapBufferQueue
