/-
The abstract queue.  A ledger keeps, for each of the two buffers, the values laid
in it one after another, with what has happened to each of them since its
reservation, and the two histories the queue is about: the values accepted, in
order, and the elements consumed.  It is a function of the events alone.
-/
import SwapBufferQueue.Machine
import SwapBufferQueue.Lib.Tiling

namespace SwapBufferQueue

universe v x

open Tiling

variable {T : Type x} {α : Type v}

/-- What happened to a value laid in a buffer.  A reserved value belongs to the
activity that reserved it until it is acknowledged; a staged value was inserted
by the dequeuer in the hidden buffer and is published before the swap. -/
inductive Status (T : Type x) where
  | reserved (owner : T)
  | written (owner : T)
  | staged
  | published
  | acknowledged
deriving Repr, DecidableEq

namespace Status

def owner : Status T → Option T
  | .reserved t => some t
  | .written t => some t
  | _ => none

/-- The values counted by `buffers_length`. -/
def counted : Status T → Bool
  | .published => true
  | .acknowledged => true
  | _ => false

/-- The values of the hidden buffer, which are not yet part of the queue. -/
def hidden : Status T → Bool
  | .staged => true
  | .published => true
  | _ => false

/-- The values whose cells are not written yet. -/
def unwritten : Status T → Bool
  | .reserved _ => true
  | _ => false

theorem eq_acknowledged {status : Status T} (hcounted : status.counted = true)
    (hvisible : status.hidden = false) : status = .acknowledged := by
  cases status <;> simp_all [counted, hidden]

variable [DecidableEq T]

def write (t : T) (status : Status T) : Status T :=
  if status = .reserved t then .written t else status

def acknowledge (t : T) (status : Status T) : Status T :=
  if status = .written t then .acknowledged else status

def publish (status : Status T) : Status T :=
  if status = .staged then .published else status

def expose (status : Status T) : Status T :=
  if status = .published then .acknowledged else status

theorem hidden_write (t : T) (status : Status T) :
    (status.write t).hidden = status.hidden := by
  unfold write
  split <;> simp_all [hidden]

theorem counted_write (t : T) (status : Status T) :
    (status.write t).counted = status.counted := by
  unfold write
  split <;> simp_all [counted]

theorem hidden_acknowledge (t : T) (status : Status T) :
    (status.acknowledge t).hidden = status.hidden := by
  unfold acknowledge
  split <;> simp_all [hidden]

theorem unwritten_acknowledge (t : T) (status : Status T) :
    (status.acknowledge t).unwritten = status.unwritten := by
  unfold acknowledge
  split <;> simp_all [unwritten]

theorem counted_acknowledge (t : T) (status : Status T) :
    (status.acknowledge t).counted =
      (status.counted || decide (status = .written t)) := by
  unfold acknowledge
  split <;> simp_all [counted]

theorem hidden_publish (status : Status T) :
    (status.publish).hidden = status.hidden := by
  unfold publish
  split <;> simp_all [hidden]

theorem unwritten_publish (status : Status T) :
    (status.publish).unwritten = status.unwritten := by
  unfold publish
  split <;> simp_all [unwritten]

theorem counted_expose (status : Status T) :
    (status.expose).counted = status.counted := by
  unfold expose
  split <;> simp_all [counted]

theorem unwritten_expose (status : Status T) :
    (status.expose).unwritten = status.unwritten := by
  unfold expose
  split <;> simp_all [unwritten]

/-- The changes of status that leave the values owned by `t` alone. -/
def Fixes (t : T) (f : Status T → Status T) : Prop :=
  ∀ status, (f status).owner = some t ∨ status.owner = some t → f status = status

theorem fixes_write {t t' : T} (hne : t' ≠ t) : Fixes t' (write t) := by
  intro status
  unfold write
  split
  · rename_i heq
    subst heq
    simp [owner, hne.symm]
  · exact fun _ => rfl

theorem fixes_acknowledge {t t' : T} (hne : t' ≠ t) : Fixes t' (acknowledge t) := by
  intro status
  unfold acknowledge
  split
  · rename_i heq
    subst heq
    simp [owner, hne.symm]
  · exact fun _ => rfl

theorem fixes_publish (t : T) : Fixes t publish := by
  intro status
  unfold publish
  split
  · rename_i heq
    subst heq
    simp [owner]
  · exact fun _ => rfl

theorem fixes_expose (t : T) : Fixes t expose := by
  intro status
  unfold expose
  split
  · rename_i heq
    subst heq
    simp [owner]
  · exact fun _ => rfl

omit [DecidableEq T] in
theorem Fixes.at_retag_iff {t : T} {f : Status T → Status T} (hfixes : Fixes t f)
    {tiles : List (Tile (Status T) α)} {position : Nat} {tile : Tile (Status T) α}
    (hown : tile.tag.owner = some t) :
    At (retag f tiles) position tile ↔ At tiles position tile := by
  rw [Tiling.at_retag_iff]
  constructor
  · rintro ⟨old, hat, rfl⟩
    have hfix := hfixes old.tag (Or.inl hown)
    rwa [show (⟨f old.tag, old.elems⟩ : Tile (Status T) α) = old by rw [hfix]]
  · intro hat
    exact ⟨tile, hat, by rw [hfixes tile.tag (Or.inr hown)]⟩

end Status

/-- The buffer that is not the given one. -/
def other (i : Fin 2) : Fin 2 := i.rev

theorem other_ne (i : Fin 2) : other i ≠ i := by
  revert i
  decide

theorem eq_other_of_ne {i j : Fin 2} (hne : i ≠ j) : i = other j := by
  revert i j
  decide

@[simp]
theorem other_other (i : Fin 2) : other (other i) = i := by
  revert i
  decide

structure Ledger (T : Type x) (α : Type v) where
  tiles : Fin 2 → List (Tile (Status T) α)
  enqueuing : Fin 2
  /-- How many elements of the dequeuing buffer have been consumed. -/
  taken : Nat
  closed : Bool
  accepted : List (List α)
  consumed : List α

namespace Ledger

def empty : Ledger T α :=
  ⟨fun _ => [], ⟨0, Nat.zero_lt_two⟩, 0, false, [], []⟩

/-- The elements of the batch being dequeued that have not been consumed. -/
def batch (g : Ledger T α) : List α :=
  (contents ((g.tiles (other g.enqueuing)).filter
    fun tile => !tile.tag.hidden)).drop g.taken

/-- The elements of the enqueuing buffer. -/
def tail (g : Ledger T α) : List α :=
  contents (g.tiles g.enqueuing)

/-- The first cell of a buffer whose element has not been consumed. -/
def lower (g : Ledger T α) (i : Fin 2) : Nat :=
  if i = g.enqueuing then 0 else g.taken

def setTiles (g : Ledger T α) (i : Fin 2) (tiles : List (Tile (Status T) α)) :
    Ledger T α :=
  { g with tiles := Function.update g.tiles i tiles }

@[simp]
theorem tiles_setTiles (g : Ledger T α) (i j : Fin 2)
    (tiles : List (Tile (Status T) α)) :
    (g.setTiles i tiles).tiles j = if j = i then tiles else g.tiles j := by
  by_cases hj : j = i
  · subst hj
    simp [setTiles]
  · simp [setTiles, hj]

theorem at_append_tile_iff {g : Ledger T α} {i j : Fin 2} {last tile : Tile (Status T) α}
    {position : Nat} :
    At ((g.setTiles i (g.tiles i ++ [last])).tiles j) position tile ↔
      At (g.tiles j) position tile ∨
        (j = i ∧ position = extent (g.tiles i) ∧ tile = last) := by
  rw [tiles_setTiles]
  split
  · rename_i hj
    subst hj
    simp [at_append_singleton_iff]
  · rename_i hj
    simp [hj]

theorem at_retag_tiles_iff {g : Ledger T α} {i j : Fin 2} {f : Status T → Status T}
    {tile : Tile (Status T) α} {position : Nat} :
    At ((g.setTiles i (retag f (g.tiles i))).tiles j) position tile ↔
      ∃ old, At (g.tiles j) position old ∧
        tile = ⟨if j = i then f old.tag else old.tag, old.elems⟩ := by
  rw [tiles_setTiles]
  split
  · rename_i hj
    subst hj
    exact at_retag_iff
  · constructor
    · exact fun hat => ⟨tile, hat, rfl⟩
    · rintro ⟨old, hat, rfl⟩
      exact hat

theorem extent_retag_tiles (g : Ledger T α) (i j : Fin 2) (f : Status T → Status T) :
    extent ((g.setTiles i (retag f (g.tiles i))).tiles j) = extent (g.tiles j) := by
  rw [tiles_setTiles]
  split
  · rename_i hj
    rw [extent_retag, hj]
  · rfl

theorem contents_retag_tiles (g : Ledger T α) (i j : Fin 2) (f : Status T → Status T) :
    contents ((g.setTiles i (retag f (g.tiles i))).tiles j) = contents (g.tiles j) := by
  rw [tiles_setTiles]
  split
  · rename_i hj
    rw [contents_retag, hj]
  · rfl

theorem batch_retag {g : Ledger T α} (i : Fin 2) {f : Status T → Status T}
    (hhidden : ∀ tag, (f tag).hidden = tag.hidden) :
    (g.setTiles i (retag f (g.tiles i))).batch = g.batch := by
  change (contents (((g.setTiles i (retag f (g.tiles i))).tiles
    (other g.enqueuing)).filter fun tile => !tile.tag.hidden)).drop g.taken = _
  rw [tiles_setTiles]
  split
  · rename_i hi
    have hkeep : ∀ tag : Status T, (!(f tag).hidden) = !tag.hidden :=
      fun tag => by rw [hhidden]
    rw [contents_filter_retag (P := fun tag : Status T => !tag.hidden) hkeep, ← hi]
    rfl
  · rfl

theorem batch_eq_of_visible {g : Ledger T α} {i : Fin 2} (hother : i ≠ g.enqueuing)
    (hvisible : ∀ tile ∈ g.tiles i, tile.tag.hidden = false) :
    g.batch = (contents (g.tiles i)).drop g.taken := by
  have hi := eq_other_of_ne hother
  rw [batch, ← hi, List.filter_eq_self.mpr]
  intro tile htile
  rw [hvisible tile htile, Bool.not_false]

theorem batch_eq_nil_of_hidden {g : Ledger T α} {i : Fin 2} (hother : i ≠ g.enqueuing)
    (hhidden : ∀ tile ∈ g.tiles i, tile.tag.hidden = true) : g.batch = [] := by
  have hi := eq_other_of_ne hother
  rw [batch, ← hi, List.filter_eq_nil_iff.mpr, contents_nil, List.drop_nil]
  intro tile htile
  simp [hhidden tile htile]

variable [DecidableEq T]

/-- The effect of an event shown by an activity. -/
def next (g : Ledger T α) (t : T) : Event α → Ledger T α
  | .reserved i value =>
      { g.setTiles i (g.tiles i ++ [⟨.reserved t, value⟩]) with
        accepted := g.accepted ++ [value] }
  | .inserted i _ => g.setTiles i (retag (Status.write t) (g.tiles i))
  | .acknowledged i _ => g.setTiles i (retag (Status.acknowledge t) (g.tiles i))
  | .staged i value => g.setTiles i (g.tiles i ++ [⟨.staged, value⟩])
  | .published i => g.setTiles i (retag Status.publish (g.tiles i))
  | .swapped i =>
      { g.setTiles i (retag Status.expose (g.tiles i)) with
        enqueuing := i
        accepted := g.accepted ++ (g.tiles i).map Tile.elems }
  | .consumed _ values =>
      { g with taken := g.taken + values.length, consumed := g.consumed ++ values }
  | .released i => { g.setTiles i [] with taken := 0 }
  | .closed => { g with closed := true }
  | .reopened => { g with closed := false }
  | .silent | .locked _ | .resized _ _ | .foundEmpty _ | .sliced _ _ _
  | .unlocked _ => g

section Next

variable (g : Ledger T α) (t : T) (i j : Fin 2) (value : List α)

@[simp]
theorem tiles_reserved : (g.next t (.reserved i value)).tiles j =
    if j = i then g.tiles i ++ [⟨.reserved t, value⟩] else g.tiles j :=
  tiles_setTiles g i j _

@[simp]
theorem tiles_inserted : (g.next t (.inserted i value)).tiles j =
    if j = i then retag (Status.write t) (g.tiles i) else g.tiles j :=
  tiles_setTiles g i j _

@[simp]
theorem tiles_acknowledged : (g.next t (.acknowledged i value)).tiles j =
    if j = i then retag (Status.acknowledge t) (g.tiles i) else g.tiles j :=
  tiles_setTiles g i j _

@[simp]
theorem tiles_staged : (g.next t (.staged i value)).tiles j =
    if j = i then g.tiles i ++ [⟨.staged, value⟩] else g.tiles j :=
  tiles_setTiles g i j _

@[simp]
theorem tiles_published : (g.next t (.published i)).tiles j =
    if j = i then retag Status.publish (g.tiles i) else g.tiles j :=
  tiles_setTiles g i j _

@[simp]
theorem tiles_swapped : (g.next t (.swapped i)).tiles j =
    if j = i then retag Status.expose (g.tiles i) else g.tiles j :=
  tiles_setTiles g i j _

@[simp]
theorem tiles_released : (g.next t (.released i)).tiles j =
    if j = i then [] else g.tiles j :=
  tiles_setTiles g i j _

end Next

/-- The ledger after more steps. -/
def after (g : Ledger T α) (more : List ((T × Action α) × Event α)) : Ledger T α :=
  more.foldl (fun g entry => g.next entry.1.1 entry.2) g

theorem after_append (g : Ledger T α) (first second : List ((T × Action α) × Event α)) :
    g.after (first ++ second) = (g.after first).after second :=
  List.foldl_append

/-- The ledger after a trace. -/
def ofTrace (trace : List ((T × Action α) × Event α)) : Ledger T α :=
  trace.foldl (fun g entry => g.next entry.1.1 entry.2) empty

@[simp]
theorem ofTrace_nil : ofTrace ([] : List ((T × Action α) × Event α)) = empty := rfl

theorem ofTrace_append (first second : List ((T × Action α) × Event α)) :
    ofTrace (first ++ second) = (ofTrace first).after second :=
  List.foldl_append

theorem ofTrace_append_singleton (trace : List ((T × Action α) × Event α))
    (label : T × Action α) (event : Event α) :
    ofTrace (trace ++ [(label, event)]) = (ofTrace trace).next label.1 event := by
  simp [ofTrace]

end Ledger

/-- The values whose reservation succeeded, in the order of the reservations. -/
def reservedValues (trace : List ((T × Action α) × Event α)) : List (List α) :=
  trace.filterMap fun entry =>
    match entry.2 with
    | .reserved _ value => some value
    | _ => none

/-- The elements consumed by iterators and slice drops, in order. -/
def consumedElements (trace : List ((T × Action α) × Event α)) : List α :=
  trace.flatMap fun entry =>
    match entry.2 with
    | .consumed _ values => values
    | _ => []

theorem consumedElements_append (first second : List ((T × Action α) × Event α)) :
    consumedElements (first ++ second) =
      consumedElements first ++ consumedElements second :=
  List.flatMap_append

theorem consumedElements_singleton_eq_nil (label : T × Action α) {event : Event α}
    (hconsume : ∀ i values, event ≠ .consumed i values) :
    consumedElements [(label, event)] = [] := by
  cases event with
  | consumed i values => exact absurd rfl (hconsume i values)
  | _ => rfl

theorem Ledger.consumed_ofTrace [DecidableEq T]
    (trace : List ((T × Action α) × Event α)) :
    (Ledger.ofTrace trace).consumed = consumedElements trace := by
  induction trace using List.reverseRecOn with
  | nil => rfl
  | append_singleton trace entry ih =>
      obtain ⟨label, event⟩ := entry
      rw [Ledger.ofTrace_append_singleton, consumedElements, List.flatMap_append]
      rw [consumedElements] at ih
      cases event <;> simp [Ledger.next, Ledger.setTiles, ih]

end SwapBufferQueue
