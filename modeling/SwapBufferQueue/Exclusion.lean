/-
Exclusive access to the buffers: what the safety comments of the unsafe code rely
on.  One activity at a time holds the dequeuing lock, the buffer it works on has no
reservation in flight, and reservations in one buffer never overlap.
-/
import SwapBufferQueue.Reachable
import SwapBufferQueue.CellBuffer

namespace SwapBufferQueue

universe u v w x

open Tiling

variable {T : Type x} {B : Type u} {α : Type v} {σ : Type w} [Buffer B α σ]

/-- The buffer that the holder is about to resize, fill, slice, drain or clear.  A
live slice or iterator has its buffer all along. -/
def Pc.accesses : Pc α σ → Option (Fin 2)
  | .dequeueResize dequeuing _ => some dequeuing.bufferIndex
  | .dequeueInsert dequeuing _ _ _ => some dequeuing.bufferIndex
  | .dequeueSlice i _ _ => some i
  | .slice i _ _ _ => some i
  | .iter i _ _ => some i
  | .releaseClear i _ _ => some i
  | _ => none

/-- The value and the word of an enqueuer between its reservation and its
acknowledgement. -/
def Pc.inFlight : Pc α σ → Option (List α × EnqueuingCapacity)
  | .enqueueInsert value enqueuing => some (value, enqueuing)
  | .enqueueAcknowledge value enqueuing => some (value, enqueuing)
  | _ => none

/-- The activity has a reservation in flight over the cells `[first, last)`. -/
def Reserves (s : State T B α σ) (t : T) (i : Fin 2) (first last : Nat) : Prop :=
  ∃ value enqueuing, (s.pcs t).inFlight = some (value, enqueuing) ∧
    enqueuing.bufferIndex = i ∧
    first = Buffer.capacity (s.queue.buffers i) - enqueuing.remainingCapacity ∧
    last = first + value.length

/-- What an unlocked dequeuing word promises to the next dequeue. -/
structure UnlockedOk (s : State T B α σ) (dequeuing : DequeuingLength) : Prop where
  index_ne : dequeuing.bufferIndex ≠ s.queue.enqueuingCapacity.bufferIndex
  vacant : dequeuing.bufferLen = 0 → s.queue.buffersLength dequeuing.bufferIndex = 0 ∧
    ∀ t first last, ¬ Reserves s t dequeuing.bufferIndex first last
  pending : ∀ t first last, Reserves s t dequeuing.bufferIndex first last →
    last ≤ dequeuing.bufferLen ∧
      s.queue.buffersLength dequeuing.bufferIndex < dequeuing.bufferLen

variable [LawfulBuffer B] {s : State T B α σ} {g : Ledger T α} {t : T}

theorem Sim.at_of_reserves (hsim : Sim s g) {i : Fin 2} {first last : Nat}
    (hreserves : Reserves s t i first last) :
    ∃ tile, At (g.tiles i) first tile ∧ tile.tag.owner = some t ∧
      last = first + tile.elems.length ∧
        last ≤ Buffer.capacity (s.queue.buffers i) := by
  obtain ⟨value, enqueuing, hpc, rfl, rfl, rfl⟩ := hreserves
  have hthread := hsim.thread t
  generalize s.pcs t = pc at hpc hthread
  cases pc with
  | enqueueInsert value' enqueuing' =>
      cases hpc
      have hfits : value.length ≤ enqueuing.remainingCapacity := hthread.fits
      have hle := hthread.remaining_le
      exact ⟨⟨.reserved t, value⟩, hthread.at_index, rfl, rfl, by omega⟩
  | enqueueAcknowledge value' enqueuing' =>
      cases hpc
      have hfits : value.length ≤ enqueuing.remainingCapacity := hthread.fits
      have hle := hthread.remaining_le
      exact ⟨⟨.written t, value⟩, hthread.at_index, rfl, rfl, by omega⟩
  | _ => cases hpc

/-- A buffer whose tiles all have no owner has no reservation in flight. -/
theorem Sim.not_reserves (hsim : Sim s g) {i : Fin 2}
    (howner : ∀ tile ∈ g.tiles i, tile.tag.owner = none) (t : T) (first last : Nat) :
    ¬ Reserves s t i first last := by
  intro hreserves
  obtain ⟨tile, hat, hown, -⟩ := hsim.at_of_reserves hreserves
  rw [howner tile hat.mem] at hown
  cases hown

theorem Sim.accesses_spec (hsim : Sim s g) {i : Fin 2}
    (haccess : (s.pcs t).accesses = some i) :
    i ≠ g.enqueuing ∧ ∀ tile ∈ g.tiles i, tile.tag.owner = none := by
  have hthread := hsim.thread t
  have hhidden : ∀ {dequeuing length}, Hidden s.queue g dequeuing .staged length →
      ∀ tile ∈ g.tiles dequeuing.bufferIndex, tile.tag.owner = none := by
    intro dequeuing length hhidden tile htile
    rw [hhidden.tags tile htile]
    rfl
  have hrange : ∀ {i start stop}, Range s.queue g i start stop →
      ∀ tile ∈ g.tiles i, tile.tag.owner = none := by
    intro i start stop hrange tile htile
    rw [hrange.settled tile htile]
    rfl
  generalize s.pcs t = pc at haccess hthread
  cases pc with
  | dequeueResize _ _ =>
      cases haccess
      exact ⟨hthread.other, hhidden hthread⟩
  | dequeueInsert _ _ _ _ =>
      cases haccess
      exact ⟨hthread.other, hhidden hthread⟩
  | dequeueSlice _ _ _ =>
      cases haccess
      exact ⟨hthread.other, hrange hthread⟩
  | slice _ _ _ _ =>
      cases haccess
      exact ⟨hthread.1.other, hrange hthread.1⟩
  | iter _ _ _ =>
      cases haccess
      exact ⟨hthread.other, hrange hthread⟩
  | releaseClear _ _ _ =>
      cases haccess
      exact ⟨hthread.other, hrange hthread⟩
  | _ => cases haccess

/-- A stored batch with a reservation in flight is not yet complete. -/
theorem Sim.unlockedOk (hsim : Sim s g)
    (hopen : s.queue.dequeuingLength ≠ dequeuingLocked) :
    UnlockedOk s ⟨s.queue.dequeuingLength⟩ := by
  have hstored := hsim.stored hopen
  have hbatch := hstored.batch
  have hadd := hbatch.length_add
  have hlength := hsim.shared.length
    (DequeuingLength.mk s.queue.dequeuingLength).bufferIndex
  refine ⟨?_, ?_, ?_⟩
  · rw [← hsim.shared.enqueuing]
    exact hbatch.other
  · intro hzero
    rw [hzero, hstored.vacant hzero] at hadd
    have hnil := hsim.shared.tiles_eq_nil hadd.symm
    refine ⟨?_, hsim.not_reserves ?_⟩
    · rw [hlength, hnil]
      rfl
    · rw [hnil]
      simp
  · intro t first last hreserves
    obtain ⟨tile, hat, hown, rfl, -⟩ := hsim.at_of_reserves hreserves
    have hend := hat.le_extent
    have hfits := hbatch.fits
    have hcapacity := hsim.shared.capacity_lt
      (DequeuingLength.mk s.queue.dequeuingLength).bufferIndex
    have hweight := weight_le_extent Status.counted
      (g.tiles (DequeuingLength.mk s.queue.dequeuingLength).bufferIndex)
    rcases hbatch.settled with htaken | hsettled
    · rw [htaken, Nat.add_zero] at hadd
      refine ⟨hadd ▸ hend, ?_⟩
      rw [Nat.mod_eq_of_lt (by omega)] at hlength
      by_contra hfull
      -- If everything were counted, this tile would have no owner.
      have hall := all_of_extent_le_weight (P := Status.counted)
        (hsim.shared.nonempty _) (by omega) tile hat.mem
      generalize tile.tag = tag at hown hall
      cases tag <;> cases hall <;> cases hown
    · rw [hsettled tile hat.mem] at hown
      cases hown

variable [DecidableEq T]

/-- Exclusive access.  The dequeuing word is locked exactly when one activity holds
the lock, and never two do; the buffer the holder works on is not the enqueuing one
and has no reservation in flight; reservations in flight lie in their buffer, apart
from each other and from the acknowledged ones; and an unlocked word stands for a
vacant buffer or for a batch that contains all that is still in flight in it. -/
theorem exclusive_buffer_access {start s : State T B α σ} (hinitial : Initial start)
    {trace : List ((T × Action α) × Event α)}
    (hrun : Runs.Run SwapBufferQueue.step SizeOk start trace s) :
    ((s.queue.dequeuingLength = dequeuingLocked ↔ ∃ t, (s.pcs t).holds = true) ∧
      ∀ t t', (s.pcs t).holds = true → (s.pcs t').holds = true → t = t') ∧
    (∀ t i, (s.pcs t).accesses = some i →
      i ≠ s.queue.enqueuingCapacity.bufferIndex ∧
        ∀ t' first last, ¬ Reserves s t' i first last) ∧
    (∀ t i first last, Reserves s t i first last →
      last ≤ Buffer.capacity (s.queue.buffers i) ∧
      (∀ t' first' last', t' ≠ t → Reserves s t' i first' last' →
        last ≤ first' ∨ last' ≤ first) ∧
      ∀ position tile, At ((Ledger.ofTrace trace).tiles i) position tile →
        tile.tag = .acknowledged →
          last ≤ position ∨ position + tile.elems.length ≤ first) ∧
    (s.queue.dequeuingLength ≠ dequeuingLocked →
      UnlockedOk s ⟨s.queue.dequeuingLength⟩) := by
  have hsim := sim_of_run hinitial (fun _ _ hsize => hsize) hrun
  refine ⟨⟨hsim.locked_iff, fun _ _ => hsim.exclusive⟩, ?_, ?_, hsim.unlockedOk⟩
  · intro t i haccess
    obtain ⟨hother, howner⟩ := hsim.accesses_spec haccess
    exact ⟨hsim.shared.enqueuing ▸ hother, hsim.not_reserves howner⟩
  · intro t i first last hreserves
    obtain ⟨tile, hat, hown, rfl, hle⟩ := hsim.at_of_reserves hreserves
    refine ⟨hle, ?_, ?_⟩
    · intro t' first' last' hne hreserves'
      obtain ⟨tile', hat', hown', rfl, -⟩ := hsim.at_of_reserves hreserves'
      rcases hat.separate hat' with ⟨-, rfl⟩ | hlt | hlt
      · rw [hown] at hown'
        exact absurd (Option.some.inj hown').symm hne
      · exact Or.inl hlt
      · exact Or.inr hlt
    · intro position acknowledged hat' htag
      rcases hat.separate hat' with ⟨-, rfl⟩ | hlt | hlt
      · rw [htag] at hown
        cases hown
      · exact Or.inl hlt
      · exact Or.inr hlt

/-- A dequeue that finds a reservation in flight while another one goes on. -/
theorem exclusive_buffer_access_pending_batch :
    ∃ (start : State Nat (VecBuffer Nat) Nat (List Nat)) (trace : _)
        (s : State Nat (VecBuffer Nat) Nat (List Nat)),
      Initial start ∧ Runs.Run SwapBufferQueue.step SizeOk start trace s ∧
      (s.pcs 0).inFlight.isSome = true ∧ (s.pcs 1).inFlight.isSome = true ∧
      s.queue.dequeuingLength = dequeuingLocked ∧
      ∀ t t', (s.pcs t).holds = true → (s.pcs t').holds = true → t = t' := by
  have hrun := Runs.run_of_isSome SwapBufferQueue.step SizeOk
    (State.ofQueue ((Queue.withCapacity 2).get (by decide +kernel)) :
      State Nat (VecBuffer Nat) Nat (List Nat))
    (List.flatten [
      [(0, .tryEnqueue [7, 8]), (0, .run false), (0, .run false), (2, .tryDequeue)],
      List.replicate 9 (2, .run false),
      [(1, .tryEnqueue [9]), (1, .run false), (1, .run false)]])
    (by decide +kernel) (by decide +kernel)
  have hinitial := initial_withCapacity (T := Nat) (B := VecBuffer Nat)
    (show (Queue.withCapacity 2).isSome = true by decide +kernel)
  refine ⟨_, _, _, hinitial, hrun, by decide +kernel, by decide +kernel,
    by decide +kernel, ?_⟩
  exact (exclusive_buffer_access hinitial hrun).1.2

end SwapBufferQueue
