/-
Streams of frames, each with its length in a header of a fixed size.  A header may not
tell all lengths apart; a stream is read back exactly when it does so for the lengths
in it.
-/
import Mathlib.Tactic

namespace Framing

universe u

/-- A header of a fixed size, as it is written and as it is read. -/
structure Header (α : Type u) where
  size : Nat
  pos : 0 < size
  put : Nat → List α
  get : List α → Nat
  length_put (length : Nat) : (put length).length = size

variable {α : Type u}

namespace Header

def encode (header : Header α) (payload : List α) : List α :=
  header.put payload.length ++ payload

/-- The payloads of a stream of frames.  Every frame takes some of the fuel. -/
def decodeFuel (header : Header α) : Nat → List α → Option (List (List α))
  | _, [] => some []
  | 0, _ :: _ => none
  | fuel + 1, first :: rest =>
      let body := (first :: rest).drop header.size
      let length := header.get ((first :: rest).take header.size)
      if (first :: rest).length < header.size ∨ body.length < length then none
      else (header.decodeFuel fuel (body.drop length)).map (body.take length :: ·)

def decode (header : Header α) (stream : List α) : Option (List (List α)) :=
  header.decodeFuel stream.length stream

/-- The header is read as it was written. -/
def Tells (header : Header α) (length : Nat) : Prop :=
  header.get (header.put length) = length

variable {header : Header α}

theorem decodeFuel_encode_append (fuel : Nat) (payload rest : List α) :
    header.decodeFuel (fuel + 1) (header.encode payload ++ rest) =
      if (payload ++ rest).length < header.get (header.put payload.length) then none
      else (header.decodeFuel fuel ((payload ++ rest).drop
        (header.get (header.put payload.length)))).map
          ((payload ++ rest).take (header.get (header.put payload.length)) :: ·) := by
  have hput := header.length_put payload.length
  have hpos := header.pos
  have hstream : header.encode payload ++ rest = header.put payload.length ++ (payload ++ rest) :=
    List.append_assoc _ _ _
  rw [hstream]
  generalize header.put payload.length = front at hput
  generalize payload ++ rest = body
  cases front with
  | nil =>
      rw [List.length_nil] at hput
      omega
  | cons first front =>
      have hdrop : ((first :: front) ++ body).drop header.size = body := by
        rw [← hput, List.drop_left]
      have htake : ((first :: front) ++ body).take header.size = first :: front := by
        rw [← hput, List.take_left]
      rw [List.cons_append] at hdrop htake
      rw [List.cons_append, decodeFuel]
      simp only [hdrop, htake]
      have hlong : ¬ (first :: (front ++ body)).length < header.size := by
        rw [← List.cons_append, List.length_append]
        omega
      simp only [or_iff_right hlong]

/-- A stream is read back exactly when its header tells every length in it. -/
theorem decodeFuel_flatMap_encode_iff {payloads : List (List α)} {fuel : Nat}
    (hfuel : (payloads.flatMap header.encode).length ≤ fuel) :
    header.decodeFuel fuel (payloads.flatMap header.encode) = some payloads ↔
      ∀ payload ∈ payloads, header.Tells payload.length := by
  induction payloads generalizing fuel with
  | nil => simp [decodeFuel]
  | cons payload rest ih =>
      have hpos := header.pos
      have hput := header.length_put payload.length
      rw [List.flatMap_cons] at hfuel ⊢
      have hlength : (header.encode payload).length = header.size + payload.length := by
        rw [encode, List.length_append, hput]
      rw [List.length_append] at hfuel
      obtain ⟨fuel, rfl⟩ : ∃ fuel', fuel = fuel' + 1 := ⟨fuel - 1, by omega⟩
      rw [decodeFuel_encode_append, List.forall_mem_cons, ← ih (by omega : _ ≤ fuel)]
      constructor
      · intro hdecoded
        split at hdecoded
        · cases hdecoded
        · rename_i hlong
          rw [Option.map_eq_some_iff] at hdecoded
          obtain ⟨payloads, hrest, hboth⟩ := hdecoded
          obtain ⟨hfirst, rfl⟩ := List.cons.inj hboth
          have htells : header.Tells payload.length := by
            have htaken := congrArg List.length hfirst
            rw [List.length_take] at htaken
            rw [Tells]
            omega
          refine ⟨htells, ?_⟩
          rwa [htells, List.drop_left] at hrest
      · rintro ⟨htells, hrest⟩
        rw [htells, if_neg (by rw [List.length_append]; omega), List.drop_left,
          List.take_left, hrest]
        rfl

theorem decode_flatMap_encode_iff (payloads : List (List α)) :
    header.decode (payloads.flatMap header.encode) = some payloads ↔
      ∀ payload ∈ payloads, header.Tells payload.length :=
  decodeFuel_flatMap_encode_iff le_rfl

end Header

end Framing
