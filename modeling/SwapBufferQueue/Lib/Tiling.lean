/-
Tilings of an initial segment of the naturals by tagged lists.  The tiles are
laid one after another from zero, so the position of a tile is the total length
of those before it: two tiles never overlap, and every position below the extent
lies in exactly one tile.  Tags record what happened to a tile since it was laid.
-/
import Mathlib.Tactic

namespace Tiling

universe u v

variable {κ : Type u} {α : Type v}

/-- A tagged list. -/
structure Tile (κ : Type u) (α : Type v) where
  tag : κ
  elems : List α
deriving Repr, DecidableEq

/-- The elements of all tiles, in order. -/
def contents (tiles : List (Tile κ α)) : List α :=
  (tiles.map Tile.elems).flatten

/-- The first position that is not covered. -/
def extent (tiles : List (Tile κ α)) : Nat :=
  (contents tiles).length

/-- The number of positions covered by tiles whose tag is in `P`. -/
def weight (P : κ → Bool) (tiles : List (Tile κ α)) : Nat :=
  extent (tiles.filter fun tile => P tile.tag)

/-- The tile lies at the position. -/
def At (tiles : List (Tile κ α)) (position : Nat) (tile : Tile κ α) : Prop :=
  ∃ before after, tiles = before ++ tile :: after ∧ extent before = position

/-- Change the tags and leave the elements alone. -/
def retag (f : κ → κ) (tiles : List (Tile κ α)) : List (Tile κ α) :=
  tiles.map fun tile => ⟨f tile.tag, tile.elems⟩

@[simp]
theorem contents_nil : contents ([] : List (Tile κ α)) = [] := rfl

@[simp]
theorem contents_cons (tile : Tile κ α) (tiles : List (Tile κ α)) :
    contents (tile :: tiles) = tile.elems ++ contents tiles := by
  simp [contents]

@[simp]
theorem contents_append (first second : List (Tile κ α)) :
    contents (first ++ second) = contents first ++ contents second := by
  simp [contents]

@[simp]
theorem extent_nil : extent ([] : List (Tile κ α)) = 0 := rfl

@[simp]
theorem extent_cons (tile : Tile κ α) (tiles : List (Tile κ α)) :
    extent (tile :: tiles) = tile.elems.length + extent tiles := by
  simp [extent]

@[simp]
theorem extent_append (first second : List (Tile κ α)) :
    extent (first ++ second) = extent first + extent second := by
  simp [extent]

@[simp]
theorem contents_retag (f : κ → κ) (tiles : List (Tile κ α)) :
    contents (retag f tiles) = contents tiles := by
  induction tiles with
  | nil => rfl
  | cons tile tiles ih => simpa [retag] using ih

@[simp]
theorem extent_retag (f : κ → κ) (tiles : List (Tile κ α)) :
    extent (retag f tiles) = extent tiles := by
  simp [extent]

theorem mem_retag_iff {f : κ → κ} {tiles : List (Tile κ α)} {tile : Tile κ α} :
    tile ∈ retag f tiles ↔ ∃ old ∈ tiles, tile = ⟨f old.tag, old.elems⟩ := by
  simp [retag, eq_comm]

/-- A retagging that keeps a property of the tags keeps the elements of the tiles
that have it. -/
theorem contents_filter_retag {P : κ → Bool} {f : κ → κ}
    (hkeep : ∀ tag, P (f tag) = P tag) (tiles : List (Tile κ α)) :
    contents ((retag f tiles).filter fun tile => P tile.tag) =
      contents (tiles.filter fun tile => P tile.tag) := by
  induction tiles with
  | nil => rfl
  | cons tile tiles ih =>
      change contents ((⟨f tile.tag, tile.elems⟩ :: retag f tiles).filter _) = _
      by_cases htag : P tile.tag = true
      · simp only [List.filter_cons, hkeep, htag, if_true, contents_cons, ih]
      · simp only [List.filter_cons, hkeep, htag, Bool.false_eq_true, if_false, ih]

@[simp]
theorem weight_nil (P : κ → Bool) : weight P ([] : List (Tile κ α)) = 0 := rfl

theorem weight_cons (P : κ → Bool) (tile : Tile κ α) (tiles : List (Tile κ α)) :
    weight P (tile :: tiles) =
      (if P tile.tag then tile.elems.length else 0) + weight P tiles := by
  by_cases htag : P tile.tag = true
  · simp [weight, htag]
  · simp [weight, htag]

theorem weight_append (P : κ → Bool) (first second : List (Tile κ α)) :
    weight P (first ++ second) = weight P first + weight P second := by
  simp [weight]

theorem weight_retag (P : κ → Bool) (f : κ → κ) (tiles : List (Tile κ α)) :
    weight P (retag f tiles) = weight (fun tag => P (f tag)) tiles := by
  induction tiles with
  | nil => rfl
  | cons tile tiles ih =>
      change weight P (⟨f tile.tag, tile.elems⟩ :: retag f tiles) = _
      rw [weight_cons, weight_cons, ih]

theorem weight_le_extent (P : κ → Bool) (tiles : List (Tile κ α)) :
    weight P tiles ≤ extent tiles := by
  induction tiles with
  | nil => exact Nat.le_refl 0
  | cons tile tiles ih =>
      rw [weight_cons, extent_cons]
      split <;> omega

theorem weight_congr {P Q : κ → Bool} {tiles : List (Tile κ α)}
    (htag : ∀ tile ∈ tiles, P tile.tag = Q tile.tag) :
    weight P tiles = weight Q tiles := by
  induction tiles with
  | nil => rfl
  | cons tile tiles ih =>
      rw [weight_cons, weight_cons, htag tile List.mem_cons_self,
        ih fun other hother => htag other (List.mem_cons_of_mem tile hother)]

theorem weight_eq_extent_of_all {P : κ → Bool} {tiles : List (Tile κ α)}
    (hall : ∀ tile ∈ tiles, P tile.tag = true) :
    weight P tiles = extent tiles := by
  induction tiles with
  | nil => rfl
  | cons tile tiles ih =>
      rw [weight_cons, extent_cons, if_pos (hall tile List.mem_cons_self),
        ih fun other hother => hall other (List.mem_cons_of_mem tile hother)]

/-- When no tile is empty, the weight is full only if every tag counts. -/
theorem all_of_extent_le_weight {P : κ → Bool} {tiles : List (Tile κ α)}
    (hne : ∀ tile ∈ tiles, tile.elems ≠ [])
    (hfull : extent tiles ≤ weight P tiles) :
    ∀ tile ∈ tiles, P tile.tag = true := by
  induction tiles with
  | nil => simp
  | cons tile tiles ih =>
      rw [weight_cons, extent_cons] at hfull
      have hrest := weight_le_extent P tiles
      have hlength := List.length_pos_iff.mpr (hne tile List.mem_cons_self)
      by_cases htag : P tile.tag = true
      · rw [if_pos htag] at hfull
        intro other hother
        rcases List.mem_cons.mp hother with rfl | hother
        · exact htag
        · exact ih (fun tile' hmem => hne tile' (List.mem_cons_of_mem tile hmem))
            (by omega) other hother
      · rw [if_neg htag] at hfull
        omega

/-- Separate one tag from the count of the others. -/
theorem weight_or_eq [DecidableEq κ] {P : κ → Bool} {key : κ}
    (hkey : P key = false) (tiles : List (Tile κ α)) :
    weight (fun tag => P tag || decide (tag = key)) tiles =
      weight P tiles + weight (fun tag => decide (tag = key)) tiles := by
  induction tiles with
  | nil => rfl
  | cons tile tiles ih =>
      rw [weight_cons, weight_cons, weight_cons, ih]
      by_cases htag : tile.tag = key
      · rw [htag, hkey]
        simp only [decide_true, Bool.or_true, if_true, Bool.false_eq_true, if_false]
        omega
      · simp only [htag, decide_false, Bool.or_false, Bool.false_eq_true, if_false]
        omega

theorem extent_eq_zero_iff {tiles : List (Tile κ α)}
    (hne : ∀ tile ∈ tiles, tile.elems ≠ []) : extent tiles = 0 ↔ tiles = [] := by
  cases tiles with
  | nil => simp
  | cons tile tiles =>
      have hlength := List.length_pos_iff.mpr (hne tile List.mem_cons_self)
      simp only [extent_cons, reduceCtorEq, iff_false]
      omega

section At

variable {tiles : List (Tile κ α)} {position : Nat} {tile : Tile κ α}

theorem At.mem (hat : At tiles position tile) : tile ∈ tiles := by
  obtain ⟨before, after, rfl, -⟩ := hat
  simp

theorem exists_at_of_mem (hmem : tile ∈ tiles) : ∃ position, At tiles position tile := by
  obtain ⟨before, after, rfl⟩ := List.append_of_mem hmem
  exact ⟨_, before, after, rfl, rfl⟩

theorem not_at_nil : ¬ At ([] : List (Tile κ α)) position tile := by
  rintro ⟨before, after, heq, -⟩
  simp at heq

theorem at_cons_iff {first : Tile κ α} :
    At (first :: tiles) position tile ↔
      (position = 0 ∧ tile = first) ∨
        ∃ rest, At tiles rest tile ∧ position = first.elems.length + rest := by
  constructor
  · rintro ⟨before, after, heq, rfl⟩
    cases before with
    | nil =>
        simp only [List.nil_append, List.cons.injEq] at heq
        exact Or.inl ⟨rfl, heq.1.symm⟩
    | cons head before =>
        simp only [List.cons_append, List.cons.injEq] at heq
        obtain ⟨rfl, rfl⟩ := heq
        exact Or.inr ⟨_, ⟨before, after, rfl, rfl⟩, by simp⟩
  · rintro (⟨rfl, rfl⟩ | ⟨rest, ⟨before, after, rfl, rfl⟩, rfl⟩)
    · exact ⟨[], tiles, rfl, rfl⟩
    · exact ⟨first :: before, after, rfl, by simp⟩

/-- A tile laid last lies at the old extent. -/
theorem at_append_singleton_iff {last : Tile κ α} :
    At (tiles ++ [last]) position tile ↔
      At tiles position tile ∨ (position = extent tiles ∧ tile = last) := by
  induction tiles generalizing position with
  | nil =>
      simp only [List.nil_append, at_cons_iff, not_at_nil, false_and, exists_false,
        or_false, extent_nil, false_or]
  | cons first tiles ih =>
      simp only [List.cons_append, at_cons_iff, ih, extent_cons]
      constructor
      · rintro (hfirst | ⟨rest, hat | ⟨rfl, rfl⟩, rfl⟩)
        · exact Or.inl (Or.inl hfirst)
        · exact Or.inl (Or.inr ⟨rest, hat, rfl⟩)
        · exact Or.inr ⟨rfl, rfl⟩
      · rintro ((hfirst | ⟨rest, hat, rfl⟩) | ⟨rfl, rfl⟩)
        · exact Or.inl hfirst
        · exact Or.inr ⟨rest, Or.inl hat, rfl⟩
        · exact Or.inr ⟨_, Or.inr ⟨rfl, rfl⟩, rfl⟩

theorem at_retag_iff {f : κ → κ} :
    At (retag f tiles) position tile ↔
      ∃ old, At tiles position old ∧ tile = ⟨f old.tag, old.elems⟩ := by
  induction tiles generalizing position with
  | nil => simp [retag, not_at_nil]
  | cons first tiles ih =>
      change At (⟨f first.tag, first.elems⟩ :: retag f tiles) position tile ↔ _
      simp only [at_cons_iff, ih]
      constructor
      · rintro (⟨rfl, rfl⟩ | ⟨rest, ⟨old, hat, rfl⟩, rfl⟩)
        · exact ⟨first, Or.inl ⟨rfl, rfl⟩, rfl⟩
        · exact ⟨old, Or.inr ⟨rest, hat, rfl⟩, rfl⟩
      · rintro ⟨old, ⟨rfl, rfl⟩ | ⟨rest, hat, rfl⟩, rfl⟩
        · exact Or.inl ⟨rfl, rfl⟩
        · exact Or.inr ⟨rest, ⟨old, hat, rfl⟩, rfl⟩

theorem At.le_extent (hat : At tiles position tile) :
    position + tile.elems.length ≤ extent tiles := by
  obtain ⟨before, after, rfl, rfl⟩ := hat
  simp only [extent_append, extent_cons]
  omega

/-- Two tiles are the same one at the same position, or one ends before the
other starts. -/
theorem At.separate {position' : Nat} {tile' : Tile κ α}
    (hat : At tiles position tile) (hat' : At tiles position' tile') :
    (position = position' ∧ tile = tile') ∨
      position + tile.elems.length ≤ position' ∨
        position' + tile'.elems.length ≤ position := by
  induction tiles generalizing position position' with
  | nil => exact absurd hat not_at_nil
  | cons first tiles ih =>
      rw [at_cons_iff] at hat hat'
      rcases hat with ⟨rfl, rfl⟩ | ⟨rest, hat, rfl⟩
      · rcases hat' with ⟨rfl, rfl⟩ | ⟨rest', hat', rfl⟩
        · exact Or.inl ⟨rfl, rfl⟩
        · exact Or.inr (Or.inl (by omega))
      · rcases hat' with ⟨rfl, rfl⟩ | ⟨rest', hat', rfl⟩
        · exact Or.inr (Or.inr (by omega))
        · rcases ih hat hat' with ⟨rfl, rfl⟩ | hlt | hlt
          · exact Or.inl ⟨rfl, rfl⟩
          · exact Or.inr (Or.inl (by omega))
          · exact Or.inr (Or.inr (by omega))

theorem At.contents_getElem? (hat : At tiles position tile) {k : Nat}
    (hk : k < tile.elems.length) :
    (contents tiles)[position + k]? = tile.elems[k]? := by
  obtain ⟨before, after, rfl, rfl⟩ := hat
  simp only [contents_append, contents_cons, extent]
  rw [List.getElem?_append_right (by omega), List.getElem?_append_left (by omega)]
  congr 1
  omega

theorem exists_at_of_lt_extent {j : Nat} (hj : j < extent tiles) :
    ∃ position tile, At tiles position tile ∧ position ≤ j ∧
      j < position + tile.elems.length := by
  induction tiles generalizing j with
  | nil => simp at hj
  | cons first tiles ih =>
      rw [extent_cons] at hj
      by_cases hlt : j < first.elems.length
      · exact ⟨0, first, at_cons_iff.mpr (Or.inl ⟨rfl, rfl⟩), by omega, by omega⟩
      · obtain ⟨position, tile, hat, hle, hlt'⟩ :=
          ih (j := j - first.elems.length) (by omega)
        exact ⟨_, tile, at_cons_iff.mpr (Or.inr ⟨position, hat, rfl⟩),
          by omega, by omega⟩

/-- A tag borne by a single tile weighs what that tile does. -/
theorem At.weight_eq [DecidableEq κ] (hat : At tiles position tile)
    (hunique : ∀ position' tile', At tiles position' tile' → tile'.tag = tile.tag →
      position' = position) (hne : ∀ tile ∈ tiles, tile.elems ≠ []) :
    weight (fun tag => decide (tag = tile.tag)) tiles = tile.elems.length := by
  induction tiles generalizing position with
  | nil => exact absurd hat not_at_nil
  | cons first tiles ih =>
      have hlength := List.length_pos_iff.mpr (hne first List.mem_cons_self)
      have hne' : ∀ tile ∈ tiles, tile.elems ≠ [] :=
        fun other hother => hne other (List.mem_cons_of_mem first hother)
      rw [weight_cons]
      rcases at_cons_iff.mp hat with ⟨rfl, rfl⟩ | ⟨rest, hrest, rfl⟩
      · have hzero : weight (fun tag => decide (tag = tile.tag)) tiles = 0 := by
          rw [weight, List.filter_eq_nil_iff.mpr, extent_nil]
          intro other hother htag
          obtain ⟨position', hat'⟩ := exists_at_of_mem hother
          have := hunique _ other (at_cons_iff.mpr (Or.inr ⟨position', hat', rfl⟩))
            (of_decide_eq_true htag)
          omega
        rw [hzero, if_pos (by simp), Nat.add_zero]
      · have hfirst : first.tag ≠ tile.tag := by
          intro htag
          have := hunique 0 first (at_cons_iff.mpr (Or.inl ⟨rfl, rfl⟩)) htag
          omega
        rw [if_neg (by simpa using hfirst), Nat.zero_add]
        apply ih hrest _ hne'
        intro position' tile' hat' htag
        have := hunique _ tile' (at_cons_iff.mpr (Or.inr ⟨position', hat', rfl⟩)) htag
        omega

end At

end Tiling
