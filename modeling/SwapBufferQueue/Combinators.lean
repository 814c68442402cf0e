/-
What `SynchronizedQueue::stream` composes: `repeat_with` of the futures of `dequeue_async`,
each in a `once`, and `flatten`; then `take_while`; then `flat_map` with `iter`.  They are
not part of the queue.  Each of the three is a parameter: a state, what it asks of what is
inside it when it is polled, and how it takes the answer.  What is documented of it are
laws; only the composition is written out.
-/
import Mathlib.Logic.Basic

namespace SwapBufferQueue

universe u v w

/-- A combinator: its first state, what it asks of what is inside it when it is polled, and
what becomes of it when it has the answer. -/
structure Combinator (F : Type u) (Ask Told : Type) where
  new : F
  asks : F → Ask
  told : F → Told → F

/-- The repetition creates a future, or polls the one it holds. -/
inductive RepeatAsk where
  | create
  | poll
deriving Repr, DecidableEq

inductive RepeatTold where
  | pending
  | ready
deriving Repr, DecidableEq

/-- `take_while` polls the stream inside, or returns `None` by itself. -/
inductive TakeWhileAsk where
  | stream
  | finish
deriving Repr, DecidableEq

/-- `flat_map` calls `next` of the iterator in front, drops it, or polls the stream inside. -/
inductive FlatMapAsk where
  | item
  | clear
  | stream
deriving Repr, DecidableEq

inductive FlatMapTold where
  | item
  | exhausted
  | cleared
  | inner
  | pending
  | finished
deriving Repr, DecidableEq

variable {F : Type u} {R : Type u} {W : Type v} {M : Type w}

/-- `repeat_with(|| once(future())).flatten()`: the next future is created when the one
before it was ready, a pending one is polled again. -/
structure Combinator.Repeats (c : Combinator F RepeatAsk RepeatTold) : Prop where
  new : c.asks c.new = .create
  pending (f : F) : c.asks (c.told f .pending) = .poll
  ready (f : F) : c.asks (c.told f .ready) = .create

/-- `take_while` goes on while the predicate is true, and ends for good when it is not. -/
structure Combinator.TakesWhile (c : Combinator F TakeWhileAsk Bool) : Prop where
  new : c.asks c.new = .stream
  holds (f : F) (hasks : c.asks f = .stream) : c.asks (c.told f true) = .stream
  fails (f : F) (hasks : c.asks f = .stream) : c.asks (c.told f false) = .finish

/-- `flat_map` returns the items of the iterator in front, drops it when it is exhausted,
and only then polls the stream inside. -/
structure Combinator.FlatMaps (c : Combinator F FlatMapAsk FlatMapTold) : Prop where
  new : c.asks c.new = .stream
  item (f : F) (hasks : c.asks f = .item) : c.asks (c.told f .item) = .item
  exhausted (f : F) (hasks : c.asks f = .item) : c.asks (c.told f .exhausted) = .clear
  cleared (f : F) (hasks : c.asks f = .clear) : c.asks (c.told f .cleared) = .stream
  inner (f : F) (hasks : c.asks f = .stream) : c.asks (c.told f .inner) = .item
  pending (f : F) (hasks : c.asks f = .stream) : c.asks (c.told f .pending) = .stream
  finished (f : F) (hasks : c.asks f = .stream) : c.asks (c.told f .finished) = .stream

/-- The combinators of `stream`.  `iter` composes those of the standard library, of which
the same is documented: `repeat_with`, `map_while` and `flatten`. -/
structure Combinators (R : Type u) (W : Type v) (M : Type w) where
  repeated : Combinator R RepeatAsk RepeatTold
  takeWhile : Combinator W TakeWhileAsk Bool
  flatMap : Combinator M FlatMapAsk FlatMapTold

structure Combinators.Documented (c : Combinators R W M) : Prop where
  repeated : c.repeated.Repeats
  takeWhile : c.takeWhile.TakesWhile
  flatMap : c.flatMap.FlatMaps

/-- The state of the composed stream. -/
structure Flat (R : Type u) (W : Type v) (M : Type w) where
  repeated : R
  takeWhile : W
  flatMap : M
deriving Repr, DecidableEq

/-- What a poll of the composed stream does next. -/
inductive StreamAsk where
  | item
  | clear
  | dequeue
  | poll
  | finish
deriving Repr, DecidableEq

/-- What came of it.  `batch` and `error` are the results of `dequeue_async`. -/
inductive StreamTold where
  | item
  | exhausted
  | cleared
  | batch
  | error
  | pending
  | finished
deriving Repr, DecidableEq

def Combinators.new (c : Combinators R W M) : Flat R W M :=
  ⟨c.repeated.new, c.takeWhile.new, c.flatMap.new⟩

/-- The composition: what the outer one does not do itself it asks of the one inside. -/
def Combinators.asks (c : Combinators R W M) (flat : Flat R W M) : StreamAsk :=
  match c.flatMap.asks flat.flatMap with
  | .item => .item
  | .clear => .clear
  | .stream =>
      match c.takeWhile.asks flat.takeWhile with
      | .finish => .finish
      | .stream =>
          match c.repeated.asks flat.repeated with
          | .create => .dequeue
          | .poll => .poll

/-- The predicate of `take_while` is `is_ok`; what `flat_map` makes of a result is
`iter(res.unwrap())`. -/
def Combinators.told (c : Combinators R W M) (flat : Flat R W M) : StreamTold → Flat R W M
  | .item => { flat with flatMap := c.flatMap.told flat.flatMap .item }
  | .exhausted => { flat with flatMap := c.flatMap.told flat.flatMap .exhausted }
  | .cleared => { flat with flatMap := c.flatMap.told flat.flatMap .cleared }
  | .batch =>
      { repeated := c.repeated.told flat.repeated .ready
        takeWhile := c.takeWhile.told flat.takeWhile true
        flatMap := c.flatMap.told flat.flatMap .inner }
  | .error =>
      { flat with
        repeated := c.repeated.told flat.repeated .ready
        takeWhile := c.takeWhile.told flat.takeWhile false }
  | .pending =>
      { flat with
        repeated := c.repeated.told flat.repeated .pending
        flatMap := c.flatMap.told flat.flatMap .pending }
  | .finished => { flat with flatMap := c.flatMap.told flat.flatMap .finished }

/-- What each of the combinators asks when the composed stream asks `ask`.  A batch in front
leaves those behind it ready to go on. -/
def Combinators.Stands (c : Combinators R W M) (flat : Flat R W M) : StreamAsk → Prop
  | .item =>
      c.flatMap.asks flat.flatMap = .item ∧ c.takeWhile.asks flat.takeWhile = .stream ∧
        c.repeated.asks flat.repeated = .create
  | .clear =>
      c.flatMap.asks flat.flatMap = .clear ∧ c.takeWhile.asks flat.takeWhile = .stream ∧
        c.repeated.asks flat.repeated = .create
  | .dequeue =>
      c.flatMap.asks flat.flatMap = .stream ∧ c.takeWhile.asks flat.takeWhile = .stream ∧
        c.repeated.asks flat.repeated = .create
  | .poll =>
      c.flatMap.asks flat.flatMap = .stream ∧ c.takeWhile.asks flat.takeWhile = .stream ∧
        c.repeated.asks flat.repeated = .poll
  | .finish =>
      c.flatMap.asks flat.flatMap = .stream ∧ c.takeWhile.asks flat.takeWhile = .finish

section Laws

variable {c : Combinators R W M} {flat : Flat R W M} {ask : StreamAsk}

theorem Combinators.Stands.asks_eq (hstands : c.Stands flat ask) : c.asks flat = ask := by
  unfold Combinators.asks
  cases ask with
  | item => rw [hstands.1]
  | clear => rw [hstands.1]
  | dequeue => rw [hstands.1, hstands.2.1, hstands.2.2]
  | poll => rw [hstands.1, hstands.2.1, hstands.2.2]
  | finish => rw [hstands.1, hstands.2]

/-- A future is polled, for the first time or again. -/
def Combinators.Awaits (c : Combinators R W M) (flat : Flat R W M) : Prop :=
  c.Stands flat .dequeue ∨ c.Stands flat .poll

theorem Combinators.Awaits.stream (hawaits : c.Awaits flat) :
    c.flatMap.asks flat.flatMap = .stream ∧ c.takeWhile.asks flat.takeWhile = .stream := by
  rcases hawaits with hstands | hstands
  · exact ⟨hstands.1, hstands.2.1⟩
  · exact ⟨hstands.1, hstands.2.1⟩

variable (hdocumented : c.Documented)

include hdocumented

theorem Combinators.Documented.stands_new : c.Stands c.new .dequeue :=
  ⟨hdocumented.flatMap.new, hdocumented.takeWhile.new, hdocumented.repeated.new⟩

theorem Combinators.Documented.stands_item (hstands : c.Stands flat .item) :
    c.Stands (c.told flat .item) .item :=
  ⟨hdocumented.flatMap.item _ hstands.1, hstands.2⟩

theorem Combinators.Documented.stands_exhausted (hstands : c.Stands flat .item) :
    c.Stands (c.told flat .exhausted) .clear :=
  ⟨hdocumented.flatMap.exhausted _ hstands.1, hstands.2⟩

theorem Combinators.Documented.stands_cleared (hstands : c.Stands flat .clear) :
    c.Stands (c.told flat .cleared) .dequeue :=
  ⟨hdocumented.flatMap.cleared _ hstands.1, hstands.2⟩

theorem Combinators.Documented.stands_batch (hawaits : c.Awaits flat) :
    c.Stands (c.told flat .batch) .item := by
  obtain ⟨hmap, htake⟩ := hawaits.stream
  exact ⟨hdocumented.flatMap.inner _ hmap, hdocumented.takeWhile.holds _ htake,
    hdocumented.repeated.ready _⟩

theorem Combinators.Documented.stands_error (hawaits : c.Awaits flat) :
    c.Stands (c.told flat .error) .finish := by
  obtain ⟨hmap, htake⟩ := hawaits.stream
  exact ⟨hmap, hdocumented.takeWhile.fails _ htake⟩

theorem Combinators.Documented.stands_pending (hawaits : c.Awaits flat) :
    c.Stands (c.told flat .pending) .poll := by
  obtain ⟨hmap, htake⟩ := hawaits.stream
  exact ⟨hdocumented.flatMap.pending _ hmap, htake, hdocumented.repeated.pending _⟩

theorem Combinators.Documented.stands_finished (hstands : c.Stands flat .finish) :
    c.Stands (c.told flat .finished) .finish :=
  ⟨hdocumented.flatMap.finished _ hstands.1, hstands.2⟩

end Laws

/-- Combinators whose state is what they ask for next. -/
def Combinators.reference : Combinators RepeatAsk TakeWhileAsk FlatMapAsk where
  repeated :=
    { new := .create
      asks := id
      told := fun _ told =>
        match told with
        | .pending => .poll
        | .ready => .create }
  takeWhile :=
    { new := .stream
      asks := id
      told := fun ask holds => if holds then ask else .finish }
  flatMap :=
    { new := .stream
      asks := id
      told := fun _ told =>
        match told with
        | .item => .item
        | .exhausted => .clear
        | .inner => .item
        | _ => .stream }

theorem Combinators.reference_documented : Combinators.reference.Documented where
  repeated := ⟨rfl, fun _ => rfl, fun _ => rfl⟩
  takeWhile := ⟨rfl, fun _ hasks => hasks, fun _ _ => rfl⟩
  flatMap := ⟨rfl, fun _ _ => rfl, fun _ _ => rfl, fun _ _ => rfl, fun _ _ => rfl,
    fun _ _ => rfl, fun _ _ => rfl⟩

end SwapBufferQueue
