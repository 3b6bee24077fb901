import PrivateQuery.Fault
import PrivateQuery.Frame.Basic

/-!
# Providers and their cache: `DatasetProvider` and `CachedProvider`

A provider fetches the payload of a dataset; doing so may change it, and it may fail or crash. A
cache keeps the payloads that were fetched, so that a dataset is fetched once until it is evicted.
A dataset that was asked for in vain has a vacant slot: it is fetched again when it is asked for
again. One whose fetch crashed has a poisoned slot, which is of no use until it is evicted.
-/
namespace PrivateQuery

/-- A source of payloads with a state (`DatasetProvider`). -/
structure Provider (σ : Type) where
  fetch : (dataset : Nat) → σ → Attempt FrameError String × σ

/-- The provider of payloads held in memory; of several for one dataset the last counts
(`InMemoryProvider`). -/
def Provider.ofPayloads (payloads : List (Nat × String)) : Provider Unit where
  fetch dataset s :=
    match payloads.reverse.lookup dataset with
    | some payload => (.ok payload, s)
    | none => (Attempt.raise (.unknownDataset dataset), s)

/-- What a cache has of a dataset. -/
inductive Slot where
  | vacant
  | filled (payload : String)
  /-- The fetch of the dataset crashed. -/
  | poisoned
deriving DecidableEq, Repr

/-- A provider's state with the slots of the datasets that were asked for (`CachedProvider`). -/
structure Cache (σ : Type) where
  source : σ
  slots : List (Nat × Slot)

namespace Cache

variable {σ : Type}

def empty (source : σ) : Cache σ := ⟨source, []⟩

def slot? (c : Cache σ) (dataset : Nat) : Option Slot := c.slots.lookup dataset

def without (dataset : Nat) (slots : List (Nat × Slot)) : List (Nat × Slot) :=
  slots.filter fun entry => entry.1 != dataset

def put (dataset : Nat) (slot : Slot) (slots : List (Nat × Slot)) : List (Nat × Slot) :=
  (dataset, slot) :: without dataset slots

theorem lookup_without (dataset other : Nat) (slots : List (Nat × Slot)) :
    (without dataset slots).lookup other =
      if other = dataset then none else slots.lookup other := by
  induction slots with
  | nil => simp [without]
  | cons entry slots ih =>
    obtain ⟨held, slot⟩ := entry
    unfold without at ih ⊢
    by_cases h : held = dataset
    · subst h
      by_cases h' : other = held
      · rw [if_pos h'] at ih ⊢
        simpa using ih
      · have hb : (other == held) = false := by simpa using h'
        simp [h', ih, List.lookup_cons, hb]
    · by_cases h' : other = held
      · subst h'
        simp [h]
      · have hb : (other == held) = false := by simpa using h'
        simp [h, ih, List.lookup_cons, hb]

theorem lookup_put (dataset other : Nat) (slot : Slot) (slots : List (Nat × Slot)) :
    (put dataset slot slots).lookup other =
      if other = dataset then some slot else slots.lookup other := by
  by_cases h : other = dataset
  · simp [put, h]
  · have hb : (other == dataset) = false := by simpa using h
    simp [put, List.lookup_cons, hb, lookup_without, h]

/-! ## Operations -/

/-- The error of a poisoned slot. -/
def poisonedError (dataset : Nat) : FrameError :=
  .reported none s!"cache slot of dataset {dataset} is poisoned"

/-- What a fetch leaves in the slot of its dataset. -/
def slotAfter : Attempt FrameError String → Slot
  | .ok payload => .filled payload
  | .error .crashed => .poisoned
  | .error _ => .vacant

/-- The payload of a dataset, fetched if its slot is vacant or missing (`CachedProvider.get`). -/
def get (provider : Provider σ) (dataset : Nat) (c : Cache σ) :
    Attempt FrameError String × Cache σ :=
  match c.slot? dataset with
  | some (.filled payload) => (.ok payload, c)
  | some .poisoned => (Attempt.raise (poisonedError dataset), c)
  | _ =>
    let (fetched, source) := provider.fetch dataset c.source
    (fetched, ⟨source, put dataset (slotAfter fetched) c.slots⟩)

/-- Whether the payload of a dataset is kept. -/
def contains (c : Cache σ) (dataset : Nat) : Bool :=
  match c.slot? dataset with
  | some (.filled _) => true
  | _ => false

/-- Drop the slot of a dataset, and say whether there was one, vacant or not. -/
def evict (c : Cache σ) (dataset : Nat) : Bool × Cache σ :=
  ((c.slot? dataset).isSome, { c with slots := without dataset c.slots })

/-- A cached provider is a provider again. -/
def asProvider (provider : Provider σ) : Provider (Cache σ) := ⟨get provider⟩

theorem slot?_evict (c : Cache σ) (dataset other : Nat) :
    (c.evict dataset).2.slot? other = if other = dataset then none else c.slot? other :=
  lookup_without dataset other c.slots

end Cache

end PrivateQuery
