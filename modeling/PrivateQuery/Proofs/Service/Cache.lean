import PrivateQuery.Proofs.Outcome
import PrivateQuery.Service.Cache
import Mathlib.Data.List.Basic

/-!
# Coherence of the cache

A history is a list of calls, each with the state in which it finds the provider; between calls the
provider may change at will, so what it answers may change and fail over time.

What a cache has of a dataset can be told from the history (`coherent_attend`): a filled slot holds the
payload of the last fetch that succeeded since the dataset was evicted. So the provider is asked when
there has been no such fetch, and a payload is never older than the last eviction (`history_coherent`).
A call has no effect on what is returned for another dataset (`filter_history`).
-/
namespace PrivateQuery

/-- The datasets that a provider was asked for, with what came of it. -/
abbrev FetchRecord : Type := List (Nat × Attempt FrameError String)

/-- A provider that also records what it is asked for. -/
def Provider.recording {σ : Type} (provider : Provider σ) : Provider (σ × FetchRecord) where
  fetch dataset s :=
    match provider.fetch dataset s.1 with
    | (fetched, state) => (fetched, state, s.2 ++ [(dataset, fetched)])

namespace Cache

/-! ## Histories -/

/-- A call of a cache. -/
inductive Call where
  | get (dataset : Nat)
  | contains (dataset : Nat)
  | evict (dataset : Nat)
deriving DecidableEq

def Call.dataset : Call → Nat
  | get dataset | contains dataset | evict dataset => dataset

inductive Reply where
  | payload (outcome : Attempt FrameError String)
  | kept (isKept : Bool)
  | dropped (wasThere : Bool)
deriving DecidableEq

/-- A call, with the state that the provider is in when it is made. -/
structure Visit (σ : Type) where
  call : Call
  moment : σ

/-- A call that was made, with the calls of the provider that it led to and what it returned. -/
structure Entry where
  call : Call
  fetches : FetchRecord
  reply : Reply
deriving DecidableEq

section
variable {σ : Type}

/-- Make a call. -/
def serve (provider : Provider σ) (c : Cache σ) : Call → Reply × Cache σ
  | .get dataset =>
    match c.get provider dataset with
    | (outcome, c) => (.payload outcome, c)
  | .contains dataset => (.kept (c.contains dataset), c)
  | .evict dataset =>
    match c.evict dataset with
    | (wasThere, c) => (.dropped wasThere, c)

/-- Make a call while the provider is in the state of the visit. -/
def attend (provider : Provider σ) (c : Cache (σ × FetchRecord)) (v : Visit σ) :
    Entry × Cache (σ × FetchRecord) :=
  match serve provider.recording { c with source := (v.moment, []) } v.call with
  | (reply, c) => (⟨v.call, c.source.2, reply⟩, c)

/-- The calls of some visits, made one after the other. -/
def history (provider : Provider σ) (c : Cache (σ × FetchRecord)) : List (Visit σ) → List Entry
  | [] => []
  | v :: visits => (attend provider c v).1 :: history provider (attend provider c v).2 visits

end

/-! ## What can be told from a history -/

/-- Some entry has a property, and all entries after it have another. -/
def Since (p q : Entry → Prop) (entries : List Entry) : Prop :=
  ∃ earlier e later, entries = earlier ++ e :: later ∧ p e ∧ ∀ other ∈ later, q other

/-- A dataset was asked for and its payload returned. -/
def Entry.Serves (dataset : Nat) (e : Entry) : Prop :=
  e.call = .get dataset ∧ ∃ payload, e.reply = .payload (.ok payload)

/-- The provider was asked for a dataset and gave this payload. -/
def Entry.Fetches (dataset : Nat) (payload : String) (e : Entry) : Prop :=
  (dataset, .ok payload) ∈ e.fetches

/-- A dataset has been returned since it was evicted last. -/
def ServedSince (dataset : Nat) : List Entry → Prop :=
  Since (Entry.Serves dataset) fun e => e.call ≠ .evict dataset

/-- The last fetch of a dataset that succeeded gave this payload, and the dataset has not been evicted
since. -/
def LastFetch (dataset : Nat) (payload : String) : List Entry → Prop :=
  Since (Entry.Fetches dataset payload) fun e =>
    e.call ≠ .evict dataset ∧ ∀ payload', ¬ e.Fetches dataset payload'

theorem since_nil {p q : Entry → Prop} : ¬ Since p q [] := by
  rintro ⟨earlier, e, later, split, -⟩
  simp at split

theorem since_snoc_iff {p q : Entry → Prop} {entries : List Entry} {last : Entry} :
    Since p q (entries ++ [last]) ↔ p last ∨ q last ∧ Since p q entries := by
  constructor
  · rintro ⟨earlier, e, later, split, has, all⟩
    rcases List.eq_nil_or_concat later with rfl | ⟨rest, other, rfl⟩
    · obtain ⟨rfl, same⟩ := List.append_inj' split rfl
      obtain rfl : last = e := by simpa using same
      exact .inl has
    · rw [List.concat_eq_append, ← List.cons_append, ← List.append_assoc] at split
      obtain ⟨rfl, same⟩ := List.append_inj' split rfl
      obtain rfl : last = other := by simpa using same
      refine .inr ⟨all last (by simp), earlier, e, rest, rfl, has, fun x mem => all x (by simp [mem])⟩
  · rintro (has | ⟨here, earlier, e, later, rfl, has, all⟩)
    · exact ⟨entries, last, [], rfl, has, by simp⟩
    · refine ⟨earlier, e, later ++ [last], by simp, has, fun x mem => ?_⟩
      rcases List.mem_append.1 mem with mem | mem
      · exact all x mem
      · rw [List.mem_singleton.1 mem]
        exact here

/-! ## What a call does -/

section
variable {σ : Type} {provider : Provider σ} {c c' : Cache (σ × FetchRecord)} {v : Visit σ}

/-- What a call returns and leaves, given what the cache has of its dataset. -/
def attendSlot (provider : Provider σ) (slot? : Option Slot) (v : Visit σ) : Entry × Option Slot :=
  match v.call with
  | .get dataset =>
    match slot? with
    | some (.filled payload) => (⟨v.call, [], .payload (.ok payload)⟩, slot?)
    | some .poisoned => (⟨v.call, [], .payload (Attempt.raise (poisonedError dataset))⟩, slot?)
    | _ =>
      let fetched := (provider.fetch dataset v.moment).1
      (⟨v.call, [(dataset, fetched)], .payload fetched⟩, some (slotAfter fetched))
  | .contains _ =>
    match slot? with
    | some (.filled _) => (⟨v.call, [], .kept true⟩, slot?)
    | _ => (⟨v.call, [], .kept false⟩, slot?)
  | .evict _ => (⟨v.call, [], .dropped slot?.isSome⟩, none)

/-- **`attend_eq`**: a call reads and writes the slot of its dataset alone. -/
theorem attend_eq (provider : Provider σ) (c : Cache (σ × FetchRecord)) (v : Visit σ) :
    (attend provider c v).1 = (attendSlot provider (c.slot? v.call.dataset) v).1 ∧
      ∀ dataset, (attend provider c v).2.slot? dataset =
        if dataset = v.call.dataset then (attendSlot provider (c.slot? v.call.dataset) v).2
        else c.slot? dataset := by
  obtain ⟨call, moment⟩ := v
  have here (dataset : Nat) (source : σ × FetchRecord) :
      Cache.slot? ⟨source, c.slots⟩ dataset = c.slot? dataset := rfl
  -- A slot that is left as it is.
  have kept (asked : Nat) {slot? : Option Slot} (held : c.slot? asked = slot?) (dataset : Nat) :
      c.slot? dataset = if dataset = asked then slot? else c.slot? dataset := by
    split
    · rename_i own
      rw [own, held]
    · rfl
  cases call with
  | get asked =>
    have written (source : σ × FetchRecord) (slot : Slot) (dataset : Nat) :
        Cache.slot? ⟨source, put asked slot c.slots⟩ dataset =
          if dataset = asked then some slot else c.slot? dataset :=
      lookup_put asked dataset slot c.slots
    simp only [attend, serve, get, here, attendSlot, Call.dataset, Provider.recording]
    cases held : c.slot? asked with
    | none => exact ⟨rfl, written _ _⟩
    | some slot =>
      cases slot with
      | vacant => exact ⟨rfl, written _ _⟩
      | filled payload => exact ⟨rfl, kept asked held⟩
      | poisoned => exact ⟨rfl, kept asked held⟩
  | contains asked =>
    simp only [attend, serve, contains, here, attendSlot, Call.dataset]
    cases held : c.slot? asked with
    | none => exact ⟨rfl, kept asked held⟩
    | some slot => cases slot <;> exact ⟨rfl, kept asked held⟩
  | evict asked => exact ⟨rfl, slot?_evict _ asked⟩

/-! ## The slot of a dataset and its history -/

/-- How the slot of a dataset goes with the entries so far. -/
structure Coherent (dataset : Nat) (entries : List Entry) (slot? : Option Slot) : Prop where
  /-- A filled slot holds the payload of the last fetch. -/
  filled : ∀ payload, slot? = some (.filled payload) ↔ LastFetch dataset payload entries
  /-- It is filled once the dataset was returned. -/
  served : ServedSince dataset entries ↔ ∃ payload, slot? = some (.filled payload)
  /-- No fetch has crashed. -/
  sound : slot? ≠ some .poisoned

variable {dataset : Nat} {entries : List Entry} {slot? : Option Slot} {e : Entry}

theorem Coherent.nil : Coherent dataset [] none where
  filled payload := by simp [LastFetch, since_nil]
  served := by simp [ServedSince, since_nil]
  sound := by simp

theorem dataset_of_fetches {payload : String}
    (fetched : (attendSlot provider slot? v).1.Fetches dataset payload) :
    v.call = .get dataset := by
  obtain ⟨call, moment⟩ := v
  cases call with
  | get asked =>
    cases slot? with
    | none => simp_all [attendSlot, Entry.Fetches]
    | some slot => cases slot <;> simp_all [attendSlot, Entry.Fetches]
  | contains asked =>
    cases slot? with
    | none => simp [attendSlot, Entry.Fetches] at fetched
    | some slot => cases slot <;> simp [attendSlot, Entry.Fetches] at fetched
  | evict asked => simp [attendSlot, Entry.Fetches] at fetched

theorem attendSlot_call (provider : Provider σ) (slot? : Option Slot) (v : Visit σ) :
    (attendSlot provider slot? v).1.call = v.call := by
  obtain ⟨call, moment⟩ := v
  cases call with
  | get asked => cases slot? with
    | none => rfl
    | some slot => cases slot <;> rfl
  | contains asked => cases slot? with
    | none => rfl
    | some slot => cases slot <;> rfl
  | evict asked => rfl

/-- An entry that neither fetches nor evicts a dataset leaves its history as it is. -/
theorem Coherent.idle (coherent : Coherent dataset entries slot?) (kept : e.call ≠ .evict dataset)
    (idle : ∀ payload, ¬ e.Fetches dataset payload)
    (served : e.Serves dataset → ∃ payload, slot? = some (.filled payload)) :
    Coherent dataset (entries ++ [e]) slot? where
  filled payload := by
    rw [LastFetch, since_snoc_iff, coherent.filled payload]
    simp [idle, kept, LastFetch]
  served := by
    rw [ServedSince, since_snoc_iff]
    refine Iff.trans ?_ (or_iff_right_of_imp served)
    exact or_congr Iff.rfl ((and_iff_right kept).trans coherent.served)
  sound := coherent.sound

/-- Calls about other datasets leave the history of a dataset as it is. -/
theorem Coherent.other (coherent : Coherent dataset entries slot?) (other : v.call.dataset ≠ dataset)
    (held? : Option Slot) :
    Coherent dataset (entries ++ [(attendSlot provider held? v).1]) slot? := by
  refine coherent.idle ?_ (fun payload fetched => ?_) fun served => ?_
  · rw [attendSlot_call]
    exact fun evicted => other (by rw [evicted, Call.dataset])
  · exact other (by rw [dataset_of_fetches fetched, Call.dataset])
  · refine absurd ?_ other
    rw [← attendSlot_call provider held? v, served.1, Call.dataset]

/-- **`Coherent.attend`**: a call keeps the slot of its dataset coherent with the history. -/
theorem Coherent.attend (returns : ∀ d s, (provider.fetch d s).1.Returns)
    (coherent : Coherent v.call.dataset entries slot?) :
    Coherent v.call.dataset (entries ++ [(attendSlot provider slot? v).1])
      (attendSlot provider slot? v).2 := by
  obtain ⟨call, moment⟩ := v
  cases call with
  | get asked =>
    simp only [Call.dataset] at coherent ⊢
    -- A slot that is not filled stands for no fetch since the dataset was evicted.
    have fetch (empty : ∀ payload, slot? ≠ some (.filled payload)) :
        Coherent asked
          (entries ++ [⟨.get asked, [(asked, (provider.fetch asked moment).1)],
            .payload (provider.fetch asked moment).1⟩])
          (some (slotAfter (provider.fetch asked moment).1)) := by
      have noFetch (payload : String) : ¬ LastFetch asked payload entries :=
        fun last => empty payload ((coherent.filled payload).2 last)
      have notServed : ¬ ServedSince asked entries := fun served =>
        have ⟨payload, filled⟩ := coherent.served.1 served
        empty payload filled
      -- Only a payload is kept; an error leaves the slot vacant, so that it stands for the same.
      cases fetched : (provider.fetch asked moment).1 with
      | ok payload =>
        exact
          { filled := by simp [slotAfter, LastFetch, since_snoc_iff, Entry.Fetches, eq_comm]
            served := by simp [slotAfter, ServedSince, since_snoc_iff, Entry.Serves]
            sound := by simp [slotAfter] }
      | error fault =>
        obtain ⟨error, rfl⟩ := (returns asked moment).raised fetched
        refine Coherent.idle ⟨fun payload => ?_, ?_, by simp [slotAfter]⟩ (by simp)
          (by simp [Entry.Fetches]) (by simp [Entry.Serves])
        · simp [slotAfter, noFetch payload]
        · simp [slotAfter, notServed]
    cases slot? with
    | none => exact fetch (by simp)
    | some slot =>
      cases slot with
      | vacant => exact fetch (by simp)
      | filled payload =>
        exact coherent.idle (by simp [attendSlot]) (by simp [attendSlot, Entry.Fetches])
          fun _ => ⟨payload, rfl⟩
      | poisoned => exact absurd rfl coherent.sound
  | contains asked =>
    -- Whatever the answer, nothing is fetched, evicted or returned.
    have look (held : Bool) : Coherent asked (entries ++ [⟨.contains asked, [], .kept held⟩]) slot? :=
      coherent.idle (by simp) (by simp [Entry.Fetches]) (by simp [Entry.Serves])
    cases slot? with
    | none => exact look false
    | some slot => cases slot <;> exact look _
  | evict asked =>
    exact
      { filled := by simp [attendSlot, LastFetch, since_snoc_iff, Entry.Fetches, Call.dataset]
        served := by simp [attendSlot, ServedSince, since_snoc_iff, Entry.Serves, Call.dataset]
        sound := by simp [attendSlot] }

/-- A dataset is fetched when it has not been returned since it was evicted. -/
theorem Coherent.fetches (provider : Provider σ) (coherent : Coherent dataset entries slot?)
    (call : v.call = .get dataset) :
    (ServedSince dataset entries → (attendSlot provider slot? v).1.fetches = []) ∧
      (¬ ServedSince dataset entries → ∃ fetched,
        (attendSlot provider slot? v).1.fetches = [(dataset, fetched)] ∧
          (attendSlot provider slot? v).1.reply = .payload fetched) := by
  rw [coherent.served]
  cases slot? with
  | none => simp [attendSlot, call]
  | some slot =>
    cases slot with
    | vacant => simp [attendSlot, call]
    | filled payload => simp [attendSlot, call]
    | poisoned => exact absurd rfl coherent.sound

theorem filled_of_reply {payload : String} (call : v.call = .get dataset)
    (reply : (attendSlot provider slot? v).1.reply = .payload (.ok payload)) :
    (attendSlot provider slot? v).2 = some (.filled payload) := by
  cases slot? with
  | none => simp_all [attendSlot, slotAfter]
  | some slot =>
    cases slot with
    | vacant => simp_all [attendSlot, slotAfter]
    | filled payload => simp_all [attendSlot]
    | poisoned => simp [attendSlot, call, Attempt.raise] at reply

theorem reply_contains (provider : Provider σ) (slot? : Option Slot)
    (call : v.call = .contains dataset) :
    ∃ held, (attendSlot provider slot? v).1.reply = .kept held ∧
      (held = true ↔ ∃ payload, slot? = some (.filled payload)) := by
  cases slot? with
  | none => simp [attendSlot, call]
  | some slot => cases slot <;> simp [attendSlot, call]

/-- **`coherent_attend`**: a call keeps every slot of a cache coherent with the history. -/
theorem coherent_attend (returns : ∀ d s, (provider.fetch d s).1.Returns)
    (coherent : ∀ d, Coherent d entries (c.slot? d)) (v : Visit σ) (d : Nat) :
    Coherent d (entries ++ [(attend provider c v).1]) ((attend provider c v).2.slot? d) := by
  obtain ⟨entry, slots⟩ := attend_eq provider c v
  rw [entry, slots]
  split
  · rename_i own
    rw [own]
    exact (coherent _).attend returns
  · rename_i other
    exact (coherent d).other (Ne.symm other) _

/-- What every call keeps is so of the cache that an entry of a history comes from. -/
theorem exists_attend (Kept : List Entry → Cache (σ × FetchRecord) → Prop)
    (keeps : ∀ {entries c}, Kept entries c → ∀ v,
      Kept (entries ++ [(attend provider c v).1]) (attend provider c v).2)
    (visits : List (Visit σ)) {c : Cache (σ × FetchRecord)} {entries before after : List Entry}
    (kept : Kept entries c) (split : history provider c visits = before ++ e :: after) :
    ∃ (c' : Cache (σ × FetchRecord)) (v : Visit σ), e = (attend provider c' v).1 ∧
      Kept (entries ++ before) c' := by
  induction visits generalizing c entries before with
  | nil => simp [history] at split
  | cons v visits ih =>
    cases before with
    | nil =>
      obtain ⟨first, -⟩ := List.cons.inj split
      exact ⟨c, v, first.symm, by simpa using kept⟩
    | cons first before =>
      obtain ⟨rfl, rest⟩ := List.cons.inj split
      simpa using ih (keeps kept v) rest

/-- Every entry of a history comes from a cache that is coherent with the entries before it. -/
theorem attend_of_history (returns : ∀ d s, (provider.fetch d s).1.Returns) (visits : List (Visit σ))
    {c : Cache (σ × FetchRecord)} {entries before after : List Entry}
    (coherent : ∀ d, Coherent d entries (c.slot? d))
    (split : history provider c visits = before ++ e :: after) :
    ∃ (c' : Cache (σ × FetchRecord)) (v : Visit σ), e = (attend provider c' v).1 ∧
      ∀ d, Coherent d (entries ++ before) (c'.slot? d) :=
  exists_attend (fun entries c => ∀ d, Coherent d entries (c.slot? d))
    (fun coherent v => coherent_attend returns coherent v) visits coherent split

/-- Calls about other datasets can be left out of a history. -/
theorem filter_history (dataset : Nat) (visits : List (Visit σ))
    (same : c.slot? dataset = c'.slot? dataset) :
    (history provider c visits).filter (·.call.dataset == dataset) =
      history provider c' (visits.filter (·.call.dataset == dataset)) := by
  induction visits generalizing c c' with
  | nil => rfl
  | cons v visits ih =>
    obtain ⟨entry, slots⟩ := attend_eq provider c v
    have call : (attend provider c v).1.call = v.call := by rw [entry, attendSlot_call]
    by_cases own : v.call.dataset = dataset
    · obtain ⟨entry', slots'⟩ := attend_eq provider c' v
      have first : (attend provider c v).1 = (attend provider c' v).1 := by
        rw [entry, entry', own, same]
      have next : (attend provider c v).2.slot? dataset = (attend provider c' v).2.slot? dataset := by
        rw [slots, slots', own, same]
      simp only [history, List.filter_cons, call, own, beq_self_eq_true, if_true]
      rw [ih next, first]
    · have next : (attend provider c v).2.slot? dataset = c'.slot? dataset := by
        rw [slots, if_neg (Ne.symm own), same]
      simpa [history, List.filter_cons, call, own] using ih next

end

/-! ## Coherence -/

/-- **`history_coherent`**: the provider is asked for a dataset when it has not been returned since it
was evicted, what is returned for it is what the last fetch gave, it is kept when there is such a
fetch, and the calls about other datasets make no difference to this. -/
theorem history_coherent {σ : Type} (provider : Provider σ)
    (returns : ∀ d s, (provider.fetch d s).1.Returns) (source : σ × FetchRecord)
    (visits : List (Visit σ)) :
    (∀ before e after, history provider (empty source) visits = before ++ e :: after →
      (∀ dataset, e.call = .get dataset →
        (ServedSince dataset before → e.fetches = []) ∧
        (¬ ServedSince dataset before →
          ∃ fetched, e.fetches = [(dataset, fetched)] ∧ e.reply = .payload fetched) ∧
        ∀ payload, e.reply = .payload (.ok payload) → LastFetch dataset payload (before ++ [e])) ∧
      ∀ dataset, e.call = .contains dataset →
        ∃ held, e.reply = .kept held ∧ (held = true ↔ ∃ payload, LastFetch dataset payload before)) ∧
    ∀ dataset, (history provider (empty source) visits).filter (·.call.dataset == dataset) =
      history provider (empty source) (visits.filter (·.call.dataset == dataset)) := by
  refine ⟨fun before e after split => ?_, fun dataset => filter_history dataset visits rfl⟩
  obtain ⟨c, v, rfl, coherent⟩ := attend_of_history returns visits (fun _ => .nil) split
  simp only [List.nil_append] at coherent
  rw [(attend_eq provider c v).1, attendSlot_call]
  constructor
  · intro dataset call
    have own : v.call.dataset = dataset := by rw [call, Call.dataset]
    obtain ⟨hit, miss⟩ := (coherent dataset).fetches provider call
    rw [own]
    refine ⟨hit, miss, fun payload reply => ?_⟩
    have next := (coherent v.call.dataset).attend returns
    rw [own] at next
    exact (next.filled payload).1 (filled_of_reply call reply)
  · intro dataset call
    have own : v.call.dataset = dataset := by rw [call, Call.dataset]
    obtain ⟨held, reply, kept⟩ := reply_contains provider (c.slot? dataset) call
    rw [own]
    exact ⟨held, reply, kept.trans (exists_congr (coherent dataset).filled)⟩

/-- A provider whose state is what it answers. -/
def outspoken : Provider (Except FrameError String) where
  fetch _ answer := (Attempt.ofExcept answer, answer)

/-- Calls that find the provider in different states. -/
def refetching : List (Visit (Except FrameError String)) :=
  [⟨.get 1, .error (.unknownDataset 1)⟩, ⟨.get 1, .ok "a"⟩, ⟨.get 1, .ok "b"⟩,
    ⟨.contains 1, .ok "b"⟩, ⟨.get 2, .ok "c"⟩, ⟨.evict 1, .ok "c"⟩, ⟨.contains 1, .ok "d"⟩,
    ⟨.get 1, .ok "d"⟩]

theorem history_coherent_refetching :
    (∀ d s, (outspoken.fetch d s).1.Returns) ∧
      ∃ before e, history outspoken (empty (.ok "", [])) refetching = before ++ [e] ∧
        e = ⟨.get 1, [(1, .ok "d")], .payload (.ok "d")⟩ ∧ LastFetch 1 "d" (before ++ [e]) := by
  have returns (d : Nat) (s : Except FrameError String) : (outspoken.fetch d s).1.Returns :=
    Attempt.returns_ofExcept s
  have split : history outspoken (empty (.ok "", [])) refetching =
      (history outspoken (empty (.ok "", [])) refetching).take 7 ++
        [⟨.get 1, [(1, .ok "d")], .payload (.ok "d")⟩] := by decide +kernel
  obtain ⟨entries, -⟩ := history_coherent outspoken returns (.ok "", []) refetching
  exact ⟨returns, _, _, split, rfl, ((entries _ _ [] split).1 1 rfl).2.2 "d" rfl⟩

end Cache
end PrivateQuery
