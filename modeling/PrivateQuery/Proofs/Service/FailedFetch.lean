import PrivateQuery.Proofs.Service.Cache

/-!
# What a failed fetch leaves

A fetch that fails leaves a vacant slot, which the cache did not have if the dataset was not asked for
before. Both are the same to all calls but one: an eviction says that there was a slot
(`Vacated.attend`). So all later histories are the ones without the failed call, except that the first
eviction of the dataset, unless it is asked for again before, finds something to drop
(`history_of_failed`): what an eviction says is whether the dataset was asked for since the last one,
not whether it is kept.
-/
namespace PrivateQuery.Cache

section
variable {σ : Type} {provider : Provider σ} {c c' : Cache (σ × FetchRecord)} {v : Visit σ}
variable {dataset : Nat} {visits : List (Visit σ)}

/-- Caches with the same slots have the same histories. -/
theorem history_congr (same : ∀ d, c'.slot? d = c.slot? d) :
    history provider c' visits = history provider c visits := by
  induction visits generalizing c c' with
  | nil => rfl
  | cons v visits ih =>
    obtain ⟨entry, slots⟩ := attend_eq provider c v
    obtain ⟨entry', slots'⟩ := attend_eq provider c' v
    have next (d : Nat) : (attend provider c' v).2.slot? d = (attend provider c v).2.slot? d := by
      rw [slots, slots', same, same]
    rw [history, history, ih next, entry, entry', same]

theorem slot?_attend (asks : v.call ≠ .get dataset) (evicts : v.call ≠ .evict dataset) :
    (attend provider c v).2.slot? dataset = c.slot? dataset := by
  rw [(attend_eq provider c v).2]
  split
  · rename_i own
    obtain ⟨call, moment⟩ := v
    cases call with
    | get asked => exact absurd (congrArg Call.get own.symm) asks
    | evict asked => exact absurd (congrArg Call.evict own.symm) evicts
    | contains asked =>
      simp only [own, Call.dataset, attendSlot]
      cases c.slot? asked with
      | none => rfl
      | some slot => cases slot <;> rfl
  · rfl

/-! ## Vacant slots -/

/-- One cache has a vacant slot of a dataset, where the other has none. -/
structure Vacated (dataset : Nat) (c c' : Cache (σ × FetchRecord)) : Prop where
  absent : c.slot? dataset = none
  vacant : c'.slot? dataset = some .vacant
  others : ∀ other, other ≠ dataset → c'.slot? other = c.slot? other

/-- What a call makes of a vacant slot in place of none. -/
inductive Tells (provider : Provider σ) (dataset : Nat) (c c' : Cache (σ × FetchRecord))
    (v : Visit σ) : Prop where
  /-- The dataset is fetched, and is in the same slot from then on. -/
  | asked (call : v.call = .get dataset) (entry : (attend provider c' v).1 = (attend provider c v).1)
      (same : ∀ d, (attend provider c' v).2.slot? d = (attend provider c v).2.slot? d)
  /-- It is dropped, and there is no slot from then on. -/
  | evicted (call : v.call = .evict dataset)
      (entry : (attend provider c v).1 = ⟨.evict dataset, [], .dropped false⟩)
      (entry' : (attend provider c' v).1 = ⟨.evict dataset, [], .dropped true⟩)
      (same : ∀ d, (attend provider c' v).2.slot? d = (attend provider c v).2.slot? d)
  /-- Nothing is told from the slot. -/
  | nothing (asks : v.call ≠ .get dataset) (evicts : v.call ≠ .evict dataset)
      (entry : (attend provider c' v).1 = (attend provider c v).1)
      (vacated : Vacated dataset (attend provider c v).2 (attend provider c' v).2)

/-- **`Vacated.attend`**: only an eviction tells a vacant slot from none. -/
theorem Vacated.attend (vacated : Vacated dataset c c') (v : Visit σ) :
    Tells provider dataset c c' v := by
  obtain ⟨absent, vacant, others⟩ := vacated
  obtain ⟨entry, slots⟩ := attend_eq provider c v
  obtain ⟨entry', slots'⟩ := attend_eq provider c' v
  have elsewhere {d : Nat} (other : d ≠ v.call.dataset) (apart : d ≠ dataset) :
      (Cache.attend provider c' v).2.slot? d = (Cache.attend provider c v).2.slot? d := by
    rw [slots, slots', if_neg other, if_neg other, others d apart]
  by_cases asks : v.call = .get dataset
  · have own : v.call.dataset = dataset := by rw [asks, Call.dataset]
    have alike : attendSlot provider (some .vacant) v = attendSlot provider none v := by
      simp only [attendSlot, asks]
    rw [own, absent] at entry
    rw [own, vacant, alike] at entry'
    refine .asked asks (entry'.trans entry.symm) fun d => ?_
    by_cases here : d = dataset
    · rw [slots, slots', own, absent, vacant, alike, if_pos here, if_pos here]
    · exact elsewhere (own ▸ here) here
  by_cases evicts : v.call = .evict dataset
  · have own : v.call.dataset = dataset := by rw [evicts, Call.dataset]
    rw [own, absent] at entry
    rw [own, vacant] at entry'
    refine .evicted evicts (entry.trans ?_) (entry'.trans ?_) fun d => ?_
    · simp [attendSlot, evicts]
    · simp [attendSlot, evicts]
    · by_cases here : d = dataset
      · rw [slots, slots', own, if_pos here, if_pos here]
        simp [attendSlot, evicts]
      · exact elsewhere (own ▸ here) here
  · have untold : (Cache.attend provider c' v).1 = (Cache.attend provider c v).1 := by
      rw [entry, entry']
      by_cases own : v.call.dataset = dataset
      · rw [own, absent, vacant]
        obtain ⟨call, moment⟩ := v
        cases call with
        | get asked => exact absurd (congrArg Call.get own) asks
        | evict asked => exact absurd (congrArg Call.evict own) evicts
        | contains asked => rfl
      · rw [others _ own]
    refine .nothing asks evicts untold ⟨?_, ?_, fun d apart => ?_⟩
    · rw [slot?_attend asks evicts, absent]
    · rw [slot?_attend asks evicts, vacant]
    · by_cases other : d = v.call.dataset
      · rw [slots, slots', if_pos other, if_pos other, others _ (other ▸ apart)]
      · exact elsewhere other apart

/-! ## Histories -/

/-- A history in which the first eviction of a dataset, unless it is asked for before, is said to have
found something. -/
def evictionFound (dataset : Nat) : List Entry → List Entry
  | [] => []
  | e :: entries =>
    if e.call = .get dataset then e :: entries
    else if e.call = .evict dataset then { e with reply := .dropped true } :: entries
    else e :: evictionFound dataset entries

/-- Some call evicts a dataset, and none before it asks for it. -/
def EvictedFirst (dataset : Nat) (visits : List (Visit σ)) : Prop :=
  ∃ before v after, visits = before ++ v :: after ∧ v.call = .evict dataset ∧
    ∀ u ∈ before, u.call ≠ .get dataset

theorem evictedFirst_nil : ¬ EvictedFirst dataset ([] : List (Visit σ)) := by
  rintro ⟨before, v, after, split, -⟩
  simp at split

theorem evictedFirst_cons : EvictedFirst dataset (v :: visits) ↔
    v.call = .evict dataset ∨ v.call ≠ .get dataset ∧ EvictedFirst dataset visits := by
  constructor
  · rintro ⟨before, u, after, split, evicts, unasked⟩
    cases before with
    | nil =>
      obtain ⟨rfl, -⟩ := List.cons.inj split
      exact .inl evicts
    | cons first before =>
      obtain ⟨rfl, rest⟩ := List.cons.inj split
      exact .inr ⟨unasked _ (by simp), before, u, after, rest, evicts,
        fun w mem => unasked w (by simp [mem])⟩
  · rintro (evicts | ⟨unasked, before, u, after, rfl, evicts, none⟩)
    · exact ⟨[], v, visits, rfl, evicts, by simp⟩
    · exact ⟨v :: before, u, after, rfl, evicts, by simpa using ⟨unasked, none⟩⟩

theorem call_attend : (attend provider c v).1.call = v.call := by
  rw [(attend_eq provider c v).1, attendSlot_call]

/-- With a vacant slot in place of none the first eviction finds something. -/
theorem Vacated.history (vacated : Vacated dataset c c') (visits : List (Visit σ)) :
    history provider c' visits = evictionFound dataset (history provider c visits) ∧
      (history provider c' visits = history provider c visits ↔ ¬ EvictedFirst dataset visits) := by
  induction visits generalizing c c' with
  | nil => exact ⟨rfl, by simp [Cache.history, evictedFirst_nil]⟩
  | cons v visits ih =>
    have first : (Cache.attend provider c v).1.call = v.call := call_attend
    rw [evictedFirst_cons]
    simp only [Cache.history, evictionFound, first]
    have told : Tells provider dataset c c' v := vacated.attend v
    cases told with
    | asked call entry same => simp [call, entry, history_congr same]
    | evicted call entry entry' same => simp [call, entry, entry', history_congr same]
    | nothing asks evicts entry vacated =>
      obtain ⟨found, kept⟩ := ih vacated
      simp [asks, evicts, entry, found, ← kept]

/-- With a slot in any case nothing has to be said of an eviction. -/
theorem evictionFound_history (held : (c.slot? dataset).isSome = true) (visits : List (Visit σ)) :
    evictionFound dataset (history provider c visits) = history provider c visits := by
  induction visits generalizing c with
  | nil => rfl
  | cons v visits ih =>
    have first : (attend provider c v).1.call = v.call := call_attend
    simp only [history, evictionFound, first]
    split_ifs with asks evicts
    · rfl
    · have own : v.call.dataset = dataset := by rw [evicts, Call.dataset]
      rw [(attend_eq provider c v).1, own]
      simp [attendSlot, evicts, held]
    · rw [ih (by rwa [slot?_attend asks evicts])]

/-! ## What an eviction says -/

/-- A dataset was asked for since it was evicted last, with or without success. -/
def AskedSince (dataset : Nat) : List Entry → Prop :=
  Since (·.call = .get dataset) (·.call ≠ .evict dataset)

theorem isSome_slot?_attend {entries : List Entry}
    (known : ∀ d, (c.slot? d).isSome = true ↔ AskedSince d entries) (v : Visit σ) (d : Nat) :
    ((attend provider c v).2.slot? d).isSome = true ↔
      AskedSince d (entries ++ [(attend provider c v).1]) := by
  rw [AskedSince, since_snoc_iff, call_attend, ← AskedSince, ← known d]
  by_cases asks : v.call = .get d
  · have own : v.call.dataset = d := by rw [asks, Call.dataset]
    have slot : ((attendSlot provider (c.slot? d) v).2).isSome = true := by
      simp only [attendSlot, asks]
      cases c.slot? d with
      | none => rfl
      | some slot => cases slot <;> rfl
    rw [(attend_eq provider c v).2, own, if_pos rfl]
    simp [asks, slot]
  by_cases evicts : v.call = .evict d
  · have own : v.call.dataset = d := by rw [evicts, Call.dataset]
    rw [(attend_eq provider c v).2, own, if_pos rfl]
    simp [evicts, attendSlot]
  · simp [slot?_attend asks evicts, asks, evicts]

end

/-- **`history_of_failed`**: after a fetch that failed, all later calls return the same and ask the
provider for the same as if it had not been made, but that the first eviction of the dataset, unless it
is asked for before, finds something. So the failed call leaves no trace exactly if the dataset had
been asked for since its last eviction, or is asked for again before it is evicted. What an eviction
says is whether the dataset was asked for since the last one. -/
theorem history_of_failed {σ : Type} (provider : Provider σ) :
    (∀ (c : Cache (σ × FetchRecord)) (v : Visit σ) dataset error,
      (attend provider c v).1 =
        ⟨.get dataset, [(dataset, Attempt.raise error)], .payload (Attempt.raise error)⟩ →
      ∀ visits,
        history provider (attend provider c v).2 visits =
          evictionFound dataset (history provider c visits) ∧
        (history provider (attend provider c v).2 visits = history provider c visits ↔
          (c.slot? dataset).isSome = true ∨ ¬ EvictedFirst dataset visits)) ∧
    ∀ (source : σ × FetchRecord) visits before e after dataset,
      history provider (empty source) visits = before ++ e :: after → e.call = .evict dataset →
      ∃ found, e.reply = .dropped found ∧ (found = true ↔ AskedSince dataset before) := by
  constructor
  · intro c v dataset error failed visits
    have same : (attend provider c v).1.call = v.call := call_attend
    have call : v.call = .get dataset := by rw [← same, failed]
    have own : v.call.dataset = dataset := by rw [call, Call.dataset]
    obtain ⟨entry, slots⟩ := attend_eq provider c v
    rw [failed, own] at entry
    have others (d : Nat) (apart : d ≠ dataset) :
        (attend provider c v).2.slot? d = c.slot? d := by rw [slots, own, if_neg apart]
    -- The provider was asked, and what it raised leaves the slot vacant.
    have vacant : (c.slot? dataset = none ∨ c.slot? dataset = some .vacant) ∧
        (attend provider c v).2.slot? dataset = some .vacant := by
      rw [slots, own, if_pos rfl]
      simp only [attendSlot, call] at entry ⊢
      cases held : c.slot? dataset with
      | none =>
        simp only [held, Entry.mk.injEq, List.cons.injEq, Prod.mk.injEq] at entry
        exact ⟨.inl rfl, by rw [← entry.2.1.1.2]; rfl⟩
      | some slot =>
        cases slot with
        | vacant =>
          simp only [held, Entry.mk.injEq, List.cons.injEq, Prod.mk.injEq] at entry
          exact ⟨.inr rfl, by rw [← entry.2.1.1.2]; rfl⟩
        | filled payload => simp [held] at entry
        | poisoned => simp [held] at entry
    obtain ⟨absent | held, left⟩ := vacant
    · obtain ⟨found, kept⟩ := Vacated.history ⟨absent, left, others⟩ visits
      exact ⟨found, by simp [kept, absent]⟩
    · have same (d : Nat) : (attend provider c v).2.slot? d = c.slot? d := by
        by_cases here : d = dataset
        · rw [here, left, held]
        · exact others d here
      rw [history_congr same, evictionFound_history (by rw [held]; rfl)]
      exact ⟨rfl, by simp [held]⟩
  · intro source visits before e after dataset split evicts
    have start (d : Nat) : (slot? (empty source) d).isSome = true ↔ AskedSince d [] := by
      simp [AskedSince, since_nil, slot?, empty]
    obtain ⟨c, v, rfl, known⟩ := exists_attend
      (fun entries c => ∀ d, (c.slot? d).isSome = true ↔ AskedSince d entries)
      (fun known v => isSome_slot?_attend known v) visits start split
    rw [call_attend] at evicts
    have own : v.call.dataset = dataset := by rw [evicts, Call.dataset]
    refine ⟨_, ?_, known dataset⟩
    rw [(attend_eq provider c v).1, own]
    simp [attendSlot, evicts]

/-- A look at a dataset, another one asked for, and the dataset evicted. -/
def lookAndEvict : List (Visit (Except FrameError String)) :=
  [⟨.contains 0, .ok "a"⟩, ⟨.get 1, .ok "b"⟩, ⟨.evict 0, .ok "c"⟩]

theorem history_of_failed_lookAndEvict :
    (attend outspoken (empty (.ok "", [])) ⟨.get 0, .error (.unknownDataset 0)⟩).1 =
        ⟨.get 0, [(0, Attempt.raise (.unknownDataset 0))],
          .payload (Attempt.raise (.unknownDataset 0))⟩ ∧
      history outspoken
          (attend outspoken (empty (.ok "", [])) ⟨.get 0, .error (.unknownDataset 0)⟩).2
          lookAndEvict =
        evictionFound 0 (history outspoken (empty (.ok "", [])) lookAndEvict) ∧
      ∃ before e, history outspoken (empty (.ok "", [])) lookAndEvict = before ++ [e] ∧
        e.call = .evict 0 ∧ ∃ found, e.reply = .dropped found ∧ (found = true ↔ AskedSince 0 before) := by
  have failed : (attend outspoken (empty (.ok "", [])) ⟨.get 0, .error (.unknownDataset 0)⟩).1 =
      ⟨.get 0, [(0, Attempt.raise (.unknownDataset 0))],
        .payload (Attempt.raise (.unknownDataset 0))⟩ := by decide +kernel
  have split : history outspoken (empty (.ok "", [])) lookAndEvict =
      (history outspoken (empty (.ok "", [])) lookAndEvict).take 2 ++
        [⟨.evict 0, [], .dropped false⟩] := by decide +kernel
  obtain ⟨later, evictions⟩ := history_of_failed outspoken
  exact ⟨failed, (later _ _ 0 _ failed lookAndEvict).1, _, _, split, rfl,
    evictions _ _ _ _ [] 0 split rfl⟩

/-- A dataset that is not kept, and was never fetched with success, is dropped. -/
theorem failed_fetch_dropped :
    (history outspoken (empty (.ok "", []))
        [⟨.get 0, .error (.unknownDataset 0)⟩, ⟨.contains 0, .ok "a"⟩, ⟨.evict 0, .ok "a"⟩]).map
          Entry.reply =
      [.payload (Attempt.raise (.unknownDataset 0)), .kept false, .dropped true] ∧
    (history outspoken (empty (.ok "", [])) [⟨.contains 0, .ok "a"⟩, ⟨.evict 0, .ok "a"⟩]).map
        Entry.reply = [.kept false, .dropped false] := by
  decide +kernel

end PrivateQuery.Cache
