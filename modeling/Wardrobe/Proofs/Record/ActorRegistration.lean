import Mathlib
import Wardrobe.Proofs.Record.CatalogHistory
import Wardrobe.Record.Snapshot

/-!
# Registering the actors of a snapshot

The actors of a snapshot are registered behind the listed records, each under its key unless a
record has the key already.  So a record that stands in the catalog is never replaced after the
listed ones are in, and an editor id that leads to a record never stops to lead to one
(`isFound_foldl_enrol`).  `parts_isSplit` says what becomes of a snapshot on the whole.
-/

namespace Wardrobe.Snapshot

open Catalog

/-- The history of a catalog after an actor was registered. -/
def enrol (history : List Record) (a : Actor) : List Record :=
  if a.toRecord.slot ∈ history.map Record.slot then history else history ++ [a.toRecord]

/-- The history of the catalog of a snapshot: the listed records, and behind them the actors under
keys that were new. -/
def history (s : Snapshot) : List Record :=
  s.actors.foldl enrol s.records

/-- Who took an editor id last among the npcs of a history has not been replaced. -/
def IsFound (history : List Record) (id : Text) : Prop :=
  ∃ r, taker? history .npc id = some r ∧ latest? history r.slot = some r

/-- What a catalog and a population are to the snapshot that they were made from. -/
structure IsSplit (s : Snapshot) (c : Catalog) (population : List Actor) : Prop where
  /-- The actors are those of the snapshot, in their order. -/
  population_eq : population = s.actors
  /-- The keywords of an actor are its own and those of its race, trimmed and in lower case. -/
  mem_keywordSet : ∀ a ∈ population, ∀ x,
    x ∈ a.keywordSet ↔ ∃ k ∈ a.keywords ++ a.raceKeywords, Text.lower (Text.trim k) = x
  /-- It is matched by its keywords and by what it is called, in lower case. -/
  mem_matchKeys : ∀ a ∈ population, ∀ x,
    x ∈ a.matchKeys ↔ x ∈ a.keywordSet ∨ ∃ title ∈ a.titles, Text.lower title = x
  /-- Under a category and key that are listed stands the record that is listed last. -/
  get?_listed : ∀ r ∈ s.records, ∀ key, r.key.same key = true →
    ∃ l, latest? s.records (r.category, key.folded) = some l ∧ c.get? r.category key = some l
  /-- Under the key of an actor stands the npc that is listed, and without one the first actor that
  has the key. -/
  get?_actor : ∀ a ∈ population,
    (∃ l, latest? s.records (.npc, a.key.folded) = some l ∧ c.get? .npc a.key = some l) ∨
      latest? s.records (.npc, a.key.folded) = none ∧ ∃ first r,
        population.find? (·.key.same a.key) = some first ∧ c.get? .npc a.key = some r ∧
        r.editorId = some first.editorId ∧ r.name = first.name
  /-- The first actor with a key under which no npc is listed is found by its editor id, or another
  npc with that id is. -/
  withEditorId?_actor : ∀ a ∈ population, population.find? (·.key.same a.key) = some a →
    latest? s.records (.npc, a.key.folded) = none →
      ∃ r, c.withEditorId? .npc a.editorId = some r ∧ r.idKey = some (Text.lower a.editorId)
  /-- There are as many records as categories and keys, listed or of actors. -/
  size_eq : c.size = ((s.records ++ population.map Actor.toRecord).map Record.slot).toFinset.card

variable {s : Snapshot} {records : List Record} {actors : List Actor} {a : Actor} {c : Catalog}
  {slot : Category × FormKey} {id : Text}

/-! ## Registering one actor -/

/-- A catalog that tracks its history still does after an actor was registered. -/
lemma tracks_register (h : Tracks records c) (a : Actor) :
    Tracks (enrol records a) (register c a) := by
  have hget : c.get? .npc a.key = latest? records a.toRecord.slot := h.get?_eq .npc a.key
  rw [enrol, register, hget]
  by_cases hslot : a.toRecord.slot ∈ records.map Record.slot
  · obtain ⟨r, hr⟩ := exists_latest? hslot
    rwa [if_pos hslot, hr, if_pos Option.isSome_some]
  · rw [if_neg hslot, latest?_eq_none_iff.mpr hslot]
    exact h.insert a.toRecord

/-- A slot that was empty is filled with the actor if it is the actor's own. -/
lemma latest?_enrol : latest? (enrol records a) slot =
    (latest? records slot).or (if a.toRecord.slot = slot then some a.toRecord else none) := by
  by_cases hslot : a.toRecord.slot = slot
  · subst hslot
    by_cases htaken : a.toRecord.slot ∈ records.map Record.slot
    · obtain ⟨r, hr⟩ := exists_latest? htaken
      rw [enrol, if_pos htaken, hr, Option.some_or]
    · rw [enrol, if_neg htaken, latest?_concat, if_pos rfl, latest?_eq_none_iff.mpr htaken,
        if_pos rfl, Option.none_or]
  · rw [enrol, if_neg hslot, Option.or_none]
    split
    · rfl
    · rw [latest?_concat, if_neg hslot]

/-- Registering an actor fills its slot and no other. -/
lemma mem_slots_enrol : slot ∈ (enrol records a).map Record.slot ↔
    slot ∈ (records ++ [a.toRecord]).map Record.slot := by
  rw [enrol]
  split
  · next htaken =>
    rw [List.map_append, List.mem_append, List.map_singleton, List.mem_singleton]
    exact ⟨Or.inl, fun h => h.elim (fun h => h) fun h => h ▸ htaken⟩
  · rfl

/-- An editor id that is found stays found when an actor is registered. -/
lemma IsFound.enrol (h : IsFound records id) (a : Actor) : IsFound (enrol records a) id := by
  rw [Snapshot.enrol]
  split
  · exact h
  · next hnew =>
    obtain ⟨r, htaker, hlatest⟩ := h
    rw [IsFound, taker?_concat]
    split
    · exact ⟨a.toRecord, rfl, by rw [latest?_concat, if_pos rfl]⟩
    · have hfilled : r.slot ∈ records.map Record.slot := by
        by_contra hempty
        rw [latest?_eq_none_iff.mpr hempty] at hlatest
        cases hlatest
      have hother : a.toRecord.slot ≠ r.slot := fun heq => hnew (heq ▸ hfilled)
      exact ⟨r, htaker, by rw [latest?_concat, if_neg hother, hlatest]⟩

/-- An actor under a new key is found by its editor id. -/
lemma isFound_enrol (h : a.toRecord.slot ∉ records.map Record.slot) :
    IsFound (enrol records a) (Text.lower a.editorId) := by
  rw [enrol, if_neg h]
  exact ⟨a.toRecord, by rw [taker?_concat, if_pos ⟨rfl, rfl⟩], by rw [latest?_concat, if_pos rfl]⟩

/-! ## Registering all actors -/

/-- The catalog of a snapshot tracks its history. -/
lemma tracks_catalog (s : Snapshot) : Tracks s.history s.catalog := by
  rw [history, catalog]
  have hlisted : Tracks s.records (ofList s.records) := tracks_ofList s.records
  generalize s.records = records at hlisted ⊢
  generalize ofList records = c at hlisted ⊢
  induction s.actors generalizing records c with
  | nil => exact hlisted
  | cons a rest ih => exact ih _ _ (tracks_register hlisted a)

/-- In a slot stands the listed record, or the first actor whose slot it is. -/
lemma latest?_foldl_enrol : latest? (actors.foldl enrol records) slot =
    (latest? records slot).or ((actors.map Actor.toRecord).find? fun r => r.slot = slot) := by
  induction actors generalizing records with
  | nil => rw [List.foldl_nil, List.map_nil, List.find?_nil, Option.or_none]
  | cons a rest ih =>
    rw [List.foldl_cons, ih, latest?_enrol, Option.or_assoc, List.map_cons, List.find?_cons]
    by_cases hslot : a.toRecord.slot = slot <;> simp [hslot]

/-- The slots that are filled are those of the listed records and those of the actors. -/
lemma mem_slots_foldl_enrol : slot ∈ (actors.foldl enrol records).map Record.slot ↔
    slot ∈ (records ++ actors.map Actor.toRecord).map Record.slot := by
  induction actors generalizing records with
  | nil => simp
  | cons a rest ih =>
    rw [List.foldl_cons, ih, List.map_append, List.mem_append, mem_slots_enrol]
    simp [or_assoc]

/-- An editor id that is found stays found when actors are registered. -/
lemma isFound_foldl_enrol (h : IsFound records id) : IsFound (actors.foldl enrol records) id := by
  induction actors generalizing records with
  | nil => exact h
  | cons a rest ih => exact ih (h.enrol a)

/-- The first actor under a key that was new is found by its editor id. -/
lemma isFound_history (hfirst : s.actors.find? (·.key.same a.key) = some a)
    (hnone : latest? s.records a.toRecord.slot = none) :
    IsFound s.history (Text.lower a.editorId) := by
  obtain ⟨-, before, after, hactors, hbefore⟩ := List.find?_eq_some_iff_append.mp hfirst
  rw [history, hactors, List.foldl_append, List.foldl_cons]
  refine isFound_foldl_enrol (isFound_enrol ?_)
  rw [mem_slots_foldl_enrol, List.map_append, List.mem_append, not_or]
  refine ⟨latest?_eq_none_iff.mp hnone, fun hmem => ?_⟩
  rw [List.map_map, List.mem_map] at hmem
  obtain ⟨b, hb, hslot⟩ := hmem
  have hsame : b.key.same a.key = true := (slot_eq_iff.mp hslot).2
  simpa [hsame] using hbefore b hb

/-! ## The parts of a snapshot -/

/-- Among the records of actors, the one in a slot of an npc is that of the first actor with its
key. -/
lemma find?_toRecord (actors : List Actor) (key : FormKey) :
    (actors.map Actor.toRecord).find? (fun r => r.slot = (.npc, key.folded)) =
      (actors.find? (·.key.same key)).map Actor.toRecord := by
  rw [List.find?_map]
  congr 2
  funext a
  rw [Function.comp_apply, Bool.eq_iff_iff, decide_eq_true_iff, slot_eq_iff]
  exact and_iff_right rfl

/-- Splitting a snapshot keeps every listed record as it stands and registers every actor. -/
theorem parts_isSplit (s : Snapshot) : IsSplit s s.parts.1 s.parts.2 where
  population_eq := rfl
  mem_keywordSet a _ x := by rw [Actor.keywordSet, Text.mem_sortedSet, List.mem_map]
  mem_matchKeys a _ x := by
    rw [Actor.matchKeys, Text.mem_sortedSet, List.mem_append, List.mem_map]
  get?_listed r hr key hkey := by
    have hmem : (r.category, key.folded) ∈ s.records.map Record.slot :=
      List.mem_map.mpr ⟨r, hr, slot_eq_iff.mpr ⟨rfl, hkey⟩⟩
    obtain ⟨l, hl⟩ := exists_latest? hmem
    have hget : s.catalog.get? r.category key = latest? s.history (r.category, key.folded) :=
      (tracks_catalog s).get?_eq r.category key
    rw [history, latest?_foldl_enrol, hl, Option.some_or] at hget
    exact ⟨l, hl, hget⟩
  get?_actor a ha := by
    have hget : s.catalog.get? .npc a.key = latest? s.history (.npc, a.key.folded) :=
      (tracks_catalog s).get?_eq .npc a.key
    rw [history, latest?_foldl_enrol, find?_toRecord] at hget
    cases hlisted : latest? s.records (.npc, a.key.folded) with
    | some l =>
      rw [hlisted, Option.some_or] at hget
      exact Or.inl ⟨l, rfl, hget⟩
    | none =>
      have hself : a.key.same a.key = true := FormKey.same_iff.mpr rfl
      have hfound : (s.actors.find? (·.key.same a.key)).isSome = true :=
        List.find?_isSome.mpr ⟨a, ha, hself⟩
      obtain ⟨first, hfirst⟩ := Option.isSome_iff_exists.mp hfound
      rw [hlisted, Option.none_or, hfirst] at hget
      exact Or.inr ⟨rfl, first, first.toRecord, hfirst, hget, rfl, rfl⟩
  withEditorId?_actor a _ hfirst hnone := by
    obtain ⟨r, htaker, hlatest⟩ := isFound_history hfirst hnone
    have htracks := tracks_catalog s
    exact ⟨r, htracks.withEditorId?_eq_some_iff.mpr ⟨htracks.mem_records_iff.mpr hlatest, htaker⟩,
      (idKey_of_taker? htaker).2⟩
  size_eq := by
    have hset : (s.history.map Record.slot).toFinset =
        ((s.records ++ s.actors.map Actor.toRecord).map Record.slot).toFinset := by
      ext slot
      rw [List.mem_toFinset, List.mem_toFinset, history, mem_slots_foldl_enrol]
    exact (tracks_catalog s).refines.size_eq.trans (congrArg Finset.card hset)

end Wardrobe.Snapshot
