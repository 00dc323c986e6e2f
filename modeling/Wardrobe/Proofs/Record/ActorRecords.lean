import Mathlib
import Wardrobe.Proofs.Record.EditorId
import Wardrobe.Record.Snapshot

/-!
# The records that stand for actors

In a snapshot that lists no npcs, and no two actors under one key, every actor is registered under a
slot of its own (`Snapshot.StandsAlone`).  Its catalog is then that of a plain list, the listed
records and behind them one for each actor (`catalog_eq_ofList`).  So an npc is found by editor id
as the last actor with that id (`withEditorId?_npc`), and other records are found as among the
listed ones alone (`withEditorId?_of_ne_npc`).
-/

namespace Wardrobe.Snapshot

open Catalog

/-- The actors are the only npcs, and no two of them have the same key. -/
structure StandsAlone (s : Snapshot) : Prop where
  no_npc : ∀ r ∈ s.records, r.category ≠ .npc
  keys : s.actors.Pairwise fun a b => a.key.same b.key = false

variable {s : Snapshot} {history : List Record} {actors : List Actor} {a : Actor} {name id : Text}

/-! ## Registering actors -/

/-- An actor under a new key is put in. -/
lemma register_of_slot_notMem (h : a.toRecord.slot ∉ history.map Record.slot) :
    register (ofList history) a = ofList (history ++ [a.toRecord]) := by
  have hnone : (ofList history).get? .npc a.key = none := by
    rw [(tracks_ofList history).get?_eq]
    exact latest?_eq_none_iff.mpr h
  rw [register, hnone, ofList, ofList, List.foldl_append]
  rfl

/-- Actors under new keys are put in one after the other, behind the records that are there. -/
lemma foldl_register (hnew : ∀ a ∈ actors, a.toRecord.slot ∉ history.map Record.slot)
    (hkeys : actors.Pairwise fun a b => a.key.same b.key = false) :
    actors.foldl register (ofList history) = ofList (history ++ actors.map Actor.toRecord) ∧
      (ofList (history ++ actors.map Actor.toRecord)).records =
        (ofList history).records ++ actors.map Actor.toRecord := by
  induction actors generalizing history with
  | nil => simp
  | cons a rest ih =>
    obtain ⟨ha, hrest⟩ := List.forall_mem_cons.mp hnew
    obtain ⟨hother, hkeys⟩ := List.pairwise_cons.mp hkeys
    have hnew' : ∀ b ∈ rest, b.toRecord.slot ∉ (history ++ [a.toRecord]).map Record.slot := by
      intro b hb
      rw [List.map_append, List.mem_append, List.map_singleton, List.mem_singleton]
      rintro (hold | hslot)
      · exact hrest b hb hold
      · have hsame : a.key.same b.key = true := (slot_eq_iff.mp hslot.symm).2
        rw [hother b hb] at hsame
        cases hsame
    have hrecords : (ofList (history ++ [a.toRecord])).records =
        (ofList history).records ++ [a.toRecord] := by
      have hposition : (ofList history).position? a.toRecord.category a.toRecord.key = none :=
        (tracks_ofList history).position?_eq_none_iff.mpr ha
      rw [ofList, List.foldl_append, List.foldl_cons, List.foldl_nil]
      exact congrArg Catalog.records (insert_of_none hposition)
    obtain ⟨hcatalog, hrecords'⟩ := ih hnew' hkeys
    rw [List.append_assoc, List.singleton_append] at hcatalog hrecords'
    rw [List.foldl_cons, register_of_slot_notMem ha, List.map_cons]
    refine ⟨hcatalog, ?_⟩
    rw [hrecords', hrecords, List.append_assoc, List.singleton_append]

namespace StandsAlone

/-- No record is listed under the key of an actor. -/
lemma slot_notMem (hs : s.StandsAlone) : ∀ a ∈ s.actors,
    a.toRecord.slot ∉ s.records.map Record.slot := by
  intro a _ hmem
  obtain ⟨r, hr, hslot⟩ := List.mem_map.mp hmem
  exact hs.no_npc r hr (slot_eq_iff.mp hslot).1

/-- The catalog is that of the listed records with one for each actor behind them. -/
lemma catalog_eq_ofList (hs : s.StandsAlone) :
    s.catalog = ofList (s.records ++ s.actors.map Actor.toRecord) :=
  (foldl_register hs.slot_notMem hs.keys).1

/-- The records of the actors come last in the catalog. -/
lemma records_catalog (hs : s.StandsAlone) :
    s.catalog.records = (ofList s.records).records ++ s.actors.map Actor.toRecord := by
  rw [hs.catalog_eq_ofList]
  exact (foldl_register hs.slot_notMem hs.keys).2

/-- A record of a category other than npcs is found among the listed ones. -/
lemma ofCategory_catalog (hs : s.StandsAlone) {category : Category} (hne : category ≠ .npc) :
    s.catalog.ofCategory category = (ofList s.records).ofCategory category := by
  have hactors : (s.actors.map Actor.toRecord).filter (·.category == category) = [] := by
    rw [List.filter_eq_nil_iff, List.forall_mem_map]
    intro a _ h
    exact hne (beq_iff_eq.mp h).symm
  rw [ofCategory, hs.records_catalog, List.filter_append, hactors, List.append_nil, ofCategory]

/-- The npcs are the actors, in their order. -/
lemma ofCategory_npc (hs : s.StandsAlone) :
    s.catalog.ofCategory .npc = s.actors.map Actor.toRecord := by
  have hlisted : (ofList s.records).records.filter (·.category == .npc) = [] := by
    rw [List.filter_eq_nil_iff]
    intro r hr h
    have hmem : r ∈ (ofList s.records).ofCategory .npc :=
      mem_ofCategory_iff.mpr ⟨hr, beq_iff_eq.mp h⟩
    obtain ⟨hcategory, hlatest⟩ := ((ofList_refines s.records).mem_ofCategory .npc r).mp hmem
    exact hs.no_npc r (List.mem_reverse.mp (List.mem_of_find?_eq_some hlatest)) hcategory
  have hactors : (s.actors.map Actor.toRecord).filter (·.category == .npc) =
      s.actors.map Actor.toRecord :=
    List.filter_eq_self.mpr (List.forall_mem_map.mpr fun a _ => rfl)
  rw [ofCategory, hs.records_catalog, List.filter_append, hlisted, hactors, List.nil_append]

/-- The last actor with an editor id is the npc that has taken it. -/
lemma taker?_npc (hs : s.StandsAlone) :
    taker? (s.records ++ s.actors.map Actor.toRecord) .npc id =
      (s.actors.reverse.find? fun a => Text.lower a.editorId = id).map Actor.toRecord := by
  have hlisted : s.records.reverse.find?
      (fun r => r.category = .npc ∧ r.idKey = some id) = none := by
    rw [List.find?_eq_none]
    intro r hr h
    exact hs.no_npc r (List.mem_reverse.mp hr) (of_decide_eq_true h).1
  rw [taker?, List.reverse_append, List.find?_append, hlisted, Option.or_none, ← List.map_reverse,
    List.find?_map]
  congr 2
  funext a
  simp [Record.idKey, Actor.toRecord]

/-- No actor takes an editor id from a record of another category. -/
lemma taker?_of_ne_npc {category : Category} (hne : category ≠ .npc) :
    taker? (s.records ++ s.actors.map Actor.toRecord) category id =
      taker? s.records category id := by
  have hactors : (s.actors.map Actor.toRecord).reverse.find?
      (fun r => r.category = category ∧ r.idKey = some id) = none := by
    rw [List.find?_eq_none]
    intro r hr h
    obtain ⟨a, -, rfl⟩ := List.mem_map.mp (List.mem_reverse.mp hr)
    exact hne (of_decide_eq_true h).1.symm
  rw [taker?, List.reverse_append, List.find?_append, hactors, Option.none_or, taker?]

/-- An editor id finds the last actor that has it. -/
lemma withEditorId?_npc (hs : s.StandsAlone) : s.catalog.withEditorId? .npc name =
    (s.actors.reverse.find? fun a => Text.lower a.editorId = Text.lower name).map
      Actor.toRecord := by
  ext r
  rw [hs.catalog_eq_ofList, withEditorId?_ofList_eq_some_iff, ← hs.catalog_eq_ofList,
    hs.ofCategory_npc, hs.taker?_npc]
  refine and_iff_right_of_imp fun h => ?_
  obtain ⟨a, ha, rfl⟩ := Option.map_eq_some_iff.mp h
  exact List.mem_map_of_mem (List.mem_reverse.mp (List.mem_of_find?_eq_some ha))

/-- Registering actors makes no difference to other records. -/
lemma withEditorId?_of_ne_npc (hs : s.StandsAlone) {category : Category} (hne : category ≠ .npc) :
    s.catalog.withEditorId? category name = (ofList s.records).withEditorId? category name := by
  ext r
  rw [hs.catalog_eq_ofList, withEditorId?_ofList_eq_some_iff, withEditorId?_ofList_eq_some_iff,
    ← hs.catalog_eq_ofList, hs.ofCategory_catalog hne, taker?_of_ne_npc hne]

end StandsAlone

end Wardrobe.Snapshot
