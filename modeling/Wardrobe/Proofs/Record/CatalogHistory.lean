import Mathlib
import Wardrobe.Record.Catalog

/-!
# Catalogs and their histories

What a catalog holds is decided by its history, the list of the records put in.  The slot of a
record is its category and key.  `Tracks` relates a catalog to a history: the slots that were ever
filled stand in the order in which they first came, each with the record that came last; the index
of keys leads to them, and the index of editor ids leads from an id to the record that took it last,
for as long as that record is there.  Putting in a record keeps the relation (`Tracks.insert`), so
every catalog that is built from a list tracks the list (`tracks_ofList`).

`Refines` is what this means for those who look records up.
-/

namespace Wardrobe

/-- A key in which the letter case of the plugin makes no difference. -/
def FormKey.folded (key : FormKey) : FormKey :=
  ⟨Text.asciiLower key.plugin, key.id⟩

/-- Two keys are the same when they are equal after folding. -/
lemma FormKey.same_iff {a b : FormKey} : a.same b = true ↔ a.folded = b.folded := by
  simp only [same, folded, Text.sameAscii, Bool.and_eq_true, beq_iff_eq, FormKey.mk.injEq]
  exact and_comm

/-- The place of a record in a catalog: its category and key. -/
def Record.slot (r : Record) : Category × FormKey :=
  (r.category, r.key.folded)

namespace Catalog

/-- The record of a history that was put in last into a slot. -/
def latest? (history : List Record) (slot : Category × FormKey) : Option Record :=
  history.reverse.find? fun r => r.slot = slot

/-- The record of a history that took an editor id, in lower case, last. -/
def taker? (history : List Record) (category : Category) (id : Text) : Option Record :=
  history.reverse.find? fun r => r.category = category ∧ r.idKey = some id

/-- The slots that a catalog has filled. -/
def slots (c : Catalog) : List (Category × FormKey) :=
  c.records.map Record.slot

/-- The position that a record takes when it is put in. -/
def place (c : Catalog) (r : Record) : Nat :=
  (c.position? r.category r.key).getD c.size

/-- What it means that a catalog holds what its history leaves of the records put in. -/
structure Tracks (history : List Record) (c : Catalog) : Prop where
  /-- The slots stand in the order in which they first came. -/
  ascending : c.slots.Pairwise fun s t =>
    (history.map Record.slot).idxOf s < (history.map Record.slot).idxOf t
  /-- They are those of the history. -/
  mem_slots : ∀ s, s ∈ c.slots ↔ s ∈ history.map Record.slot
  /-- In each slot stands the record that came last. -/
  latest : ∀ r ∈ c.records, latest? history r.slot = some r
  /-- The index of keys leads to the slots. -/
  position : ∀ category key i,
    c.position? category key = some i ↔ c.slots[i]? = some (category, key.folded)
  /-- The index of editor ids leads to the record that took an id last, if it is there. -/
  idPosition : ∀ category id i, idPosition? c.ids category id = some i ↔
    ∃ r, c.records[i]? = some r ∧ taker? history category id = some r

/-- What those who look records up see of the history of a catalog. -/
structure Refines (history : List Record) (c : Catalog) : Prop where
  /-- There are as many records as categories and keys under which one was put in. -/
  size_eq : c.size = (history.map Record.slot).toFinset.card
  /-- Under a category and key stands the record put in last. -/
  get?_eq : ∀ category key, c.get? category key = latest? history (category, key.folded)
  /-- The records of a category are those that no later one has replaced. -/
  mem_ofCategory : ∀ category r, r ∈ c.ofCategory category ↔
    r.category = category ∧ latest? history r.slot = some r
  /-- They are listed once each, in the order in which their keys first came. -/
  ofCategory_ascending : ∀ category, (c.ofCategory category).Pairwise fun r s =>
    (history.map Record.slot).idxOf r.slot < (history.map Record.slot).idxOf s.slot
  /-- An editor id leads to a record of the category that carries it. -/
  withEditorId?_mem : ∀ category name r, c.withEditorId? category name = some r →
    r ∈ c.ofCategory category ∧ r.idKey = some (Text.lower name)

variable {history : List Record} {c : Catalog} {r s : Record} {ids : List IdEntry}
  {category category' : Category} {key : FormKey} {id id' : Text} {slot : Category × FormKey}
  {i j : Nat}

/-! ## Histories -/

/-- The slot of a record is that of a category and key when they are its own. -/
lemma slot_eq_iff : r.slot = (category, key.folded) ↔
    r.category = category ∧ r.key.same key = true := by
  rw [Record.slot, Prod.mk.injEq, FormKey.same_iff]

/-- The records of a category are those of the catalog that belong to it. -/
lemma mem_ofCategory_iff : r ∈ c.ofCategory category ↔ r ∈ c.records ∧ r.category = category := by
  rw [ofCategory, List.mem_filter, beq_iff_eq]

@[simp] lemma latest?_concat : latest? (history ++ [r]) slot =
    if r.slot = slot then some r else latest? history slot := by
  rw [latest?, latest?, List.reverse_append, List.reverse_singleton, List.singleton_append,
    List.find?_cons]
  split <;> simp_all

@[simp] lemma taker?_concat : taker? (history ++ [r]) category id =
    if r.category = category ∧ r.idKey = some id then some r else taker? history category id := by
  rw [taker?, taker?, List.reverse_append, List.reverse_singleton, List.singleton_append,
    List.find?_cons]
  split <;> simp_all

/-- A slot is empty when no record was put into it. -/
lemma latest?_eq_none_iff : latest? history slot = none ↔ slot ∉ history.map Record.slot := by
  simp [latest?, List.find?_eq_none]

/-- A slot that is filled has a latest record. -/
lemma exists_latest? (h : slot ∈ history.map Record.slot) : ∃ r, latest? history slot = some r :=
  Option.ne_none_iff_exists'.mp fun hnone => latest?_eq_none_iff.mp hnone h

/-- What was put last into a slot has the slot. -/
lemma slot_of_latest? (h : latest? history slot = some r) : r.slot = slot := by
  simpa using List.find?_some h

/-- Who took an editor id carries it. -/
lemma idKey_of_taker? (h : taker? history category id = some r) :
    r.category = category ∧ r.idKey = some id := by
  simpa using List.find?_some h

/-! ## The index of editor ids -/

/-- Taking an editor id out of an index leaves all others. -/
@[simp] lemma idPosition?_dropId : idPosition? (dropId ids category id) category' id' =
    if category' = category ∧ id' = id then none else idPosition? ids category' id' := by
  unfold idPosition? dropId
  rw [List.find?_filter]
  by_cases h : category' = category ∧ id' = id
  · obtain ⟨rfl, rfl⟩ := h
    rw [if_pos ⟨rfl, rfl⟩, Option.map_eq_none_iff, List.find?_eq_none]
    intro e _
    cases e.category == category' && e.id == id' <;> simp
  · rw [if_neg h]
    congr 2
    funext e
    cases he : e.category == category' && e.id == id' with
    | false => simp
    | true =>
      rw [Bool.and_eq_true, beq_iff_eq, beq_iff_eq] at he
      obtain ⟨rfl, rfl⟩ := he
      simp [not_and_or.mp h]

/-- An editor id leads to the record that is given it. -/
@[simp] lemma idPosition?_takeId {id? : Option Text} :
    idPosition? (takeId ids category id? i) category' id' =
      if category' = category ∧ id? = some id' then some i else idPosition? ids category' id' := by
  cases id? with
  | none => simp [takeId]
  | some id =>
    by_cases h : category' = category ∧ id' = id
    · obtain ⟨rfl, rfl⟩ := h
      rw [if_pos ⟨rfl, rfl⟩, idPosition?, takeId, List.find?_cons_of_pos (by simp)]
      rfl
    · have hdrop : idPosition? (dropId ids category id) category' id' =
          idPosition? ids category' id' := by
        rw [idPosition?_dropId, if_neg h]
      have hhead : (category == category' && id == id') = false := by
        rw [Bool.and_eq_false_imp, beq_iff_eq, beq_eq_false_iff_ne]
        exact fun hcategory hid => h ⟨hcategory.symm, hid.symm⟩
      rw [if_neg fun hid => h ⟨hid.1, (Option.some.inj hid.2).symm⟩, ← hdrop, idPosition?, takeId,
        List.find?_cons, hhead]
      rfl

/-- The record at a position loses its editor id, unless another record has taken that. -/
@[simp] lemma idPosition?_releaseId {id? : Option Text} :
    idPosition? (releaseId ids category id? i) category' id' =
      if (category' = category ∧ id? = some id') ∧ idPosition? ids category' id' = some i then none
      else idPosition? ids category' id' := by
  cases id? with
  | none => simp [releaseId]
  | some id =>
    by_cases h : category' = category ∧ id' = id
    · obtain ⟨rfl, rfl⟩ := h
      by_cases hi : idPosition? ids category' id' = some i <;> simp [releaseId, hi]
    · have hne : ¬ (category' = category ∧ some id = some id') :=
        fun hid => h ⟨hid.1, (Option.some.inj hid.2).symm⟩
      rw [if_neg fun hboth => hne hboth.1, releaseId]
      split
      · rw [idPosition?_dropId, if_neg h]
      · rfl

/-! ## Putting in a record -/

/-- A list with one more element has the old ones in their places and the new one at the end. -/
lemma getElem?_concat_eq_some_iff {α : Type*} {l : List α} {a b : α} :
    (l ++ [a])[i]? = some b ↔ l[i]? = some b ∨ i = l.length ∧ b = a := by
  rcases lt_trichotomy i l.length with hi | rfl | hi
  · rw [List.getElem?_append_left hi]
    simp [hi.ne]
  · simp [eq_comm]
  · rw [List.getElem?_eq_none (by simpa using hi), List.getElem?_eq_none hi.le]
    simp [hi.ne']

/-- A record under a new key comes last. -/
lemma insert_of_none (h : c.position? r.category r.key = none) : c.insert r =
    ⟨c.records ++ [r], ⟨r.category, r.key, c.size⟩ :: c.keys,
      takeId c.ids r.category r.idKey c.size⟩ := by
  simp only [insert, h]

/-- A record under a key that is there stands in its place. -/
lemma insert_of_some (h : c.position? r.category r.key = some i) (hs : c.records[i]? = some s) :
    c.insert r = ⟨c.records.set i r, c.keys,
      takeId (releaseId c.ids r.category s.idKey i) r.category r.idKey i⟩ := by
  simp only [insert, h, hs, Option.bind_some]

namespace Tracks

/-- Each slot is filled once. -/
lemma nodup_slots (h : Tracks history c) : c.slots.Nodup := by
  refine h.ascending.imp fun {s t} hlt heq => ?_
  rw [heq] at hlt
  exact lt_irrefl _ hlt

/-- A slot is at one position. -/
lemma position_inj (h : Tracks history c) (hr : c.records[i]? = some r)
    (hs : c.records[j]? = some s) (heq : r.slot = s.slot) : i = j := by
  have hi : c.slots[i]? = some r.slot := by rw [slots, List.getElem?_map, hr]; rfl
  have hj : c.slots[j]? = some r.slot := by rw [slots, List.getElem?_map, hs, heq]; rfl
  have hlt : i < c.slots.length := (List.getElem?_eq_some_iff.mp hi).1
  exact (List.getElem?_inj hlt h.nodup_slots).mp (hi.trans hj.symm)

/-- The records of an empty catalog are those of an empty history. -/
lemma empty : Tracks [] Catalog.empty where
  ascending := List.Pairwise.nil
  mem_slots _ := Iff.rfl
  latest _ hr := absurd hr List.not_mem_nil
  position _ _ _ := by simp [position?, Catalog.empty, slots]
  idPosition _ _ _ := by simp [idPosition?, Catalog.empty]

/-- The keys without a position are those under which nothing was put in. -/
lemma position?_eq_none_iff (h : Tracks history c) :
    c.position? category key = none ↔ (category, key.folded) ∉ history.map Record.slot := by
  rw [← h.mem_slots, List.mem_iff_getElem?, Option.eq_none_iff_forall_ne_some]
  simp only [ne_eq, h.position, not_exists]

/-- The record in the way of another one has its slot. -/
lemma exists_of_position? (h : Tracks history c) (hi : c.position? r.category r.key = some i) :
    ∃ s, c.records[i]? = some s ∧ s.slot = r.slot := by
  have hslot := (h.position r.category r.key i).mp hi
  rw [slots, List.getElem?_map] at hslot
  exact Option.map_eq_some_iff.mp hslot

/-- The place of a record is where its slot is. -/
lemma slot_eq_iff_place (h : Tracks history c) (hs : c.records[j]? = some s) (r : Record) :
    s.slot = r.slot ↔ j = c.place r := by
  cases hp : c.position? r.category r.key with
  | some i =>
    obtain ⟨t, ht, hslot⟩ := h.exists_of_position? hp
    rw [place, hp, Option.getD_some, ← hslot]
    constructor
    · exact h.position_inj hs ht
    · rintro rfl
      rw [hs, Option.some.injEq] at ht
      rw [ht]
  | none =>
    have hmem : s.slot ∈ history.map Record.slot :=
      (h.mem_slots _).mp (List.mem_map_of_mem (List.mem_of_getElem? hs))
    have hlt : j < c.size := (List.getElem?_eq_some_iff.mp hs).1
    have hnew : r.slot ∉ history.map Record.slot := h.position?_eq_none_iff.mp hp
    rw [place, hp, Option.getD_none]
    exact iff_of_false (fun heq => hnew (heq ▸ hmem)) hlt.ne

/-- Putting in a record leaves those in other slots. -/
lemma getElem?_insert (h : Tracks history c) (r : Record) : (c.insert r).records[j]? = some s ↔
    j = c.place r ∧ s = r ∨ c.records[j]? = some s ∧ s.slot ≠ r.slot := by
  have hother : c.records[j]? = some s ∧ s.slot ≠ r.slot ↔
      c.records[j]? = some s ∧ j ≠ c.place r :=
    and_congr_right fun hs => not_congr (h.slot_eq_iff_place hs r)
  rw [hother]
  cases hp : c.position? r.category r.key with
  | some i =>
    obtain ⟨t, ht, -⟩ := h.exists_of_position? hp
    have hlt : i < c.records.length := (List.getElem?_eq_some_iff.mp ht).1
    rw [insert_of_some hp ht, place, hp, Option.getD_some, List.getElem?_set]
    by_cases hj : i = j
    · subst hj
      simp [hlt, eq_comm]
    · simp [hj, Ne.symm hj]
  | none =>
    rw [insert_of_none hp, place, hp, Option.getD_none, getElem?_concat_eq_some_iff, or_comm]
    exact or_congr_right (and_iff_left_of_imp fun hs => (List.getElem?_eq_some_iff.mp hs).1.ne).symm

/-- Replacing a record fills no other slot. -/
lemma slots_insert_of_some (h : Tracks history c) (hi : c.position? r.category r.key = some i) :
    (c.insert r).slots = c.slots := by
  obtain ⟨s, hs, hslot⟩ := h.exists_of_position? hi
  have hi' : c.slots[i]? = some r.slot := (h.position r.category r.key i).mp hi
  rw [insert_of_some hi hs, slots, List.map_set]
  obtain ⟨hlt, heq⟩ := List.getElem?_eq_some_iff.mp hi'
  rw [← heq]
  exact List.set_getElem_self hlt

/-- A new record fills a slot behind the others. -/
lemma slots_insert_of_none (hnone : c.position? r.category r.key = none) :
    (c.insert r).slots = c.slots ++ [r.slot] := by
  rw [insert_of_none hnone, slots, List.map_append]
  rfl

/-- The slots stay in the order in which they first came. -/
lemma ascending_insert (h : Tracks history c) (r : Record) :
    (c.insert r).slots.Pairwise fun s t =>
      ((history ++ [r]).map Record.slot).idxOf s < ((history ++ [r]).map Record.slot).idxOf t := by
  have hmap : (history ++ [r]).map Record.slot = history.map Record.slot ++ [r.slot] := by simp
  have hold : ∀ s ∈ c.slots, ((history ++ [r]).map Record.slot).idxOf s =
      (history.map Record.slot).idxOf s := by
    intro s hs
    rw [hmap, List.idxOf_append_of_mem ((h.mem_slots s).mp hs)]
  have hascending : c.slots.Pairwise fun s t => ((history ++ [r]).map Record.slot).idxOf s <
      ((history ++ [r]).map Record.slot).idxOf t :=
    h.ascending.imp_of_mem fun hs ht hlt => by rwa [hold _ hs, hold _ ht]
  cases hp : c.position? r.category r.key with
  | some i => rwa [h.slots_insert_of_some hp]
  | none =>
    rw [slots_insert_of_none hp, List.pairwise_append]
    refine ⟨hascending, List.pairwise_singleton _ _, fun s hs t ht => ?_⟩
    have hnew : r.slot ∉ history.map Record.slot := h.position?_eq_none_iff.mp hp
    obtain rfl := List.mem_singleton.mp ht
    rw [hold s hs, hmap, List.idxOf_append_of_notMem hnew]
    exact lt_of_lt_of_le (List.idxOf_lt_length_of_mem ((h.mem_slots s).mp hs))
      (Nat.le_add_right _ _)

/-- The slots stay those of the history. -/
lemma mem_slots_insert (h : Tracks history c) (r : Record) (slot : Category × FormKey) :
    slot ∈ (c.insert r).slots ↔ slot ∈ (history ++ [r]).map Record.slot := by
  rw [List.map_append, List.mem_append, ← h.mem_slots, List.map_singleton]
  cases hp : c.position? r.category r.key with
  | some i =>
    have hmem : r.slot ∈ c.slots := List.mem_of_getElem? ((h.position _ _ i).mp hp)
    rw [h.slots_insert_of_some hp, List.mem_singleton]
    exact ⟨Or.inl, fun hslot => hslot.elim (fun h => h) fun heq => heq ▸ hmem⟩
  | none => rw [slots_insert_of_none hp, List.mem_append]

/-- The keys lead to the slots after a record was put in. -/
lemma position?_insert (h : Tracks history c) (r : Record) :
    (c.insert r).position? category key = some i ↔
      (c.insert r).slots[i]? = some (category, key.folded) := by
  cases hp : c.position? r.category r.key with
  | some j =>
    obtain ⟨s, hs, -⟩ := h.exists_of_position? hp
    rw [h.slots_insert_of_some hp, ← h.position, insert_of_some hp hs]
    rfl
  | none =>
    have hnew : r.slot ∉ c.slots := by
      rw [h.mem_slots]
      exact h.position?_eq_none_iff.mp hp
    have hkeys : (c.insert r).position? category key =
        if r.slot = (category, key.folded) then some c.size else c.position? category key := by
      rw [insert_of_none hp, position?, List.find?_cons]
      cases hsame : r.category == category && r.key.same key with
      | true =>
        rw [Bool.and_eq_true, beq_iff_eq] at hsame
        rw [if_pos (slot_eq_iff.mpr hsame)]
        rfl
      | false =>
        have hne : ¬ (r.category = category ∧ r.key.same key = true) := by simpa using hsame
        rw [if_neg (mt slot_eq_iff.mp hne)]
        rfl
    have hlength : c.slots.length = c.size := List.length_map _
    rw [slots_insert_of_none hp, hkeys, getElem?_concat_eq_some_iff, hlength]
    by_cases hslot : r.slot = (category, key.folded)
    · have hnone : c.slots[i]? ≠ some (category, key.folded) :=
        fun hi => hnew (hslot ▸ List.mem_of_getElem? hi)
      simp [hslot, hnone, eq_comm]
    · rw [if_neg hslot, h.position]
      simp [Ne.symm hslot]

/-- The position of an editor id is one of the records. -/
lemma lt_size_of_idPosition? (h : Tracks history c) (hj : idPosition? c.ids category id = some j) :
    j < c.size := by
  obtain ⟨s, hs, -⟩ := (h.idPosition category id j).mp hj
  exact (List.getElem?_eq_some_iff.mp hs).1

/-- A record that is put in takes its editor id, and its place loses the id that it had. -/
lemma idPosition?_insert (h : Tracks history c) (r : Record) :
    idPosition? (c.insert r).ids category id = some j ↔
      if r.category = category ∧ r.idKey = some id then j = c.place r
      else idPosition? c.ids category id = some j ∧ j ≠ c.place r := by
  have hcomm : category = r.category ∧ r.idKey = some id ↔
      r.category = category ∧ r.idKey = some id := and_congr_left' eq_comm
  cases hp : c.position? r.category r.key with
  | none =>
    rw [insert_of_none hp, place, hp, Option.getD_none, idPosition?_takeId]
    simp only [hcomm]
    split
    · rw [Option.some.injEq, eq_comm]
    · exact (and_iff_left_of_imp fun hj => (h.lt_size_of_idPosition? hj).ne).symm
  | some i =>
    obtain ⟨s, hs, hslot⟩ := h.exists_of_position? hp
    -- an id that leads to the place was taken by the record there, and is given up
    have hreleased : idPosition? c.ids category id = some i →
        category = r.category ∧ s.idKey = some id := by
      intro hi
      obtain ⟨t, ht, htaker⟩ := (h.idPosition category id i).mp hi
      obtain rfl : s = t := Option.some.inj (hs.symm.trans ht)
      obtain ⟨rfl, hid⟩ := idKey_of_taker? htaker
      exact ⟨congrArg Prod.fst hslot, hid⟩
    rw [insert_of_some hp hs, place, hp, Option.getD_some, idPosition?_takeId,
      idPosition?_releaseId]
    simp only [hcomm]
    split
    · rw [Option.some.injEq, eq_comm]
    · split
      · next hi =>
        rw [hi.2, Option.some.injEq]
        exact iff_of_false (by simp) fun hj => hj.2 hj.1.symm
      · next hi =>
        have hne : idPosition? c.ids category id ≠ some i := fun h => hi ⟨hreleased h, h⟩
        refine (and_iff_left_of_imp ?_).symm
        rintro hj rfl
        exact hne hj

/-- Putting in a record keeps the relation between a catalog and its history. -/
theorem insert (h : Tracks history c) (r : Record) : Tracks (history ++ [r]) (c.insert r) where
  ascending := h.ascending_insert r
  mem_slots := h.mem_slots_insert r
  latest s hs := by
    obtain ⟨j, hj⟩ := List.mem_iff_getElem?.mp hs
    rw [latest?_concat]
    obtain ⟨-, rfl⟩ | ⟨hold, hne⟩ := (h.getElem?_insert r).mp hj
    · rw [if_pos rfl]
    · rw [if_neg (Ne.symm hne)]
      exact h.latest s (List.mem_of_getElem? hold)
  position _ _ _ := h.position?_insert r
  idPosition category id j := by
    rw [h.idPosition?_insert r]
    simp only [h.getElem?_insert r, taker?_concat]
    by_cases htakes : r.category = category ∧ r.idKey = some id
    · simp only [if_pos htakes, Option.some.injEq]
      constructor
      · rintro rfl
        exact ⟨r, Or.inl ⟨rfl, rfl⟩, rfl⟩
      · rintro ⟨s, ⟨hj, -⟩ | ⟨-, hne⟩, rfl⟩
        · exact hj
        · exact absurd rfl hne
    · simp only [if_neg htakes, h.idPosition]
      constructor
      · rintro ⟨⟨s, hs, htaker⟩, hj⟩
        exact ⟨s, Or.inr ⟨hs, fun heq => hj ((h.slot_eq_iff_place hs r).mp heq)⟩, htaker⟩
      · rintro ⟨s, ⟨-, rfl⟩ | ⟨hs, hne⟩, htaker⟩
        · exact absurd (idKey_of_taker? htaker) htakes
        · exact ⟨⟨s, hs, htaker⟩, fun hj => hne ((h.slot_eq_iff_place hs r).mpr hj)⟩

/-- A record of the catalog is where its category and key lead. -/
lemma get?_eq (h : Tracks history c) (category : Category) (key : FormKey) :
    c.get? category key = latest? history (category, key.folded) := by
  cases hp : c.position? category key with
  | none =>
    rw [get?, hp, Option.bind_none, eq_comm, latest?_eq_none_iff]
    exact h.position?_eq_none_iff.mp hp
  | some i =>
    have hslot := (h.position category key i).mp hp
    rw [slots, List.getElem?_map] at hslot
    obtain ⟨r, hr, hslot⟩ := Option.map_eq_some_iff.mp hslot
    rw [get?, hp, Option.bind_some, hr, ← hslot, h.latest r (List.mem_of_getElem? hr)]

/-- The records of the catalog are those that no later one has replaced. -/
lemma mem_records_iff (h : Tracks history c) : r ∈ c.records ↔ latest? history r.slot = some r := by
  refine ⟨h.latest r, fun hr => ?_⟩
  have hmem : r.slot ∈ c.slots := by
    rw [h.mem_slots, ← not_not (a := r.slot ∈ _), ← latest?_eq_none_iff, hr]
    exact Option.some_ne_none r
  obtain ⟨s, hs, hslot⟩ := List.mem_map.mp hmem
  have hlatest := h.latest s hs
  rw [hslot, hr, Option.some.injEq] at hlatest
  exact hlatest ▸ hs

/-- An editor id leads to the record that took it last, if that is there. -/
lemma withEditorId?_eq_some_iff (h : Tracks history c) {name : Text} :
    c.withEditorId? category name = some r ↔
      r ∈ c.records ∧ taker? history category (Text.lower name) = some r := by
  rw [withEditorId?, Option.bind_eq_some_iff, List.mem_iff_getElem?]
  constructor
  · rintro ⟨i, hi, hr⟩
    obtain ⟨s, hs, htaker⟩ := (h.idPosition category _ i).mp hi
    obtain rfl : s = r := Option.some.inj (hs.symm.trans hr)
    exact ⟨⟨i, hr⟩, htaker⟩
  · rintro ⟨⟨i, hr⟩, htaker⟩
    exact ⟨i, (h.idPosition category _ i).mpr ⟨r, hr, htaker⟩, hr⟩

/-- What tracks a history refines it. -/
lemma refines (h : Tracks history c) : Refines history c where
  size_eq := by
    have hset : (history.map Record.slot).toFinset = c.slots.toFinset := by
      ext s
      rw [List.mem_toFinset, List.mem_toFinset, h.mem_slots]
    rw [hset, List.toFinset_card_of_nodup h.nodup_slots, slots, List.length_map, size]
  get?_eq := h.get?_eq
  mem_ofCategory category r := by
    rw [mem_ofCategory_iff, h.mem_records_iff, and_comm]
  ofCategory_ascending category := (List.pairwise_map.mp h.ascending).filter _
  withEditorId?_mem category name r hr := by
    obtain ⟨hmem, htaker⟩ := h.withEditorId?_eq_some_iff.mp hr
    obtain ⟨hcategory, hid⟩ := idKey_of_taker? htaker
    exact ⟨mem_ofCategory_iff.mpr ⟨hmem, hcategory⟩, hid⟩

end Tracks

/-- The catalog of a list tracks the list. -/
theorem tracks_ofList (history : List Record) : Tracks history (ofList history) := by
  induction history using List.reverseRecOn with
  | nil => exact Tracks.empty
  | append_singleton history r ih =>
    rw [ofList, List.foldl_append]
    exact ih.insert r

/-- A catalog keeps of each category and key the record put in last, in the order in which they
first came, and its editor ids lead to no other record. -/
theorem ofList_refines (history : List Record) : Refines history (ofList history) :=
  (tracks_ofList history).refines

end Catalog

end Wardrobe
