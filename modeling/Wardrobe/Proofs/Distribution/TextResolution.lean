import Mathlib
import Wardrobe.Distribution.Resolution
import Wardrobe.Proofs.Distribution.GainedKeywords
import Wardrobe.Proofs.Record.ActorRecords

/-!
# Whom a text condition names

An exact text condition that is an actor's editor id or name, letter case aside, is hit by the
actor.  The resolver looks the same text up in a catalog, editor ids in lower case and names up to
the case of the letters `A` to `Z`.  So it can miss an actor by its name: `text_eq_record_iff` says
exactly when a text that calls an actor is resolved to a record.
-/

namespace Wardrobe

/-- A text is the editor id or the name of an actor; letter case does not count. -/
def Actor.IsCalled (a : Actor) (t : Text) : Prop :=
  Text.lower a.editorId = Text.lower t ∨ ∃ name ∈ a.name, Text.lower name = Text.lower t

/-- A text is the editor id of an actor, where letter case does not count, or its name, where the
case of the letters `A` to `Z` does not. -/
def Actor.IsListed (a : Actor) (t : Text) : Prop :=
  Text.lower a.editorId = Text.lower t ∨ ∃ name ∈ a.name, Text.sameAscii name t = true

/-- An exact condition is hit by the actors that it calls. -/
lemma Actor.textHit_of_isCalled {a : Actor} {c : Condition} (hc : c.isWildcard = false)
    (h : a.IsCalled c.value) (gained : List Text) : a.textHit gained c = true := by
  have hreads : c.Reads (Text.lower c.value) := by
    unfold Condition.Reads
    rw [hc, if_neg Bool.false_ne_true]
  refine textHit_iff.mpr ⟨Text.lower c.value, Or.inl ?_, hreads⟩
  obtain hid | ⟨name, hname, heq⟩ := h
  · rw [← hid]
    exact List.mem_map_of_mem List.mem_cons_self
  · have hmem : name ∈ a.titles := List.mem_cons_of_mem _
      (List.mem_append_left _ (Option.mem_toList.mpr hname))
    rw [← heq]
    exact List.mem_map_of_mem hmem

namespace Resolver

variable {s : Snapshot} {v : VirtualKeywords} {c : Condition} {value : Text}

/-- An exact condition is resolved to a record when its value names one. -/
lemma text_eq_record_of_exact (hc : c.isWildcard = false) {catalog : Catalog} {r : Record} :
    text catalog v c = .record r ↔ textRecord? catalog c.value = some r := by
  unfold text
  rw [hc, if_neg Bool.false_ne_true]
  cases textRecord? catalog c.value with
  | some r' => simp
  | none =>
    refine iff_of_false (fun h => ?_) nofun
    dsimp only at h
    split at h <;> cases h

/-- An npc is found by name as the first actor with the name. -/
lemma npcNamed?_catalog (hs : s.StandsAlone) : npcNamed? s.catalog value =
    (s.actors.find? fun a => a.name.any (Text.sameAscii · value)).map Actor.toRecord := by
  rw [npcNamed?, hs.ofCategory_npc, List.find?_map]
  rfl

/-- A value names the last actor with that editor id, or else the first with that name, or else a
listed keyword. -/
lemma textRecord?_catalog (hs : s.StandsAlone) : textRecord? s.catalog value =
    (((s.actors.reverse.find? fun a => Text.lower a.editorId = Text.lower value).or
      (s.actors.find? fun a => a.name.any (Text.sameAscii · value))).map Actor.toRecord).or
        ((Catalog.ofList s.records).withEditorId? .keyword value) := by
  rw [textRecord?, hs.withEditorId?_npc, npcNamed?_catalog hs,
    hs.withEditorId?_of_ne_npc (by decide), Option.map_or]

/-- A value names a record when an actor is listed under it or a keyword is. -/
lemma isSome_textRecord?_catalog (hs : s.StandsAlone) :
    (textRecord? s.catalog value).isSome = true ↔ (∃ b ∈ s.actors, b.IsListed value) ∨
      ((Catalog.ofList s.records).withEditorId? .keyword value).isSome = true := by
  have hid : (s.actors.reverse.find? fun a => Text.lower a.editorId = Text.lower value).isSome =
      true ↔ ∃ b ∈ s.actors, Text.lower b.editorId = Text.lower value := by
    simp [List.find?_isSome]
  have hname : (s.actors.find? fun a => a.name.any (Text.sameAscii · value)).isSome = true ↔
      ∃ b ∈ s.actors, ∃ name ∈ b.name, Text.sameAscii name value = true := by
    simp [List.find?_isSome, Option.any_eq_true]
  rw [textRecord?_catalog hs, Option.isSome_or, Bool.or_eq_true, Option.isSome_map,
    Option.isSome_or, Bool.or_eq_true, hid, hname, ← exists_or]
  simp only [Actor.IsListed, and_or_left]

/-- In a snapshot whose npcs are its actors, each under a key of its own, an exact text condition is
hit by all actors that it calls; and it is resolved to a record exactly when some actor is listed
under it, or a listed keyword is found by it. -/
theorem text_eq_record_iff (hs : s.StandsAlone) (hc : c.isWildcard = false) :
    (∀ a : Actor, a.IsCalled c.value → ∀ gained, a.textHit gained c = true) ∧
    ((∃ r, text s.catalog v c = .record r) ↔ (∃ b ∈ s.actors, b.IsListed c.value) ∨
      ((Catalog.ofList s.records).withEditorId? .keyword c.value).isSome = true) := by
  refine ⟨fun a hcalled => a.textHit_of_isCalled hc hcalled, ?_⟩
  simp only [text_eq_record_of_exact hc]
  rw [← Option.isSome_iff_exists]
  exact isSome_textRecord?_catalog hs

/-- A guard is called like a keyword, in another case: the guard is hit, and the text is resolved to
a record. -/
theorem text_eq_record_of_name : ∃ (s : Snapshot) (c : Condition) (guard : Actor),
    s.records = [⟨.keyword, ⟨"Skyrim.esm".toList, 1⟩, some "Nord".toList, none⟩] ∧
    s.actors = [.ofKey ⟨"Skyrim.esm".toList, 16⟩ "Lydia".toList, guard] ∧
    guard.name = some "NORD".toList ∧ c.value = "nord".toList ∧
    s.StandsAlone ∧ c.isWildcard = false ∧ (∀ gained, guard.textHit gained c = true) ∧
    ∃ r, text s.catalog ⟨[]⟩ c = .record r := by
  let guard : Actor := { Actor.ofKey ⟨"Skyrim.esm".toList, 17⟩ "Guard".toList with
    name := some "NORD".toList }
  let s : Snapshot := ⟨[⟨.keyword, ⟨"Skyrim.esm".toList, 1⟩, some "Nord".toList, none⟩],
    [.ofKey ⟨"Skyrim.esm".toList, 16⟩ "Lydia".toList, guard]⟩
  let c : Condition := ⟨"nord".toList, false, .none⟩
  have hs : s.StandsAlone := ⟨by decide +kernel, by decide +kernel⟩
  have hc : c.isWildcard = false := rfl
  have hcalled : guard.IsCalled c.value := Or.inr ⟨_, rfl, by decide +kernel⟩
  have hlisted : guard.IsListed c.value := Or.inr ⟨_, rfl, by decide +kernel⟩
  have hguard : guard ∈ s.actors := List.mem_cons_of_mem _ List.mem_cons_self
  obtain ⟨hhit, hrecord⟩ := text_eq_record_iff (v := ⟨[]⟩) hs hc
  exact ⟨s, c, guard, rfl, rfl, rfl, rfl, hs, hc, hhit guard hcalled,
    hrecord.mpr (Or.inl ⟨guard, hguard, hlisted⟩)⟩

/-- A name that begins with a letter outside ASCII calls its actor in lower case as well, but is not
resolved. -/
theorem not_text_eq_record_of_accent : ¬ ∀ (s : Snapshot) (v : VirtualKeywords) (c : Condition)
    (a : Actor), s.StandsAlone → a ∈ s.actors → c.isWildcard = false → a.IsCalled c.value →
      ∃ r, text s.catalog v c = .record r := by
  intro h
  let a : Actor := { Actor.ofKey ⟨"Skyrim.esm".toList, 16⟩ "Guard".toList with
    name := some "Élan".toList }
  let c : Condition := ⟨"élan".toList, false, .none⟩
  have hcalled : a.IsCalled c.value := Or.inr ⟨_, rfl, by decide +kernel⟩
  obtain ⟨r, hr⟩ := h ⟨[], [a]⟩ ⟨[]⟩ c a ⟨by decide, by decide⟩ List.mem_cons_self rfl hcalled
  have hunresolved : text (Snapshot.catalog ⟨[], [a]⟩) ⟨[]⟩ c = .unresolved c.value := by
    decide +kernel
  rw [hunresolved] at hr
  cases hr

end Resolver

end Wardrobe
