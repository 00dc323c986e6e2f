import Mathlib
import Wardrobe.Proofs.Record.FieldReading

/-!
# Writing and reading snapshots

A snapshot that was read is *legible*: its keys are, and its numbers are within their bounds.  All
of it is read back from what is written for it, except that a key with a bar in its plugin is
refused, and the snapshot with it (`ofJson?_toJson`).  Each structure of a snapshot has one lemma
for what was read and one for what is read back.
-/

namespace Wardrobe

/-- What an actor that was read looks like. -/
structure Actor.Legible (a : Actor) : Prop where
  mentions : ∀ m ∈ a.mentions, m.key.Legible
  ranks : ∀ f ∈ a.factions, -128 ≤ f.rank ∧ f.rank ≤ 127
  level : a.level ≤ 65535
  skills : ∀ n ∈ a.skills, n ≤ 255

namespace Snapshot

/-- What a snapshot that was read looks like. -/
structure Legible (s : Snapshot) : Prop where
  records : ∀ r ∈ s.records, r.key.Legible
  actors : ∀ a ∈ s.actors, a.Legible

/-- The keys of the records, of the actors, and of the records to which actors refer. -/
def keys (s : Snapshot) : List FormKey :=
  s.records.map (·.key) ++ s.actors.flatMap fun a => a.mentions.map (·.key)

variable {k : FormKey} {r : Record} {m : Mention} {f : Membership} {a : Actor} {s : Snapshot}
  {value : Json} {t : Text}

/-- What holds of all mentions of an actor holds of those in each of its fields. -/
lemma forall_mentions_iff {P : FormKey → Prop} : (∀ m ∈ a.mentions, P m.key) ↔
    P a.key ∧ (∀ m ∈ a.race, P m.key) ∧ (∀ m ∈ a.combatClass, P m.key) ∧
      (∀ m ∈ a.combatStyle, P m.key) ∧ (∀ m ∈ a.voice, P m.key) ∧ (∀ m ∈ a.template, P m.key) ∧
      (∀ m ∈ a.defaultOutfit, P m.key) ∧ ∀ f ∈ a.factions, P f.key := by
  simp only [Actor.mentions, List.forall_mem_cons, List.forall_mem_append, Option.mem_toList,
    List.forall_mem_map, Option.mem_def]
  tauto

/-! ## What was read -/

/-- A record that was read has a legible key. -/
lemma legible_of_record? (h : record? value = some r) : r.key.Legible := by
  obtain ⟨fields, -, h⟩ := Option.bind_eq_some_iff.mp h
  split at h
  · obtain ⟨category, -, h⟩ := Option.bind_eq_some_iff.mp h
    obtain ⟨key, hkey, h⟩ := Option.bind_eq_some_iff.mp h
    obtain ⟨editorId, -, h⟩ := Option.bind_eq_some_iff.mp h
    obtain ⟨name, -, h⟩ := Option.bind_eq_some_iff.mp h
    obtain rfl := Option.some.inj h
    exact legible_of_required? hkey
  · cases h

/-- A mention that was read has a legible key. -/
lemma legible_of_mention? (h : mention? value = some m) : m.key.Legible := by
  obtain ⟨fields, -, h⟩ := Option.bind_eq_some_iff.mp h
  split at h
  · obtain ⟨key, hkey, h⟩ := Option.bind_eq_some_iff.mp h
    obtain ⟨editorId, -, h⟩ := Option.bind_eq_some_iff.mp h
    obtain rfl := Option.some.inj h
    exact legible_of_required? hkey
  · cases h

/-- A membership that was read has a legible key and a rank of one byte. -/
lemma legible_of_membership? (h : membership? value = some f) :
    f.key.Legible ∧ -128 ≤ f.rank ∧ f.rank ≤ 127 := by
  obtain ⟨fields, -, h⟩ := Option.bind_eq_some_iff.mp h
  split at h
  · obtain ⟨key, hkey, h⟩ := Option.bind_eq_some_iff.mp h
    obtain ⟨editorId, -, h⟩ := Option.bind_eq_some_iff.mp h
    obtain ⟨rank, hrank, h⟩ := Option.bind_eq_some_iff.mp h
    obtain rfl := Option.some.inj h
    refine ⟨legible_of_required? hkey, ?_⟩
    obtain rfl | ⟨number, hnumber⟩ := eq_or_exists_of_withDefault? hrank
    · simp
    · exact bounds_of_int? hnumber
  · cases h

/-- An actor that was read is legible. -/
lemma legible_of_actor? (h : actor? value = some a) : a.Legible := by
  have hmention : ∀ {field : Option Json} {m? : Option Mention},
      optional? mention? field = some m? → ∀ m ∈ m?, m.key.Legible := by
    intro field m? hread m hm
    obtain ⟨written, hwritten⟩ := exists_of_optional? hread hm
    exact legible_of_mention? hwritten
  obtain ⟨fields, -, h⟩ := Option.bind_eq_some_iff.mp h
  split at h
  · obtain ⟨key, hkey, h⟩ := Option.bind_eq_some_iff.mp h
    obtain ⟨editorId, -, h⟩ := Option.bind_eq_some_iff.mp h
    obtain ⟨name, -, h⟩ := Option.bind_eq_some_iff.mp h
    obtain ⟨source, -, h⟩ := Option.bind_eq_some_iff.mp h
    obtain ⟨race, hrace, h⟩ := Option.bind_eq_some_iff.mp h
    obtain ⟨combatClass, hclass, h⟩ := Option.bind_eq_some_iff.mp h
    obtain ⟨combatStyle, hstyle, h⟩ := Option.bind_eq_some_iff.mp h
    obtain ⟨voice, hvoice, h⟩ := Option.bind_eq_some_iff.mp h
    obtain ⟨template, htemplate, h⟩ := Option.bind_eq_some_iff.mp h
    obtain ⟨defaultOutfit, houtfit, h⟩ := Option.bind_eq_some_iff.mp h
    obtain ⟨factions, hfactions, h⟩ := Option.bind_eq_some_iff.mp h
    obtain ⟨keywords, -, h⟩ := Option.bind_eq_some_iff.mp h
    obtain ⟨raceKeywords, -, h⟩ := Option.bind_eq_some_iff.mp h
    obtain ⟨traits, -, h⟩ := Option.bind_eq_some_iff.mp h
    obtain ⟨level, hlevel, h⟩ := Option.bind_eq_some_iff.mp h
    obtain ⟨skills, hskills, h⟩ := Option.bind_eq_some_iff.mp h
    obtain rfl := Option.some.inj h
    have hfaction : ∀ f ∈ factions, f.key.Legible ∧ -128 ≤ f.rank ∧ f.rank ≤ 127 := by
      intro f hf
      obtain ⟨item, hitem⟩ := exists_of_withDefault?_list? hfactions hf
      exact legible_of_membership? hitem
    refine ⟨?_, fun f hf => (hfaction f hf).2, ?_, fun n hn => ?_⟩
    · exact forall_mentions_iff.mpr ⟨legible_of_required? hkey, hmention hrace, hmention hclass,
        hmention hstyle, hmention hvoice, hmention htemplate, hmention houtfit,
        fun f hf => (hfaction f hf).1⟩
    · obtain rfl | ⟨number, hnumber⟩ := eq_or_exists_of_withDefault? hlevel
      · exact Nat.zero_le _
      · exact le_of_nat? hnumber
    · obtain ⟨item, hitem⟩ := exists_of_withDefault?_list? hskills hn
      exact le_of_nat? hitem
  · cases h

/-- A snapshot that was read is legible. -/
lemma legible_of_ofJson? (h : ofJson? value = some s) : s.Legible := by
  obtain ⟨fields, -, h⟩ := Option.bind_eq_some_iff.mp h
  split at h
  · obtain ⟨records, hrecords, h⟩ := Option.bind_eq_some_iff.mp h
    obtain ⟨actors, hactors, h⟩ := Option.bind_eq_some_iff.mp h
    obtain rfl := Option.some.inj h
    refine ⟨fun r hr => ?_, fun a ha => ?_⟩
    · obtain ⟨item, hitem⟩ := exists_of_withDefault?_list? hrecords hr
      exact legible_of_record? hitem
    · obtain ⟨item, hitem⟩ := exists_of_withDefault?_list? hactors ha
      exact legible_of_actor? hitem
  · cases h

/-! ## What is read back -/

/-- A key is read back when it has no bar. -/
lemma key?_keyToJson (h : k.Legible) : key? (keyToJson k) = Option.guard FormKey.unbarred k := by
  rw [key?, keyToJson, text?_ofText, Option.bind_some, FormKey.ofText?_toText h, ← ite_not]
  exact if_congr FormKey.unbarred_iff.symm rfl rfl

/-- A category is read back from its name. -/
lemma category?_categoryToText (c : Category) :
    category? (.ofText (categoryToText c)) = some c := by
  cases c <;> decide

/-- A trait set is read back. -/
lemma traits?_toText (traits : TraitSet) : traits? (.ofText traits.toText) = some traits := by
  have hbytes : ∀ n < 256, TraitSet.ofText? (TraitSet.toText ⟨UInt8.ofNat n⟩) =
      some ⟨UInt8.ofNat n⟩ := by decide +kernel
  have hread := hbytes traits.bits.toNat traits.bits.toNat_lt
  rw [UInt8.ofNat_toNat] at hread
  rw [traits?, text?_ofText, Option.bind_some, hread]

/-- A record is read back when its key is. -/
lemma record?_recordToJson (h : r.key.Legible) :
    record? (recordToJson r) = Option.guard (·.key.unbarred) r := by
  have hfields : fields? recordFields (recordToJson r) = some [
      some (.ofText (categoryToText r.category)), some (keyToJson r.key),
      some (.ofOption .ofText r.editorId), some (.ofOption .ofText r.name)] :=
    fields?_ofFields (show recordFields.Nodup by decide)
  simp only [record?, hfields, required?, Option.bind_eq_bind, Option.bind_some,
    category?_categoryToText, key?_keyToJson h, optional?_text, guard_bind]
  rfl

/-- A mention is read back when its key is. -/
lemma mention?_mentionToJson (h : m.key.Legible) :
    mention? (mentionToJson m) = Option.guard (·.key.unbarred) m := by
  have hfields : fields? mentionFields (mentionToJson m) = some [
      some (keyToJson m.key), some (.ofOption .ofText m.editorId)] :=
    fields?_ofFields (show mentionFields.Nodup by decide)
  simp only [mention?, hfields, required?, Option.bind_eq_bind, Option.bind_some,
    key?_keyToJson h, optional?_text, guard_bind]
  rfl

/-- A membership is read back when its key is. -/
lemma membership?_membershipToJson (h : f.key.Legible) (hrank : -128 ≤ f.rank ∧ f.rank ≤ 127) :
    membership? (membershipToJson f) = Option.guard (·.key.unbarred) f := by
  have hfields : fields? membershipFields (membershipToJson f) = some [
      some (keyToJson f.key), some (.ofOption .ofText f.editorId), some (.ofInt f.rank)] :=
    fields?_ofFields (show membershipFields.Nodup by decide)
  simp only [membership?, hfields, required?, withDefault?, Option.bind_eq_bind, Option.bind_some,
    key?_keyToJson h, optional?_text, int?_ofInt hrank.1 hrank.2, guard_bind]
  rfl

/-- The fields of a written actor. -/
lemma fields?_actorToJson (a : Actor) : fields? actorFields (actorToJson a) = some [
    some (keyToJson a.key), some (.ofText a.editorId), some (.ofOption .ofText a.name),
    some (.ofOption .ofText a.source), some (.ofOption mentionToJson a.race),
    some (.ofOption mentionToJson a.combatClass), some (.ofOption mentionToJson a.combatStyle),
    some (.ofOption mentionToJson a.voice), some (.ofOption mentionToJson a.template),
    some (.ofOption mentionToJson a.defaultOutfit), some (.ofList membershipToJson a.factions),
    some (.ofList .ofText a.keywords), some (.ofList .ofText a.raceKeywords),
    some (.ofText a.traits.toText), some (.ofNat a.level), some (.ofList .ofNat a.skills)] :=
  fields?_ofFields (show actorFields.Nodup by decide)

/-- An actor is read back when all keys are that it mentions. -/
lemma actor?_actorToJson (h : a.Legible) :
    actor? (actorToJson a) = Option.guard (·.mentions.all (·.key.unbarred)) a := by
  obtain ⟨hkey, hrace, hclass, hstyle, hvoice, htemplate, houtfit, hkeys⟩ :=
    forall_mentions_iff.mp h.mentions
  have hmention : ∀ m? : Option Mention, (∀ m ∈ m?, m.key.Legible) →
      optional? mention? (some (.ofOption mentionToJson m?)) =
        Option.guard (·.all (·.key.unbarred)) m? := fun m? hm? =>
    optional?_ofOption (fun m hm => mention?_mentionToJson (hm? m hm)) fun m => Json.noConfusion
  have hfactions : list? membership? (.ofList membershipToJson a.factions) =
      Option.guard (·.all (·.key.unbarred)) a.factions :=
    list?_ofList fun f hf => membership?_membershipToJson (hkeys f hf) (h.ranks f hf)
  have hskills : list? (nat? 255) (.ofList .ofNat a.skills) = some a.skills :=
    list?_ofList_eq_some fun n hn => nat?_ofNat (h.skills n hn)
  rw [actor?, fields?_actorToJson]
  dsimp only [Option.bind_eq_bind, Option.bind_some, required?, withDefault?]
  simp only [key?_keyToJson hkey, text?_ofText, optional?_text, hmention a.race hrace,
    hmention a.combatClass hclass, hmention a.combatStyle hstyle, hmention a.voice hvoice,
    hmention a.template htemplate, hmention a.defaultOutfit houtfit, hfactions, list?_text,
    traits?_toText, nat?_ofNat h.level, hskills, Option.bind_some, guard_bind, ← ite_and]
  have hall : a.mentions.all (·.key.unbarred) = true ↔ _ :=
    List.all_eq_true.trans (forall_mentions_iff (P := (·.unbarred = true)))
  refine if_congr (Iff.trans ?_ hall.symm) rfl rfl
  simp only [Option.all_eq_true, List.all_eq_true, Option.mem_def]

/-- A snapshot is read back when all its keys are. -/
lemma ofJson?_toJson (h : s.Legible) :
    ofJson? s.toJson = Option.guard (·.keys.all (·.unbarred)) s := by
  have hfields : fields? snapshotFields s.toJson = some [
      some (.ofList recordToJson s.records), some (.ofList actorToJson s.actors)] :=
    fields?_ofFields (show snapshotFields.Nodup by decide)
  have hrecords := list?_ofList fun r hr => record?_recordToJson (h.records r hr)
  have hactors := list?_ofList fun a ha => actor?_actorToJson (h.actors a ha)
  simp only [ofJson?, hfields, withDefault?, Option.bind_eq_bind, Option.bind_some, hrecords,
    hactors, guard_bind, ← ite_and]
  refine if_congr ?_ rfl rfl
  simp [keys, List.all_flatMap, Function.comp_def]

/-- A key that was read is read back from its text, unless there is a bar in its plugin; and a
snapshot that was read is read back from its document, unless there is a bar in the plugin of one of
its keys. -/
theorem keys_survive_unless_barred (hk : FormKey.ofText? t = some k) (hs : ofJson? value = some s) :
    (FormKey.ofText? k.toText = if '|' ∈ k.plugin then none else some k) ∧
      ofJson? s.toJson = if ∃ k ∈ s.keys, '|' ∈ k.plugin then none else some s := by
  refine ⟨FormKey.ofText?_toText (FormKey.legible_of_ofText? hk), ?_⟩
  rw [ofJson?_toJson (legible_of_ofJson? hs), ← ite_not]
  refine if_congr ?_ rfl rfl
  simp [FormKey.unbarred_iff]

/-- A key whose plugin holds an ending and a blank survives, and so does a snapshot of an actor with
its race. -/
theorem keys_survive_of_ending_in_plugin : ∃ value k s,
    value = Json.object [(some "characters".toList, .array [.object [
      (some "race".toList, .object [(some "key".toList, .ofText "a.esp.esp|8".toList)]),
      (some "traits".toList, .ofText "DEAD|FEMALE".toList),
      (some "editor_id".toList, .ofText "Guard".toList),
      (some "key".toList, .ofText "0X1~Skyrim.esm".toList)]])] ∧
    FormKey.ofText? " My.esp Mod.esm|0x0a ".toList = some k ∧ ofJson? value = some s ∧
      FormKey.ofText? k.toText = some k ∧ ofJson? s.toJson = some s := by
  have hk : FormKey.ofText? " My.esp Mod.esm|0x0a ".toList =
      some ⟨"My.esp Mod.esm".toList, 10⟩ := by decide +kernel
  have hany : (ofJson? (.object [(some "characters".toList, .array [.object [
      (some "race".toList, .object [(some "key".toList, .ofText "a.esp.esp|8".toList)]),
      (some "traits".toList, .ofText "DEAD|FEMALE".toList),
      (some "editor_id".toList, .ofText "Guard".toList),
      (some "key".toList, .ofText "0X1~Skyrim.esm".toList)]])])).any
      (fun s => ¬ ∃ k ∈ s.keys, '|' ∈ k.plugin) = true := by decide +kernel
  obtain ⟨s, hs, hbar⟩ := (Option.any_eq_true _ _).mp hany
  obtain ⟨hkey, hsnapshot⟩ := keys_survive_unless_barred hk hs
  rw [if_neg (by decide)] at hkey
  rw [if_neg (of_decide_eq_true hbar)] at hsnapshot
  exact ⟨_, _, s, rfl, hk, hs, hkey, hsnapshot⟩

/-- A plugin name before a bar may hold a bar, but one behind a tilde may not. -/
theorem not_keys_survive_of_barred :
    ¬ (∀ t k, FormKey.ofText? t = some k → FormKey.ofText? k.toText = some k) ∧
    ¬ ∀ value s, ofJson? value = some s → ofJson? s.toJson = some s := by
  constructor
  · intro h
    have hk : FormKey.ofText? "A|B.esp|0x1".toList = some ⟨"A|B.esp".toList, 1⟩ := by
      decide +kernel
    have hnone : FormKey.ofText? (FormKey.toText ⟨"A|B.esp".toList, 1⟩) = none := by
      decide +kernel
    rw [h _ _ hk] at hnone
    cases hnone
  · intro h
    have hany : (ofJson? (.object [(some "records".toList, .array [.object [
        (some "kind".toList, .ofText "outfit".toList),
        (some "key".toList, .ofText "A|B.esp|0x1".toList)]])])).any
        (fun s => (ofJson? s.toJson).isNone) = true := by decide +kernel
    obtain ⟨s, hs, hnone⟩ := (Option.any_eq_true _ _).mp hany
    rw [h _ s hs] at hnone
    cases hnone

end Snapshot

end Wardrobe
