import Mathlib
import Wardrobe.Distribution.Selects
import Wardrobe.Proofs.Rule.TraitText
import Wardrobe.Rule.Clausal

/-!
# What a clausal line means

The clauses of a line must all hold, each in one of its alternatives.  The sections of a rule are
built the other way round, as alternatives that each hold all their conditions; `any_all_product`
says that multiplying the clauses out changes nothing, and `holds_multiplyOut_iff` takes the clauses
without alternatives and the exclusions into account.

Reading goes through the clauses one by one.  `Draft.Reads` says what a draft holds of the clauses
read so far; a clause that is added keeps it (`Draft.Reads.add`), and so does a whole line
(`Draft.Reads.foldlM`).  `rulesOfLine_means` puts this together: the rules of a line select the
actors that its clauses admit.
-/

namespace Wardrobe

/-- What a rule hands out, as a clause names it. -/
def Rule.target (r : Rule) : Clausal.Target :=
  ⟨r.gift, r.keyword, r.form⟩

namespace Clausal

/-- The clauses of a line. -/
def clausesOf (line : Text) : List Clause :=
  (clauseTexts (Text.trim (Text.stripComment line))).filterMap fun t => (Clause.ofText t).toOption

/-- The words for clauses that ask for one of some records. -/
def formWords : List String :=
  ["filterByNpcs", "filterByFactions", "filterByRaces", "filterByOutfits"]

/-- The words for clauses that rule out records. -/
def formExclusionWords : List String :=
  ["filterByNpcsExcluded", "filterByFactionsExcluded", "filterByRacesExcluded",
    "filterByOutfitsExcluded"]

/-- The word for clauses that ask for one of some keywords. -/
def textWords : List String := ["filterByKeywords"]

/-- The word for clauses that rule out keywords. -/
def textExclusionWords : List String := ["filterByKeywordsExcluded"]

/-- The word for clauses that ask for a gender. -/
def genderWords : List String := ["filterByGender"]

/-- The word for clauses that name an outfit. -/
def outfitWords : List String := ["outfitDefault"]

/-- The word for clauses that name an outfit for sleeping. -/
def sleepOutfitWords : List String := ["outfitSleep"]

/-- The word for clauses that give a chance. -/
def chanceWords : List String := ["chance"]

namespace Clause

/-- True when the key of a clause is one of some words, whatever the case of its letters. -/
def isNamed (words : List String) (c : Clause) : Bool :=
  words.any fun word => Text.sameAscii c.key word.toList

/-- A condition stands between the commas of a clause. -/
def Lists (c : Clause) (x : Condition) : Prop :=
  ∃ piece ∈ c.value.splitOn ',', Condition.ofText? piece = some x

/-- One of the conditions of a clause holds, if it has any. -/
def Offers (hit : Condition → Bool) (c : Clause) : Prop :=
  (∃ x, c.Lists x) → ∃ x, c.Lists x ∧ x.holds hit = true

/-- No condition of a clause is hit, negated or not. -/
def Bars (hit : Condition → Bool) (c : Clause) : Prop :=
  ∀ x, c.Lists x → hit x = false

end Clause

/-- The value of the last clause with one of some words. -/
def lastValue? (words : List String) (clauses : List Clause) : Option Text :=
  (clauses.reverse.find? (Clause.isNamed words)).map Clause.value

/-- An actor has the gender that a text names. -/
def HasGender (a : Actor) (gender : Text) : Prop :=
  Text.sameAscii gender "female".toList = true ∧ a.traits.has .female = true ∨
    Text.sameAscii gender "male".toList = true ∧ a.traits.has .female = false

/-- What it means that an actor, who has gained some keywords, meets all clauses. -/
structure Admits (clauses : List Clause) (a : Actor) (gained : List Text) : Prop where
  /-- Of the records of each clause, the actor has to do with one. -/
  forms : ∀ c ∈ clauses, c.isNamed formWords = true → c.Offers a.formHit
  /-- Of the keywords of each clause, the actor has one. -/
  texts : ∀ c ∈ clauses, c.isNamed textWords = true → c.Offers (a.textHit gained)
  /-- The actor has nothing to do with a record that is ruled out. -/
  formExclusions : ∀ c ∈ clauses, c.isNamed formExclusionWords = true → c.Bars a.formHit
  /-- The actor has no keyword that is ruled out. -/
  textExclusions : ∀ c ∈ clauses, c.isNamed textExclusionWords = true → c.Bars (a.textHit gained)
  /-- The actor has the gender named last. -/
  gender : ∀ value ∈ lastValue? genderWords clauses, HasGender a value

/-- The outfits that clauses name. -/
def targetsOf (clauses : List Clause) : List Target :=
  clauses.filterMap fun c =>
    if c.isNamed outfitWords then some ⟨.outfit, c.key, c.value⟩
    else if c.isNamed sleepOutfitWords then some ⟨.sleepOutfit, c.key, c.value⟩
    else none

/-- What it means that rules say the same as the clauses of a line. -/
structure Means (line : Text) (rules : List Rule) : Prop where
  /-- The line is made of clauses. -/
  reads : (clauseTexts (Text.trim (Text.stripComment line))).mapM Clause.ofText =
    .ok (clausesOf line)
  /-- Each rule selects the actors who meet all clauses. -/
  selects_iff : ∀ r ∈ rules, ∀ a gained,
    r.selects a gained = true ↔ Admits (clausesOf line) a gained
  /-- There is a rule for each outfit, in the order of the line. -/
  targets : rules.map Rule.target = targetsOf (clausesOf line)
  /-- The rules differ in nothing else. -/
  alike : ∀ r ∈ rules, ∀ s ∈ rules,
    s = { r with gift := s.gift, keyword := s.keyword, form := s.form }
  /-- They have the chance given last. -/
  chance : ∀ value ∈ lastValue? chanceWords (clausesOf line), ∀ r ∈ rules,
    Chance.ofText value = .ok r.chance
  /-- Without a chance they always apply. -/
  no_chance : lastValue? chanceWords (clausesOf line) = none → ∀ r ∈ rules,
    r.chance = Chance.always

variable {line t : Text} {rules : List Rule} {clauses : List Clause} {c : Clause} {d d' : Draft}
  {hit : Condition → Bool} {a : Actor} {gained : List Text}

/-! ## Topics -/

/-- The table of keys leads from each key in it to its topic. -/
lemma lookup_topics_iff {key : Text} {topic : Topic} :
    topics.lookup key = some topic ↔ (key, topic) ∈ topics := by
  constructor
  · intro h
    obtain ⟨before, after, htopics, -⟩ := List.lookup_eq_some_iff.mp h
    rw [htopics]
    exact List.mem_append_cons_self
  · have hall : ∀ entry ∈ topics, topics.lookup entry.1 = some entry.2 := by decide
    exact hall (key, topic)

/-- A key has a topic other than the last exactly when it is in the table with it. -/
lemma topicOf_eq_iff {key : Text} {topic : Topic} (htopic : topic ≠ .other) :
    topicOf key = topic ↔ (Text.asciiLower key, topic) ∈ topics := by
  rw [← lookup_topics_iff, topicOf]
  cases topics.lookup (Text.asciiLower key) with
  | none => simpa using htopic.symm
  | some found => simp

/-- A topic of the table is told by the words for it. -/
lemma isNamed_eq {words : List String} {topic : Topic} (htopic : topic ≠ .other)
    (hwords : (topics.filter (·.2 = topic)).map (·.1) =
      words.map fun word => Text.asciiLower word.toList) :
    c.isNamed words = decide (topicOf c.key = topic) := by
  have hmem : (Text.asciiLower c.key, topic) ∈ topics ↔
      Text.asciiLower c.key ∈ words.map fun word => Text.asciiLower word.toList := by
    rw [← hwords]
    simp
  rw [Bool.eq_iff_iff, decide_eq_true_iff, topicOf_eq_iff htopic, hmem, Clause.isNamed,
    List.any_eq_true, List.mem_map]
  refine exists_congr fun word => and_congr_right fun _ => ?_
  rw [Text.sameAscii, beq_iff_eq, eq_comm]

@[simp] lemma isNamed_formWords :
    c.isNamed formWords = decide (topicOf c.key = .formAlternatives) :=
  isNamed_eq (by decide) (by decide)

@[simp] lemma isNamed_formExclusionWords :
    c.isNamed formExclusionWords = decide (topicOf c.key = .formExclusions) :=
  isNamed_eq (by decide) (by decide)

@[simp] lemma isNamed_textWords :
    c.isNamed textWords = decide (topicOf c.key = .textAlternatives) :=
  isNamed_eq (by decide) (by decide)

@[simp] lemma isNamed_textExclusionWords :
    c.isNamed textExclusionWords = decide (topicOf c.key = .textExclusions) :=
  isNamed_eq (by decide) (by decide)

@[simp] lemma isNamed_genderWords : c.isNamed genderWords = decide (topicOf c.key = .gender) :=
  isNamed_eq (by decide) (by decide)

@[simp] lemma isNamed_outfitWords :
    c.isNamed outfitWords = decide (topicOf c.key = .target .outfit) :=
  isNamed_eq (by decide) (by decide)

@[simp] lemma isNamed_sleepOutfitWords :
    c.isNamed sleepOutfitWords = decide (topicOf c.key = .target .sleepOutfit) :=
  isNamed_eq (by decide) (by decide)

@[simp] lemma isNamed_chanceWords : c.isNamed chanceWords = decide (topicOf c.key = .chance) :=
  isNamed_eq (by decide) (by decide)

/-- The only gifts of clauses are the two outfits. -/
lemma topicOf_target {key : Text} {gift : Gift} (h : topicOf key = .target gift) :
    gift = .outfit ∨ gift = .sleepOutfit := by
  rw [topicOf_eq_iff (by simp)] at h
  simp only [topics, List.mem_cons, Prod.mk.injEq, reduceCtorEq, and_false, false_or, or_false,
    Topic.target.injEq, List.not_mem_nil] at h
  exact h.imp And.right And.right

/-! ## Reading clause by clause -/

/-- A step of a reading succeeds when both of its parts do. -/
lemma bind_eq_ok_iff {ε α β : Type} {x : Except ε α} {f : α → Except ε β} {b : β} :
    x >>= f = .ok b ↔ ∃ a, x = .ok a ∧ f a = .ok b := by
  cases x with
  | error e => simp [bind, Except.bind]
  | ok a => simp [bind, Except.bind]

/-- What a draft holds of the clauses read so far. -/
structure Draft.Reads (clauses : List Clause) (d : Draft) : Prop where
  formClauses : d.formClauses =
    (clauses.filter (Clause.isNamed formWords)).map fun c => alternatives c.value
  textClauses : d.textClauses =
    (clauses.filter (Clause.isNamed textWords)).map fun c => alternatives c.value
  formExclusions : d.formExclusions =
    (clauses.filter (Clause.isNamed formExclusionWords)).flatMap fun c => exclusions c.value
  textExclusions : d.textExclusions =
    (clauses.filter (Clause.isNamed textExclusionWords)).flatMap fun c => exclusions c.value
  gender : (lastValue? genderWords clauses).mapM genderOfText = .ok (d.traits.get .female)
  traits : ∀ trait ≠ .female, d.traits.get trait = none
  chance : (lastValue? chanceWords clauses).mapM Chance.ofText = .ok d.chance?
  targets : d.targets = targetsOf clauses

/-- Of a line with one more clause, the last value is that of this clause, if it has the word. -/
@[simp] lemma lastValue?_concat {words : List String} : lastValue? words (clauses ++ [c]) =
    if c.isNamed words then some c.value else lastValue? words clauses := by
  rw [lastValue?, List.reverse_append, List.reverse_singleton, List.singleton_append,
    List.find?_cons]
  cases c.isNamed words <;> rfl

/-- The empty draft holds nothing. -/
lemma Draft.Reads.empty : Draft.Reads [] Draft.empty where
  formClauses := rfl
  textClauses := rfl
  formExclusions := rfl
  textExclusions := rfl
  gender := rfl
  traits := fun trait _ => TraitDemand.get_nothing trait
  chance := rfl
  targets := rfl

/-- A clause that is added to a draft is held with the others. -/
lemma Draft.Reads.add (h : d.Reads clauses) (hkey : topicOf c.key = c.topic)
    (hadd : d.add c = .ok d') : d'.Reads (clauses ++ [c]) := by
  obtain ⟨hforms, htexts, hnoForms, hnoTexts, hgender, htraits, hchance, htargets⟩ := h
  rw [Draft.add] at hadd
  cases htopic : c.topic with
  | formAlternatives =>
    rw [htopic] at hadd
    obtain rfl := Except.ok.inj hadd
    constructor <;> simp +contextual [*, targetsOf]
  | formExclusions =>
    rw [htopic] at hadd
    obtain rfl := Except.ok.inj hadd
    constructor <;> simp +contextual [*, targetsOf]
  | textAlternatives =>
    rw [htopic] at hadd
    obtain rfl := Except.ok.inj hadd
    constructor <;> simp +contextual [*, targetsOf]
  | textExclusions =>
    rw [htopic] at hadd
    obtain rfl := Except.ok.inj hadd
    constructor <;> simp +contextual [*, targetsOf]
  | gender =>
    rw [htopic] at hadd
    obtain ⟨female, hfemale, hadd⟩ := bind_eq_ok_iff.mp hadd
    obtain rfl := Except.ok.inj hadd
    constructor <;> simp +contextual [*, targetsOf, TraitDemand.get_ask]
  | target gift =>
    rw [htopic] at hadd
    obtain rfl := Except.ok.inj hadd
    obtain rfl | rfl := topicOf_target (hkey.trans htopic)
    · constructor <;> simp +contextual [*, targetsOf]
    · constructor <;> simp +contextual [*, targetsOf]
  | chance =>
    rw [htopic] at hadd
    obtain ⟨chance, hchance, hadd⟩ := bind_eq_ok_iff.mp hadd
    obtain rfl := Except.ok.inj hadd
    constructor <;> simp +contextual [*, targetsOf]
  | other =>
    rw [htopic] at hadd
    obtain rfl := Except.ok.inj hadd
    constructor <;> simp +contextual [*, targetsOf]

/-- A clause that is read has the topic of its key. -/
lemma Clause.topicOf_key (h : Clause.ofText t = .ok c) : topicOf c.key = c.topic := by
  rw [Clause.ofText] at h
  cases hcut : Text.cut '=' t with
  | none =>
    rw [hcut] at h
    cases h
  | some pair =>
    rw [hcut] at h
    obtain rfl := Except.ok.inj h
    rfl

/-- Reading clause by clause fails or holds all of them. -/
lemma Draft.Reads.foldlM {ts : List Text} (h : d.Reads clauses)
    (hfold : ts.foldlM (fun d t => do d.add (← Clause.ofText t)) d = .ok d') :
    ∃ rest, ts.mapM Clause.ofText = .ok rest ∧ d'.Reads (clauses ++ rest) := by
  induction ts generalizing d clauses with
  | nil =>
    obtain rfl := Except.ok.inj hfold
    exact ⟨[], rfl, by rwa [List.append_nil]⟩
  | cons t ts ih =>
    rw [List.foldlM_cons] at hfold
    obtain ⟨d₁, hstep, hfold⟩ := bind_eq_ok_iff.mp hfold
    obtain ⟨c, hc, hadd⟩ := bind_eq_ok_iff.mp hstep
    obtain ⟨rest, hrest, hreads⟩ := ih (h.add (Clause.topicOf_key hc) hadd) hfold
    refine ⟨c :: rest, ?_, ?_⟩
    · rw [List.mapM_cons, hc, hrest]
      rfl
    · rwa [List.append_cons]

/-- Clauses that can all be read are those that can be read. -/
lemma filterMap_toOption {ε α β : Type} {f : α → Except ε β} {xs : List α} {ys : List β}
    (h : xs.mapM f = .ok ys) : xs.filterMap (fun x => (f x).toOption) = ys := by
  induction xs generalizing ys with
  | nil => exact Except.ok.inj h
  | cons x xs ih =>
    rw [List.mapM_cons] at h
    obtain ⟨y, hy, h⟩ := bind_eq_ok_iff.mp h
    obtain ⟨rest, hrest, h⟩ := bind_eq_ok_iff.mp h
    obtain rfl := Except.ok.inj h
    rw [List.filterMap_cons, hy, ih hrest]
    rfl

/-! ## Multiplying out -/

/-- A clause lists the alternatives of its value. -/
lemma mem_alternatives_iff {x : Condition} : x ∈ alternatives c.value ↔ c.Lists x := by
  rw [alternatives, List.mem_filterMap]
  rfl

/-- One of the choices holds as a whole exactly when each clause holds in one alternative. -/
lemma any_all_product (p : Condition → Bool) (choices : List (List Condition)) :
    (product choices).any (·.all p) = choices.all (·.any p) := by
  induction choices with
  | nil => rfl
  | cons choice rest ih =>
    have hfirst (x : Condition) : ((product rest).map (x :: ·)).any (·.all p) =
        (p x && (product rest).any (·.all p)) := by
      rw [List.any_map, List.and_any_distrib_left]
      rfl
    rw [product, List.any_flatMap, List.all_cons, ← ih, List.and_any_distrib_right]
    simp only [hfirst]

/-- Clauses that all have alternatives leave a choice. -/
lemma product_ne_nil {choices : List (List Condition)} (h : ∀ choice ∈ choices, choice ≠ []) :
    product choices ≠ [] := by
  induction choices with
  | nil => exact List.cons_ne_nil _ _
  | cons choice rest ih =>
    obtain ⟨hchoice, hrest⟩ := List.forall_mem_cons.mp h
    obtain ⟨x, hx⟩ := List.exists_mem_of_ne_nil _ hchoice
    obtain ⟨parts, hparts⟩ := List.exists_mem_of_ne_nil _ (ih hrest)
    exact List.ne_nil_of_mem (List.mem_flatMap.mpr ⟨x, hx, List.mem_map_of_mem hparts⟩)

/-- A section holds when its exclusions do and each clause with alternatives holds in one. -/
lemma holds_multiplyOut_iff {choices : List (List Condition)} {exclusions : List Condition} :
    (multiplyOut choices exclusions).holds hit = true ↔
      (∀ x ∈ exclusions, x.holds hit = true) ∧
        ∀ choice ∈ choices, choice ≠ [] → ∃ x ∈ choice, x.holds hit = true := by
  have hgroups : ((multiplyOut choices exclusions).groups.isEmpty ||
      (multiplyOut choices exclusions).groups.any (Selection.groupHolds hit)) =
      (choices.filter (· ≠ [])).all (·.any (Condition.holds hit)) := by
    have hparts : Selection.groupHolds hit ∘ (fun parts => ⟨parts, []⟩) =
        (·.all (Condition.holds hit)) := by
      funext parts
      simp [Selection.groupHolds, Group.conditions]
    simp only [multiplyOut, List.any_map, hparts, List.isEmpty_map]
    split_ifs with hnil
    · rw [hnil]
      rfl
    · rw [any_all_product]
      have hne : product (choices.filter (· ≠ [])) ≠ [] := product_ne_nil (by simp)
      rw [List.isEmpty_eq_false_iff.mpr hne, Bool.false_or]
  rw [Selection.holds, hgroups, Bool.and_eq_true, List.all_eq_true, List.all_eq_true]
  simp [multiplyOut]

/-- The section of a draft holds when the clauses with one of some words offer what holds, and those
with one of some other words bar what is hit. -/
lemma holds_multiplyOut_clauses_iff (hhit : ∀ x : Condition, hit { x with negated := true } = hit x)
    (named excluded : List String) :
    (multiplyOut ((clauses.filter (Clause.isNamed named)).map fun c => alternatives c.value)
      ((clauses.filter (Clause.isNamed excluded)).flatMap fun c => exclusions c.value)).holds hit =
        true ↔
      (∀ c ∈ clauses, c.isNamed named = true → c.Offers hit) ∧
        ∀ c ∈ clauses, c.isNamed excluded = true → c.Bars hit := by
  have hbars (c : Clause) : c.Bars hit ↔ ∀ x ∈ exclusions c.value, x.holds hit = true := by
    simp [Clause.Bars, exclusions, Condition.holds, hhit, mem_alternatives_iff]
  have hoffers (c : Clause) : c.Offers hit ↔
      (alternatives c.value ≠ [] → ∃ x ∈ alternatives c.value, x.holds hit = true) := by
    rw [Clause.Offers, ne_eq, List.eq_nil_iff_forall_not_mem]
    simp only [mem_alternatives_iff, not_forall, not_not]
  rw [holds_multiplyOut_iff, and_comm]
  simp only [hbars, hoffers, List.forall_mem_map, List.forall_mem_flatMap, List.mem_filter, and_imp]

/-! ## The rules of a line -/

/-- Reading a value that may be missing. -/
lemma mapM_eq_ok {ε α β : Type} {f : α → Except ε β} {x? : Option α} {y? : Option β}
    (h : x?.mapM f = .ok y?) :
    x? = none ∧ y? = none ∨ ∃ x y, x? = some x ∧ y? = some y ∧ f x = .ok y := by
  cases x? with
  | none =>
    obtain rfl := Except.ok.inj h
    exact Or.inl ⟨rfl, rfl⟩
  | some x =>
    cases hx : f x with
    | error e =>
      rw [Option.mapM_some, hx] at h
      cases h
    | ok y =>
      rw [Option.mapM_some, hx] at h
      obtain rfl := Except.ok.inj h
      exact Or.inr ⟨x, y, rfl, rfl, hx⟩

/-- A text is not both of two words. -/
lemma sameAscii_eq_false {value word other : Text} (h : Text.sameAscii value word = true)
    (hne : Text.sameAscii word other = false) : Text.sameAscii value other = false := by
  rw [Text.sameAscii, beq_iff_eq] at h
  rwa [Text.sameAscii, h]

/-- A gender that is read is what the female trait has to be. -/
lemma hasGender_iff {value : Text} {female : Bool} (h : genderOfText value = .ok female) :
    HasGender a value ↔ a.traits.has .female = female := by
  rw [genderOfText] at h
  split_ifs at h with hfemale hmale
  · obtain rfl := Except.ok.inj h
    have hmale : Text.sameAscii value "male".toList = false :=
      sameAscii_eq_false hfemale (by decide)
    rw [HasGender, hfemale, hmale]
    simp
  · obtain rfl := Except.ok.inj h
    rw [Bool.not_eq_true] at hfemale
    rw [HasGender, hfemale, hmale]
    simp

/-- A demand that asks for the female trait only. -/
lemma admits_iff {demand : TraitDemand} {traits : TraitSet}
    (h : ∀ trait ≠ .female, demand.get trait = none) :
    demand.admits traits = true ↔ ∀ female ∈ demand.get .female, traits.has .female = female := by
  rw [TraitDemand.admits, List.all_eq_true]
  constructor
  · intro hall female hfemale
    have hadmits := hall .female (TraitDemand.mem_all _)
    rw [hfemale] at hadmits
    exact beq_iff_eq.mp hadmits
  · intro hfemale trait _
    by_cases htrait : trait = .female
    · rw [htrait, Option.all_eq_true]
      exact fun female hget => beq_iff_eq.mpr (hfemale female hget)
    · rw [h trait htrait]
      rfl

/-- The gender that a draft asks for is the one named last. -/
lemma Draft.Reads.admits_iff (h : d.Reads clauses) : d.traits.admits a.traits = true ↔
    ∀ value ∈ lastValue? genderWords clauses, HasGender a value := by
  rw [Clausal.admits_iff h.traits]
  obtain ⟨hlast, hget⟩ | ⟨value, female, hlast, hget, hvalue⟩ := mapM_eq_ok h.gender
  · simp [hlast, hget]
  · simp [hlast, hget, hasGender_iff hvalue]

/-- A rule of a draft selects the actors that the clauses admit. -/
lemma Draft.Reads.selects_iff (h : d.Reads clauses) {r : Rule} (hr : r ∈ d.rules line) :
    r.selects a gained = true ↔ Admits clauses a gained := by
  obtain ⟨target, htarget, rfl⟩ := List.mem_map.mp hr
  have htexts : (multiplyOut d.textClauses d.textExclusions).holds (a.textHit gained) = true ↔ _ :=
    h.textClauses ▸ h.textExclusions ▸ holds_multiplyOut_clauses_iff (fun _ => rfl) _ _
  have hforms : (multiplyOut d.formClauses d.formExclusions).holds a.formHit = true ↔ _ :=
    h.formClauses ▸ h.formExclusions ▸ holds_multiplyOut_clauses_iff (fun _ => rfl) _ _
  simp only [Rule.selects, Bool.and_eq_true, List.all_nil, h.admits_iff, htexts, hforms]
  constructor
  · rintro ⟨⟨⟨hgender, -⟩, htexts, hnoTexts⟩, hforms, hnoForms⟩
    exact ⟨hforms, htexts, hnoForms, hnoTexts, hgender⟩
  · rintro ⟨hforms, htexts, hnoForms, hnoTexts, hgender⟩
    exact ⟨⟨⟨hgender, trivial⟩, htexts, hnoTexts⟩, hforms, hnoForms⟩

/-- A line is accepted when its clauses are read into a draft that names an outfit. -/
lemma rulesOfLine_eq_ok_iff : rulesOfLine line = .ok rules ↔
    Text.trim (Text.stripComment line) ≠ [] ∧
      ∃ d : Draft, (clauseTexts (Text.trim (Text.stripComment line))).foldlM
          (fun d t => do d.add (← Clause.ofText t)) Draft.empty = .ok d ∧
        d.targets ≠ [] ∧ rules = d.rules line := by
  simp only [rulesOfLine]
  by_cases hnil : Text.trim (Text.stripComment line) = []
  · rw [if_pos hnil]
    exact iff_of_false nofun fun h => h.1 hnil
  rw [if_neg hnil, and_iff_right hnil, bind_eq_ok_iff]
  refine exists_congr fun d => and_congr_right fun _ => ?_
  by_cases htargets : d.targets = []
  · rw [htargets]
    exact iff_of_false nofun fun h => h.1 rfl
  · rw [List.isEmpty_eq_false_iff.mpr htargets, and_iff_right htargets]
    exact ⟨fun h => (Except.ok.inj h).symm, fun h => congrArg Except.ok h.symm⟩

/-- A line that is read has been read into a draft. -/
lemma reads_of_rulesOfLine (h : rulesOfLine line = .ok rules) :
    ∃ d : Draft, d.Reads (clausesOf line) ∧ rules = d.rules line ∧
      (clauseTexts (Text.trim (Text.stripComment line))).mapM Clause.ofText =
        .ok (clausesOf line) := by
  obtain ⟨-, d, hfold, -, hrules⟩ := rulesOfLine_eq_ok_iff.mp h
  obtain ⟨clauses, hclauses, hreads⟩ := Draft.Reads.empty.foldlM hfold
  obtain rfl : clausesOf line = clauses := filterMap_toOption hclauses
  exact ⟨d, hreads, hrules, hclauses⟩

/-- A line that is accepted gives a rule. -/
lemma rulesOfLine_ne_nil (h : rulesOfLine line = .ok rules) : rules ≠ [] := by
  obtain ⟨-, d, -, htargets, rfl⟩ := rulesOfLine_eq_ok_iff.mp h
  rw [Draft.rules, Ne, List.map_eq_nil_iff]
  exact htargets

/-- The rules of a line are all written as the line without its comment and the blanks at its
ends. -/
lemma toText_of_mem {r : Rule} (h : rulesOfLine line = .ok rules) (hr : r ∈ rules) :
    r.toText = Text.trim (Text.stripComment line) := by
  obtain ⟨d, -, rfl, -⟩ := reads_of_rulesOfLine h
  obtain ⟨target, -, rfl⟩ := List.mem_map.mp hr
  rfl

/-- A line that is read means the conjunction of its clauses. -/
theorem rulesOfLine_means (h : rulesOfLine line = .ok rules) : Means line rules := by
  obtain ⟨d, hd, rfl, hreads⟩ := reads_of_rulesOfLine h
  have hchance : ∀ r ∈ d.rules line, r.chance = d.chance?.getD Chance.always :=
    List.forall_mem_map.mpr fun _ _ => rfl
  refine ⟨hreads, fun r hr a gained => hd.selects_iff hr, ?_, ?_, ?_, ?_⟩
  · rw [← hd.targets, Draft.rules, List.map_map]
    exact List.map_id' _
  · intro r hr s hs
    obtain ⟨target, -, rfl⟩ := List.mem_map.mp hr
    obtain ⟨other, -, rfl⟩ := List.mem_map.mp hs
    rfl
  · intro value hvalue r hr
    obtain ⟨hlast, -⟩ | ⟨last, chance, hlast, hgiven, hread⟩ := mapM_eq_ok hd.chance
    · rw [hlast] at hvalue
      cases hvalue
    · rw [hlast, Option.mem_some_iff] at hvalue
      rw [hchance r hr, hgiven, ← hvalue, hread, Option.getD_some]
  · intro hnone r hr
    obtain ⟨-, hgiven⟩ | ⟨last, chance, hlast, -⟩ := mapM_eq_ok hd.chance
    · rw [hchance r hr, hgiven, Option.getD_none]
    · rw [hlast] at hnone
      cases hnone

/-- A line that is accepted gives rules with what is found of them. -/
lemma exists_rules_of_any {p : List Rule → Bool} (h : (rulesOfLine line).toOption.any p = true) :
    ∃ rules, rulesOfLine line = .ok rules ∧ p rules = true := by
  cases hread : rulesOfLine line with
  | error e => rw [hread] at h; cases h
  | ok rules => rw [hread] at h; exact ⟨rules, rfl, h⟩

/-- A clause with two alternatives, an exclusion with a marker and two outfits.  Both rules select a
guard, but not one who gained the excluded keyword. -/
theorem rulesOfLine_means_of_choices : ∃ line rules,
    line = "filterByNpcs=X,Guard*:filterByKeywordsExcluded=-C:outfitSleep=x:OutfitDefault=y".toList ∧
    rulesOfLine line = .ok rules ∧ Means line rules ∧ rules.length = 2 ∧ ∀ r ∈ rules,
      r.selects (.ofKey ⟨"M.esp".toList, 16⟩ "Guard".toList) [] = true ∧
      r.selects (.ofKey ⟨"M.esp".toList, 16⟩ "Guard".toList) ["c".toList] = false := by
  have hany : (rulesOfLine
      "filterByNpcs=X,Guard*:filterByKeywordsExcluded=-C:outfitSleep=x:OutfitDefault=y".toList
      ).toOption.any (fun rules => rules.length = 2 ∧ ∀ r ∈ rules,
        r.selects (.ofKey ⟨"M.esp".toList, 16⟩ "Guard".toList) [] = true ∧
        r.selects (.ofKey ⟨"M.esp".toList, 16⟩ "Guard".toList) ["c".toList] = false) = true := by
    decide +kernel
  obtain ⟨rules, hread, hrules⟩ := exists_rules_of_any hany
  exact ⟨_, rules, rfl, hread, rulesOfLine_means hread, of_decide_eq_true hrules⟩

end Clausal

end Wardrobe
