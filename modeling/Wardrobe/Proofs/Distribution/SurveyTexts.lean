import Mathlib
import Wardrobe.Distribution.Survey
import Wardrobe.Proofs.Distribution.ResolvedRecords

/-!
# The texts that a survey accounts for

A survey tells of its rules and texts several times: one entry for each rule, two counts, and a list
of the texts that name nothing.  The counts and the list are made from the entries, not from the
sheets.  Here they are set against the sheets themselves: `usages` lists every text of every rule
where it is written, and `run_accounts` says that each has its one place in the survey.

A keyword rule is never among the rules whose form names nothing, since the rule itself brings the
keyword about (`isResolved_of_keyword`).
-/

namespace Wardrobe

/-- The part that a text plays in a rule. -/
inductive Role where
  /-- The form that is handed out. -/
  | target
  | text (condition : Condition)
  | form (condition : Condition)

namespace Role

/-- The text as it is written. -/
def written (r : Rule) : Role → Text
  | target => r.form
  | text condition => condition.value
  | form condition => condition.value

/-- What the text stands for. -/
def StandsFor (c : Catalog) (rules : List Rule) (r : Rule) : Role → Resolution → Prop
  | target => Resolver.TargetStandsFor c rules r
  | text condition => Resolver.TextStandsFor c rules condition
  | form condition => Resolver.FormStandsFor c condition

/-- What the resolver makes of the text. -/
def resolution (c : Catalog) (v : VirtualKeywords) (r : Rule) : Role → Resolution
  | target => Resolver.target c v r
  | text condition => Resolver.text c v condition
  | form condition => Resolver.form c condition

end Role

/-- The number of conditions of a section: exclusions, and in each group parts and attached ones. -/
def Selection.size (s : Selection) : Nat :=
  s.exclusions.length + (s.groups.map fun g => g.parts.length + g.attached.length).sum

namespace Rule

/-- The texts of a rule: the form that is handed out, the text conditions, the form conditions. -/
def roles (r : Rule) : List Role :=
  .target :: (r.texts.conditions.map .text ++ r.forms.conditions.map .form)

/-- The number of texts of a rule. -/
def size (r : Rule) : Nat :=
  1 + r.texts.size + r.forms.size

end Rule

/-- A rule on a line of a sheet. -/
structure Occurrence where
  sheet : Sheet
  line : SheetLine
  rule : Rule

/-- A text of a rule on a line of a sheet. -/
structure Usage extends Occurrence where
  role : Role

/-- The place of a text, and the text as it is written. -/
def Usage.item (u : Usage) : Path × Nat × Text :=
  (u.sheet.path, u.line.number, u.role.written u.rule)

namespace Survey

/-- The rules of some sheets: sheet by sheet, line by line, and on a line from left to right. -/
def occurrences (sheets : List Sheet) : List Occurrence :=
  sheets.flatMap fun sheet => sheet.lines.flatMap fun line =>
    line.content.toRules.map fun rule => ⟨sheet, line, rule⟩

/-- The texts of all rules of some sheets. -/
def usages (sheets : List Sheet) : List Usage :=
  (occurrences sheets).flatMap fun o => o.rule.roles.map fun role => ⟨o, role⟩

/-- The rules of some sheets without their places. -/
def rulesOf (sheets : List Sheet) : List Rule :=
  (occurrences sheets).map (·.rule)

/-- The texts of some sheets, each with what a survey has found for it. -/
def ledger (sheets : List Sheet) (s : Survey) : List (Usage × Resolution) :=
  (usages sheets).zip s.resolutions

/-- A survey accounts for every rule and every text of some sheets. -/
structure Accounts (c : Catalog) (sheets : List Sheet) (s : Survey) : Prop where
  /-- Each rule has one entry, with its place, in the order of the sheets. -/
  rules : List.Forall₂ (fun o entry => entry.path = o.sheet.path ∧ entry.line = o.line.number ∧
    Resolver.RuleStandsFor c (rulesOf sheets) o.rule entry.resolved) (occurrences sheets) s.rules
  /-- Each text has one resolution, in the order of the sheets. -/
  texts : List.Forall₂ (fun u => u.role.StandsFor c (rulesOf sheets) u.rule) (usages sheets)
    s.resolutions
  /-- The texts are counted as they stand in the sections. -/
  textCount : s.textCount = ((rulesOf sheets).map Rule.size).sum
  /-- A text is either counted as resolved or listed as unresolved. -/
  balance : s.resolvedCount + s.unresolved.length = s.textCount
  /-- The unresolved texts are listed as they are written, in the order of the sheets. -/
  unresolved : s.unresolved =
    ((ledger sheets s).filter fun entry => !entry.2.isResolved).map fun entry => entry.1.item
  /-- The form of a keyword rule is resolved. -/
  keywords : ∀ entry ∈ ledger sheets s, entry.1.role = .target → entry.1.rule.gift = .keyword →
    entry.2.isResolved = true

variable {c : Catalog} {v : VirtualKeywords} {history : List Record} {rules : List Rule} {r : Rule}
  {role : Role} {res : Resolution} {sheets : List Sheet} {actors : List Actor}

/-! ## The texts of one rule -/

/-- The resolver finds for each text what it stands for. -/
lemma standsFor_resolution (history : List Record) (rules : List Rule) (r : Rule) (role : Role) :
    role.StandsFor (.ofList history) rules r
      (role.resolution (.ofList history) (.ofRules rules) r) := by
  cases role with
  | target => exact Resolver.target_standsFor history rules r
  | text condition => exact Resolver.text_standsFor history rules condition
  | form condition => exact Resolver.form_standsFor history condition

/-- A text that stands for nothing is kept as it is written. -/
lemma eq_unresolved_of_standsFor (h : role.StandsFor c rules r res) :
    res.isResolved = true ∨ res = .unresolved (role.written r) := by
  cases role with
  | target =>
    cases h with
    | unresolved => exact Or.inr rfl
    | _ => exact Or.inl rfl
  | text condition =>
    cases h with
    | unresolved => exact Or.inr rfl
    | _ => exact Or.inl rfl
  | form condition =>
    cases h with
    | unresolved => exact Or.inr rfl
    | _ => exact Or.inl rfl

/-- The form of a keyword rule stands at least for the keyword that the rule brings about. -/
lemma isResolved_of_keyword (h : Resolver.TargetStandsFor c rules r res) (hr : r ∈ rules)
    (hgift : r.gift = .keyword) : res.isResolved = true := by
  cases h with
  | record => rfl
  | virtualKeyword => rfl
  | unresolved _ noRule => exact absurd ⟨hgift, rfl⟩ (noRule hgift r hr)

/-- A rule is resolved text by text. -/
lemma resolutions_rule : (Resolver.rule c v r).resolutions = r.roles.map (·.resolution c v r) := by
  simp only [ResolvedRule.resolutions, Resolver.rule, Rule.roles, List.map_cons, List.map_append,
    List.map_map]
  rfl

/-- The residue of a rule consists of the texts that stand for nothing, as they are written. -/
lemma residue_rule : (Resolver.rule (.ofList history) (.ofRules rules) r).residue =
    (r.roles.filter fun role =>
      !(role.resolution (.ofList history) (.ofRules rules) r).isResolved).map (·.written r) := by
  rw [ResolvedRule.residue, resolutions_rule, List.filterMap_map, ← List.filterMap_eq_map,
    List.filterMap_filter]
  refine List.filterMap_congr fun role _ => ?_
  dsimp only [Function.comp_apply]
  -- Both sides keep a text exactly when it stands for nothing; what is left to see is that the
  -- resolver has kept it as it is written.
  rcases eq_unresolved_of_standsFor (standsFor_resolution history rules r role) with hres | hres
  · rw [hres]
    cases hrole : role.resolution (.ofList history) (.ofRules rules) r with
    | unresolved t =>
      rw [hrole] at hres
      cases hres
    | _ => rfl
  · rw [hres]
    rfl

/-- A section has as many conditions as are listed. -/
lemma length_conditions (s : Selection) : s.conditions.length = s.size := by
  simp only [Selection.conditions, Group.conditions, List.length_append, List.length_flatMap,
    Selection.size]

/-- A rule has as many texts as are listed. -/
lemma length_roles (r : Rule) : r.roles.length = r.size := by
  simp only [Rule.roles, Rule.size, List.length_cons, List.length_append, List.length_map,
    length_conditions]
  omega

/-! ## The texts of a survey -/

/-- The rules of a survey are those on the lines of its sheets. -/
lemma placedRules_eq_map : placedRules sheets =
    (occurrences sheets).map fun o => ⟨o.sheet.path, o.line.number, o.rule⟩ := by
  simp only [placedRules, funext Sheet.placedRules.eq_1, Sheet.rules, occurrences, List.map_flatMap,
    List.map_map]
  rfl

/-- The entries of a survey. -/
lemma resolve_eq_map : resolve c sheets = (occurrences sheets).map fun o =>
    ⟨o.sheet.path, o.line.number, Resolver.rule c (.ofRules (rulesOf sheets)) o.rule⟩ := by
  simp only [resolve, placedRules_eq_map, List.map_map, rulesOf]
  rfl

/-- The resolutions of a survey are those of the texts of its sheets. -/
lemma resolutions_ofSheets : (ofSheets c actors sheets).resolutions =
    (usages sheets).map fun u => u.role.resolution c (.ofRules (rulesOf sheets)) u.rule := by
  simp only [resolutions, ofSheets, resolve_eq_map, List.flatMap_map, resolutions_rule, usages,
    List.map_flatMap, List.map_map]
  rfl

/-- Each text stands with its own resolution. -/
lemma ledger_ofSheets : ledger sheets (ofSheets c actors sheets) = (usages sheets).map fun u =>
    (u, u.role.resolution c (.ofRules (rulesOf sheets)) u.rule) := by
  rw [ledger, resolutions_ofSheets, List.map_prod_left_eq_zip]

/-- The unresolved texts of a survey are those of its ledger. -/
lemma unresolved_ofSheets : (ofSheets (.ofList history) actors sheets).unresolved =
    ((ledger sheets (ofSheets (.ofList history) actors sheets)).filter
      fun entry => !entry.2.isResolved).map fun entry => entry.1.item := by
  rw [ledger_ofSheets]
  simp only [unresolved, ofSheets, resolve_eq_map, List.flatMap_map, residue_rule, usages,
    List.map_flatMap, List.filter_flatMap, List.filter_map, List.map_map]
  rfl

/-- A survey has as many texts as its sheets. -/
lemma textCount_ofSheets : (ofSheets c actors sheets).textCount =
    ((rulesOf sheets).map Rule.size).sum := by
  simp only [textCount, resolutions_ofSheets, List.length_map, usages, List.length_flatMap,
    length_roles, rulesOf, List.map_map]
  rfl

/-- A text of a survey is either counted as resolved or listed as unresolved. -/
lemma balance_ofSheets : (ofSheets (.ofList history) actors sheets).resolvedCount +
    (ofSheets (.ofList history) actors sheets).unresolved.length =
      (ofSheets (.ofList history) actors sheets).textCount := by
  let isResolved (u : Usage) : Bool :=
    (u.role.resolution (.ofList history) (.ofRules (rulesOf sheets)) u.rule).isResolved
  have hresolved : (ofSheets (.ofList history) actors sheets).resolvedCount =
      (usages sheets).countP isResolved := by
    rw [resolvedCount, resolutions_ofSheets, List.countP_map]
    rfl
  have hunresolved : (ofSheets (.ofList history) actors sheets).unresolved.length =
      (usages sheets).countP fun u => !isResolved u := by
    rw [unresolved_ofSheets, ledger_ofSheets, List.length_map, ← List.countP_eq_length_filter,
      List.countP_map]
    rfl
  have hcount : (ofSheets (.ofList history) actors sheets).textCount = (usages sheets).length := by
    rw [textCount, resolutions_ofSheets, List.length_map]
  rw [hresolved, hunresolved, hcount, List.length_eq_countP_add_countP isResolved]
  simp only [Bool.not_eq_true, Bool.decide_eq_false]

/-- The form of a keyword rule is resolved in a survey. -/
lemma keywords_ofSheets : ∀ entry ∈ ledger sheets (ofSheets (.ofList history) actors sheets),
    entry.1.role = .target → entry.1.rule.gift = .keyword → entry.2.isResolved = true := by
  rw [ledger_ofSheets]
  intro entry hentry htarget hgift
  obtain ⟨⟨o, role⟩, husage, rfl⟩ := List.mem_map.mp hentry
  obtain rfl : role = .target := htarget
  obtain ⟨o', ho', hrole⟩ := List.mem_flatMap.mp husage
  obtain ⟨role, -, hrole⟩ := List.mem_map.mp hrole
  obtain rfl : o' = o := congrArg Usage.toOccurrence hrole
  -- The rule is one of those from which the virtual keywords are taken.
  exact isResolved_of_keyword (Resolver.target_standsFor history (rulesOf sheets) o'.rule)
    (List.mem_map_of_mem ho') hgift

/-- Whatever records a catalog was built from, whoever the actors are and whatever the sheets say, a
survey that is not cancelled comes to an end and accounts for every rule and every text. -/
theorem run_accounts (history : List Record) (actors : List Actor) (sheets : List Sheet) :
    ∃ s, run false (.ofList history) actors sheets = .ok s ∧
      Accounts (.ofList history) sheets s := by
  refine ⟨ofSheets (.ofList history) actors sheets, rfl, ?_, ?_, textCount_ofSheets,
    balance_ofSheets, unresolved_ofSheets, keywords_ofSheets⟩
  · rw [ofSheets, resolve_eq_map]
    exact List.forall₂_map_right_iff.mpr (List.forall₂_same.mpr fun o _ =>
      ⟨rfl, rfl, Resolver.rule_standsFor history (rulesOf sheets) o.rule⟩)
  · rw [resolutions_ofSheets]
    exact List.forall₂_map_right_iff.mpr (List.forall₂_same.mpr fun u _ =>
      standsFor_resolution history (rulesOf sheets) u.rule u.role)

end Survey

end Wardrobe
