import Mathlib
import Wardrobe.Proofs.Distribution.ContestRanking

/-!
# What contests depend on

The contests for one kind of outfit depend on nothing but the entries of that kind.  Entries in
processing order ascend in place, so their list is determined by its members
(`forall₂_of_pairwise_lt`); the numbers of the rules, the contenders and the winner follow.

Two paths with the same components count as one path, also when they are written differently.  The
comparison below is made along a relation on paths, which is either that or equality.
-/

namespace Wardrobe

/-- Two paths with the same components. -/
def Path.SameSteps (p q : Path) : Prop :=
  p.components = q.components

instance : DecidableRel Path.SameSteps := fun p q =>
  inferInstanceAs (Decidable (p.components = q.components))

/-- Each member of one list is related to a member of the other. -/
def Matching {α : Type*} (R : α → α → Prop) (l l' : List α) : Prop :=
  (∀ x ∈ l, ∃ y ∈ l', R x y) ∧ ∀ y ∈ l', ∃ x ∈ l, R x y

instance {α : Type*} (R : α → α → Prop) [DecidableRel R] (l l' : List α) :
    Decidable (Matching R l l') :=
  inferInstanceAs (Decidable ((∀ x ∈ l, ∃ y ∈ l', R x y) ∧ ∀ y ∈ l', ∃ x ∈ l, R x y))

/-- Two entries that are equal up to related paths. -/
def RuleEntry.Agree (R : Path → Path → Prop) (e e' : RuleEntry) : Prop :=
  R e.path e'.path ∧ e = { e' with path := e.path }

instance (R : Path → Path → Prop) [DecidableRel R] : DecidableRel (RuleEntry.Agree R) :=
  fun e e' => inferInstanceAs (Decidable (R e.path e'.path ∧ e = { e' with path := e.path }))

/-- Two contenders that are equal up to related paths. -/
def Contender.Agree (R : Path → Path → Prop) (x y : Contender) : Prop :=
  R x.path y.path ∧ x = { y with path := x.path }

/-- Two contests with the same outcome between contenders that are equal up to related paths. -/
structure Contest.Agree (R : Path → Path → Prop) (c c' : Contest) : Prop where
  actor : c.actor = c'.actor
  editorId : c.editorId = c'.editorId
  contenders : List.Forall₂ (Contender.Agree R) c.contenders c'.contenders
  winner : c.winner? = c'.winner?
  conflict : c.isConflict = c'.isConflict

/-- Entries that are equal up to paths have the same rule. -/
lemma RuleEntry.Agree.rule_eq {R : Path → Path → Prop} {e e' : RuleEntry} (h : e.Agree R e') :
    e.rule = e'.rule := by
  rw [h.2]

/-- Entries that are equal up to paths have the same line number. -/
lemma RuleEntry.Agree.line_eq {R : Path → Path → Prop} {e e' : RuleEntry} (h : e.Agree R e') :
    e.line = e'.line := by
  rw [h.2]

/-! ## Lists in strict order -/

/-- If members are related across two lists only when their keys are equal, and the keys ascend
strictly in both, then matching lists are related member by member. -/
lemma forall₂_of_pairwise_lt {α β : Type*} [LinearOrder β] (key : α → β) {R : α → α → Prop}
    (hkey : ∀ x y, R x y → key x = key y) {l l' : List α}
    (hl : l.Pairwise fun x y => key x < key y) (hl' : l'.Pairwise fun x y => key x < key y)
    (h : Matching R l l') : List.Forall₂ R l l' := by
  induction l generalizing l' with
  | nil =>
    have hnil : l' = [] := by
      rw [List.eq_nil_iff_forall_not_mem]
      intro y hy
      obtain ⟨x, hx, -⟩ := h.2 y hy
      exact List.not_mem_nil hx
    rw [hnil]
    exact List.Forall₂.nil
  | cons x rest ih =>
    obtain ⟨hx, hrest⟩ := List.pairwise_cons.mp hl
    obtain ⟨y₀, hy₀, hxy₀⟩ := h.1 x List.mem_cons_self
    cases l' with
    | nil => exact absurd hy₀ List.not_mem_nil
    | cons y rest' =>
      obtain ⟨hy, hrest'⟩ := List.pairwise_cons.mp hl'
      obtain ⟨x₀, hx₀, hx₀y⟩ := h.2 y List.mem_cons_self
      have hle : ∀ z ∈ x :: rest, key x ≤ key z := by
        intro z hz
        rcases List.mem_cons.mp hz with rfl | hz
        · exact le_rfl
        · exact (hx z hz).le
      -- The smallest keys of the two lists are equal, since each occurs in the other list.
      have hfirst : R x y := by
        rcases List.mem_cons.mp hy₀ with rfl | hy₀
        · exact hxy₀
        · have hlt : key y < key x := by
            rw [hkey x y₀ hxy₀]
            exact hy y₀ hy₀
          have hge : key x ≤ key y := by
            rw [← hkey x₀ y hx₀y]
            exact hle x₀ hx₀
          exact absurd hlt (not_lt.mpr hge)
      have hkeys : key x = key y := hkey x y hfirst
      refine List.Forall₂.cons hfirst (ih hrest hrest' ⟨fun z hz => ?_, fun z hz => ?_⟩)
      · obtain ⟨w, hw, hzw⟩ := h.1 z (List.mem_cons_of_mem x hz)
        rcases List.mem_cons.mp hw with rfl | hw
        · exact absurd (hkeys.trans (hkey z w hzw).symm) (hx z hz).ne
        · exact ⟨w, hw, hzw⟩
      · obtain ⟨w, hw, hwz⟩ := h.2 z (List.mem_cons_of_mem y hz)
        rcases List.mem_cons.mp hw with rfl | hw
        · exact absurd (hkeys.symm.trans (hkey w z hwz)) (hy z hz).ne
        · exact ⟨w, hw, hwz⟩

namespace Contest

variable {R : Path → Path → Prop} {gift : Gift} {sheets sheets' : List Sheet}
  {l l' : List RuleEntry}

/-- The entries of one kind on some sheets, each with its position among the rules of that kind on
its line. -/
def entriesOfKind (gift : Gift) (sheets : List Sheet) : List RuleEntry :=
  entriesFor (·.gift == gift) gift sheets

/-! ## From entries to contests -/

/-- Entries that are equal up to paths with the same components have the same place. -/
lemma place_eq_of_agree (hR : ∀ p q, R p q → p.SameSteps q) {e e' : RuleEntry}
    (h : e.Agree R e') : e.place = e'.place := by
  obtain ⟨hpath, heq⟩ := h
  have hsteps : e.path.components = e'.path.components := hR _ _ hpath
  have hname : e.path.fileName = e'.path.fileName := Path.fileName_congr hsteps
  have hkey : e.path.sortKey = e'.path.sortKey := Path.sortKey_eq_iff.mpr hsteps
  rw [heq]
  unfold RuleEntry.place
  simp only [hname, hkey]

/-- Sheets with matching entries of a kind give related lists of entries in processing order. -/
lemma forall₂_entriesOfKind (hR : ∀ p q, R p q → p.SameSteps q)
    (hread : ∀ s ∈ sheets, s.IsRead) (hread' : ∀ s ∈ sheets', s.IsRead)
    (hdistinct : sheets.Pairwise fun s t => ¬ s.SameFile t)
    (hdistinct' : sheets'.Pairwise fun s t => ¬ s.SameFile t)
    (h : Matching (RuleEntry.Agree R) (entriesOfKind gift sheets) (entriesOfKind gift sheets')) :
    List.Forall₂ (RuleEntry.Agree R) (entriesOfKind gift (Sheet.processingOrder sheets))
      (entriesOfKind gift (Sheet.processingOrder sheets')) := by
  have hmem : ∀ (shelf : List Sheet) (e : RuleEntry),
      e ∈ entriesOfKind gift (Sheet.processingOrder shelf) ↔ e ∈ entriesOfKind gift shelf :=
    fun shelf e => (entriesFor_perm _ gift shelf).mem_iff
  refine forall₂_of_pairwise_lt RuleEntry.place (fun e e' => place_eq_of_agree hR)
    (pairwise_place_entriesFor hread hdistinct _ gift)
    (pairwise_place_entriesFor hread' hdistinct' _ gift) ?_
  unfold Matching
  simp only [hmem]
  exact h

/-- Related members get the same number. -/
lemma forall₂_zipIdx {α : Type*} {P : α → α → Prop} {xs ys : List α} (h : List.Forall₂ P xs ys)
    (start : Nat) : List.Forall₂ (fun p q => P p.1 q.1 ∧ p.2 = q.2) (xs.zipIdx start)
      (ys.zipIdx start) := by
  induction h generalizing start with
  | nil => exact List.Forall₂.nil
  | cons hxy _ ih =>
    rw [List.zipIdx_cons, List.zipIdx_cons]
    exact List.Forall₂.cons ⟨hxy, rfl⟩ (ih (start + 1))

/-- Related entries give related contenders. -/
lemma forall₂_contendersFor (h : List.Forall₂ (RuleEntry.Agree R) l l') (a : Actor) :
    List.Forall₂ (Contender.Agree R) (contendersFor (l.map RuleEntry.placed) a)
      (contendersFor (l'.map RuleEntry.placed) a) := by
  unfold contendersFor
  rw [List.zipIdx_map, List.zipIdx_map, List.filterMap_map, List.filterMap_map]
  refine List.rel_filterMap ?_ (forall₂_zipIdx h 0)
  rintro ⟨e, i⟩ ⟨e', j⟩ ⟨hagree, rfl⟩
  have hrule : e.rule = e'.rule := hagree.rule_eq
  have hline : e.line = e'.line := hagree.line_eq
  change Option.Rel _ (if e.rule.selects a [] then _ else _) (if e'.rule.selects a [] then _ else _)
  rw [← hrule]
  split
  · refine Option.Rel.some ⟨hagree.1, ?_⟩
    unfold contender RuleEntry.placed
    simp only [hline, hrule]
  · exact Option.Rel.none

/-- Who wins depends only on who passed. -/
lemma winner?_eq_of_map_passed {c c' : Contest}
    (h : c.contenders.map Contender.passed = c'.contenders.map Contender.passed) :
    c.winner? = c'.winner? := by
  have hpassed : ∀ c : Contest, c.winner? =
      ((c.contenders.map Contender.passed).zipIdx.reverse.find? (·.1)).map (·.2) := by
    intro c
    rw [List.zipIdx_map, ← List.map_reverse, List.find?_map, Option.map_map]
    rfl
  rw [hpassed c, hpassed c', h]

/-- Related contenders make contests with the same outcome. -/
lemma agree_of_forall₂ {xs ys : List Contender} (h : List.Forall₂ (Contender.Agree R) xs ys)
    (key : FormKey) (editorId : Text) : Agree R ⟨key, editorId, xs⟩ ⟨key, editorId, ys⟩ := by
  have hpassed : xs.map Contender.passed = ys.map Contender.passed := by
    rw [← List.forall₂_eq_eq_eq, List.forall₂_map_left_iff, List.forall₂_map_right_iff]
    refine h.imp fun x y hxy => ?_
    rw [hxy.2]
  have hlength : xs.length = ys.length := h.length_eq
  refine ⟨rfl, rfl, h, winner?_eq_of_map_passed hpassed, ?_⟩
  unfold isConflict
  rw [hlength]

/-- Sheets with matching entries of a kind have the same contests, up to related paths. -/
lemma forall₂_all (hR : ∀ p q, R p q → p.SameSteps q)
    (hread : ∀ s ∈ sheets, s.IsRead) (hread' : ∀ s ∈ sheets', s.IsRead)
    (hdistinct : sheets.Pairwise fun s t => ¬ s.SameFile t)
    (hdistinct' : sheets'.Pairwise fun s t => ¬ s.SameFile t)
    (h : Matching (RuleEntry.Agree R) (entriesOfKind gift sheets) (entriesOfKind gift sheets'))
    (actors : List Actor) :
    List.Forall₂ (Agree R) (all gift sheets actors) (all gift sheets' actors) := by
  have hrules : ∀ shelf, rulesFor gift shelf =
      (entriesOfKind gift (Sheet.processingOrder shelf)).map RuleEntry.placed := fun shelf =>
    rulesFor_eq_map _ (fun r hr => beq_iff_eq.mpr hr) shelf
  have hentries := forall₂_entriesOfKind hR hread hread' hdistinct hdistinct' h
  unfold all
  have hactors : List.Forall₂ Eq actors actors := List.forall₂_same.mpr fun _ _ => rfl
  refine List.rel_filterMap ?_ hactors
  rintro a _ rfl
  have hcontenders := forall₂_contendersFor hentries a
  rw [hrules sheets, hrules sheets']
  by_cases hnil : contendersFor
      ((entriesOfKind gift (Sheet.processingOrder sheets)).map RuleEntry.placed) a = []
  · have hnil' := hcontenders
    rw [hnil, List.forall₂_nil_left_iff] at hnil'
    rw [ofActor?_of_eq_nil hnil, ofActor?_of_eq_nil hnil']
    exact Option.Rel.none
  · have hne' : contendersFor
        ((entriesOfKind gift (Sheet.processingOrder sheets')).map RuleEntry.placed) a ≠ [] := by
      intro hnil'
      rw [hnil', List.forall₂_nil_right_iff] at hcontenders
      exact hnil hcontenders
    rw [ofActor?_of_ne_nil hnil, ofActor?_of_ne_nil hne']
    exact Option.Rel.some (agree_of_forall₂ hcontenders a.key a.editorId)

/-- Contests that agree on everything are equal. -/
lemma eq_of_agree {c c' : Contest} (h : Agree Eq c c') : c = c' := by
  have hcontender : ∀ x y : Contender, x.Agree Eq y → x = y := by
    rintro x y ⟨hpath, heq⟩
    calc x = { y with path := x.path } := heq
      _ = { y with path := y.path } := by rw [hpath]
  have hcontenders : c.contenders = c'.contenders := by
    rw [← List.forall₂_eq_eq_eq]
    exact h.contenders.imp hcontender
  cases c
  cases c'
  congr
  · exact h.actor
  · exact h.editorId

/-- The contests are determined by the entries of their kind, position for position among the rules
of that kind: sheets with the same entries have the same contests, and sheets whose entries are the
same up to spelling of paths have contests that are the same up to that. -/
theorem all_determined_by_entries (hread : ∀ s ∈ sheets, s.IsRead)
    (hread' : ∀ s ∈ sheets', s.IsRead) (hdistinct : sheets.Pairwise fun s t => ¬ s.SameFile t)
    (hdistinct' : sheets'.Pairwise fun s t => ¬ s.SameFile t) (gift : Gift)
    (actors : List Actor) :
    ((∀ e, e ∈ entriesOfKind gift sheets ↔ e ∈ entriesOfKind gift sheets') →
      all gift sheets actors = all gift sheets' actors) ∧
    (Matching (RuleEntry.Agree Path.SameSteps) (entriesOfKind gift sheets)
        (entriesOfKind gift sheets') →
      List.Forall₂ (Agree Path.SameSteps) (all gift sheets actors)
        (all gift sheets' actors)) := by
  constructor
  · intro hmem
    have hsame : ∀ p q : Path, p = q → p.SameSteps q := by
      rintro p _ rfl
      rfl
    have hmatching : Matching (RuleEntry.Agree Eq) (entriesOfKind gift sheets)
        (entriesOfKind gift sheets') :=
      ⟨fun e he => ⟨e, (hmem e).mp he, rfl, rfl⟩, fun e he => ⟨e, (hmem e).mpr he, rfl, rfl⟩⟩
    rw [← List.forall₂_eq_eq_eq]
    exact (forall₂_all hsame hread hread' hdistinct hdistinct' hmatching actors).imp
      fun _ _ => eq_of_agree
  · intro hmatching
    exact forall₂_all (fun _ _ h => h) hread hread' hdistinct hdistinct' hmatching actors

/-- The same outfit rules on other shelves: the sheets come in another order, a sheet without such
rules is added, and a keyword rule gives way to a comment.  On the last shelf, moreover, a path is
written with a second slash. -/
theorem all_determined_by_entries_of_rearranged :
    let clausal := Sheet.ofText ⟨"a.ini".toList⟩ .clausal .standard
      "outfitSleep=Y:outfitDefault=X".toList
    let shelf := [Sheet.ofText ⟨"d/B_DISTR.ini".toList⟩ .barred .standard
      "Keyword = K\nOutfit = A".toList, clausal]
    let others := [clausal, Sheet.ofText ⟨"C_DISTR.ini".toList⟩ .barred .standard
      "SleepOutfit = S".toList]
    let shelf' := others ++ [Sheet.ofText ⟨"d/B_DISTR.ini".toList⟩ .barred .standard
      "; note\nOutfit = A".toList]
    let shelf'' := others ++ [Sheet.ofText ⟨"d//B_DISTR.ini".toList⟩ .barred .standard
      "; note\nOutfit = A".toList]
    let guard := Actor.ofKey ⟨"Skyrim.esm".toList, 16⟩ "Guard".toList
    (∀ l ∈ [shelf, shelf', shelf''], (∀ s ∈ l, s.IsRead) ∧
      l.Pairwise fun s t => ¬ s.SameFile t) ∧
    (entriesOfKind .outfit shelf).length = 2 ∧
    (∀ e, e ∈ entriesOfKind .outfit shelf ↔ e ∈ entriesOfKind .outfit shelf') ∧
    all .outfit shelf [guard] = all .outfit shelf' [guard] ∧
    Matching (RuleEntry.Agree Path.SameSteps) (entriesOfKind .outfit shelf)
      (entriesOfKind .outfit shelf'') ∧
    List.Forall₂ (Agree Path.SameSteps) (all .outfit shelf [guard])
      (all .outfit shelf'' [guard]) := by
  intro clausal shelf others shelf' shelf'' guard
  have hread : ∀ l ∈ [shelf, shelf', shelf''], ∀ s ∈ l, s.IsRead := by
    simp [shelf, shelf', shelf'', others, clausal]
  have hdistinct : ∀ l ∈ [shelf, shelf', shelf''], l.Pairwise fun s t => ¬ s.SameFile t := by
    decide +kernel
  have hperm : (entriesOfKind .outfit shelf).Perm (entriesOfKind .outfit shelf') := by
    decide +kernel
  have hmatching : Matching (RuleEntry.Agree Path.SameSteps) (entriesOfKind .outfit shelf)
      (entriesOfKind .outfit shelf'') := by
    decide +kernel
  have hmem : shelf ∈ [shelf, shelf', shelf''] := by simp
  have hmem' : shelf' ∈ [shelf, shelf', shelf''] := by simp
  have hmem'' : shelf'' ∈ [shelf, shelf', shelf''] := by simp
  refine ⟨fun l hl => ⟨hread l hl, hdistinct l hl⟩, by decide +kernel, fun _ => hperm.mem_iff,
    ?_, hmatching, ?_⟩
  · exact (all_determined_by_entries (hread _ hmem) (hread _ hmem') (hdistinct _ hmem)
      (hdistinct _ hmem') .outfit [guard]).1 fun _ => hperm.mem_iff
  · exact (all_determined_by_entries (hread _ hmem) (hread _ hmem'') (hdistinct _ hmem)
      (hdistinct _ hmem'') .outfit [guard]).2 hmatching

end Contest

end Wardrobe
