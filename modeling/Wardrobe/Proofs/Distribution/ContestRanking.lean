import Mathlib
import Wardrobe.Distribution.Contest
import Wardrobe.Proofs.Sheet.ProcessingOrder

/-!
# Ranks of contenders

The rules of one kind are numbered as they come up when the sheets are read in processing order.
Declaratively that number is the rank of a rule: how many rules of the kind precede it
(`Contest.rank`).  For sheets that are different files the two agree, since the entries then stand
in the strict order of their places (`contendersFor_eq`).

The winner is the last contender that passes (`winner?_eq_some_iff`), so no other passing rule has a
larger rank.  `Contest.Decides` puts together what this says about the contest for one actor; which
contender stands for which rule is said field by field (`Contest.Represents`).
-/

namespace Wardrobe

/-- The rule of an entry in its place. -/
def RuleEntry.placed (e : RuleEntry) : PlacedRule :=
  ⟨e.path, e.line, e.rule⟩

namespace Contest

/-- The entries of one kind on some sheets, sheet by sheet as given.  Their positions count the
rules of a line for which `counts` holds. -/
def entriesFor (counts : Rule → Bool) (gift : Gift) (sheets : List Sheet) : List RuleEntry :=
  (sheets.flatMap (Sheet.entries counts)).filter (·.rule.gift == gift)

/-- The entries of one kind on some sheets, each with its position among all rules of its line. -/
def entries (gift : Gift) (sheets : List Sheet) : List RuleEntry :=
  entriesFor (fun _ => true) gift sheets

/-- The rank of an entry: the number of entries of the kind that precede it. -/
def rank (gift : Gift) (sheets : List Sheet) (e : RuleEntry) : Nat :=
  (entries gift sheets).countP fun e' => e'.Precedes e

/-- A contender for an actor represents an entry: it shows where the rule stands, the outfit, the
rank and the chance, and whether the rule passes its gate. -/
structure Represents (gift : Gift) (sheets : List Sheet) (a : Actor) (x : Contender)
    (e : RuleEntry) : Prop where
  path : x.path = e.path
  line : x.line = e.line
  outfit : x.outfit = e.rule.form
  order : x.order = rank gift sheets e
  chance : x.chance = e.rule.chance
  passed : x.passed = Gate.admits a e.rule

/-- What it means that a contest decides between the rules of one kind for an actor. -/
structure Decides (gift : Gift) (sheets : List Sheet) (a : Actor) (c : Contest) : Prop where
  actor : c.actor = a.key
  editorId : c.editorId = a.editorId
  /-- The contenders are the rules that select the actor. -/
  mem_contenders : ∀ x, x ∈ c.contenders ↔ ∃ e ∈ entries gift sheets,
    e.rule.selects a [] = true ∧ Represents gift sheets a x e
  /-- They are listed by rank, each once. -/
  ascending : c.contenders.Pairwise fun x y => x.order < y.order
  /-- The winner selects the actor and passes its gate, and every other rule that does so has a
  smaller rank. -/
  winner : ∀ i, c.winner? = some i → ∃ e ∈ entries gift sheets,
    e.rule.selects a [] = true ∧ Gate.admits a e.rule = true ∧
      (∃ x, c.contenders[i]? = some x ∧ Represents gift sheets a x e) ∧
      ∀ e' ∈ entries gift sheets, e'.rule.selects a [] = true → Gate.admits a e'.rule = true →
        e' ≠ e → rank gift sheets e' < rank gift sheets e
  /-- There is no winner exactly when no rule that selects the actor passes its gate. -/
  no_winner : c.winner? = none ↔ ∀ e ∈ entries gift sheets,
    e.rule.selects a [] = true → Gate.admits a e.rule = false
  /-- A conflict is a contest of several contenders. -/
  conflict : c.isConflict = true ↔ 2 ≤ c.contenders.length

end Contest

/-! ## Numbers and ranks -/

/-- In a list whose keys ascend strictly, the number of smaller keys is the index. -/
lemma countP_key_lt_getElem {α β : Type*} [LinearOrder β] {key : α → β} {l : List α}
    (h : l.Pairwise fun x y => key x < key y) {i : Nat} (hi : i < l.length) :
    l.countP (fun x => key x < key l[i]) = i := by
  induction l generalizing i with
  | nil => exact absurd hi (Nat.not_lt_zero i)
  | cons x rest ih =>
    obtain ⟨hx, hrest⟩ := List.pairwise_cons.mp h
    cases i with
    | zero =>
      rw [List.getElem_cons_zero, List.countP_eq_zero]
      intro y hy
      rw [decide_eq_true_eq, not_lt]
      rcases List.mem_cons.mp hy with rfl | hy
      · exact le_rfl
      · exact (hx y hy).le
    | succ i =>
      have hi' : i < rest.length := Nat.lt_of_succ_lt_succ hi
      have hfirst : key x < key rest[i] := hx _ (List.getElem_mem hi')
      rw [List.getElem_cons_succ, List.countP_cons, ih hrest hi']
      simp only [hfirst, decide_true, if_true]

namespace Contest

variable {gift : Gift} {sheets : List Sheet} {a : Actor} {l : List RuleEntry}

/-- Entries in the order of their places are numbered by their ranks. -/
lemma zipIdx_eq_map_rank (h : l.Pairwise fun e e' => e.place < e'.place) :
    l.zipIdx = l.map fun e => (e, l.countP fun e' => e'.place < e.place) := by
  refine List.ext_getElem (by simp) fun i hi hi' => ?_
  have hil : i < l.length := by simpa using hi
  rw [List.getElem_zipIdx, List.getElem_map, countP_key_lt_getElem h hil, Nat.zero_add]

/-- The contenders among entries in the order of their places. -/
lemma contendersFor_map_placed (h : l.Pairwise fun e e' => e.place < e'.place) (a : Actor) :
    contendersFor (l.map RuleEntry.placed) a = (l.filter (·.rule.selects a [])).map fun e =>
      contender a (l.countP fun e' => e'.place < e.place) e.placed := by
  unfold contendersFor
  rw [List.zipIdx_map, List.filterMap_map, zipIdx_eq_map_rank h, List.filterMap_map,
    ← List.filterMap_eq_map, List.filterMap_filter]
  rfl

/-- The rules of a sheet are those of its entries. -/
lemma map_placed_entries (s : Sheet) (counts : Rule → Bool) :
    (s.entries counts).map RuleEntry.placed = s.placedRules.filter (counts ·.rule) := by
  unfold Sheet.entries Sheet.placedRules Sheet.rules
  rw [List.map_flatMap, List.map_flatMap, List.filter_flatMap]
  refine List.flatMap_congr fun line _ => ?_
  have hrules : (line.content.toRules.filter counts).zipIdx.map Prod.fst =
      line.content.toRules.filter counts := List.zipIdx_map_fst 0 _
  calc (s.lineEntries counts line).map RuleEntry.placed
      = ((line.content.toRules.filter counts).zipIdx.map Prod.fst).map fun r =>
          (⟨s.path, line.number, r⟩ : PlacedRule) := by
        rw [Sheet.lineEntries, List.map_map, List.map_map]
        rfl
    _ = _ := by
        rw [hrules, List.map_map, List.filter_map]
        rfl

/-- The numbered rules are those of the entries in processing order. -/
lemma rulesFor_eq_map (counts : Rule → Bool)
    (hcounts : ∀ r : Rule, r.gift = gift → counts r = true) (sheets : List Sheet) :
    rulesFor gift sheets =
      (entriesFor counts gift (Sheet.processingOrder sheets)).map RuleEntry.placed := by
  have hkind : ∀ s : Sheet, s.placedRules.filter (·.rule.gift == gift) =
      ((s.entries counts).map RuleEntry.placed).filter (·.rule.gift == gift) := by
    intro s
    rw [map_placed_entries, List.filter_filter]
    refine List.filter_congr fun p _ => ?_
    cases hg : p.rule.gift == gift with
    | false => rfl
    | true => rw [hcounts p.rule (beq_iff_eq.mp hg), Bool.and_true]
  unfold rulesFor entriesFor
  rw [List.filter_flatMap, List.filter_flatMap, List.map_flatMap]
  refine List.flatMap_congr fun s _ => ?_
  rw [hkind, List.filter_map]
  rfl

/-- The entries of different sheets, in processing order, stand in the order of their places. -/
lemma pairwise_place_entriesFor (hread : ∀ s ∈ sheets, s.IsRead)
    (hdistinct : sheets.Pairwise fun s t => ¬ s.SameFile t) (counts : Rule → Bool) (gift : Gift) :
    (entriesFor counts gift (Sheet.processingOrder sheets)).Pairwise
      fun e e' => e.place < e'.place :=
  (Sheet.pairwise_place_processingOrder hread hdistinct counts).filter _

/-- Processing order has the entries of the sheets. -/
lemma entriesFor_perm (counts : Rule → Bool) (gift : Gift) (sheets : List Sheet) :
    (entriesFor counts gift (Sheet.processingOrder sheets)).Perm
      (entriesFor counts gift sheets) :=
  ((Sheet.processingOrder_perm sheets).flatMap_right _).filter _

/-- The entries in processing order are those of the sheets. -/
lemma mem_entries_processingOrder {e : RuleEntry} :
    e ∈ entries gift (Sheet.processingOrder sheets) ↔ e ∈ entries gift sheets :=
  (entriesFor_perm _ gift sheets).mem_iff

/-- The rank of an entry may be counted in processing order, by places. -/
lemma countP_processingOrder_eq_rank (gift : Gift) (sheets : List Sheet) (e : RuleEntry) :
    (entries gift (Sheet.processingOrder sheets)).countP (fun e' => e'.place < e.place) =
      rank gift sheets e := by
  simp only [rank, RuleEntry.precedes_iff]
  exact (entriesFor_perm _ gift sheets).countP_eq _

/-- The contenders for an actor are the rules that select it, numbered by rank. -/
lemma contendersFor_eq (hread : ∀ s ∈ sheets, s.IsRead)
    (hdistinct : sheets.Pairwise fun s t => ¬ s.SameFile t) (a : Actor) :
    contendersFor (rulesFor gift sheets) a =
      ((entries gift (Sheet.processingOrder sheets)).filter (·.rule.selects a [])).map
        fun e => contender a (rank gift sheets e) e.placed := by
  have hrules : rulesFor gift sheets =
      (entries gift (Sheet.processingOrder sheets)).map RuleEntry.placed :=
    rulesFor_eq_map (fun _ => true) (fun _ _ => rfl) sheets
  have hplaces : (entries gift (Sheet.processingOrder sheets)).Pairwise
      fun e e' => e.place < e'.place := pairwise_place_entriesFor hread hdistinct _ gift
  rw [hrules, contendersFor_map_placed hplaces]
  refine List.map_congr_left fun e _ => ?_
  rw [countP_processingOrder_eq_rank]

/-- In processing order the ranks of the entries ascend. -/
lemma pairwise_rank (hread : ∀ s ∈ sheets, s.IsRead)
    (hdistinct : sheets.Pairwise fun s t => ¬ s.SameFile t) :
    (entries gift (Sheet.processingOrder sheets)).Pairwise
      fun e e' => rank gift sheets e < rank gift sheets e' := by
  have hplaces := pairwise_place_entriesFor hread hdistinct (fun _ => true) gift
  have hrank : ∀ i (hi : i < (entries gift (Sheet.processingOrder sheets)).length),
      rank gift sheets (entries gift (Sheet.processingOrder sheets))[i] = i := by
    intro i hi
    rw [← countP_processingOrder_eq_rank]
    exact countP_key_lt_getElem hplaces hi
  rw [List.pairwise_iff_getElem]
  intro i j hi hj hij
  rw [hrank i hi, hrank j hj]
  exact hij

/-- Different entries have different ranks. -/
lemma rank_inj (hread : ∀ s ∈ sheets, s.IsRead)
    (hdistinct : sheets.Pairwise fun s t => ¬ s.SameFile t) {e e' : RuleEntry}
    (he : e ∈ entries gift sheets) (he' : e' ∈ entries gift sheets)
    (h : rank gift sheets e = rank gift sheets e') : e = e' := by
  have hnodup : ((entries gift (Sheet.processingOrder sheets)).map (rank gift sheets)).Nodup :=
    List.pairwise_map.mpr ((pairwise_rank hread hdistinct).imp fun hlt => hlt.ne)
  rw [← mem_entries_processingOrder] at he he'
  exact List.inj_on_of_nodup_map hnodup he he' h

/-! ## The winner -/

variable {c : Contest} {before after : List Contender} {x : Contender}

/-- When nothing behind a contender that passed did pass, that contender wins. -/
lemma winner?_of_append (hc : c.contenders = before ++ x :: after) (hx : x.passed = true)
    (hafter : ∀ y ∈ after, y.passed = false) : c.winner? = some before.length := by
  have hbehind : ((after.zipIdx (before.length + 1)).reverse.find?
      fun p => p.1.passed) = none := by
    rw [List.find?_eq_none]
    rintro ⟨y, i⟩ hy
    have hmem : y ∈ after := List.fst_mem_of_mem_zipIdx (List.mem_reverse.mp hy)
    rw [hafter y hmem]
    exact Bool.false_ne_true
  have hhit : ((x, before.length) :: before.zipIdx.reverse).find? (fun p => p.1.passed) =
      some (x, before.length) := List.find?_cons_of_pos hx
  unfold winner?
  rw [hc, List.zipIdx_append, List.zipIdx_cons, List.reverse_append, List.reverse_cons,
    List.append_assoc, List.find?_append, Nat.zero_add, hbehind, Option.none_or,
    List.singleton_append, hhit]
  rfl

/-- Nobody wins exactly when no contender passed. -/
lemma winner?_eq_none_iff : c.winner? = none ↔ ∀ x ∈ c.contenders, x.passed = false := by
  unfold winner?
  rw [Option.map_eq_none_iff, List.find?_eq_none]
  constructor
  · intro h x hx
    obtain ⟨i, hi⟩ := List.mem_iff_getElem?.mp hx
    have hmem : (x, i) ∈ c.contenders.zipIdx.reverse :=
      List.mem_reverse.mpr (List.mk_mem_zipIdx_iff_getElem?.mpr hi)
    exact Bool.eq_false_iff.mpr (h _ hmem)
  · rintro h ⟨x, i⟩ hx
    have hmem : x ∈ c.contenders := List.fst_mem_of_mem_zipIdx (List.mem_reverse.mp hx)
    exact Bool.eq_false_iff.mp (h x hmem)

/-- If some contender passed, one of them is the last. -/
lemma exists_last_passed {l : List Contender} (h : ∃ x ∈ l, x.passed = true) :
    ∃ before x after, l = before ++ x :: after ∧ x.passed = true ∧
      ∀ y ∈ after, y.passed = false := by
  obtain ⟨x, hx, hpassed⟩ := h
  have hsome : (l.reverse.find? (·.passed)).isSome = true :=
    List.find?_isSome.mpr ⟨x, List.mem_reverse.mpr hx, hpassed⟩
  obtain ⟨y, hy⟩ := Option.isSome_iff_exists.mp hsome
  obtain ⟨hypassed, behind, front, heq, hbehind⟩ := List.find?_eq_some_iff_append.mp hy
  refine ⟨front.reverse, y, behind.reverse, ?_, hypassed, fun z hz => ?_⟩
  · rw [List.reverse_eq_iff.mp heq]
    simp
  · simpa using hbehind z (List.mem_reverse.mp hz)

/-- The winner is the last contender that passed. -/
lemma winner?_eq_some_iff {i : Nat} : c.winner? = some i ↔
    ∃ before x after, c.contenders = before ++ x :: after ∧ before.length = i ∧
      x.passed = true ∧ ∀ y ∈ after, y.passed = false := by
  constructor
  · intro h
    have hsome : ∃ x ∈ c.contenders, x.passed = true := by
      by_contra hnone
      have hfailed : ∀ x ∈ c.contenders, x.passed = false := fun x hx =>
        Bool.eq_false_iff.mpr fun hpassed => hnone ⟨x, hx, hpassed⟩
      rw [winner?_eq_none_iff.mpr hfailed] at h
      cases h
    obtain ⟨before, x, after, hc, hx, hafter⟩ := exists_last_passed hsome
    rw [winner?_of_append hc hx hafter] at h
    exact ⟨before, x, after, hc, Option.some.inj h, hx, hafter⟩
  · rintro ⟨before, x, after, hc, rfl, hx, hafter⟩
    exact winner?_of_append hc hx hafter

/-! ## Contests -/

/-- One contender represents an entry. -/
lemma represents_iff {e : RuleEntry} : Represents gift sheets a x e ↔
    x = contender a (rank gift sheets e) e.placed := by
  obtain ⟨path, line, outfit, order, chance, passed⟩ := x
  constructor
  · rintro ⟨rfl, rfl, rfl, rfl, rfl, rfl⟩
    rfl
  · intro h
    cases h
    exact ⟨rfl, rfl, rfl, rfl, rfl, rfl⟩

/-- The contenders are the rules that select the actor, each under its rank. -/
lemma mem_contendersFor_iff (hread : ∀ s ∈ sheets, s.IsRead)
    (hdistinct : sheets.Pairwise fun s t => ¬ s.SameFile t) :
    x ∈ contendersFor (rulesFor gift sheets) a ↔ ∃ e ∈ entries gift sheets,
      e.rule.selects a [] = true ∧ x = contender a (rank gift sheets e) e.placed := by
  rw [contendersFor_eq hread hdistinct]
  simp only [List.mem_map, List.mem_filter, mem_entries_processingOrder, and_assoc,
    eq_comm (a := x)]

/-- The contenders are listed by rank. -/
lemma pairwise_order_contendersFor (hread : ∀ s ∈ sheets, s.IsRead)
    (hdistinct : sheets.Pairwise fun s t => ¬ s.SameFile t) (gift : Gift) (a : Actor) :
    (contendersFor (rulesFor gift sheets) a).Pairwise fun x y => x.order < y.order := by
  rw [contendersFor_eq hread hdistinct, List.pairwise_map]
  exact (pairwise_rank hread hdistinct).filter _

/-- Of the rules that select the actor and pass, all others rank below the last contender that
passed. -/
lemma rank_lt_of_append (hread : ∀ s ∈ sheets, s.IsRead)
    (hdistinct : sheets.Pairwise fun s t => ¬ s.SameFile t) {e e' : RuleEntry}
    (hc : contendersFor (rulesFor gift sheets) a =
      before ++ contender a (rank gift sheets e) e.placed :: after)
    (hafter : ∀ y ∈ after, y.passed = false) (he : e ∈ entries gift sheets)
    (he' : e' ∈ entries gift sheets) (hselects : e'.rule.selects a [] = true)
    (hadmits : Gate.admits a e'.rule = true) (hne : e' ≠ e) :
    rank gift sheets e' < rank gift sheets e := by
  have hmem := (mem_contendersFor_iff hread hdistinct).mpr ⟨e', he', hselects, rfl⟩
  have hascending := pairwise_order_contendersFor hread hdistinct gift a
  rw [hc] at hmem hascending
  -- a contender that passed stands before the last one that did, or is that one
  rcases List.mem_append.mp hmem with hbefore | hbehind
  · exact (List.pairwise_append.mp hascending).2.2 _ hbefore _ List.mem_cons_self
  · rcases List.mem_cons.mp hbehind with heq | hmem'
    · have hrank : rank gift sheets e' = rank gift sheets e := congrArg Contender.order heq
      exact absurd (rank_inj hread hdistinct he' he hrank) hne
    · have hfailed : Gate.admits a e'.rule = false := hafter _ hmem'
      rw [hadmits] at hfailed
      cases hfailed

/-- The contest for an actor decides between the rules of its kind. -/
lemma decides (hread : ∀ s ∈ sheets, s.IsRead)
    (hdistinct : sheets.Pairwise fun s t => ¬ s.SameFile t) (gift : Gift) (a : Actor) :
    Decides gift sheets a ⟨a.key, a.editorId, contendersFor (rulesFor gift sheets) a⟩ where
  actor := rfl
  editorId := rfl
  mem_contenders x := by
    simp only [represents_iff]
    exact mem_contendersFor_iff hread hdistinct
  ascending := pairwise_order_contendersFor hread hdistinct gift a
  winner i hi := by
    obtain ⟨before, x, after, hc, rfl, hx, hafter⟩ := winner?_eq_some_iff.mp hi
    change contendersFor (rulesFor gift sheets) a = before ++ x :: after at hc
    have hmem : x ∈ contendersFor (rulesFor gift sheets) a := by
      rw [hc]
      exact List.mem_append_cons_self
    obtain ⟨e, he, hselects, rfl⟩ := (mem_contendersFor_iff hread hdistinct).mp hmem
    refine ⟨e, he, hselects, hx, ⟨_, ?_, represents_iff.mpr rfl⟩,
      fun e' he' hselects' hadmits' hne => ?_⟩
    · rw [hc, List.getElem?_append_right le_rfl, Nat.sub_self, List.getElem?_cons_zero]
    · exact rank_lt_of_append hread hdistinct hc hafter he he' hselects' hadmits' hne
  no_winner := by
    rw [winner?_eq_none_iff]
    constructor
    · intro h e he hselects
      exact h _ ((mem_contendersFor_iff hread hdistinct).mpr ⟨e, he, hselects, rfl⟩)
    · rintro h x hx
      obtain ⟨e, he, hselects, rfl⟩ := (mem_contendersFor_iff hread hdistinct).mp hx
      exact h e he hselects
  conflict := decide_eq_true_iff

/-- Without contenders there is no contest. -/
lemma ofActor?_of_eq_nil {rules : List PlacedRule} (h : contendersFor rules a = []) :
    ofActor? rules a = none := by
  unfold ofActor?
  rw [h]

/-- With contenders there is a contest between them. -/
lemma ofActor?_of_ne_nil {rules : List PlacedRule} (h : contendersFor rules a ≠ []) :
    ofActor? rules a = some ⟨a.key, a.editorId, contendersFor rules a⟩ := by
  unfold ofActor?
  split
  · contradiction
  · rfl

/-- Read in processing order, the sheets give exactly the contests that the ranks of their rules
declare: one for each actor that a rule of the kind selects, in the order of the actors. -/
theorem all_decides (hread : ∀ s ∈ sheets, s.IsRead)
    (hdistinct : sheets.Pairwise fun s t => ¬ s.SameFile t) (gift : Gift) (actors : List Actor) :
    List.Forall₂ (Decides gift sheets)
      (actors.filter fun a => (entries gift sheets).any (·.rule.selects a []))
      (all gift sheets actors) := by
  unfold all
  induction actors with
  | nil => exact List.Forall₂.nil
  | cons a rest ih =>
    have hcontest := decides hread hdistinct gift a
    by_cases hany : (entries gift sheets).any (·.rule.selects a []) = true
    · obtain ⟨e, he, hselects⟩ := List.any_eq_true.mp hany
      have hne : contendersFor (rulesFor gift sheets) a ≠ [] :=
        List.ne_nil_of_mem
          ((mem_contendersFor_iff hread hdistinct).mpr ⟨e, he, hselects, rfl⟩)
      rw [List.filter_cons, if_pos hany, List.filterMap_cons_some (ofActor?_of_ne_nil hne)]
      exact List.Forall₂.cons hcontest ih
    · have hnil : contendersFor (rulesFor gift sheets) a = [] := by
        rw [List.eq_nil_iff_forall_not_mem]
        intro x hx
        obtain ⟨e, he, hselects, -⟩ := (hcontest.mem_contenders x).mp hx
        exact hany (List.any_eq_true.mpr ⟨e, he, hselects⟩)
      rw [List.filter_cons, if_neg hany, List.filterMap_cons_none (ofActor?_of_eq_nil hnil)]
      exact ih

/-- Five sheets that lie on the shelf in reverse.  Two of them have the same file name but for
letter case, and the directory decides between these; one line names two outfits of the kind, and
two of the rules never pass.  The last contender for the guard does not win, a rule for somebody
else keeps its rank, and nothing is decided about the child. -/
theorem all_decides_of_five_sheets :
    let shelf := [
      Sheet.ofText ⟨"A/b.ini".toList⟩ .clausal .standard
        "filterByNpcs=S.esm|10:outfitDefault=V:chance=0".toList,
      Sheet.ofText ⟨"A/a.ini".toList⟩ .clausal .standard
        "filterByNpcs=S.esm|10:outfitDefault=X:outfitSleep=Y:outfitDefault=Z".toList,
      Sheet.ofText ⟨"A/c_DISTR.ini".toList⟩ .barred .standard "Outfit = C|Guard".toList,
      Sheet.ofText ⟨"Z/B_DISTR.ini".toList⟩ .barred .standard
        "Outfit = N|Nobody\nOutfit = B|Guard|NONE|NONE|NONE|NONE|0".toList,
      Sheet.ofText ⟨"Y//b_distr.ini".toList⟩ .barred .standard "Outfit = A|Guard,Maid".toList]
    let guard := Actor.ofKey ⟨"S.esm".toList, 16⟩ "Guard".toList
    let maid := Actor.ofKey ⟨"S.esm".toList, 17⟩ "Maid".toList
    let child := Actor.ofKey ⟨"S.esm".toList, 18⟩ "Child".toList
    let first : Contender := ⟨⟨"Y//b_distr.ini".toList⟩, 1, "A".toList, 0, 100, true⟩
    let contests : List Contest := [
      ⟨guard.key, guard.editorId, [first,
        ⟨⟨"Z/B_DISTR.ini".toList⟩, 2, "B".toList, 2, 0, false⟩,
        ⟨⟨"A/c_DISTR.ini".toList⟩, 1, "C".toList, 3, 100, true⟩,
        ⟨⟨"A/a.ini".toList⟩, 1, "X".toList, 4, 100, true⟩,
        ⟨⟨"A/a.ini".toList⟩, 1, "Z".toList, 5, 100, true⟩,
        ⟨⟨"A/b.ini".toList⟩, 1, "V".toList, 6, 0, false⟩]⟩,
      ⟨maid.key, maid.editorId, [first]⟩]
    (∀ s ∈ shelf, s.IsRead) ∧ (shelf.Pairwise fun s t => ¬ s.SameFile t) ∧
      Path.IsFileName ⟨"Y//b_distr.ini".toList⟩ "b_distr.ini".toList ∧
      Path.IsFileName ⟨"Z/B_DISTR.ini".toList⟩ "B_DISTR.ini".toList ∧
      all .outfit shelf [guard, maid, child] = contests ∧
      contests.map winner? = [some 4, some 0] ∧
      List.Forall₂ (Decides .outfit shelf) [guard, maid] contests := by
  intro shelf guard maid child first contests
  have hread : ∀ s ∈ shelf, s.IsRead := by simp [shelf]
  have hdistinct : shelf.Pairwise fun s t => ¬ s.SameFile t := by decide +kernel
  have horder : Sheet.processingOrder shelf = shelf.reverse :=
    Sheet.processingOrder_eq_of_perm hdistinct shelf.reverse_perm.symm (by decide +kernel)
  have hall : all .outfit shelf [guard, maid, child] = contests := by
    unfold all rulesFor
    rw [horder]
    decide +kernel
  have hguard : (entries .outfit shelf).any (·.rule.selects guard []) = true := by decide +kernel
  have hmaid : (entries .outfit shelf).any (·.rule.selects maid []) = true := by decide +kernel
  have hchild : (entries .outfit shelf).any (·.rule.selects child []) = false := by decide +kernel
  have hdecides := all_decides hread hdistinct .outfit [guard, maid, child]
  rw [hall] at hdecides
  simp only [List.filter_cons, hguard, hmaid, hchild, if_true, Bool.false_eq_true, if_false,
    List.filter_nil] at hdecides
  have hsteps : Path.components ⟨"Y//b_distr.ini".toList⟩ =
      [.name "Y".toList] ++ [.name "b_distr.ini".toList] := by decide +kernel
  have hsteps' : Path.components ⟨"Z/B_DISTR.ini".toList⟩ =
      [.name "Z".toList] ++ [.name "B_DISTR.ini".toList] := by decide +kernel
  exact ⟨hread, hdistinct, .named hsteps, .named hsteps', hall, by decide +kernel, hdecides⟩

end Contest

end Wardrobe
