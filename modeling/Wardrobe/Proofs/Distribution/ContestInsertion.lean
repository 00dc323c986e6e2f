import Mathlib
import Wardrobe.Proofs.Distribution.ContestRanking

/-!
# Contests on a larger shelf

A sheet that is put on a shelf, at any place, brings contenders of its own.  Processing order is a
stable sort, so the other sheets keep their order around it, also when some of them have its place
(`Sheet.exists_processingOrder_insert`).  The contenders of the other sheets therefore stay, those
behind the added ones under larger numbers.

Who wins is the last contender that passes.  Hence the winner stays, or it is an added contender.
-/

namespace Wardrobe

/-- A contender whose number is larger by `n`. -/
def Contender.shift (n : Nat) (x : Contender) : Contender :=
  { x with order := x.order + n }

namespace Contest

/-- The contender that wins. -/
def winning? (c : Contest) : Option Contender :=
  c.winner?.bind fun i => c.contenders[i]?

/-- The contenders for an actor on some sheets, none without a contest. -/
def contendersIn (gift : Gift) (sheets : List Sheet) (a : Actor) : List Contender :=
  (all gift sheets [a]).flatMap (·.contenders)

/-- The contender that wins an actor on some sheets. -/
def winnerIn (gift : Gift) (sheets : List Sheet) (a : Actor) : Option Contender :=
  (all gift sheets [a]).head?.bind winning?

end Contest

/-! ## Insertion into a stable sort -/

section Sorting

variable {α : Type*} {r : α → α → Prop} [DecidableRel r]

/-- Insertion splits a list between the members that the new one may not precede and the others. -/
lemma orderedInsert_append {x : α} {front back : List α} (hfront : ∀ y ∈ front, ¬ r x y)
    (hback : ∀ y ∈ back, r x y) : (front ++ back).orderedInsert r x = front ++ x :: back := by
  induction front with
  | nil =>
    cases back with
    | nil => rfl
    | cons y back => exact List.orderedInsert_cons_of_le r back (hback y List.mem_cons_self)
  | cons y front ih =>
    have hrest := ih fun z hz => hfront z (List.mem_cons_of_mem y hz)
    rw [List.cons_append, List.orderedInsert_of_not_le r _ (hfront y List.mem_cons_self), hrest,
      List.cons_append]

/-- Insertion into a sorted list, with and without one of its members, puts the same members before
that one and the same behind it. -/
lemma exists_orderedInsert_insert (trans : ∀ x y z, r x y → r y z → r x z) (x y : α)
    {front back : List α} (h : (front ++ x :: back).Pairwise r) :
    ∃ front' back', (front ++ back).orderedInsert r y = front' ++ back' ∧
      (front ++ x :: back).orderedInsert r y = front' ++ x :: back' := by
  induction front with
  | nil =>
    by_cases hyx : r y x
    · have hback : ∀ z ∈ back, r y z := fun z hz =>
        trans y x z hyx ((List.pairwise_cons.mp h).1 z hz)
      have hnone : ∀ z ∈ ([] : List α), ¬ r y z := fun z hz => absurd hz List.not_mem_nil
      exact ⟨[y], back, orderedInsert_append hnone hback, List.orderedInsert_cons_of_le r _ hyx⟩
    · exact ⟨[], back.orderedInsert r y, rfl, List.orderedInsert_of_not_le r _ hyx⟩
  | cons z front ih =>
    by_cases hyz : r y z
    · exact ⟨y :: z :: front, back, List.orderedInsert_cons_of_le r _ hyz,
        List.orderedInsert_cons_of_le r _ hyz⟩
    · obtain ⟨front', back', hwithout, hwith⟩ := ih (List.pairwise_cons.mp h).2
      refine ⟨z :: front', back', ?_, ?_⟩
      · rw [List.cons_append, List.orderedInsert_of_not_le r _ hyz, hwithout, List.cons_append]
      · rw [List.cons_append, List.orderedInsert_of_not_le r _ hyz, hwith, List.cons_append]

variable {le : α → α → Bool}

/-- A stable sort inserts the first member into the sorted rest. -/
lemma mergeSort_cons_eq_orderedInsert (trans : ∀ x y z, le x y → le y z → le x z)
    (total : ∀ x y, le x y || le y x) (x : α) (l : List α) :
    (x :: l).mergeSort le = (l.mergeSort le).orderedInsert (fun y z => le y z = true) x := by
  obtain ⟨front, back, hnew, hold, hfront⟩ := List.mergeSort_cons trans total x l
  have hsorted := List.pairwise_mergeSort trans total (x :: l)
  rw [hnew, List.pairwise_append, List.pairwise_cons] at hsorted
  obtain ⟨-, ⟨hback, -⟩, -⟩ := hsorted
  have hfront' : ∀ y ∈ front, ¬ le x y = true := by
    intro y hy
    simpa using hfront y hy
  rw [hnew, hold, orderedInsert_append hfront' hback]

/-- A stable sort puts a member that is added anywhere somewhere between the others, which keep
their order. -/
lemma exists_mergeSort_insert (trans : ∀ x y z, le x y → le y z → le x z)
    (total : ∀ x y, le x y || le y x) (before : List α) (x : α) (after : List α) :
    ∃ front back, (before ++ after).mergeSort le = front ++ back ∧
      (before ++ x :: after).mergeSort le = front ++ x :: back := by
  induction before with
  | nil =>
    obtain ⟨front, back, hnew, hold, -⟩ := List.mergeSort_cons trans total x after
    exact ⟨front, back, hold, hnew⟩
  | cons y before ih =>
    obtain ⟨front, back, hold, hnew⟩ := ih
    have hsorted := List.pairwise_mergeSort trans total (before ++ x :: after)
    rw [hnew] at hsorted
    obtain ⟨front', back', hold', hnew'⟩ := exists_orderedInsert_insert trans x y hsorted
    refine ⟨front', back', ?_, ?_⟩
    · rw [List.cons_append, mergeSort_cons_eq_orderedInsert trans total, hold, hold']
    · rw [List.cons_append, mergeSort_cons_eq_orderedInsert trans total, hnew, hnew']

end Sorting

/-- A sheet put on a shelf stands somewhere between the others, which keep their order. -/
lemma Sheet.exists_processingOrder_insert (before : List Sheet) (s : Sheet) (after : List Sheet) :
    ∃ front back, processingOrder (before ++ after) = front ++ back ∧
      processingOrder (before ++ s :: after) = front ++ s :: back :=
  exists_mergeSort_insert notAfter_trans notAfter_total before s after

namespace Contest

/-! ## Rules and contenders of a larger shelf -/

/-- The rules of an added sheet come up one behind the other, and the other rules keep their
order. -/
lemma exists_rulesFor_insert (gift : Gift) (before : List Sheet) (s : Sheet)
    (after : List Sheet) : ∃ front back, rulesFor gift (before ++ after) = front ++ back ∧
      rulesFor gift (before ++ s :: after) = front ++ rulesFor gift [s] ++ back := by
  obtain ⟨front, back, hold, hnew⟩ := Sheet.exists_processingOrder_insert before s after
  have hlone : Sheet.processingOrder [s] = [s] := List.mergeSort_singleton s
  unfold rulesFor
  rw [hold, hnew, hlone]
  refine ⟨(front.flatMap Sheet.placedRules).filter (·.rule.gift == gift),
    (back.flatMap Sheet.placedRules).filter (·.rule.gift == gift), ?_, ?_⟩
  · rw [List.flatMap_append, List.filter_append]
  · rw [List.flatMap_append, List.flatMap_cons, List.filter_append, List.filter_append,
      List.flatMap_singleton, List.append_assoc]

/-- The contenders among rules behind others are the same under larger numbers. -/
lemma contendersFor_append (rules rules' : List PlacedRule) (a : Actor) :
    contendersFor (rules ++ rules') a =
      contendersFor rules a ++ (contendersFor rules' a).map (Contender.shift rules.length) := by
  have hshift : ∀ p : PlacedRule × Nat,
      (if p.1.rule.selects a [] then some (contender a (rules.length + p.2) p.1) else none) =
        (if p.1.rule.selects a [] then some (contender a p.2 p.1) else none).map
          (Contender.shift rules.length) := by
    rintro ⟨p, order⟩
    split
    · rw [Option.map_some, Nat.add_comm]
      rfl
    · rfl
  have hnumbers : rules'.zipIdx rules.length =
      rules'.zipIdx.map fun p => (p.1, rules.length + p.2) := List.zipIdx_eq_map_add
  unfold contendersFor
  rw [List.zipIdx_append, List.filterMap_append, Nat.zero_add, hnumbers, List.filterMap_map,
    List.map_filterMap]
  exact congrArg _ (List.filterMap_congr fun p _ => hshift p)

/-- Shifting twice shifts by the sum. -/
lemma shift_shift (m n : Nat) (x : Contender) : (x.shift m).shift n = x.shift (m + n) := by
  unfold Contender.shift
  rw [Nat.add_assoc]

/-- For one actor there is one contest or none. -/
lemma all_singleton (gift : Gift) (sheets : List Sheet) (a : Actor) :
    all gift sheets [a] = (ofActor? (rulesFor gift sheets) a).toList := by
  unfold all
  cases h : ofActor? (rulesFor gift sheets) a with
  | none => rw [List.filterMap_cons_none h, List.filterMap_nil, Option.toList_none]
  | some c => rw [List.filterMap_cons_some h, List.filterMap_nil, Option.toList_some]

/-- The contenders of the contest are those among the rules. -/
lemma contendersIn_eq (gift : Gift) (sheets : List Sheet) (a : Actor) :
    contendersIn gift sheets a = contendersFor (rulesFor gift sheets) a := by
  rw [contendersIn, all_singleton]
  by_cases hnil : contendersFor (rulesFor gift sheets) a = []
  · rw [ofActor?_of_eq_nil hnil, hnil]
    rfl
  · rw [ofActor?_of_ne_nil hnil, Option.toList_some, List.flatMap_singleton]

/-! ## The last contender that passes -/

/-- The last contender that passed. -/
def lastPassed (l : List Contender) : Option Contender :=
  l.reverse.find? (·.passed)

/-- The contender that wins is the last one that passed. -/
lemma winning?_eq_lastPassed (c : Contest) : c.winning? = lastPassed c.contenders := by
  unfold winning? lastPassed
  cases hwinner : c.winner? with
  | none =>
    have hfailed := winner?_eq_none_iff.mp hwinner
    have hnone : c.contenders.reverse.find? (·.passed) = none := by
      rw [List.find?_eq_none]
      intro x hx
      exact Bool.eq_false_iff.mp (hfailed x (List.mem_reverse.mp hx))
    rw [hnone, Option.bind_none]
  | some i =>
    obtain ⟨before, x, after, hc, rfl, hx, hafter⟩ := winner?_eq_some_iff.mp hwinner
    have hsome : c.contenders.reverse.find? (·.passed) = some x := by
      rw [List.find?_eq_some_iff_append]
      refine ⟨hx, after.reverse, before.reverse, ?_, fun y hy => ?_⟩
      · rw [hc, List.reverse_append, List.reverse_cons, List.append_assoc, List.singleton_append]
      · rw [hafter y (List.mem_reverse.mp hy)]
        rfl
    rw [hsome, Option.bind_some, hc, List.getElem?_append_right le_rfl, Nat.sub_self,
      List.getElem?_cons_zero]

/-- The contender that wins an actor is the last one that passed. -/
lemma winnerIn_eq (gift : Gift) (sheets : List Sheet) (a : Actor) :
    winnerIn gift sheets a = lastPassed (contendersIn gift sheets a) := by
  rw [contendersIn_eq, winnerIn, all_singleton, Option.head?_toList]
  by_cases hnil : contendersFor (rulesFor gift sheets) a = []
  · rw [ofActor?_of_eq_nil hnil, hnil]
    rfl
  · rw [ofActor?_of_ne_nil hnil, Option.bind_some, winning?_eq_lastPassed]

/-- The last contender that passed is one of the later ones if any of these passed. -/
lemma lastPassed_append (l l' : List Contender) :
    lastPassed (l ++ l') = (lastPassed l').or (lastPassed l) := by
  unfold lastPassed
  rw [List.reverse_append, List.find?_append]

/-- Larger numbers change nothing in who passed last. -/
lemma lastPassed_map_shift (l : List Contender) (n : Nat) :
    lastPassed (l.map (Contender.shift n)) = (lastPassed l).map (Contender.shift n) := by
  unfold lastPassed
  rw [← List.map_reverse, List.find?_map]
  rfl

/-- The last contender that passed is a contender. -/
lemma mem_of_lastPassed {l : List Contender} {x : Contender} (h : lastPassed l = some x) : x ∈ l :=
  List.mem_reverse.mp (List.mem_of_find?_eq_some h)

/-- Contenders added in the middle leave who passed last as it is, up to its number, unless one of
them passed last. -/
lemma lastPassed_insert (early added late : List Contender) (n : Nat) :
    (∃ m, lastPassed (early ++ added ++ late.map (Contender.shift n)) =
      (lastPassed (early ++ late)).map (Contender.shift m)) ∨
    ∃ x ∈ added, lastPassed (early ++ added ++ late.map (Contender.shift n)) = some x := by
  rw [lastPassed_append (early ++ added), lastPassed_append early added,
    lastPassed_append early late, lastPassed_map_shift]
  cases hlate : lastPassed late with
  | some x => exact Or.inl ⟨n, rfl⟩
  | none =>
    cases hadded : lastPassed added with
    | some x => exact Or.inr ⟨x, mem_of_lastPassed hadded, rfl⟩
    | none =>
      have hzero : Contender.shift 0 = id := rfl
      exact Or.inl ⟨0, by rw [hzero, Option.map_id]; rfl⟩

/-- Someone who passed stays when contenders are added in the middle. -/
lemma lastPassed_isSome_insert {early late : List Contender} (added : List Contender) (n : Nat)
    (h : (lastPassed (early ++ late)).isSome = true) :
    (lastPassed (early ++ added ++ late.map (Contender.shift n))).isSome = true := by
  rcases lastPassed_insert early added late n with ⟨m, hsame⟩ | ⟨x, -, hnew⟩
  · rw [hsame, Option.isSome_map]
    exact h
  · rw [hnew]
    rfl

/-- A sheet put on a shelf leaves the other contenders as they are, up to larger numbers behind the
contenders that it adds, and the winner too, unless an added contender wins. -/
theorem winnerIn_insert (gift : Gift) (before : List Sheet) (s : Sheet) (after : List Sheet)
    (a : Actor) : ∃ early added late : List Contender,
      contendersIn gift (before ++ after) a = early ++ late ∧
      contendersIn gift (before ++ s :: after) a =
        early ++ added ++ late.map (Contender.shift (rulesFor gift [s]).length) ∧
      (∃ n, added = (contendersIn gift [s] a).map (Contender.shift n)) ∧
      ((∃ n, winnerIn gift (before ++ s :: after) a =
          (winnerIn gift (before ++ after) a).map (Contender.shift n)) ∨
        ∃ x ∈ added, winnerIn gift (before ++ s :: after) a = some x) ∧
      ((winnerIn gift (before ++ after) a).isSome = true →
        (winnerIn gift (before ++ s :: after) a).isSome = true) := by
  obtain ⟨front, back, hold, hnew⟩ := exists_rulesFor_insert gift before s after
  have hshift : Contender.shift (front ++ rulesFor gift [s]).length =
      Contender.shift (rulesFor gift [s]).length ∘ Contender.shift front.length := by
    funext x
    rw [Function.comp_apply, shift_shift, List.length_append]
  have holdList : contendersIn gift (before ++ after) a =
      contendersFor front a ++ (contendersFor back a).map (Contender.shift front.length) := by
    rw [contendersIn_eq, hold, contendersFor_append]
  have hnewList : contendersIn gift (before ++ s :: after) a =
      contendersFor front a ++ (contendersIn gift [s] a).map (Contender.shift front.length) ++
        ((contendersFor back a).map (Contender.shift front.length)).map
          (Contender.shift (rulesFor gift [s]).length) := by
    rw [contendersIn_eq, contendersIn_eq, hnew, contendersFor_append, contendersFor_append, hshift,
      List.map_map]
  refine ⟨contendersFor front a, (contendersIn gift [s] a).map (Contender.shift front.length),
    (contendersFor back a).map (Contender.shift front.length), holdList, hnewList,
    ⟨front.length, rfl⟩, ?_, ?_⟩
  · rw [winnerIn_eq, winnerIn_eq, holdList, hnewList]
    exact lastPassed_insert _ _ _ _
  · rw [winnerIn_eq, winnerIn_eq, holdList, hnewList]
    exact lastPassed_isSome_insert _ _

end Contest

end Wardrobe
