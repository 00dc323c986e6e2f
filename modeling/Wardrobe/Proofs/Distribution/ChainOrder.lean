import Mathlib
import Wardrobe.Distribution.Chain
import Wardrobe.Proofs.Graph.Readiness

/-!
# The order of a chain

Keywords depend on each other: `Feeds rules a b` says that a rule for `b` asks for the keyword `a`,
which is handed out itself.  The graph behind a chain is this relation on the numbers of the
keywords, so the readiness order carries over: `sortedKeys` lists the keywords that no cycle leads
to, each once and none before one that it needs, and `ofRules` replaces each of them by its rules.

`Arranges` puts together what this gives for the rules of a chain.
-/

namespace Wardrobe.Chain

/-- Some rule hands out a keyword. -/
def Emits (rules : List KeywordRule) (a : Text) : Prop :=
  ∃ k ∈ rules, k.key = a

/-- A rule for the keyword `b` asks for another keyword `a`, which some rule hands out. -/
def Feeds (rules : List KeywordRule) (a b : Text) : Prop :=
  a ≠ b ∧ Emits rules a ∧ ∃ k ∈ rules, k.key = b ∧ a ∈ k.references

/-- A keyword lies on a cycle of dependencies, or can be reached from one. -/
def BehindCycle (rules : List KeywordRule) (a : Text) : Prop :=
  ∃ c, Relation.TransGen (Feeds rules) c c ∧ Relation.ReflTransGen (Feeds rules) c a

/-- The keywords handed out, in the order of their first rules. -/
def keys (rules : List KeywordRule) : List Text :=
  (firstRules rules).map KeywordRule.key

/-- The keyword with a number. -/
def keyAt (rules : List KeywordRule) (node : Nat) : Text :=
  ((keys rules)[node]?).getD []

/-- The keywords that no cycle leads to, in the order of the graph. -/
def sortedKeys (rules : List KeywordRule) : List Text :=
  (graph rules).sorted.map (keyAt rules)

/-- What it means that a chain puts rules in order. -/
structure Arranges (rules : List KeywordRule) (chain : Chain) : Prop where
  /-- A rule whose keyword no cycle leads to appears as often as it is given. -/
  count_ordered : ∀ k, ¬ BehindCycle rules k.key → chain.ordered.count k = rules.count k
  /-- No other rule appears. -/
  not_behindCycle : ∀ k ∈ chain.ordered, ¬ BehindCycle rules k.key
  /-- All rules for another keyword that a rule asks for stand before it. -/
  producers_before : ∀ before k after, chain.ordered = before ++ k :: after →
    ∀ a ∈ k.references, a ≠ k.key → Emits rules a →
      before.filter (·.key == a) = rules.filter (·.key == a)
  /-- The rules for one keyword stand together, in the order given. -/
  together : ∀ a, ¬ BehindCycle rules a → ∃ before after,
    chain.ordered = before ++ rules.filter (·.key == a) ++ after ∧
      ∀ k ∈ before ++ after, k.key ≠ a
  /-- The keywords left out are those that a cycle leads to, as their first rule writes them. -/
  mem_cyclic : ∀ w, w ∈ chain.cyclic ↔
    ∃ k, rules.find? (·.key == Text.lower w) = some k ∧ k.keyword = w ∧ BehindCycle rules k.key
  /-- They are listed once each, in the order of their first rules. -/
  cyclic_pairwise : chain.cyclic.Pairwise fun w w' =>
    rules.findIdx (·.key == Text.lower w) < rules.findIdx (·.key == Text.lower w')

variable {rules : List KeywordRule} {a b : Text} {k : KeywordRule} {u v : Nat}

/-! ## First rules -/

/-- The first rules are the rules before which no rule hands out the same keyword. -/
lemma mem_firstRules_iff : k ∈ firstRules rules ↔ rules.find? (·.key == k.key) = some k := by
  induction rules with
  | nil => simp [firstRules]
  | cons x rest ih =>
    rw [firstRules, List.mem_cons, List.mem_filter, ih, List.find?_cons]
    by_cases hx : x.key = k.key
    · simp only [hx, bne_self_eq_false, Bool.false_eq_true, and_false, or_false, beq_self_eq_true]
      simp only [Option.some.injEq, eq_comm]
    · have hne : k ≠ x := fun h => hx (h ▸ rfl)
      have hbeq : (x.key == k.key) = false := beq_eq_false_iff_ne.mpr hx
      simp [hne, hbeq, Ne.symm hx]

/-- The first rules stand in the order in which their keywords come up. -/
lemma firstRules_pairwise (rules : List KeywordRule) :
    (firstRules rules).Pairwise fun k k' =>
      rules.findIdx (·.key == k.key) < rules.findIdx (·.key == k'.key) := by
  induction rules with
  | nil => exact List.Pairwise.nil
  | cons x rest ih =>
    have hkey : ∀ k ∈ (firstRules rest).filter (·.key != x.key), (x.key == k.key) = false := by
      intro k hk
      have hne := (List.mem_filter.mp hk).2
      rw [bne_iff_ne] at hne
      exact beq_eq_false_iff_ne.mpr (Ne.symm hne)
    refine List.pairwise_cons.mpr ⟨fun k hk => ?_, ?_⟩
    · rw [List.findIdx_cons, List.findIdx_cons, hkey k hk, beq_self_eq_true]
      exact Nat.succ_pos _
    · refine (ih.filter _).imp_of_mem fun hk hk' hlt => ?_
      rw [List.findIdx_cons, List.findIdx_cons, hkey _ hk, hkey _ hk']
      exact Nat.succ_lt_succ hlt

/-- No keyword has two first rules. -/
lemma nodup_keys (rules : List KeywordRule) : (keys rules).Nodup := by
  refine List.pairwise_map.mpr ((firstRules_pairwise rules).imp fun hlt heq => ?_)
  rw [heq] at hlt
  exact lt_irrefl _ hlt

/-- The keywords that have a number are those that are handed out. -/
lemma mem_keys_iff : a ∈ keys rules ↔ Emits rules a := by
  rw [keys, List.mem_map]
  constructor
  · rintro ⟨k, hk, rfl⟩
    exact ⟨k, List.mem_of_find?_eq_some (mem_firstRules_iff.mp hk), rfl⟩
  · rintro ⟨k, hk, rfl⟩
    have hsome : (rules.find? (·.key == k.key)).isSome :=
      List.find?_isSome.mpr ⟨k, hk, beq_self_eq_true _⟩
    obtain ⟨f, hf⟩ := Option.isSome_iff_exists.mp hsome
    have hfk : f.key = k.key := by simpa using List.find?_some hf
    exact ⟨f, mem_firstRules_iff.mpr (hfk ▸ hf), hfk⟩

/-! ## The graph of a chain -/

lemma size_graph (rules : List KeywordRule) : (graph rules).size = (keys rules).length := rfl

/-- The number of a keyword leads back to it. -/
lemma keyAt_idxOf (ha : a ∈ keys rules) : keyAt rules ((keys rules).idxOf a) = a := by
  rw [keyAt, List.getElem?_idxOf ha, Option.getD_some]

/-- A keyword leads back to its number. -/
lemma idxOf_keyAt (hv : v < (graph rules).size) : (keys rules).idxOf (keyAt rules v) = v := by
  rw [size_graph] at hv
  rw [keyAt, List.getElem?_eq_getElem hv, Option.getD_some]
  exact (nodup_keys rules).idxOf_getElem v hv

/-- The number of a keyword is a node. -/
lemma idxOf_lt_size (ha : a ∈ keys rules) : (keys rules).idxOf a < (graph rules).size :=
  List.idxOf_lt_length_of_mem ha

/-- The keyword of a node is handed out. -/
lemma keyAt_mem (hv : v < (graph rules).size) : keyAt rules v ∈ keys rules := by
  rw [size_graph] at hv
  rw [keyAt, List.getElem?_eq_getElem hv, Option.getD_some]
  exact List.getElem_mem hv

/-- The edges of the graph are the dependencies between the keywords of its nodes. -/
lemma edge_iff_feeds (hu : u < (graph rules).size) (hv : v < (graph rules).size) :
    (graph rules).Edge u v ↔ Feeds rules (keyAt rules u) (keyAt rules v) := by
  have hne : u ≠ v ↔ keyAt rules u ≠ keyAt rules v := by
    constructor
    · exact fun h heq => h (by rw [← idxOf_keyAt hu, heq, idxOf_keyAt hv])
    · exact fun h heq => h (heq ▸ rfl)
  have hmem : (u, v) ∈ (graph rules).edges ↔
      ∃ k ∈ rules, k.key = keyAt rules v ∧ keyAt rules u ∈ k.references := by
    have hedges : (graph rules).edges = rules.flatMap fun k =>
        (k.references.filter (keys rules).contains).map fun r =>
          ((keys rules).idxOf r, (keys rules).idxOf k.key) := rfl
    simp only [hedges, List.mem_flatMap, List.mem_map, List.mem_filter, List.contains_eq_mem,
      decide_eq_true_eq, Prod.mk.injEq]
    constructor
    · rintro ⟨k, hk, r, ⟨hr, hrk⟩, rfl, rfl⟩
      rw [keyAt_idxOf hrk, keyAt_idxOf (mem_keys_iff.mpr ⟨k, hk, rfl⟩)]
      exact ⟨k, hk, rfl, hr⟩
    · rintro ⟨k, hk, hkey, hr⟩
      exact ⟨k, hk, _, ⟨hr, keyAt_mem hu⟩, idxOf_keyAt hu, by rw [hkey, idxOf_keyAt hv]⟩
  rw [Graph.edge_iff, hmem, hne, Feeds, ← mem_keys_iff]
  have := keyAt_mem hu
  tauto

/-- A cycle leads to a keyword exactly when one leads to its node. -/
lemma behindCycle_keyAt_iff (hv : v < (graph rules).size) :
    BehindCycle rules (keyAt rules v) ↔ (graph rules).BehindCycle v := by
  have hdown : ∀ i j, (graph rules).Edge i j → Feeds rules (keyAt rules i) (keyAt rules j) :=
    fun i j h => (edge_iff_feeds h.lt_left h.lt_right).mp h
  have hup : ∀ x y, Feeds rules x y →
      (graph rules).Edge ((keys rules).idxOf x) ((keys rules).idxOf y) := by
    rintro x y ⟨hne, hx, k, hk, hkey, hr⟩
    have hxk : x ∈ keys rules := mem_keys_iff.mpr hx
    have hyk : y ∈ keys rules := mem_keys_iff.mpr ⟨k, hk, hkey⟩
    rw [edge_iff_feeds (idxOf_lt_size hxk) (idxOf_lt_size hyk), keyAt_idxOf hxk, keyAt_idxOf hyk]
    exact ⟨hne, hx, k, hk, hkey, hr⟩
  constructor
  · rintro ⟨c, hcycle, hreach⟩
    have hreach' : Relation.ReflTransGen (graph rules).Edge ((keys rules).idxOf c)
        ((keys rules).idxOf (keyAt rules v)) := hreach.lift (keys rules).idxOf hup
    rw [idxOf_keyAt hv] at hreach'
    exact ⟨_, hcycle.lift (keys rules).idxOf hup, hreach'⟩
  · rintro ⟨c, hcycle, hreach⟩
    exact ⟨keyAt rules c, hcycle.lift _ hdown, hreach.lift _ hdown⟩

/-! ## Sorted keywords -/

/-- No keyword is sorted twice. -/
lemma nodup_sortedKeys (rules : List KeywordRule) : (sortedKeys rules).Nodup := by
  refine List.Nodup.map_on (fun u hu v hv heq => ?_) (graph rules).nodup_sorted
  rw [← idxOf_keyAt (Graph.lt_size_of_mem_sorted hu), heq,
    idxOf_keyAt (Graph.lt_size_of_mem_sorted hv)]

/-- The sorted keywords are those that are handed out and that no cycle leads to. -/
lemma mem_sortedKeys_iff : a ∈ sortedKeys rules ↔ Emits rules a ∧ ¬ BehindCycle rules a := by
  rw [sortedKeys, List.mem_map]
  constructor
  · rintro ⟨v, hv, rfl⟩
    obtain ⟨hlt, hfree⟩ := Graph.mem_sorted_iff.mp hv
    exact ⟨mem_keys_iff.mp (keyAt_mem hlt), mt (behindCycle_keyAt_iff hlt).mp hfree⟩
  · rintro ⟨ha, hfree⟩
    have hmem : a ∈ keys rules := mem_keys_iff.mpr ha
    have hlt := idxOf_lt_size hmem
    refine ⟨(keys rules).idxOf a, Graph.mem_sorted_iff.mpr ⟨hlt, fun h => ?_⟩, keyAt_idxOf hmem⟩
    rw [← behindCycle_keyAt_iff hlt, keyAt_idxOf hmem] at h
    exact hfree h

/-- No sorted keyword needs one behind it. -/
lemma sortedKeys_pairwise (rules : List KeywordRule) :
    (sortedKeys rules).Pairwise fun a b => ¬ Feeds rules b a := by
  refine List.pairwise_map.mpr ((graph rules).sorted_pairwise.imp_of_mem fun hu hv hno => ?_)
  rwa [← edge_iff_feeds (Graph.lt_size_of_mem_sorted hv) (Graph.lt_size_of_mem_sorted hu)]

/-! ## Ordered rules -/

/-- The ordered rules are the sorted keywords, each with all its rules in place of it. -/
lemma ordered_eq_flatMap (rules : List KeywordRule) :
    (ofRules rules).ordered = (sortedKeys rules).flatMap fun a => rules.filter (·.key == a) := by
  rw [ofRules, sortedKeys, List.flatMap_map]
  refine List.flatMap_congr fun v hv => ?_
  have hlt : v < (firstRules rules).length := by
    have := Graph.lt_size_of_mem_sorted hv
    rwa [size_graph, keys, List.length_map] at this
  have hkey : keyAt rules v = ((firstRules rules)[v]).key := by
    rw [keyAt, keys, List.getElem?_map, List.getElem?_eq_getElem hlt]
    rfl
  rw [List.getElem?_eq_getElem hlt, hkey]

/-- The ordered rules are those whose keywords no cycle leads to. -/
lemma mem_ordered_iff : k ∈ (ofRules rules).ordered ↔ k ∈ rules ∧ ¬ BehindCycle rules k.key := by
  rw [ordered_eq_flatMap, List.mem_flatMap]
  constructor
  · rintro ⟨a, ha, hk⟩
    obtain ⟨hk, hkey⟩ := List.mem_filter.mp hk
    rw [beq_iff_eq] at hkey
    exact ⟨hk, hkey ▸ (mem_sortedKeys_iff.mp ha).2⟩
  · rintro ⟨hk, hfree⟩
    exact ⟨k.key, mem_sortedKeys_iff.mpr ⟨⟨k, hk, rfl⟩, hfree⟩,
      List.mem_filter.mpr ⟨hk, beq_self_eq_true _⟩⟩

/-- A keyword that feeds an ordered rule is itself sorted. -/
lemma not_behindCycle_of_feeds (h : Feeds rules a b) (hb : ¬ BehindCycle rules b) :
    ¬ BehindCycle rules a :=
  fun ⟨c, hcycle, hreach⟩ => hb ⟨c, hcycle, hreach.tail h⟩

/-- The rules for one sorted keyword stand together, in the order given. -/
lemma ordered_eq_append (ha : ¬ BehindCycle rules a) : ∃ before after,
    (ofRules rules).ordered = before ++ rules.filter (·.key == a) ++ after ∧
      ∀ k ∈ before ++ after, k.key ≠ a := by
  have hother : ∀ as : List Text, a ∉ as →
      ∀ k ∈ as.flatMap fun b => rules.filter (·.key == b), k.key ≠ a := by
    rintro as has k hk rfl
    obtain ⟨b, hb, hkb⟩ := List.mem_flatMap.mp hk
    have hkey := beq_iff_eq.mp (List.mem_filter.mp hkb).2
    exact has (hkey ▸ hb)
  rw [ordered_eq_flatMap]
  by_cases hmem : a ∈ sortedKeys rules
  · obtain ⟨as, bs, hsplit⟩ := List.append_of_mem hmem
    have hnodup := nodup_sortedKeys rules
    rw [hsplit, List.nodup_middle, List.nodup_cons, List.mem_append, not_or] at hnodup
    refine ⟨as.flatMap fun b => rules.filter (·.key == b),
      bs.flatMap fun b => rules.filter (·.key == b), ?_, fun k hk => ?_⟩
    · rw [hsplit, List.flatMap_append, List.flatMap_cons, List.append_assoc]
    · rcases List.mem_append.mp hk with hk | hk
      · exact hother as hnodup.1.1 k hk
      · exact hother bs hnodup.1.2 k hk
  · have hnone : ¬ Emits rules a := fun h => hmem (mem_sortedKeys_iff.mpr ⟨h, ha⟩)
    have hempty : rules.filter (·.key == a) = [] := by
      rw [List.filter_eq_nil_iff]
      exact fun k hk hkey => hnone ⟨k, hk, beq_iff_eq.mp hkey⟩
    refine ⟨(sortedKeys rules).flatMap fun b => rules.filter (·.key == b), [], ?_, ?_⟩
    · rw [hempty, List.append_nil, List.append_nil]
    · rw [List.append_nil]
      exact hother _ hmem

/-- The ordered rules for one keyword are all the rules for it, unless a cycle leads there. -/
lemma filter_ordered (ha : ¬ BehindCycle rules a) :
    (ofRules rules).ordered.filter (·.key == a) = rules.filter (·.key == a) := by
  obtain ⟨before, after, hsplit, hother⟩ := ordered_eq_append ha
  have hnil : ∀ l : List KeywordRule, (∀ k ∈ l, k.key ≠ a) → l.filter (·.key == a) = [] :=
    fun l hl => List.filter_eq_nil_iff.mpr fun k hk hkey => hl k hk (beq_iff_eq.mp hkey)
  rw [hsplit, List.filter_append, List.filter_append, List.filter_filter,
    hnil before fun k hk => hother k (List.mem_append_left _ hk),
    hnil after fun k hk => hother k (List.mem_append_right _ hk)]
  simp

/-- Dependencies on a sorted keyword come from sorted keywords before it. -/
lemma idxOf_lt_of_transGen (h : Relation.TransGen (Feeds rules) a b) (hb : b ∈ sortedKeys rules) :
    a ∈ sortedKeys rules ∧ (sortedKeys rules).idxOf a < (sortedKeys rules).idxOf b := by
  have hirrefl : ∀ x, ¬ Feeds rules x x := fun x hx => hx.1 rfl
  have hclosed : ∀ x y, Feeds rules x y → y ∈ sortedKeys rules → x ∈ sortedKeys rules := by
    intro x y hxy hy
    have hfree := (mem_sortedKeys_iff.mp hy).2
    exact mem_sortedKeys_iff.mpr ⟨hxy.2.1, not_behindCycle_of_feeds hxy hfree⟩
  exact Graph.forward_of_transGen (sortedKeys_pairwise rules) hirrefl hclosed h hb

/-- The ordered rules follow the sorted keywords. -/
lemma ordered_pairwise_idxOf (rules : List KeywordRule) :
    (ofRules rules).ordered.Pairwise fun k k' =>
      (sortedKeys rules).idxOf k.key ≤ (sortedKeys rules).idxOf k'.key := by
  have hkey : ∀ a, ∀ k ∈ rules.filter (·.key == a), k.key = a := fun a k hk =>
    beq_iff_eq.mp (List.mem_filter.mp hk).2
  rw [ordered_eq_flatMap]
  refine List.pairwise_flatMap.mpr ⟨fun a _ => ?_, ?_⟩
  · refine List.pairwise_of_forall_mem_list fun k hk k' hk' => ?_
    rw [hkey a k hk, hkey a k' hk']
  · refine List.pairwise_iff_getElem.mpr fun i j hi hj hij k hk k' hk' => ?_
    rw [hkey _ k hk, hkey _ k' hk', (nodup_sortedKeys rules).idxOf_getElem i hi,
      (nodup_sortedKeys rules).idxOf_getElem j hj]
    exact hij.le

/-- No dependency leads from an ordered rule to one before it. -/
lemma ordered_pairwise_transGen (rules : List KeywordRule) :
    (ofRules rules).ordered.Pairwise fun k k' =>
      ¬ Relation.TransGen (Feeds rules) k'.key k.key := by
  refine (ordered_pairwise_idxOf rules).imp_of_mem fun {k k'} hk _ hle hback => ?_
  obtain ⟨hmem, hfree⟩ := mem_ordered_iff.mp hk
  have hsorted : k.key ∈ sortedKeys rules := mem_sortedKeys_iff.mpr ⟨⟨k, hmem, rfl⟩, hfree⟩
  exact absurd (idxOf_lt_of_transGen hback hsorted).2 (not_lt.mpr hle)

/-- No ordered rule asks for the keyword of a rule behind it, unless it hands that keyword out
itself. -/
lemma ordered_pairwise (rules : List KeywordRule) :
    (ofRules rules).ordered.Pairwise fun k k' => k'.key ∈ k.references → k'.key = k.key := by
  refine (ordered_pairwise_transGen rules).imp_of_mem fun {k k'} hk hk' hno hr => ?_
  by_contra hne
  have hmem := (mem_ordered_iff.mp hk).1
  have hmem' := (mem_ordered_iff.mp hk').1
  exact hno (.single ⟨hne, ⟨k', hmem', rfl⟩, k, hmem, rfl, hr⟩)

/-! ## Keywords left out -/

/-- The numbers of the keywords left out lead to their first rules. -/
lemma cyclic_eq_filterMap (rules : List KeywordRule) :
    (ofRules rules).cyclic =
      (graph rules).unreached.filterMap fun v => (firstRules rules)[v]?.map (·.keyword) := rfl

/-- The first rule with a number hands out the keyword with that number. -/
lemma keyAt_eq_key (hk : (firstRules rules)[v]? = some k) : keyAt rules v = k.key := by
  rw [keyAt, keys, List.getElem?_map, hk]
  rfl

/-- A word is left out when the first rule for its keyword writes it so and a cycle leads to it. -/
lemma mem_cyclic_iff {w : Text} : w ∈ (ofRules rules).cyclic ↔
    ∃ k, rules.find? (·.key == Text.lower w) = some k ∧ k.keyword = w ∧
      BehindCycle rules k.key := by
  rw [cyclic_eq_filterMap, List.mem_filterMap]
  constructor
  · rintro ⟨v, hv, hw⟩
    obtain ⟨k, hk, rfl⟩ := Option.map_eq_some_iff.mp hw
    obtain ⟨hlt, hbehind⟩ := Graph.mem_unreached_iff.mp hv
    rw [← behindCycle_keyAt_iff hlt, keyAt_eq_key hk] at hbehind
    exact ⟨k, mem_firstRules_iff.mp (List.mem_of_getElem? hk), rfl, hbehind⟩
  · rintro ⟨k, hk, rfl, hbehind⟩
    obtain ⟨v, hv⟩ := List.mem_iff_getElem?.mp (mem_firstRules_iff.mpr hk)
    have hlt : v < (graph rules).size := by
      rw [size_graph, keys, List.length_map]
      exact (List.getElem?_eq_some_iff.mp hv).1
    rw [← keyAt_eq_key hv, behindCycle_keyAt_iff hlt] at hbehind
    exact ⟨v, Graph.mem_unreached_iff.mpr ⟨hlt, hbehind⟩, by rw [hv]; rfl⟩

/-- The words left out stand in the order in which their keywords come up. -/
lemma cyclic_pairwise (rules : List KeywordRule) :
    (ofRules rules).cyclic.Pairwise fun w w' =>
      rules.findIdx (·.key == Text.lower w) < rules.findIdx (·.key == Text.lower w') := by
  rw [cyclic_eq_filterMap]
  refine List.pairwise_filterMap.mpr ((graph rules).unreached_pairwise.imp ?_)
  intro u v huv w hw w' hw'
  obtain ⟨k, hk, rfl⟩ := Option.map_eq_some_iff.mp hw
  obtain ⟨k', hk', rfl⟩ := Option.map_eq_some_iff.mp hw'
  obtain ⟨hu, rfl⟩ := List.getElem?_eq_some_iff.mp hk
  obtain ⟨hv, rfl⟩ := List.getElem?_eq_some_iff.mp hk'
  exact List.pairwise_iff_getElem.mp (firstRules_pairwise rules) u v hu hv huv

/-! ## The arrangement -/

/-- A rule appears in the order as often as it is given, unless a cycle leads to its keyword. -/
lemma count_ordered_eq (hfree : ¬ BehindCycle rules k.key) :
    (ofRules rules).ordered.count k = rules.count k := by
  have hcount : ∀ l : List KeywordRule, (l.filter (·.key == k.key)).count k = l.count k :=
    fun l => List.count_filter (beq_self_eq_true k.key)
  rw [← hcount, filter_ordered hfree, hcount]

/-- All rules for a keyword that an ordered rule asks for stand before it. -/
lemma filter_before_eq {before after : List KeywordRule}
    (hsplit : (ofRules rules).ordered = before ++ k :: after) (ha : a ∈ k.references)
    (hne : a ≠ k.key) (hemits : Emits rules a) :
    before.filter (·.key == a) = rules.filter (·.key == a) := by
  have hk : k ∈ (ofRules rules).ordered := hsplit ▸ List.mem_append_right _ List.mem_cons_self
  obtain ⟨hmem, hfree⟩ := mem_ordered_iff.mp hk
  have hfreeA := not_behindCycle_of_feeds ⟨hne, hemits, k, hmem, rfl, ha⟩ hfree
  have hafter : (k :: after).filter (·.key == a) = [] := by
    have hpair := ordered_pairwise rules
    rw [hsplit, List.pairwise_append, List.pairwise_cons] at hpair
    refine List.filter_eq_nil_iff.mpr fun k' hk' hkey => ?_
    rw [beq_iff_eq] at hkey
    rcases List.mem_cons.mp hk' with rfl | hk'
    · exact hne hkey.symm
    · exact hne (hkey.symm.trans (hpair.2.1.1 k' hk' (hkey ▸ ha)))
  rw [← filter_ordered hfreeA, hsplit, List.filter_append, hafter, List.append_nil]

/-- Keyword rules are put in an order in which every rule stands behind those it depends on, and
exactly the keywords on a cycle or behind one are left out. -/
theorem ofRules_arranges (rules : List KeywordRule) : (ofRules rules).Arranges rules where
  count_ordered _ hfree := count_ordered_eq hfree
  not_behindCycle _ hk := (mem_ordered_iff.mp hk).2
  producers_before _ _ _ hsplit _ ha hne hemits := filter_before_eq hsplit ha hne hemits
  together _ hfree := ordered_eq_append hfree
  mem_cyclic _ := mem_cyclic_iff
  cyclic_pairwise := cyclic_pairwise rules

end Wardrobe.Chain
