import Mathlib
import Wardrobe.Graph.ReadyOrder

/-!
# The readiness order of a graph

`Progress.Consistent` is the invariant of the ordering: every node waits for exactly its edges from
nodes that have not been taken, a node is ready when it waits for none, and a node became ready
only after the starts of its edges were taken.  One release keeps it (`Consistent.release`), hence
so do a step and the whole run.

At the end nothing is left to take.  So the sorted nodes form a list without repetitions in which
no edge leads backwards (`sorted_pairwise`), and the nodes missing from it are those that lie on a
cycle or behind one (`mem_sorted_iff`, `mem_unreached_iff`).
-/

namespace Wardrobe.Graph

/-- A proper edge leads from `u` to `v`. -/
def Edge (g : Graph) (u v : Nat) : Prop :=
  (u, v) ∈ g.properEdges

/-- A node lies on a cycle of proper edges, or can be reached from one. -/
def BehindCycle (g : Graph) (v : Nat) : Prop :=
  ∃ c, Relation.TransGen g.Edge c c ∧ Relation.ReflTransGen g.Edge c v

/-- The number of proper edges to `v` from nodes outside `done`. -/
def openEdges (g : Graph) (done : List Nat) (v : Nat) : Nat :=
  g.properEdges.countP fun e => e.2 == v && !done.contains e.1

/-- The nodes that have been taken. -/
def Progress.done (p : Progress) : List Nat :=
  p.sorted.take p.taken

/-- The invariant of the ordering, while the ends of the edges in `pending` are still to be
released. -/
structure Progress.Consistent (g : Graph) (p : Progress) (pending : List Nat) : Prop where
  size_waiting : p.waiting.size = g.size
  taken_le : p.taken ≤ p.sorted.length
  nodup : p.sorted.Nodup
  lt_size : ∀ v ∈ p.sorted, v < g.size
  pending_lt : ∀ v ∈ pending, v < g.size
  waiting : ∀ v < g.size, p.waiting[v]? = some (g.openEdges p.done v + pending.count v)
  mem_sorted : ∀ v < g.size, v ∈ p.sorted ↔ p.waiting[v]? = some 0
  closed : ∀ v ∈ p.sorted, ∀ u, g.Edge u v → u ∈ p.done
  ordered : p.sorted.Pairwise fun u v => ¬ g.Edge v u

/-! ## Lists in which a relation leads forward -/

section Forward

variable {α : Type*} [BEq α] [LawfulBEq α] {l : List α} {r : α → α → Prop} {a b : α}

/-- In a list in which nothing leads backwards, a pair leads forward. -/
lemma forward_of_rel (hpair : l.Pairwise fun a b => ¬ r b a) (hne : a ≠ b) (ha : a ∈ l)
    (hb : b ∈ l) (h : r a b) : l.idxOf a < l.idxOf b := by
  have hal := List.idxOf_lt_length_of_mem ha
  have hbl := List.idxOf_lt_length_of_mem hb
  rcases lt_trichotomy (l.idxOf a) (l.idxOf b) with hlt | heq | hgt
  · exact hlt
  · exact absurd ((List.idxOf_inj ha).mp heq) hne
  · have hback := List.pairwise_iff_getElem.mp hpair _ _ hbl hal hgt
    rw [List.getElem_idxOf, List.getElem_idxOf] at hback
    exact absurd h hback

/-- If the list also holds whatever leads into it, then a path into it stays there and leads
forward. -/
lemma forward_of_transGen (hpair : l.Pairwise fun a b => ¬ r b a) (hirrefl : ∀ a, ¬ r a a)
    (hclosed : ∀ a b, r a b → b ∈ l → a ∈ l) (h : Relation.TransGen r a b) (hb : b ∈ l) :
    a ∈ l ∧ l.idxOf a < l.idxOf b := by
  have hne : ∀ {a b}, r a b → a ≠ b := fun {a b} hab heq => hirrefl b (heq ▸ hab)
  induction h using Relation.TransGen.head_induction_on with
  | single hab =>
    have ha := hclosed _ _ hab hb
    exact ⟨ha, forward_of_rel hpair (hne hab) ha hb hab⟩
  | head hac _ ih =>
    obtain ⟨hc, hlt⟩ := ih
    have ha := hclosed _ _ hac hc
    exact ⟨ha, (forward_of_rel hpair (hne hac) ha hc hac).trans hlt⟩

end Forward

variable {g : Graph} {p : Progress} {pending : List Nat} {u v n : Nat}

/-! ## Edges -/

/-- A proper edge joins two different nodes of the graph. -/
lemma edge_iff : g.Edge u v ↔ (u, v) ∈ g.edges ∧ u ≠ v ∧ u < g.size ∧ v < g.size := by
  simp [Edge, properEdges, counts, and_assoc]

lemma Edge.lt_left (h : g.Edge u v) : u < g.size :=
  (edge_iff.mp h).2.2.1

lemma Edge.lt_right (h : g.Edge u v) : v < g.size :=
  (edge_iff.mp h).2.2.2

/-- The successors of a node are the ends of its proper edges. -/
lemma mem_successors_iff : v ∈ g.successors u ↔ g.Edge u v := by
  simp [successors, Edge]

/-- No open edges are left exactly when every edge comes from a taken node. -/
lemma openEdges_eq_zero_iff {done : List Nat} :
    g.openEdges done v = 0 ↔ ∀ u, g.Edge u v → u ∈ done := by
  rw [openEdges, List.countP_eq_zero]
  constructor
  · intro h u hu
    have := h (u, v) hu
    simpa using this
  · rintro h ⟨u, w⟩ he hw
    simp only [Bool.and_eq_true, beq_iff_eq, Bool.not_eq_true', List.contains_eq_mem,
      decide_eq_false_iff_not] at hw
    obtain ⟨rfl, hu⟩ := hw
    exact hu (h u he)

/-- Before anything has been taken, every edge is open. -/
lemma openEdges_nil : g.openEdges [] v = g.inDegree v := by
  simp [openEdges, inDegree]

/-- Taking a node closes the edges that start there, one for each time its successors name the
end. -/
lemma openEdges_append {done : List Nat} (hn : n ∉ done) :
    g.openEdges done v = g.openEdges (done ++ [n]) v + (g.successors n).count v := by
  unfold openEdges successors
  induction g.properEdges with
  | nil => rfl
  | cons e rest ih =>
    rw [List.countP_cons, List.countP_cons, ih, List.filter_cons]
    by_cases he : e.1 = n
    · subst he
      by_cases hv : e.2 = v
      · simp [hn, hv]; omega
      · simp [hv]
    · by_cases hv : e.2 = v
      · simp [he, hv]; omega
      · simp [he, hv]

/-! ## One release -/

namespace Progress

@[simp] lemma taken_release (p : Progress) (v : Nat) : (p.release v).taken = p.taken := rfl

/-- Releasing an edge lowers the count of its end and touches no other. -/
lemma waiting_release (p : Progress) (v w : Nat) :
    (p.release v).waiting[w]? =
      if v = w then (p.waiting[w]?).map (· - 1) else p.waiting[w]? := by
  simp only [release, Array.getElem?_setIfInBounds]
  by_cases h : v = w
  · subst h
    by_cases hlt : v < p.waiting.size
    · simp [hlt]
    · simp [hlt]
  · simp [h]

/-- Releasing an edge makes its end ready when it was the last one. -/
lemma sorted_release (p : Progress) (v : Nat) :
    (p.release v).sorted =
      if (p.waiting[v]?.getD 0) - 1 = 0 then p.sorted ++ [v] else p.sorted := by
  simp only [release, sorted]
  split <;> simp

/-- A progress only ever gains ready nodes, at the end. -/
lemma sorted_prefix_release (p : Progress) (v : Nat) : p.sorted <+: (p.release v).sorted := by
  rw [sorted_release]
  split
  · exact List.prefix_append _ _
  · exact List.prefix_rfl

/-- The taken nodes stay as they are when an edge is released. -/
lemma done_release (h : p.taken ≤ p.sorted.length) (v : Nat) : (p.release v).done = p.done := by
  obtain ⟨t, ht⟩ := sorted_prefix_release p v
  rw [done, done, ← ht, taken_release]
  exact List.take_append_of_le_length h

namespace Consistent

/-- The end of a pending edge is not ready yet. -/
lemma not_mem_sorted (h : p.Consistent g (v :: pending)) : v ∉ p.sorted := by
  have hlt : v < g.size := h.pending_lt v List.mem_cons_self
  rw [h.mem_sorted v hlt, h.waiting v hlt]
  simp

/-- After a release a node waits for its open edges and for the ends still pending. -/
lemma waiting_release (h : p.Consistent g (v :: pending)) {w : Nat} (hw : w < g.size) :
    (p.release v).waiting[w]? = some (g.openEdges p.done w + pending.count w) := by
  rw [Progress.waiting_release, h.waiting w hw]
  by_cases hvw : v = w
  · subst hvw
    rw [if_pos rfl, List.count_cons_self]
    rfl
  · rw [if_neg hvw, List.count_cons_of_ne hvw]

/-- A release makes its node ready when that waits for nothing any more. -/
lemma sorted_release (h : p.Consistent g (v :: pending)) : (p.release v).sorted =
    if g.openEdges p.done v + pending.count v = 0 then p.sorted ++ [v] else p.sorted := by
  have hlt : v < g.size := h.pending_lt v List.mem_cons_self
  rw [Progress.sorted_release, h.waiting v hlt, List.count_cons_self]
  rfl

/-- What holds of the ready nodes still holds after a release, if it holds of the new one. -/
lemma forall_mem_sorted_release (h : p.Consistent g (v :: pending)) {q : Nat → Prop}
    (hold : ∀ w ∈ p.sorted, q w) (hnew : g.openEdges p.done v = 0 → q v) :
    ∀ w ∈ (p.release v).sorted, q w := by
  intro w hw
  rw [h.sorted_release] at hw
  split at hw
  · next hzero =>
    rcases List.mem_append.mp hw with hw | hw
    · exact hold w hw
    · rw [List.mem_singleton.mp hw]
      exact hnew (Nat.eq_zero_of_add_eq_zero_right hzero)
  · exact hold w hw

/-- What holds between the ready nodes still holds after a release, if it holds up to the new
one. -/
lemma pairwise_sorted_release (h : p.Consistent g (v :: pending)) {q : Nat → Nat → Prop}
    (hold : p.sorted.Pairwise q) (hnew : ∀ u ∈ p.sorted, q u v) :
    (p.release v).sorted.Pairwise q := by
  rw [h.sorted_release]
  split
  · refine List.pairwise_append.mpr ⟨hold, List.pairwise_singleton q v, fun u hu w hw => ?_⟩
    rw [List.mem_singleton.mp hw]
    exact hnew u hu
  · exact hold

/-- After a release the ready nodes are those that wait for nothing. -/
lemma mem_sorted_release_iff (h : p.Consistent g (v :: pending)) {w : Nat} (hw : w < g.size) :
    w ∈ (p.release v).sorted ↔ (p.release v).waiting[w]? = some 0 := by
  rw [h.waiting_release hw, h.sorted_release]
  by_cases hvw : v = w
  · subst hvw
    split
    · next hzero => simp [hzero]
    · next hpos => simpa only [h.not_mem_sorted, Option.some.injEq, false_iff] using hpos
  · have hold := h.mem_sorted w hw
    rw [h.waiting w hw, List.count_cons_of_ne hvw] at hold
    split
    · simpa [Ne.symm hvw] using hold
    · exact hold

/-- Releasing the next pending edge keeps the invariant. -/
lemma release (h : p.Consistent g (v :: pending)) : (p.release v).Consistent g pending := by
  have hlt : v < g.size := h.pending_lt v List.mem_cons_self
  have hdone : (p.release v).done = p.done := done_release h.taken_le v
  -- an edge from `v` to a ready node would have `v` taken already
  have hnotEdge : ∀ u ∈ p.sorted, ¬ g.Edge v u := fun u hu he =>
    h.not_mem_sorted (List.mem_of_mem_take (h.closed u hu v he))
  exact
    { size_waiting := by
        rw [← h.size_waiting]
        simp [Progress.release]
      taken_le := h.taken_le.trans (sorted_prefix_release p v).length_le
      nodup := h.pairwise_sorted_release h.nodup fun u hu huv => h.not_mem_sorted (huv ▸ hu)
      lt_size := h.forall_mem_sorted_release h.lt_size fun _ => hlt
      pending_lt := fun w hw => h.pending_lt w (List.mem_cons_of_mem v hw)
      waiting := fun w hw => by rw [h.waiting_release hw, hdone]
      mem_sorted := fun w hw => h.mem_sorted_release_iff hw
      closed := by
        rw [hdone]
        exact h.forall_mem_sorted_release h.closed openEdges_eq_zero_iff.mp
      ordered := h.pairwise_sorted_release h.ordered hnotEdge }

/-- Releasing the first of the pending edges, in order, keeps the invariant. -/
lemma releaseAll {ends : List Nat} (h : p.Consistent g (ends ++ pending)) :
    (ends.foldl Progress.release p).Consistent g pending := by
  induction ends generalizing p with
  | nil => exact h
  | cons v rest ih => exact ih h.release

/-- There are no more ready nodes than nodes. -/
lemma length_sorted_le (h : p.Consistent g pending) : p.sorted.length ≤ g.size := by
  have hsub : p.sorted ⊆ List.range g.size := fun v hv => List.mem_range.mpr (h.lt_size v hv)
  have := h.nodup.length_le_of_subset hsub
  rwa [List.length_range] at this

/-- Taking a ready node makes its edges pending. -/
lemma take (h : p.Consistent g []) (hn : p.sorted[p.taken]? = some n) :
    Consistent g { p with taken := p.taken + 1 } (g.successors n) := by
  have hlt : p.taken < p.sorted.length := (List.getElem?_eq_some_iff.mp hn).1
  have hdone : Progress.done { p with taken := p.taken + 1 } = p.done ++ [n] := by
    have htake : p.sorted.take (p.taken + 1) = p.sorted.take p.taken ++ [n] := by
      rw [List.take_add_one, hn]
      rfl
    exact htake
  have hnew : n ∉ p.done := by
    intro hmem
    have hnodup := h.nodup
    rw [← List.take_append_drop p.taken p.sorted, List.nodup_append] at hnodup
    have hdrop : n ∈ p.sorted.drop p.taken :=
      List.mem_of_getElem? (i := 0) (by rw [List.getElem?_drop]; exact hn)
    exact hnodup.2.2 n hmem n hdrop rfl
  refine ⟨h.size_waiting, hlt, h.nodup, h.lt_size, ?_, ?_, h.mem_sorted, ?_, h.ordered⟩
  · exact fun v hv => (mem_successors_iff.mp hv).lt_right
  · intro v hv
    have hwait := h.waiting v hv
    rw [List.count_nil, Nat.add_zero, openEdges_append hnew] at hwait
    rw [hdone]
    exact hwait
  · intro v hv u hu
    rw [hdone]
    exact List.mem_append_left _ (h.closed v hv u hu)

/-- A step keeps the invariant. -/
lemma step (h : p.Consistent g []) : (p.step g.successorTable).Consistent g [] := by
  unfold Progress.step
  split
  · exact h
  · next n hn =>
    have hsorted : p.sorted[p.taken]? = some n := by rw [← hn, sorted, Array.getElem?_toList]
    have hlt : n < g.size := h.lt_size n (List.mem_of_getElem? hsorted)
    have hpending : Consistent g { p with taken := p.taken + 1 } (g.successors n ++ []) := by
      rw [List.append_nil]
      exact h.take hsorted
    rw [getElem?_successorTable g hlt]
    exact hpending.releaseAll

end Consistent

/-- Releasing edges takes no node. -/
lemma taken_releaseAll (p : Progress) (pending : List Nat) :
    (pending.foldl Progress.release p).taken = p.taken := by
  induction pending generalizing p with
  | nil => rfl
  | cons v rest ih => rw [List.foldl_cons, ih, taken_release]

/-- A step takes the next node, or there is none to take and nothing changes. -/
lemma step_cases (p : Progress) (table : Array (List Nat)) :
    p.taken < p.sorted.length ∧ (p.step table).taken = p.taken + 1 ∨
      p.sorted.length ≤ p.taken ∧ p.step table = p := by
  unfold step sorted
  split
  · next hnone =>
    refine Or.inr ⟨?_, rfl⟩
    simpa using hnone
  · next n hn =>
    obtain ⟨hlt, _⟩ := Array.getElem?_eq_some_iff.mp hn
    exact Or.inl ⟨hlt, taken_releaseAll _ _⟩

end Progress

/-! ## The whole run -/

/-- The progress after some steps. -/
def progressAfter (g : Graph) (steps : Nat) : Progress :=
  Nat.repeat (Progress.step g.successorTable) steps g.start

/-- At the start the nodes without edges to them are ready. -/
lemma sorted_start (g : Graph) :
    g.start.sorted = (List.range g.size).filter fun v => g.inDegree v == 0 := by
  have htable : g.start.sorted =
      (List.range g.size).filter fun v => g.inDegreeTable[v]?.getD 0 == 0 := by
    simp [start, Progress.sorted]
  rw [htable]
  refine List.filter_congr fun v hv => ?_
  rw [getElem?_inDegreeTable g (List.mem_range.mp hv), Option.getD_some]

/-- At the start every edge is open, and the ready nodes are those without edges to them. -/
lemma consistent_start (g : Graph) : g.start.Consistent g [] := by
  have hwait : ∀ v < g.size, g.inDegreeTable[v]? = some (g.inDegree v) := fun v hv =>
    getElem?_inDegreeTable g hv
  have hmem : ∀ v, v ∈ g.start.sorted ↔ v < g.size ∧ g.inDegree v = 0 := by
    intro v
    rw [sorted_start, List.mem_filter, List.mem_range, beq_iff_eq]
  have hclosed : ∀ v ∈ g.start.sorted, ∀ u, ¬ g.Edge u v := by
    intro v hv u hu
    have hzero := ((hmem v).mp hv).2
    rw [← openEdges_nil, openEdges_eq_zero_iff] at hzero
    exact List.not_mem_nil (hzero u hu)
  refine ⟨?_, Nat.zero_le _, ?_, ?_, ?_, ?_, ?_, ?_, ?_⟩
  · exact size_inDegreesOf _ _
  · rw [sorted_start]
    exact List.nodup_range.filter _
  · exact fun v hv => ((hmem v).mp hv).1
  · exact fun v hv => absurd hv List.not_mem_nil
  · intro v hv
    have hdone : g.start.done = [] := List.take_zero
    rw [hdone, openEdges_nil]
    exact hwait v hv
  · intro v hv
    have : g.start.waiting[v]? = some (g.inDegree v) := hwait v hv
    rw [this, hmem]
    simp [hv]
  · exact fun v hv u hu => absurd hu (hclosed v hv u)
  · exact List.pairwise_of_forall_mem_list fun u hu v _ => hclosed u hu v

lemma progressAfter_succ (g : Graph) (steps : Nat) :
    g.progressAfter (steps + 1) = (g.progressAfter steps).step g.successorTable := rfl

/-- The invariant holds after any number of steps. -/
lemma consistent_progressAfter (g : Graph) (steps : Nat) :
    (g.progressAfter steps).Consistent g [] := by
  induction steps with
  | zero => exact consistent_start g
  | succ steps ih => exact ih.step

/-- After some steps as many nodes have been taken, or nothing is left to take. -/
lemma taken_progressAfter (g : Graph) (steps : Nat) :
    (g.progressAfter steps).taken = steps ∨
      (g.progressAfter steps).sorted.length ≤ (g.progressAfter steps).taken := by
  induction steps with
  | zero => exact Or.inl rfl
  | succ steps ih =>
    rw [progressAfter_succ]
    rcases (g.progressAfter steps).step_cases g.successorTable with ⟨hlt, hstep⟩ | ⟨hend, hstep⟩
    · rcases ih with ih | ih
      · exact Or.inl (by rw [hstep, ih])
      · exact absurd hlt (not_lt.mpr ih)
    · rw [hstep]
      exact Or.inr hend

/-- The run ends in a consistent progress. -/
lemma consistent_finish (g : Graph) : g.finish.Consistent g [] :=
  consistent_progressAfter g g.size

/-- At the end of the run every ready node has been taken. -/
lemma done_finish (g : Graph) : g.finish.done = g.sorted := by
  have hsize := (consistent_finish g).length_sorted_le
  have htaken : g.finish.sorted.length ≤ g.finish.taken := by
    rcases taken_progressAfter g g.size with h | h
    · have h' : g.finish.taken = g.size := h
      rwa [h']
    · exact h
  exact List.take_of_length_le htaken

/-! ## The order -/

/-- No node is sorted twice. -/
lemma nodup_sorted (g : Graph) : g.sorted.Nodup :=
  (consistent_finish g).nodup

/-- Only nodes of the graph are sorted. -/
lemma lt_size_of_mem_sorted (hv : v ∈ g.sorted) : v < g.size :=
  (consistent_finish g).lt_size v hv

/-- No edge leads from a sorted node to one before it. -/
lemma sorted_pairwise (g : Graph) : g.sorted.Pairwise fun u v => ¬ g.Edge v u :=
  (consistent_finish g).ordered

/-- A node of the graph is sorted exactly when the starts of all its edges are. -/
lemma mem_sorted_iff_edges (hv : v < g.size) :
    v ∈ g.sorted ↔ ∀ u, g.Edge u v → u ∈ g.sorted := by
  have hcons := consistent_finish g
  have hmem := hcons.mem_sorted v hv
  rw [hcons.waiting v hv, List.count_nil, Nat.add_zero, Option.some.injEq,
    openEdges_eq_zero_iff, done_finish] at hmem
  exact hmem

/-- Whatever leads to a sorted node is sorted. -/
lemma mem_sorted_of_reflTransGen (h : Relation.ReflTransGen g.Edge u v) (hv : v ∈ g.sorted) :
    u ∈ g.sorted := by
  induction h using Relation.ReflTransGen.head_induction_on with
  | refl => exact hv
  | head hedge _ ih => exact (mem_sorted_iff_edges (edge_iff.mp hedge).2.2.2).mp ih _ hedge

/-- A path to a sorted node leads forward. -/
lemma idxOf_lt_of_transGen (h : Relation.TransGen g.Edge u v) (hv : v ∈ g.sorted) :
    g.sorted.idxOf u < g.sorted.idxOf v := by
  have hirrefl : ∀ w, ¬ g.Edge w w := fun w hw => (edge_iff.mp hw).2.1 rfl
  have hclosed : ∀ w x, g.Edge w x → x ∈ g.sorted → w ∈ g.sorted := fun w x hw hx =>
    mem_sorted_of_reflTransGen (.single hw) hx
  exact (forward_of_transGen g.sorted_pairwise hirrefl hclosed h hv).2

/-- A node of a set in which every node has an edge from another one is behind a cycle. -/
lemma behindCycle_of_forall_exists_edge {s : Set Nat} (hs : ∀ v ∈ s, ∃ u ∈ s, g.Edge u v)
    (hv : v ∈ s) : g.BehindCycle v := by
  by_contra hno
  let r : Fin g.size → Fin g.size → Prop := fun a b =>
    Relation.TransGen g.Edge a b ∧ Relation.ReflTransGen g.Edge b v
  have : IsTrans (Fin g.size) r := ⟨fun a b c hab hbc => ⟨hab.1.trans hbc.1, hbc.2⟩⟩
  have : Std.Irrefl r := ⟨fun a haa => hno ⟨a, haa⟩⟩
  have hwf : WellFounded r := Finite.wellFounded_of_trans_of_irrefl r
  obtain ⟨u, hu, huv⟩ := hs v hv
  -- walking backwards from `v` inside `s` would never end
  obtain ⟨m, ⟨hm, hmv⟩, hmin⟩ := hwf.has_min
    {a | (a : Nat) ∈ s ∧ Relation.ReflTransGen g.Edge a v} ⟨⟨u, huv.lt_left⟩, hu, .single huv⟩
  obtain ⟨w, hw, hwm⟩ := hs m hm
  exact hmin ⟨w, hwm.lt_left⟩ ⟨hw, .head hwm hmv⟩ ⟨.single hwm, hmv⟩

/-- The sorted nodes are those that no cycle leads to. -/
lemma mem_sorted_iff : v ∈ g.sorted ↔ v < g.size ∧ ¬ g.BehindCycle v := by
  constructor
  · rintro hv
    refine ⟨lt_size_of_mem_sorted hv, ?_⟩
    rintro ⟨c, hcycle, hreach⟩
    have hc := mem_sorted_of_reflTransGen hreach hv
    exact lt_irrefl _ (idxOf_lt_of_transGen hcycle hc)
  · rintro ⟨hlt, hno⟩
    by_contra hv
    refine hno
      (behindCycle_of_forall_exists_edge (s := {w | w < g.size ∧ w ∉ g.sorted}) ?_ ⟨hlt, hv⟩)
    rintro w ⟨hw, hnot⟩
    rw [mem_sorted_iff_edges hw] at hnot
    simp only [not_forall, exists_prop] at hnot
    obtain ⟨u, hu, hnu⟩ := hnot
    exact ⟨u, ⟨hu.lt_left, hnu⟩, hu⟩

/-- The unreached nodes are the others, in ascending order. -/
lemma unreached_eq_filter (g : Graph) :
    g.unreached = (List.range g.size).filter fun v => v ∉ g.sorted := by
  have hcons := consistent_finish g
  rw [unreached, Progress.unreached, hcons.size_waiting]
  refine List.filter_congr fun v hv => ?_
  have hlt : v < g.size := List.mem_range.mp hv
  have hmem := hcons.mem_sorted v hlt
  have hwait := hcons.waiting v hlt
  rw [hwait, Option.some.injEq] at hmem
  rw [hwait, Option.getD_some, Bool.eq_iff_iff, decide_eq_true_eq, decide_eq_true_eq,
    Nat.pos_iff_ne_zero]
  exact not_congr hmem.symm

/-- The unreached nodes are those on a cycle or behind one. -/
lemma mem_unreached_iff : v ∈ g.unreached ↔ v < g.size ∧ g.BehindCycle v := by
  rw [unreached_eq_filter, List.mem_filter, List.mem_range, decide_eq_true_eq, mem_sorted_iff]
  tauto

/-- The unreached nodes ascend. -/
lemma unreached_pairwise (g : Graph) : g.unreached.Pairwise (· < ·) := by
  rw [unreached_eq_filter]
  exact List.pairwise_lt_range.filter _

end Wardrobe.Graph
