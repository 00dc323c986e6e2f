import Mathlib
import Wardrobe.Proofs.Graph.ReadyRun

/-!
# The order in which nodes become ready

The nodes without edges to them are ready at once, in ascending order.  The others become ready in
the rounds: the round of `u` frees the nodes whose last open edges come from `u`, in the order in
which the last edges to them are listed (`freed`).  So the sorted nodes are the first ready ones,
followed by what their rounds free, one after the other (`sorted_eq_flatMap`).

Listing the same edges in another way (`Relists`) changes neither the unreached nodes nor the set of
sorted ones.  It leaves their order as it is exactly when every round frees its nodes in the same
order as before (`Relists.sorted_eq_iff`).
-/

namespace Wardrobe.Graph

variable {g g' : Graph} {p : Progress} {pending : List Nat} {u v : Nat}

/-- The nodes that become ready in the round of `u`, in the order in which the last edges to them
from `u` are listed. -/
def freed (g : Graph) (u : Nat) : List Nat :=
  (g.successors u).dedup.filter fun v => g.openEdges (g.sorted.take (g.sorted.idxOf u + 1)) v == 0

/-- The same edges between the same nodes, listed in another order or with other repetitions. -/
structure Relists (g g' : Graph) : Prop where
  size_eq : g.size = g'.size
  mem_edges_iff : ∀ e, e ∈ g.edges ↔ e ∈ g'.edges

/-! ## Rounds -/

/-- Crossing out edges makes the ends ready that have no open edges left, each in the place of the
last edge to it. -/
lemma Progress.Consistent.sorted_releaseAll (h : p.Consistent g pending) :
    (pending.foldl Progress.release p).sorted =
      p.sorted ++ pending.dedup.filter fun v => g.openEdges p.done v == 0 := by
  induction pending generalizing p with
  | nil => exact (List.append_nil _).symm
  | cons v rest ih =>
    rw [List.foldl_cons, ih h.release, Progress.done_release h.taken_le, h.sorted_release]
    by_cases hv : v ∈ rest
    · -- a later edge to `v` is still pending
      have hcount : g.openEdges p.done v + rest.count v ≠ 0 := by
        have := List.count_pos_iff.mpr hv
        omega
      rw [if_neg hcount, List.dedup_cons_of_mem hv]
    · rw [List.count_eq_zero_of_not_mem hv, Nat.add_zero, List.dedup_cons_of_notMem hv]
      by_cases hopen : g.openEdges p.done v = 0
      · rw [if_pos hopen, List.filter_cons_of_pos (by simpa using hopen), List.append_assoc,
          List.singleton_append]
      · rw [if_neg hopen, List.filter_cons_of_neg (by simpa using hopen)]

/-- Up to the node of a round the ready nodes are the sorted ones. -/
lemma take_sorted_progressAfter {i : Nat} (h : i < g.sorted.length) :
    (g.progressAfter i).sorted.take (i + 1) = g.sorted.take (i + 1) := by
  obtain ⟨t, ht⟩ : (g.progressAfter i).sorted <+: g.sorted :=
    sorted_prefix_progressAfter (h.le.trans (consistent_finish g).length_sorted_le)
  have hlength : i + 1 ≤ (g.progressAfter i).sorted.length := by
    have hleft := mt length_le_taken_iff.mp (not_le.mpr h)
    rwa [taken_progressAfter_of_lt h, not_le] at hleft
  rw [← ht, List.take_append_of_le_length hlength]

/-- A round adds the nodes that it frees. -/
lemma sorted_progressAfter_succ {i : Nat} (h : g.sorted[i]? = some u) :
    (g.progressAfter (i + 1)).sorted = (g.progressAfter i).sorted ++ g.freed u := by
  obtain ⟨hi, hu⟩ := List.getElem?_eq_some_iff.mp h
  have hcons := consistent_progressAfter g i
  have hnext : (g.progressAfter i).next? = some u := (next?_progressAfter g i).trans h
  have hround := (hcons.take ((Progress.next?_eq _).symm.trans hnext)).sorted_releaseAll
  -- in this round the taken nodes are the sorted ones up to `u`
  have hdone : Progress.done { g.progressAfter i with taken := (g.progressAfter i).taken + 1 } =
      g.sorted.take (g.sorted.idxOf u + 1) := by
    rw [← hu, g.nodup_sorted.idxOf_getElem, ← take_sorted_progressAfter hi]
    exact congrArg (fun n => (g.progressAfter i).sorted.take (n + 1)) (taken_progressAfter_of_lt hi)
  rw [hdone] at hround
  rw [progressAfter_succ, hcons.step_eq_crossed hnext]
  exact hround

/-- After some rounds the ready nodes are the first ones and those that the rounds have freed. -/
lemma sorted_progressAfter (g : Graph) (i : Nat) :
    (g.progressAfter i).sorted = g.start.sorted ++ (g.sorted.take i).flatMap g.freed := by
  induction i with
  | zero => exact (List.append_nil _).symm
  | succ i ih =>
    rw [List.take_add_one, List.flatMap_append, ← List.append_assoc, ← ih]
    cases h : g.sorted[i]? with
    | none =>
      have hend := length_le_taken_iff.mpr (List.getElem?_eq_none_iff.mp h)
      rw [progressAfter_eq_of_le hend (Nat.le_succ i)]
      exact (List.append_nil _).symm
    | some u => rw [sorted_progressAfter_succ h, Option.toList_some, List.flatMap_singleton]

/-- The sorted nodes are the first ready ones, and then what they free. -/
lemma sorted_eq_flatMap (g : Graph) :
    g.sorted = g.start.sorted ++ g.sorted.flatMap g.freed := by
  have hlength : g.sorted.length ≤ g.size := (consistent_finish g).length_sorted_le
  have hrun := sorted_progressAfter g g.size
  rwa [List.take_of_length_le hlength] at hrun

/-- The node of a round is among the first ones or among those that earlier rounds freed. -/
lemma getElem?_sorted (g : Graph) (i : Nat) :
    g.sorted[i]? = (g.start.sorted ++ (g.sorted.take i).flatMap g.freed)[i]? := by
  rw [← sorted_progressAfter]
  rcases le_or_gt g.sorted.length i with hi | hi
  · have hend := (length_le_taken_iff.mpr hi).trans (taken_progressAfter_le g i)
    rw [List.getElem?_eq_none hi, List.getElem?_eq_none hend]
  · rw [← next?_progressAfter, Progress.next?_eq, taken_progressAfter_of_lt hi]

/-! ## What a round frees -/

/-- A round frees the nodes behind its edges to which no edge leads from a later node. -/
lemma mem_freed_iff : v ∈ g.freed u ↔
    g.Edge u v ∧ ∀ w, g.Edge w v → w ∈ g.sorted.take (g.sorted.idxOf u + 1) := by
  rw [freed, List.mem_filter, List.mem_dedup, mem_successors_iff, beq_iff_eq, openEdges_eq_zero_iff]

lemma nodup_freed (g : Graph) (u : Nat) : (g.freed u).Nodup :=
  (List.nodup_dedup _).filter _

/-- When two ways to flatten a list agree and give each element as many parts, they give it the same
parts. -/
lemma forall_mem_eq_of_flatMap_eq {α β : Type*} {l : List α} {f f' : α → List β}
    (hlength : ∀ a ∈ l, (f a).length = (f' a).length) (h : l.flatMap f = l.flatMap f') :
    ∀ a ∈ l, f a = f' a := by
  induction l with
  | nil => exact fun a ha => absurd ha List.not_mem_nil
  | cons b rest ih =>
    rw [List.flatMap_cons, List.flatMap_cons] at h
    obtain ⟨hb, hrest⟩ := List.append_inj h (hlength b List.mem_cons_self)
    refine List.forall_mem_cons.mpr ⟨hb, ih (fun a ha => ?_) hrest⟩
    exact hlength a (List.mem_cons_of_mem b ha)

/-! ## Listing the edges in another way -/

namespace Relists

lemma edge_iff (h : g.Relists g') : g.Edge u v ↔ g'.Edge u v := by
  rw [Graph.edge_iff, Graph.edge_iff, h.mem_edges_iff, h.size_eq]

lemma edge_eq (h : g.Relists g') : g.Edge = g'.Edge :=
  funext fun _ => funext fun _ => propext h.edge_iff

/-- The same nodes are sorted. -/
lemma mem_sorted_iff (h : g.Relists g') : v ∈ g.sorted ↔ v ∈ g'.sorted := by
  rw [Graph.mem_sorted_iff, Graph.mem_sorted_iff, BehindCycle, BehindCycle, h.edge_eq, h.size_eq]

/-- The same nodes are unreached, in the same order. -/
lemma unreached_eq (h : g.Relists g') : g.unreached = g'.unreached := by
  rw [unreached_eq_filter, unreached_eq_filter, h.size_eq]
  simp only [h.mem_sorted_iff]

lemma sorted_perm (h : g.Relists g') : g.sorted.Perm g'.sorted :=
  (List.perm_ext_iff_of_nodup g.nodup_sorted g'.nodup_sorted).mpr fun _ => h.mem_sorted_iff

/-- The same nodes are ready at the start, in the same order. -/
lemma sorted_start_eq (h : g.Relists g') : g.start.sorted = g'.start.sorted := by
  rw [sorted_start, sorted_start, h.size_eq]
  refine List.filter_congr fun v _ => ?_
  rw [Bool.eq_iff_iff, beq_iff_eq, beq_iff_eq, ← openEdges_nil, ← openEdges_nil,
    openEdges_eq_zero_iff, openEdges_eq_zero_iff]
  simp only [h.edge_iff]

/-- In the same order of nodes every round frees the same ones. -/
lemma freed_perm (h : g.Relists g') (hsorted : g.sorted = g'.sorted) (u : Nat) :
    (g.freed u).Perm (g'.freed u) := by
  refine (List.perm_ext_iff_of_nodup (g.nodup_freed u) (g'.nodup_freed u)).mpr fun v => ?_
  simp only [mem_freed_iff, h.edge_iff, hsorted]

/-- When every round frees the same nodes in the same order, so are all nodes taken. -/
lemma sorted_eq_of_freed (h : g.Relists g') (hfreed : ∀ u ∈ g.sorted, g.freed u = g'.freed u) :
    g.sorted = g'.sorted := by
  have htake : ∀ i, g.sorted.take i = g'.sorted.take i := by
    intro i
    induction i with
    | zero => rfl
    | succ i ih =>
      have hrounds : (g.sorted.take i).flatMap g.freed = (g'.sorted.take i).flatMap g'.freed := by
        rw [← ih]
        exact List.flatMap_congr fun u hu => hfreed u (List.mem_of_mem_take hu)
      rw [List.take_add_one, List.take_add_one, getElem?_sorted, getElem?_sorted g', hrounds,
        h.sorted_start_eq, ih]
  have hlength := h.sorted_perm.length_eq
  have hall := htake g.sorted.length
  rwa [List.take_length, hlength, List.take_length] at hall

/-- Two listings of the same edges leave the same nodes unreached and sort the same ones, and they
sort them in the same order exactly when every round frees its nodes in the same order. -/
theorem sorted_eq_iff (h : g.Relists g') : g.unreached = g'.unreached ∧ g.sorted.Perm g'.sorted ∧
    (g.sorted = g'.sorted ↔ ∀ u ∈ g.sorted, g.freed u = g'.freed u) := by
  refine ⟨h.unreached_eq, h.sorted_perm, fun hsorted => ?_, h.sorted_eq_of_freed⟩
  have hrounds : g.sorted.flatMap g.freed = g.sorted.flatMap g'.freed := by
    have heq := hsorted
    rw [sorted_eq_flatMap g, sorted_eq_flatMap g', ← hsorted, h.sorted_start_eq] at heq
    exact List.append_cancel_left heq
  exact forall_mem_eq_of_flatMap_eq (fun u _ => (h.freed_perm hsorted u).length_eq) hrounds

/-- Of repeated edges the last ones count: in both listings the first node frees `2` before `1`. -/
theorem sorted_eq_of_repeated : ∃ g g' : Graph,
    g = ⟨4, [(0, 2), (0, 1), (1, 3), (2, 3)]⟩ ∧
    g' = ⟨4, [(2, 3), (0, 1), (0, 2), (0, 1), (1, 3), (1, 3)]⟩ ∧ g.Relists g' ∧
    (∀ u ∈ g.sorted, g.freed u = g'.freed u) ∧
    g.sorted = g'.sorted ∧ g.sorted = [0, 2, 1, 3] ∧ g.unreached = g'.unreached := by
  let g : Graph := ⟨4, [(0, 2), (0, 1), (1, 3), (2, 3)]⟩
  let g' : Graph := ⟨4, [(2, 3), (0, 1), (0, 2), (0, 1), (1, 3), (1, 3)]⟩
  have hsub : g.edges ⊆ g'.edges := by decide
  have hsup : g'.edges ⊆ g.edges := by decide
  have h : g.Relists g' := ⟨rfl, fun e => ⟨fun he => hsub he, fun he => hsup he⟩⟩
  have hfreed : ∀ u ∈ g.sorted, g.freed u = g'.freed u := by decide +kernel
  obtain ⟨hunreached, -, hiff⟩ := h.sorted_eq_iff
  exact ⟨g, g', rfl, rfl, h, hfreed, hiff.mpr hfreed, by decide +kernel, hunreached⟩

/-- The ties behind the first node are broken by the listing. -/
theorem not_sorted_eq_of_swapped : ¬ ∀ g g' : Graph, g.Relists g' →
    (g.sorted, g.unreached) = (g'.sorted, g'.unreached) := by
  intro h
  have hswapped : Relists ⟨3, [(0, 1), (0, 2)]⟩ ⟨3, [(0, 2), (0, 1)]⟩ :=
    ⟨rfl, fun e => by simp [or_comm]⟩
  have hsorted := congrArg Prod.fst (h _ _ hswapped)
  revert hsorted
  decide +kernel

end Relists

end Wardrobe.Graph
