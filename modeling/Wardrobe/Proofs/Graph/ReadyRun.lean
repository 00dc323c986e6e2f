import Mathlib
import Wardrobe.Proofs.Graph.Readiness

/-!
# The run of the readiness order

The order is made in rounds.  A round takes the next ready node and crosses out the edges that start
there, one after the other (`Progress.crossed`).  Ready nodes are only ever added at the end, so the
node that a round takes keeps its place, and the run comes to an end with the last sorted node
(`length_le_taken_iff`, `next?_progressAfter`).  Whenever an edge is crossed out, its end still
waits for it (`exists_waiting_eq_succ`).

`IsOrdered` puts this together with what the order says about the edges.
-/

namespace Wardrobe.Graph

namespace Progress

/-- The node that the next round takes. -/
def next? (p : Progress) : Option Nat :=
  p.ready[p.taken]?

/-- The inside of a round: a node has been taken, and some edges, told by their ends, have been
crossed out. -/
def crossed (p : Progress) (ends : List Nat) : Progress :=
  ends.foldl release { p with taken := p.taken + 1 }

end Progress

/-- What it means that the nodes of a graph have been put in order. -/
structure IsOrdered (g : Graph) : Prop where
  /-- The edges are the listed pairs of different nodes of the graph. -/
  edge_iff : ∀ u v, g.Edge u v ↔ (u, v) ∈ g.edges ∧ u ≠ v ∧ u < g.size ∧ v < g.size
  /-- A round takes the sorted node with its number, and behind the last one there is none left. -/
  next : ∀ i, (g.progressAfter i).next? = g.sorted[i]?
  /-- It crosses out the edges that start at this node. -/
  round : ∀ i node, g.sorted[i]? = some node →
    g.progressAfter (i + 1) = (g.progressAfter i).crossed (g.successors node)
  /-- The end of an edge waits for it when it is crossed out. -/
  waiting : ∀ i node ends v rest, g.sorted[i]? = some node → g.successors node = ends ++ v :: rest →
    ∃ k, ((g.progressAfter i).crossed ends).waiting[v]? = some (k + 1)
  /-- The run is over when every sorted node has had its round. -/
  finish : g.finish = g.progressAfter g.sorted.length
  /-- Every node is either sorted or unreached, and listed once. -/
  perm : (g.sorted ++ g.unreached).Perm (List.range g.size)
  /-- The unreached nodes ascend. -/
  ascending : g.unreached.Pairwise (· < ·)
  /-- An edge to a sorted node comes from a sorted node before it. -/
  forward : ∀ u v, g.Edge u v → v ∈ g.sorted →
    u ∈ g.sorted ∧ g.sorted.idxOf u < g.sorted.idxOf v
  /-- The unreached nodes are those on a cycle or behind one. -/
  unreached : ∀ v, v ∈ g.unreached ↔ g.BehindCycle v

variable {g : Graph} {p : Progress} {ends rest : List Nat} {v node i j : Nat}

/-! ## One round -/

namespace Progress

/-- The next node is the first ready one that has not been taken. -/
lemma next?_eq (p : Progress) : p.next? = p.sorted[p.taken]? := by
  rw [next?, sorted, Array.getElem?_toList]

/-- Crossing out edges adds ready nodes at the end. -/
lemma sorted_prefix_releaseAll (p : Progress) (ends : List Nat) :
    p.sorted <+: (ends.foldl release p).sorted := by
  induction ends generalizing p with
  | nil => exact List.prefix_rfl
  | cons v rest ih => exact (sorted_prefix_release p v).trans (ih (p.release v))

/-- A round adds ready nodes at the end. -/
lemma sorted_prefix_step (p : Progress) (table : Array (List Nat)) :
    p.sorted <+: (p.step table).sorted := by
  unfold step
  split
  · exact List.prefix_rfl
  · exact sorted_prefix_releaseAll { p with taken := p.taken + 1 } _

/-- A round that takes a node crosses out the edges that start there. -/
lemma Consistent.step_eq_crossed (h : p.Consistent g []) (hnext : p.next? = some node) :
    p.step g.successorTable = p.crossed (g.successors node) := by
  have hlt : node < g.size := h.lt_size node (List.mem_of_getElem? (p.next?_eq ▸ hnext))
  have hready : p.ready[p.taken]? = some node := hnext
  simp only [Progress.step, hready, getElem?_successorTable g hlt]
  rfl

/-- While the edges of the next node are crossed out, the end of each of them waits for it. -/
lemma Consistent.exists_waiting_eq_succ (h : p.Consistent g []) (hnext : p.next? = some node)
    (hends : g.successors node = ends ++ v :: rest) :
    ∃ k, (p.crossed ends).waiting[v]? = some (k + 1) := by
  have htake : Consistent g { p with taken := p.taken + 1 } (g.successors node) :=
    h.take (p.next?_eq ▸ hnext)
  rw [hends] at htake
  have hcrossed : (p.crossed ends).Consistent g (v :: rest) := htake.releaseAll
  have hwait := hcrossed.waiting v (hcrossed.pending_lt v List.mem_cons_self)
  rw [List.count_cons_self] at hwait
  exact ⟨_, hwait⟩

end Progress

/-! ## All rounds -/

/-- The ready nodes of a round stay in their places. -/
lemma sorted_prefix_progressAfter (h : i ≤ j) :
    (g.progressAfter i).sorted <+: (g.progressAfter j).sorted := by
  induction j, h using Nat.le_induction with
  | base => exact List.prefix_rfl
  | succ j _ ih => exact ih.trans (Progress.sorted_prefix_step _ _)

/-- No more nodes are taken than there are rounds. -/
lemma taken_progressAfter_le (g : Graph) (i : Nat) : (g.progressAfter i).taken ≤ i := by
  induction i with
  | zero => exact Nat.le_refl 0
  | succ i ih =>
    rw [progressAfter_succ]
    rcases (g.progressAfter i).step_cases g.successorTable with ⟨-, hstep⟩ | ⟨-, hstep⟩
    · omega
    · rw [hstep]
      omega

/-- When there is no node left to take, nothing changes any more. -/
lemma progressAfter_eq_of_le (hend : (g.progressAfter i).sorted.length ≤ (g.progressAfter i).taken)
    (h : i ≤ j) : g.progressAfter j = g.progressAfter i := by
  induction j, h using Nat.le_induction with
  | base => rfl
  | succ j _ ih =>
    rw [progressAfter_succ, ih]
    rcases (g.progressAfter i).step_cases g.successorTable with ⟨hlt, -⟩ | ⟨-, hstep⟩
    · exact absurd hlt (not_lt.mpr hend)
    · exact hstep

/-- There is no node left to take exactly when every sorted node has had its round. -/
lemma length_le_taken_iff :
    (g.progressAfter i).sorted.length ≤ (g.progressAfter i).taken ↔ g.sorted.length ≤ i := by
  have hsize : g.sorted.length ≤ g.size := (consistent_finish g).length_sorted_le
  rcases le_total i g.size with hi | hi
  · have hprefix : (g.progressAfter i).sorted <+: g.sorted := sorted_prefix_progressAfter hi
    constructor
    · intro hend
      have hfinish : g.sorted = (g.progressAfter i).sorted :=
        congrArg Progress.sorted (progressAfter_eq_of_le hend hi)
      rw [hfinish]
      exact hend.trans (taken_progressAfter_le g i)
    · intro hlength
      rcases taken_progressAfter g i with htaken | hend
      · rw [htaken]
        exact hprefix.length_le.trans hlength
      · exact hend
  · refine iff_of_true ?_ (hsize.trans hi)
    rcases taken_progressAfter g i with htaken | hend
    · rw [htaken]
      exact (consistent_progressAfter g i).length_sorted_le.trans hi
    · exact hend

/-- As long as there are sorted nodes, each round takes one. -/
lemma taken_progressAfter_of_lt (h : i < g.sorted.length) : (g.progressAfter i).taken = i :=
  (taken_progressAfter g i).resolve_right (mt length_le_taken_iff.mp (not_le.mpr h))

/-- A round takes the sorted node with its number. -/
lemma next?_progressAfter (g : Graph) (i : Nat) : (g.progressAfter i).next? = g.sorted[i]? := by
  rw [Progress.next?_eq]
  rcases le_or_gt g.sorted.length i with hi | hi
  · rw [List.getElem?_eq_none hi, List.getElem?_eq_none (length_le_taken_iff.mpr hi)]
  · have hleft := mt length_le_taken_iff.mp (not_le.mpr hi)
    have hsize : i ≤ g.size := hi.le.trans (consistent_finish g).length_sorted_le
    have hprefix : (g.progressAfter i).sorted <+: g.sorted := sorted_prefix_progressAfter hsize
    rw [taken_progressAfter_of_lt hi, not_le] at hleft
    rw [taken_progressAfter_of_lt hi, List.getElem?_eq_getElem hleft,
      List.prefix_iff_getElem?.mp hprefix i hleft]

/-- A node behind a cycle belongs to the graph. -/
lemma BehindCycle.lt_size (h : g.BehindCycle v) : v < g.size := by
  obtain ⟨c, hcycle, hreach⟩ := h
  obtain ⟨u, -, hedge⟩ := Relation.TransGen.tail'_iff.mp (hcycle.trans_left hreach)
  exact hedge.lt_right

/-- The sorted and the unreached nodes are those of the graph. -/
lemma sorted_append_unreached_perm (g : Graph) :
    (g.sorted ++ g.unreached).Perm (List.range g.size) := by
  have hdisjoint : ∀ v ∈ g.sorted, v ∉ g.unreached := by
    intro v hsorted hunreached
    exact (mem_sorted_iff.mp hsorted).2 (mem_unreached_iff.mp hunreached).2
  have hnodup : (g.sorted ++ g.unreached).Nodup :=
    g.nodup_sorted.append (g.unreached_pairwise.imp Nat.ne_of_lt) hdisjoint
  refine (List.perm_ext_iff_of_nodup hnodup List.nodup_range).mpr fun v => ?_
  rw [List.mem_append, mem_sorted_iff, mem_unreached_iff, List.mem_range]
  tauto

/-- The nodes of every graph are put in order: the rounds come to an end without crossing out an
edge that nothing waits for, and leave out exactly the nodes on a cycle or behind one. -/
theorem isOrdered (g : Graph) : g.IsOrdered where
  edge_iff _ _ := edge_iff
  next := next?_progressAfter g
  round i _ hnode :=
    (consistent_progressAfter g i).step_eq_crossed ((next?_progressAfter g i).trans hnode)
  waiting i _ _ _ _ hnode hends :=
    (consistent_progressAfter g i).exists_waiting_eq_succ
      ((next?_progressAfter g i).trans hnode) hends
  finish := progressAfter_eq_of_le (length_le_taken_iff.mpr (Nat.le_refl _))
    (consistent_finish g).length_sorted_le
  perm := sorted_append_unreached_perm g
  ascending := unreached_pairwise g
  forward _ _ hedge hv :=
    ⟨mem_sorted_of_reflTransGen (.single hedge) hv, idxOf_lt_of_transGen (.single hedge) hv⟩
  unreached _ := mem_unreached_iff.trans (and_iff_right_of_imp BehindCycle.lt_size)

end Wardrobe.Graph
