/-!
# Ordering a graph by readiness

The nodes of a directed graph in an order that puts the start of every edge before its end. A node
is ready when all nodes with an edge to it have been taken; ready nodes are taken first in, first
out. Nodes on a cycle, or behind one, never become ready.

Successors and numbers of edges are looked up in tables, which hold what `successors` and `inDegree`
say (`getElem?_successorTable`, `getElem?_inDegreeTable`).
-/

namespace Wardrobe

/-- A directed graph on the nodes `0` to `size - 1`. Edges may be repeated. -/
structure Graph where
  size : Nat
  edges : List (Nat × Nat)

namespace Graph

/-- An edge that counts joins two different nodes of the graph. -/
def counts (g : Graph) (e : Nat × Nat) : Bool :=
  e.1 != e.2 && e.1 < g.size && e.2 < g.size

/-- The edges that count, as listed. -/
def properEdges (g : Graph) : List (Nat × Nat) :=
  g.edges.filter g.counts

/-- The ends of the proper edges from a node, as listed. -/
def successors (g : Graph) (node : Nat) : List Nat :=
  (g.properEdges.filter (·.1 == node)).map (·.2)

/-- The number of proper edges to a node. -/
def inDegree (g : Graph) (node : Nat) : Nat :=
  g.properEdges.countP (·.2 == node)

/-! ### Tables -/

/-- The successors of every node, from a list of edges. -/
def successorsOf (size : Nat) (edges : List (Nat × Nat)) : Array (List Nat) :=
  edges.foldr (fun e table => table.modify e.1 (e.2 :: ·)) (Array.replicate size [])

/-- The number of edges to every node, from a list of edges. -/
def inDegreesOf (size : Nat) (edges : List (Nat × Nat)) : Array Nat :=
  edges.foldr (fun e table => table.modify e.2 (· + 1)) (Array.replicate size 0)

/-- The successors of every node. -/
def successorTable (g : Graph) : Array (List Nat) :=
  successorsOf g.size g.properEdges

/-- The number of edges to every node. -/
def inDegreeTable (g : Graph) : Array Nat :=
  inDegreesOf g.size g.properEdges

@[simp] theorem size_successorsOf (size : Nat) (edges : List (Nat × Nat)) :
    (successorsOf size edges).size = size := by
  induction edges with
  | nil => simp [successorsOf]
  | cons e rest ih => simpa [successorsOf] using ih

@[simp] theorem size_inDegreesOf (size : Nat) (edges : List (Nat × Nat)) :
    (inDegreesOf size edges).size = size := by
  induction edges with
  | nil => simp [inDegreesOf]
  | cons e rest ih => simpa [inDegreesOf] using ih

theorem getElem?_successorsOf {size node : Nat} (h : node < size) (edges : List (Nat × Nat)) :
    (successorsOf size edges)[node]? = some ((edges.filter (·.1 == node)).map (·.2)) := by
  induction edges with
  | nil => simp [successorsOf, h]
  | cons e rest ih =>
    have hs : successorsOf size (e :: rest) = (successorsOf size rest).modify e.1 (e.2 :: ·) := rfl
    rw [hs, Array.getElem?_modify, ih]
    by_cases he : e.1 = node
    · simp [he]
    · simp [he]

theorem getElem?_inDegreesOf {size node : Nat} (h : node < size) (edges : List (Nat × Nat)) :
    (inDegreesOf size edges)[node]? = some (edges.countP (·.2 == node)) := by
  induction edges with
  | nil => simp [inDegreesOf, h]
  | cons e rest ih =>
    have hs : inDegreesOf size (e :: rest) = (inDegreesOf size rest).modify e.2 (· + 1) := rfl
    rw [hs, Array.getElem?_modify, ih]
    by_cases he : e.2 = node
    · simp [he]
    · simp [he]

/-- The table of successors holds the successors of every node. -/
theorem getElem?_successorTable (g : Graph) {node : Nat} (h : node < g.size) :
    g.successorTable[node]? = some (g.successors node) :=
  getElem?_successorsOf h g.properEdges

/-- The table of edges to a node holds their number for every node. -/
theorem getElem?_inDegreeTable (g : Graph) {node : Nat} (h : node < g.size) :
    g.inDegreeTable[node]? = some (g.inDegree node) :=
  getElem?_inDegreesOf h g.properEdges

/-! ### Taking nodes -/

/-- How far an ordering has come. -/
structure Progress where
  /-- The nodes that have become ready, in that order. -/
  ready : Array Nat
  /-- How many of them have been taken. -/
  taken : Nat
  /-- For each node, the number of edges from nodes that have not been taken. -/
  waiting : Array Nat

namespace Progress

/-- Crosses out one edge to a node, which may make it ready. -/
def release (p : Progress) (node : Nat) : Progress :=
  let left := (p.waiting[node]?.getD 0) - 1
  { p with
    waiting := p.waiting.setIfInBounds node left
    ready := if left = 0 then p.ready.push node else p.ready }

/-- Takes the next ready node, if there is one. -/
def step (successors : Array (List Nat)) (p : Progress) : Progress :=
  match p.ready[p.taken]? with
  | none => p
  | some node => (successors[node]?.getD []).foldl release { p with taken := p.taken + 1 }

/-- The nodes in the order in which they are taken. -/
def sorted (p : Progress) : List Nat :=
  p.ready.toList

/-- The nodes that still wait, in ascending order. -/
def unreached (p : Progress) : List Nat :=
  (List.range p.waiting.size).filter fun node => 0 < p.waiting[node]?.getD 0

end Progress

/-- Nothing taken; the nodes without edges to them are ready. -/
def start (g : Graph) : Progress :=
  let waiting := g.inDegreeTable
  ⟨((List.range g.size).filter fun node => waiting[node]?.getD 0 == 0).toArray, 0, waiting⟩

/-- The end of the ordering. A node becomes ready at most once, so there are no more steps than
nodes. -/
def finish (g : Graph) : Progress :=
  let successors := g.successorTable
  Nat.repeat (Progress.step successors) g.size g.start

/-- The nodes that become ready, in the order in which they are taken. -/
def sorted (g : Graph) : List Nat :=
  g.finish.sorted

/-- The nodes that never become ready, in ascending order. -/
def unreached (g : Graph) : List Nat :=
  g.finish.unreached

end Graph

end Wardrobe
