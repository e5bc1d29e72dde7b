import Mathlib.Data.List.Count
import Mathlib.Data.List.Nodup
import Mathlib.Data.Set.Finite.List
import Mathlib.Logic.Function.Iterate
import Mathlib.Logic.Relation
import Mathlib.Order.WellFoundedSet

/-! # Topological order by in-degrees

A queue loop over a finite directed multigraph: visit a vertex whose in-degree is
zero, take its edges away, and queue the vertices that lose their last one. The loop
ends with its queue empty; the vertices it visited are in topological order, and they
are all vertices exactly when the graph has no cycle.
-/

namespace Kit

/-- A finite directed multigraph, by the predecessors and by the successors of each
vertex, both with repetition. -/
structure Multigraph (κ : Type*) [DecidableEq κ] where
  vertices : List κ
  nodup : vertices.Nodup
  before : κ → List κ
  after : κ → List κ
  count_after : ∀ k v, (after k).count v = (before v).count k
  mem_of_before : ∀ {p v}, p ∈ before v → p ∈ vertices ∧ v ∈ vertices

/-- The vertices visited so far, those ready to be visited, and what is left of each
in-degree. -/
structure Visit (κ : Type*) where
  visited : List κ
  queue : List κ
  degree : κ → Int

variable {κ : Type*} [DecidableEq κ]

/-- Take one edge into `v` away. -/
def release (state : (κ → Int) × List κ) (v : κ) : (κ → Int) × List κ :=
  (Function.update state.1 v (state.1 v - 1),
    if state.1 v - 1 = 0 then state.2 ++ [v] else state.2)

namespace Multigraph

variable (G : Multigraph κ)

def turn (s : Visit κ) : Visit κ :=
  match s.queue with
  | [] => s
  | key :: queue =>
      let next := (G.after key).foldl release (s.degree, queue)
      ⟨s.visited ++ [key], next.2, next.1⟩

def start : Visit κ where
  visited := []
  queue := G.vertices.filter fun v => ((G.before v).length : Int) = 0
  degree := fun v => (G.before v).length

/-- An edge from `p` to `v`. -/
def Edge (p v : κ) : Prop := p ∈ G.before v

/-- The graph has a cycle. -/
def Cyclic : Prop := ∃ v, Relation.TransGen G.Edge v v

/-- Every vertex of the list has its predecessors in front of it. -/
def Ordered (order : List κ) : Prop :=
  ∀ front v back, order = front ++ v :: back → ∀ p ∈ G.before v, p ∈ front

end Multigraph

/-! ## One turn -/

/-- Taking edges away: every degree falls by the number of its edges, and those that
reach zero are queued once. -/
theorem foldl_release {edges : List κ} {degree : κ → Int} (queue : List κ)
    (hdegree : ∀ v, (edges.count v : Int) ≤ degree v) :
    ∃ ready : List κ, ready.Nodup ∧ (∀ v, v ∈ ready ↔ v ∈ edges ∧ degree v = edges.count v) ∧
      edges.foldl release (degree, queue) =
        (fun v => degree v - edges.count v, queue ++ ready) := by
  induction edges generalizing degree queue with
  | nil =>
      refine ⟨[], List.nodup_nil, ?_, ?_⟩
      · simp
      · simp
  | cons first edges ih =>
      -- The degree after the first edge still covers the rest.
      have hnext : ∀ v, (edges.count v : Int) ≤
          Function.update degree first (degree first - 1) v := by
        intro v
        have hv := hdegree v
        by_cases heq : v = first
        · subst heq
          rw [List.count_cons_self] at hv
          rw [Function.update_self]
          omega
        · rw [List.count_cons_of_ne (fun h => heq h.symm)] at hv
          rw [Function.update_of_ne heq]
          exact hv
      have hfirst := hdegree first
      rw [List.count_cons_self] at hfirst
      rcases ih (if degree first - 1 = 0 then queue ++ [first] else queue) hnext with
        ⟨ready, hnodup, hready, hfold⟩
      have hdegrees : (fun v => Function.update degree first (degree first - 1) v -
          (edges.count v : Int)) = fun v => degree v - ((first :: edges).count v : Int) := by
        funext v
        by_cases heq : v = first
        · subst heq
          rw [Function.update_self, List.count_cons_self]
          omega
        · rw [Function.update_of_ne heq, List.count_cons_of_ne (fun h => heq h.symm)]
      have hother : ∀ v, v ≠ first → (v ∈ ready ↔ v ∈ first :: edges ∧
          degree v = (first :: edges).count v) := by
        intro v hne
        rw [hready v, Function.update_of_ne hne, List.count_cons_of_ne (fun h => hne h.symm),
          List.mem_cons, or_iff_right hne]
      rw [List.foldl_cons]
      by_cases hzero : degree first - 1 = 0
      · -- No edge into the first vertex is left, so it is queued here and not again.
        have hcount : edges.count first = 0 := by omega
        have hfresh : first ∉ ready := by
          rw [hready first]
          rintro ⟨hmem, -⟩
          have := List.count_pos_iff.mpr hmem
          omega
        refine ⟨first :: ready, List.nodup_cons.mpr ⟨hfresh, hnodup⟩, ?_, ?_⟩
        · intro v
          by_cases heq : v = first
          · subst heq
            rw [List.count_cons_self, hcount]
            simp only [List.mem_cons_self, true_and, true_iff]
            omega
          · rw [List.mem_cons, or_iff_right heq]
            exact hother v heq
        · unfold release at hfold ⊢
          rw [if_pos hzero] at hfold ⊢
          rw [hfold, hdegrees, List.append_assoc, List.singleton_append]
      · refine ⟨ready, hnodup, ?_, ?_⟩
        · intro v
          by_cases heq : v = first
          · subst heq
            rw [hready v, Function.update_self, List.count_cons_self]
            constructor
            · rintro ⟨hmem, hdeg⟩
              exact ⟨List.mem_cons_of_mem _ hmem, by omega⟩
            · rintro ⟨-, hdeg⟩
              have hpos : 0 < edges.count v := by omega
              exact ⟨List.count_pos_iff.mp hpos, by omega⟩
          · exact hother v heq
        · unfold release at hfold ⊢
          rw [if_neg hzero] at hfold ⊢
          rw [hfold, hdegrees]

namespace Multigraph

variable {G : Multigraph κ}

/-- What every turn keeps: the degrees count the unvisited predecessors, the vertices of
degree zero are those visited or queued, each once, and the visited ones are ordered. -/
structure Sound (G : Multigraph κ) (s : Visit κ) : Prop where
  degrees : ∀ v, s.degree v = (G.before v).countP (· ∉ s.visited)
  nodup : (s.visited ++ s.queue).Nodup
  ready : ∀ v, v ∈ s.visited ++ s.queue ↔ v ∈ G.vertices ∧ s.degree v = 0
  ordered : G.Ordered s.visited

theorem sound_start (G : Multigraph κ) : G.Sound G.start := by
  constructor
  · intro v
    simp [start]
  · simpa [start] using G.nodup.filter _
  · intro v
    simp [start]
  · intro front v back h
    cases front <;> cases h

theorem countP_append_singleton {visited edges : List κ} {key : κ} (hkey : key ∉ visited) :
    edges.countP (· ∉ visited ++ [key]) + edges.count key = edges.countP (· ∉ visited) := by
  induction edges with
  | nil => rfl
  | cons first edges ih =>
      by_cases heq : first = key
      · subst heq
        rw [List.countP_cons_of_neg (by simp), List.count_cons_self,
          List.countP_cons_of_pos (by simpa using hkey)]
        omega
      · rw [List.count_cons_of_ne heq]
        by_cases hmem : first ∈ visited
        · rw [List.countP_cons_of_neg (by simp [hmem]), List.countP_cons_of_neg (by simp [hmem])]
          exact ih
        · rw [List.countP_cons_of_pos (by simp [hmem, heq]),
            List.countP_cons_of_pos (by simp [hmem])]
          omega

theorem sound_turn {s : Visit κ} (h : G.Sound s) : G.Sound (G.turn s) := by
  unfold turn
  cases hqueue : s.queue with
  | nil => exact h
  | cons key queue =>
      have hnodup := h.nodup
      rw [hqueue] at hnodup
      have hkey : key ∉ s.visited := fun hmem =>
        (List.nodup_append.mp hnodup).2.2 key hmem key List.mem_cons_self rfl
      -- The unvisited predecessors of a vertex include its edges from the visited one.
      have hcount : ∀ v, ((G.after key).count v : Int) ≤ s.degree v := by
        intro v
        have hsplit := @countP_append_singleton _ _ s.visited (G.before v) key hkey
        rw [h.degrees v, G.count_after]
        omega
      rcases foldl_release queue hcount with ⟨ready, hreadyNodup, hready, hfold⟩
      have hready_mem : ∀ v, v ∈ ready → v ∉ s.visited ++ key :: queue := by
        intro v hv hmem
        rcases (hready v).mp hv with ⟨hedge, hdegree⟩
        have hpos := List.count_pos_iff.mpr hedge
        have hzero := ((h.ready v).mp (hqueue ▸ hmem)).2
        omega
      simp only [hfold]
      have hsplit : s.visited ++ [key] ++ (queue ++ ready) =
          (s.visited ++ key :: queue) ++ ready := by simp
      constructor
      · intro v
        have hsplit := @countP_append_singleton _ _ s.visited (G.before v) key hkey
        simp only [h.degrees v, G.count_after]
        omega
      · rw [hsplit]
        refine List.nodup_append.mpr ⟨hnodup, hreadyNodup, ?_⟩
        rintro v hv _ hr rfl
        exact hready_mem v hr hv
      · intro v
        show _ ↔ v ∈ G.vertices ∧ s.degree v - ((G.after key).count v : Int) = 0
        rw [hsplit, List.mem_append, ← hqueue, h.ready v]
        constructor
        · rintro (⟨hvertex, hdegree⟩ | hr)
          · have hle := hcount v
            exact ⟨hvertex, by omega⟩
          · rcases (hready v).mp hr with ⟨hedge, hdegree⟩
            have hpos := List.count_pos_iff.mpr hedge
            rw [G.count_after] at hpos
            exact ⟨(G.mem_of_before (List.count_pos_iff.mp hpos)).2, by omega⟩
        · rintro ⟨hvertex, hdegree⟩
          by_cases hedge : v ∈ G.after key
          · exact .inr ((hready v).mpr ⟨hedge, by omega⟩)
          · have hzero := List.count_eq_zero.mpr hedge
            exact .inl ⟨hvertex, by omega⟩
      · intro front v back horder p hp
        rcases List.eq_nil_or_concat back with rfl | ⟨rest, last, rfl⟩
        · -- The vertex visited by this turn: none of its predecessors is unvisited.
          have hlast := List.append_inj' horder rfl
          rcases hlast with ⟨rfl, hlast⟩
          rcases List.cons_eq_cons.mp hlast with ⟨rfl, -⟩
          have hzero := ((h.ready key).mp (by simp [hqueue])).2
          rw [h.degrees key] at hzero
          have hnone : (G.before key).countP (· ∉ s.visited) = 0 := by omega
          have hall := List.countP_eq_zero.mp hnone p hp
          simpa using hall
        · have hfront : s.visited = front ++ v :: rest := by
            have hassoc : s.visited ++ [key] = (front ++ v :: rest) ++ [last] := by
              simpa using horder
            exact (List.append_inj' hassoc rfl).1
          exact h.ordered front v rest hfront p hp

theorem sound_iterate (G : Multigraph κ) (turns : Nat) : G.Sound (G.turn^[turns] G.start) := by
  induction turns with
  | zero => exact sound_start G
  | succ turns ih =>
      rw [Function.iterate_succ_apply']
      exact sound_turn ih

/-! ## The whole loop -/

theorem turn_visited {s : Visit κ} (h : s.queue ≠ []) :
    (G.turn s).visited.length = s.visited.length + 1 := by
  unfold turn
  cases hqueue : s.queue with
  | nil => exact absurd hqueue h
  | cons key queue => simp

theorem turn_of_queue_nil {s : Visit κ} (h : s.queue = []) : G.turn s = s := by
  unfold turn
  rw [h]

/-- Each turn visits one vertex until the queue is empty. -/
theorem visited_iterate (G : Multigraph κ) (turns : Nat) :
    (G.turn^[turns] G.start).queue = [] ∨
      (G.turn^[turns] G.start).visited.length = turns := by
  induction turns with
  | zero => exact .inr rfl
  | succ turns ih =>
      rw [Function.iterate_succ_apply']
      by_cases hqueue : (G.turn^[turns] G.start).queue = []
      · rw [turn_of_queue_nil hqueue]
        exact .inl hqueue
      · rw [turn_visited hqueue, ih.resolve_left hqueue]
        exact .inr rfl

theorem Sound.visited_subset {s : Visit κ} (h : G.Sound s) {v : κ} (hv : v ∈ s.visited) :
    v ∈ G.vertices :=
  ((h.ready v).mp (List.mem_append_left _ hv)).1

theorem Sound.length_le {s : Visit κ} (h : G.Sound s) :
    (s.visited ++ s.queue).length ≤ G.vertices.length :=
  (h.nodup.subperm fun v hv => ((h.ready v).mp hv).1).length_le

/-- The loop ends: a turn for each vertex empties the queue. -/
theorem queue_empties (G : Multigraph κ) : (G.turn^[G.vertices.length] G.start).queue = [] := by
  have hsound := sound_iterate G G.vertices.length
  rcases visited_iterate G G.vertices.length with hqueue | hlength
  · exact hqueue
  · have hle := hsound.length_le
    rw [List.length_append, hlength] at hle
    exact List.eq_nil_of_length_eq_zero (by omega)

/-- The vertices in the order the loop visits them. -/
def order (G : Multigraph κ) : List κ := (G.turn^[G.vertices.length] G.start).visited

theorem order_nodup (G : Multigraph κ) : G.order.Nodup :=
  (List.nodup_append.mp (sound_iterate G _).nodup).1

theorem order_ordered (G : Multigraph κ) : G.Ordered G.order := (sound_iterate G _).ordered

/-- Along an edge into a vertex of an ordered list the position grows. -/
theorem Ordered.idxOf_lt {order : List κ} (h : G.Ordered order) {p v : κ} (hedge : G.Edge p v)
    (hv : v ∈ order) : p ∈ order ∧ order.idxOf p < order.idxOf v := by
  have hlt := List.idxOf_lt_length_iff.mpr hv
  have hsplit : order = order.take (order.idxOf v) ++ v :: order.drop (order.idxOf v + 1) := by
    have hget : order[order.idxOf v] = v := List.getElem_idxOf hlt
    calc order = order.take (order.idxOf v) ++ order.drop (order.idxOf v) :=
          (List.take_append_drop _ _).symm
      _ = _ := by rw [List.drop_eq_getElem_cons hlt, hget]
  have hfront := h _ v _ hsplit p hedge
  have hmem := List.mem_of_mem_take hfront
  exact ⟨hmem, (List.mem_take_iff_idxOf_lt hmem).mp hfront⟩

/-- A list of all vertices in which every vertex follows its predecessors leaves no cycle. -/
theorem Ordered.not_cyclic {order : List κ} (h : G.Ordered order)
    (hall : ∀ v ∈ G.vertices, v ∈ order) : ¬ G.Cyclic := by
  rintro ⟨v, hcycle⟩
  have hgrows : ∀ {u w}, Relation.TransGen G.Edge u w → order.idxOf u < order.idxOf w := by
    intro u w hpath
    induction hpath with
    | single hedge => exact (h.idxOf_lt hedge (hall _ (G.mem_of_before hedge).2)).2
    | tail _ hedge ih =>
        exact ih.trans (h.idxOf_lt hedge (hall _ (G.mem_of_before hedge).2)).2
  exact lt_irrefl _ (hgrows hcycle)

/-- Without a cycle every nonempty set of vertices has one without a predecessor in the set. -/
theorem exists_source (hacyclic : ¬ G.Cyclic) {P : κ → Prop} {v : κ} (hv : v ∈ G.vertices)
    (hP : P v) : ∃ u ∈ G.vertices, P u ∧ ∀ p ∈ G.before u, ¬ P p := by
  have hstrict : IsStrictOrder κ (Relation.TransGen G.Edge) :=
    { irrefl := fun u hcycle => hacyclic ⟨u, hcycle⟩
      trans := fun _ _ _ => Relation.TransGen.trans }
  have hfounded : { u | u ∈ G.vertices }.WellFoundedOn (Relation.TransGen G.Edge) :=
    (List.finite_toSet G.vertices).wellFoundedOn
  rcases hfounded.has_min { u | P u.1 } ⟨⟨v, hv⟩, hP⟩ with ⟨⟨u, hu⟩, hPu, hmin⟩
  refine ⟨u, hu, hPu, fun p hp hPp => ?_⟩
  exact hmin ⟨p, (G.mem_of_before hp).1⟩ hPp (.single hp)

/-- A vertex that the loop leaves over has a predecessor that it leaves over. -/
theorem exists_before_of_not_mem_order {v : κ} (hv : v ∈ G.vertices) (hmissing : v ∉ G.order) :
    ∃ p ∈ G.before v, p ∉ G.order := by
  have hsound := sound_iterate G G.vertices.length
  have hready := hsound.ready v
  rw [queue_empties G, List.append_nil] at hready
  by_contra hnone
  push Not at hnone
  have hcount : (G.before v).countP (· ∉ G.order) = 0 := by
    rw [List.countP_eq_zero]
    intro p hp
    simpa using hnone p hp
  have hdegree := hsound.degrees v
  exact hmissing (hready.mpr ⟨hv, by rw [hdegree]; exact_mod_cast hcount⟩)

theorem mem_order_of_acyclic (hacyclic : ¬ G.Cyclic) {v : κ} (hv : v ∈ G.vertices) :
    v ∈ G.order := by
  by_contra hmissing
  have hsource := @exists_source κ _ G hacyclic (· ∉ G.order) v hv hmissing
  rcases hsource with ⟨u, hu, hnot, hbefore⟩
  rcases exists_before_of_not_mem_order hu hnot with ⟨p, hp, hpmissing⟩
  exact hbefore p hp hpmissing

/-- The loop visits every vertex exactly when the graph has no cycle. -/
theorem length_order_iff (G : Multigraph κ) :
    G.order.length = G.vertices.length ↔ ¬ G.Cyclic := by
  have hsubperm : G.order.Subperm G.vertices :=
    G.order_nodup.subperm fun v hv => (sound_iterate G _).visited_subset hv
  constructor
  · intro hlength
    have hperm := hsubperm.perm_of_length_le hlength.ge
    exact G.order_ordered.not_cyclic fun v hv => hperm.mem_iff.mpr hv
  · intro hacyclic
    have hback : G.vertices.Subperm G.order :=
      G.nodup.subperm fun v hv => mem_order_of_acyclic hacyclic hv
    exact le_antisymm hsubperm.length_le hback.length_le

end Multigraph

end Kit
