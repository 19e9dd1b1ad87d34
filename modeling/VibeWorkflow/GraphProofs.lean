import Mathlib.Data.Finset.Card
import Mathlib.Data.List.Chain
import Mathlib.Data.List.Dedup
import Mathlib.Logic.Relation
import Mathlib.Algebra.BigOperators.Group.List.Basic
import Mathlib.Algebra.Order.BigOperators.Group.List
import Mathlib.Algebra.Order.Ring.Nat
import Mathlib.Algebra.Group.Action.Defs

/-!
# Three graph searches on edge lists

A graph is the list of its edges; a node's successors are read off in edge order.  The three
searches are the usual imperative ones (a worklist with a seen-set, a depth-first search with
three colours, an iterated dominator table), written with explicit fuel, and each comes with
the fact its callers use.

* **`reachableFrom_sound`** — whatever the worklist collects is reachable.
* **`findCycle_none_rank`** — a search that reports no cycle leaves a rank that strictly
  drops along every edge between its nodes.
* **`findCycle_some`**, **`findCycle_none_iff`** — what it reports is a cycle, and it reports
  none only on an acyclic graph.
* **`computeDominators_edge`** — across an edge the target's dominators are itself and
  dominators of the source.
-/

namespace GraphSearch

variable {α : Type} [DecidableEq α]

/-- The successors of a node, in edge order. -/
def succs (es : List (α × α)) (u : α) : List α :=
  (es.filter (fun e => e.1 = u)).map Prod.snd

theorem mem_succs {es : List (α × α)} {u v : α} :
    v ∈ succs es u ↔ (u, v) ∈ es := by
  simp only [succs, List.mem_map, List.mem_filter, decide_eq_true_eq]
  constructor
  · rintro ⟨⟨a, b⟩, ⟨hm, rfl⟩, rfl⟩
    exact hm
  · intro h
    exact ⟨(u, v), ⟨h, rfl⟩, rfl⟩

/-- One edge of the graph, as a relation. -/
def Edge (es : List (α × α)) (u v : α) : Prop := (u, v) ∈ es

/-- A path of any length. -/
abbrev Path (es : List (α × α)) : α → α → Prop := Relation.ReflTransGen (Edge es)

/-! ## Worklist reachability -/

/-- Scan a node's successors: each unseen one is marked and pushed. -/
def visit : List α → List α → List α → List α × List α
  | seen, stack, [] => (seen, stack)
  | seen, stack, nxt :: rest =>
    if nxt ∈ seen then visit seen stack rest
    else visit (seen ++ [nxt]) (nxt :: stack) rest

/-- Pop a node and scan it, until the stack is empty. -/
def worklist (es : List (α × α)) : Nat → List α → List α → List α
  | 0, seen, _ => seen
  | _ + 1, seen, [] => seen
  | fuel + 1, seen, cur :: stack =>
    let r := visit seen stack (succs es cur)
    worklist es fuel r.1 r.2

/-- The nodes a worklist search from `entry` collects, in the order it marks them. -/
def reachableFrom (es : List (α × α)) (fuel : Nat) (entry : α) : List α :=
  worklist es fuel [entry] [entry]

/-- A scan keeps what is seen, and adds only from the scanned list. -/
theorem visit_mem {seen stack l : List α} {x : α} :
    (x ∈ (visit seen stack l).1 ↔ x ∈ seen ∨ x ∈ l) ∧
    (x ∈ (visit seen stack l).2 → x ∈ stack ∨ x ∈ l) := by
  induction l generalizing seen stack with
  | nil => simp [visit]
  | cons hd tl ih =>
    rw [visit]
    by_cases h : hd ∈ seen
    · rw [if_pos h]
      obtain ⟨h1, h2⟩ := @ih seen stack
      refine ⟨?_, fun hx => (h2 hx).imp id (List.mem_cons_of_mem _)⟩
      rw [h1, List.mem_cons]
      constructor
      · rintro (hx | hx)
        · exact Or.inl hx
        · exact Or.inr (Or.inr hx)
      · rintro (hx | rfl | hx)
        · exact Or.inl hx
        · exact Or.inl h
        · exact Or.inr hx
    · rw [if_neg h]
      obtain ⟨h1, h2⟩ := @ih (seen ++ [hd]) (hd :: stack)
      refine ⟨?_, ?_⟩
      · rw [h1]
        simp only [List.mem_append, List.mem_cons]
        grind
      · intro hx
        have := h2 hx
        simp only [List.mem_cons] at this ⊢
        grind

/-- Everything the worklist collects lies in any set that holds what it starts from and is
    closed under successors. -/
theorem worklist_subset {es : List (α × α)} {P : α → Prop}
    (hP : ∀ u v, P u → (u, v) ∈ es → P v) :
    ∀ (fuel : Nat) (seen stack : List α), (∀ x ∈ seen, P x) → (∀ x ∈ stack, P x) →
      ∀ x ∈ worklist es fuel seen stack, P x := by
  intro fuel
  induction fuel with
  | zero => intro seen stack hs _ x hx; exact hs x hx
  | succ n ih =>
    intro seen stack hs hst x hx
    cases stack with
    | nil => exact hs x hx
    | cons cur rest =>
      have hsucc : ∀ y ∈ succs es cur, P y :=
        fun y hy => hP cur y (hst cur List.mem_cons_self) (mem_succs.mp hy)
      refine ih _ _ ?_ ?_ x hx
      · intro y hy
        rcases visit_mem.1.mp hy with h | h
        · exact hs y h
        · exact hsucc y h
      · intro y hy
        rcases visit_mem.2 hy with h | h
        · exact hst y (List.mem_cons_of_mem _ h)
        · exact hsucc y h

/-- **The worklist is sound**: every collected node has a path from the entry. -/
theorem reachableFrom_sound {es : List (α × α)} {fuel : Nat} {entry x : α}
    (h : x ∈ reachableFrom es fuel entry) : Path es entry x := by
  refine worklist_subset (P := Path es entry) ?_ fuel [entry] [entry] ?_ ?_ x h
  · intro u v hu huv
    exact hu.tail huv
  · intro y hy
    rw [List.mem_singleton.mp hy]
  · intro y hy
    rw [List.mem_singleton.mp hy]

/-! ## Depth-first cycle search

A node is grey while it is on the path, black once it is finished, and white when it is a
listed node that is neither.  The path is kept top first, and the finished nodes last
finished first. -/

/-- Scan a list of nodes below `path`: a grey one closes a cycle, a white one is searched
    with `search`. -/
def scan (search : List α → α → Except (List α) (List α)) (nodes path : List α) :
    List α → List α → Except (List α) (List α)
  | [], black => .ok black
  | v :: vs, black =>
    if v ∈ path then .error (v :: (path.takeWhile (fun x => x ≠ v)).reverse ++ [v])
    else if v ∈ nodes ∧ v ∉ black then
      match search black v with
      | .error cycle => .error cycle
      | .ok black' => scan search nodes path vs black'
    else scan search nodes path vs black

/-- Depth-first search from `u`: the cycle it runs into, or the finished nodes. -/
def dfs (es : List (α × α)) (nodes : List α) :
    Nat → List α → List α → α → Except (List α) (List α)
  | 0, _, black, u => .ok (u :: black)
  | fuel + 1, path, black, u =>
    match scan (dfs es nodes fuel (u :: path)) nodes (u :: path) (succs es u) black with
    | .error cycle => .error cycle
    | .ok black' => .ok (u :: black')

/-- A cycle among the listed nodes, if the search runs into one. -/
def findCycle (nodes : List α) (es : List (α × α)) : Option (List α) :=
  match scan (dfs es nodes nodes.length []) nodes [] nodes [] with
  | .error cycle => some cycle
  | .ok _ => none

/-- Every node was finished after its listed successors. -/
def Finished (es : List (α × α)) (nodes : List α) : List α → Prop
  | [] => True
  | u :: rest => (∀ v ∈ succs es u, v ∈ nodes → v ∈ rest) ∧ Finished es nodes rest

/-- What a scan gives, from what its search gives on the white nodes below the path. -/
theorem scan_ok {es : List (α × α)} {nodes path : List α}
    {search : List α → α → Except (List α) (List α)}
    (hsearch : ∀ black v black', Finished es nodes black → v ∈ nodes → v ∉ path →
      search black v = .ok black' → Finished es nodes black' ∧ black ⊆ black' ∧ v ∈ black') :
    ∀ (l black black' : List α), Finished es nodes black →
      scan search nodes path l black = .ok black' →
      Finished es nodes black' ∧ black ⊆ black' ∧ ∀ v ∈ l, v ∈ nodes → v ∈ black' := by
  intro l
  induction l with
  | nil =>
    intro black black' hf h
    rw [scan] at h
    rw [← Except.ok.inj h]
    exact ⟨hf, List.Subset.refl _, fun v hv => nomatch hv⟩
  | cons hd tl ih =>
    intro black black' hf h
    rw [scan] at h
    by_cases hp : hd ∈ path
    · rw [if_pos hp] at h
      exact nomatch h
    · rw [if_neg hp] at h
      by_cases hw : hd ∈ nodes ∧ hd ∉ black
      · rw [if_pos hw] at h
        cases hs : search black hd with
        | error c => rw [hs] at h; exact nomatch h
        | ok mid =>
          rw [hs] at h
          obtain ⟨hfm, hsub, hmem⟩ := hsearch black hd mid hf hw.1 hp hs
          obtain ⟨hf', hsub', hall⟩ := ih mid black' hfm h
          refine ⟨hf', List.Subset.trans hsub hsub', ?_⟩
          intro v hv hvn
          rcases List.mem_cons.mp hv with rfl | hv
          · exact hsub' hmem
          · exact hall v hv hvn
      · rw [if_neg hw] at h
        obtain ⟨hf', hsub', hall⟩ := ih black black' hf h
        refine ⟨hf', hsub', ?_⟩
        intro v hv hvn
        rcases List.mem_cons.mp hv with rfl | hv
        · exact hsub' (by by_contra hb; exact hw ⟨hvn, hb⟩)
        · exact hall v hv hvn

/-- A search that meets no cycle finishes its node after all it can reach.  The fuel cannot
    run out: the path is a duplicate-free list of listed nodes, so it is shorter than the
    list while a white node is left. -/
theorem dfs_ok {es : List (α × α)} {nodes : List α} :
    ∀ (fuel : Nat) (path : List α), path.Nodup → path ⊆ nodes →
      nodes.length ≤ path.length + fuel →
      ∀ black u black', Finished es nodes black → u ∈ nodes → u ∉ path →
        dfs es nodes fuel path black u = .ok black' →
        Finished es nodes black' ∧ black ⊆ black' ∧ u ∈ black' := by
  intro fuel
  induction fuel with
  | zero =>
    intro path hnd hsub hlen black u black' _ hu hup _
    have hlt : (u :: path).length ≤ nodes.length :=
      (List.subperm_of_subset (List.nodup_cons.mpr ⟨hup, hnd⟩)
        (List.cons_subset.mpr ⟨hu, hsub⟩)).length_le
    simp only [List.length_cons] at hlt
    omega
  | succ n ih =>
    intro path hnd hsub hlen black u black' hf hu hup h
    rw [dfs] at h
    have hnd' : (u :: path).Nodup := List.nodup_cons.mpr ⟨hup, hnd⟩
    have hsub' : u :: path ⊆ nodes := List.cons_subset.mpr ⟨hu, hsub⟩
    have hlen' : nodes.length ≤ (u :: path).length + n := by
      simp only [List.length_cons]
      omega
    cases hs : scan (dfs es nodes n (u :: path)) nodes (u :: path) (succs es u) black with
    | error c => rw [hs] at h; exact nomatch h
    | ok mid =>
      rw [hs] at h
      obtain ⟨hfm, hbm, hall⟩ :=
        scan_ok (ih (u :: path) hnd' hsub' hlen') (succs es u) black mid hf hs
      rw [← Except.ok.inj h]
      exact ⟨⟨hall, hfm⟩, List.Subset.trans hbm (List.subset_cons_self u mid),
        List.mem_cons_self⟩

/-- Position of a node in the finish order, counted from the first finished. -/
def finishRank : List α → α → Nat
  | [], _ => 0
  | u :: rest, x => if x ∈ rest then finishRank rest x else if x = u then rest.length + 1 else 0

theorem finishRank_le (l : List α) (x : α) : finishRank l x ≤ l.length := by
  induction l with
  | nil => exact Nat.le_refl 0
  | cons u rest ih =>
    rw [finishRank, List.length_cons]
    split
    · omega
    · split
      · exact Nat.le_refl _
      · exact Nat.zero_le _

/-- Along an edge between listed nodes the finish rank drops. -/
theorem finishRank_lt {es : List (α × α)} {nodes : List α} :
    ∀ l : List α, Finished es nodes l → ∀ x ∈ l, ∀ v ∈ succs es x, v ∈ nodes →
      v ∈ l ∧ finishRank l v < finishRank l x := by
  intro l
  induction l with
  | nil => intro _ x hx; exact nomatch hx
  | cons u rest ih =>
    intro hf x hx v hv hvn
    obtain ⟨hu, hrest⟩ := hf
    simp only [finishRank]
    by_cases hxr : x ∈ rest
    · obtain ⟨hvr, hlt⟩ := ih hrest x hxr v hv hvn
      refine ⟨List.mem_cons_of_mem _ hvr, ?_⟩
      rw [if_pos hxr, if_pos hvr]
      exact hlt
    · have hxu : x = u := (List.mem_cons.mp hx).resolve_right hxr
      have hvr : v ∈ rest := hu v (hxu ▸ hv) hvn
      refine ⟨List.mem_cons_of_mem _ hvr, ?_⟩
      rw [if_neg hxr, if_pos hxu, if_pos hvr]
      have := finishRank_le rest v
      omega

/-- **ACYCLICITY**: a search that reports no cycle leaves a rank that strictly drops along
    every edge between the listed nodes. -/
theorem findCycle_none_rank {nodes : List α} {es : List (α × α)}
    (h : findCycle nodes es = none) :
    ∃ rank : α → Nat, ∀ u v, (u, v) ∈ es → u ∈ nodes → v ∈ nodes → rank v < rank u := by
  unfold findCycle at h
  cases hs : scan (dfs es nodes nodes.length []) nodes [] nodes [] with
  | error c => rw [hs] at h; exact nomatch h
  | ok black =>
    obtain ⟨hf, -, hall⟩ := scan_ok
      (dfs_ok nodes.length [] List.nodup_nil (List.nil_subset _) (by simp))
      nodes [] black trivial hs
    refine ⟨finishRank black, ?_⟩
    intro u v huv hu hv
    exact (finishRank_lt black hf u (hall u hu hu) v (mem_succs.mpr huv) hv).2

/-- A closed walk: neighbours are joined by edges, and it ends where it begins. -/
def IsCycle (es : List (α × α)) (cycle : List α) : Prop :=
  2 ≤ cycle.length ∧ cycle.IsChain (Edge es) ∧ cycle.head? = cycle.getLast?

/-- No node has a path of at least one edge back to itself. -/
def Acyclic (es : List (α × α)) : Prop := ∀ x, ¬ Relation.TransGen (Edge es) x x

/-- The node a path stands on has an edge to `v`; an empty path stands nowhere. -/
def Onward (es : List (α × α)) (path : List α) (v : α) : Prop := ∀ u ∈ path.head?, Edge es u v

/-- The path from a grey node up to the top, closed by the edge back to it, is a cycle. -/
theorem isCycle_closed {es : List (α × α)} {path : List α} {v : α}
    (hpath : path.reverse.IsChain (Edge es)) (honward : Onward es path v) (hv : v ∈ path) :
    IsCycle es (v :: (path.takeWhile (fun x => x ≠ v)).reverse ++ [v]) := by
  obtain ⟨above, below, hsplit, htake⟩ : ∃ above below, path = above ++ v :: below ∧
      path.takeWhile (fun x => x ≠ v) = above := by
    obtain ⟨above, below, hsplit, hnot⟩ := List.eq_append_cons_of_mem hv
    refine ⟨above, below, hsplit, ?_⟩
    rw [hsplit, List.takeWhile_append_of_pos, List.takeWhile_cons_of_neg, List.append_nil]
    · simp
    · intro x hx
      exact decide_eq_true fun heq => hnot (heq ▸ hx)
  rw [htake]
  refine ⟨by simp, ?_, ?_⟩
  · rw [List.isChain_append]
    refine ⟨?_, List.isChain_singleton v, ?_⟩
    · rw [hsplit, List.reverse_append, List.reverse_cons, List.append_assoc] at hpath
      exact hpath.right_of_append
    · intro x hx y hy
      obtain rfl : v = y := Option.some.inj hy
      -- the last node of the walk so far is the top of the path
      refine honward x ?_
      rw [hsplit]
      cases above with
      | nil => exact hx
      | cons top rest =>
        rw [List.reverse_cons, ← List.cons_append, List.getLast?_concat] at hx
        exact hx
  · rw [List.getLast?_concat]
    rfl

/-- What a scan runs into is a cycle, when what its search runs into is one. -/
theorem scan_cycle {es : List (α × α)} {nodes path : List α}
    {search : List α → α → Except (List α) (List α)} (hpath : path.reverse.IsChain (Edge es))
    (hsearch : ∀ black v cycle, Onward es path v → search black v = .error cycle → IsCycle es cycle) :
    ∀ (l black cycle : List α), (∀ v ∈ l, Onward es path v) →
      scan search nodes path l black = .error cycle → IsCycle es cycle := by
  intro l
  induction l with
  | nil =>
    intro black cycle _ h
    exact nomatch h
  | cons v vs ih =>
    intro black cycle honward h
    have hvs : ∀ x ∈ vs, Onward es path x := fun x hx => honward x (List.mem_cons_of_mem _ hx)
    rw [scan] at h
    by_cases hp : v ∈ path
    · rw [if_pos hp] at h
      rw [← Except.error.inj h]
      exact isCycle_closed hpath (honward v List.mem_cons_self) hp
    · rw [if_neg hp] at h
      by_cases hw : v ∈ nodes ∧ v ∉ black
      · rw [if_pos hw] at h
        cases hs : search black v with
        | error c =>
          rw [hs] at h
          rw [← Except.error.inj h]
          exact hsearch black v c (honward v List.mem_cons_self) hs
        | ok black' =>
          rw [hs] at h
          exact ih black' cycle hvs h
      · rw [if_neg hw] at h
        exact ih black cycle hvs h

/-- What a search runs into is a cycle: the path below it is a chain of edges. -/
theorem dfs_cycle {es : List (α × α)} {nodes : List α} :
    ∀ (fuel : Nat) (path black : List α) (u : α) (cycle : List α), path.reverse.IsChain (Edge es) →
      Onward es path u → dfs es nodes fuel path black u = .error cycle → IsCycle es cycle := by
  intro fuel
  induction fuel with
  | zero =>
    intro path black u cycle _ _ h
    exact nomatch h
  | succ n ih =>
    intro path black u cycle hpath honward h
    rw [dfs] at h
    have hpath' : (u :: path).reverse.IsChain (Edge es) := by
      rw [List.reverse_cons, List.isChain_append]
      refine ⟨hpath, List.isChain_singleton u, ?_⟩
      intro x hx y hy
      obtain rfl : u = y := Option.some.inj hy
      rw [List.getLast?_reverse] at hx
      exact honward x hx
    cases hs : scan (dfs es nodes n (u :: path)) nodes (u :: path) (succs es u) black with
    | ok black' => rw [hs] at h; exact nomatch h
    | error c =>
      rw [hs] at h
      rw [← Except.error.inj h]
      refine scan_cycle hpath' (fun black v c hv hc => ih (u :: path) black v c hpath' hv hc) _ black c ?_ hs
      intro v hv x hx
      obtain rfl : u = x := Option.some.inj hx
      exact mem_succs.mp hv

/-- **SOUNDNESS**: whatever the search reports is a cycle of the graph. -/
theorem findCycle_some {nodes : List α} {es : List (α × α)} {cycle : List α}
    (h : findCycle nodes es = some cycle) : IsCycle es cycle := by
  unfold findCycle at h
  cases hs : scan (dfs es nodes nodes.length []) nodes [] nodes [] with
  | ok black => rw [hs] at h; exact nomatch h
  | error c =>
    rw [hs] at h
    rw [← Option.some.inj h]
    refine scan_cycle List.isChain_nil ?_ nodes [] c ?_ hs
    · intro black v cycle hv hc
      exact dfs_cycle nodes.length [] black v cycle List.isChain_nil hv hc
    · intro v _ u hu
      exact nomatch hu

omit [DecidableEq α] in
/-- A chain of edges is a path from its first node to every later one. -/
theorem transGen_of_isChain {es : List (α × α)} :
    ∀ (rest : List α) (x z : α), (x :: rest).IsChain (Edge es) → z ∈ rest →
      Relation.TransGen (Edge es) x z := by
  intro rest
  induction rest with
  | nil =>
    intro x z _ hz
    exact nomatch hz
  | cons y rest ih =>
    intro x z hchain hz
    obtain ⟨hxy, hrest⟩ := List.isChain_cons_cons.mp hchain
    rcases List.mem_cons.mp hz with rfl | hz
    · exact Relation.TransGen.single hxy
    · exact Relation.TransGen.head hxy (ih y z hrest hz)

omit [DecidableEq α] in
/-- A closed walk leaves no graph acyclic. -/
theorem IsCycle.not_acyclic {es : List (α × α)} {cycle : List α} (h : IsCycle es cycle) : ¬ Acyclic es := by
  intro hacyclic
  obtain ⟨hlen, hchain, hclosed⟩ := h
  match cycle, hlen with
  | x :: y :: rest, _ =>
    rw [List.getLast?_cons_cons] at hclosed
    exact hacyclic x (transGen_of_isChain _ x x hchain (List.mem_of_getLast? hclosed.symm))

/-- **EXACTNESS**: on a graph between listed nodes, no cycle is reported just when there is
    none. -/
theorem findCycle_none_iff {nodes : List α} {es : List (α × α)}
    (hlisted : ∀ u v, (u, v) ∈ es → u ∈ nodes ∧ v ∈ nodes) :
    findCycle nodes es = none ↔ Acyclic es := by
  constructor
  · intro h x hx
    obtain ⟨rank, hrank⟩ := findCycle_none_rank h
    -- the rank drops along every path, so no path returns
    have hdrop : ∀ {u v}, Relation.TransGen (Edge es) u v → rank v < rank u := by
      intro u v huv
      induction huv with
      | single hedge => exact hrank _ _ hedge (hlisted _ _ hedge).1 (hlisted _ _ hedge).2
      | tail _ hedge ih => exact Nat.lt_trans (hrank _ _ hedge (hlisted _ _ hedge).1 (hlisted _ _ hedge).2) ih
    exact Nat.lt_irrefl _ (hdrop hx)
  · intro hacyclic
    cases hfound : findCycle nodes es with
    | none => rfl
    | some cycle => exact absurd hacyclic (findCycle_some hfound).not_acyclic

/-! ## Iterated dominators -/

/-- The sources of the edges into `n`, among the table's nodes. -/
def preds (es : List (α × α)) (nodes : List α) (n : α) : List α :=
  (es.filter (fun e => e.2 = n ∧ e.1 ∈ nodes)).map Prod.fst

theorem mem_preds {es : List (α × α)} {nodes : List α} {n p : α} :
    p ∈ preds es nodes n ↔ (p, n) ∈ es ∧ p ∈ nodes := by
  simp only [preds, List.mem_map, List.mem_filter, decide_eq_true_eq]
  constructor
  · rintro ⟨⟨a, b⟩, ⟨hm, rfl, hn⟩, rfl⟩
    exact ⟨hm, hn⟩
  · rintro ⟨hm, hn⟩
    exact ⟨(p, n), ⟨hm, rfl, hn⟩, rfl⟩

/-- Intersect the table rows of a list of nodes; nothing for the empty list. -/
def interRows (dom : α → List α) : List α → List α
  | [] => []
  | [p] => dom p
  | p :: q :: ps => (dom p).filter (fun x => x ∈ interRows dom (q :: ps))

theorem mem_interRows {dom : α → List α} {x : α} :
    ∀ ps : List α, x ∈ interRows dom ps ↔ ps ≠ [] ∧ ∀ p ∈ ps, x ∈ dom p := by
  intro ps
  induction ps with
  | nil => simp [interRows]
  | cons p rest ih =>
    cases rest with
    | nil => simp [interRows]
    | cons q qs =>
      rw [interRows, List.mem_filter, decide_eq_true_eq, ih]
      simp

/-- `Set.add` on a duplicate-free list. -/
def addTo (l : List α) (n : α) : List α := if n ∈ l then l else l ++ [n]

/-- The row a pass computes for `n`. -/
def nextRow (es : List (α × α)) (nodes : List α) (dom : α → List α) (n : α) : List α :=
  addTo (interRows dom (preds es nodes n)) n

theorem mem_nextRow {es : List (α × α)} {nodes : List α} {dom : α → List α} {n x : α} :
    x ∈ nextRow es nodes dom n ↔
      x = n ∨ (preds es nodes n ≠ [] ∧ ∀ p ∈ preds es nodes n, x ∈ dom p) := by
  rw [← mem_interRows, nextRow, addTo]
  split
  · rename_i hn
    constructor
    · exact Or.inr
    · rintro (rfl | hx)
      · exact hn
      · exact hx
  · rw [List.mem_append, List.mem_singleton]
    exact or_comm

/-- Has the row changed?  Sizes first, then membership. -/
def rowChanged (next cur : List α) : Bool :=
  decide (next.length ≠ cur.length) || next.any (fun x => decide (x ∉ cur))

/-- One pass over the nodes, updating rows in place. -/
def domPass (es : List (α × α)) (nodes : List α) (entry : α) :
    List α → (α → List α) × Bool → (α → List α) × Bool
  | [], st => st
  | n :: ns, (dom, changed) =>
    if n = entry then domPass es nodes entry ns (dom, changed)
    else
      let next := nextRow es nodes dom n
      if rowChanged next (dom n) then
        domPass es nodes entry ns (Function.update dom n next, true)
      else domPass es nodes entry ns (dom, changed)

/-- Passes until one changes nothing. -/
def domLoop (es : List (α × α)) (nodes : List α) (entry : α) : Nat → (α → List α) → α → List α
  | 0, dom => dom
  | fuel + 1, dom =>
    let r := domPass es nodes entry nodes (dom, false)
    if r.2 then domLoop es nodes entry fuel r.1 else r.1

/-- The table the passes start from: everything, except at the entry. -/
def initialRows (nodes : List α) (entry : α) : α → List α :=
  fun n => if n = entry then [entry] else nodes

/-- The iterated dominator table.  A changing pass shrinks some row, so the number of
    entries bounds the number of passes. -/
def computeDominators (entry : α) (nodes : List α) (es : List (α × α)) : α → List α :=
  domLoop es nodes entry (nodes.length * nodes.length + 1) (initialRows nodes entry)

/-- The invariant of the passes: rows are duplicate-free, the entry's row is fixed, and a
    row contains what the next pass would compute for it. -/
structure RowsOk (es : List (α × α)) (nodes : List α) (entry : α) (dom : α → List α) : Prop where
  nodup : ∀ n ∈ nodes, (dom n).Nodup
  atEntry : dom entry = [entry]
  above : ∀ n ∈ nodes, n ≠ entry → nextRow es nodes dom n ⊆ dom n

theorem interRows_nodup {dom : α → List α} :
    ∀ ps : List α, (∀ p ∈ ps, (dom p).Nodup) → (interRows dom ps).Nodup := by
  intro ps
  induction ps with
  | nil => intro _; exact List.nodup_nil
  | cons p rest ih =>
    intro h
    cases rest with
    | nil => exact h p List.mem_cons_self
    | cons q qs =>
      rw [interRows]
      exact (h p List.mem_cons_self).filter _

namespace RowsOk

variable {es : List (α × α)} {nodes : List α} {entry : α} {dom : α → List α}

theorem nextRow_nodup (h : RowsOk es nodes entry dom) (n : α) :
    (nextRow es nodes dom n).Nodup := by
  have hin : (interRows dom (preds es nodes n)).Nodup :=
    interRows_nodup _ (fun p hp => h.nodup p (mem_preds.mp hp).2)
  rw [nextRow, addTo]
  split
  · exact hin
  · rename_i hn
    rw [List.nodup_append]
    refine ⟨hin, List.nodup_singleton n, ?_⟩
    intro a ha b hb hab
    rw [List.mem_singleton.mp hb] at hab
    exact hn (hab ▸ ha)

/-- Replacing a row by the computed one keeps the invariant: rows only shrink, and the
    computed row is monotone in the table. -/
theorem update_next (h : RowsOk es nodes entry dom) {n : α} (hn : n ∈ nodes) (hne : n ≠ entry) :
    RowsOk es nodes entry (Function.update dom n (nextRow es nodes dom n)) := by
  have hle : ∀ m, Function.update dom n (nextRow es nodes dom n) m ⊆ dom m := by
    intro m
    by_cases hm : m = n
    · rw [hm, Function.update_self]
      exact h.above n hn hne
    · rw [Function.update_of_ne hm]
      exact List.Subset.refl _
  have hmono : ∀ m, nextRow es nodes (Function.update dom n (nextRow es nodes dom n)) m
      ⊆ nextRow es nodes dom m := by
    intro m x hx
    rw [mem_nextRow] at hx ⊢
    exact hx.imp id (fun hp => ⟨hp.1, fun p hpm => hle p (hp.2 p hpm)⟩)
  refine ⟨?_, ?_, ?_⟩
  · intro m hm
    by_cases hmn : m = n
    · rw [hmn, Function.update_self]
      exact h.nextRow_nodup n
    · rw [Function.update_of_ne hmn]
      exact h.nodup m hm
  · rw [Function.update_of_ne (Ne.symm hne)]
    exact h.atEntry
  · intro m hm hme
    by_cases hmn : m = n
    · rw [hmn, Function.update_self]
      exact hmono n
    · rw [Function.update_of_ne hmn]
      exact List.Subset.trans (hmono m) (h.above m hm hme)

/-- An unchanged row is exactly what the pass computes. -/
theorem row_eq_next (h : RowsOk es nodes entry dom) {n : α}
    (hc : rowChanged (nextRow es nodes dom n) (dom n) = false) :
    dom n ⊆ nextRow es nodes dom n := by
  simp only [rowChanged, Bool.or_eq_false_iff, decide_eq_false_iff_not, not_not,
    List.any_eq_false, decide_eq_true_eq] at hc
  obtain ⟨hlen, hsub⟩ := hc
  have hperm := (List.subperm_of_subset (h.nextRow_nodup n) hsub).perm_of_length_le
    (Nat.le_of_eq hlen.symm)
  intro x hx
  exact hperm.mem_iff.mpr hx

/-- A changed row gets strictly shorter. -/
theorem row_shrinks (h : RowsOk es nodes entry dom) {n : α} (hn : n ∈ nodes) (hne : n ≠ entry)
    (hc : rowChanged (nextRow es nodes dom n) (dom n) = true) :
    (nextRow es nodes dom n).length < (dom n).length := by
  have hsub := h.above n hn hne
  have hle := (List.subperm_of_subset (h.nextRow_nodup n) hsub).length_le
  simp only [rowChanged, Bool.or_eq_true, decide_eq_true_eq, List.any_eq_true] at hc
  rcases hc with hlen | ⟨x, hx, hxn⟩
  · omega
  · exact absurd (hsub hx) hxn

end RowsOk

/-- The number of entries of the table. -/
private def entries (nodes : List α) (dom : α → List α) : Nat :=
  (nodes.map (fun n => (dom n).length)).sum

/-- Shrinking one listed row shrinks the table. -/
private theorem entries_update_lt (nodes : List α) {dom : α → List α} {n : α} {row : List α}
    (hlt : row.length < (dom n).length) :
    entries nodes (Function.update dom n row) ≤ entries nodes dom ∧
      (n ∈ nodes → entries nodes (Function.update dom n row) < entries nodes dom) := by
  unfold entries
  induction nodes with
  | nil => exact ⟨Nat.le_refl _, fun h => nomatch h⟩
  | cons m ms ih =>
    obtain ⟨ihle, ihlt⟩ := ih
    simp only [List.map_cons, List.sum_cons]
    by_cases hm : m = n
    · rw [hm, Function.update_self]
      exact ⟨by omega, fun _ => by omega⟩
    · rw [Function.update_of_ne hm]
      refine ⟨by omega, ?_⟩
      intro hmem
      have := ihlt ((List.mem_cons.mp hmem).resolve_left (Ne.symm hm))
      omega

/-- **One pass.**  It keeps the invariant; if it reports a change the table got smaller, and
    if it reports none it changed nothing and every row it looked at is a fixed point. -/
private theorem domPass_spec {es : List (α × α)} {nodes : List α} {entry : α} :
    ∀ (ns : List α) (dom : α → List α) (ch : Bool), ns ⊆ nodes → RowsOk es nodes entry dom →
      RowsOk es nodes entry (domPass es nodes entry ns (dom, ch)).1 ∧
      entries nodes (domPass es nodes entry ns (dom, ch)).1 ≤ entries nodes dom ∧
      ((domPass es nodes entry ns (dom, ch)).2 = true → ch = true ∨
        entries nodes (domPass es nodes entry ns (dom, ch)).1 < entries nodes dom) ∧
      ((domPass es nodes entry ns (dom, ch)).2 = false →
        (domPass es nodes entry ns (dom, ch)).1 = dom ∧ ch = false ∧
        ∀ n ∈ ns, n ≠ entry → dom n ⊆ nextRow es nodes dom n) := by
  intro ns
  induction ns with
  | nil =>
    intro dom ch _ h
    exact ⟨h, Nat.le_refl _, Or.inl, fun hc => ⟨rfl, hc, fun n hn => nomatch hn⟩⟩
  | cons n ns ih =>
    intro dom ch hsub h
    obtain ⟨hn, hsub'⟩ := List.cons_subset.mp hsub
    rw [domPass]
    by_cases hne : n = entry
    · rw [if_pos hne]
      obtain ⟨h1, h2, h3, h4⟩ := ih dom ch hsub' h
      refine ⟨h1, h2, h3, ?_⟩
      intro hc
      obtain ⟨he, hch, hall⟩ := h4 hc
      refine ⟨he, hch, ?_⟩
      intro m hm hme
      rcases List.mem_cons.mp hm with rfl | hm
      · exact absurd hne hme
      · exact hall m hm hme
    · rw [if_neg hne]
      by_cases hrow : rowChanged (nextRow es nodes dom n) (dom n) = true
      · rw [if_pos hrow]
        have hlt := (entries_update_lt nodes (h.row_shrinks hn hne hrow)).2 hn
        obtain ⟨h1, h2, -, h4⟩ := ih _ true hsub' (h.update_next hn hne)
        refine ⟨h1, by omega, fun _ => Or.inr (by omega), ?_⟩
        intro hc
        exact absurd (h4 hc).2.1 (by decide)
      · rw [if_neg hrow]
        obtain ⟨h1, h2, h3, h4⟩ := ih dom ch hsub' h
        refine ⟨h1, h2, h3, ?_⟩
        intro hc
        obtain ⟨he, hch, hall⟩ := h4 hc
        refine ⟨he, hch, ?_⟩
        intro m hm hme
        rcases List.mem_cons.mp hm with rfl | hm
        · exact h.row_eq_next (Bool.not_eq_true _ ▸ hrow)
        · exact hall m hm hme

/-- The passes reach a fixed point before the fuel runs out. -/
private theorem domLoop_fixed {es : List (α × α)} {nodes : List α} {entry : α} :
    ∀ (fuel : Nat) (dom : α → List α), RowsOk es nodes entry dom → entries nodes dom < fuel →
      RowsOk es nodes entry (domLoop es nodes entry fuel dom) ∧
      ∀ n ∈ nodes, n ≠ entry → domLoop es nodes entry fuel dom n
        ⊆ nextRow es nodes (domLoop es nodes entry fuel dom) n := by
  intro fuel
  induction fuel with
  | zero => intro dom _ hlt; omega
  | succ k ih =>
    intro dom h hlt
    obtain ⟨h1, h2, h3, h4⟩ := domPass_spec nodes dom false (List.Subset.refl _) h
    rw [domLoop]
    by_cases hc : (domPass es nodes entry nodes (dom, false)).2 = true
    · rw [if_pos hc]
      refine ih _ h1 ?_
      rcases h3 hc with hf | hlt'
      · exact absurd hf (by decide)
      · omega
    · rw [if_neg hc]
      obtain ⟨he, -, hall⟩ := h4 (Bool.not_eq_true _ ▸ hc)
      rw [he]
      exact ⟨h, hall⟩

theorem initialRows_ok {es : List (α × α)} {nodes : List α} {entry : α} (hnd : nodes.Nodup)
    (hentry : entry ∈ nodes) : RowsOk es nodes entry (initialRows nodes entry) := by
  have hin : ∀ p ∈ nodes, initialRows nodes entry p ⊆ nodes := by
    intro p _ x hx
    by_cases hp : p = entry
    · rw [initialRows, if_pos hp] at hx
      rw [List.mem_singleton.mp hx]
      exact hentry
    · rwa [initialRows, if_neg hp] at hx
  refine ⟨?_, if_pos rfl, ?_⟩
  · intro n _
    rw [initialRows]
    split
    · exact List.nodup_singleton entry
    · exact hnd
  · intro n hn hne x hx
    rw [initialRows, if_neg hne]
    rcases mem_nextRow.mp hx with rfl | ⟨hps, hall⟩
    · exact hn
    · obtain ⟨p, hp⟩ := List.exists_mem_of_ne_nil _ hps
      exact hin p (mem_preds.mp hp).2 (hall p hp)

/-- The finished table satisfies the invariant and is a fixed point of a pass. -/
theorem computeDominators_fixed {es : List (α × α)} {nodes : List α} {entry : α}
    (hnd : nodes.Nodup) (hentry : entry ∈ nodes) :
    RowsOk es nodes entry (computeDominators entry nodes es) ∧
    ∀ n ∈ nodes, n ≠ entry → computeDominators entry nodes es n
      ⊆ nextRow es nodes (computeDominators entry nodes es) n := by
  refine domLoop_fixed _ _ (initialRows_ok hnd hentry) ?_
  have hrow : ∀ n ∈ nodes, (initialRows nodes entry n).length ≤ nodes.length := by
    intro n _
    rw [initialRows]
    split
    · exact List.length_pos_of_mem hentry
    · exact Nat.le_refl _
  have hsum : entries nodes (initialRows nodes entry) ≤ nodes.length * nodes.length := by
    have := List.sum_le_card_nsmul (nodes.map (fun n => (initialRows nodes entry n).length))
      nodes.length (by
        intro x hx
        obtain ⟨n, hn, rfl⟩ := List.mem_map.mp hx
        exact hrow n hn)
    rw [List.length_map, smul_eq_mul] at this
    exact this
  omega

/-- The entry is dominated by itself alone. -/
theorem computeDominators_entry {es : List (α × α)} {nodes : List α} {entry : α}
    (hnd : nodes.Nodup) (hentry : entry ∈ nodes) :
    computeDominators entry nodes es entry = [entry] :=
  (computeDominators_fixed hnd hentry).1.atEntry

/-- **Dominators across an edge**: a dominator of the target is the target or dominates the
    source. -/
theorem computeDominators_edge {es : List (α × α)} {nodes : List α} {entry u v d : α}
    (hnd : nodes.Nodup) (hentry : entry ∈ nodes) (hu : u ∈ nodes) (hv : v ∈ nodes)
    (huv : (u, v) ∈ es) (hd : d ∈ computeDominators entry nodes es v) :
    d = v ∨ d ∈ computeDominators entry nodes es u := by
  by_cases hve : v = entry
  · left
    rw [hve, computeDominators_entry hnd hentry] at hd
    rw [hve]
    exact List.mem_singleton.mp hd
  · have hfix := (computeDominators_fixed hnd hentry).2 v hv hve hd
    rcases mem_nextRow.mp hfix with h | ⟨-, hall⟩
    · exact Or.inl h
    · exact Or.inr (hall u (mem_preds.mpr ⟨huv, hu⟩))

/-! ## The worklist marks a node once -/

theorem visit_nodup : ∀ (l seen stack : List α), seen.Nodup → (visit seen stack l).1.Nodup := by
  intro l
  induction l with
  | nil => intro seen stack h; exact h
  | cons hd tl ih =>
    intro seen stack h
    rw [visit]
    by_cases hs : hd ∈ seen
    · rw [if_pos hs]
      exact ih seen stack h
    · rw [if_neg hs]
      refine ih _ _ ?_
      rw [List.nodup_append]
      refine ⟨h, List.nodup_singleton hd, ?_⟩
      intro a ha b hb hab
      rw [List.mem_singleton.mp hb] at hab
      exact hs (hab ▸ ha)

theorem worklist_nodup {es : List (α × α)} :
    ∀ (fuel : Nat) (seen stack : List α), seen.Nodup → seen ⊆ worklist es fuel seen stack ∧
      (worklist es fuel seen stack).Nodup := by
  intro fuel
  induction fuel with
  | zero => intro seen stack h; exact ⟨List.Subset.refl _, h⟩
  | succ n ih =>
    intro seen stack h
    cases stack with
    | nil => exact ⟨List.Subset.refl _, h⟩
    | cons cur rest =>
      obtain ⟨h1, h2⟩ := ih (visit seen rest (succs es cur)).1
        (visit seen rest (succs es cur)).2 (visit_nodup _ _ _ h)
      refine ⟨?_, h2⟩
      intro x hx
      exact h1 (visit_mem.1.mpr (Or.inl hx))

theorem reachableFrom_nodup (es : List (α × α)) (fuel : Nat) (entry : α) :
    (reachableFrom es fuel entry).Nodup :=
  (worklist_nodup fuel [entry] [entry] (List.nodup_singleton entry)).2

theorem entry_mem_reachableFrom (es : List (α × α)) (fuel : Nat) (entry : α) :
    entry ∈ reachableFrom es fuel entry :=
  (worklist_nodup fuel [entry] [entry] (List.nodup_singleton entry)).1 List.mem_cons_self

end GraphSearch
