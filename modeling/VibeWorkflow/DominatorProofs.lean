import VibeWorkflow.ValidatorProofs

/-!
# What the dominator table holds

The table starts with every row full, but for the entry's, and is worked over until a pass changes nothing.
Its graph is the one without loop edges, its rows are those of the steps reachable over all edges: a step
that only loop edges reach has a row too, and stands among the predecessors of others.

* `Settles` — the passes up to the first one that changes nothing, as a relation: it has no fuel;
* `Route` — a path from the entry with its nodes;
* **`dominators_exact`** — the passes end, a row's members are on every route to its node, and the rows are
  exactly that when each node has a route.
-/

namespace VibeValidator

open VibeJson GraphSearch

variable {α : Type}

/-- A path from the entry, as the list of its nodes. -/
inductive Route (es : List (α × α)) (entry : α) : List α → α → Prop where
  | start : Route es entry [entry] entry
  | step {p u v} : Route es entry p u → (u, v) ∈ es → Route es entry (p ++ [v]) v

/-- The node is on every path from the entry to `n`. -/
def OnEveryRoute (es : List (α × α)) (entry n d : α) : Prop := ∀ p, Route es entry p n → d ∈ p

variable {es : List (α × α)} {nodes : List α} {entry : α}

theorem Route.of_path {n : α} (h : Path es entry n) : ∃ p, Route es entry p n := by
  induction h with
  | refl => exact ⟨[entry], .start⟩
  | tail _ hedge ih =>
    obtain ⟨p, hp⟩ := ih
    exact ⟨_, hp.step hedge⟩

/-- A route leads through the set that holds the entry and is closed under edges. -/
theorem Route.within {p : List α} {n : α} (hentry : entry ∈ nodes) (hclosed : ∀ u v, u ∈ nodes →
    (u, v) ∈ es → v ∈ nodes)
    (h : Route es entry p n) : n ∈ nodes ∧ ∀ x ∈ p, x ∈ nodes := by
  induction h with
  | start => exact ⟨hentry, fun x hx => List.mem_singleton.mp hx ▸ hentry⟩
  | step _ hedge ih =>
    have hv := hclosed _ _ ih.1 hedge
    refine ⟨hv, fun x hx => ?_⟩
    rcases List.mem_append.mp hx with hx | hx
    · exact ih.2 x hx
    · exact List.mem_singleton.mp hx ▸ hv

/-- A node on every route to the target is the target or on every route to the source. -/
theorem OnEveryRoute.edge {u v d : α} (h : OnEveryRoute es entry v d) (hedge : (u, v) ∈ es) :
    d = v ∨ OnEveryRoute es entry u d := by
  by_cases hd : d = v
  · exact .inl hd
  · refine .inr fun p hp => ?_
    rcases List.mem_append.mp (h _ (hp.step hedge)) with hmem | hmem
    · exact hmem
    · exact absurd (List.mem_singleton.mp hmem) hd

variable [DecidableEq α]

/-! ## The passes end -/

/-- The loop of `computeDominators`: another pass as long as the last one changed a row. -/
inductive Settles (es : List (α × α)) (nodes : List α) (entry : α) : (α → List α) → (α → List α) → Prop where
  | done {dom} : (domPass es nodes entry nodes (dom, false)).2 = false →
      Settles es nodes entry dom (domPass es nodes entry nodes (dom, false)).1
  | again {dom final} : (domPass es nodes entry nodes (dom, false)).2 = true →
      Settles es nodes entry (domPass es nodes entry nodes (dom, false)).1 final → Settles es nodes entry dom final

/-- A pass over rows that are what it computes reports no change and makes none. -/
theorem domPass_same {dom : α → List α} (hok : RowsOk es nodes entry dom)
    (hfixed : ∀ n ∈ nodes, n ≠ entry → dom n ⊆ nextRow es nodes dom n) {ns : List α} (hns : ns ⊆ nodes) (ch : Bool) :
    domPass es nodes entry ns (dom, ch) = (dom, ch) := by
  induction ns with
  | nil => rfl
  | cons n ns ih =>
    obtain ⟨hn, hrest⟩ := List.cons_subset.mp hns
    rw [domPass]
    by_cases hne : n = entry
    · rw [if_pos hne]
      exact ih hrest
    · have hup := hfixed n hn hne
      have hdown := hok.above n hn hne
      have hlen : (nextRow es nodes dom n).length = (dom n).length :=
        Nat.le_antisymm (List.subperm_of_subset (hok.nextRow_nodup n) hdown).length_le
          (List.subperm_of_subset (hok.nodup n hn) hup).length_le
      have hsame : rowChanged (nextRow es nodes dom n) (dom n) = false := by
        unfold rowChanged
        rw [decide_eq_false (not_not.mpr hlen), Bool.false_or]
        exact List.any_eq_false.mpr fun x hx => by
          rw [decide_eq_true_eq, not_not]
          exact hdown hx
      rw [if_neg hne]
      dsimp only
      rw [hsame, if_neg Bool.false_ne_true]
      exact ih hrest

/-- What the fuel leaves is where the passes end, when a further pass would change nothing. -/
theorem domLoop_settles {fuel : Nat} {dom : α → List α}
    (h : domPass es nodes entry nodes (domLoop es nodes entry fuel dom, false) =
      (domLoop es nodes entry fuel dom, false)) :
    Settles es nodes entry dom (domLoop es nodes entry fuel dom) := by
  induction fuel generalizing dom with
  | zero =>
    have hdom : domPass es nodes entry nodes (dom, false) = (dom, false) := h
    have hdone := Settles.done (congrArg Prod.snd hdom)
    rwa [hdom] at hdone
  | succ fuel ih =>
    rw [domLoop] at h ⊢
    cases hch : (domPass es nodes entry nodes (dom, false)).2 with
    | true =>
      rw [hch, if_pos rfl] at h
      rw [if_pos rfl]
      exact .again hch (ih h)
    | false =>
      rw [if_neg Bool.false_ne_true]
      exact .done hch

/-- **The loop terminates** with the table. -/
theorem dominators_settle (hnd : nodes.Nodup) (hentry : entry ∈ nodes) :
    Settles es nodes entry (initialRows nodes entry) (computeDominators entry nodes es) := by
  obtain ⟨hok, hfixed⟩ := @computeDominators_fixed _ _ es nodes entry hnd hentry
  exact domLoop_settles (domPass_same hok hfixed (List.Subset.refl nodes) false)

/-! ## Every member is on every route -/

theorem dominators_sound (hnd : nodes.Nodup) (hentry : entry ∈ nodes)
    (hclosed : ∀ u v, u ∈ nodes → (u, v) ∈ es → v ∈ nodes) {p : List α} {n d : α} (hp : Route es entry p n)
    (hd : d ∈ computeDominators entry nodes es n) : d ∈ p := by
  induction hp with
  | start =>
    rw [computeDominators_entry hnd hentry] at hd
    exact hd
  | step hroute hedge ih =>
    have hu := (hroute.within hentry hclosed).1
    rcases computeDominators_edge hnd hentry hu (hclosed _ _ hu hedge) hedge hd with rfl | hd
    · exact List.mem_append_right _ (List.mem_singleton.mpr rfl)
    · exact List.mem_append_left _ (ih hd)

/-! ## Everything on every route is a member -/

/-- The rows that no pass may fall below. -/
def Above (es : List (α × α)) (nodes : List α) (entry : α) (dom : α → List α) : Prop :=
  ∀ n ∈ nodes, ∀ d, OnEveryRoute es entry n d → d ∈ dom n

/-- The computed row of a node that has a route stays above. -/
theorem above_nextRow (hroutes : ∀ n ∈ nodes, Path es entry n) {dom : α → List α} (h : Above es nodes entry dom) {n : α}
    (hn : n ∈ nodes) (hne : n ≠ entry) {d : α} (hd : OnEveryRoute es entry n d)
    (hentry : entry ∈ nodes) (hclosed : ∀ u v, u ∈ nodes → (u, v) ∈ es → v ∈ nodes) : d ∈ nextRow es nodes dom n := by
  rw [mem_nextRow]
  by_cases hself : d = n
  · exact .inl hself
  · refine .inr ⟨?_, fun p hp => ?_⟩
    · -- the last edge of a route to the node comes from a predecessor in the table
      obtain ⟨p, hp⟩ := Route.of_path (hroutes n hn)
      cases hp with
      | start => exact absurd rfl hne
      | step hroute hedge =>
        exact List.ne_nil_of_mem (mem_preds.mpr ⟨hedge, (hroute.within hentry hclosed).1⟩)
    · obtain ⟨hedge, hpn⟩ := mem_preds.mp hp
      exact h p hpn d ((hd.edge hedge).resolve_left hself)

theorem above_pass (hroutes : ∀ n ∈ nodes, Path es entry n) (hentry : entry ∈ nodes)
    (hclosed : ∀ u v, u ∈ nodes → (u, v) ∈ es → v ∈ nodes) {ns : List α} (hns : ns ⊆ nodes)
    {dom : α → List α} (ch : Bool)
    (h : Above es nodes entry dom) : Above es nodes entry (domPass es nodes entry ns (dom, ch)).1 := by
  induction ns generalizing dom ch with
  | nil => exact h
  | cons n ns ih =>
    obtain ⟨hn, hrest⟩ := List.cons_subset.mp hns
    rw [domPass]
    by_cases hne : n = entry
    · rw [if_pos hne]
      exact ih hrest ch h
    · rw [if_neg hne]
      dsimp only
      split
      · refine ih hrest true fun m hm d hd => ?_
        by_cases hmn : m = n
        · subst hmn
          rw [Function.update_self]
          exact above_nextRow hroutes h hm hne hd hentry hclosed
        · rw [Function.update_of_ne hmn]
          exact h m hm d hd
      · exact ih hrest ch h

theorem above_loop (hroutes : ∀ n ∈ nodes, Path es entry n) (hentry : entry ∈ nodes)
    (hclosed : ∀ u v, u ∈ nodes → (u, v) ∈ es → v ∈ nodes) {fuel : Nat} {dom : α → List α}
    (h : Above es nodes entry dom) :
    Above es nodes entry (domLoop es nodes entry fuel dom) := by
  induction fuel generalizing dom with
  | zero => exact h
  | succ fuel ih =>
    have hpass := above_pass hroutes hentry hclosed (List.Subset.refl nodes) false h
    rw [domLoop]
    split
    · exact ih hpass
    · exact hpass

theorem above_initial (hroutes : ∀ n ∈ nodes, Path es entry n) (hentry : entry ∈ nodes)
    (hclosed : ∀ u v, u ∈ nodes → (u, v) ∈ es → v ∈ nodes) : Above es nodes entry (initialRows nodes entry) := by
  intro n hn d hd
  unfold initialRows
  by_cases hne : n = entry
  · rw [if_pos hne]
    subst hne
    exact hd _ .start
  · rw [if_neg hne]
    obtain ⟨p, hp⟩ := Route.of_path (hroutes n hn)
    exact (hp.within hentry hclosed).2 d (hd p hp)

/-- **The dominator table.**  Over the nodes that all edges reach, the passes along the edges that are no loops end; each
    member of a row is on every path of such edges to its node; and when such edges reach every node of the table, each
    row is exactly the set of the nodes on every path. -/
theorem dominators_exact (all normal : List (α × α)) (hsub : normal ⊆ all) (entry : α) (reachable : List α)
    (hnd : reachable.Nodup) (hreachable : ∀ x, x ∈ reachable ↔ Path all entry x) :
    Settles normal reachable entry (initialRows reachable entry) (computeDominators entry reachable normal) ∧
    (∀ n, Path normal entry n → ∀ d ∈ computeDominators entry reachable normal n, OnEveryRoute normal entry n d) ∧
    ((∀ m ∈ reachable, Path normal entry m) → ∀ n, Path normal entry n →
      ∀ d, d ∈ computeDominators entry reachable normal n ↔ OnEveryRoute normal entry n d) := by
  have hentry : entry ∈ reachable := (hreachable entry).mpr .refl
  have hclosed : ∀ u v, u ∈ reachable → (u, v) ∈ normal → v ∈ reachable := fun u v hu hedge =>
    (hreachable v).mpr (((hreachable u).mp hu).tail (hsub hedge))
  have hsound : ∀ n d, d ∈ computeDominators entry reachable normal n → OnEveryRoute normal entry n d :=
    fun n d hd p hp => dominators_sound hnd hentry hclosed hp hd
  refine ⟨dominators_settle hnd hentry, fun n _ d hd => hsound n d hd, fun hroutes n hn d => ⟨hsound n d, fun hd => ?_⟩⟩
  obtain ⟨p, hp⟩ := Route.of_path hn
  exact above_loop hroutes hentry hclosed (above_initial hroutes hentry hclosed) n (hp.within hentry hclosed).1 d hd

/-- A plan that a review sends back: the step that repairs is reached by a loop edge alone, and leads into the plan. -/
def reviewEdges : List (String × String) := [("plan", "work"), ("work", "review"), ("review", "repair"), ("repair", "work")]

/-- A row of a table with a step that only a loop edge reaches. -/
theorem review_dominators :
    "work" ∈ computeDominators "plan" ["plan", "work", "review", "repair"] [("plan", "work"), ("work", "review"), ("repair", "work")]
      "review" ∧ OnEveryRoute [("plan", "work"), ("work", "review"), ("repair", "work")] "plan" "review" "work" := by
  have hreachable : ∀ x, x ∈ ["plan", "work", "review", "repair"] ↔ Path reviewEdges "plan" x := by
    have hwork : Path reviewEdges "plan" "work" := .single (.head _)
    have hreview : Path reviewEdges "plan" "review" := hwork.tail (.tail _ (.head _))
    have hrepair : Path reviewEdges "plan" "repair" := hreview.tail (.tail _ (.tail _ (.head _)))
    intro x
    constructor
    · intro hx
      simp only [List.mem_cons, List.not_mem_nil, or_false] at hx
      rcases hx with rfl | rfl | rfl | rfl
      · exact .refl
      · exact hwork
      · exact hreview
      · exact hrepair
    · intro hx
      induction hx with
      | refl => exact .head _
      | tail _ hedge _ =>
        have htargets : ∀ e ∈ reviewEdges, e.2 ∈ ["plan", "work", "review", "repair"] := by decide
        exact htargets _ hedge
  have hnormal : [("plan", "work"), ("work", "review"), ("repair", "work")] ⊆ reviewEdges := by decide
  have hpath : Path [("plan", "work"), ("work", "review"), ("repair", "work")] "plan" "review" :=
    Relation.ReflTransGen.tail (.single (.head _)) (.tail _ (.head _))
  have hrow : "work" ∈ computeDominators "plan" ["plan", "work", "review", "repair"]
      [("plan", "work"), ("work", "review"), ("repair", "work")] "review" := by decide
  exact ⟨hrow, (dominators_exact reviewEdges _ hnormal "plan" _ (by decide) hreachable).2.1 "review" hpath "work" hrow⟩

end VibeValidator
