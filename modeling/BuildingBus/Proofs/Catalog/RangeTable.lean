import BuildingBus.Proofs.Catalog.Hierarchy
import BuildingBus.Proofs.Catalog.Index

/-!
# Tables of ranges

Branches can be put together in one table, where a range has a position and refers to the ranges in
it by theirs. A range is found by its name among those in the range around it, or is put at the end
of the table; so it stands after the range around it, and the table carries that in `ascending`.
When all groups are placed, the spans are filled in by one sweep from the last range to the first.

Which range stands where is said by the paths of the positions: a table *shows* groups when its
positions have the paths that are mentioned, one position for each, and the range at a path has the
groups with that path and refers to the names that paths go on with (`RangeTable.Shows`). One step
along a path keeps this, whether the range is there or not (`RangeTable.Shows.child`), and so does
placing a group (`RangeTable.Shows.place`). A table that shows groups holds their branches
(`RangeTable.Shows.holds`), and after the sweep each range has the span of its branch
(`RangeTable.span?_build`).
-/

namespace BuildingBus.Catalog

/-! ## Tables -/

/-- A range in a table. It refers to the ranges in it by their positions, so that the table is flat.
-/
structure RangeNode where
  /-- the name of the range -/
  name : String
  /-- the groups whose path ends there -/
  groups : List Group := []
  /-- the positions of the ranges in it, in order -/
  children : List Nat := []
  /-- the positions of the ranges in it by name -/
  index : Index String := {}
  /-- the least and the greatest address in it -/
  span : Option (Nat × Nat) := none

namespace RangeNode

/-- A range with one more group. -/
def withGroup (g : Group) (n : RangeNode) : RangeNode := { n with groups := n.groups ++ [g] }

theorem children_withGroup (g : Group) (n : RangeNode) :
    (n.withGroup g).children = n.children := rfl

/-- A range with one more range in it. -/
def withChild (name : String) (position : Nat) (n : RangeNode) : RangeNode :=
  { n with children := n.children ++ [position], index := n.index.insert name position }

/-- A range without its span. -/
def bare (n : RangeNode) : RangeNode := { n with span := none }

end RangeNode

/-- Ranges by position. The first one stands for the whole, and has no name. A range always stands
behind the one that it is in, which is what a sweep from the end relies on. -/
structure RangeTable where
  /-- the ranges -/
  nodes : List RangeNode
  /-- a range stands before those in it -/
  ascending : ∀ (i : Nat) (node : RangeNode), nodes[i]? = some node → ∀ c ∈ node.children, i < c

namespace RangeTable

/-- The table with one range changed, but not in what it refers to. -/
def update (t : RangeTable) (i : Nat) (f : RangeNode → RangeNode)
    (hf : ∀ n, (f n).children = n.children) : RangeTable where
  nodes := t.nodes.modify i f
  ascending := by
    intro j node hj c hc
    rw [List.getElem?_modify] at hj
    obtain ⟨n, hn, rfl⟩ := Option.map_eq_some_iff.mp hj
    refine t.ascending j n hn c ?_
    split at hc
    · exact hf n ▸ hc
    · exact hc

theorem getElem?_update (t : RangeTable) (i : Nat) (f : RangeNode → RangeNode)
    (hf : ∀ n, (f n).children = n.children) (j : Nat) :
    (t.update i f hf).nodes[j]? = (t.nodes[j]?).map fun n => if i = j then f n else n :=
  List.getElem?_modify ..

/-- The table without any group. -/
def start : RangeTable where
  nodes := [{ name := "" }]
  ascending := by
    intro i node hi c hc
    obtain rfl := List.mem_singleton.mp (List.mem_of_getElem? hi)
    exact absurd hc List.not_mem_nil

/-- The table with a new range in the one at a position. -/
def addChild (t : RangeTable) (parent : Nat) (name : String) : RangeTable where
  nodes := t.nodes.modify parent (.withChild name t.nodes.length) ++ [{ name }]
  ascending := by
    intro i node hi c hc
    rcases Index.getElem?_concat_eq_some_iff.mp hi with hi | ⟨-, rfl⟩
    · rw [List.getElem?_modify] at hi
      obtain ⟨n, hn, rfl⟩ := Option.map_eq_some_iff.mp hi
      split at hc
      · rcases List.mem_append.mp hc with hc | hc
        · exact t.ascending i n hn c hc
        · rw [List.mem_singleton.mp hc]
          exact (List.getElem?_eq_some_iff.mp hn).1
      · exact t.ascending i n hn c hc
    · exact absurd hc List.not_mem_nil

/-- The position of the range with a name in the one at a position, and the table with that range,
which is put at the end if there is none. -/
def child (t : RangeTable) (parent : Nat) (name : String) : RangeTable × Nat :=
  match (t.nodes[parent]?).bind (·.index.get? name) with
  | some position => (t, position)
  | none => (t.addChild parent name, t.nodes.length)

/-- The position where a path leads to from the range at a position, and the table with the ranges
along that path, those that were missing put at its end. -/
def descend (t : RangeTable) (position : Nat) : List String → RangeTable × Nat
  | [] => (t, position)
  | name :: path => (t.child position name).1.descend (t.child position name).2 path

/-- The table with a group in the range where its path leads to. The group is put behind those that
are there. -/
def place (t : RangeTable) (g : Group) : RangeTable :=
  (t.descend 0 g.path).1.update (t.descend 0 g.path).2 (.withGroup g)
    (RangeNode.children_withGroup g)

/-! ### Spans -/

/-- The span of the range at a position. -/
def span? (t : RangeTable) (i : Nat) : Option (Nat × Nat) := (t.nodes[i]?).bind (·.span)

/-- The positions of the ranges in a range that have a span. A range without one would not be
written at all. -/
def visible (t : RangeTable) (node : RangeNode) : List Nat :=
  node.children.filter fun c => (t.span? c).isSome

/-- A span with one more number. -/
def merge : Option (Nat × Nat) → Nat → Option (Nat × Nat)
  | some (first, last), a => some (min first a, max last a)
  | none, a => some (a, a)

/-- A span with those of another one. -/
def mergeSpan (s : Option (Nat × Nat)) : Option (Nat × Nat) → Option (Nat × Nat)
  | some (first, last) => merge (merge s first) last
  | none => s

/-- The span of a range, from its own groups and the spans of the ranges in it. The latter have to
be there already. -/
def spanOf (t : RangeTable) (node : RangeNode) : Option (Nat × Nat) :=
  node.children.foldl (fun s c => mergeSpan s (t.span? c))
    (node.groups.foldl (fun s g => merge s g.address.raw.toNat) none)

/-- The table with the span of one range filled in. -/
def settle (t : RangeTable) (i : Nat) : RangeTable :=
  t.update i (fun node => { node with span := t.spanOf node }) fun _ => rfl

/-- The table with the spans filled in of all ranges before a position, the last one first. A range
comes before those in it, so that their spans are known when they are needed. -/
def sweep (t : RangeTable) : Nat → RangeTable
  | 0 => t
  | i + 1 => (t.settle i).sweep i

/-- The table with all groups placed, before the sweep. -/
def placeAll (gs : List Group) : RangeTable := gs.foldl place start

/-- The table of a list of groups. -/
def build (gs : List Group) : RangeTable := (placeAll gs).sweep (placeAll gs).nodes.length

end RangeTable

/-! ## Paths of positions -/

variable {gs : List Group} {g : Group} {ps qs : List (List String)} {p q : List String}
  {name : String} {t u : RangeTable} {i : Nat} {node : RangeNode}

/-- One more name at the end of a path is mentioned where the path ends. -/
theorem nextNames_concat (qs : List (List String)) (p q : List String) (name : String) :
    nextNames (qs ++ [q ++ [name]]) p =
      if p = q ∧ name ∉ nextNames (qs ++ [q]) p then nextNames (qs ++ [q]) p ++ [name]
      else nextNames (qs ++ [q]) p := by
  by_cases hp : p = q
  · subst hp
    have hq : nextNames (qs ++ [p]) p = nextNames qs p := by
      refine nextNames_concat_of_none fun next h => ?_
      have hl := h.length_le
      rw [List.length_append, List.length_singleton] at hl
      omega
    rw [nextNames_concat_of_next (List.prefix_refl _), hq]
    by_cases hn : name ∈ nextNames qs p <;> simp [hn]
  · rw [if_neg fun h => hp h.1]
    -- paths with and without the name go on alike elsewhere
    have hnext : nextName? p (q ++ [name]) = nextName? p q := by
      refine Option.ext fun next => ?_
      rw [nextName?_eq_some_iff, nextName?_eq_some_iff, List.prefix_concat_iff]
      refine or_iff_right fun h => hp ?_
      exact (List.append_inj' h rfl).1
    simp only [nextNames, List.filterMap_append, List.filterMap_cons, hnext]

/-- The range at a position with a path, in a table whose positions have the paths `ps`, when the
paths `qs` are mentioned and the groups `gs` are placed. -/
structure RangeNode.Shows (ps qs : List (List String)) (gs : List Group) (p : List String)
    (node : RangeNode) : Prop where
  /-- its name is the last one of the path -/
  name : node.name = p.getLast?.getD ""
  /-- its groups are those with the path -/
  groups : node.groups = gs.filter (·.path = p)
  /-- its index has the positions of the paths with one more name -/
  index : ∀ name i, node.index.get? name = some i ↔ ps[i]? = some (p ++ [name])
  /-- it refers to the names that paths go on with -/
  children : List.Forall₂ (fun c name => ps[c]? = some (p ++ [name])) node.children (nextNames qs p)

/-- A table whose positions have the paths `ps`, when the paths `qs` are mentioned and the groups
`gs` are placed. It is the invariant of placing: positions and paths are the same thing, and what
refers to a position says so by its path. -/
structure RangeTable.Shows (t : RangeTable) (ps qs : List (List String)) (gs : List Group) :
    Prop where
  /-- each position has a path -/
  length : ps.length = t.nodes.length
  /-- no two positions have one path -/
  nodup : ps.Nodup
  /-- the first one has the empty path -/
  first : ps[0]? = some []
  /-- the other paths are the beginnings of those that are mentioned -/
  mem_iff : ∀ p, p ∈ ps ↔ p = [] ∨ ∃ q ∈ qs, p <+: q
  /-- each group has a place -/
  placed : ∀ g ∈ gs, g.path ∈ ps
  /-- the range at each position shows what belongs there -/
  node : ∀ (i : Nat) (p : List String) (node : RangeNode), ps[i]? = some p →
    t.nodes[i]? = some node → node.Shows ps qs gs p

namespace RangeTable

theorem shows_start : start.Shows [[]] [] [] where
  length := rfl
  nodup := List.nodup_singleton _
  first := rfl
  mem_iff := by simp
  placed := nofun
  node := by
    intro i p node hi hn
    obtain rfl := List.mem_singleton.mp (List.mem_of_getElem? hi)
    obtain rfl := List.mem_singleton.mp (List.mem_of_getElem? hn)
    refine ⟨rfl, rfl, fun name i => ?_, .nil⟩
    refine iff_of_false (by simp) fun h => ?_
    exact List.cons_ne_nil _ _ (List.mem_singleton.mp (List.mem_of_getElem? h))

namespace Shows

theorem exists_node (h : t.Shows ps qs gs) (hi : ps[i]? = some p) :
    ∃ node, t.nodes[i]? = some node :=
  ⟨_, List.getElem?_eq_getElem (h.length ▸ (List.getElem?_eq_some_iff.mp hi).1)⟩

/-- No path has two positions, so that a position may be named by its path. -/
theorem position_unique (h : t.Shows ps qs gs) {j : Nat} (hi : ps[i]? = some p)
    (hj : ps[j]? = some p) : i = j :=
  (List.getElem?_inj (List.getElem?_eq_some_iff.mp hi).1 h.nodup).mp (hi.trans hj.symm)

/-- A path is mentioned below another one if it has a position. -/
theorem mem_nextNames_iff (h : t.Shows ps qs gs) : name ∈ nextNames qs p ↔ p ++ [name] ∈ ps := by
  rw [Catalog.mem_nextNames_iff, h.mem_iff, or_iff_right]
  exact List.concat_ne_nil _ _

/-- The beginnings of a path with a position have positions: no range stands in one that is not in
the table. -/
theorem mem_front (h : t.Shows ps qs gs) (hq : q ∈ ps) (hp : p <+: q) : p ∈ ps := by
  rw [h.mem_iff] at hq ⊢
  rcases hq with rfl | ⟨r, hr, hqr⟩
  · exact .inl (List.prefix_nil.mp hp)
  · exact .inr ⟨r, hr, hp.trans hqr⟩

/-- The empty path mentions nothing. From it, as from the end of any path that was just mentioned,
the steps along a new path begin. -/
theorem mention_nil (h : t.Shows ps qs gs) : t.Shows ps (qs ++ [[]]) gs where
  __ := h
  mem_iff := by
    intro p
    rw [h.mem_iff]
    simp only [List.mem_append, List.mem_singleton]
    constructor
    · exact Or.imp_right fun ⟨q, hq, hp⟩ => ⟨q, .inl hq, hp⟩
    · rintro (hp | ⟨q, hq | rfl, hp⟩)
      · exact .inl hp
      · exact .inr ⟨q, hq, hp⟩
      · exact .inl (List.prefix_nil.mp hp)
  node := by
    intro i p node hi hn
    have hnode := h.node i p node hi hn
    refine { hnode with children := ?_ }
    rw [nextNames_concat_of_none fun name hp => ?_]
    · exact hnode.children
    · exact List.concat_ne_nil _ _ (List.prefix_nil.mp hp)

/-! ### One step along a path -/

/-- The beginnings of a path with one more name are those that have positions, and the new path
itself. -/
theorem mem_concat_iff (h : t.Shows ps (qs ++ [q]) gs) (name : String) (p : List String) :
    (p = [] ∨ ∃ r ∈ qs ++ [q ++ [name]], p <+: r) ↔ p ∈ ps ∨ p = q ++ [name] := by
  rw [h.mem_iff]
  simp only [List.mem_append, List.mem_singleton, or_and_right, exists_or, exists_eq_left,
    List.prefix_concat_iff]
  rw [or_comm (a := p = q ++ [name]), or_assoc, or_assoc]

/-- A step to a range that is there: the table stays, and the longer path is mentioned in place of
the shorter one. -/
theorem step_mem (h : t.Shows ps (qs ++ [q]) gs) (hmem : q ++ [name] ∈ ps) :
    t.Shows ps (qs ++ [q ++ [name]]) gs where
  __ := h
  mem_iff := by
    intro p
    rw [h.mem_concat_iff]
    exact ⟨.inl, fun hp => hp.elim id fun hp => hp ▸ hmem⟩
  node := by
    intro i p node hi hn
    have hnode := h.node i p node hi hn
    refine { hnode with children := ?_ }
    rw [nextNames_concat, if_neg]
    · exact hnode.children
    · rintro ⟨rfl, hnew⟩
      exact hnew (h.mem_nextNames_iff.mpr hmem)

/-- Where paths stand that go on from another one, with one more path at the end. -/
theorem getElem?_concat_iff (h : t.Shows ps (qs ++ [q]) gs) {p : List String} {next : String}
    {k : Nat} :
    (ps ++ [q ++ [name]])[k]? = some (p ++ [next]) ↔
      ps[k]? = some (p ++ [next]) ∨ k = t.nodes.length ∧ p = q ∧ next = name := by
  rw [Index.getElem?_concat_eq_some_iff, h.length]
  refine or_congr_right (and_congr_right fun _ => ⟨fun he => ?_, fun ⟨hp, hn⟩ => hp ▸ hn ▸ rfl⟩)
  obtain ⟨hp, hn⟩ := List.append_inj' he rfl
  exact ⟨hp.symm, (List.cons.inj hn).1.symm⟩

/-- A range elsewhere is not touched when a new one is added, and shows what it did: no path that
goes through it is mentioned anew. -/
theorem shows_of_ne (h : t.Shows ps (qs ++ [q]) gs) (hn : node.Shows ps (qs ++ [q]) gs p)
    (hp : p ≠ q) :
    node.Shows (ps ++ [q ++ [name]]) (qs ++ [q ++ [name]]) gs p where
  name := hn.name
  groups := hn.groups
  index := by
    intro next k
    rw [h.getElem?_concat_iff, hn.index]
    exact (or_iff_left fun hlast => hp hlast.2.1).symm
  children := by
    rw [nextNames_concat, if_neg fun hq => hp hq.1]
    exact hn.children.imp fun c next hc => h.getElem?_concat_iff.mpr (.inl hc)

section

variable (h : t.Shows ps (qs ++ [q]) gs) (hnew : q ++ [name] ∉ ps)

include h hnew

/-- The range that a new one stands in shows it as its last, as its name was mentioned after the
names of the others. -/
theorem shows_withChild (hn : node.Shows ps (qs ++ [q]) gs q) :
    (node.withChild name t.nodes.length).Shows (ps ++ [q ++ [name]]) (qs ++ [q ++ [name]]) gs
      q where
  name := hn.name
  groups := hn.groups
  index := by
    intro next k
    rw [h.getElem?_concat_iff]
    by_cases he : next = name
    · subst he
      have hold : ps[k]? ≠ some (q ++ [next]) := fun hk => hnew (List.mem_of_getElem? hk)
      simp [RangeNode.withChild, hold, eq_comm]
    · rw [RangeNode.withChild, Index.get?_insert_of_ne _ _ he, hn.index]
      exact (or_iff_left fun hlast => he hlast.2.2).symm
  children := by
    rw [nextNames_concat, if_pos ⟨rfl, fun hm => hnew (h.mem_nextNames_iff.mp hm)⟩]
    refine List.rel_append (hn.children.imp fun c next hc => ?_) (.cons ?_ .nil)
    · exact h.getElem?_concat_iff.mpr (.inl hc)
    · exact h.getElem?_concat_iff.mpr (.inr ⟨rfl, rfl, rfl⟩)

/-- The new range shows nothing yet, since no path goes on from it and no group has its path. -/
theorem shows_new : RangeNode.Shows (ps ++ [q ++ [name]]) (qs ++ [q ++ [name]]) gs (q ++ [name])
    { name } where
  name := by simp
  groups := by
    symm
    rw [List.filter_eq_nil_iff]
    intro g hg hp
    exact hnew (of_decide_eq_true hp ▸ h.placed g hg)
  index := by
    intro next k
    refine iff_of_false (by simp) fun hk => ?_
    rcases h.getElem?_concat_iff.mp hk with hk | ⟨-, hq, -⟩
    · exact hnew (h.mem_front (List.mem_of_getElem? hk) (List.prefix_append _ _))
    · simp at hq
  children := by
    have hq : q ++ [name] ≠ q := by simp
    have hnil : nextNames (qs ++ [q ++ [name]]) (q ++ [name]) = [] := by
      rw [nextNames_concat, if_neg fun hn => hq hn.1]
      refine List.eq_nil_iff_forall_not_mem.mpr fun next hn => hnew ?_
      exact h.mem_front (h.mem_nextNames_iff.mp hn) (List.prefix_append _ _)
    rw [hnil]
    exact .nil

/-- A step to a range that is put at the end. -/
theorem step_new (hi : ps[i]? = some q) :
    (t.addChild i name).Shows (ps ++ [q ++ [name]]) (qs ++ [q ++ [name]]) gs where
  length := by
    rw [addChild, List.length_append, List.length_append, List.length_modify, h.length]
    rfl
  nodup := by
    rw [← List.concat_eq_append]
    exact h.nodup.concat hnew
  first := by
    rw [List.getElem?_append_left (List.getElem?_eq_some_iff.mp h.first).1]
    exact h.first
  mem_iff := by
    intro p
    rw [h.mem_concat_iff, List.mem_append, List.mem_singleton]
  placed := fun g hg => List.mem_append_left _ (h.placed g hg)
  node := by
    intro j p node hj hnode
    rcases Index.getElem?_concat_eq_some_iff.mp hnode with hnode | ⟨hlen, rfl⟩
    · rw [List.getElem?_modify] at hnode
      obtain ⟨n, hn, rfl⟩ := Option.map_eq_some_iff.mp hnode
      have hlt : j < ps.length := h.length ▸ (List.getElem?_eq_some_iff.mp hn).1
      rw [List.getElem?_append_left hlt] at hj
      have hshows := h.node j p n hj hn
      -- the range that the new one is put in is the one with its path
      split
      case isTrue hij =>
        obtain rfl : q = p := Option.some.inj (hi.symm.trans (hij ▸ hj))
        exact h.shows_withChild hnew hshows
      case isFalse hij =>
        refine h.shows_of_ne hshows fun hpq => hij ?_
        exact h.position_unique hi (hpq ▸ hj)
    · rw [List.length_modify, ← h.length] at hlen
      rw [hlen, List.getElem?_concat_length] at hj
      obtain rfl := Option.some.inj hj
      exact h.shows_new hnew

end

/-- **One step along a path** leads to the range with one more name, whether it is there or not. In
the second case the path of the new position is new as well. -/
theorem child (h : t.Shows ps (qs ++ [q]) gs) (hi : ps[i]? = some q) (name : String) :
    ∃ ps', (t.child i name).1.Shows ps' (qs ++ [q ++ [name]]) gs ∧
      ps'[(t.child i name).2]? = some (q ++ [name]) := by
  obtain ⟨node, hnode⟩ := h.exists_node hi
  have hshows := h.node i q node hi hnode
  unfold RangeTable.child
  rw [hnode, Option.bind_some]
  cases hc : node.index.get? name with
  | some c =>
    have hpos := (hshows.index name c).mp hc
    exact ⟨ps, h.step_mem (List.mem_of_getElem? hpos), hpos⟩
  | none =>
    have hnew : q ++ [name] ∉ ps := by
      intro hmem
      obtain ⟨c, hpos⟩ := List.mem_iff_getElem?.mp hmem
      rw [(hshows.index name c).mpr hpos] at hc
      cases hc
    refine ⟨_, h.step_new hnew hi, ?_⟩
    rw [← h.length]
    exact List.getElem?_concat_length

/-- All steps along a path, by induction on the names that are left. The position at the end is that
of the whole path. -/
theorem descend (h : t.Shows ps (qs ++ [q]) gs) (hi : ps[i]? = some q) (path : List String) :
    ∃ ps', (t.descend i path).1.Shows ps' (qs ++ [q ++ path]) gs ∧
      ps'[(t.descend i path).2]? = some (q ++ path) := by
  induction path generalizing t ps q i with
  | nil =>
    rw [List.append_nil]
    exact ⟨ps, h, hi⟩
  | cons name path ih =>
    obtain ⟨ps', h', hi'⟩ := h.child hi name
    have hpath := ih h' hi'
    rw [List.append_assoc, List.singleton_append] at hpath
    exact hpath

/-! ### Placing groups -/

/-- A group in the range with its path. Only that range has one more group, and it comes after those
that were placed before. -/
theorem withGroup (h : t.Shows ps qs gs) (hi : ps[i]? = some g.path) :
    (t.update i (.withGroup g) (RangeNode.children_withGroup g)).Shows ps qs (gs ++ [g]) where
  length := h.length.trans (List.length_modify ..).symm
  nodup := h.nodup
  first := h.first
  mem_iff := h.mem_iff
  placed := by
    intro o ho
    rcases List.mem_append.mp ho with ho | ho
    · exact h.placed o ho
    · exact List.mem_singleton.mp ho ▸ List.mem_of_getElem? hi
  node := by
    intro j p node hj hnode
    rw [getElem?_update] at hnode
    obtain ⟨n, hn, rfl⟩ := Option.map_eq_some_iff.mp hnode
    have hshows := h.node j p n hj hn
    split
    case isTrue hij =>
      have hp : g.path = p := Option.some.inj (hi.symm.trans (hij ▸ hj))
      refine { hshows with groups := ?_ }
      rw [filter_path_concat, if_pos hp, ← hshows.groups]
      rfl
    case isFalse hij =>
      refine { hshows with groups := ?_ }
      rw [filter_path_concat, if_neg, hshows.groups]
      intro hp
      exact hij (h.position_unique hi (hp ▸ hj))

/-- **Placing a group** mentions its path, and the groups that the table shows are then one more. -/
theorem place (h : t.Shows ps (gs.map (·.path)) gs) (g : Group) :
    ∃ ps', (t.place g).Shows ps' ((gs ++ [g]).map (·.path)) (gs ++ [g]) := by
  obtain ⟨ps', h', hi'⟩ := h.mention_nil.descend h.first g.path
  rw [List.map_append]
  exact ⟨ps', h'.withGroup hi'⟩

end Shows

theorem exists_shows_placeAll (gs : List Group) :
    ∃ ps, (placeAll gs).Shows ps (gs.map (·.path)) gs := by
  induction gs using List.reverseRecOn with
  | nil => exact ⟨_, shows_start⟩
  | append_singleton gs g ih =>
    obtain ⟨ps, h⟩ := ih
    rw [placeAll, List.foldl_append]
    exact h.place g

/-! ## Branches in a table -/

mutual

/-- A branch stands at a position of a table: the range there has its name and its groups, and the
ranges in that one hold its inner branches. -/
def Holds (t : RangeTable) (i : Nat) : Branch → Prop
  | .mk name groups inner =>
    ∃ node, t.nodes[i]? = some node ∧ node.name = name ∧ node.groups = groups ∧
      t.HoldsAll node.children inner

/-- Branches stand at positions of a table. -/
def HoldsAll (t : RangeTable) (is : List Nat) : List Branch → Prop
  | [] => is = []
  | b :: bs => ∃ i rest, is = i :: rest ∧ t.Holds i b ∧ t.HoldsAll rest bs

end

mutual

/-- A branch as the paths of groups describe it stands at the position with its path. -/
theorem Shows.holds : ∀ {b : Branch} {above : List String} {i : Nat},
    t.Shows ps (gs.map (·.path)) gs → b.Described gs above → ps[i]? = some (above ++ [b.name]) →
    t.Holds i b
  | .mk name groups inner, above, i, h, ⟨hg, hn, hi⟩, hp => by
    obtain ⟨node, hnode⟩ := h.exists_node hp
    have hshows := h.node i _ node hp hnode
    refine ⟨node, hnode, ?_, hshows.groups.trans hg.symm, h.holdsAll hi ?_⟩
    · rw [hshows.name, List.getLast?_concat]
      rfl
    · rw [hn]
      exact hshows.children

theorem Shows.holdsAll : ∀ {bs : List Branch} {above : List String} {is : List Nat},
    t.Shows ps (gs.map (·.path)) gs → AllDescribed gs above bs →
    List.Forall₂ (fun c name => ps[c]? = some (above ++ [name])) is (bs.map Branch.name) →
    t.HoldsAll is bs
  | [], _, is, _, _, his => List.forall₂_nil_right_iff.mp his
  | b :: bs, _, is, h, ⟨hb, hbs⟩, his => by
    obtain ⟨i, rest, hi, hrest, rfl⟩ := List.forall₂_cons_right_iff.mp his
    exact ⟨i, rest, rfl, h.holds hb hi, h.holdsAll hbs hrest⟩

end

/-- Two tables have the same ranges at the same positions, apart from their spans. The sweep leaves
a table in agreement with what it was before. -/
def Agree (t u : RangeTable) : Prop := t.nodes.map RangeNode.bare = u.nodes.map RangeNode.bare

namespace Agree

theorem length_eq (h : t.Agree u) : t.nodes.length = u.nodes.length := by
  simpa only [List.length_map] using congrArg List.length h

theorem exists_node (h : t.Agree u) (hn : t.nodes[i]? = some node) :
    ∃ span, u.nodes[i]? = some { node with span } := by
  have hu := congrArg (fun nodes => nodes[i]?) h
  simp only [List.getElem?_map, hn] at hu
  obtain ⟨n, hu, hbare⟩ := Option.map_eq_some_iff.mp hu.symm
  exact ⟨n.span, hu.trans (congrArg (fun m => some { m with span := n.span }) hbare)⟩

/-- What a table shows does not depend on its spans, so that the sweep may fill them in afterwards.
-/
theorem shows (h : u.Agree t) (ht : t.Shows ps qs gs) : u.Shows ps qs gs where
  length := ht.length.trans h.length_eq.symm
  nodup := ht.nodup
  first := ht.first
  mem_iff := ht.mem_iff
  placed := ht.placed
  node := by
    intro i p node hi hn
    obtain ⟨span, hnode⟩ := h.exists_node hn
    obtain ⟨hname, hgroups, hindex, hchildren⟩ := ht.node i p _ hi hnode
    exact ⟨hname, hgroups, hindex, hchildren⟩

mutual

/-- The branches of a table do not depend on its spans. -/
theorem holds (h : t.Agree u) : ∀ {b : Branch} {i : Nat}, t.Holds i b → u.Holds i b
  | .mk name groups inner, i, ⟨node, hn, hname, hgroups, hinner⟩ => by
    obtain ⟨span, hu⟩ := h.exists_node hn
    exact ⟨_, hu, hname, hgroups, h.holdsAll hinner⟩

theorem holdsAll (h : t.Agree u) : ∀ {bs : List Branch} {is : List Nat},
    t.HoldsAll is bs → u.HoldsAll is bs
  | [], _, his => his
  | _ :: _, _, ⟨i, rest, his, hb, hbs⟩ => ⟨i, rest, his, h.holds hb, h.holdsAll hbs⟩

end

end Agree

/-! ## Spans -/

section

variable {as bs : List Nat} {s r : Option (Nat × Nat)}

theorem covers_merge (hs : Covers as s) (a : Nat) : Covers (as ++ [a]) (merge s a) := by
  cases s with
  | none =>
    obtain rfl := hs
    simp [Covers, merge]
  | some s =>
    obtain ⟨first, last⟩ := s
    obtain ⟨⟨hf, hl⟩, hg, hu⟩ := hs
    simp only [Covers, merge, List.mem_append, List.mem_singleton]
    refine ⟨⟨?_, ?_⟩, ?_, ?_⟩
    · rcases Nat.le_total first a with h | h
      · exact .inl ((Nat.min_eq_left h).symm ▸ hf)
      · exact .inr (Nat.min_eq_right h)
    · rintro b (hb | rfl)
      · exact (Nat.min_le_left _ _).trans (hl b hb)
      · exact Nat.min_le_right _ _
    · rcases Nat.le_total last a with h | h
      · exact .inr (Nat.max_eq_right h)
      · exact .inl ((Nat.max_eq_left h).symm ▸ hg)
    · rintro b (hb | rfl)
      · exact (hu b hb).trans (Nat.le_max_left _ _)
      · exact Nat.le_max_right _ _

/-- The ends of a span stand for all numbers in it. -/
theorem covers_mergeSpan (hs : Covers as s) (hr : Covers bs r) :
    Covers (as ++ bs) (mergeSpan s r) := by
  cases r with
  | none =>
    obtain rfl := hr
    rw [List.append_nil]
    exact hs
  | some r =>
    obtain ⟨first, last⟩ := r
    obtain ⟨⟨hf, hl⟩, hg, hu⟩ := hr
    have hm := covers_merge (covers_merge hs first) last
    rw [mergeSpan]
    cases hspan : merge (merge s first) last with
    | none =>
      rw [hspan] at hm
      exact absurd hm (by simp [Covers])
    | some span =>
      rw [hspan] at hm
      obtain ⟨⟨hf', hl'⟩, hg', hu'⟩ := hm
      have hsub : ∀ a ∈ as ++ [first] ++ [last], a ∈ as ++ bs := by
        simp only [List.mem_append, List.mem_singleton]
        rintro a ((ha | rfl) | rfl)
        · exact .inl ha
        · exact .inr hf
        · exact .inr hg
      refine ⟨⟨hsub _ hf', ?_⟩, hsub _ hg', ?_⟩
      · intro a ha
        rcases List.mem_append.mp ha with ha | ha
        · exact hl' a (by simp [ha])
        · exact (hl' first (by simp)).trans (hl a ha)
      · intro a ha
        rcases List.mem_append.mp ha with ha | ha
        · exact hu' a (by simp [ha])
        · exact (hu a ha).trans (hu' last (by simp))

/-- The span of own groups, taken one by one into what is there. -/
theorem covers_groups (hs : Covers as s) (groups : List Group) :
    Covers (as ++ groups.map (·.address.raw.toNat))
      (groups.foldl (fun s g => merge s g.address.raw.toNat) s) := by
  induction groups generalizing as s with
  | nil =>
    rw [List.map_nil, List.append_nil]
    exact hs
  | cons g groups ih =>
    have hg := ih (covers_merge hs g.address.raw.toNat)
    rw [List.append_assoc, List.singleton_append] at hg
    exact hg

/-- The span of inner branches that have theirs: their spans are enough, and their groups need not
be looked at again. -/
theorem covers_children {is : List Nat} {inner : List Branch} (hs : Covers as s)
    (hspan : ∀ i ∈ is, ∀ b, t.Holds i b → t.span? i = b.span) (h : t.HoldsAll is inner) :
    Covers (as ++ addressesOf inner) (is.foldl (fun s c => mergeSpan s (t.span? c)) s) := by
  induction inner generalizing is as s with
  | nil =>
    obtain rfl := h
    rw [addressesOf, List.append_nil]
    exact hs
  | cons b inner ih =>
    obtain ⟨i, rest, rfl, hb, hinner⟩ := h
    have hm := covers_mergeSpan hs b.covers_span
    rw [← hspan i (.head _) b hb] at hm
    have hall := ih hm (fun c hc => hspan c (.tail _ hc)) hinner
    rw [List.append_assoc] at hall
    exact hall

end

/-- The spans are filled in from a position on. It is the invariant of the sweep, which lets the
position go down to the first one. -/
def SpansFrom (t : RangeTable) (first : Nat) : Prop :=
  ∀ i b, first ≤ i → t.Holds i b → t.span? i = b.span

/-- **The span of a range** is that of its branch if the spans behind it are filled in. -/
theorem SpansFrom.spanOf_eq {inner : List Branch} (h : t.SpansFrom (i + 1))
    (hn : t.nodes[i]? = some node) (hinner : t.HoldsAll node.children inner) (name : String) :
    t.spanOf node = (Branch.mk name node.groups inner).span := by
  have hown := covers_groups (show Covers [] none from rfl) node.groups
  have hspan : ∀ c ∈ node.children, ∀ b, t.Holds c b → t.span? c = b.span :=
    fun c hc b hb => h c b (t.ascending i node hn c hc) hb
  exact (covers_children hown hspan hinner).unique (Branch.covers_span _)

theorem getElem?_settle (t : RangeTable) (i j : Nat) :
    (t.settle i).nodes[j]? = (t.nodes[j]?).map fun node =>
      if i = j then { node with span := t.spanOf node } else node :=
  getElem?_update ..

theorem agree_settle (t : RangeTable) (i : Nat) : (t.settle i).Agree t := by
  refine List.ext_getElem? fun j => ?_
  rw [List.getElem?_map, List.getElem?_map, getElem?_settle, Option.map_map]
  refine congrArg (Option.map · _) (funext fun node => ?_)
  rw [Function.comp_apply]
  split <;> rfl

theorem agree_sweep (t : RangeTable) (k : Nat) : (t.sweep k).Agree t := by
  induction k generalizing t with
  | zero => rfl
  | succ k ih => exact (ih (t.settle k)).trans (agree_settle t k)

/-- One step of the sweep. The ranges in the one at this position stand behind it, and have their
spans. -/
theorem SpansFrom.settle {k : Nat} (h : t.SpansFrom (k + 1)) : (t.settle k).SpansFrom k := by
  intro i b hi hb
  have hb' := (agree_settle t k).holds hb
  rw [span?, getElem?_settle]
  rcases Nat.eq_or_lt_of_le hi with rfl | hlt
  · obtain ⟨name, groups, inner⟩ := b
    obtain ⟨node, hn, -, rfl, hinner⟩ := hb'
    rw [hn, Option.map_some, Option.bind_some, if_pos rfl]
    exact h.spanOf_eq hn hinner name
  · rw [← h i b hlt hb', span?]
    simp only [if_neg (Nat.ne_of_lt hlt), Option.map_id']

/-- The whole sweep, by induction on the positions that are left. At its end every range has its
span. -/
theorem SpansFrom.sweep {k : Nat} (h : t.SpansFrom k) : (t.sweep k).SpansFrom 0 := by
  induction k generalizing t with
  | zero => exact h
  | succ k ih => exact ih h.settle

theorem Holds.lt_length {b : Branch} (h : t.Holds i b) : i < t.nodes.length := by
  obtain ⟨name, groups, inner⟩ := b
  obtain ⟨node, hn, -⟩ := h
  exact (List.getElem?_eq_some_iff.mp hn).1

/-! ## The table of groups -/

theorem exists_shows_build (gs : List Group) :
    ∃ ps, (build gs).Shows ps (gs.map (·.path)) gs := by
  obtain ⟨ps, h⟩ := exists_shows_placeAll gs
  exact ⟨ps, (agree_sweep _ _).shows h⟩

/-- **Each range has the span of its branch**, although it is computed from the end of the table and
not by recursion. -/
theorem span?_build {b : Branch} (h : (build gs).Holds i b) : (build gs).span? i = b.span := by
  have hspans : (placeAll gs).SpansFrom (placeAll gs).nodes.length :=
    fun i b hi hb => absurd hb.lt_length (Nat.not_lt.mpr hi)
  exact hspans.sweep i b (Nat.zero_le _) h

/-- The span of a range takes in the groups in the ranges in it, wherever they stand in the list. -/
example :
    let group (raw : UInt16) (path : List String) : Group :=
      { name := "", address := ⟨raw⟩, types := [], path, style := .free }
    let table := build [group 40 ["Home"], group 7 ["Other"], group 3 ["Home", "Hall"],
      group 90 ["Home", "Hall", "Door"]]
    table.nodes.map (fun node => (node.name, node.span)) =
      [("", some (3, 90)), ("Home", some (3, 90)), ("Other", some (7, 7)), ("Hall", some (3, 90)),
        ("Door", some (90, 90))] := by
  decide

/-- **The table holds the branches of the groups** in its first range. Together with the count of
its ranges this says that the table is the forest. -/
theorem holdsAll_build (gs : List Group) :
    ∃ root, (build gs).nodes[0]? = some root ∧
      (build gs).HoldsAll root.children (branchesOf gs) := by
  obtain ⟨ps, h⟩ := exists_shows_build gs
  obtain ⟨root, hroot⟩ := h.exists_node h.first
  obtain ⟨hnames, hall⟩ := described_branchesOf gs
  refine ⟨root, hroot, h.holdsAll hall ?_⟩
  rw [hnames]
  exact (h.node 0 [] root h.first hroot).children

/-- The paths of positions are those of the branches, and the empty one. -/
theorem Shows.mem_iff_mem_pathsOf (h : t.Shows ps (gs.map (·.path)) gs) :
    p ∈ ps ↔ p ∈ [] :: (pathsOf [] (branchesOf gs)).map (·.1) := by
  rw [h.mem_iff, List.mem_cons, mem_pathsOf_iff]
  simp only [List.mem_map, exists_exists_and_eq_and]
  by_cases hp : p = [] <;> simp [hp]

/-- **The table has a range for each branch**, after the first one: no range is made that nothing
leads to. -/
theorem length_build (gs : List Group) :
    (build gs).nodes.length = (pathsOf [] (branchesOf gs)).length + 1 := by
  obtain ⟨ps, h⟩ := exists_shows_build gs
  have hnew : [] ∉ (pathsOf [] (branchesOf gs)).map (·.1) :=
    fun hmem => ((mem_pathsOf_iff gs []).mp hmem).1 rfl
  have hperm := (List.perm_ext_iff_of_nodup h.nodup ((nodup_pathsOf gs).cons hnew)).mpr
    fun p => h.mem_iff_mem_pathsOf
  rw [← h.length, hperm.length_eq, List.length_cons, List.length_map]

/-- The range at a position with a path has a span, if that is not the empty one. -/
theorem Shows.isSome_span? (h : (build gs).Shows ps (gs.map (·.path)) gs) (hi : ps[i]? = some p)
    (hp : p ≠ []) : ((build gs).span? i).isSome := by
  have hmem := h.mem_iff_mem_pathsOf.mp (List.mem_of_getElem? hi)
  obtain ⟨q, hq, rfl⟩ := List.mem_map.mp ((List.mem_cons.mp hmem).resolve_left hp)
  obtain ⟨front, hfront, hd, hg⟩ := described_of_mem_pathsOf hq
  rw [hfront] at hi hg
  rw [span?_build (h.holds hd hi)]
  exact hd.isSome_span hg

/-- **Each range but the first has a span**, since some group is placed in it or further in. -/
theorem isSome_span?_build (hi : i + 1 < (build gs).nodes.length) :
    ((build gs).span? (i + 1)).isSome := by
  obtain ⟨ps, h⟩ := exists_shows_build gs
  have hp := List.getElem?_eq_getElem (h.length ▸ hi)
  refine h.isSome_span? hp fun hnil => ?_
  rw [hnil] at hp
  exact Nat.succ_ne_zero i (h.position_unique hp h.first)

/-- **No range is hidden**: that only ranges with a span are written leaves out none of those in a
table of groups. -/
theorem visible_build (hn : (build gs).nodes[i]? = some node) :
    (build gs).visible node = node.children := by
  obtain ⟨ps, h⟩ := exists_shows_build gs
  obtain ⟨p, hp⟩ : ∃ p, ps[i]? = some p :=
    ⟨_, List.getElem?_eq_getElem (h.length ▸ (List.getElem?_eq_some_iff.mp hn).1)⟩
  have hall : List.Forall₂ (fun c name => ((build gs).span? c).isSome ∧ ps[c]? = some (p ++ [name]))
      node.children (nextNames (gs.map (·.path)) p) :=
    (h.node i p node hp hn).children.imp fun c name hc =>
      ⟨h.isSome_span? hc (List.concat_ne_nil _ _), hc⟩
  exact List.filter_eq_self.mpr ((List.forall₂_and_left _ _).mp hall).1

end RangeTable

end BuildingBus.Catalog
