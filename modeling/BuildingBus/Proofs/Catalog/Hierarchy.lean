import BuildingBus.Proofs.Catalog.Branches
import Mathlib.Data.List.Induction
import Mathlib.Data.List.Infix
import Mathlib.Data.List.Nodup

/-!
# The hierarchy of paths

The branches of a list of groups are described by the paths of the groups alone, without the way in
which they were put together: the names of the branches below a range are those that paths go on with
there, in the order in which the list first mentions them (`groupNames`), and the groups of a branch
are those whose path is that of the branch, in the order of the list (`Branch.Described`). There is
one forest at most of which this is true (`AllDescribed.unique`), and it is true of the branches of
the list (`described_branchesOf`).

So there is one branch for each beginning of a path and no other (`nodup_pathsOf`,
`mem_pathsOf_iff`), and the addresses in it are those of the groups whose paths go on from there
(`Branch.Described.mem_addresses_iff`).
-/

namespace BuildingBus.Catalog

variable {gs : List Group} {g : Group} {paths : List (List String)} {above path : List String}
  {name : String}

/-! ## First mentions -/

/-- A member at the end of a list counts if it has not been mentioned before. -/
theorem eraseDups_concat {α : Type} [DecidableEq α] (l : List α) (a : α) :
    (l ++ [a]).eraseDups = if a ∈ l then l.eraseDups else l.eraseDups ++ [a] := by
  rw [List.eraseDups_append, List.removeAll]
  by_cases h : a ∈ l
  · simp [h]
  · simp [h, List.eraseDups_cons]

/-- Nothing is mentioned first twice. -/
theorem nodup_eraseDups {α : Type} [DecidableEq α] (l : List α) : l.eraseDups.Nodup := by
  induction l using List.reverseRecOn with
  | nil => exact List.nodup_nil
  | append_singleton l a ih =>
    rw [eraseDups_concat]
    split
    case isTrue => exact ih
    case isFalse h =>
      rw [← List.concat_eq_append]
      exact ih.concat (mt List.mem_eraseDups.mp h)

/-- The name that a path goes on with below the ranges with the given names. There is none if the
path ends there or leads elsewhere. -/
def nextName? : List String → List String → Option String
  | [], path => path.head?
  | _ :: _, [] => none
  | a :: above, b :: path => if a = b then nextName? above path else none

theorem nextName?_eq_some_iff : nextName? above path = some name ↔ above ++ [name] <+: path := by
  induction above generalizing path with
  | nil => cases path <;> simp [nextName?, eq_comm]
  | cons a above ih =>
    cases path with
    | nil => simp [nextName?]
    | cons b path =>
      rw [nextName?, List.cons_append, List.cons_prefix_cons, ← ih]
      by_cases h : a = b <;> simp [h]

/-- The names that paths go on with below the ranges with the given names, in the order of their
first mentions. -/
def nextNames (paths : List (List String)) (above : List String) : List String :=
  (paths.filterMap (nextName? above)).eraseDups

theorem nodup_nextNames (paths : List (List String)) (above : List String) :
    (nextNames paths above).Nodup :=
  nodup_eraseDups _

theorem mem_nextNames_iff :
    name ∈ nextNames paths above ↔ ∃ path ∈ paths, above ++ [name] <+: path := by
  simp only [nextNames, List.mem_eraseDups, List.mem_filterMap, nextName?_eq_some_iff]

/-- A path that ends at a range, or leads elsewhere, mentions no name below it. -/
theorem nextNames_concat_of_none (h : ∀ name, ¬above ++ [name] <+: path) :
    nextNames (paths ++ [path]) above = nextNames paths above := by
  have hn : nextName? above path = none :=
    Option.eq_none_iff_forall_ne_some.mpr fun name hname => h name (nextName?_eq_some_iff.mp hname)
  simp [nextNames, List.filterMap_append, hn]

/-- A path that goes on below a range mentions one name there. -/
theorem nextNames_concat_of_next (h : above ++ [name] <+: path) :
    nextNames (paths ++ [path]) above =
      if name ∈ nextNames paths above then nextNames paths above
      else nextNames paths above ++ [name] := by
  have hn : [path].filterMap (nextName? above) = [name] :=
    List.filterMap_cons_some (nextName?_eq_some_iff.mpr h)
  rw [nextNames, List.filterMap_append, hn, eraseDups_concat]
  simp only [nextNames, List.mem_eraseDups]

/-- The names that the paths of groups go on with below the ranges with the given names, in the order
in which the list first mentions them. -/
def groupNames (gs : List Group) (above : List String) : List String :=
  nextNames (gs.map (·.path)) above

theorem mem_groupNames_iff :
    name ∈ groupNames gs above ↔ ∃ g ∈ gs, above ++ [name] <+: g.path := by
  simp [groupNames, mem_nextNames_iff]

theorem nodup_groupNames (gs : List Group) (above : List String) : (groupNames gs above).Nodup :=
  nodup_nextNames _ _

theorem groupNames_concat_of_none (h : ∀ name, ¬above ++ [name] <+: g.path) :
    groupNames (gs ++ [g]) above = groupNames gs above := by
  rw [groupNames, List.map_append]
  exact nextNames_concat_of_none h

theorem groupNames_concat_of_next (h : above ++ [name] <+: g.path) :
    groupNames (gs ++ [g]) above =
      if name ∈ groupNames gs above then groupNames gs above
      else groupNames gs above ++ [name] := by
  rw [groupNames, List.map_append]
  exact nextNames_concat_of_next h

/-- A group at the end of a list is at the end of those with its path. -/
theorem filter_path_concat (gs : List Group) (g : Group) (path : List String) :
    (gs ++ [g]).filter (·.path = path) =
      if g.path = path then gs.filter (·.path = path) ++ [g] else gs.filter (·.path = path) := by
  rw [List.filter_append]
  by_cases h : g.path = path <;> simp [h]

/-! ## Described branches -/

mutual

/-- A branch below the ranges with the given names as the paths of groups describe it: its groups
are those whose path ends there, and its inner branches go on with the next names, one for each, in
the order of their first mention. -/
def Branch.Described (gs : List Group) (above : List String) : Branch → Prop
  | .mk name groups inner =>
    groups = gs.filter (·.path = above ++ [name]) ∧
      inner.map Branch.name = groupNames gs (above ++ [name]) ∧
      AllDescribed gs (above ++ [name]) inner

/-- Branches below the ranges with the given names, each as the paths of groups describe it. -/
def AllDescribed (gs : List Group) (above : List String) : List Branch → Prop
  | [] => True
  | b :: bs => b.Described gs above ∧ AllDescribed gs above bs

end

theorem allDescribed_iff {bs : List Branch} :
    AllDescribed gs above bs ↔ ∀ b ∈ bs, b.Described gs above := by
  induction bs with
  | nil => exact ⟨nofun, fun _ => trivial⟩
  | cons b bs ih => rw [AllDescribed, ih, List.forall_mem_cons]

mutual

/-- No two branches with one name are described alike. The description is thus all there is to say
about a branch. -/
theorem Branch.Described.unique : ∀ {b c : Branch} {above : List String}, b.Described gs above →
    c.Described gs above → b.name = c.name → b = c
  | .mk name _ inner, .mk _ _ other, above, ⟨hg, hn, hi⟩, ⟨hg', hn', hi'⟩, h => by
    obtain rfl : name = _ := h
    rw [hg, hg', hi.unique hi' (hn.trans hn'.symm)]

/-- **There is one forest at most** that the paths of groups describe, so that whatever computes it,
step by step or from a table, computes the same. -/
theorem AllDescribed.unique : ∀ {bs cs : List Branch} {above : List String},
    AllDescribed gs above bs → AllDescribed gs above cs →
    bs.map Branch.name = cs.map Branch.name → bs = cs
  | [], [], _, _, _, _ => rfl
  | b :: bs, c :: cs, above, ⟨hb, hbs⟩, ⟨hc, hcs⟩, h => by
    obtain ⟨hname, hnames⟩ := List.cons.inj h
    rw [hb.unique hc hname, hbs.unique hcs hnames]

end

/-! ## The branches of groups -/

mutual

/-- A group that belongs elsewhere leaves a branch as it is described. -/
theorem Branch.Described.concat : ∀ {b : Branch} {above : List String}, b.Described gs above →
    ¬above ++ [b.name] <+: g.path → b.Described (gs ++ [g]) above
  | .mk name groups inner, above, ⟨hg, hn, hi⟩, h => by
    have hnext : ∀ next, ¬(above ++ [name]) ++ [next] <+: g.path :=
      fun next hp => h ((List.prefix_append _ _).trans hp)
    have hne : g.path ≠ above ++ [name] := fun hp => h (hp ▸ List.prefix_refl _)
    refine ⟨?_, ?_, hi.concat fun next => hnext next.name⟩
    · rw [filter_path_concat, if_neg hne]
      exact hg
    · rw [groupNames_concat_of_none hnext]
      exact hn

/-- A group that belongs elsewhere leaves branches as they are described. -/
theorem AllDescribed.concat : ∀ {bs : List Branch} {above : List String},
    AllDescribed gs above bs → (∀ b : Branch, ¬above ++ [b.name] <+: g.path) →
    AllDescribed (gs ++ [g]) above bs
  | [], _, _, _ => trivial
  | b :: _, _, ⟨hb, hbs⟩, h => ⟨hb.concat (h b), hbs.concat h⟩

end

/-- A branch with a group put where a path leads that goes on from it, or ends there. -/
def Branch.enter (g : Group) (path : List String) : Branch → Branch
  | .mk name groups inner =>
    .mk name (if path = [] then groups ++ [g] else groups) (insertGroup g path inner)

@[simp] theorem Branch.name_enter (g : Group) (path : List String) (b : Branch) :
    (b.enter g path).name = b.name := by
  cases b
  rfl

/-- One step along a path, whether it ends there or goes on: both are the change of one branch. -/
theorem insertGroup_eq_updateBranch (g : Group) (name : String) (path : List String)
    (bs : List Branch) :
    insertGroup g (name :: path) bs = updateBranch name (.enter g path) bs := by
  cases path with
  | nil =>
    refine congrArg (updateBranch name · bs) (funext fun b => ?_)
    cases b
    rfl
  | cons next path =>
    refine congrArg (updateBranch name · bs) (funext fun b => ?_)
    cases b
    rfl

theorem map_name_updateBranch {f : Branch → Branch} (hf : ∀ b, (f b).name = b.name)
    (bs : List Branch) : (updateBranch name f bs).map Branch.name =
      if name ∈ bs.map Branch.name then bs.map Branch.name else bs.map Branch.name ++ [name] := by
  induction bs with
  | nil => exact congrArg (fun n => [n]) (hf (.empty name))
  | cons b bs ih =>
    rw [updateBranch]
    by_cases hb : b.name = name
    · rw [if_pos hb, List.map_cons, hf, List.map_cons, hb, if_pos List.mem_cons_self]
    · have hmem : name ∈ (b :: bs).map Branch.name ↔ name ∈ bs.map Branch.name := by
        rw [List.map_cons, List.mem_cons, or_iff_right (Ne.symm hb)]
      rw [if_neg hb, List.map_cons, ih]
      simp only [hmem]
      split <;> rfl

/-- Branches that differ in their names, of which one is changed, or put at the end if it is new, for
one more group that belongs to it. -/
theorem AllDescribed.updateBranch {f : Branch → Branch} {bs : List Branch}
    (hf : ∀ b : Branch, b.name = name → b.Described gs above → (f b).Described (gs ++ [g]) above)
    (he : name ∉ bs.map Branch.name → (Branch.empty name).Described gs above)
    (ho : ∀ b : Branch, b.name ≠ name → ¬above ++ [b.name] <+: g.path)
    (hd : (bs.map Branch.name).Nodup) (h : AllDescribed gs above bs) :
    AllDescribed (gs ++ [g]) above (updateBranch name f bs) := by
  induction bs with
  | nil => exact ⟨hf _ rfl (he List.not_mem_nil), trivial⟩
  | cons b bs ih =>
    obtain ⟨hb, hbs⟩ := h
    rw [List.map_cons, List.nodup_cons] at hd
    rw [Catalog.updateBranch]
    by_cases hn : b.name = name
    · rw [if_pos hn]
      refine ⟨hf b hn hb, ?_⟩
      rw [allDescribed_iff] at hbs ⊢
      intro c hc
      refine (hbs c hc).concat (ho c ?_)
      rintro hcn
      exact hd.1 (List.mem_map.mpr ⟨c, hc, hcn.trans hn.symm⟩)
    · rw [if_neg hn]
      refine ⟨hb.concat (ho b hn), ih (fun hnew => he ?_) hd.2 hbs⟩
      rw [List.map_cons, List.mem_cons, not_or]
      exact ⟨Ne.symm hn, hnew⟩

/-- A branch that no path mentions is bare: it has no groups and no branches, and that describes it.
-/
theorem described_empty (h : name ∉ groupNames gs above) :
    (Branch.empty name).Described gs above := by
  have hp : ∀ g ∈ gs, ¬above ++ [name] <+: g.path :=
    fun g hg hp => h (mem_groupNames_iff.mpr ⟨g, hg, hp⟩)
  refine ⟨?_, ?_, trivial⟩
  · symm
    rw [List.filter_eq_nil_iff]
    intro g hg he
    exact hp g hg (of_decide_eq_true he ▸ List.prefix_refl _)
  · symm
    refine List.eq_nil_iff_forall_not_mem.mpr fun next hn => ?_
    obtain ⟨g, hg, hpre⟩ := mem_groupNames_iff.mp hn
    exact hp g hg ((List.prefix_append _ _).trans hpre)

/-- Putting a group where its path leads keeps branches described, now by one group more. The
induction is on the path, which decides where the description changes. -/
theorem described_insertGroup (hg : g.path = above ++ path) {bs : List Branch}
    (hn : bs.map Branch.name = groupNames gs above) (h : AllDescribed gs above bs) :
    (insertGroup g path bs).map Branch.name = groupNames (gs ++ [g]) above ∧
      AllDescribed (gs ++ [g]) above (insertGroup g path bs) := by
  induction path generalizing above bs with
  | nil =>
    rw [List.append_nil] at hg
    have hnext : ∀ next, ¬above ++ [next] <+: g.path := by
      intro next hp
      have hl := hp.length_le
      rw [hg, List.length_append, List.length_singleton] at hl
      omega
    rw [insertGroup, groupNames_concat_of_none hnext]
    exact ⟨hn, h.concat fun b => hnext b.name⟩
  | cons name path ih =>
    have hg' : g.path = (above ++ [name]) ++ path := by
      rw [hg, List.append_assoc, List.singleton_append]
    have hmem : above ++ [name] <+: g.path := ⟨path, hg'.symm⟩
    have hother : ∀ b : Branch, b.name ≠ name → ¬above ++ [b.name] <+: g.path := by
      intro b hne hp
      have heq := Option.some.inj
        ((nextName?_eq_some_iff.mpr hp).symm.trans (nextName?_eq_some_iff.mpr hmem))
      exact hne heq
    rw [insertGroup_eq_updateBranch]
    constructor
    · rw [map_name_updateBranch (Branch.name_enter g path), groupNames_concat_of_next hmem, hn]
    · refine h.updateBranch ?_ (fun hnew => described_empty (hn ▸ hnew)) hother
        (hn ▸ nodup_groupNames gs above)
      rintro ⟨_, groups, inner⟩ rfl ⟨hgroups, hnames, hinner⟩
      refine ⟨?_, ih hg' hnames hinner⟩
      -- the group is one of the branch if its path ends there
      rw [filter_path_concat, ← hgroups]
      refine if_congr ?_ rfl rfl
      rw [hg']
      exact List.append_right_eq_self.symm

/-- **The branches of groups are as the paths of the groups describe them**, although they are made
by putting in one group after another. -/
theorem described_branchesOf (gs : List Group) :
    (branchesOf gs).map Branch.name = groupNames gs [] ∧ AllDescribed gs [] (branchesOf gs) := by
  induction gs using List.reverseRecOn with
  | nil => exact ⟨rfl, trivial⟩
  | append_singleton gs g ih =>
    rw [branchesOf, List.foldl_append]
    exact described_insertGroup rfl ih.1 ih.2

/-! ## Paths -/

mutual

/-- A branch and those in it, each with its path. Paths tell branches apart, as names alone do not.
-/
def Branch.paths (above : List String) : Branch → List (List String × Branch)
  | .mk name groups inner =>
    (above ++ [name], .mk name groups inner) :: pathsOf (above ++ [name]) inner

/-- Branches and those in them, each with its path. -/
def pathsOf (above : List String) : List Branch → List (List String × Branch)
  | [] => []
  | b :: bs => b.paths above ++ pathsOf above bs

end

theorem mem_pathsOf {bs : List Branch} {q : List String × Branch} :
    q ∈ pathsOf above bs ↔ ∃ b ∈ bs, q ∈ b.paths above := by
  induction bs with
  | nil => simp [pathsOf]
  | cons b bs ih => simp only [pathsOf, List.mem_append, ih, List.exists_mem_cons_iff]

mutual

/-- The paths in a branch go on from its own, so that branches with different names have no path in
common. -/
theorem Branch.prefix_of_mem_paths : ∀ {b : Branch} {above : List String}
    {q : List String × Branch}, q ∈ b.paths above → above ++ [b.name] <+: q.1
  | .mk name groups inner, above, q, h => by
    rcases List.mem_cons.mp h with rfl | h
    · exact List.prefix_refl _
    · obtain ⟨next, hp⟩ := exists_prefix_of_mem_pathsOf h
      exact (List.prefix_append _ _).trans hp

theorem exists_prefix_of_mem_pathsOf : ∀ {bs : List Branch} {above : List String}
    {q : List String × Branch}, q ∈ pathsOf above bs → ∃ name, above ++ [name] <+: q.1
  | b :: bs, above, q, h => by
    rcases List.mem_append.mp h with h | h
    · exact ⟨b.name, b.prefix_of_mem_paths h⟩
    · exact exists_prefix_of_mem_pathsOf h

end

mutual

/-- No two branches in a described one have one path. -/
theorem Branch.Described.nodup_paths : ∀ {b : Branch} {above : List String},
    b.Described gs above → ((b.paths above).map (·.1)).Nodup
  | .mk name groups inner, above, ⟨_, hn, hi⟩ => by
    rw [Branch.paths, List.map_cons, List.nodup_cons]
    refine ⟨fun h => ?_, hi.nodup_pathsOf (hn ▸ nodup_groupNames gs _)⟩
    obtain ⟨q, hq, heq⟩ := List.mem_map.mp h
    obtain ⟨next, hp⟩ := exists_prefix_of_mem_pathsOf hq
    have hl := hp.length_le
    rw [heq] at hl
    simp only [List.length_append, List.length_singleton] at hl
    omega

/-- No two of described branches that differ in their names have one path, nor have those in them. -/
theorem AllDescribed.nodup_pathsOf : ∀ {bs : List Branch} {above : List String},
    AllDescribed gs above bs → (bs.map Branch.name).Nodup → ((pathsOf above bs).map (·.1)).Nodup
  | [], _, _, _ => List.nodup_nil
  | b :: bs, above, ⟨hb, hbs⟩, hd => by
    rw [List.map_cons, List.nodup_cons] at hd
    rw [pathsOf, List.map_append, List.nodup_append]
    refine ⟨hb.nodup_paths, hbs.nodup_pathsOf hd.2, ?_⟩
    rintro p hp _ hq rfl
    obtain ⟨q, hq', rfl⟩ := List.mem_map.mp hp
    obtain ⟨r, hr, heq⟩ := List.mem_map.mp hq
    obtain ⟨c, hc, hrc⟩ := mem_pathsOf.mp hr
    -- both paths go on from the one of their outermost branch, and these have different names
    have hpb := nextName?_eq_some_iff.mpr (b.prefix_of_mem_paths hq')
    have hpc := nextName?_eq_some_iff.mpr (c.prefix_of_mem_paths hrc)
    rw [heq, hpb] at hpc
    exact hd.1 (List.mem_map.mpr ⟨c, hc, (Option.some.inj hpc).symm⟩)

end

mutual

/-- A branch in a described one is described, and its path is that of a group or goes on to one. -/
theorem Branch.Described.of_mem_paths : ∀ {b : Branch} {above : List String}
    {q : List String × Branch}, b.Described gs above → b.name ∈ groupNames gs above →
    q ∈ b.paths above →
    ∃ front, q.1 = front ++ [q.2.name] ∧ q.2.Described gs front ∧ q.2.name ∈ groupNames gs front
  | .mk name groups inner, above, q, hb, hn, h => by
    rcases List.mem_cons.mp h with rfl | h
    · exact ⟨above, rfl, hb, hn⟩
    · obtain ⟨-, hnames, hi⟩ := hb
      exact hi.of_mem_pathsOf (fun c hc => hnames ▸ List.mem_map_of_mem hc) h

theorem AllDescribed.of_mem_pathsOf : ∀ {bs : List Branch} {above : List String}
    {q : List String × Branch}, AllDescribed gs above bs →
    (∀ b ∈ bs, b.name ∈ groupNames gs above) → q ∈ pathsOf above bs →
    ∃ front, q.1 = front ++ [q.2.name] ∧ q.2.Described gs front ∧ q.2.name ∈ groupNames gs front
  | b :: bs, above, q, ⟨hb, hbs⟩, hn, h => by
    rcases List.mem_append.mp h with h | h
    · exact hb.of_mem_paths (hn b (.head _)) h
    · exact hbs.of_mem_pathsOf (fun c hc => hn c (.tail _ hc)) h

end

/-- There is a branch at each path that is the one of a group or goes on to it. -/
theorem AllDescribed.exists_mem_pathsOf {bs : List Branch} {rest : List String}
    (h : AllDescribed gs above bs) (hn : bs.map Branch.name = groupNames gs above) (hg : g ∈ gs)
    (hp : above ++ name :: rest <+: g.path) :
    ∃ b, (above ++ name :: rest, b) ∈ pathsOf above bs := by
  induction rest generalizing above name bs with
  | nil =>
    have hmem : name ∈ bs.map Branch.name := hn ▸ mem_groupNames_iff.mpr ⟨g, hg, hp⟩
    obtain ⟨⟨_, groups, inner⟩, hb, rfl⟩ := List.mem_map.mp hmem
    exact ⟨_, mem_pathsOf.mpr ⟨_, hb, .head _⟩⟩
  | cons next rest ih =>
    have happ : above ++ name :: next :: rest = (above ++ [name]) ++ next :: rest := by
      rw [List.append_assoc, List.singleton_append]
    have hpre : above ++ [name] <+: above ++ name :: next :: rest := happ ▸ List.prefix_append _ _
    have hmem : name ∈ bs.map Branch.name :=
      hn ▸ mem_groupNames_iff.mpr ⟨g, hg, hpre.trans hp⟩
    obtain ⟨⟨_, groups, inner⟩, hb, rfl⟩ := List.mem_map.mp hmem
    obtain ⟨-, hnames, hi⟩ := allDescribed_iff.mp h _ hb
    rw [happ] at hp ⊢
    obtain ⟨c, hc⟩ := ih hi hnames hp
    exact ⟨c, mem_pathsOf.mpr ⟨_, hb, .tail _ hc⟩⟩

/-- A branch of groups is described, and its path is that of a group or goes on to it. -/
theorem described_of_mem_pathsOf {q : List String × Branch} (h : q ∈ pathsOf [] (branchesOf gs)) :
    ∃ front, q.1 = front ++ [q.2.name] ∧ q.2.Described gs front ∧ ∃ g ∈ gs, q.1 <+: g.path := by
  obtain ⟨hn, hall⟩ := described_branchesOf gs
  obtain ⟨front, hpath, hd, hname⟩ :=
    hall.of_mem_pathsOf (fun b hb => hn ▸ List.mem_map_of_mem hb) h
  exact ⟨front, hpath, hd, hpath ▸ mem_groupNames_iff.mp hname⟩

/-- **There is a branch for each beginning of a path**, but the empty one, and for no other path. -/
theorem mem_pathsOf_iff (gs : List Group) (path : List String) :
    path ∈ (pathsOf [] (branchesOf gs)).map (·.1) ↔ path ≠ [] ∧ ∃ g ∈ gs, path <+: g.path := by
  constructor
  · intro hp
    obtain ⟨q, hq, rfl⟩ := List.mem_map.mp hp
    obtain ⟨front, hpath, -, hg⟩ := described_of_mem_pathsOf hq
    refine ⟨?_, hg⟩
    rw [hpath]
    exact List.concat_ne_nil _ _
  · rintro ⟨hne, g, hg, hpre⟩
    obtain ⟨hn, hall⟩ := described_branchesOf gs
    obtain ⟨name, rest, rfl⟩ := List.exists_cons_of_ne_nil hne
    obtain ⟨b, hb⟩ := hall.exists_mem_pathsOf hn hg hpre
    exact List.mem_map.mpr ⟨_, hb, rfl⟩

theorem nodup_pathsOf (gs : List Group) : ((pathsOf [] (branchesOf gs)).map (·.1)).Nodup := by
  obtain ⟨hn, h⟩ := described_branchesOf gs
  exact h.nodup_pathsOf (hn ▸ nodup_groupNames gs [])

/-! ## Spans -/

/-- A span of numbers: the least and the greatest of them, or nothing if there are none. -/
def Covers (as : List Nat) : Option (Nat × Nat) → Prop
  | none => as = []
  | some (first, last) => (first ∈ as ∧ ∀ a ∈ as, first ≤ a) ∧ (last ∈ as ∧ ∀ a ∈ as, a ≤ last)

/-- There is one span of the same numbers. -/
theorem Covers.unique {as : List Nat} {s t : Option (Nat × Nat)} (hs : Covers as s)
    (ht : Covers as t) : s = t := by
  match s, t, hs, ht with
  | none, none, _, _ => rfl
  | none, some (first, _), hs, ht => exact absurd ht.1.1 (hs ▸ List.not_mem_nil)
  | some (first, _), none, hs, ht => exact absurd hs.1.1 (ht ▸ List.not_mem_nil)
  | some (first, last), some (first', last'), ⟨⟨hf, hl⟩, hg, hu⟩, ⟨⟨hf', hl'⟩, hg', hu'⟩ =>
    rw [Nat.le_antisymm (hl first' hf') (hl' first hf),
      Nat.le_antisymm (hu' last hg) (hu last' hg')]

/-- A span depends on which numbers there are alone, and not on their order or on how often they are
there. -/
theorem Covers.congr {as bs : List Nat} {s : Option (Nat × Nat)} (hs : Covers as s)
    (h : ∀ a, a ∈ as ↔ a ∈ bs) : Covers bs s := by
  cases s with
  | none =>
    obtain rfl := hs
    exact List.eq_nil_iff_forall_not_mem.mpr fun a ha => List.not_mem_nil ((h a).mpr ha)
  | some s => simpa only [Covers, h] using hs

/-- The span of a branch is that of the addresses in it. -/
theorem Branch.covers_span (b : Branch) : Covers b.addresses b.span := by
  unfold Branch.span
  cases b.addresses with
  | nil => rfl
  | cons a as =>
    exact ⟨List.min?_eq_some_iff.mp List.min?_cons', List.max?_eq_some_iff.mp List.max?_cons'⟩

/-- A path that goes on from a range ends there, or goes on with a name. -/
theorem append_singleton_prefix_iff : above ++ [name] <+: path ↔
    path = above ++ [name] ∨ ∃ next, (above ++ [name]) ++ [next] <+: path := by
  constructor
  · rintro ⟨rest, rfl⟩
    cases rest with
    | nil => exact .inl (List.append_nil _)
    | cons next rest =>
      refine .inr ⟨next, rest, ?_⟩
      rw [List.append_assoc, List.append_assoc, List.append_assoc]
      rfl
  · rintro (rfl | ⟨next, h⟩)
    · exact List.prefix_refl _
    · exact (List.prefix_append _ _).trans h

mutual

/-- **The addresses in a branch** are those of the groups whose path is that of the branch or goes on
from there. -/
theorem Branch.Described.mem_addresses_iff : ∀ {b : Branch} {above : List String} {a : Nat},
    b.Described gs above →
    (a ∈ b.addresses ↔ ∃ g ∈ gs, above ++ [b.name] <+: g.path ∧ g.address.raw.toNat = a)
  | .mk name groups inner, above, a, ⟨hg, hn, hi⟩ => by
    rw [Branch.addresses, List.mem_append, hi.mem_addressesOf_iff, hg]
    constructor
    · rintro (h | ⟨b, -, g, hg, hp, ha⟩)
      · obtain ⟨g, hg, ha⟩ := List.mem_map.mp h
        obtain ⟨hg, hp⟩ := List.mem_filter.mp hg
        exact ⟨g, hg, append_singleton_prefix_iff.mpr (.inl (of_decide_eq_true hp)), ha⟩
      · exact ⟨g, hg, append_singleton_prefix_iff.mpr (.inr ⟨b.name, hp⟩), ha⟩
    · rintro ⟨g, hg, hp, ha⟩
      rcases append_singleton_prefix_iff.mp hp with hp | ⟨next, hp⟩
      · exact .inl (List.mem_map.mpr ⟨g, List.mem_filter.mpr ⟨hg, decide_eq_true hp⟩, ha⟩)
      · have hnext : next ∈ inner.map Branch.name := hn ▸ mem_groupNames_iff.mpr ⟨g, hg, hp⟩
        obtain ⟨b, hb, rfl⟩ := List.mem_map.mp hnext
        exact .inr ⟨b, hb, g, hg, hp, ha⟩

theorem AllDescribed.mem_addressesOf_iff : ∀ {bs : List Branch} {above : List String} {a : Nat},
    AllDescribed gs above bs →
    (a ∈ addressesOf bs ↔
      ∃ b ∈ bs, ∃ g ∈ gs, above ++ [b.name] <+: g.path ∧ g.address.raw.toNat = a)
  | [], _, _, _ => ⟨nofun, fun ⟨_, hb, _⟩ => absurd hb List.not_mem_nil⟩
  | b :: bs, above, a, ⟨hb, hbs⟩ => by
    rw [addressesOf, List.mem_append, hb.mem_addresses_iff, hbs.mem_addressesOf_iff,
      List.exists_mem_cons_iff]

end

/-- A described branch has a span if the path of a group leads to it. -/
theorem Branch.Described.isSome_span {b : Branch} (h : b.Described gs above)
    (hb : ∃ g ∈ gs, above ++ [b.name] <+: g.path) : b.span.isSome := by
  obtain ⟨g, hg, hp⟩ := hb
  have hmem := h.mem_addresses_iff.mpr ⟨g, hg, hp, rfl⟩
  have hcovers := b.covers_span
  cases hspan : b.span with
  | none =>
    rw [hspan] at hcovers
    exact absurd hmem (hcovers ▸ List.not_mem_nil)
  | some span => rfl

end BuildingBus.Catalog
