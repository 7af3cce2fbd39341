import BuildingBus.Catalog.Branch
import BuildingBus.Text.Blank

/-!
# Groups in branches

The *pre-order* of branches lists the groups in them, those of a branch before those of its inner
branches. The branches of a list of groups have each group once (`preorderOf_branchesOf`), but where
the list comes back to a range that it had left, the order changes. It changes only once: the groups
in pre-order have the same branches again (`branchesOf_preorderOf`).

What makes this true is that branches that stem from groups are *placed*: the path of a group is
that of its branch, no two branches side by side have one name, and no branch is bare. Putting one
group where its path leads keeps them placed (`AllPlaced.insertGroup`). Putting the groups of a
placed branch one after the other next to branches with other names gives that branch
(`Branch.Placed.place`).
-/

namespace BuildingBus.Catalog

open Text

/-! ## Pre-order -/

mutual

/-- The groups in a branch, its own first. That is also the order in which an exported document
lists them. -/
def Branch.preorder : Branch → List Group
  | .mk _ groups inner => groups ++ preorderOf inner

/-- The groups in branches. -/
def preorderOf : List Branch → List Group
  | [] => []
  | b :: bs => b.preorder ++ preorderOf bs

end

mutual

/-- The addresses in a branch are those of its groups in pre-order. -/
theorem Branch.addresses_eq : ∀ b : Branch, b.addresses = b.preorder.map (·.address.raw.toNat)
  | .mk _ groups inner => by
    rw [Branch.addresses, Branch.preorder, List.map_append, addressesOf_eq]

theorem addressesOf_eq : ∀ bs : List Branch,
    addressesOf bs = (preorderOf bs).map (·.address.raw.toNat)
  | [] => rfl
  | b :: bs => by
    rw [addressesOf, preorderOf, List.map_append, Branch.addresses_eq, addressesOf_eq]

end

/-- A choice among numbers, made again and again, is one of them. -/
theorem foldl_mem {op : Nat → Nat → Nat} (h : ∀ a b, op a b = a ∨ op a b = b) (a : Nat)
    (as : List Nat) : as.foldl op a ∈ a :: as := by
  induction as generalizing a with
  | nil => exact .head _
  | cons b as ih =>
    have hm := ih (op a b)
    rcases h a b with hab | hab
    · rw [hab] at hm
      rw [List.foldl_cons, hab]
      exact List.mem_cons.mpr ((List.mem_cons.mp hm).imp_right (.tail _))
    · rw [hab] at hm
      rw [List.foldl_cons, hab]
      exact .tail _ hm

/-- A branch with a group in it has a span, and its ends are addresses in it. -/
theorem Branch.exists_span {b : Branch} (h : b.preorder ≠ []) :
    ∃ first last, b.span = some (first, last) ∧ first ∈ b.addresses ∧ last ∈ b.addresses := by
  have ha : b.addresses ≠ [] := by
    rw [Branch.addresses_eq]
    exact fun hn => h (List.map_eq_nil_iff.mp hn)
  unfold Branch.span
  cases hb : b.addresses with
  | nil => exact absurd hb ha
  | cons a as =>
    exact ⟨_, _, rfl, foldl_mem (fun a b => by omega) a as, foldl_mem (fun a b => by omega) a as⟩

/-! ## Putting groups into branches -/

section

variable {name : String} {f : Branch → Branch} {bs : List Branch}

theorem name_of_mem_updateBranch (hf : ∀ b, (f b).name = b.name) {o : Branch}
    (h : o ∈ updateBranch name f bs) : o.name = name ∨ ∃ b ∈ bs, b.name = o.name := by
  induction bs with
  | nil =>
    rw [List.mem_singleton.mp h, hf]
    exact .inl rfl
  | cons b bs ih =>
    rw [updateBranch] at h
    by_cases hb : b.name = name
    · rw [if_pos hb] at h
      rcases List.mem_cons.mp h with rfl | h
      · exact .inl ((hf b).trans hb)
      · exact .inr ⟨o, .tail _ h, rfl⟩
    · rw [if_neg hb] at h
      rcases List.mem_cons.mp h with rfl | h
      · exact .inr ⟨o, .head _, rfl⟩
      · exact (ih h).imp_right fun ⟨b, hb, hn⟩ => ⟨b, .tail _ hb, hn⟩

/-- Where no branch has the name, a new one is put at the end. -/
theorem updateBranch_of_forall_ne (h : ∀ b ∈ bs, b.name ≠ name) :
    updateBranch name f bs = bs ++ [f (.empty name)] := by
  induction bs with
  | nil => rfl
  | cons b bs ih =>
    rw [updateBranch, if_neg (h b (.head _)), ih fun o ho => h o (.tail _ ho)]
    rfl

/-- Where the last branch alone has the name, it is changed. -/
theorem updateBranch_append_singleton (h : ∀ b ∈ bs, b.name ≠ name) {b : Branch}
    (hb : b.name = name) : updateBranch name f (bs ++ [b]) = bs ++ [f b] := by
  induction bs with
  | nil => exact if_pos hb
  | cons o bs ih =>
    rw [List.cons_append, updateBranch, if_neg (h o (.head _)), ih fun o ho => h o (.tail _ ho)]
    rfl

theorem updateBranch_ne_nil : updateBranch name f bs ≠ [] := by
  cases bs with
  | nil => exact List.cons_ne_nil _ _
  | cons b bs =>
    rw [updateBranch]
    split <;> exact List.cons_ne_nil _ _

/-- Changing a branch so that it gets one more group adds the group to the branches. -/
theorem preorderOf_updateBranch {g : Group} (hf : ∀ b, (f b).preorder.Perm (g :: b.preorder)) :
    (preorderOf (updateBranch name f bs)).Perm (g :: preorderOf bs) := by
  induction bs with
  | nil =>
    rw [updateBranch, preorderOf, preorderOf, preorderOf, List.append_nil]
    exact hf (.empty name)
  | cons b bs ih =>
    rw [updateBranch]
    by_cases hb : b.name = name
    · rw [if_pos hb]
      exact (hf b).append_right (preorderOf bs)
    · rw [if_neg hb]
      exact (ih.append_left b.preorder).trans List.perm_middle

end

theorem insertGroup_cons {g : Group} {name : String} {path : List String} (h : path ≠ [])
    (bs : List Branch) :
    insertGroup g (name :: path) bs = updateBranch name (.mapInner (insertGroup g path)) bs := by
  cases path with
  | nil => exact absurd rfl h
  | cons _ _ => rfl

/-- Putting a group where a path leads adds that group and loses none, wherever it comes to stand.
-/
theorem preorderOf_insertGroup (g : Group) {path : List String} (h : path ≠ []) (bs : List Branch) :
    (preorderOf (insertGroup g path bs)).Perm (g :: preorderOf bs) := by
  induction path generalizing bs with
  | nil => exact absurd rfl h
  | cons name path ih =>
    cases path with
    | nil =>
      refine preorderOf_updateBranch fun b => ?_
      obtain ⟨name, groups, inner⟩ := b
      rw [Branch.withGroup, Branch.preorder, List.append_assoc]
      exact List.perm_middle
    | cons next path =>
      refine preorderOf_updateBranch fun b => ?_
      obtain ⟨name, groups, inner⟩ := b
      have hi := ih (List.cons_ne_nil next path) inner
      exact (hi.append_left groups).trans List.perm_middle

/-- The branches of groups have each group once: putting the groups into branches moves some of
them, and loses none. -/
theorem preorderOf_branchesOf {gs : List Group} (h : ∀ g ∈ gs, g.path ≠ []) :
    (preorderOf (branchesOf gs)).Perm gs := by
  -- in the middle of the groups, `bs` holds those that were put so far
  suffices hs : ∀ bs, (preorderOf (gs.foldl (fun bs g => insertGroup g g.path bs) bs)).Perm
      (preorderOf bs ++ gs) from hs []
  induction gs with
  | nil =>
    intro bs
    rw [List.append_nil]
    exact .refl _
  | cons g gs ih =>
    intro bs
    have hg := preorderOf_insertGroup g (h g (.head _)) bs
    have hi := ih (fun o ho => h o (.tail _ ho)) (insertGroup g g.path bs)
    exact hi.trans ((hg.append_right gs).trans List.perm_middle.symm)

/-! ## Placed branches -/

mutual

/-- A branch that stems from groups, below the ranges with the given names: it has a group or a
branch in it, its name has no blank ends, its own groups have the path that leads to it, and the
branches in it have different names. -/
def Branch.Placed (above : List String) : Branch → Prop
  | .mk name groups inner =>
    trimmed name = name ∧ (groups ≠ [] ∨ inner ≠ []) ∧ (∀ g ∈ groups, g.path = above ++ [name]) ∧
      AllPlaced (above ++ [name]) inner

/-- Branches that stem from groups, below the ranges with the given names. -/
def AllPlaced (above : List String) : List Branch → Prop
  | [] => True
  | b :: bs => b.Placed above ∧ (∀ o ∈ bs, o.name ≠ b.name) ∧ AllPlaced above bs

end

mutual

/-- A placed branch is not bare: there is a group in it or further in. -/
theorem Branch.Placed.preorder_ne_nil {above : List String} :
    ∀ {b : Branch}, b.Placed above → b.preorder ≠ []
  | .mk _ groups inner, ⟨_, hne, _, hi⟩ => by
    rw [Branch.preorder]
    rcases hne with hne | hne
    · exact List.append_ne_nil_of_left_ne_nil hne _
    · exact List.append_ne_nil_of_right_ne_nil _ (hi.preorderOf_ne_nil hne)

theorem AllPlaced.preorderOf_ne_nil {above : List String} :
    ∀ {bs : List Branch}, AllPlaced above bs → bs ≠ [] → preorderOf bs ≠ []
  | [], _, h => absurd rfl h
  | b :: bs, ⟨hb, _, _⟩, _ => by
    rw [preorderOf]
    exact List.append_ne_nil_of_left_ne_nil hb.preorder_ne_nil _

end

/-- Branches stay placed if the one with a name is changed to, or made, a placed one. -/
theorem AllPlaced.updateBranch {above : List String} {name : String} {f : Branch → Branch}
    (hn : ∀ b, (f b).name = b.name) (he : (f (.empty name)).Placed above)
    (hf : ∀ b : Branch, b.name = name → b.Placed above → (f b).Placed above) {bs : List Branch}
    (h : AllPlaced above bs) : AllPlaced above (updateBranch name f bs) := by
  induction bs with
  | nil => exact ⟨he, nofun, trivial⟩
  | cons b bs ih =>
    obtain ⟨hb, hne, hbs⟩ := h
    rw [Catalog.updateBranch]
    by_cases hbn : b.name = name
    · rw [if_pos hbn]
      exact ⟨hf b hbn hb, fun o ho => hn b ▸ hne o ho, hbs⟩
    · rw [if_neg hbn]
      refine ⟨hb, ?_, ih hbs⟩
      intro o ho
      rcases name_of_mem_updateBranch hn ho with h | ⟨o', ho', h⟩
      · exact fun heq => hbn (heq.symm.trans h)
      · exact h ▸ hne o' ho'

theorem insertGroup_ne_nil {g : Group} {path : List String} (h : path ≠ []) (bs : List Branch) :
    insertGroup g path bs ≠ [] := by
  cases path with
  | nil => exact absurd rfl h
  | cons name path =>
    cases path with
    | nil => exact updateBranch_ne_nil
    | cons next path => exact updateBranch_ne_nil

/-- A group put where its path leads leaves branches placed. It is the step from which all branches
of groups are. -/
theorem AllPlaced.insertGroup {g : Group} {path : List String}
    (ht : ∀ name ∈ path, trimmed name = name) {above : List String} (hg : g.path = above ++ path)
    {bs : List Branch} (h : AllPlaced above bs) : AllPlaced above (insertGroup g path bs) := by
  induction path generalizing above bs with
  | nil => exact h
  | cons name path ih =>
    have hname := ht name (.head _)
    -- the path ends in the branch with this name, or goes on below it
    cases path with
    | nil =>
      refine h.updateBranch (Branch.name_withGroup g) ?_ ?_
      · have hown : ∀ o ∈ [g], o.path = above ++ [name] := fun o ho => List.mem_singleton.mp ho ▸ hg
        exact ⟨hname, .inl (List.cons_ne_nil _ _), hown, trivial⟩
      · rintro ⟨name, groups, inner⟩ rfl ⟨hb, -, hgs, hi⟩
        refine ⟨hb, .inl (by simp), fun o ho => ?_, hi⟩
        rcases List.mem_append.mp ho with ho | ho
        · exact hgs o ho
        · exact List.mem_singleton.mp ho ▸ hg
    | cons next path =>
      have hpath : g.path = (above ++ [name]) ++ next :: path := by
        rw [hg, List.append_assoc, List.singleton_append]
      have hne := insertGroup_ne_nil (g := g) (List.cons_ne_nil next path)
      have hins {inner : List Branch} (hi : AllPlaced (above ++ [name]) inner) :=
        ih (fun n hn => ht n (.tail _ hn)) hpath hi
      refine h.updateBranch (Branch.name_mapInner _) ?_ ?_
      · exact ⟨hname, .inr (hne []), nofun, hins trivial⟩
      · rintro ⟨name, groups, inner⟩ rfl ⟨hb, -, hgs, hi⟩
        exact ⟨hb, .inr (hne inner), hgs, hins hi⟩

/-- The branches of groups are placed, provided that the names in their paths have no blank ends, as
those in a catalog have none. -/
theorem allPlaced_branchesOf {gs : List Group}
    (h : ∀ g ∈ gs, ∀ name ∈ g.path, trimmed name = name) : AllPlaced [] (branchesOf gs) := by
  suffices hs : ∀ bs, AllPlaced [] bs →
      AllPlaced [] (gs.foldl (fun bs g => insertGroup g g.path bs) bs) from hs [] trivial
  induction gs with
  | nil => exact fun _ hbs => hbs
  | cons g gs ih =>
    intro bs hbs
    exact ih (fun o ho => h o (.tail _ ho)) _ (hbs.insertGroup (h g (.head _)) rfl)

/-! ## Branches of groups in pre-order -/

/-- Branches that stand below the ranges with the given names, with groups put among them one after
the other. -/
def place (above : List String) (gs : List Group) (bs : List Branch) : List Branch :=
  gs.foldl (fun bs g => insertGroup g (g.path.drop above.length) bs) bs

theorem branchesOf_eq_place (gs : List Group) : branchesOf gs = place [] gs [] := rfl

theorem place_append (above : List String) (first rest : List Group) (bs : List Branch) :
    place above (first ++ rest) bs = place above rest (place above first bs) :=
  List.foldl_append

theorem drop_length_append (above : List String) (name : String) (path : List String) :
    (above ++ name :: path).drop above.length = name :: path := by
  rw [List.drop_append_length]

mutual

/-- The paths of groups in placed branches go on below: each begins with the path of the branch. -/
theorem Branch.Placed.exists_path {above : List String} : ∀ {b : Branch}, b.Placed above →
    ∀ g ∈ b.preorder, ∃ path, g.path = above ++ b.name :: path
  | .mk name groups inner, ⟨_, _, hg, hi⟩, g, h => by
    rcases List.mem_append.mp h with h | h
    · exact ⟨[], hg g h⟩
    · obtain ⟨next, path, hp⟩ := hi.exists_path g h
      exact ⟨next :: path, by rw [hp, List.append_assoc]; rfl⟩

theorem AllPlaced.exists_path {above : List String} : ∀ {bs : List Branch}, AllPlaced above bs →
    ∀ g ∈ preorderOf bs, ∃ name path, g.path = above ++ name :: path
  | b :: bs, ⟨hb, _, hbs⟩, g, h => by
    rcases List.mem_append.mp h with h | h
    · obtain ⟨path, hp⟩ := hb.exists_path g h
      exact ⟨b.name, path, hp⟩
    · exact hbs.exists_path g h

end

section

variable {above : List String} {name : String} {bs : List Branch}

/-- The first group of a new branch may find it there, with nothing in it. -/
theorem insertGroup_append_empty (hn : ∀ o ∈ bs, o.name ≠ name) (g : Group) (path : List String) :
    insertGroup g (name :: path) bs = insertGroup g (name :: path) (bs ++ [.empty name]) := by
  cases path with
  | nil => exact (updateBranch_of_forall_ne hn).trans (updateBranch_append_singleton hn rfl).symm
  | cons next path =>
    exact (updateBranch_of_forall_ne hn).trans (updateBranch_append_singleton hn rfl).symm

theorem place_append_empty (hn : ∀ o ∈ bs, o.name ≠ name) {gs : List Group} (hne : gs ≠ [])
    (hg : ∀ g ∈ gs, ∃ path, g.path = above ++ name :: path) :
    place above gs bs = place above gs (bs ++ [.empty name]) := by
  cases gs with
  | nil => exact absurd rfl hne
  | cons g gs =>
    obtain ⟨path, hp⟩ := hg g (.head _)
    have hi := insertGroup_append_empty hn g path
    rw [← drop_length_append above, ← hp] at hi
    exact congrArg (place above gs) hi

/-- A branch that stands last takes its own groups, one after the other, behind those that it has.
-/
theorem place_own (hn : ∀ o ∈ bs, o.name ≠ name) (inner : List Branch) {gs : List Group}
    (hg : ∀ g ∈ gs, g.path = above ++ [name]) (groups : List Group) :
    place above gs (bs ++ [.mk name groups inner]) = bs ++ [.mk name (groups ++ gs) inner] := by
  induction gs generalizing groups with
  | nil => rw [List.append_nil]; rfl
  | cons g gs ih =>
    have hi : insertGroup g (g.path.drop above.length) (bs ++ [.mk name groups inner]) =
        bs ++ [.mk name (groups ++ [g]) inner] := by
      rw [hg g (.head _), drop_length_append]
      exact updateBranch_append_singleton hn rfl
    have ht := ih (fun o ho => hg o (.tail _ ho)) (groups ++ [g])
    rw [List.append_assoc, List.singleton_append] at ht
    exact (congrArg (place above gs) hi).trans ht

/-- A branch that stands last takes the groups below it into its inner branches. -/
theorem place_below (hn : ∀ o ∈ bs, o.name ≠ name) (groups : List Group) {gs : List Group}
    (hg : ∀ g ∈ gs, ∃ next path, g.path = (above ++ [name]) ++ next :: path)
    (inner : List Branch) :
    place above gs (bs ++ [.mk name groups inner]) =
      bs ++ [.mk name groups (place (above ++ [name]) gs inner)] := by
  induction gs generalizing inner with
  | nil => rfl
  | cons g gs ih =>
    obtain ⟨next, path, hp⟩ := hg g (.head _)
    -- what is left of the path here is the name and what is left of it one range below
    have hd : g.path.drop above.length = name :: g.path.drop (above ++ [name]).length := by
      rw [hp, drop_length_append, List.append_assoc]
      exact drop_length_append above name (next :: path)
    have hne : g.path.drop (above ++ [name]).length ≠ [] := by
      rw [hp, drop_length_append]
      exact List.cons_ne_nil _ _
    have hi : insertGroup g (g.path.drop above.length) (bs ++ [.mk name groups inner]) =
        bs ++ [.mk name groups (insertGroup g (g.path.drop (above ++ [name]).length) inner)] := by
      rw [hd, insertGroup_cons hne]
      exact updateBranch_append_singleton hn rfl
    exact (congrArg (place above gs) hi).trans (ih (fun o ho => hg o (.tail _ ho)) _)

end

mutual

/-- The groups of a placed branch give it, next to branches with other names. -/
theorem Branch.Placed.place {above : List String} : ∀ {b : Branch}, b.Placed above →
    ∀ {bs : List Branch}, (∀ o ∈ bs, o.name ≠ b.name) → place above b.preorder bs = bs ++ [b]
  | .mk name groups inner, hb, bs, hn => by
    -- the branch is there without groups first, then it takes its own, then those below it
    rw [place_append_empty hn hb.preorder_ne_nil hb.exists_path]
    obtain ⟨-, -, hg, hi⟩ := hb
    have hin := hi.place fun _ _ _ ho => absurd ho List.not_mem_nil
    rw [Branch.preorder, place_append, Branch.empty, place_own hn [] hg, List.nil_append,
      place_below hn groups hi.exists_path]
    exact congrArg (fun inner => bs ++ [Branch.mk name groups inner]) hin

/-- The groups of placed branches give them, next to branches with other names. -/
theorem AllPlaced.place {above : List String} : ∀ {cs : List Branch}, AllPlaced above cs →
    ∀ {bs : List Branch}, (∀ c ∈ cs, ∀ o ∈ bs, o.name ≠ c.name) →
      place above (preorderOf cs) bs = bs ++ cs
  | [], _, bs, _ => (List.append_nil bs).symm
  | c :: cs, ⟨hc, hne, hcs⟩, bs, hn => by
    rw [preorderOf, place_append, hc.place (hn c (.head _)), hcs.place, List.append_assoc]
    · rfl
    · intro c' hc' o ho
      rcases List.mem_append.mp ho with ho | ho
      · exact hn c' (.tail _ hc') o ho
      · rw [List.mem_singleton.mp ho]
        exact (hne c' hc').symm

end

/-- The groups of placed branches, in pre-order, have these branches. So an order of the groups is
all that an export and an import can change. -/
theorem branchesOf_preorderOf {bs : List Branch} (h : AllPlaced [] bs) :
    branchesOf (preorderOf bs) = bs := by
  rw [branchesOf_eq_place]
  exact h.place fun _ _ _ ho => absurd ho List.not_mem_nil

/-! ## Changing the groups in branches -/

mutual

/-- A branch with its groups changed. -/
def Branch.mapGroups (f : Group → Group) : Branch → Branch
  | .mk name groups inner => .mk name (groups.map f) (mapAllGroups f inner)

/-- Branches with their groups changed. -/
def mapAllGroups (f : Group → Group) : List Branch → List Branch
  | [] => []
  | b :: bs => b.mapGroups f :: mapAllGroups f bs

end

section

variable {f : Group → Group}

@[simp] theorem Branch.name_mapGroups (b : Branch) : (b.mapGroups f).name = b.name := by
  cases b
  rfl

theorem name_of_mem_mapAllGroups {bs : List Branch} {o : Branch} (h : o ∈ mapAllGroups f bs) :
    ∃ b ∈ bs, o.name = b.name := by
  induction bs with
  | nil => exact absurd h List.not_mem_nil
  | cons b bs ih =>
    rcases List.mem_cons.mp h with rfl | h
    · exact ⟨b, .head _, b.name_mapGroups⟩
    · obtain ⟨b', hb', hn⟩ := ih h
      exact ⟨b', .tail _ hb', hn⟩

mutual

theorem Branch.preorder_mapGroups : ∀ b : Branch, (b.mapGroups f).preorder = b.preorder.map f
  | .mk name groups inner => by
    rw [Branch.mapGroups, Branch.preorder, Branch.preorder, List.map_append,
      preorderOf_mapAllGroups inner]

theorem preorderOf_mapAllGroups : ∀ bs : List Branch,
    preorderOf (mapAllGroups f bs) = (preorderOf bs).map f
  | [] => rfl
  | b :: bs => by
    rw [mapAllGroups, preorderOf, preorderOf, List.map_append, b.preorder_mapGroups,
      preorderOf_mapAllGroups bs]

end

mutual

/-- A change that leaves paths as they are leaves branches placed. -/
theorem Branch.Placed.mapGroups (hf : ∀ g, (f g).path = g.path) {above : List String} :
    ∀ {b : Branch}, b.Placed above → (b.mapGroups f).Placed above
  | .mk name groups inner, ⟨ht, hne, hg, hi⟩ => by
    refine ⟨ht, ?_, ?_, hi.mapAllGroups hf⟩
    · refine hne.imp (fun h => mt List.map_eq_nil_iff.mp h) fun h hn => h ?_
      cases inner with
      | nil => rfl
      | cons b bs => cases hn
    · intro o ho
      obtain ⟨g, hm, rfl⟩ := List.mem_map.mp ho
      exact (hf g).trans (hg g hm)

theorem AllPlaced.mapAllGroups (hf : ∀ g, (f g).path = g.path) {above : List String} :
    ∀ {bs : List Branch}, AllPlaced above bs → AllPlaced above (mapAllGroups f bs)
  | [], _ => trivial
  | b :: bs, ⟨hb, hn, hbs⟩ => by
    refine ⟨hb.mapGroups hf, fun o ho => ?_, hbs.mapAllGroups hf⟩
    obtain ⟨b', hb', ho⟩ := name_of_mem_mapAllGroups ho
    rw [ho, b.name_mapGroups]
    exact hn b' hb'

end

/-- Groups in pre-order that are changed, but not in their paths, have the changed branches. -/
theorem branchesOf_map_preorderOf (hf : ∀ g, (f g).path = g.path) {bs : List Branch}
    (h : AllPlaced [] bs) : branchesOf ((preorderOf bs).map f) = mapAllGroups f bs := by
  rw [← preorderOf_mapAllGroups]
  exact branchesOf_preorderOf (h.mapAllGroups hf)

/-- A change that leaves addresses as they are leaves spans as they are. -/
theorem Branch.span_mapGroups (hf : ∀ g, (f g).address = g.address) (b : Branch) :
    (b.mapGroups f).span = b.span := by
  have ha : (b.mapGroups f).addresses = b.addresses := by
    rw [Branch.addresses_eq, Branch.addresses_eq, Branch.preorder_mapGroups, List.map_map]
    refine List.map_congr_left fun g _ => ?_
    rw [Function.comp_apply, hf]
  rw [Branch.span, Branch.span, ha]

end

end BuildingBus.Catalog
