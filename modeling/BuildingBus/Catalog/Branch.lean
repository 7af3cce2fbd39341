import BuildingBus.Catalog.Basic

/-!
# Branches of ranges

The paths of a list of groups describe a forest of ranges. A *branch* of it is a range with the
groups whose path ends there and the branches inside it. There is one branch for every beginning of
a path, and branches stand in the order in which the list first mentions them.

The *span* of a branch is the least and the greatest address of the groups in it, those of its inner
branches included.
-/

namespace BuildingBus.Catalog

/-- A range with the groups whose path ends there, and the branches in it. Unlike a declared range
it is put together from the paths of groups, which may mention it again and again. -/
inductive Branch where
  /-- the range with a name, its own groups and its inner branches -/
  | mk (name : String) (groups : List Group) (inner : List Branch)

namespace Branch

/-- The name of the range. -/
def name : Branch → String
  | mk name _ _ => name

/-- The groups whose path ends at the range. -/
def groups : Branch → List Group
  | mk _ groups _ => groups

/-- The branches in the range. -/
def inner : Branch → List Branch
  | mk _ _ inner => inner

/-- The range with this name and nothing in it. -/
def empty (name : String) : Branch := mk name [] []

/-- The branch with one more group of its own. -/
def withGroup (g : Group) : Branch → Branch
  | mk name groups inner => mk name (groups ++ [g]) inner

/-- The branch with its inner branches changed. -/
def mapInner (f : List Branch → List Branch) : Branch → Branch
  | mk name groups inner => mk name groups (f inner)

@[simp] theorem name_withGroup (g : Group) (b : Branch) : (b.withGroup g).name = b.name := by
  cases b; rfl

@[simp] theorem name_mapInner (f : List Branch → List Branch) (b : Branch) :
    (b.mapInner f).name = b.name := by
  cases b; rfl

end Branch

/-! ## The forest of a list of groups -/

/-- Changes the branch with a name, which is put at the end first if there is none. So branches side
by side have different names and stand in the order of their first mention. -/
def updateBranch (name : String) (f : Branch → Branch) : List Branch → List Branch
  | [] => [f (.empty name)]
  | b :: bs => if b.name = name then f b :: bs else b :: updateBranch name f bs

/-- The branches with a group put where a path leads, the ranges on the way being made as they are
needed. A group without a path stands in no range. -/
def insertGroup (g : Group) : List String → List Branch → List Branch
  | [], bs => bs
  | [name], bs => updateBranch name (.withGroup g) bs
  | name :: path, bs => updateBranch name (.mapInner (insertGroup g path)) bs

/-- The branches that the paths of groups describe, with the groups put in one after the other. It
is what an exported document is written from. -/
def branchesOf (groups : List Group) : List Branch :=
  groups.foldl (fun bs g => insertGroup g g.path bs) []

/-! ## Spans -/

mutual

/-- The addresses of the groups in a branch. -/
def Branch.addresses : Branch → List Nat
  | .mk _ groups inner => groups.map (·.address.raw.toNat) ++ addressesOf inner

/-- The addresses of the groups in branches. -/
def addressesOf : List Branch → List Nat
  | [] => []
  | b :: bs => b.addresses ++ addressesOf bs

end

/-- The least and the greatest address in a branch, if there is any. A branch made from groups
always has one, since each branch is on the way to some group. -/
def Branch.span (b : Branch) : Option (Nat × Nat) :=
  match b.addresses with
  | [] => none
  | a :: as => some (as.foldl min a, as.foldl max a)

end BuildingBus.Catalog
