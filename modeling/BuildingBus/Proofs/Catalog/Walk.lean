import BuildingBus.Catalog.Plan

/-!
# The walk and its order

A walk carries a path that it has to restore. Here the same order is given without a walk, as the list
of all entries, each with the names of the ranges around it (`locatedAll`). A walk leaves its path as
it was and adds the entries of that list, in order, whatever adding does besides
(`Walk.through_eq`): every statement about building can thus be proved by induction on a list.
-/

namespace BuildingBus.Catalog

open Text

/-! ## Entries in walk order -/

mutual

/-- The entries of a range in walk order. The path is handed down, so that an entry is located by the
ranges that enclose it and by nothing that was walked before. -/
def GroupRange.located (above : List String) : GroupRange → List LocatedEntry
  | .mk name entries ranges =>
    let path := above ++ [trimmed name]
    entries.map (⟨path, ·⟩) ++ locatedAll path ranges

/-- The entries of a list of ranges in walk order, all of them below one path. -/
def locatedAll (above : List String) : List GroupRange → List LocatedEntry
  | [] => []
  | range :: ranges => range.located above ++ locatedAll above ranges

end

/-! ## Walking -/

namespace Walk

variable {m : Type → Type} [Monad m] {add : Catalog → LocatedEntry → m Catalog}

/-- A range grows the path by its name. -/
theorem path_enter (w : Walk) (name : String) : (w.enter name).path = w.path ++ [trimmed name] := rfl

/-- Leaving a range takes its name from the path, whatever has been added meanwhile. -/
theorem leave_concat (path : List String) (name : String) (c : Catalog) :
    leave ⟨path ++ [name], c⟩ = ⟨path, c⟩ := by
  rw [leave, List.dropLast_concat]

variable [LawfulMonad m]

/-- The own entries of a range are added with one path, which stays. -/
theorem foldlM_visit (w : Walk) (entries : List Entry) :
    entries.foldlM (visit add) w =
      (fun c => { w with catalog := c }) <$>
        (entries.map (⟨w.path, ·⟩)).foldlM add w.catalog := by
  induction entries generalizing w with
  | nil => simp only [List.foldlM_nil, List.map_nil, map_pure]
  | cons e entries ih =>
    simp only [List.foldlM_cons, List.map_cons, visit, bind_assoc, pure_bind, map_bind, ih]

mutual

/-- A walk through a range adds its entries and comes out with the path that it had. -/
theorem throughRange_eq (w : Walk) :
    ∀ r : GroupRange, throughRange add w r =
      (fun c => { w with catalog := c }) <$> (r.located w.path).foldlM add w.catalog
  | .mk name entries ranges => by
    rw [throughRange, GroupRange.located, List.foldlM_append, foldlM_visit, bind_map_left, map_bind]
    refine congrArg _ (funext fun c => ?_)
    -- `c` has the own entries; the inner ranges are walked with the longer path, which then goes
    rw [through_eq { w.enter name with catalog := c } ranges, bind_map_left, map_eq_pure_bind]
    simp only [path_enter, leave_concat]

/-- A walk through ranges side by side adds their entries and comes out with the path that it had. -/
theorem through_eq (w : Walk) :
    ∀ rs : List GroupRange, through add w rs =
      (fun c => { w with catalog := c }) <$> (locatedAll w.path rs).foldlM add w.catalog
  | [] => by simp only [through, locatedAll, List.foldlM_nil, map_pure]
  | r :: rs => by
    rw [through, locatedAll, List.foldlM_append, throughRange_eq w r, bind_map_left, map_bind]
    refine congrArg _ (funext fun c => ?_)
    rw [through_eq { w with catalog := c } rs]

end

/-- From the outermost ranges, a walk ends with the catalog of all entries in walk order. -/
theorem catalog_through (c : Catalog) (rs : List GroupRange) :
    (do return (← through add ⟨[], c⟩ rs).catalog) = (locatedAll [] rs).foldlM add c := by
  simp only [through_eq, bind_map_left, bind_pure]

end Walk

/-- What is assembled is the catalog of all entries in walk order. -/
theorem Plan.assemble_eq (p : Plan) : p.assemble = (locatedAll [] p.ranges).foldlM add p.start :=
  Walk.catalog_through p.start p.ranges

end BuildingBus.Catalog
