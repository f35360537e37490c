import Mathlib.Data.List.Basic
import Mathlib.Data.List.Infix

/-!
# Paths as text

A path is a list over some alphabet, cut into components at a separator; a directory is the
list of the names that lead to it from the root. Nothing is looked up in a file system, so
`..` leaves the directory that was named before it.
-/
namespace LexicalPath

/-- What a component makes of a directory. -/
inductive Component (α : Type*) where
  | parentDir
  | normal (name : List α)
  deriving DecidableEq

section Directories
variable {α : Type*}

/-- The parent of the root is the root. -/
def enter (dir : List (List α)) : Component α → List (List α)
  | .parentDir => dir.dropLast
  | .normal name => dir ++ [name]

def walk (dir : List (List α)) (components : List (Component α)) : List (List α) := components.foldl enter dir

/-- The second lies in the first. -/
def Inside (dir file : List (List α)) : Prop := dir <+: file ∧ dir ≠ file

instance [DecidableEq α] (dir file : List (List α)) : Decidable (Inside dir file) := instDecidableAnd

/-- Some levels up, and then down by some names. -/
structure Route (α : Type*) where
  up : Nat
  down : List (List α)
  deriving DecidableEq

namespace Route

def append (route : Route α) : Component α → Route α
  | .parentDir => if route.down = [] then ⟨route.up + 1, []⟩ else ⟨route.up, route.down.dropLast⟩
  | .normal name => ⟨route.up, route.down ++ [name]⟩

/-- The components without those that cancel. -/
def ofComponents (components : List (Component α)) : Route α := components.foldl append ⟨0, []⟩

def target (dir : List (List α)) (route : Route α) : List (List α) :=
  dir.take (dir.length - route.up) ++ route.down

/-- The names of the directory that the route leaves. -/
def left (dir : List (List α)) (route : Route α) : List (List α) := dir.drop (dir.length - route.up)

end Route

variable {dir file : List (List α)} {route : Route α} {components more : List (Component α)} {name : List α}

theorem walk_append : walk dir (components ++ more) = walk (walk dir components) more := List.foldl_append

theorem enter_target (dir : List (List α)) (route : Route α) (c : Component α) :
    enter (route.target dir) c = (route.append c).target dir := by
  cases c with
  | normal name => exact List.append_assoc _ _ _
  | parentDir =>
      unfold enter Route.append Route.target
      dsimp only
      by_cases hdown : route.down = []
      · rw [if_pos hdown, hdown, List.append_nil, List.append_nil, List.dropLast_eq_take, List.take_take,
          List.length_take]
        have hlevels : min (min (dir.length - route.up) dir.length - 1) (dir.length - route.up) =
            dir.length - (route.up + 1) := by omega
        rw [hlevels]
      · rw [if_neg hdown, List.dropLast_append_of_ne_nil hdown]

theorem walk_target (dir : List (List α)) (route : Route α) (components : List (Component α)) :
    walk (route.target dir) components = (components.foldl Route.append route).target dir := by
  induction components generalizing route with
  | nil => rfl
  | cons c components ih =>
      rw [walk, List.foldl_cons, enter_target]
      exact ih _

/-- Walking is following the route of the components. -/
theorem walk_eq_target (dir : List (List α)) (components : List (Component α)) :
    walk dir components = (Route.ofComponents components).target dir := by
  rw [Route.ofComponents, ← walk_target]
  unfold Route.target
  rw [Nat.sub_zero, List.take_length, List.append_nil]

theorem inside_append_left_iff {common a b : List (List α)} : Inside (common ++ a) (common ++ b) ↔ Inside a b := by
  unfold Inside
  rw [List.prefix_append_right_inj, Ne, Ne, List.append_cancel_left_eq]

/-- A route ends inside the directory it starts from exactly if it first goes back to where it left. -/
theorem inside_target_iff : Inside dir (route.target dir) ↔ Inside (route.left dir) route.down := by
  have hsplit : dir = dir.take (dir.length - route.up) ++ route.left dir := (List.take_append_drop _ dir).symm
  calc Inside dir (route.target dir)
      ↔ Inside (dir.take (dir.length - route.up) ++ route.left dir) (route.target dir) := by rw [← hsplit]
    _ ↔ Inside (route.left dir) route.down := inside_append_left_iff

theorem Route.left_of_up_eq_zero (h : route.up = 0) : route.left dir = [] := by
  unfold Route.left
  rw [h, Nat.sub_zero, List.drop_length]

theorem inside_nil_iff : Inside [] file ↔ file ≠ [] := by
  unfold Inside
  rw [and_iff_right (List.nil_prefix), ne_comm]

end Directories

section Text
variable {α : Type*} [DecidableEq α] (separator dot : α)

/-- Empty pieces and single dots stand for nothing. -/
def component (piece : List α) : Option (Component α) :=
  if piece = [] ∨ piece = [dot] then none
  else if piece = [dot, dot] then some .parentDir
  else some (.normal piece)

def components (path : List α) : List (Component α) := (path.splitOn separator).filterMap (component dot)

def IsAbsolute (path : List α) : Prop := path.head? = some separator

instance (path : List α) : Decidable (IsAbsolute separator path) := inferInstanceAs (Decidable (_ = _))

/-- An absolute path replaces the base. -/
def join (base path : List α) : List α :=
  if IsAbsolute separator path then path
  else if base = [] ∨ base.getLast? = some separator then base ++ path
  else base ++ separator :: path

/-- The place of a path, seen from a current directory. -/
def resolve (cwd : List (List α)) (path : List α) : List (List α) :=
  walk (if IsAbsolute separator path then [] else cwd) (components separator dot path)

/-- The name at the end of a path, if it ends in one. -/
def fileName (path : List α) : Option (List α) :=
  match (components separator dot path).getLast? with
  | some (.normal name) => some name
  | _ => none

variable {separator dot} {base path : List α} {cwd : List (List α)} {name : List α}

theorem components_append_separator (base path : List α) : components separator dot (base ++ separator :: path) =
    components separator dot base ++ components separator dot path := by
  rw [components, List.splitOn_append_cons_self, List.filterMap_append]
  rfl

theorem components_nil : components separator dot [] = [] := rfl

/-- A separator at the end changes nothing. -/
theorem components_concat_separator (base : List α) :
    components separator dot (base ++ [separator]) = components separator dot base := by
  rw [components_append_separator, components_nil, List.append_nil]

theorem components_join (h : ¬ IsAbsolute separator path) : components separator dot (join separator base path) =
    components separator dot base ++ components separator dot path := by
  unfold join
  rw [if_neg h]
  split_ifs with hbase
  · cases hbase with
    | inl hnil =>
        rw [hnil]
        rfl
    | inr hlast =>
        obtain ⟨front, rfl⟩ := List.getLast?_eq_some_iff.mp hlast
        rw [List.append_assoc, List.singleton_append, components_append_separator, components_concat_separator]
  · exact components_append_separator base path

theorem isAbsolute_join (h : ¬ IsAbsolute separator path) :
    IsAbsolute separator (join separator base path) ↔ IsAbsolute separator base := by
  unfold join
  rw [if_neg h]
  cases base with
  | nil => exact iff_of_false h nofun
  | cons a base => split <;> exact Iff.rfl

/-- A relative path goes on from where the base leads. -/
theorem resolve_join (h : ¬ IsAbsolute separator path) : resolve separator dot cwd (join separator base path) =
    walk (resolve separator dot cwd base) (components separator dot path) := by
  unfold resolve
  rw [components_join h, walk_append]
  simp only [isAbsolute_join h]

theorem resolve_join_absolute (h : IsAbsolute separator path) : resolve separator dot cwd (join separator base path) =
    walk [] (components separator dot path) := by
  unfold resolve join
  rw [if_pos h, if_pos h]

theorem not_mem_of_mem_splitOn {piece : List α} (h : piece ∈ path.splitOn separator) : separator ∉ piece := by
  induction path generalizing piece with
  | nil =>
      rw [List.splitOn_nil, List.mem_singleton] at h
      rw [h]
      exact List.not_mem_nil
  | cons a path ih =>
      rw [List.splitOn_cons_eq_if_modifyHead] at h
      by_cases ha : a = separator
      · rw [if_pos (beq_iff_eq.mpr ha)] at h
        cases List.mem_cons.mp h with
        | inl hnil =>
            rw [hnil]
            exact List.not_mem_nil
        | inr htail => exact ih htail
      · rw [if_neg (mt beq_iff_eq.mp ha)] at h
        cases hpieces : path.splitOn separator with
        | nil => exact absurd hpieces (List.splitOn_ne_nil _ _)
        | cons first rest =>
            rw [hpieces] at h ih
            cases List.mem_cons.mp h with
            | inl hfirst =>
                rw [hfirst]
                exact List.not_mem_cons_of_ne_of_not_mem (Ne.symm ha) (ih List.mem_cons_self)
            | inr hrest => exact ih (List.mem_cons_of_mem _ hrest)

/-- Without separators and dots a text is a name. -/
theorem components_name (hseparator : separator ∉ name) (hdot : dot ∉ name) (hne : name ≠ []) :
    components separator dot name = [.normal name] := by
  have hnodots : ¬ (name = [] ∨ name = [dot]) := by
    rintro (hnil | hone)
    · exact hne hnil
    · exact hdot (hone ▸ List.mem_cons_self)
  have hnotup : name ≠ [dot, dot] := fun htwo => hdot (htwo ▸ List.mem_cons_self)
  rw [components, List.splitOn_eq_singleton hseparator, List.filterMap_cons, component, if_neg hnodots, if_neg hnotup]
  rfl

omit [DecidableEq α] in
theorem not_isAbsolute_of_not_mem {path : List α} (h : separator ∉ path) : ¬ IsAbsolute separator path :=
  fun habsolute => h (List.mem_of_mem_head? habsolute)

/-- A name among the components of a path is a path of that one component. -/
theorem components_of_mem (h : .normal name ∈ components separator dot path) :
    components separator dot name = [.normal name] ∧ ¬ IsAbsolute separator name := by
  obtain ⟨piece, hpiece, hname⟩ := List.mem_filterMap.mp h
  have hsame : piece = name := by
    unfold component at hname
    split_ifs at hname
    · cases hname
    · exact Component.normal.inj (Option.some.inj hname)
  subst hsame
  have hfree := not_mem_of_mem_splitOn hpiece
  refine ⟨?_, not_isAbsolute_of_not_mem hfree⟩
  rw [components, List.splitOn_eq_singleton hfree, List.filterMap_cons_some hname, List.filterMap_nil]

theorem mem_of_fileName (h : fileName separator dot path = some name) :
    .normal name ∈ components separator dot path := by
  unfold fileName at h
  split at h
  next hlast =>
    cases h
    exact List.mem_of_getLast? hlast
  · cases h

end Text
end LexicalPath
