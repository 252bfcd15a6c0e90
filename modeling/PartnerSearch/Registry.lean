import PartnerSearch.Log
import PartnerSearch.Strategy

set_option autoImplicit false

/-!
The registered search strategies, one for a field type, and the check that every scalar field which
a path can reach has one.
-/

namespace PartnerSearch

/-- Strategies of distinct types, the one registered last first. -/
structure Registry where
  strategies : List Strategy

namespace Registry

def empty : Registry := ⟨[]⟩

def find? (registry : Registry) (type : FieldType) : Option Strategy :=
  registry.strategies.find? fun strategy => strategy.type == type

def contains (registry : Registry) (type : FieldType) : Bool := (registry.find? type).isSome

def size (registry : Registry) : Nat := registry.strategies.length

def isEmpty (registry : Registry) : Bool := registry.strategies.isEmpty

/-- The strategy for the field type of a path. -/
def get (registry : Registry) (type : FieldType) (member : String) : Except SearchError Strategy :=
  match registry.find? type with
  | some strategy => .ok strategy
  | none => .error (.unregisteredType member type)

/-- A later strategy takes the place of an earlier one of its type. -/
def register (registry : Registry) (strategy : Strategy) : Registry :=
  ⟨strategy :: registry.strategies.filter fun other => other.type != strategy.type⟩

def ofList (strategies : List Strategy) : Registry := strategies.foldl register empty

/-- The types registered again, each time one is. -/
def replaced : Registry → List Strategy → List FieldType
  | _, [] => []
  | registry, strategy :: rest =>
    let others := replaced (registry.register strategy) rest
    if registry.contains strategy.type then strategy.type :: others else others

/-- What is logged while the strategies are registered in order. -/
def registrationEvents (strategies : List Strategy) : List Log.Event :=
  (replaced empty strategies).map fun type =>
    ⟨.warning, "Search strategy for " ++ type.label ++ " registered twice", []⟩

theorem find?_register (registry : Registry) (strategy : Strategy) (type : FieldType) :
    (registry.register strategy).find? type =
      if strategy.type = type then some strategy else registry.find? type := by
  by_cases same : strategy.type = type
  · simp [register, find?, same]
  · have differs : (strategy.type == type) = false := by simpa using same
    simp only [register, find?, List.find?_cons, differs, same, List.find?_filter, if_false]
    congr 1
    funext other
    by_cases found : other.type = type
    · simp [found, Ne.symm same]
    · simp [found]

section Validation

variable {size : Nat}

/-- The path of a field of the entity that `path` leads to. -/
def memberPath (path name : String) : String :=
  if path.isEmpty then name else path ++ "." ++ name

/-- Looks up every scalar field; the relations are left to visit, in field order. -/
def checkFields (registry : Registry) (path : String) :
    List (Field size) → Except SearchError (List (Fin size × String))
  | [] => .ok []
  | .scalar name _ type :: rest => do
    let _ ← registry.get type (memberPath path name)
    checkFields registry path rest
  | .relation name target _ _ :: rest => do
    return (target, memberPath path name) :: (← checkFields registry path rest)

/-- How many entities have not been visited. -/
def unvisited (visited : List (Fin size)) : Nat :=
  (List.finRange size).countP fun position => position ∉ visited

theorem countP_lt_countP {α : Type} {p q : α → Bool} {items : List α} {item : α}
    (present : item ∈ items) (weaker : ∀ x, q x = true → p x = true) (held : p item = true)
    (lost : q item = false) : items.countP q < items.countP p := by
  induction items with
  | nil => simp at present
  | cons first rest ih =>
    have below : rest.countP q ≤ rest.countP p := List.countP_mono_left fun x _ => weaker x
    by_cases here : first = item
    · subst here
      rw [List.countP_cons_of_pos held, List.countP_cons_of_neg (by simp [lost])]
      exact Nat.lt_succ_of_le below
    · have later := ih (by simpa [Ne.symm here] using present)
      rw [List.countP_cons, List.countP_cons]
      have step : (if q first then 1 else 0) ≤ if p first then 1 else 0 := by
        split
        · next taken => simp [weaker first taken]
        · exact Nat.zero_le _
      omega

theorem unvisited_cons_lt {visited : List (Fin size)} {position : Fin size}
    (fresh : position ∉ visited) : unvisited (position :: visited) < unvisited visited :=
  countP_lt_countP (List.mem_finRange position) (by simp) (by simpa using fresh) (by simp)

/-- Visits the entities on a stack and all that they lead to, each of them once. -/
def validateFrom (registry : Registry) (entity : Fin size → Entity size)
    (visited : List (Fin size)) (pending : List (Fin size × String)) : Except SearchError Unit :=
  match pending with
  | [] => .ok ()
  | (position, path) :: rest =>
    if position ∈ visited then validateFrom registry entity visited rest
    else
      match registry.checkFields path (entity position).fields with
      | .error error => .error error
      | .ok relations =>
        validateFrom registry entity (position :: visited) (relations.reverse ++ rest)
termination_by (unvisited visited, pending.length)
decreasing_by
  · exact Prod.Lex.right _ (Nat.lt_succ_self _)
  · exact Prod.Lex.left _ _ (unvisited_cons_lt (by assumption))

end Validation

/-- Checks that every scalar field within reach of `root` has a strategy. -/
def validate (registry : Registry) (schema : Schema) (root : Fin schema.size) :
    Except SearchError Unit :=
  registry.validateFrom schema.entity [] [(root, "")]

end Registry

end PartnerSearch
