import Runbook.Definition

/-!
# The registry of definitions

Definitions by name. A name is taken by whoever registers it first, until it is
replaced or removed. A run keeps the definition with which it was created.
-/

namespace Runbook

/-- The definitions from which runs can be created by name. -/
structure Registry where
  /-- the definitions by their names -/
  definitions : Catalog Definition
  deriving Inhabited

namespace Registry

/-- A registry without definitions. -/
def empty : Registry := ⟨Catalog.empty⟩

/-- The definition of that name. -/
def get? (r : Registry) (name : String) : Option Definition := r.definitions.get? name

/-- The names, sorted. -/
def names (r : Registry) : List String := r.definitions.names

/-- Put in a definition, in place of one of the same name. -/
def replace (r : Registry) (d : Definition) : Registry := ⟨r.definitions.insert d.name d⟩

/-- Put in a definition whose name is not taken. -/
def register (r : Registry) (d : Definition) : Except DefinitionFault Registry :=
  if r.definitions.contains d.name then .error (.alreadyRegistered d.name) else .ok (r.replace d)

/-- Take out the definition of that name; also whether there was one. -/
def remove (r : Registry) (name : String) : Bool × Registry :=
  (r.definitions.contains name, ⟨r.definitions.erase name⟩)

@[simp] theorem get?_replace (r : Registry) (d : Definition) (name : String) :
    (r.replace d).get? name = if name = d.name then some d else r.get? name :=
  r.definitions.get?_insert d.name name d

@[simp] theorem get?_remove (r : Registry) (name other : String) :
    (r.remove name).2.get? other = if other = name then none else r.get? other :=
  r.definitions.get?_erase name other

end Registry

end Runbook
