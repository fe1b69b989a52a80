import Stencil.Template.Basic
/-!
# Registries

Where a render finds the templates that it calls by name.
-/
namespace Stencil

structure Registry where
  lookup? : String → Option Template
  /-- Finds a name for a template of a group, from the group's parent upwards. -/
  lookupSuper? (group name : String) : Option Template

namespace Registry

/-- A registry without templates. -/
def none : Registry := ⟨fun _ => .none, fun _ _ => .none⟩

end Registry
end Stencil
