import Stencil.Render.Basic
import Stencil.Template.Cache
/-!
# Engines

An engine compiles templates with its own delimiters and cache, and renders them in its own setting.
-/
namespace Stencil

structure Engine extends Setting where
  delimiters : Delimiters
  cache : TemplateCache

namespace Engine

def ofSetting (setting : Setting) (d : Delimiters) : Engine := ⟨setting, d, .empty⟩

def standard : Engine := ofSetting .standard .dollar

instance : Inhabited Engine := ⟨standard⟩

/-- Compiles a source, or takes it from the cache as long as it is unchanged. -/
def compile (engine : Engine) (name source : String) :
    Except TemplateError CachedTemplate × Engine :=
  let (result, cache) := engine.cache.getOrCompile name source engine.delimiters
  (result, { engine with cache })

/-- A new instance of a template of the registry. -/
def instanceOf (engine : Engine) (a : Arena) (name : String) :
    Except TemplateError (Handle × Arena) :=
  match engine.registry.lookup? name with
  | some t => .ok (a.instantiate t)
  | none => .error (.templateNotFound name)

end Engine
end Stencil
