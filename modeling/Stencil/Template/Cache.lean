import Stencil.Table
import Stencil.Template.Compile
/-!
# Compile caches

A cache keeps compiled templates by name and gives one out again as long as it is asked for the same
source with the same delimiters. Each compilation has a serial number of its own, which tells the
objects that a cache gives out apart.
-/
namespace Stencil

structure CachedTemplate where
  source : String
  delimiters : Delimiters
  template : Template
  serial : Nat

structure TemplateCache where
  entries : Table CachedTemplate
  nextSerial : Nat

namespace TemplateCache

def empty : TemplateCache := ⟨.empty, 0⟩

/-- The entry of a name, if it was compiled from the same source in the same way. -/
def current? (cache : TemplateCache) (name source : String) (d : Delimiters) :
    Option CachedTemplate :=
  (cache.entries.find? name).filter fun e => e.source = source ∧ e.delimiters = d

/-- A compiled template from the cache, compiled and kept now where it is not there. A source with
errors changes nothing. -/
def getOrCompile (cache : TemplateCache) (name source : String) (d : Delimiters) :
    Except TemplateError CachedTemplate × TemplateCache :=
  match cache.current? name source d with
  | some entry => (.ok entry, cache)
  | none =>
    match Template.compile d name source with
    | .error e => (.error e, cache)
    | .ok template =>
      let entry := ⟨source, d, template, cache.nextSerial⟩
      (.ok entry, ⟨cache.entries.insert name entry, cache.nextSerial + 1⟩)

def remove (cache : TemplateCache) (name : String) : TemplateCache :=
  { cache with entries := cache.entries.erase name }

def clear (cache : TemplateCache) : TemplateCache := { cache with entries := .empty }

def size (cache : TemplateCache) : Nat := cache.entries.length

def isEmpty (cache : TemplateCache) : Bool := cache.entries.isEmpty

end TemplateCache
end Stencil
