import Stencil.Markup.Event
import Stencil.Markup.Entity
/-!
# The reader that group files are read with
-/
namespace Stencil.Markup

instance standardReader : Reader where
  events := Event.ofText
  attribute? := attribute?
  resolve? := resolveEntities

end Stencil.Markup
