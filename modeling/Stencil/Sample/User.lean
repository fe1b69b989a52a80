import Stencil.Text.Quoted
import Stencil.Value.Accessors
import Stencil.Value.Conversion
/-!
# Users

A host type for trying out templates. Its secrets appear in its text and in no property.
-/
namespace Stencil.Sample

structure User where
  name : String
  title : String
  role : String
  email : String
  password : String
  deriving DecidableEq, Repr

namespace User

def text (u : User) : String :=
  "User \x7b name: " ++ Text.quoted u.name ++ ", title: " ++ Text.quoted u.title ++ ", role: " ++
    Text.quoted u.role ++ ", email: " ++ Text.quoted u.email ++ ", password: " ++
    Text.quoted u.password ++ " \x7d"

def accessors : Accessors User :=
  ((((((Accessors.empty
    |>.getter "display_name" fun u => toValue (u.name ++ " <" ++ u.email ++ ">"))
    |>.getter "title" fun u => toValue (u.title.map Char.toUpper))
    |>.predicate "admin" fun u => toValue (u.role == "admin"))
    |>.field "name" fun u => toValue u.name)
    |>.field "title" fun u => toValue u.title)
    |>.field "role" fun u => toValue u.role)
    |>.field "mail" fun u => toValue u.email

def toObject (u : User) (typeName : String) (identity : Nat) : HostObject :=
  ⟨identity, typeName, u.text, accessors.resolve? u⟩

end User
end Stencil.Sample
