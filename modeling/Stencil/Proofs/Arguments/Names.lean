import Stencil.Proofs.Grammar.Yielding
import Stencil.Template.Grammar
/-!
# Names of arguments

Whatever the source, and whatever errors are recorded on the way, a list of named arguments that has
been read binds no name twice.
-/
namespace Stencil
namespace Grammar

open Parse

variable (g : Grammar)

/-- The names are different. -/
def Distinct (bindings : List (String × Expr)) : Prop := (bindings.map Prod.fst).Nodup

theorem distinct_nil : Distinct [] := List.nodup_nil

theorem distinct_addAssignment {bindings : List (String × Expr)} (distinct : Distinct bindings) :
    (addAssignment g bindings).Yields Distinct := by
  refine .skip fun assigned? => ?_
  cases assigned? with
  | none => exact .skip fun _ => .pure distinct
  | some assigned =>
    obtain ⟨name, value⟩ := assigned
    dsimp only
    split
    · exact .skip fun _ => .pure distinct
    · rename_i new
      have new : name ∉ bindings.map Prod.fst := by simpa using new
      refine .pure ?_
      rw [Distinct, List.map_append]
      refine List.nodup_append.2 ⟨distinct, by simp, fun other member last isLast same => new ?_⟩
      obtain rfl : last = name := List.mem_singleton.1 isLast
      exact same ▸ member

/-- A name that comes again is reported and left out. -/
theorem distinct_arguments :
    (arguments g).Yields fun args => ∀ bindings, args = .named bindings → Distinct bindings := by
  refine .skip fun _ => .skip fun isEmpty => ?_
  cases isEmpty with
  | true => exact .pure nofun
  | false =>
    refine .skip fun next => .skip fun second => ?_
    split
    · refine .bind (distinct_addAssignment g distinct_nil) fun bindings distinct => ?_
      refine .bind (.repeated (fun _ => distinct_addAssignment g) distinct) fun bindings distinct =>
        .skip fun _ => .pure ?_
      rintro _ ⟨⟩
      exact distinct
    · exact .skip fun _ => .skip fun _ => .pure nofun

end Grammar
end Stencil
