import Stencil.Proofs.Recast
/-!
# Renders that may go deeper

What comes to an end within some depth does so within every greater one, and in the same way. So
does what came to an end although it was barred from the root.
-/
namespace Stencil
namespace Deeper

/-- A render beside itself, of which the first one may stop earlier. -/
def lockstep : Lockstep where
  Twin _ _ h h' := h = h'
  Made _ _ h h' := h = h'
  Coupled c c' a b := c = c' ∧ a = b
  Evolves _ _ _ _ a₁ b₁ := a₁ = b₁
  Left _ _ := True
  Lax := True

instance (setting : Setting) : lockstep.Suits setting := ⟨trivial⟩

theorem lawful : lockstep.Lawful where
  refl coupled := coupled.2
  trans _ second := second
  coupled coupled evolves := ⟨coupled.1, evolves⟩
  left _ := trivial
  twin _ twin := twin
  made _ made := made
  twin_of_made made := made
  resolve {c _ a _} name coupled := by
    obtain ⟨rfl, rfl⟩ := coupled
    cases a.resolve c name with
    | found v => exact .found (.same fun _ _ => rfl)
    | missing declared owner => exact .missing rfl
  group coupled := by
    obtain ⟨rfl, rfl⟩ := coupled
    rfl
  template coupled made := by
    obtain ⟨-, rfl⟩ := coupled
    rw [made]
  similar coupled twin := by
    obtain ⟨-, rfl⟩ := coupled
    exact Template.similar_of_eq (by rw [twin])
  property {_ _ a _ h _} name coupled twin := by
    obtain ⟨-, rfl⟩ := coupled
    obtain rfl := twin
    cases (a.get h).property name with
    | none => exact .none
    | some v => exact .some (.same fun _ _ => rfl)
  embed t coupled := by
    obtain ⟨rfl, rfl⟩ := coupled
    exact ⟨rfl, rfl⟩
  argument name coupled made same := by
    obtain ⟨-, rfl⟩ := coupled
    obtain rfl := made
    obtain rfl := same.eq_of_diagonal fun _ _ => id
    rfl
  arguments coupled made := by
    obtain ⟨rfl, rfl⟩ := coupled
    obtain rfl := made
    exact ⟨⟨rfl, rfl⟩, rfl, fun _ _ evolves => evolves⟩

variable {setting : Setting} {c h root : Handle} {a b : Arena} {depth deeper : Nat}

theorem encloses : lockstep.Encloses setting c c h h a a where
  opened := trivial
  refused _ := rfl
  traces _ _ := ⟨rfl, trivial⟩
  entered _ := ⟨⟨rfl, rfl⟩, rfl, fun _ _ evolves => evolves⟩

theorem related_ofDepth (setting : Setting) (le : depth ≤ deeper) :
    lockstep.Related (.ofDepth setting depth) (.ofDepth setting deeper) := by
  induction depth generalizing deeper with
  | zero => exact Lockstep.related_exhausted_lax trivial _
  | succ depth ih =>
    obtain ⟨deeper, rfl⟩ : ∃ k, deeper = k + 1 := ⟨deeper - 1, by omega⟩
    refine Lockstep.related_step setting lawful ?_ (ih (Nat.le_of_succ_le_succ le))
    rintro c _ h _ a _ ⟨rfl, rfl⟩ ⟨⟩
    exact encloses

theorem related_barred (setting : Setting) (root : Handle) (le : depth ≤ deeper) :
    lockstep.Related (.barred setting root depth) (.ofDepth setting deeper) := by
  induction depth generalizing deeper with
  | zero => exact Lockstep.related_exhausted_lax trivial _
  | succ depth ih =>
    obtain ⟨deeper, rfl⟩ : ∃ k, deeper = k + 1 := ⟨deeper - 1, by omega⟩
    have rel := ih (Nat.le_of_succ_le_succ le)
    rw [Evaluator.barred_succ, Evaluator.ofDepth_succ, Evaluator.step_eq_withInstances]
    refine Lockstep.related_withInstances setting lawful rel ?_
    rintro c _ h _ a _ ⟨rfl, rfl⟩ ⟨⟩
    by_cases isRoot : h = root
    · rw [if_pos isRoot]
      exact fun _ _ _ _ => .lax trivial
    · rw [if_neg isRoot]
      exact Lockstep.agrees_writeTemplate setting rel encloses

/-! ## What comes to an end -/

variable {ev ev' : Evaluator} {s t : RenderState} {n : Nat} {v : Value}

theorem ends_of_agrees {α β : Type} {Q : Arena → Arena → α → β → Prop} {x : Run α} {y : Run β}
    {r : α} (agrees : lockstep.Agrees c c s.arena s.arena Q x y) (ended : x s = .ok r t) :
    ∃ r', y s = .ok r' t ∧ Q t.arena t.arena r r' := by
  obtain ⟨r', u, ran, writer, reports, arena, related⟩ :=
    agrees.ends trivial ended s.diagnostics
  obtain ⟨a₁, ds₁, w₁⟩ := t
  obtain ⟨a₂, ds₂, w₂⟩ := u
  obtain rfl : w₂ = w₁ := writer
  obtain rfl : a₁ = a₂ := arena
  obtain rfl : ds₁ = ds₂ := reports.eq
  exact ⟨r', ran, related⟩

theorem render_of_related (rel : lockstep.Related ev ev') {chunks : List Chunk}
    (ended : ev.render c chunks s = .ok n t) : ev'.render c chunks s = .ok n t := by
  obtain ⟨_, ran, rfl⟩ := ends_of_agrees (rel.render chunks ⟨rfl, rfl⟩) ended
  exact ran

theorem eval_of_related (rel : lockstep.Related ev ev') {e : Expr}
    (ended : ev.eval c e s = .ok v t) : ev'.eval c e s = .ok v t := by
  obtain ⟨_, ran, same⟩ := ends_of_agrees (rel.eval e ⟨rfl, rfl⟩) ended
  rwa [Value.Paired.eq_of_diagonal (fun _ _ => id) same]

end Deeper
end Stencil
