import Stencil.Proofs.Drafting.Basic
/-!
# Where no indentation is opened

A draft without indentations comes to the same under both strategies. So two runs are alike that
make their texts on writers of different strategies, as long as nothing that they can get at opens
an indentation.
-/
namespace Stencil

/-- No indentation at all. -/
def Nowhere : String → Prop := fun _ => False

instance : DecidablePred Nowhere := fun _ => isFalse id

/-- A draft that opens no indentation does not depend on the strategy where none is open. -/
theorem Draft.layOut_unindented {d : Draft} (opens : d.Opens Nowhere) (strategy other : Strategy)
    (start start' : Bool) : d.layOut strategy [] start = d.layOut other [] start' := by
  induction d generalizing start start' with
  | blank => rfl
  | text s => simp only [layOut, Strategy.layOut_nil]
  | append first second ih ih' =>
    rw [layOut, layOut, ih opens.1 start start']
    exact congrArg _ (ih' opens.2 _ _)
  | indented indent inner => exact absurd opens.1 id

namespace Drafting

variable {α β : Type} {Q : α → Prop}

/-- The runs are the same where no template opens an indentation. -/
def Alike (x y : Run α) : Prop := ∀ s : RenderState, s.arena.Opens Nowhere → x s = y s

/-- If the run comes to an end, then with a result for which `Q` holds, and still no template opens
an indentation. -/
def Keeps (Q : α → Prop) (x : Run α) : Prop :=
  ∀ s r t, s.arena.Opens Nowhere → x s = .ok r t → t.arena.Opens Nowhere ∧ Q r

theorem Silent.keeps {x : Run α} (silent : Silent Nowhere Q x) : Keeps Q x := by
  intro s r t opens ended
  obtain ⟨-, opens, holds, -⟩ := silent.rerun (w := s.writer) opens ended
  exact ⟨opens, holds⟩

theorem Drafted.keeps {x : Run Nat} (drafted : Drafted Nowhere x) : Keeps Any x := by
  intro s r t opens ended
  obtain ⟨d, ending, -, sound, wrote⟩ := drafted s.arena s.diagnostics opens
  have written : Wrote d ending s.writer (x s) := wrote s.writer
  rw [ended] at written
  generalize result : EStateM.Result.ok r t = ran at written
  cases written with
  | part => cases result
  | whole =>
    cases sound with
    | back opens =>
      cases result
      exact ⟨opens, trivial⟩
    | stopped => cases result

theorem Alike.refl (x : Run α) : Alike x x := fun _ _ => rfl

theorem Alike.bind {x y : Run α} {f g : α → Run β} (first : Alike x y) (keeps : Keeps Q x)
    (next : ∀ r, Q r → Alike (f r) (g r)) : Alike (x >>= f) (y >>= g) := by
  intro s opens
  change EStateM.bind x f s = EStateM.bind y g s
  unfold EStateM.bind
  rw [← first s opens]
  cases ended : x s with
  | ok r t =>
    obtain ⟨opens, holds⟩ := keeps s r t opens ended
    exact next r holds t opens
  | error cause t => rfl

/-- The same, where both begin with one and the same run. -/
theorem Alike.next {x : Run α} {f g : α → Run β} (keeps : Keeps Q x)
    (next : ∀ r, Q r → Alike (f r) (g r)) : Alike (x >>= f) (x >>= g) :=
  (Alike.refl x).bind keeps next

theorem Alike.withArena {f g : Arena → Run α}
    (next : ∀ a : Arena, a.Opens Nowhere → Alike (f a) (g a)) :
    Alike (Run.arena >>= f) (Run.arena >>= g) :=
  fun s opens => next s.arena opens s opens

theorem Alike.indented {x y : Run α} (alike : Alike x y) (indent? : Option String) :
    Alike (Run.indented indent? x) (Run.indented indent? y) := by
  cases indent? with
  | none => exact alike
  | some indent =>
    intro s opens
    simp only [Run.indented]
    rw [alike { s with writer := s.writer.push indent } opens]

/-- Texts do not depend on the strategy of the writers on which they are made. -/
theorem Alike.captured {x y : Run Nat} (alike : Alike x y) (drafted : Drafted Nowhere x)
    (strategy other : Strategy) : Alike (Run.captured strategy x) (Run.captured other y) := by
  intro s opens
  obtain ⟨d, ending, within, -, wrote⟩ := drafted s.arena s.diagnostics opens
  have same : d.on (.fresh strategy) = d.on (.fresh other) :=
    d.layOut_unindented within strategy other true true
  have swapped : Run.captured other y s = Run.captured other x s := by
    unfold Run.captured
    rw [alike { s with writer := .fresh other } opens]
  rw [swapped]
  exact (captured_eq (wrote _) s.writer).trans
    ((congrArg (fun text => (ending.returning text).result s.writer) same).trans
      (captured_eq (wrote _) s.writer).symm)

end Drafting
end Stencil
