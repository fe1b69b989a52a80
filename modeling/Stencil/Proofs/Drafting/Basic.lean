import Stencil.Proofs.Links
import Stencil.Proofs.Output.Draft
import Stencil.Proofs.Output.Indents
import Stencil.Render.State
/-!
# Runs and their drafts

What a run does, the writer apart, does not depend on the writer that it is given. Evaluation leaves
it alone; a run that writes has a draft that is settled beforehand, and goes on as long as the sink
takes it. Only a real sink can be full, never the fresh writers that texts are made on.

The indentations that a draft opens are those of the templates that the run can get at.
-/
namespace Stencil

/-- All templates of the arena open allowed indentations only. -/
def Arena.Opens (allowed : String → Prop) (a : Arena) : Prop :=
  ∀ h, Within allowed (a.get h).template.indents

/-- All templates that the registry finds open allowed indentations only. -/
structure Registry.Opens (allowed : String → Prop) (r : Registry) : Prop where
  named {name : String} {t : Template} :
    r.lookup? name = some t → Within allowed t.indents
  inherited {group name : String} {t : Template} :
    r.lookupSuper? group name = some t → Within allowed t.indents

theorem Arena.opens_empty {allowed : String → Prop} : Arena.empty.Opens allowed := by
  intro h
  rw [get_eq_default (by simp [contains, size, empty])]
  exact within_nil

theorem Arena.opens_everything (a : Arena) : a.Opens fun _ => True := fun _ => within_everything _

theorem Registry.opens_everything (r : Registry) : r.Opens fun _ => True :=
  ⟨fun _ => within_everything _, fun _ => within_everything _⟩

namespace Arena.Opens

variable {allowed : String → Prop} {a : Arena}

theorem push (opens : a.Opens allowed) {act : Activation}
    (new : Within allowed act.template.indents) : (a.push act).2.Opens allowed := by
  intro h
  rw [get_push]
  split
  · exact new
  · exact opens h

theorem modify (opens : a.Opens allowed) (h : Handle) {f : Activation → Activation}
    (template : ∀ act, (f act).template = act.template) : (a.modify h f).Opens allowed := by
  intro x
  rw [get_modify_eq]
  split
  · rw [template]
    exact opens _
  · exact opens x

theorem setArgument (opens : a.Opens allowed) (h : Handle) (name : String) (v : Value) :
    (a.setArgument h name v).Opens allowed :=
  opens.modify h fun _ => rfl

theorem setEnclosing (opens : a.Opens allowed) (h : Handle) (e? : Option Handle) :
    (a.setEnclosing h e?).Opens allowed :=
  opens.modify h fun _ => rfl

end Arena.Opens

namespace Drafting

/-- How a run ended, whatever it was given to write on. -/
inductive Ending (α : Type) where
  | back (r : α) (a : Arena) (ds : List TemplateError)
  | stopped (cause : Stop) (a : Arena) (ds : List TemplateError)

namespace Ending

variable {α β : Type}

/-- What the run comes to on a writer that it leaves as `w`. -/
def result : Ending α → Writer → EStateM.Result Stop RenderState α
  | back r a ds, w => .ok r ⟨a, ds, w⟩
  | stopped cause a ds, w => .error cause ⟨a, ds, w⟩

/-- The ending with another result. -/
def returning : Ending α → β → Ending β
  | back _ a ds, r => back r a ds
  | stopped cause a ds, _ => stopped cause a ds

/-- The run left the arena as it should be and did not stop for a full sink. -/
inductive Sound (allowed : String → Prop) (Q : α → Prop) : Ending α → Prop
  | back {r : α} {a : Arena} {ds : List TemplateError} :
    a.Opens allowed → Q r → Sound allowed Q (back r a ds)
  | stopped {cause : Stop} {a : Arena} {ds : List TemplateError} :
    cause ≠ .fatal .sinkFull → Sound allowed Q (stopped cause a ds)

end Ending

/-- Any result. -/
def Any {α : Type} : α → Prop := fun _ => True

variable {allowed : String → Prop} {α β : Type} {Q : α → Prop} {R : β → Prop}

/-- The run has a result for which `Q` holds, or stops, and leaves every writer alone. -/
def Silent (allowed : String → Prop) (Q : α → Prop) (x : Run α) : Prop :=
  ∀ a ds, a.Opens allowed → ∃ ending : Ending α, ending.Sound allowed Q ∧
    ∀ w, x ⟨a, ds, w⟩ = ending.result w

/-- A run wrote a draft on `w`: all of it before it ended, or as much as the sink took. -/
inductive Wrote (d : Draft) (ending : Ending Unit) (w : Writer) :
    EStateM.Result Stop RenderState Nat → Prop
  | whole {after : Writer} {n : Nat} : d.writeOn w = (after, some n) →
    Wrote d ending w ((ending.returning n).result after)
  | part {after : Writer} {a : Arena} {ds : List TemplateError} : d.writeOn w = (after, none) →
    Wrote d ending w (.error (.fatal .sinkFull) ⟨a, ds, after⟩)

/-- A draft that fits was written, and all that the run did is settled by it. -/
theorem Wrote.eq_of_accepts {d : Draft} {ending : Ending Unit} {w : Writer}
    {r : EStateM.Result Stop RenderState Nat} (wrote : Wrote d ending w r)
    (fits : w.sink.accepts (d.on w) = true) :
    r = (ending.returning (d.on w).length).result
      (w.past (d.on w) (d.startsAfter w.strategy w.atLineStart)) := by
  have sent := d.sends_writeOn w
  cases wrote with
  | whole taken =>
    rw [taken] at sent
    cases sent
    rfl
  | part refused =>
    rw [refused] at sent
    cases sent with
    | part full => exact absurd (full.symm.trans fits) (by simp)

/-- A draft that does not fit makes the run fail. -/
theorem Wrote.sinkFull_of_refuses {d : Draft} {ending : Ending Unit} {w : Writer}
    {r : EStateM.Result Stop RenderState Nat} (wrote : Wrote d ending w r)
    (full : w.sink.accepts (d.on w) = false) : ∃ t, r = .error (.fatal .sinkFull) t := by
  have sent := d.sends_writeOn w
  cases wrote with
  | part => exact ⟨_, rfl⟩
  | whole taken =>
    rw [taken] at sent
    cases sent with
    | whole fits => exact absurd (full.symm.trans fits) (by simp)

/-- The run has a draft that it writes on every writer. -/
def Drafted (allowed : String → Prop) (x : Run Nat) : Prop :=
  ∀ a ds, a.Opens allowed → ∃ (d : Draft) (ending : Ending Unit), d.Opens allowed ∧
    ending.Sound allowed Any ∧ ∀ w, Wrote d ending w (x ⟨a, ds, w⟩)

/-! ## Runs that write nothing -/

theorem silent_pure {r : α} (holds : Q r) : Silent allowed Q (pure r) :=
  fun a ds opens => ⟨.back r a ds, .back opens holds, fun _ => rfl⟩

theorem silent_bind {x : Run α} {f : α → Run β} (first : Silent allowed Q x)
    (next : ∀ r, Q r → Silent allowed R (f r)) : Silent allowed R (x >>= f) := by
  intro a ds opens
  obtain ⟨ending, sound, runs⟩ := first a ds opens
  have run (w : Writer) :
      (x >>= f) ⟨a, ds, w⟩ = EStateM.bind (fun _ => ending.result w) f ⟨a, ds, w⟩ := by
    change EStateM.bind x f _ = _
    simp only [EStateM.bind, runs w]
  cases sound with
  | @back r a₁ ds₁ opens holds =>
    obtain ⟨ending, sound, runs⟩ := next r holds a₁ ds₁ opens
    exact ⟨ending, sound, fun w => (run w).trans (runs w)⟩
  | @stopped cause a₁ ds₁ apart => exact ⟨.stopped cause a₁ ds₁, .stopped apart, run⟩

theorem silent_withArena {f : Arena → Run α}
    (silent : ∀ a, a.Opens allowed → Silent allowed Q (f a)) :
    Silent allowed Q (Run.arena >>= f) :=
  fun a ds opens => silent a opens a ds opens

theorem silent_changeArena {f : Arena → Arena}
    (changed : ∀ a, a.Opens allowed → (f a).Opens allowed) :
    Silent allowed Any (Run.changeArena f) :=
  fun a ds opens => ⟨.back () (f a) ds, .back (changed a opens) trivial, fun _ => rfl⟩

theorem silent_enter {f : Arena → Handle × Arena}
    (entered : ∀ a, a.Opens allowed → (f a).2.Opens allowed) :
    Silent allowed Any (Run.enter f) :=
  fun a ds opens => ⟨.back (f a).1 (f a).2 ds, .back (entered a opens) trivial, fun _ => rfl⟩

theorem silent_embed (scope : Handle) {t : Template} (within : Within allowed t.indents) :
    Silent allowed Any (Run.enter fun a => a.embed scope t) :=
  silent_enter fun _ opens => opens.push within

theorem silent_report (e : TemplateError) : Silent allowed Any (Run.report e) :=
  fun a ds opens => ⟨.back () a (ds ++ [e]), .back opens trivial, fun _ => rfl⟩

theorem silent_stop {cause : Stop} (apart : cause ≠ .fatal .sinkFull) :
    Silent allowed Q (Run.stop cause) :=
  fun a ds _ => ⟨.stopped cause a ds, .stopped apart, fun _ => rfl⟩

/-- A run that leaves writers alone does the same on another one. -/
theorem Silent.rerun {x : Run α} (silent : Silent allowed Q x) {a : Arena}
    {ds : List TemplateError} {w : Writer} {r : α} {t : RenderState} (opens : a.Opens allowed)
    (ended : x ⟨a, ds, w⟩ = .ok r t) :
    t.writer = w ∧ t.arena.Opens allowed ∧ Q r ∧
      ∀ w', x ⟨a, ds, w'⟩ = .ok r { t with writer := w' } := by
  obtain ⟨ending, sound, runs⟩ := silent a ds opens
  rw [runs w] at ended
  cases sound with
  | back opens holds =>
    cases ended
    exact ⟨rfl, opens, holds, runs⟩
  | stopped => cases ended

/-! ## Runs that write -/

theorem drafted_nothing : Drafted allowed (pure 0) :=
  fun a ds opens => ⟨.blank, .back () a ds, trivial, .back opens trivial, fun _ => .whole rfl⟩

theorem drafted_stop {cause : Stop} (apart : cause ≠ .fatal .sinkFull) :
    Drafted allowed (Run.stop cause) :=
  fun a ds _ => ⟨.blank, .stopped cause a ds, trivial, .stopped apart, fun _ => .whole rfl⟩

theorem drafted_emit (s : String) : Drafted allowed (Run.emit s) := by
  intro a ds opens
  refine ⟨.text s, .back () a ds, trivial, .back opens trivial, fun w => ?_⟩
  unfold Run.emit
  dsimp only
  rcases written : w.write s with ⟨after, n | n⟩
  · exact .part written
  · exact .whole written

theorem drafted_withArena {f : Arena → Run Nat}
    (drafted : ∀ a, a.Opens allowed → Drafted allowed (f a)) :
    Drafted allowed (Run.arena >>= f) :=
  fun a ds opens => drafted a opens a ds opens

/-- What is evaluated first has no part in the draft. -/
theorem drafted_bind {x : Run α} {f : α → Run Nat} (first : Silent allowed Q x)
    (next : ∀ r, Q r → Drafted allowed (f r)) : Drafted allowed (x >>= f) := by
  intro a ds opens
  obtain ⟨ending, sound, runs⟩ := first a ds opens
  have run (w : Writer) :
      (x >>= f) ⟨a, ds, w⟩ = EStateM.bind (fun _ => ending.result w) f ⟨a, ds, w⟩ := by
    change EStateM.bind x f _ = _
    simp only [EStateM.bind, runs w]
  cases sound with
  | @back r a₁ ds₁ opens holds =>
    obtain ⟨d, ending, within, sound, wrote⟩ := next r holds a₁ ds₁ opens
    exact ⟨d, ending, within, sound, fun w => by
      rw [run w]
      exact wrote w⟩
  | @stopped cause a₁ ds₁ apart =>
    refine ⟨.blank, .stopped cause a₁ ds₁, trivial, .stopped apart, fun w => ?_⟩
    rw [run w]
    exact .whole rfl

/-- Two drafts follow each other. Whether anything was written by the first does not depend on the
writer, and the second may go by it. -/
theorem drafted_append {x : Run Nat} {f : Bool → Arena → Run Nat} (first : Drafted allowed x)
    (next : ∀ blank a, a.Opens allowed → Drafted allowed (f blank a)) :
    Drafted allowed (do
      let n ← x
      let a ← Run.arena
      let m ← f (n = 0) a
      return n + m) := by
  intro a ds opens
  obtain ⟨d, ending, within, sound, wrote⟩ := first a ds opens
  cases sound with
  | @stopped cause a₁ ds₁ apart =>
    refine ⟨d, .stopped cause a₁ ds₁, within, .stopped apart, fun w => ?_⟩
    have begun := wrote w
    change Wrote d _ w (EStateM.bind x _ _)
    unfold EStateM.bind
    generalize x ⟨a, ds, w⟩ = r at begun
    cases begun with
    | whole written => exact .whole written
    | part refused => exact .part refused
  | @back _ a₁ ds₁ opens =>
    obtain ⟨d', ending, within', sound, wrote'⟩ := next d.isBlank a₁ opens a₁ ds₁ opens
    refine ⟨.append d d', ending, ⟨within, within'⟩, sound, fun w => ?_⟩
    have begun := wrote w
    change Wrote _ _ w (EStateM.bind x _ _)
    unfold EStateM.bind
    generalize x ⟨a, ds, w⟩ = r at begun
    cases begun with
    | part refused => exact .part (by simp only [Draft.writeOn, refused, Writer.andThen])
    | @whole after n written =>
      have blank : decide (n = 0) = d.isBlank := by
        rw [Bool.eq_iff_iff, decide_eq_true_iff]
        exact Draft.count_eq_zero_iff written
      have others := wrote' after
      rw [← blank] at others
      change Wrote _ _ w (EStateM.bind (f (n = 0) a₁) (fun m => pure (n + m)) ⟨a₁, ds₁, after⟩)
      unfold EStateM.bind
      generalize f (n = 0) a₁ ⟨a₁, ds₁, after⟩ = r at others
      cases others with
      | part refused =>
        exact .part (by simp only [Draft.writeOn, written, Writer.andThen, refused,
          Option.map_none])
      | @whole last m written' =>
        have both : (Draft.append d d').writeOn w = (last, some (n + m)) := by
          simp only [Draft.writeOn, written, Writer.andThen, written', Option.map_some]
        cases sound with
        | back => exact .whole both
        | stopped => exact .whole both

/-- The same, where the second run does not go by the first. -/
theorem drafted_add {x y : Run Nat} (first : Drafted allowed x) (next : Drafted allowed y) :
    Drafted allowed (do
      let n ← x
      let m ← y
      return n + m) :=
  drafted_append (f := fun _ _ => y) first fun _ _ _ => next

theorem drafted_indented {indent? : Option String} (within : Within allowed indent?.toList)
    {x : Run Nat} (drafted : Drafted allowed x) : Drafted allowed (Run.indented indent? x) := by
  cases indent? with
  | none => exact drafted
  | some indent =>
    intro a ds opens
    obtain ⟨d, ending, within', sound, wrote⟩ := drafted a ds opens
    refine ⟨.indented indent d, ending, ⟨within indent List.mem_cons_self, within'⟩, sound,
      fun w => ?_⟩
    have inner := wrote (w.push indent)
    simp only [Run.indented]
    generalize x ⟨a, ds, w.push indent⟩ = r at inner
    cases inner with
    | @whole after n written =>
      have popped : (Draft.indented indent d).writeOn w = (after.pop, some n) := by
        simp only [Draft.writeOn, written]
      cases sound with
      | back => exact .whole popped
      | stopped => exact .whole popped
    | part refused => exact .part (by simp only [Draft.writeOn, refused])

/-- A fresh writer takes all of a draft. -/
theorem captured_eq {strategy : Strategy} {x : Run Nat} {d : Draft} {ending : Ending Unit}
    {a : Arena} {ds : List TemplateError}
    (wrote : Wrote d ending (.fresh strategy) (x ⟨a, ds, .fresh strategy⟩)) (w : Writer) :
    Run.captured strategy x ⟨a, ds, w⟩ =
      (ending.returning (d.on (.fresh strategy))).result w := by
  have text (piece : String) (start : Bool) :
      ((Writer.fresh strategy).past piece start).text = piece := String.empty_append
  have fits : (Writer.fresh strategy).sink.accepts (d.on (.fresh strategy)) = true :=
    Sink.accepts_of_limit?_eq_none rfl _
  simp only [Run.captured]
  rw [wrote.eq_of_accepts fits]
  cases ending with
  | back => simp only [Ending.returning, Ending.result, text]
  | stopped => rfl

/-- What was written on a fresh writer is a text. -/
theorem silent_captured (strategy : Strategy) {x : Run Nat} (drafted : Drafted allowed x) :
    Silent allowed Any (Run.captured strategy x) := by
  intro a ds opens
  obtain ⟨d, ending, -, sound, wrote⟩ := drafted a ds opens
  refine ⟨ending.returning (d.on (.fresh strategy)), ?_, captured_eq (wrote _)⟩
  cases sound with
  | back opens => exact .back opens trivial
  | stopped apart => exact .stopped apart

end Drafting
end Stencil
