import Stencil.Proofs.Output.Sending
import Stencil.Proofs.Pairing
/-!
# Two renders in lockstep

A `Lockstep` says when two renders of one setting do the same up to the handles that they use: how
their arenas may differ, as seen from the scopes that they are at, and how they may change. Its laws
speak about single changes of the arenas. What follows from the laws follows for every expression,
value and list of chunks: if two evaluators agree, so do the evaluators one step above them.

Writing an instance is the one thing that the laws leave open, since it moves the render to another
scope and may stop it.

The renders may be compared on writers of some strategies only. They may also be compared in one
direction only: then nothing is asked of the second one where the first one stops.
-/
namespace Stencil

/-- Two resolutions of one name: corresponding values, or the same message. -/
inductive Resolution.Paired (P : Handle → Handle → Prop) (a b : Arena) :
    Resolution → Resolution → Prop
  | found {v v' : Value} : Value.Paired P v v' → Paired P a b (.found v) (.found v')
  | missing {declared : Bool} {owner owner' : Handle} :
    (a.get owner).name = (b.get owner').name →
    Paired P a b (.missing declared owner) (.missing declared owner')

/-- What others see of a template is the same in both: its name, and how it begins if it has been
written. -/
structure Template.Similar (written : Prop) (t t' : Template) : Prop where
  name : t.name = t'.name
  isPureConditional : written → t.isPureConditional = t'.isPureConditional

theorem Template.similar_of_eq {written : Prop} {t t' : Template} (same : t = t') :
    t.Similar written t' := by
  subst same
  exact ⟨rfl, fun _ => rfl⟩

structure Lockstep where
  /-- Handles that stand for each other in values. -/
  Twin (a b : Arena) (h h' : Handle) : Prop
  /-- Handles of instances that the renders have made themselves. -/
  Made (a b : Arena) (h h' : Handle) : Prop
  /-- The arenas of renders that are at the scopes `c` and `c'`. -/
  Coupled (c c' : Handle) (a b : Arena) : Prop
  /-- What may have become of the arenas `a` and `b` when the renders are back at their scopes. -/
  Evolves (c c' : Handle) (a b a₁ b₁ : Arena) : Prop
  /-- The arenas that renders leave behind which stop. -/
  Left (a b : Arena) : Prop
  /-- Instances that may be written: the renders do not both come to an end at others. -/
  Open : Handle → Prop := fun _ => True
  /-- Whether the first render may stop where the second one goes on. -/
  Lax : Prop := False
  /-- The strategies of the writers on which the renders are compared. -/
  Fits : Strategy → Prop := fun _ => True

namespace Lockstep

/-- What is asked of the single changes that a render makes. -/
structure Lawful (L : Lockstep) : Prop where
  refl {c c' a b} : L.Coupled c c' a b → L.Evolves c c' a b a b
  trans {c c' a b a₁ b₁ a₂ b₂} :
    L.Evolves c c' a b a₁ b₁ → L.Evolves c c' a₁ b₁ a₂ b₂ → L.Evolves c c' a b a₂ b₂
  coupled {c c' a b a₁ b₁} :
    L.Coupled c c' a b → L.Evolves c c' a b a₁ b₁ → L.Coupled c c' a₁ b₁
  left {c c' a b} : L.Coupled c c' a b → L.Left a b
  twin {c c' a b a₁ b₁ h h'} :
    L.Evolves c c' a b a₁ b₁ → L.Twin a b h h' → L.Twin a₁ b₁ h h'
  made {c c' a b a₁ b₁ h h'} :
    L.Evolves c c' a b a₁ b₁ → L.Made a b h h' → L.Made a₁ b₁ h h'
  twin_of_made {a b h h'} : L.Made a b h h' → L.Twin a b h h'
  resolve {c c' a b} (name : String) :
    L.Coupled c c' a b → Resolution.Paired (L.Twin a b) a b (a.resolve c name) (b.resolve c' name)
  group {c c' a b} : L.Coupled c c' a b → a.groupOf c = b.groupOf c'
  template {c c' a b h h'} :
    L.Coupled c c' a b → L.Made a b h h' → (a.get h).template = (b.get h').template
  similar {c c' a b h h'} :
    L.Coupled c c' a b → L.Twin a b h h' →
    (a.get h).template.Similar (L.Open h) (b.get h').template
  property {c c' a b h h'} (name : String) :
    L.Coupled c c' a b → L.Twin a b h h' →
    Option.Rel (Value.Paired (L.Twin a b)) ((a.get h).property name) ((b.get h').property name)
  embed {c c' a b} (t : Template) :
    L.Coupled c c' a b →
    L.Evolves c c' a b (a.embed c t).2 (b.embed c' t).2 ∧
      L.Made (a.embed c t).2 (b.embed c' t).2 (a.embed c t).1 (b.embed c' t).1
  argument {c c' a b h h' v v'} (name : String) :
    L.Coupled c c' a b → L.Made a b h h' → Value.Paired (L.Twin a b) v v' →
    L.Evolves c c' a b (a.setArgument h name v) (b.setArgument h' name v')
  arguments {c c' a b h h'} :
    L.Coupled c c' a b → L.Made a b h h' →
    let s := a.argumentScope c (a.get h).arguments
    let s' := b.argumentScope c' (b.get h').arguments
    L.Coupled s.1 s'.1 s.2 s'.2 ∧ L.Made s.2 s'.2 h h' ∧
      ∀ a₂ b₂, L.Evolves s.1 s'.1 s.2 s'.2 a₂ b₂ → L.Evolves c c' a b a₂ b₂

/-- Texts are made on writers on which the renders are compared. -/
class Suits (L : Lockstep) (setting : Setting) : Prop where
  fits : L.Fits setting.strategy

/-- The renders are compared on all writers and in both directions. -/
class Exact (L : Lockstep) : Prop where
  strict : ¬ L.Lax
  fits (strategy : Strategy) : L.Fits strategy

instance (L : Lockstep) [exact_ : L.Exact] (setting : Setting) : L.Suits setting :=
  ⟨exact_.fits setting.strategy⟩

/-! ## Runs that agree -/

/-- The same has been reported, in two runs that began with the diagnostics `ds` and `ds'`. -/
def SameReports (ds ds' ds₁ ds₁' : List TemplateError) : Prop :=
  ∃ reports, ds₁ = ds ++ reports ∧ ds₁' = ds' ++ reports

theorem SameReports.refl (ds ds' : List TemplateError) : SameReports ds ds' ds ds' :=
  ⟨[], by simp⟩

theorem SameReports.trans {ds ds' ds₁ ds₁' ds₂ ds₂' : List TemplateError}
    (first : SameReports ds ds' ds₁ ds₁') (second : SameReports ds₁ ds₁' ds₂ ds₂') :
    SameReports ds ds' ds₂ ds₂' := by
  obtain ⟨reports, rfl, rfl⟩ := first
  obtain ⟨more, rfl, rfl⟩ := second
  exact ⟨reports ++ more, by simp⟩

theorem SameReports.eq {ds ds₁ ds₁' : List TemplateError} (same : SameReports ds ds ds₁ ds₁') :
    ds₁ = ds₁' := by
  obtain ⟨reports, rfl, rfl⟩ := same
  rfl

/-- How two runs ended that began with the arenas `a` and `b`: both with results that `Q` relates,
or both for the same reason; what they reported and their writers are the same in both. A lax
comparison ends where the first run stops. -/
inductive Outcome (L : Lockstep) {α β : Type} (c c' : Handle) (a b : Arena)
    (ds ds' : List TemplateError) (Q : Arena → Arena → α → β → Prop) :
    EStateM.Result Stop RenderState α → EStateM.Result Stop RenderState β → Prop
  | ok {r : α} {r' : β} {a₁ b₁ : Arena} {ds₁ ds₁' : List TemplateError} {w : Writer} :
    L.Fits w.strategy → SameReports ds ds' ds₁ ds₁' → L.Evolves c c' a b a₁ b₁ → Q a₁ b₁ r r' →
    Outcome L c c' a b ds ds' Q (.ok r ⟨a₁, ds₁, w⟩) (.ok r' ⟨b₁, ds₁', w⟩)
  | error {cause : Stop} {a₁ b₁ : Arena} {ds₁ ds₁' : List TemplateError} {w : Writer} :
    SameReports ds ds' ds₁ ds₁' → L.Left a₁ b₁ →
    Outcome L c c' a b ds ds' Q (.error cause ⟨a₁, ds₁, w⟩) (.error cause ⟨b₁, ds₁', w⟩)
  | lax {cause : Stop} {s : RenderState} {r : EStateM.Result Stop RenderState β} :
    L.Lax → Outcome L c c' a b ds ds' Q (.error cause s) r

/-- Two runs agree from the arenas `a` and `b` on, whatever has been reported and written. -/
def Agrees (L : Lockstep) {α β : Type} (c c' : Handle) (a b : Arena)
    (Q : Arena → Arena → α → β → Prop) (x : Run α) (y : Run β) : Prop :=
  ∀ ds ds' w, L.Fits w.strategy → L.Outcome c c' a b ds ds' Q (x ⟨a, ds, w⟩) (y ⟨b, ds', w⟩)

/-- Corresponding values. -/
def Same (L : Lockstep) (a b : Arena) : Value → Value → Prop := Value.Paired (L.Twin a b)

/-- Results that are the same in both runs. -/
def Equal {α : Type} : Arena → Arena → α → α → Prop := fun _ _ r r' => r = r'

/-- Counts of what a value was written with; an instance that has been written may be. -/
def Wrote (L : Lockstep) (v : Value) : Arena → Arena → Nat → Nat → Prop :=
  fun _ _ n n' => n = n' ∧ ∀ h, v = .template h → L.Open h

variable {L : Lockstep} {α β γ δ : Type} {c c' d d' h h' : Handle} {a b a₁ b₁ : Arena}
  {Q : Arena → Arena → α → β → Prop} {Q' : Arena → Arena → γ → δ → Prop}
  {ds ds' ds₁ ds₁' : List TemplateError}

theorem Outcome.widen {r : EStateM.Result Stop RenderState α}
    {r' : EStateM.Result Stop RenderState β} {R : Arena → Arena → α → β → Prop}
    (wider : ∀ a₂ b₂, L.Evolves d d' a₁ b₁ a₂ b₂ → L.Evolves c c' a b a₂ b₂)
    (weaker : ∀ a₂ b₂ s s', Q a₂ b₂ s s' → R a₂ b₂ s s')
    (outcome : L.Outcome d d' a₁ b₁ ds ds' Q r r') : L.Outcome c c' a b ds ds' R r r' := by
  cases outcome with
  | ok fits reports evolves related =>
    exact .ok fits reports (wider _ _ evolves) (weaker _ _ _ _ related)
  | error reports left => exact .error reports left
  | lax isLax => exact .lax isLax

/-- A run that goes on after two others have ended. -/
theorem Outcome.after {r : EStateM.Result Stop RenderState α}
    {r' : EStateM.Result Stop RenderState β}
    (wider : ∀ a₂ b₂, L.Evolves c c' a₁ b₁ a₂ b₂ → L.Evolves c c' a b a₂ b₂)
    (reports : SameReports ds ds' ds₁ ds₁') (outcome : L.Outcome c c' a₁ b₁ ds₁ ds₁' Q r r') :
    L.Outcome c c' a b ds ds' Q r r' := by
  cases outcome with
  | ok fits more evolves related =>
    exact .ok fits (reports.trans more) (wider _ _ evolves) related
  | error more left => exact .error (reports.trans more) left
  | lax isLax => exact .lax isLax

theorem Agrees.mono {x : Run α} {y : Run β} {R : Arena → Arena → α → β → Prop}
    (agrees : L.Agrees c c' a b Q x y) (weaker : ∀ a₂ b₂ s s', Q a₂ b₂ s s' → R a₂ b₂ s s') :
    L.Agrees c c' a b R x y :=
  fun ds ds' w fits => (agrees ds ds' w fits).widen (fun _ _ evolves => evolves) weaker

theorem Agrees.wrote {x y : Run Nat} {v : Value} (agrees : L.Agrees c c' a b Equal x y)
    (opened : ∀ h, v = .template h → L.Open h) : L.Agrees c c' a b (L.Wrote v) x y :=
  agrees.mono fun _ _ _ _ equal => ⟨equal, opened⟩

/-- Where the first run comes to an end, so does the second one. -/
theorem Agrees.ends {x : Run α} {y : Run β} (agrees : L.Agrees c c' a b Q x y) {w : Writer}
    (fits : L.Fits w.strategy) {r : α} {s : RenderState} (ended : x ⟨a, ds, w⟩ = .ok r s)
    (ds' : List TemplateError) :
    ∃ r' t, y ⟨b, ds', w⟩ = .ok r' t ∧ t.writer = s.writer ∧
      SameReports ds ds' s.diagnostics t.diagnostics ∧ L.Evolves c c' a b s.arena t.arena ∧
      Q s.arena t.arena r r' := by
  have outcome := agrees ds ds' w fits
  rw [ended] at outcome
  generalize y ⟨b, ds', w⟩ = ran at outcome
  cases outcome with
  | ok _ reports evolves related => exact ⟨_, _, rfl, rfl, reports, evolves, related⟩

/-- The other way around, unless the comparison is lax. -/
theorem Agrees.ends_back [exact_ : L.Exact] {x : Run α} {y : Run β}
    (agrees : L.Agrees c c' a b Q x y) {w : Writer} {r' : β} {t : RenderState}
    (ended : y ⟨b, ds', w⟩ = .ok r' t) (ds : List TemplateError) :
    ∃ r s, x ⟨a, ds, w⟩ = .ok r s ∧ t.writer = s.writer ∧
      SameReports ds ds' s.diagnostics t.diagnostics ∧ L.Evolves c c' a b s.arena t.arena ∧
      Q s.arena t.arena r r' := by
  have outcome := agrees ds ds' w (exact_.fits w.strategy)
  rw [ended] at outcome
  generalize x ⟨a, ds, w⟩ = ran at outcome
  cases outcome with
  | ok _ reports evolves related => exact ⟨_, _, rfl, rfl, reports, evolves, related⟩
  | lax isLax => exact absurd isLax exact_.strict

section Rules

variable (laws : L.Lawful) (coupled : L.Coupled c c' a b)
include laws coupled

theorem agrees_pure {r : α} {r' : β} (related : Q a b r r') :
    L.Agrees c c' a b Q (pure r) (pure r') :=
  fun ds ds' _ fits => .ok fits (.refl ds ds') (laws.refl coupled) related

theorem agrees_bind {x : Run α} {y : Run β} {f : α → Run γ} {g : β → Run δ}
    (first : L.Agrees c c' a b Q x y)
    (next : ∀ a₁ b₁ r r', L.Coupled c c' a₁ b₁ → L.Evolves c c' a b a₁ b₁ → Q a₁ b₁ r r' →
      L.Agrees c c' a₁ b₁ Q' (f r) (g r')) :
    L.Agrees c c' a b Q' (x >>= f) (y >>= g) := by
  intro ds ds' w fits
  have begun := first ds ds' w fits
  change L.Outcome c c' a b ds ds' Q' (EStateM.bind x f _) (EStateM.bind y g _)
  unfold EStateM.bind
  generalize x ⟨a, ds, w⟩ = r at begun
  generalize y ⟨b, ds', w⟩ = r' at begun
  cases begun with
  | ok fits reports evolves related =>
    have rest := next _ _ _ _ (laws.coupled coupled evolves) evolves related
    exact (rest _ _ _ fits).after (fun _ _ => laws.trans evolves) reports
  | error reports left => exact .error reports left
  | lax isLax => exact .lax isLax

/-- The same, where both runs begin with the same result. -/
theorem agrees_bind_equal {x y : Run α} {f : α → Run γ} {g : α → Run δ}
    (first : L.Agrees c c' a b Equal x y)
    (next : ∀ a₁ b₁ r, L.Coupled c c' a₁ b₁ → L.Evolves c c' a b a₁ b₁ →
      L.Agrees c c' a₁ b₁ Q' (f r) (g r)) :
    L.Agrees c c' a b Q' (x >>= f) (y >>= g) := by
  refine agrees_bind laws coupled first ?_
  rintro a₁ b₁ r _ coupled evolves rfl
  exact next a₁ b₁ r coupled evolves

theorem agrees_stop (cause : Stop) : L.Agrees c c' a b Q (Run.stop cause) (Run.stop cause) :=
  fun ds ds' _ _ => .error (.refl ds ds') (laws.left coupled)

theorem agrees_report (e : TemplateError) :
    L.Agrees c c' a b Equal (Run.report e) (Run.report e) :=
  fun _ _ _ fits => .ok fits ⟨[e], rfl, rfl⟩ (laws.refl coupled) rfl

omit laws coupled in
theorem agrees_withArena {f : Arena → Run α} {g : Arena → Run β}
    (agrees : L.Agrees c c' a b Q (f a) (g b)) :
    L.Agrees c c' a b Q (Run.arena >>= f) (Run.arena >>= g) :=
  fun ds ds' w fits => agrees ds ds' w fits

theorem agrees_emit (s : String) : L.Agrees c c' a b Equal (Run.emit s) (Run.emit s) := by
  intro ds ds' w fits
  rw [← Writer.strategy_write w s] at fits
  simp only [Run.emit]
  generalize w.write s = r at fits
  obtain ⟨after, count | count⟩ := r
  · exact .error (.refl ds ds') (laws.left coupled)
  · exact .ok fits (.refl ds ds') (laws.refl coupled) rfl

omit laws coupled in
theorem agrees_changeArena {f g : Arena → Arena} (evolves : L.Evolves c c' a b (f a) (g b)) :
    L.Agrees c c' a b Equal (Run.changeArena f) (Run.changeArena g) :=
  fun ds ds' _ fits => .ok fits (.refl ds ds') evolves rfl

theorem agrees_embed (t : Template) :
    L.Agrees c c' a b L.Made (Run.enter fun a => a.embed c t) (Run.enter fun b => b.embed c' t) :=
  fun ds ds' _ fits =>
    .ok fits (.refl ds ds') (laws.embed t coupled).1 (laws.embed t coupled).2

omit laws coupled in
theorem agrees_indented {x : Run α} {y : Run β} (indent? : Option String)
    (agrees : L.Agrees c c' a b Q x y) :
    L.Agrees c c' a b Q (Run.indented indent? x) (Run.indented indent? y) := by
  cases indent? with
  | none => exact agrees
  | some indent =>
    intro ds ds' w fits
    have inner := agrees ds ds' (w.push indent) fits
    simp only [Run.indented]
    generalize x ⟨a, ds, w.push indent⟩ = r at inner
    generalize y ⟨b, ds', w.push indent⟩ = r' at inner
    cases inner with
    | ok fits reports evolves related => exact .ok fits reports evolves related
    | error reports left => exact .error reports left
    | lax isLax => exact .lax isLax

omit laws coupled in
theorem agrees_captured {x : Run α} {y : Run β} {strategy : Strategy} (suits : L.Fits strategy)
    (agrees : L.Agrees c c' a b Q x y) :
    L.Agrees c c' a b Equal (Run.captured strategy x) (Run.captured strategy y) := by
  intro ds ds' w fits
  have inner := agrees ds ds' (.fresh strategy) suits
  simp only [Run.captured]
  generalize x ⟨a, ds, .fresh strategy⟩ = r at inner
  generalize y ⟨b, ds', .fresh strategy⟩ = r' at inner
  cases inner with
  | ok _ reports evolves _ => exact .ok fits reports evolves rfl
  | error reports left => exact .error reports left
  | lax isLax => exact .lax isLax

end Rules

end Lockstep
end Stencil
