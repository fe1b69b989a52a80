import Stencil.Proofs.Steady
/-!
# Activations that no value holds

A render links an instance anew where a value holds its handle, and only there. So what no value
holds keeps its link, and evaluation makes no value that holds it. This goes for the scopes of
arguments, and for an instance that has just been made until its handle is given away.
-/
namespace Stencil

namespace Arena

variable {a b : Arena} {h : Handle} {v : Value}

/-- No value that is stored in the arena holds the handle. -/
def Unheld (a : Arena) (h : Handle) : Prop := ∀ x v, (a.get x).Stores v → ¬ v.Holds h

theorem Unheld.push (unheld : a.Unheld h) {act : Activation}
    (new : ∀ v, act.Stores v → ¬ v.Holds h) : (a.push act).2.Unheld h := by
  intro x v stores
  rw [get_push] at stores
  split at stores
  · exact new v stores
  · exact unheld x v stores

theorem Unheld.setArgument (unheld : a.Unheld h) (x : Handle) (name : String)
    (apart : ¬ v.Holds h) : (a.setArgument x name v).Unheld h := by
  intro y w stores
  rw [get_setArgument] at stores
  split at stores
  · rcases Activation.stores_of_insert_argument stores with rfl | stores
    · exact apart
    · exact unheld y w stores
  · exact unheld y w stores

theorem Unheld.setEnclosing (unheld : a.Unheld h) (x : Handle) (e? : Option Handle) :
    (a.setEnclosing x e?).Unheld h := by
  intro y w stores
  rw [get_setEnclosing] at stores
  split at stores
  · exact unheld y w stores
  · exact unheld y w stores

/-- Nothing holds a handle that the arena has not given out. -/
theorem Closed.unheld_of_not_contains {kinds : ScopeKind → Prop} (closed : a.Closed kinds)
    (outside : ¬ a.contains h) : a.Unheld h :=
  fun _ _ stores holds => outside (closed.stored stores holds).inside

/-- Values hold instances only. -/
theorem Closed.unheld_of_arguments (closed : a.Closed IsInstance)
    (kind : (a.get h).kind = .arguments) : a.Unheld h := by
  intro _ _ stores holds
  have isInstance : (a.get h).kind = .template := (closed.stored stores holds).kind
  rw [kind] at isInstance
  cases isInstance

/-- What evaluation leaves of an arena: tables, and the links of what no value holds. -/
structure Spares (a b : Arena) : Prop extends Keeps a b where
  closed : b.Closed IsInstance
  unheld {h : Handle} : a.contains h → a.Unheld h → b.Unheld h
  link {h : Handle} : a.contains h → a.Unheld h → (b.get h).enclosing? = (a.get h).enclosing?

end Arena

namespace Withheld

open Arena

/-- Nothing holds `h` still, and it is linked as it was in the arena `a₀`. -/
structure Standing (a₀ : Arena) (h : Handle) (a : Arena) : Prop where
  size : a₀.size ≤ a.size
  unheld : a.Unheld h
  link : (a.get h).enclosing? = (a₀.get h).enclosing?

/-- A render beside itself that began with the arena `a₀`, and has no value that holds `h`. -/
def lockstep (a₀ : Arena) (h : Handle) : Lockstep where
  Twin _ _ x x' := x = x' ∧ x ≠ h
  Made _ _ x x' := x = x' ∧ ¬ a₀.contains x
  Coupled c c' a b := (c = c' ∧ a = b) ∧ Standing a₀ h a
  Evolves _ _ _ _ a₁ b₁ := a₁ = b₁ ∧ Standing a₀ h a₁
  Left _ _ := True

instance (a₀ : Arena) (h : Handle) : (lockstep a₀ h).Exact := ⟨id, fun _ => trivial⟩

variable {a₀ a : Arena} {c h : Handle} {v v' : Value}

theorem fixed_of_same {b : Arena} (same : (lockstep a₀ h).Same a b v v') :
    v = v' ∧ ¬ v.Holds h := by
  obtain ⟨same, apart⟩ := Value.Paired.fixed same
  exact ⟨same, fun holds => apart h holds rfl⟩

theorem paired_of_unheld (apart : ¬ v.Holds h) :
    Value.Paired (fun x x' => x = x' ∧ x ≠ h) v v :=
  .same fun _ holds => ⟨rfl, fun same => apart (same ▸ holds)⟩

theorem Standing.push (standing : Standing a₀ h a) (inside : a₀.contains h) {act : Activation}
    (new : ∀ v, act.Stores v → ¬ v.Holds h) : Standing a₀ h (a.push act).2 where
  size := by
    rw [size_push]
    exact Nat.le_succ_of_le standing.size
  unheld := standing.unheld.push new
  link := by
    rw [get_push_of_contains (contains_of_size_le standing.size inside)]
    exact standing.link

theorem Standing.setArgument (standing : Standing a₀ h a) (x : Handle) (name : String)
    (apart : ¬ v.Holds h) : Standing a₀ h (a.setArgument x name v) where
  size := by
    rw [Arena.setArgument, size_modify]
    exact standing.size
  unheld := standing.unheld.setArgument x name apart
  link := by
    rw [get_setArgument]
    split <;> exact standing.link

theorem Standing.setEnclosing {x : Handle} (standing : Standing a₀ h a) (other : x ≠ h)
    (e? : Option Handle) : Standing a₀ h (a.setEnclosing x e?) where
  size := by
    rw [size_setEnclosing]
    exact standing.size
  unheld := standing.unheld.setEnclosing x e?
  link := by
    rw [get_setEnclosing, if_neg fun hit => other hit.1.symm]
    exact standing.link

theorem lawful (inside : a₀.contains h) : (lockstep a₀ h).Lawful where
  refl coupled := ⟨coupled.1.2, coupled.2⟩
  trans _ second := second
  coupled coupled evolves := ⟨⟨coupled.1.1, evolves.1⟩, evolves.2⟩
  left _ := trivial
  twin _ twin := twin
  made _ made := made
  twin_of_made made := ⟨made.1, fun same => made.2 (same ▸ inside)⟩
  resolve {c _ a _} name coupled := by
    obtain ⟨⟨rfl, rfl⟩, standing⟩ := coupled
    cases found : a.resolve c name with
    | found v =>
      obtain ⟨x, stores⟩ := stores_of_resolveFrom found
      exact .found (paired_of_unheld (standing.unheld x v stores))
    | missing declared owner => exact .missing rfl
  group coupled := by
    obtain ⟨⟨rfl, rfl⟩, -⟩ := coupled
    rfl
  template coupled made := by
    obtain ⟨⟨-, rfl⟩, -⟩ := coupled
    rw [made.1]
  similar coupled twin := by
    obtain ⟨⟨-, rfl⟩, -⟩ := coupled
    exact Template.similar_of_eq (by rw [twin.1])
  property {_ _ a _ x _} name coupled twin := by
    obtain ⟨⟨-, rfl⟩, standing⟩ := coupled
    obtain ⟨rfl, -⟩ := twin
    cases found : (a.get x).property name with
    | none => exact .none
    | some v =>
      have stores := Activation.stores_of_property found
      exact .some (paired_of_unheld (standing.unheld x v stores))
  embed {c _ a _} t coupled := by
    obtain ⟨⟨rfl, rfl⟩, standing⟩ := coupled
    refine ⟨⟨rfl, standing.push inside fun v stores => ?_⟩, rfl, ?_⟩
    · exact absurd stores (Activation.not_stores_of_empty rfl rfl)
    · have := standing.size
      simp only [Arena.embed, contains, push_index]
      omega
  argument {c _ a _ x _ _ _} name coupled made same := by
    obtain ⟨⟨-, rfl⟩, standing⟩ := coupled
    obtain ⟨rfl, -⟩ := made
    obtain ⟨rfl, apart⟩ := fixed_of_same (show (lockstep a₀ h).Same a a _ _ from same)
    exact ⟨rfl, standing.setArgument x name apart⟩
  arguments {c _ a _ x _} coupled made := by
    obtain ⟨⟨rfl, rfl⟩, standing⟩ := coupled
    obtain ⟨rfl, new⟩ := made
    refine ⟨⟨⟨rfl, rfl⟩, standing.push inside ?_⟩, ⟨rfl, new⟩, fun _ _ evolves => evolves⟩
    rintro v ⟨name, set | given⟩
    · cases set
    · exact standing.unheld x v ⟨name, Or.inr given⟩

theorem enclosing (setting : Setting) : (lockstep a₀ h).Enclosing setting := by
  rintro c _ x _ a _ ⟨⟨rfl, rfl⟩, standing⟩ ⟨rfl, other⟩
  have standing := standing.setEnclosing other (some c)
  constructor
  case opened => exact trivial
  case refused => exact fun _ => rfl
  case traces => exact fun _ _ => ⟨rfl, trivial⟩
  case entered => exact fun _ => ⟨⟨⟨rfl, rfl⟩, standing⟩, rfl, fun _ _ evolves => evolves⟩

theorem standing_refl (unheld : a.Unheld h) : Standing a h a := ⟨Nat.le_refl _, unheld, rfl⟩

theorem standing_of_agrees {α : Type} {Q : Arena → Arena → α → α → Prop} {x : Run α} {r : α}
    {s t : RenderState} (agrees : (lockstep a₀ h).Agrees c c s.arena s.arena Q x x)
    (ended : x s = .ok r t) : Standing a₀ h t.arena ∧ Q t.arena t.arena r r := by
  obtain ⟨r', t', again, -, -, ⟨-, standing⟩, related⟩ :=
    agrees.ends trivial ended s.diagnostics
  cases ended.symm.trans again
  exact ⟨standing, related⟩

theorem related (setting : Setting) (inside : a₀.contains h) (depth : Nat) :
    (lockstep a₀ h).Related (.ofDepth setting depth) (.ofDepth setting depth) :=
  Lockstep.related_ofDepth setting (lawful inside) (enclosing setting) depth

end Withheld

/-! ## What evaluation spares -/

section Runs

open Arena Withheld

variable (setting : Setting) {depth : Nat} {c : Handle} {s t : RenderState}

/-- A run spares what it leaves alone in both respects. -/
theorem spares_of_agrees {α : Type} {Q : Arena → Arena → α → α → Prop}
    {R : Handle → Arena → Arena → α → α → Prop} {x : Run α} {r : α}
    (steady : (Steady.lockstep IsInstance setting.strict s.arena []).Agrees c c s.arena s.arena
      Q x x)
    (withheld : ∀ h, s.arena.contains h → s.arena.Unheld h →
      (lockstep s.arena h).Agrees c c s.arena s.arena (R h) x x)
    (ended : x s = .ok r t) :
    s.arena.Spares t.arena ∧ Q t.arena t.arena r r ∧
      ∀ h, s.arena.contains h → s.arena.Unheld h → R h t.arena t.arena r r := by
  obtain ⟨r', t', again, -, -, ⟨-, moved⟩, related⟩ := steady.ends trivial ended s.diagnostics
  cases ended.symm.trans again
  have stays (h : Handle) (within : s.arena.contains h) (unheld : s.arena.Unheld h) :=
    standing_of_agrees (withheld h within unheld) ended
  exact ⟨⟨moved.keeps, moved.closed, fun within unheld => (stays _ within unheld).1.unheld,
    fun within unheld => (stays _ within unheld).1.link⟩, related,
    fun h within unheld => (stays h within unheld).2⟩

variable (closed : s.arena.Closed IsInstance) (inside : s.arena.contains c)
include closed inside

/-- A value that an expression comes to holds instances only, and none that no value held before. -/
theorem eval_spares {e : Expr} {v : Value}
    (ended : (Evaluator.ofDepth setting depth).eval c e s = .ok v t) :
    s.arena.Spares t.arena ∧ (∀ x, v.Holds x → t.arena.Knows IsInstance x) ∧
      ∀ h, s.arena.contains h → s.arena.Unheld h → ¬ v.Holds h := by
  have steady : (Steady.lockstep IsInstance setting.strict s.arena []).Lawful := Steady.lawful rfl
  have rel := Lockstep.related_ofDepth setting steady (Steady.enclosing setting) depth
  obtain ⟨spares, same, apart⟩ := spares_of_agrees setting
    (rel.eval e ⟨⟨rfl, rfl⟩, Steady.standing_root closed inside nofun⟩)
    (fun h within unheld =>
      (related setting within depth).eval e ⟨⟨rfl, rfl⟩, standing_refl unheld⟩) ended
  exact ⟨spares, (Steady.fixed_of_same same).2,
    fun h within unheld => (fixed_of_same (apart h within unheld)).2⟩

theorem referred_spares {ref : TemplateRef} {found? : Option (Template × Arguments)}
    (ended : (Evaluator.ofDepth setting depth).referred setting c ref s = .ok found? t) :
    s.arena.Spares t.arena := by
  have steady : (Steady.lockstep IsInstance setting.strict s.arena []).Lawful := Steady.lawful rfl
  have rel := Lockstep.related_ofDepth setting steady (Steady.enclosing setting) depth
  exact (spares_of_agrees setting
    (Lockstep.agrees_referred setting steady rel
      ⟨⟨rfl, rfl⟩, Steady.standing_root closed inside nofun⟩ ref)
    (fun h within unheld => Lockstep.agrees_referred setting (lawful within)
      (related setting within depth) ⟨⟨rfl, rfl⟩, standing_refl unheld⟩ ref) ended).1

end Runs

end Stencil
