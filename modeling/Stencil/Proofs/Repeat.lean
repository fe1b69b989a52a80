import Stencil.Proofs.Lockstep.Step
import Stencil.Proofs.Reachable
import Stencil.Proofs.Renaming
/-!
# Renders that can be repeated

A render leaves activations and links behind. A strict one that comes to an end can be repeated
there all the same: it finds the tables of the host as they were and the links around its root as
they were, and every other link is set before it is followed. The second render makes its
activations behind those of the first, so the two differ by a gap between the handles.
-/
namespace Stencil
namespace Repeat

open Arena

variable {floor gap : Nat} {a b a₁ b₁ a₂ b₂ : Arena} {c h h' : Handle} {v v' : Value}

theorem LinksAlike.outer {e : Handle} (alike : LinksAlike floor gap c a b) (link : a.Link c e) :
    LinksAlike floor gap e a b :=
  fun x reached => alike x (.head link reached)

/-- A scope of arguments is younger than its caller, so no way to a name is cut off. -/
theorem resolveFrom_shift (renamed : Renamed floor gap a b) (name : String) {n m : Nat}
    (alike : LinksAlike floor gap c a b) (inside : a.contains c) (enough : c.index < n)
    (enough' : (c.shift floor gap).index < m) (declared : Bool) :
    Resolution.Paired (Twins floor gap a) a b (a.resolveFrom name n c declared)
      (b.resolveFrom name m (c.shift floor gap) declared) := by
  induction n generalizing m c declared with
  | zero => omega
  | succ n ih =>
    obtain ⟨m, rfl⟩ : ∃ k, m = k + 1 := ⟨m - 1, by omega⟩
    have corresponds := renamed.slots inside
    have looked := corresponds.lookup name
    have names : (a.get c).name = (b.get (c.shift floor gap)).name :=
      (congrArg Template.name corresponds.template).symm
    simp only [resolveFrom, corresponds.template, corresponds.kind, alike c .refl]
    generalize (a.get c).lookup name = r at looked
    generalize (b.get (c.shift floor gap)).lookup name = r' at looked
    cases looked with
    | some paired => exact .found paired
    | none =>
      dsimp only
      cases kind : (a.get c).kind with
      | template => exact .missing names
      | arguments =>
        cases link : (a.get c).enclosing? with
        | none => exact .missing names
        | some e =>
          have older := renamed.left.older (by simp [IsInstance]) c e kind link
          have older' : (e.shift floor gap).index < (c.shift floor gap).index :=
            Handle.shift_index_lt older
          exact ih (LinksAlike.outer alike link) (renamed.left.links c e link) (by omega)
            (by omega) _

/-- Where links were the same up to the gap, they are so still. -/
def KeepsAlike (floor gap : Nat) (a b a₁ b₁ : Arena) : Prop :=
  ∀ x, a.contains x → LinksAlike floor gap x a b → LinksAlike floor gap x a₁ b₁

theorem KeepsAlike.trans (first : KeepsAlike floor gap a b a₁ b₁) (grows : Grows a a₁)
    (second : KeepsAlike floor gap a₁ b₁ a₂ b₂) : KeepsAlike floor gap a b a₂ b₂ :=
  fun x inside alike => second x (grows.contains inside) (first x inside alike)

theorem KeepsAlike.of_frames (renamed : Renamed floor gap a b)
    (frame : ∀ x, a.contains x → Frame x a a₁) (frame' : ∀ x, b.contains x → Frame x b b₁) :
    KeepsAlike floor gap a b a₁ b₁ :=
  fun x inside alike => alike.frame (frame x inside) (frame' _ (renamed.contains_shift inside))

/-- Renders at corresponding scopes of arenas that differ by a gap. -/
def lockstep (floor gap : Nat) : Lockstep where
  Twin a _ h h' := Twins floor gap a h h'
  Made a _ h h' := Twins floor gap a h h'
  Coupled c c' a b := (c' = c.shift floor gap ∧ a.contains c) ∧ Renamed floor gap a b ∧
    LinksAlike floor gap c a b
  Evolves _ _ a b a₁ b₁ := Renamed floor gap a₁ b₁ ∧ Grows a a₁ ∧ KeepsAlike floor gap a b a₁ b₁
  Left _ _ := True

instance (floor gap : Nat) : (lockstep floor gap).Exact := ⟨id, fun _ => trivial⟩

theorem known_of_paired (renamed : Renamed floor gap a b)
    (paired : Value.Paired (Twins floor gap a) v v') :
    (∀ x, v.Holds x → a.Knows IsInstance x) ∧ ∀ x, v'.Holds x → b.Knows IsInstance x := by
  constructor
  · intro x holds
    obtain ⟨-, -, knows⟩ := paired.exists_of_holds.1 x holds
    exact knows
  · intro x holds
    obtain ⟨y, rfl, knows⟩ := paired.exists_of_holds.2 x holds
    exact renamed.knows_shift knows

/-- The scopes of a call's arguments differ by the gap if the callers and the callees do. -/
theorem argumentScope_coupled (renamed : Renamed floor gap a b) (alike : LinksAlike floor gap c a b)
    (inside : a.contains c) (knows : a.Knows IsInstance h) :
    let s := a.argumentScope c (a.get h).arguments
    let s' := b.argumentScope (c.shift floor gap) (b.get (h.shift floor gap)).arguments
    (lockstep floor gap).Coupled s.1 s'.1 s.2 s'.2 ∧
      Twins floor gap s.2 h (h.shift floor gap) ∧
      ∀ a₂ b₂, (lockstep floor gap).Evolves s.1 s'.1 s.2 s'.2 a₂ b₂ →
        (lockstep floor gap).Evolves c (c.shift floor gap) a b a₂ b₂ := by
  intro s s'
  have inside' := renamed.contains_shift inside
  have grows : Grows a s.2 := (keeps_push a _).toGrows
  have kept : KeepsAlike floor gap a b s.2 s'.2 :=
    .of_frames renamed (fun _ inside => frame_push renamed.left.links inside _)
      fun _ inside => frame_push renamed.right.links inside _
  have corresponds : Activation.Corresponds (Twins floor gap a)
      ⟨(a.get c).template, .empty, (a.get h).arguments, some c, .arguments⟩
      ⟨(b.get (c.shift floor gap)).template, .empty, (b.get (h.shift floor gap)).arguments,
        some (c.shift floor gap), .arguments⟩ :=
    ⟨(renamed.slots inside).template, rfl, fun _ => .none, (renamed.slots knows.inside).arguments⟩
  have renamed' : Renamed floor gap s.2 s'.2 :=
    renamed.push corresponds (renamed.left.argumentScope inside h)
      (renamed.right.argumentScope inside' _)
  refine ⟨⟨⟨renamed.push_shift _ _, ?_⟩, renamed', alike.push renamed inside rfl rfl⟩,
    Twins.grow grows ⟨rfl, knows⟩, ?_⟩
  · simp [s, argumentScope, contains]
  · exact fun a₂ b₂ evolves => ⟨evolves.1, grows.trans evolves.2.1, kept.trans grows evolves.2.2⟩

theorem lawful (floor gap : Nat) : (lockstep floor gap).Lawful where
  refl {_ _ a _} coupled := ⟨coupled.2.1, .refl a, fun _ _ alike => alike⟩
  trans first second :=
    ⟨second.1, first.2.1.trans second.2.1, first.2.2.trans first.2.1 second.2.2⟩
  coupled coupled evolves := ⟨⟨coupled.1.1, evolves.2.1.contains coupled.1.2⟩, evolves.1,
    evolves.2.2 _ coupled.1.2 coupled.2.2⟩
  left _ := trivial
  twin evolves twins := twins.grow evolves.2.1
  made evolves twins := twins.grow evolves.2.1
  twin_of_made twins := twins
  resolve {c _ a b} name coupled := by
    obtain ⟨⟨rfl, inside⟩, renamed, alike⟩ := coupled
    have enough : c.index < a.size + 1 := Nat.lt_succ_of_lt inside
    have enough' : (c.shift floor gap).index < b.size + 1 :=
      Nat.lt_succ_of_lt (renamed.contains_shift inside)
    exact resolveFrom_shift renamed name alike inside enough enough' _
  group coupled := by
    obtain ⟨⟨rfl, inside⟩, renamed, alike⟩ := coupled
    exact groupOf_shift renamed alike inside
  template coupled twins := by
    obtain ⟨rfl, knows⟩ := twins
    exact (coupled.2.1.slots knows.inside).template.symm
  similar coupled twins := by
    obtain ⟨rfl, knows⟩ := twins
    exact Template.similar_of_eq (coupled.2.1.slots knows.inside).template.symm
  property name coupled twins := by
    obtain ⟨rfl, knows⟩ := twins
    exact (coupled.2.1.slots knows.inside).property name
  embed {c _ a b} t coupled := by
    obtain ⟨⟨rfl, inside⟩, renamed, alike⟩ := coupled
    have inside' := renamed.contains_shift inside
    refine ⟨⟨renamed.push ?_ (renamed.left.embed inside t) (renamed.right.embed inside' t),
      (keeps_push a _).toGrows, .of_frames renamed
        (fun _ inside => frame_push renamed.left.links inside _)
        fun _ inside => frame_push renamed.right.links inside _⟩,
      renamed.push_shift _ _, knows_push a _ rfl⟩
    have corresponds : (Activation.ofTemplate t).Corresponds (Twins floor gap a) (.ofTemplate t) :=
      Activation.corresponds_self
        (fun _ stores => absurd stores (Activation.not_stores_of_empty rfl rfl)) rfl rfl rfl rfl
    exact corresponds.link _ _
  argument {c _ a b h _ v v'} name coupled twins paired := by
    obtain ⟨⟨rfl, inside⟩, renamed, alike⟩ := coupled
    obtain ⟨rfl, knows⟩ := twins
    obtain ⟨known, known'⟩ := known_of_paired renamed paired
    refine ⟨?_, grows_setArgument a h name v, .of_frames renamed
      (fun x _ => frame_setArgument x a h name v) fun x _ => frame_setArgument x b _ name v'⟩
    exact renamed.modify knows.inside (grows_setArgument a h name v)
      (fun _ _ corresponds => corresponds.insert name paired)
      (renamed.left.setArgument h name known) (renamed.right.setArgument _ name known')
  arguments {c _ a b h _} coupled twins := by
    obtain ⟨⟨rfl, inside⟩, renamed, alike⟩ := coupled
    obtain ⟨rfl, knows⟩ := twins
    exact argumentScope_coupled renamed alike inside knows

theorem enclosing (setting : Setting) (floor gap : Nat) :
    (lockstep floor gap).Enclosing setting := by
  rintro c _ h _ a b ⟨⟨rfl, inside⟩, renamed, alike⟩ ⟨rfl, knows⟩
  have keeps := keeps_setEnclosing a h (some c)
  have linked := renamed.setEnclosing knows inside
  have alike' := alike.setEnclosing renamed knows.inside (Or.inl rfl)
  constructor
  case opened => exact trivial
  case refused =>
    intro _
    have refused := isSelfEnclosed_setEnclosing_iff renamed.left.links inside knows.inside
    have refused' := isSelfEnclosed_setEnclosing_iff renamed.right.links
      (renamed.contains_shift inside) (renamed.contains_shift knows.inside)
    rw [alike.reaches_shift_iff, ← refused] at refused'
    exact Bool.eq_iff_iff.2 refused'.symm
  case traces =>
    exact fun _ circle =>
      ⟨trace_shift linked alike' (keeps.contains knows.inside) circle, trivial⟩
  case entered =>
    have kept : KeepsAlike floor gap a b _ _ := fun x _ around =>
      alike.setEnclosing renamed knows.inside (Or.inr around)
    exact fun _ => ⟨⟨⟨rfl, keeps.contains knows.inside⟩, linked, alike'⟩, congrArg Template.chunks
      (linked.slots (keeps.contains knows.inside)).template.symm, fun a₂ b₂ evolves =>
        ⟨evolves.1, keeps.toGrows.trans evolves.2.1, kept.trans keeps.toGrows evolves.2.2⟩⟩

/-- An arena to which activations have been added differs from what it was by those, if the links
around the root have been left as they were. -/
theorem coupled_of_moved {root : Handle} (closed : a.Closed IsInstance) (inside : a.contains root)
    (closed' : b.Closed IsInstance) (keeps : a.Keeps b) (frame : Frame root a b) :
    (lockstep a.size (b.size - a.size)).Coupled root root a b := by
  have fixed {x : Handle} (inside : a.contains x) : x.shift a.size (b.size - a.size) = x :=
    Handle.shift_of_lt inside
  refine ⟨⟨(fixed inside).symm, inside⟩, ?_, ?_⟩
  · refine ⟨?_, Nat.le_refl _, closed, closed', fun {x} within => ?_⟩
    · have := keeps.size
      omega
    · rw [fixed within]
      refine Activation.corresponds_self (fun v stores h holds => ?_) (keeps.template within)
        (keeps.kind within) (keeps.attributes within) (keeps.arguments within)
      have knows := closed.stored stores holds
      exact ⟨(fixed knows.inside).symm, knows⟩
  · intro x reached
    rw [fixed (contains_of_reaches closed.links inside reached), frame x reached]
    cases link : (a.get x).enclosing? with
    | none => rfl
    | some e => rw [Option.map_some, fixed (closed.links x e link)]

theorem related (setting : Setting) (floor gap depth : Nat) :
    (lockstep floor gap).Related (.ofDepth setting depth) (.ofDepth setting depth) :=
  Lockstep.related_ofDepth setting (lawful floor gap) (enclosing setting floor gap) depth

/-- What comes to an end behind activations that have been added does so without them. -/
theorem render_without {setting : Setting} {root : Handle} (closed : a.Closed IsInstance)
    (inside : a.contains root) (closed' : b.Closed IsInstance) (keeps : a.Keeps b)
    (frame : Frame root a b) {depth n : Nat} {chunks : List Chunk} {ds' : List TemplateError}
    {w : Writer} {t : RenderState}
    (ended : (Evaluator.ofDepth setting depth).render root chunks ⟨b, ds', w⟩ = .ok n t)
    (ds : List TemplateError) :
    ∃ s, (Evaluator.ofDepth setting depth).render root chunks ⟨a, ds, w⟩ = .ok n s ∧
      s.writer = t.writer := by
  have coupled := coupled_of_moved closed inside closed' keeps frame
  obtain ⟨_, s, ran, writer, -, -, rfl⟩ :=
    ((related setting _ _ depth).render chunks coupled).ends_back ended ds
  exact ⟨s, ran, writer.symm⟩

end Repeat

/-- A strict render of an instance of the host that comes to an end can be repeated on the arena
that it leaves behind, and comes to the same text, count and diagnostics. -/
theorem strict_render_repeats {setting : Setting} (isStrict : setting.strict = true)
    {host : List Handle} {a : Arena} (reachable : Reachable host a) {root : Handle}
    (made : root ∈ host) (depth : Nat) (w : Writer) {r : Rendered}
    (ended : (setting.renderWithin depth a root w).result = .ok r) :
    (setting.renderWithin depth (setting.renderWithin depth a root w).arena root w).result =
        .ok r ∧
      (setting.renderWithin depth (setting.renderWithin depth a root w).arena root w).writer =
        (setting.renderWithin depth a root w).writer := by
  obtain ⟨closed, known⟩ := reachable.invariant
  have inside := (known root made).inside
  have instances : IsInstance .template := rfl
  obtain ⟨closed', keeps, frame⟩ := render_moves setting instances closed inside depth w
  have coupled := Repeat.coupled_of_moved closed inside closed' keeps (frame isStrict r ended)
  obtain ⟨result, writer, -⟩ := Lockstep.render_outcome setting (Repeat.related setting _ _ depth)
    coupled (keeps.template inside).symm w
  exact ⟨result.symm.trans ended, writer.symm⟩

/-- An instance that writes another. -/
def Repeat.outer : Arena :=
  let a := (Arena.empty.instantiate (.plain "inner" [.literal "hello"])).2.instantiate
    (.plain "outer" [.expression (.attribute "x") .none none])
  a.2.setAttribute ⟨1⟩ "x" (.template ⟨0⟩)

theorem outer_render_repeats :
    let first := Setting.standardStrict.renderWithin 4 Repeat.outer ⟨1⟩ (.fresh .autoIndent)
    (Setting.standardStrict.renderWithin 4 first.arena ⟨1⟩ (.fresh .autoIndent)).result =
        .ok ⟨5, []⟩ ∧
      (Setting.standardStrict.renderWithin 4 first.arena ⟨1⟩ (.fresh .autoIndent)).writer =
        first.writer := by
  have reachable : Reachable [⟨1⟩, ⟨0⟩] Repeat.outer := by
    refine .setAttribute "x" (.instantiate _ (.instantiate _ .empty)) List.mem_cons_self ?_
    intro x holds
    obtain rfl := Value.holds_template_iff.1 holds
    simp
  have ended : (Setting.standardStrict.renderWithin 4 Repeat.outer ⟨1⟩
      (.fresh .autoIndent)).result = .ok ⟨5, []⟩ := rfl
  exact strict_render_repeats rfl reachable List.mem_cons_self 4 _ ended

end Stencil
