import Stencil.Group.Library
import Stencil.Proofs.Renaming
import Stencil.Proofs.Steady
/-!
# The groups that names are resolved in

An instance of a template that a group defines finds what it calls in that group, whatever encloses
it. An inline template belongs to no group, although it may stand in a template that does: its
instances find what they call in the group of whoever writes them.
-/
namespace Stencil
namespace Arena

variable {a b : Arena} {c h : Handle}

theorem groupOf_of_group {group : String} (defined : (a.get h).template.group = some group) :
    a.groupOf h = some group := by
  rw [groupOf, List.findSome?_cons, defined]

/-- Without a group of its own an activation is in that of the one around it. -/
theorem groupOf_of_link (inside : a.LinksInside) (within : a.contains h) (link : a.Link h c) :
    a.groupOf h = ((a.get h).template.group <|> a.groupOf c) := by
  obtain ⟨n, size⟩ : ∃ n, a.size = n + 1 := ⟨a.size - 1, by have : h.index < a.size := within; omega⟩
  have chain : a.enclosingChain h = c :: a.chainFrom n (a.get c).enclosing? := by
    rw [enclosingChain, size, link, chainFrom]
  have around : a.groupOf c = (a.enclosingChain h).findSome? fun x => (a.get x).template.group := by
    rw [groupOf, chain]
    have shorter : c :: a.chainFrom n (a.get c).enclosing? <+: c :: a.enclosingChain c := by
      rw [enclosingChain, size]
      have same_or_longer := chainFrom_prefix a n 1 (a.get c).enclosing?
      exact (List.prefix_cons_inj c).2 same_or_longer
    symm
    refine findSome?_eq_of_prefix shorter (fun x member => ?_) fun _ _ => rfl
    rw [← chain, mem_enclosingChain_iff inside]
    rcases List.mem_cons.1 member with rfl | member
    · exact .single link
    · exact .head link ((mem_enclosingChain_iff inside).1 member)
  rw [groupOf, List.findSome?_cons, around]
  cases (a.get h).template.group <;> rfl

/-- What keeps the links around an activation keeps its group. -/
theorem groupOf_frame (inside : a.LinksInside) (scope : a.contains c) (frame : Frame c a b)
    (grows : Grows a b) : b.groupOf c = a.groupOf c := by
  have chain : b.enclosingChain c =
      a.chainFrom (a.size + (b.size - a.size)) (a.get c).enclosing? := by
    rw [enclosingChain, frame c .refl, frame.chainFrom_eq _ fun e link => .single link,
      Nat.add_sub_cancel' grows.size]
  have around (x : Handle) (member : x ∈ b.enclosingChain c) : x ∈ a.enclosingChain c := by
    rw [chain] at member
    exact (mem_enclosingChain_iff inside).2 (reaches_of_mem_chainFrom member)
  rw [groupOf, groupOf]
  symm
  refine findSome?_eq_of_prefix ((List.prefix_cons_inj c).2 ?_) ?_ ?_
  · rw [chain]
    exact chainFrom_prefix a _ _ _
  · exact fun x member => (List.mem_cons.1 member).elim (fun same => same ▸ List.mem_cons_self)
      fun member => List.mem_cons_of_mem c (around x member)
  · intro x member
    have within : a.contains x := by
      rcases List.mem_cons.1 member with rfl | member
      · exact scope
      · exact contains_of_mem_enclosingChain inside scope member
    rw [grows.template within]

/-- What an instance is rendered in the group of, once it is written: its own, or else that of the
activation that writes it. -/
theorem groupOf_setEnclosing (inside : a.LinksInside) (scope : a.contains c) (within : a.contains h)
    (apart : ¬ a.Reaches c h) :
    (a.setEnclosing h (some c)).groupOf h = ((a.get h).template.group <|> a.groupOf c) := by
  have keeps := keeps_setEnclosing a h (some c)
  rw [groupOf_of_link (inside.setEnclosing h scope) (keeps.contains within)
    (link_setEnclosing within), keeps.template within,
    groupOf_frame inside scope (frame_setEnclosing apart _) keeps.toGrows]

end Arena

namespace Steady

variable {setting : Setting} {a b : Arena} {h : Handle} {chunks : List Chunk} {depth n : Nat}
  {ds : List TemplateError} {w : Writer} {s : RenderState}

/-- Whatever has been rendered in an instance, it is still in its group. If it has none of its own,
the render must be strict, so that the links around it stay as they are. -/
theorem groupOf_rendered {a₀ : Arena} (standing : Standing IsInstance setting.strict a₀ [] h a)
    (settled : setting.strict = true ∨ (a.get h).template.group.isSome)
    (ran : (Evaluator.ofDepth setting depth).render h chunks ⟨a, ds, w⟩ = .ok n s) :
    s.arena.groupOf h = a.groupOf h := by
  have instances : IsInstance .template := rfl
  have laws : (lockstep IsInstance setting.strict a₀ []).Lawful := lawful instances
  have rel := Lockstep.related_ofDepth setting laws (enclosing setting) depth
  have outcome := rel.render chunks ⟨⟨rfl, rfl⟩, standing⟩ ds ds w trivial
  rw [ran] at outcome
  cases outcome with
  | ok _ _ evolves _ =>
    obtain ⟨-, moved⟩ := evolves
    rcases settled with isStrict | ownGroup
    · exact Arena.groupOf_frame standing.closed.links standing.inside (moved.frame isStrict)
        moved.grows
    · obtain ⟨group, own⟩ := Option.isSome_iff_exists.1 ownGroup
      rw [Arena.groupOf_of_group own, Arena.groupOf_of_group]
      exact (moved.grows.template standing.inside ▸ own)

end Steady

/-- An instance that does not enclose its writer is rendered where names are resolved in its own
group, or in the writer's if it has none. They still are after any of its chunks, which may write
other instances, and these again others; without a group of its own only in a strict render. -/
theorem written_instance_resolves {setting : Setting} {a : Arena} (closed : a.Closed IsInstance)
    {caller h : Handle} (scope : a.contains caller) (knows : a.Knows IsInstance h)
    (apart : ¬ a.Reaches caller h)
    (settled : setting.strict = true ∨ (a.get h).template.group.isSome) (depth : Nat)
    (ds : List TemplateError) (w : Writer) :
    let ev := Evaluator.ofDepth setting depth
    let linked := a.setEnclosing h (some caller)
    let group? := (a.get h).template.group <|> a.groupOf caller
    ev.writeTemplate setting caller h ⟨a, ds, w⟩ =
        ev.render h (a.get h).template.chunks ⟨linked, ds, w⟩ ∧
      ∀ chunks n s, ev.render h chunks ⟨linked, ds, w⟩ = .ok n s → ∀ name,
        ev.target setting h (.name name) s =
            .ok (name, Evaluator.lookupName setting group? name) s ∧
          ev.target setting h (.super name) s =
            .ok ("super." ++ name,
              group?.bind fun group => setting.registry.lookupSuper? group name) s := by
  intro ev linked group?
  have keeps : a.Keeps linked := Arena.keeps_setEnclosing a h (some caller)
  have group : linked.groupOf h = group? :=
    Arena.groupOf_setEnclosing closed.links scope knows.inside apart
  have standing : Steady.Standing IsInstance setting.strict a [] caller a :=
    ⟨closed, .refl a, scope, fun _ _ member => absurd member List.not_mem_nil⟩
  refine ⟨?_, fun chunks n s ran name => ?_⟩
  · have allowed : linked.isSelfEnclosed h = false := by
      rw [← Bool.not_eq_true, standing.refused_iff knows]
      exact apart
    rw [Evaluator.writeTemplate_run, allowed, Bool.and_false, if_neg Bool.false_ne_true,
      keeps.template knows.inside]
  · have inner := (standing.enter knows fun _ => apart).1.fewer
    have rendered := Steady.groupOf_rendered inner
      (settled.imp_right fun own => keeps.template knows.inside ▸ own) ran
    rw [← group, ← rendered]
    exact ⟨rfl, rfl⟩

namespace Groups

/-- A group with a layout, and one that extends it and gives the layout an inline template. -/
def library : Library :=
  let define := do
    let (base, l) := Library.empty.add (.empty "base" .dollar)
    let (_, l) ← l.define base "frame" ["body"] "<$body$>"
    let (_, l) ← l.define base "mark" [] "b"
    let (page, l) := (l.register base).add (.empty "page" .dollar)
    let (_, l) ← l.define page "d" ["v"]
      "$frame(body=v:\x7bx | $mark()$/$super.mark()$\x7d)$"
    let (_, l) ← l.define page "mark" [] "p"
    (l.register page).setParent page base
  match define with
  | .ok l => l
  | .error _ => .empty

def setting : Setting := { Setting.standardStrict with registry := library.registry }

def page : Template := (library.registry.lookup? "page.d").getD default

/-- An instance of the template of the group that extends the other. -/
def framed : Arena := (Arena.empty.instantiate page).2.setAttribute ⟨0⟩ "v" (.int 1)

/-- An instance of a template of group `base`, with one of a template without a group beside it. -/
def beside : Arena :=
  ((Arena.empty.instantiate ((Template.plain "frame" []).inGroup "base")).2.instantiate
    (.plain "d_anon1" [])).2

end Groups

/-- The instance of group `base` has an inline one write in it, whose names it resolves itself. -/
theorem inline_instance_resolves_in_writer :
    let linked := Groups.beside.setEnclosing ⟨1⟩ (some ⟨0⟩)
    let s : RenderState := ⟨linked, [], .fresh .autoIndent⟩
    let found? := Evaluator.lookupName Groups.setting (some "base") "mark"
    (Evaluator.ofDepth Groups.setting 1).target Groups.setting ⟨1⟩ (.name "mark") s =
      .ok ("mark", found?) s ∧ found?.bind Template.group = some "base" := by
  intro linked s found?
  have closed : Groups.beside.Closed IsInstance :=
    (Arena.closed_empty.instantiate _).instantiate _
  have scope : Groups.beside.contains ⟨0⟩ := by decide
  have within : Groups.beside.contains ⟨1⟩ := by decide
  have apart : ¬ Groups.beside.Reaches ⟨0⟩ ⟨1⟩ := by
    rw [← Arena.isSelfEnclosed_setEnclosing_iff closed.links scope within]
    decide
  have isStrict : Groups.setting.strict = true := rfl
  obtain ⟨-, resolves⟩ := written_instance_resolves closed scope ⟨within, rfl⟩ apart
    (Or.inl isStrict) 1 [] (.fresh .autoIndent)
  exact ⟨(resolves [] 0 s rfl "mark").1, by decide +kernel⟩

/-- The inline template stands in a template of group `page`, but is written in group `base`, which
has another `mark` and extends no group. -/
theorem inline_template_leaves_group :
    (Groups.setting.registry.lookup? "page.d").bind Template.group = some "page" ∧
      (Groups.setting.renderToText Groups.framed ⟨0⟩).result =
        .ok ⟨4, [.templateNotFound "super.mark"]⟩ ∧
      (Groups.setting.renderToText Groups.framed ⟨0⟩).writer.text = "<b/>" :=
  ⟨by decide +kernel, by decide +kernel, by decide +kernel⟩

end Stencil
