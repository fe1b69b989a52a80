import Stencil.Proofs.Lockstep.Basic
/-!
# Calls in lockstep

Names, calls and applications agree in two renders whose evaluators do. A call makes its instance
and opens a scope for its arguments; the laws of the lockstep say that both are what the scope
around the call allows.
-/
namespace Stencil
namespace Lockstep

/-- Two evaluators that agree wherever the arenas are coupled. -/
structure Related (L : Lockstep) (ev ev' : Evaluator) : Prop where
  eval {c c' a b} (e : Expr) :
    L.Coupled c c' a b → L.Agrees c c' a b L.Same (ev.eval c e) (ev'.eval c' e)
  write {c c' a b v v'} (o : WriteOptions) :
    L.Coupled c c' a b → L.Same a b v v' →
    L.Agrees c c' a b (L.Wrote v) (ev.write c v o) (ev'.write c' v' o)
  render {c c' a b} (chunks : List Chunk) :
    L.Coupled c c' a b → L.Agrees c c' a b Equal (ev.render c chunks) (ev'.render c' chunks)

variable {L : Lockstep} {ev ev' : Evaluator} {c c' h h' : Handle} {a b a₁ b₁ : Arena}
  {v v' w w' : Value} (setting : Setting) [suits : L.Suits setting] (laws : L.Lawful)
  (rel : L.Related ev ev') (coupled : L.Coupled c c' a b)

include laws in
theorem Same.evolve (evolves : L.Evolves c c' a b a₁ b₁) (same : L.Same a b v v') :
    L.Same a₁ b₁ v v' :=
  same.mono fun _ _ => laws.twin evolves

include laws coupled

/-! ## Texts -/

include rel in
theorem agrees_text (same : L.Same a b v v') :
    L.Agrees c c' a b Equal (ev.text setting c v) (ev'.text setting c' v') := by
  have written := agrees_captured suits.fits (rel.write .plain coupled same)
  cases same with
  | same fixed =>
    cases v with
    | text s => exact agrees_pure laws coupled rfl
    | _ => exact written
  | template twin => exact written
  | list lengths each => exact written

include rel in
theorem agrees_evalText (e : Expr) :
    L.Agrees c c' a b Equal (ev.evalText setting c e) (ev'.evalText setting c' e) := by
  refine agrees_bind laws coupled (rel.eval e coupled) ?_
  intro a₁ b₁ v v' coupled evolves same
  exact agrees_text setting laws rel coupled same

include rel in
theorem agrees_joined (left : L.Same a b v v') (right : L.Same a b w w') :
    L.Agrees c c' a b L.Same
      (do return .text ((← ev.text setting c v) ++ (← ev.text setting c w)))
      (do return .text ((← ev'.text setting c' v') ++ (← ev'.text setting c' w'))) := by
  refine agrees_bind_equal laws coupled (agrees_text setting laws rel coupled left) ?_
  intro a₁ b₁ s coupled evolves
  have right := right.evolve laws evolves
  refine agrees_bind_equal laws coupled (agrees_text setting laws rel coupled right) ?_
  intro a₂ b₂ t coupled _
  exact agrees_pure laws coupled (.text _)

omit laws coupled in
theorem concat_eq (ev : Evaluator) (c : Handle) (v w : Value) :
    ev.concat setting c v w =
      if v.isNull then pure w
      else if w.isNull then pure v
      else do return .text ((← ev.text setting c v) ++ (← ev.text setting c w)) := by
  cases v <;> cases w <;> rfl

include rel in
theorem agrees_concat (left : L.Same a b v v') (right : L.Same a b w w') :
    L.Agrees c c' a b L.Same (ev.concat setting c v w) (ev'.concat setting c' v' w') := by
  rw [concat_eq, concat_eq, ← left.isNull_eq, ← right.isNull_eq]
  split
  · exact agrees_pure laws coupled right
  · split
    · exact agrees_pure laws coupled left
    · exact agrees_joined setting laws rel coupled left right

/-! ## Names -/

theorem agrees_resolveAttribute (name : String) :
    L.Agrees c c' a b L.Same (Run.resolveAttribute c name) (Run.resolveAttribute c' name) := by
  refine agrees_withArena ?_
  have resolved := laws.resolve name coupled
  generalize a.resolve c name = r at resolved
  generalize b.resolve c' name = r' at resolved
  cases resolved with
  | found same => exact agrees_pure laws coupled same
  | @missing declared owner owner' names =>
    cases declared with
    | true => exact agrees_pure laws coupled .null
    | false =>
      dsimp only
      rw [← names]
      refine agrees_bind_equal laws coupled (agrees_report laws coupled _) ?_
      intro a₁ b₁ _ coupled _
      exact agrees_pure laws coupled .null

theorem property_paired (same : L.Same a b v v') (name : String) :
    Option.Rel (L.Same a b) (a.property v name) (b.property v' name) := by
  have fixedAll {found? : Option Value}
      (fixed : ∀ w, found? = some w → ∀ h, w.Holds h → L.Twin a b h h) :
      Option.Rel (L.Same a b) found? found? := by
    cases found? with
    | none => exact .none
    | some w => exact .some (.same (fixed w rfl))
  cases same with
  | template twin => exact laws.property name coupled twin
  | list => exact .none
  | @same v fixed =>
    cases v with
    | template h => exact laws.property name coupled (fixed h .template)
    | aggregate fields =>
      exact fixedAll fun w found h holds =>
        fixed h (.aggregate (Table.mem_of_find? found) holds)
    | map entries =>
      exact fixedAll fun w found h holds => fixed h (Value.holds_of_mapProperty found holds)
    | object o => exact fixedAll fun w found h holds => fixed h (.object found holds)
    | _ => exact .none

theorem describe_eq (same : L.Same a b v v') : a.describe v = b.describe v' := by
  have named {h h' : Handle} (twin : L.Twin a b h h') :
      a.describe (.template h) = b.describe (.template h') := by
    have names : (a.get h).name = (b.get h').name := (laws.similar coupled twin).name
    simp only [Arena.describe, names]
  cases same with
  | template twin => exact named twin
  | list => rfl
  | @same v fixed =>
    cases v with
    | template h => exact named (fixed h .template)
    | _ => rfl

theorem agrees_resolveProperty (same : L.Same a b v v') (name : String) :
    L.Agrees c c' a b L.Same (Run.resolveProperty v name) (Run.resolveProperty v' name) := by
  unfold Run.resolveProperty
  rw [← same.isNull_eq]
  split
  · exact agrees_pure laws coupled .null
  · refine agrees_withArena ?_
    have found := property_paired laws coupled same name
    rw [← describe_eq laws coupled same]
    generalize a.property v name = r at found
    generalize b.property v' name = r' at found
    cases found with
    | some same => exact agrees_pure laws coupled same
    | none =>
      refine agrees_bind_equal laws coupled (agrees_report laws coupled _) ?_
      intro a₁ b₁ _ coupled _
      exact agrees_pure laws coupled .null

include rel in
theorem agrees_target (t : Target) :
    L.Agrees c c' a b Equal (ev.target setting c t) (ev'.target setting c' t) := by
  cases t with
  | name name =>
    refine agrees_withArena ?_
    rw [laws.group coupled]
    exact agrees_pure laws coupled rfl
  | super name =>
    refine agrees_withArena ?_
    rw [laws.group coupled]
    exact agrees_pure laws coupled rfl
  | computed e =>
    refine agrees_bind_equal laws coupled (agrees_evalText setting laws rel coupled e) ?_
    intro a₁ b₁ name coupled _
    exact agrees_pure laws coupled rfl

include rel in
theorem agrees_template? (t : Target) :
    L.Agrees c c' a b Equal (ev.template? setting c t) (ev'.template? setting c' t) := by
  refine agrees_bind_equal laws coupled (agrees_target setting laws rel coupled t) ?_
  rintro a₁ b₁ ⟨name, found?⟩ coupled -
  cases found? with
  | some t => exact agrees_pure laws coupled rfl
  | none =>
    refine agrees_bind_equal laws coupled (agrees_report laws coupled _) ?_
    intro a₂ b₂ _ coupled _
    exact agrees_pure laws coupled rfl

/-! ## Arguments -/

theorem agrees_bindUnlessNull (made : L.Made a b h h') (same : L.Same a b v v') (name : String) :
    L.Agrees c c' a b Equal (Evaluator.bindUnlessNull h name v)
      (Evaluator.bindUnlessNull h' name v') := by
  unfold Evaluator.bindUnlessNull
  rw [← same.isNull_eq]
  split
  · exact agrees_pure laws coupled rfl
  · exact agrees_changeArena (laws.argument name coupled made same)

/-- What happens in the scope of a call's arguments is no more than the scope around it allows. -/
theorem agrees_openArguments {f g : Handle → Run Unit} (made : L.Made a b h h')
    (inside : ∀ n n' a₁ b₁, L.Coupled n n' a₁ b₁ → L.Made a₁ b₁ h h' →
      L.Agrees n n' a₁ b₁ Equal (f n) (g n')) :
    L.Agrees c c' a b Equal (Evaluator.openArguments c h >>= f)
      (Evaluator.openArguments c' h' >>= g) := by
  obtain ⟨coupled, made, wider⟩ := laws.arguments coupled made
  intro ds ds' w fits
  exact (inside _ _ _ _ coupled made ds ds' w fits).widen wider fun _ _ _ _ equal => equal

include rel in
theorem agrees_bindNamed (made : L.Made a b h h') (t : Template)
    (bindings : List (String × Expr)) :
    L.Agrees c c' a b Equal (ev.bindNamed h c t bindings) (ev'.bindNamed h' c' t bindings) := by
  induction bindings generalizing a b with
  | nil => exact agrees_pure laws coupled rfl
  | cons binding rest ih =>
    obtain ⟨name, e⟩ := binding
    unfold Evaluator.bindNamed
    dsimp only
    split
    · refine agrees_bind_equal laws coupled (agrees_report laws coupled _) ?_
      intro a₁ b₁ _ coupled evolves
      exact ih coupled (laws.made evolves made)
    · refine agrees_bind laws coupled (rel.eval e coupled) ?_
      intro a₁ b₁ v v' coupled evolves same
      have made := laws.made evolves made
      refine agrees_bind_equal laws coupled
        (agrees_bindUnlessNull laws coupled made same name) ?_
      intro a₂ b₂ _ coupled evolves
      exact ih coupled (laws.made evolves made)

include rel in
theorem agrees_bindArguments (made : L.Made a b h h') (args : Arguments) :
    L.Agrees c c' a b Equal (ev.bindArguments c h args) (ev'.bindArguments c' h' args) := by
  refine agrees_withArena ?_
  rw [← laws.template coupled made]
  cases args with
  | none => exact agrees_pure laws coupled rfl
  | positional e =>
    dsimp only
    split
    · refine agrees_openArguments laws coupled made ?_
      intro n n' a₁ b₁ coupled made
      refine agrees_bind laws coupled (rel.eval e coupled) ?_
      intro a₂ b₂ v v' coupled evolves same
      exact agrees_bindUnlessNull laws coupled (laws.made evolves made) same _
    · exact agrees_report laws coupled _
  | named bindings =>
    refine agrees_openArguments laws coupled made ?_
    intro n n' a₁ b₁ coupled made
    exact agrees_bindNamed laws rel coupled made _ bindings

include rel in
theorem agrees_call (t : Target) (args : Arguments) :
    L.Agrees c c' a b L.Same (ev.call setting c t args) (ev'.call setting c' t args) := by
  refine agrees_bind_equal laws coupled (agrees_template? setting laws rel coupled t) ?_
  intro a₁ b₁ found? coupled _
  cases found? with
  | none => exact agrees_pure laws coupled .null
  | some t =>
    refine agrees_bind laws coupled (agrees_embed laws coupled t) ?_
    intro a₂ b₂ h h' coupled _ made
    refine agrees_bind_equal laws coupled (agrees_bindArguments laws rel coupled made args) ?_
    intro a₃ b₃ _ coupled evolves
    exact agrees_pure laws coupled (.template (laws.twin_of_made (laws.made evolves made)))

/-! ## Applications -/

/-- Another argument is bound after a change that the scope allows. -/
theorem argument_after (evolves : L.Evolves c c' a b a₁ b₁) (made : L.Made a b h h')
    (same : L.Same a b v v') (name : String) :
    L.Evolves c c' a b (a₁.setArgument h name v) (b₁.setArgument h' name v') :=
  laws.trans evolves (laws.argument name (laws.coupled coupled evolves) (laws.made evolves made)
    (same.evolve laws evolves))

theorem agrees_bindElement (made : L.Made a b h h') (same : L.Same a b v v') (t : Template)
    (index : Nat) :
    L.Agrees c c' a b Equal (Evaluator.bindElement h t index v)
      (Evaluator.bindElement h' t index v') := by
  refine agrees_changeArena ?_
  have bound (name : String) {a₁ b₁ : Arena} (evolves : L.Evolves c c' a b a₁ b₁) {w w' : Value}
      (same : L.Same a b w w') :=
    argument_after laws coupled evolves made same name
  have started := laws.refl coupled
  dsimp only
  cases Evaluator.soleFormal? t with
  | none => exact bound _ (bound _ (bound _ started same) same) (.int _)
  | some formal => exact bound _ (bound _ (bound _ (bound _ started same) same) same) (.int _)

include rel in
theorem agrees_applyTo (same : L.Same a b v v') (t : Template) (args : Arguments) (index : Nat) :
    L.Agrees c c' a b L.Same (ev.applyTo c t args index v) (ev'.applyTo c' t args index v') := by
  refine agrees_bind laws coupled (agrees_embed laws coupled t) ?_
  intro a₁ b₁ h h' coupled evolves made
  have same := same.evolve laws evolves
  refine agrees_bind_equal laws coupled (agrees_bindElement laws coupled made same t index) ?_
  intro a₂ b₂ _ coupled evolves
  have made := laws.made evolves made
  refine agrees_bind_equal laws coupled (agrees_bindArguments laws rel coupled made args) ?_
  intro a₃ b₃ _ coupled evolves
  exact agrees_pure laws coupled (.template (laws.twin_of_made (laws.made evolves made)))

include rel in
theorem agrees_referred (ref : TemplateRef) :
    L.Agrees c c' a b Equal (ev.referred setting c ref) (ev'.referred setting c' ref) := by
  cases ref with
  | named t args =>
    refine agrees_bind_equal laws coupled (agrees_template? setting laws rel coupled t) ?_
    intro a₁ b₁ found? coupled _
    exact agrees_pure laws coupled rfl
  | «inline» t => exact agrees_pure laws coupled rfl

/-- Lists of corresponding values. -/
def SameItems (L : Lockstep) (a b : Arena) : List Value → List Value → Prop :=
  List.Forall₂ (L.Same a b)

omit coupled in
theorem SameItems.evolve {items items' : List Value} (evolves : L.Evolves c c' a b a₁ b₁)
    (same : L.SameItems a b items items') : L.SameItems a₁ b₁ items items' :=
  same.imp fun _ _ => Same.evolve laws evolves

include rel in
theorem agrees_applyInTurn (templates : List TemplateRef) (index : Nat)
    {items items' : List Value} (same : L.SameItems a b items items') :
    L.Agrees c c' a b L.SameItems (ev.applyInTurn setting c templates index items)
      (ev'.applyInTurn setting c' templates index items') := by
  induction items generalizing items' a b index with
  | nil =>
    cases same
    exact agrees_pure laws coupled .nil
  | cons item rest ih =>
    obtain _ | ⟨first, others⟩ := same
    unfold Evaluator.applyInTurn
    generalize templates[index % templates.length]? = ref?
    cases ref? with
    | none => exact fun ds ds' w fits => ih coupled (index + 1) others ds ds' w fits
    | some ref =>
      refine agrees_bind_equal laws coupled (agrees_referred setting laws rel coupled ref) ?_
      intro a₁ b₁ found? coupled evolves
      have first := first.evolve laws evolves
      have others := SameItems.evolve laws evolves others
      cases found? with
      | none => exact ih coupled (index + 1) others
      | some found =>
        obtain ⟨t, args⟩ := found
        refine agrees_bind laws coupled
          (agrees_applyTo laws rel coupled first t args (index + 1)) ?_
        intro a₂ b₂ v v' coupled evolves same
        have others := SameItems.evolve laws evolves others
        refine agrees_bind laws coupled (ih coupled (index + 1) others) ?_
        intro a₃ b₃ vs vs' coupled evolves sames
        exact agrees_pure laws coupled (.cons (same.evolve laws evolves) sames)

include rel in
theorem agrees_applyRotating (source : Expr) (templates : List TemplateRef) :
    L.Agrees c c' a b L.Same (ev.applyRotating setting c source templates)
      (ev'.applyRotating setting c' source templates) := by
  refine agrees_bind laws coupled (rel.eval source coupled) ?_
  intro a₁ b₁ v v' coupled _ same
  rw [← same.isNull_eq]
  dsimp only
  split
  · exact agrees_pure laws coupled .null
  · refine agrees_bind laws coupled (agrees_applyInTurn setting laws rel coupled templates 0
      (Value.Paired.filter_isNull same.elements)) ?_
    intro a₂ b₂ vs vs' coupled _ sames
    exact agrees_pure laws coupled (.of_forall₂ sames)

/-! ## Aligned applications -/

/-- What an aligned application walks: no sources if one is null. -/
def SameSources (L : Lockstep) (a b : Arena) :
    Option (List (List Value)) → Option (List (List Value)) → Prop :=
  Option.Rel (List.Forall₂ (L.SameItems a b))

include rel in
theorem agrees_evalSources (sources : List Expr) :
    L.Agrees c c' a b L.SameSources (ev.evalSources c sources) (ev'.evalSources c' sources) := by
  induction sources generalizing a b with
  | nil => exact agrees_pure laws coupled (.some .nil)
  | cons e rest ih =>
    refine agrees_bind laws coupled (rel.eval e coupled) ?_
    intro a₁ b₁ v v' coupled _ same
    rw [← same.isNull_eq]
    split
    · exact agrees_pure laws coupled .none
    · refine agrees_bind laws coupled (ih coupled) ?_
      intro a₂ b₂ lists? lists?' coupled evolves sames
      have same := same.evolve laws evolves
      cases sames with
      | none => exact agrees_pure laws coupled .none
      | some sames => exact agrees_pure laws coupled (.some (.cons same.elements sames))

section Rows

variable {lists lists' : List (List Value)}
  (sames : List.Forall₂ (L.SameItems a b) lists lists')

omit laws coupled
include sames

theorem lengths_eq : lists.map List.length = lists'.map List.length := by
  induction sames with
  | nil => rfl
  | cons first _ ih => simp [List.Forall₂.length_eq first, ih]

theorem misalignment?_eq (formals : List String) :
    Evaluator.misalignment? formals lists = Evaluator.misalignment? formals lists' := by
  unfold Evaluator.misalignment?
  rw [lengths_eq sames, sames.length_eq]

theorem walked_same (formals : List String) :
    List.Forall₂ (L.SameItems a b) (Evaluator.walked formals lists)
      (Evaluator.walked formals lists') := by
  unfold Evaluator.walked
  rw [lengths_eq sames, sames.length_eq]
  split
  · exact List.forall₂_take _ sames
  · rw [List.forall₂_map_left_iff, List.forall₂_map_right_iff]
    exact sames.imp fun _ _ same => List.forall₂_take _ same

theorem rows_same :
    List.Forall₂ (List.Forall₂ (Option.Rel (L.Same a b))) (Evaluator.rows lists)
      (Evaluator.rows lists') := by
  unfold Evaluator.rows
  rw [lengths_eq sames, List.forall₂_map_left_iff, List.forall₂_map_right_iff]
  refine List.forall₂_same.2 fun j inside => ?_
  clear inside
  rw [List.forall₂_map_left_iff, List.forall₂_map_right_iff]
  refine sames.imp fun items items' same => ?_
  induction same generalizing j with
  | nil => exact .none
  | cons first _ ih =>
    cases j with
    | zero => exact .some first
    | succ j => exact ih j

end Rows

theorem agrees_bindRow (made : L.Made a b h h') (formals : List String)
    {row row' : List (Option Value)} (sames : List.Forall₂ (Option.Rel (L.Same a b)) row row')
    (index : Nat) :
    L.Agrees c c' a b Equal (Evaluator.bindRow h formals row index)
      (Evaluator.bindRow h' formals row' index) := by
  have entries : List.Forall₂ (fun e e' => e.1 = e'.1 ∧ Option.Rel (L.Same a b) e.2 e'.2)
      (formals.zip row) (formals.zip row') := by
    induction sames generalizing formals with
    | nil => simp
    | cons first _ ih =>
      cases formals with
      | nil => exact .nil
      | cons formal formals => exact .cons ⟨rfl, first⟩ (ih formals)
  refine agrees_changeArena (argument_after laws coupled ?_ made (.int _) _)
  refine List.rel_foldl (P := L.Evolves c c' a b) ?_ (laws.refl coupled) entries
  rintro a₁ b₁ evolves ⟨formal, element?⟩ ⟨_, element?'⟩ ⟨rfl, element⟩
  cases element with
  | none => exact evolves
  | @some v v' same =>
    dsimp only
    rw [← same.isNull_eq]
    split
    · exact evolves
    · exact argument_after laws coupled evolves made same formal

include rel in
theorem agrees_applyRows (t : Template) (args : Arguments) (index : Nat)
    {rows rows' : List (List (Option Value))}
    (sames : List.Forall₂ (List.Forall₂ (Option.Rel (L.Same a b))) rows rows') :
    L.Agrees c c' a b L.SameItems (ev.applyRows c t args index rows)
      (ev'.applyRows c' t args index rows') := by
  have later {a₁ b₁ a₂ b₂ : Arena} {rows rows' : List (List (Option Value))}
      (evolves : L.Evolves c c' a₁ b₁ a₂ b₂)
      (sames : List.Forall₂ (List.Forall₂ (Option.Rel (L.Same a₁ b₁))) rows rows') :
      List.Forall₂ (List.Forall₂ (Option.Rel (L.Same a₂ b₂))) rows rows' := by
    refine sames.imp fun _ _ row => row.imp fun _ _ element => ?_
    cases element with
    | none => exact .none
    | some same => exact .some (same.evolve laws evolves)
  induction rows generalizing rows' a b index with
  | nil =>
    cases sames
    exact agrees_pure laws coupled .nil
  | cons row rest ih =>
    obtain _ | ⟨first, others⟩ := sames
    refine agrees_bind laws coupled (agrees_embed laws coupled t) ?_
    intro a₁ b₁ h h' coupled evolves made
    obtain _ | ⟨first, others⟩ := later evolves (.cons first others)
    refine agrees_bind_equal laws coupled
      (agrees_bindRow laws coupled made t.formals first (index + 1)) ?_
    intro a₂ b₂ _ coupled evolves
    have made := laws.made evolves made
    have others := later evolves others
    refine agrees_bind_equal laws coupled (agrees_bindArguments laws rel coupled made args) ?_
    intro a₃ b₃ _ coupled evolves
    have made := laws.made evolves made
    refine agrees_bind laws coupled (ih coupled (index + 1) (later evolves others)) ?_
    intro a₄ b₄ vs vs' coupled evolves sames
    exact agrees_pure laws coupled
      (.cons (.template (laws.twin_of_made (laws.made evolves made))) sames)

include rel in
theorem agrees_applyAligned (sources : List Expr) (ref : TemplateRef) :
    L.Agrees c c' a b L.Same (ev.applyAligned setting c sources ref)
      (ev'.applyAligned setting c' sources ref) := by
  refine agrees_bind laws coupled (agrees_evalSources laws rel coupled sources) ?_
  intro a₁ b₁ lists? lists?' coupled _ sames
  cases sames with
  | none => exact agrees_pure laws coupled .null
  | @some lists lists' sames =>
    refine agrees_bind_equal laws coupled (agrees_referred setting laws rel coupled ref) ?_
    intro a₂ b₂ found? coupled evolves
    have sames : List.Forall₂ (L.SameItems a₂ b₂) lists lists' :=
      sames.imp fun _ _ => SameItems.evolve laws evolves
    cases found? with
    | none => exact agrees_pure laws coupled .null
    | some found =>
      obtain ⟨t, args⟩ := found
      dsimp only
      rw [misalignment?_eq sames]
      have applied {a₃ b₃ : Arena} (coupled : L.Coupled c c' a₃ b₃)
          (evolves : L.Evolves c c' a₂ b₂ a₃ b₃) :
          L.Agrees c c' a₃ b₃ L.Same
            (do return .list (← ev.applyRows c t args 0
              (Evaluator.rows (Evaluator.walked t.formals lists))))
            (do return .list (← ev'.applyRows c' t args 0
              (Evaluator.rows (Evaluator.walked t.formals lists')))) := by
        have sames : List.Forall₂ (L.SameItems a₃ b₃) lists lists' :=
          sames.imp fun _ _ => SameItems.evolve laws evolves
        refine agrees_bind laws coupled (agrees_applyRows laws rel coupled t args 0
          (rows_same (walked_same sames t.formals))) ?_
        intro a₄ b₄ vs vs' coupled _ sames
        exact agrees_pure laws coupled (.of_forall₂ sames)
      split
      · refine agrees_bind_equal laws coupled (agrees_report laws coupled _) ?_
        intro a₃ b₃ _ coupled evolves
        exact applied coupled evolves
      · exact applied coupled (laws.refl coupled)

end Lockstep
end Stencil
