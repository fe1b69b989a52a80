import Stencil.Proofs.Elements.Tags
import Stencil.Proofs.Printing.GroupFile
/-!
# Bodies of templates

A template's body is cut out of the whole text by two offsets. What is cut out before a place does
not depend on what stands behind it, and what is cut out behind a place does not depend on how far
into the text that place is: so of what stands at the place nothing can show in the file but the
body of a template that is open there.
-/
namespace Stencil

open Markup (Event Reader)
open Text (betweenBytes byteLength)

namespace Text

variable {s t : List Char} {n : Nat}

theorem takeBytes_append_of_le (inside : n ≤ byteLength s) (t : List Char) :
    takeBytes n (s ++ t) = takeBytes n s := by
  induction s generalizing n with
  | nil =>
    obtain rfl : n = 0 := Nat.le_zero.1 inside
    rw [takeBytes_zero, takeBytes_zero]
  | cons c s ih =>
    cases n with
    | zero => rfl
    | succ n =>
      rw [byteLength_cons] at inside
      rw [List.cons_append, takeBytes, takeBytes, ih (by omega)]

theorem dropBytes_append_of_le (inside : n ≤ byteLength s) (t : List Char) :
    dropBytes n (s ++ t) = dropBytes n s ++ t := by
  induction s generalizing n with
  | nil =>
    obtain rfl : n = 0 := Nat.le_zero.1 inside
    cases t <;> rfl
  | cons c s ih =>
    cases n with
    | zero => rfl
    | succ n =>
      rw [byteLength_cons] at inside
      rw [List.cons_append, dropBytes, dropBytes, ih (by omega)]

theorem dropBytes_append_add (s t : List Char) (n : Nat) :
    dropBytes (byteLength s + n) (s ++ t) = dropBytes n t := by
  induction s with
  | nil => simp
  | cons c s ih =>
    obtain ⟨m, size⟩ : ∃ m, c.utf8Size + byteLength s + n = m + 1 :=
      ⟨c.utf8Size + byteLength s + n - 1, by have := c.utf8Size_pos; omega⟩
    have behind : m + 1 - c.utf8Size = byteLength s + n := by omega
    rw [byteLength_cons, size, List.cons_append, dropBytes, behind, ih]

theorem isBoundary_append_of_le (inside : n ≤ byteLength s) (t : List Char) :
    isBoundary n (s ++ t) = isBoundary n s := by
  induction s generalizing n with
  | nil =>
    obtain rfl : n = 0 := Nat.le_zero.1 inside
    cases t <;> rfl
  | cons c s ih =>
    cases n with
    | zero => rfl
    | succ n =>
      rw [byteLength_cons] at inside
      rw [List.cons_append, isBoundary, isBoundary, ih (by omega)]

/-- What is dropped up to a boundary is as long as the offset says. -/
theorem byteLength_dropBytes (boundary : isBoundary n s = true) :
    n + byteLength (dropBytes n s) = byteLength s := by
  induction s generalizing n with
  | nil =>
    cases n with
    | zero => rfl
    | succ n => cases boundary
  | cons c s ih =>
    cases n with
    | zero => exact Nat.zero_add _
    | succ n =>
      rw [isBoundary, Bool.and_eq_true, decide_eq_true_eq] at boundary
      have behind := ih boundary.2
      have whole := boundary.1
      rw [dropBytes, byteLength_cons]
      omega

/-- What is cut out of a text does not depend on what follows. -/
theorem cutBytes?_append_of_le (start : Nat) {stop : Nat} (inside : stop ≤ byteLength s)
    (t : List Char) : cutBytes? start stop (s ++ t) = cutBytes? start stop s := by
  unfold cutBytes?
  split
  · rfl
  · rename_i proper
    have before : start ≤ byteLength s := by omega
    rw [isBoundary_append_of_le before, isBoundary_append_of_le inside]
    split
    · rename_i boundaries
      have left := byteLength_dropBytes boundaries.1
      rw [betweenBytes, betweenBytes, dropBytes_append_of_le before,
        takeBytes_append_of_le (by omega)]
    · rfl

/-- Nor does it depend on what stands before, apart from the offsets. -/
theorem cutBytes?_append_add (s t : List Char) (start stop : Nat) :
    cutBytes? (byteLength s + start) (byteLength s + stop) (s ++ t) = cutBytes? start stop t := by
  simp only [cutBytes?, betweenBytes, isBoundary_append_add, dropBytes_append_add,
    Nat.add_le_add_iff_left, Nat.add_sub_add_left]

end Text

namespace GroupFile

variable {text : List Char} {p q : Progress} {e : Event} {es : List Event}

theorem foldlM_step_error [Reader] {problem : FileProblem}
    (refused : Progress.step text p e = .error problem) (events : List Event) :
    (e :: events).foldlM (Progress.step text) p = .error problem := by
  rw [List.foldlM_cons, refused]
  rfl

namespace Progress

/-- A body that is found is what stands between the offsets of its tags. -/
theorem templateBody?_of_bodyText [Reader] {t : OpenTemplate} {stop : Nat} {body : String}
    (found : bodyText text t stop = .ok body) :
    templateBody? (betweenBytes t.start (stop - endTagLength) text) = some body := by
  unfold bodyText at found
  split at found
  · cases found
  · cases cut : Text.cutBytes? t.start (stop - endTagLength) text with
    | none =>
      rw [cut] at found
      cases found
    | some raw =>
      rw [← Text.eq_betweenBytes_of_cutBytes? cut]
      cases read : templateBody? raw with
      | none =>
        rw [cut, Option.elim_some, read] at found
        cases found
      | some body' =>
        rw [cut, Option.elim_some, read] at found
        cases found
        rfl

/-! ## Before a place -/

/-- What an event does depends on the text up to its tag only. -/
theorem step_append [Reader] {s : List Char}
    (ends : ∀ name stop, e = .closed name stop → stop ≤ byteLength s) (t : List Char)
    (p : Progress) : step (s ++ t) p e = step s p e := by
  unfold step
  split
  case h_2 => rfl
  case h_1 template opened =>
    cases e with
    | opened | empty | broken => rfl
    | closed name stop =>
      have inside : stop - endTagLength ≤ byteLength s :=
        (Nat.sub_le _ _).trans (ends name stop rfl)
      have cut := Text.cutBytes?_append_of_le template.start inside t
      simp only [insideTemplate, onTemplateEnd, bodyText, cut]

theorem foldlM_step_append [Reader] {s : List Char}
    (ends : ∀ e ∈ es, ∀ name stop, e = .closed name stop → stop ≤ byteLength s) (t : List Char)
    (p : Progress) : es.foldlM (step (s ++ t)) p = es.foldlM (step s) p := by
  induction es generalizing p with
  | nil => rfl
  | cons e es ih =>
    obtain ⟨first, others⟩ := List.forall_mem_cons.1 ends
    rw [List.foldlM_cons, List.foldlM_cons, step_append first]
    exact bind_congr fun q => ih others q

/-- A template is open inside a group only, and its body begins at a place in the text. -/
def Begun (s : List Char) (p : Progress) : Prop :=
  ∀ t ∈ p.open?, p.file?.isSome ∧ ∃ read, read <+: s ∧ byteLength read = t.start

theorem exists_of_map_eq_ok {α β : Type} {f : α → β} {x : Except FileProblem α} {b : β}
    (mapped : x.map f = .ok b) : ∃ a, x = .ok a ∧ f a = b := by
  cases x with
  | error => cases mapped
  | ok a => exact ⟨a, rfl, Except.ok.inj mapped⟩

theorem Begun.of_none {s : List Char} (closed : p.open? = none) : p.Begun s := by
  intro t here
  rw [closed] at here
  cases here

section

variable [Reader] {s name attributes : List Char}

theorem Begun.onOpened {stop : Nat} (begun : p.Begun s)
    (ends : (Event.opened name attributes stop).EndsIn s)
    (taken : p.onOpened name attributes stop = .ok q) : q.Begun s := by
  unfold Progress.onOpened at taken
  split at taken
  · obtain ⟨_, _, rfl⟩ := exists_of_map_eq_ok taken
    exact .of_none rfl
  · split at taken
    case h_1 => cases taken
    case h_2 file group =>
      obtain ⟨_, _, rfl⟩ := exists_of_map_eq_ok taken
      rintro t ⟨⟩
      exact ⟨by rw [group]; rfl, ends.2⟩
  · split at taken
    case h_1 => cases taken
    case h_2 =>
      obtain ⟨_, _, rfl⟩ := exists_of_map_eq_ok taken
      exact .of_none rfl
  · cases taken
    exact begun

theorem Begun.onEmpty (begun : p.Begun s) (taken : p.onEmpty name attributes = .ok q) :
    q.Begun s := by
  unfold Progress.onEmpty at taken
  split at taken
  case h_3 =>
    cases taken
    exact begun
  all_goals
    split at taken
    case h_1 => cases taken
    case h_2 =>
      obtain ⟨_, _, rfl⟩ := exists_of_map_eq_ok taken
      exact .of_none rfl

theorem Begun.insideTemplate {t : OpenTemplate} (begun : p.Begun s) (opened : p.open? = some t)
    (taken : insideTemplate text p t e = .ok q) : q.Begun s := by
  have here := begun t opened
  unfold Progress.insideTemplate at taken
  split at taken
  · split at taken
    all_goals cases taken
    · rintro _ ⟨⟩
      exact here
    · exact begun
  · split at taken
    · split at taken
      · obtain ⟨_, _, rfl⟩ := exists_of_map_eq_ok taken
        exact .of_none rfl
      · cases taken
        rintro _ ⟨⟩
        exact here
    · cases taken
      exact begun
  · cases taken
    exact begun
  · cases taken

theorem Begun.step (begun : p.Begun s) (ends : e.EndsIn s) (taken : step text p e = .ok q) :
    q.Begun s := by
  unfold Progress.step at taken
  split at taken
  case h_1 t opened => exact begun.insideTemplate opened taken
  case h_2 =>
    split at taken
    · exact begun.onOpened ends taken
    · exact begun.onEmpty taken
    · cases taken
      exact begun
    · cases taken

theorem Begun.foldlM (begun : p.Begun s) (ends : ∀ e ∈ es, e.EndsIn s)
    (taken : es.foldlM (Progress.step text) p = .ok q) : q.Begun s := by
  induction es generalizing p with
  | nil =>
    cases taken
    exact begun
  | cons e es ih =>
    obtain ⟨first, others⟩ := List.forall_mem_cons.1 ends
    cases one : Progress.step text p e with
    | error =>
      rw [foldlM_step_error one] at taken
      cases taken
    | ok p' =>
      rw [foldlM_step one] at taken
      exact ih (begun.step first one) others taken

end

end Progress

/-! ## Behind a place -/

/-- Behind the end tag that ends at the offset `d`, the text goes on with `rest`. The offset may
leave out the bytes of a mark at the start of the text. -/
structure GoesOn (mark : Nat) (rest : List Char) (d : Nat) (text : List Char) : Prop where
  narrow : mark ≤ 3
  long : Progress.endTagLength ≤ d
  split : ∃ front, text = front ++ rest ∧ byteLength front = d + mark

theorem GoesOn.cutBytes? {mark d start : Nat} {rest : List Char} (on : GoesOn mark rest d text)
    (wide : 3 ≤ start) (stop size : Nat) :
    Text.cutBytes? (d + start) (d + stop - size) text =
      Text.cutBytes? (start - mark) (stop - size - mark) rest := by
  obtain ⟨front, rfl, length⟩ := on.split
  have narrow := on.narrow
  rcases Nat.le_total (stop - size) start with empty | proper
  · rw [Text.cutBytes?, if_pos (by omega), Text.cutBytes?, if_pos (by omega)]
  · rw [← Text.cutBytes?_append_add front rest, length]
    congr 1
    all_goals omega

/-- A template that was opened `d` bytes further on. -/
def OpenTemplate.shift (d : Nat) (t : OpenTemplate) : OpenTemplate :=
  { t with start := d + t.start }

/-- How a file comes out with each of the bodies that one of its templates may have: the template is
in its place behind `before`, unless an event among `es` has begun another group. -/
inductive Carries (t : OpenTemplate) (before : List TemplateDeclaration) (es : List Event) :
    (String → GroupFile) → Prop
  | kept (file : GroupFile) (after : List TemplateDeclaration) :
      Carries t before es fun body =>
        { file with templates := before ++ ⟨t.name, t.formals, body⟩ :: after }
  | anew (file : GroupFile) {attributes : List Char} {stop : Nat}
      (opened : .opened "group".toList attributes stop ∈ es) : Carries t before es fun _ => file

variable {t : OpenTemplate} {before : List TemplateDeclaration}

theorem Carries.addTemplate {put : String → GroupFile} (carries : Carries t before es put)
    (added : TemplateDeclaration) : Carries t before es fun body =>
      { put body with templates := (put body).templates ++ [added] } := by
  cases carries with
  | kept file after => simpa using .kept file (after ++ [added])
  | anew file opened => exact .anew _ opened

theorem Carries.addAlias {put : String → GroupFile} (carries : Carries t before es put)
    (added : String × String) : Carries t before es fun body =>
      { put body with aliases := (put body).aliases ++ [added] } := by
  cases carries with
  | kept file after => exact .kept { file with aliases := file.aliases ++ [added] } after
  | anew file opened => exact .anew _ opened

/-- How far a file has been read, for each body that one of its templates may have. -/
structure Variants where
  put : String → GroupFile
  open? : Option OpenTemplate

namespace Variants

variable {v : Variants}

def progress (v : Variants) (d : Nat) (body : String) : Progress :=
  ⟨some (v.put body), v.open?.map (OpenTemplate.shift d)⟩

structure Sound (t : OpenTemplate) (before : List TemplateDeclaration) (es : List Event)
    (v : Variants) : Prop where
  carries : Carries t before es v.put
  wide : ∀ t ∈ v.open?, 3 ≤ t.start

theorem Sound.of_carries {put : String → GroupFile} (carries : Carries t before es put) :
    Variants.Sound t before es ⟨put, none⟩ where
  carries := carries
  wide := by
    rintro _ ⟨⟩

/-- The runs with all the texts and bodies fail alike, or arrive at the variants of one file. -/
inductive Uniform (mark : Nat) (rest : List Char) (t : OpenTemplate)
    (before : List TemplateDeclaration) (es : List Event)
    (run : Nat → List Char → String → Except FileProblem Progress) : Prop
  | refused (problem : FileProblem)
      (all : ∀ d text body, GoesOn mark rest d text → run d text body = .error problem)
  | taken (v : Variants) (sound : v.Sound t before es)
      (all : ∀ d text body, GoesOn mark rest d text → run d text body = .ok (v.progress d body))

variable {mark : Nat} {rest : List Char} {name attributes : List Char} {stop : Nat}

theorem Sound.unchanged (sound : v.Sound t before es) :
    Uniform mark rest t before es fun d _ body => .ok (v.progress d body) :=
  .taken v sound fun _ _ _ _ => rfl

theorem name_of_ofName? {element : Element} (named : Element.ofName? name = some element) :
    name = element.name.toList := by
  unfold Element.ofName? at named
  split at named
  case isTrue same => cases named; exact same
  split at named
  case isTrue same => cases named; exact same
  split at named
  case isTrue same => cases named; exact same
  cases named

/-- What an attribute reader answers has no part in the texts and bodies. -/
theorem Uniform.map {α : Type} {answer : Except FileProblem α} {next : Nat → String → α → Progress}
    (after : α → Variants) (sound : ∀ a, (after a).Sound t before es)
    (same : ∀ d body a, next d body a = (after a).progress d body) :
    Uniform mark rest t before es fun d _ body => answer.map (next d body) := by
  cases answer with
  | error problem => exact .refused problem fun _ _ _ _ => rfl
  | ok a => exact .taken (after a) (sound a) fun d _ body _ => congrArg Except.ok (same d body a)

section

variable [Reader]

theorem Sound.onTemplateEnd (sound : v.Sound t before es) (mark : Nat) (rest : List Char)
    {inner : OpenTemplate} (wide : 3 ≤ inner.start) (stop : Nat) :
    Uniform mark rest t before es fun d text body =>
      Progress.onTemplateEnd text (v.progress d body) (inner.shift d) (d + stop) := by
  let read (cut? : Option (List Char)) : Except FileProblem String :=
    cut?.elim (.error .cutCharacter) fun raw =>
      (templateBody? raw).elim (.error (.invalidEntity inner.name)) .ok
  let answer :=
    read (Text.cutBytes? (inner.start - mark) (stop - Progress.endTagLength - mark) rest)
  have same {d : Nat} {text : List Char} (on : GoesOn mark rest d text) :
      Progress.bodyText text (inner.shift d) (d + stop) = answer := by
    have long : ¬ d + stop < Progress.endTagLength := by
      have := on.long
      omega
    exact (if_neg long).trans (congrArg read (on.cutBytes? wide stop Progress.endTagLength))
  have added (content : String) : Variants.Sound t before es
      ⟨fun body => { v.put body with
        templates := (v.put body).templates ++ [⟨inner.name, inner.formals, content⟩] }, none⟩ :=
    .of_carries (sound.carries.addTemplate ⟨inner.name, inner.formals, content⟩)
  cases found : answer with
  | error problem =>
    refine .refused problem fun d text body on => ?_
    rw [Progress.onTemplateEnd, same on, found]
    rfl
  | ok content =>
    refine .taken _ (added content) fun d text body on => ?_
    rw [Progress.onTemplateEnd, same on, found]
    rfl

theorem Sound.insideTemplate (sound : v.Sound t before es) (mark : Nat) (rest : List Char)
    {inner : OpenTemplate} (here : v.open? = some inner) (e : Event) :
    Uniform mark rest t before es fun d text body =>
      Progress.insideTemplate text (v.progress d body) (inner.shift d) (e.shift d) := by
  have wide := sound.wide inner here
  have deeper (depth : Nat) : Variants.Sound t before es ⟨v.put, some { inner with depth }⟩ := by
    refine ⟨sound.carries, ?_⟩
    rintro _ ⟨⟩
    exact wide
  have unchanged : Uniform mark rest t before es fun d _ body => .ok (v.progress d body) :=
    sound.unchanged
  cases e with
  | empty => exact unchanged
  | broken => exact .refused .malformedMarkup fun _ _ _ _ => rfl
  | opened name attributes stop =>
    by_cases named : Element.ofName? name = some .template
    · refine .taken _ (deeper (inner.depth + 1)) fun d text body on => ?_
      simp only [Progress.insideTemplate, Event.shift, if_pos named]
      rfl
    · simpa only [Progress.insideTemplate, Event.shift, if_neg named] using unchanged
  | closed name stop =>
    by_cases named : Element.ofName? name = some .template
    · cases level : inner.depth with
      | zero =>
        have ended := sound.onTemplateEnd mark rest wide stop
        simpa only [Progress.insideTemplate, Event.shift, if_pos named, OpenTemplate.shift, level]
          using ended
      | succ depth =>
        refine .taken _ (deeper depth) fun d text body on => ?_
        simp only [Progress.insideTemplate, Event.shift, if_pos named, OpenTemplate.shift, level]
        rfl
    · simpa only [Progress.insideTemplate, Event.shift, if_neg named] using unchanged

theorem Sound.onOpened (sound : v.Sound t before es) {s : List Char}
    (ends : (Event.opened name attributes stop).EndsIn s)
    (member : .opened name attributes stop ∈ es) :
    Uniform mark rest t before es fun d _ body =>
      (v.progress d body).onOpened name attributes (d + stop) := by
  cases named : Element.ofName? name with
  | none => simpa only [Progress.onOpened, named] using sound.unchanged
  | some element =>
    have same := name_of_ofName? named
    simp only [Progress.onOpened, named]
    cases element with
    | group =>
      have started : Event.opened "group".toList attributes stop ∈ es := same ▸ member
      exact .map (fun file => ⟨fun _ => file, none⟩) (fun file => .of_carries (.anew file started))
        fun _ _ _ => rfl
    | template =>
      have long : 3 ≤ stop := by
        have size : byteLength name = 8 := by rw [same]; rfl
        have behindName := ends.1
        omega
      refine .map (fun parts => ⟨v.put, some ⟨parts.1, parts.2, stop, 0⟩⟩)
        (fun parts => ⟨sound.carries, ?_⟩) fun _ _ _ => rfl
      rintro _ ⟨⟩
      exact long
    | aliasEntry =>
      exact .map (fun entry => ⟨_, none⟩) (fun entry => .of_carries (sound.carries.addAlias entry))
        fun _ _ _ => rfl

theorem Sound.onEmpty (sound : v.Sound t before es) :
    Uniform mark rest t before es fun d _ body => (v.progress d body).onEmpty name attributes := by
  cases named : Element.ofName? name with
  | none => simpa only [Progress.onEmpty, named] using sound.unchanged
  | some element =>
    simp only [Progress.onEmpty, named]
    cases element with
    | group => exact sound.unchanged
    | template =>
      exact .map (fun parts => ⟨_, none⟩)
        (fun parts => .of_carries (sound.carries.addTemplate ⟨parts.1, parts.2, ""⟩))
        fun _ _ _ => rfl
    | aliasEntry =>
      exact .map (fun entry => ⟨_, none⟩) (fun entry => .of_carries (sound.carries.addAlias entry))
        fun _ _ _ => rfl

theorem Sound.step (sound : v.Sound t before es) (mark : Nat) (rest : List Char) {s : List Char}
    (ends : e.EndsIn s) (member : e ∈ es) : Uniform mark rest t before es fun d text body =>
      Progress.step text (v.progress d body) (e.shift d) := by
  cases here : v.open? with
  | some inner =>
    have inside := sound.insideTemplate mark rest here e
    simpa only [Progress.step, progress, here, Option.map_some] using inside
  | none =>
    have outside (d : Nat) (body : String) : (v.progress d body).open? = none := by
      rw [progress, here]
      rfl
    simp only [Progress.step, outside]
    cases e with
    | broken => exact .refused .malformedMarkup fun _ _ _ _ => rfl
    | closed name stop => exact sound.unchanged
    | opened name attributes stop => exact sound.onOpened ends member
    | empty name attributes => exact sound.onEmpty

/-- What happens behind a place is the same with each body and each text that goes on alike. -/
theorem Sound.foldlM (sound : v.Sound t before es) {s : List Char} {later : List Event}
    (ends : ∀ e ∈ later, e.EndsIn s) (members : ∀ e ∈ later, e ∈ es) :
    Uniform mark rest t before es fun d text body =>
      (later.map (Event.shift d)).foldlM (Progress.step text) (v.progress d body) := by
  induction later generalizing v with
  | nil => exact sound.unchanged
  | cons e later ih =>
    obtain ⟨first, others⟩ := List.forall_mem_cons.1 ends
    obtain ⟨member, members⟩ := List.forall_mem_cons.1 members
    cases sound.step mark rest first member with
    | refused problem all =>
      refine .refused problem fun d text body on => ?_
      rw [List.map_cons, foldlM_step_error (all d text body on)]
    | taken v' sound' all =>
      cases ih sound' others members with
      | refused problem all' =>
        refine .refused problem fun d text body on => ?_
        rw [List.map_cons, foldlM_step (all d text body on), all' d text body on]
      | taken v'' sound'' all' =>
        refine .taken v'' sound'' fun d text body on => ?_
        rw [List.map_cons, foldlM_step (all d text body on), all' d text body on]

end

end Variants

end GroupFile
end Stencil
