import Mathlib.Data.Finset.Card
import Stencil.Template.Cache
/-!
# What a cache gives out

A cache that is asked for a template gives what compiling the source afresh would give. It gives the
same object twice as long as nothing takes that object away in between: a removal, or another source
under the same name that compiles. Entries are kept by name only, so the invariant says what an entry
was compiled from, and a serial number that has left the cache never comes back.
-/
namespace Stencil

/-- The source can be compiled under the name. -/
def Template.Compiles (d : Delimiters) (name source : String) : Prop :=
  ∃ t, compile d name source = .ok t

/-- The calls that may change a cache. -/
inductive CacheCall where
  | get (name source : String) (d : Delimiters)
  | remove (name : String)
  | clear
  deriving DecidableEq, Repr

namespace CacheCall

/-- The call puts a template under the name. -/
def Enters (name : String) : CacheCall → Prop
  | get n source d => n = name ∧ Template.Compiles d n source
  | remove _ => False
  | clear => False

/-- The call leaves nothing under the name. -/
def Forgets (name : String) : CacheCall → Prop
  | get .. => False
  | remove n => n = name
  | clear => True

/-- The call takes away what was compiled under the name from the source. -/
def Displaces (name source : String) (d : Delimiters) : CacheCall → Prop
  | get n s e => n = name ∧ (s ≠ source ∨ e ≠ d) ∧ Template.Compiles e n s
  | remove n => n = name
  | clear => True

/-- The last call that entered a template under the name came after the last that forgot it. -/
def Kept (calls : List CacheCall) (name : String) : Prop :=
  ∃ before call behind, calls = before ++ call :: behind ∧ call.Enters name ∧
    ∀ later ∈ behind, ¬ later.Forgets name

theorem not_kept_nil (name : String) : ¬ Kept [] name := by
  rintro ⟨before, call, behind, split, -⟩
  simp at split

theorem kept_cons {call : CacheCall} {rest : List CacheCall} {name : String} :
    Kept (call :: rest) name ↔
      call.Enters name ∧ (∀ later ∈ rest, ¬ later.Forgets name) ∨ Kept rest name := by
  constructor
  · rintro ⟨before, entering, behind, split, enters, remembered⟩
    cases before with
    | nil =>
      obtain ⟨rfl, rfl⟩ := List.cons.inj split
      exact Or.inl ⟨enters, remembered⟩
    | cons first before =>
      obtain ⟨rfl, rfl⟩ := List.cons.inj split
      exact Or.inr ⟨before, entering, behind, rfl, enters, remembered⟩
  · rintro (⟨enters, remembered⟩ | ⟨before, entering, behind, rfl, enters, remembered⟩)
    · exact ⟨[], call, rest, rfl, enters, remembered⟩
    · exact ⟨call :: before, entering, behind, rfl, enters, remembered⟩

end CacheCall

namespace Table

variable {α : Type}

theorem contains_iff_mem_keys {name : String} {t : Table α} :
    t.contains name = true ↔ name ∈ t.keys := by
  induction t with
  | nil => simp [contains, find?, keys]
  | cons entry rest ih =>
    obtain ⟨n, a⟩ := entry
    simp only [contains, find?, keys, List.map_cons, List.mem_cons] at ih ⊢
    by_cases same : n = name
    · simp [same]
    · simp [same, Ne.symm same, ih]

theorem isOrdered_erase {t : Table α} (ordered : IsOrdered t) (name : String) :
    IsOrdered (erase name t) :=
  List.Pairwise.filter _ ordered

/-- A table has as many entries as names. -/
theorem length_eq_card_keys {t : Table α} (ordered : IsOrdered t) :
    t.length = t.keys.toFinset.card := by
  have apart : t.keys.Nodup := by
    refine List.Pairwise.map _ (fun a b lt => ?_) ordered
    rintro same
    exact absurd (same ▸ lt) (String.lt_irrefl _)
  rw [List.toFinset_card_of_nodup apart, keys, List.length_map]

end Table

namespace TemplateCache

variable {cache : TemplateCache} {name name' source source' : String} {d d' : Delimiters}
  {e e' : CachedTemplate} {serial : Nat}

/-- What a call makes of a cache. -/
def step (cache : TemplateCache) : CacheCall → TemplateCache
  | .get name source d => (cache.getOrCompile name source d).2
  | .remove name => cache.remove name
  | .clear => cache.clear

/-- What a sequence of calls makes of a cache. -/
def after (cache : TemplateCache) (calls : List CacheCall) : TemplateCache := calls.foldl step cache

@[simp] theorem after_nil : cache.after [] = cache := rfl

theorem after_cons (call : CacheCall) (rest : List CacheCall) :
    cache.after (call :: rest) = (cache.step call).after rest := rfl

/-! ## Entries -/

/-- Every entry is what its source compiles to, and its object is nobody else's. -/
structure Sound (cache : TemplateCache) : Prop where
  ordered : Table.IsOrdered cache.entries
  compiled {name : String} {e : CachedTemplate} :
    cache.entries.find? name = some e → Template.compile e.delimiters name e.source = .ok e.template
  issued {name : String} {e : CachedTemplate} :
    cache.entries.find? name = some e → e.serial < cache.nextSerial
  apart {name name' : String} {e e' : CachedTemplate} :
    cache.entries.find? name = some e → cache.entries.find? name' = some e' →
    e.serial = e'.serial → name = name'

theorem sound_empty : empty.Sound where
  ordered := List.Pairwise.nil
  compiled found := by cases found
  issued found := by cases found
  apart found := by cases found

theorem current?_eq_some_iff : cache.current? name source d = some e ↔
    cache.entries.find? name = some e ∧ e.source = source ∧ e.delimiters = d := by
  simp [current?, Option.filter_eq_some_iff]

/-- All that asking for a template can do: find it, fail to compile it, or enter it. -/
theorem getOrCompile_cases (sound : cache.Sound) (name source : String) (d : Delimiters) :
    (∃ e, cache.entries.find? name = some e ∧ e.source = source ∧ e.delimiters = d ∧
      Template.compile d name source = .ok e.template ∧
      cache.getOrCompile name source d = (.ok e, cache)) ∨
    (∃ err, Template.compile d name source = .error err ∧
      cache.getOrCompile name source d = (.error err, cache)) ∨
    ∃ t, Template.compile d name source = .ok t ∧
      (∀ e, cache.entries.find? name = some e → source ≠ e.source ∨ d ≠ e.delimiters) ∧
      cache.getOrCompile name source d =
        (.ok ⟨source, d, t, cache.nextSerial⟩,
          ⟨cache.entries.insert name ⟨source, d, t, cache.nextSerial⟩, cache.nextSerial + 1⟩) := by
  unfold getOrCompile
  cases hit : cache.current? name source d with
  | some e =>
    obtain ⟨found, rfl, rfl⟩ := current?_eq_some_iff.1 hit
    exact Or.inl ⟨e, found, rfl, rfl, sound.compiled found, rfl⟩
  | none =>
    right
    cases compiles : Template.compile d name source with
    | error err => exact Or.inl ⟨err, rfl, rfl⟩
    | ok t =>
      refine Or.inr ⟨t, rfl, fun e found => ?_, rfl⟩
      by_contra same
      simp only [not_or, not_not] at same
      have := current?_eq_some_iff.2 ⟨found, same.1.symm, same.2.symm⟩
      rw [hit] at this
      cases this

theorem Sound.insert (sound : cache.Sound) {t : Template}
    (compiles : Template.compile d name source = .ok t) :
    Sound ⟨cache.entries.insert name ⟨source, d, t, cache.nextSerial⟩, cache.nextSerial + 1⟩ := by
  have older {n : String} {e : CachedTemplate} (found : cache.entries.find? n = some e) :=
    sound.issued found
  constructor
  case ordered => exact Table.isOrdered_insert sound.ordered name _
  all_goals simp only [Table.find?_insert]
  case compiled =>
    intro n e found
    split at found
    · rename_i same
      cases found
      rwa [same]
    · exact sound.compiled found
  case issued =>
    intro n e found
    split at found
    · cases found
      exact Nat.lt_succ_self _
    · exact Nat.lt_succ_of_lt (older found)
  case apart =>
    intro n n' e e' found found' same
    split at found <;> split at found'
    · simp_all
    · cases found
      exact absurd same (Nat.ne_of_gt (older found'))
    · cases found'
      exact absurd same (Nat.ne_of_lt (older found))
    · exact sound.apart found found' same

theorem Sound.remove (sound : cache.Sound) (name : String) : (cache.remove name).Sound := by
  have kept {n : String} {e : CachedTemplate}
      (found : (cache.remove name).entries.find? n = some e) :
      cache.entries.find? n = some e := by
    rw [TemplateCache.remove, Table.find?_erase] at found
    split at found
    · cases found
    · exact found
  constructor
  case ordered => exact Table.isOrdered_erase sound.ordered name
  case compiled => exact fun found => sound.compiled (kept found)
  case issued => exact fun found => sound.issued (kept found)
  case apart => exact fun found found' => sound.apart (kept found) (kept found')

theorem Sound.clear : cache.clear.Sound where
  ordered := List.Pairwise.nil
  compiled found := by cases found
  issued found := by cases found
  apart found := by cases found

theorem Sound.step (sound : cache.Sound) (call : CacheCall) : (cache.step call).Sound := by
  cases call with
  | get name source d =>
    rw [TemplateCache.step]
    rcases getOrCompile_cases sound name source d with
      ⟨e, -, -, -, -, result⟩ | ⟨err, -, result⟩ | ⟨t, compiles, -, result⟩
    · rwa [result]
    · rwa [result]
    · rw [result]
      exact sound.insert compiles
  | remove name => exact sound.remove name
  | clear => exact .clear

theorem Sound.after (sound : cache.Sound) (calls : List CacheCall) : (cache.after calls).Sound := by
  induction calls generalizing cache with
  | nil => exact sound
  | cons call rest ih => exact ih (sound.step call)

/-- What is given out is what compiling gives. -/
theorem Sound.getOrCompile_eq (sound : cache.Sound) (name source : String) (d : Delimiters) :
    (cache.getOrCompile name source d).1.map CachedTemplate.template =
      Template.compile d name source := by
  rcases getOrCompile_cases sound name source d with
    ⟨e, -, -, -, compiles, result⟩ | ⟨err, compiles, result⟩ | ⟨t, compiles, -, result⟩
  all_goals
    rw [result, compiles]
    rfl

/-- What is given out is in the cache from then on, with the source that was asked for. -/
theorem Sound.find?_getOrCompile (sound : cache.Sound)
    (given : (cache.getOrCompile name source d).1 = .ok e) :
    (cache.getOrCompile name source d).2.entries.find? name = some e ∧
      e.source = source ∧ e.delimiters = d := by
  rcases getOrCompile_cases sound name source d with
    ⟨e', found, sources, delimiters, -, result⟩ | ⟨err, -, result⟩ | ⟨t, -, -, result⟩
  · rw [result] at given ⊢
    cases given
    exact ⟨found, sources, delimiters⟩
  · rw [result] at given
    cases given
  · rw [result] at given ⊢
    cases given
    exact ⟨Table.find?_insert_self name _ _, rfl, rfl⟩

/-! ## Objects -/

/-- The object was given out and is no longer in the cache. -/
structure Gone (cache : TemplateCache) (serial : Nat) : Prop where
  issued : serial < cache.nextSerial
  absent {name : String} {e : CachedTemplate} :
    cache.entries.find? name = some e → e.serial ≠ serial

/-- An object that has gone is not given out again. -/
theorem Gone.ne_serial (gone : cache.Gone serial) (sound : cache.Sound)
    (given : (cache.getOrCompile name source d).1 = .ok e) : e.serial ≠ serial := by
  rcases getOrCompile_cases sound name source d with
    ⟨e', found, -, -, -, result⟩ | ⟨err, -, result⟩ | ⟨t, -, -, result⟩
  all_goals
    rw [result] at given
    cases given
  · exact gone.absent found
  · exact Nat.ne_of_gt gone.issued

theorem Gone.step (gone : cache.Gone serial) (sound : cache.Sound) (call : CacheCall) :
    (cache.step call).Gone serial := by
  cases call with
  | get name source d =>
    rw [TemplateCache.step]
    rcases getOrCompile_cases sound name source d with
      ⟨e, -, -, -, -, result⟩ | ⟨err, -, result⟩ | ⟨t, -, -, result⟩
    · rwa [result]
    · rwa [result]
    · rw [result]
      refine ⟨Nat.lt_succ_of_lt gone.issued, fun found => ?_⟩
      rw [Table.find?_insert] at found
      split at found
      · cases found
        exact Nat.ne_of_gt gone.issued
      · exact gone.absent found
  | remove name =>
    refine ⟨gone.issued, fun found => ?_⟩
    rw [TemplateCache.step, TemplateCache.remove, Table.find?_erase] at found
    split at found
    · cases found
    · exact gone.absent found
  | clear => exact ⟨gone.issued, fun found => by cases found⟩

theorem Gone.after (gone : cache.Gone serial) (sound : cache.Sound) (calls : List CacheCall) :
    (cache.after calls).Gone serial := by
  induction calls generalizing cache with
  | nil => exact gone
  | cons call rest ih => exact ih (gone.step sound call) (sound.step call)

/-- An entry that nothing is left of under its name has gone. -/
theorem Sound.gone_of_find? {cache' : TemplateCache} (sound : cache.Sound)
    (found : cache.entries.find? name = some e) (issued : e.serial < cache'.nextSerial)
    (kept : ∀ n e', cache'.entries.find? n = some e' →
      n ≠ name ∧ cache.entries.find? n = some e' ∨ e'.serial = cache.nextSerial) :
    cache'.Gone e.serial := by
  refine ⟨issued, fun {n e'} found' same => ?_⟩
  rcases kept n e' found' with ⟨other, before⟩ | new
  · exact other (sound.apart before found same)
  · exact absurd (same.symm.trans new) (Nat.ne_of_lt (sound.issued found))

/-- A call that does not displace an entry leaves it where it is. -/
theorem Sound.find?_step (sound : cache.Sound) (found : cache.entries.find? name = some e)
    {call : CacheCall} (stays : ¬ call.Displaces name e.source e.delimiters) :
    (cache.step call).entries.find? name = some e := by
  cases call with
  | get n s d =>
    rw [TemplateCache.step]
    rcases getOrCompile_cases sound n s d with
      ⟨e', -, -, -, -, result⟩ | ⟨err, -, result⟩ | ⟨t, compiles, changed, result⟩
    · rwa [result]
    · rwa [result]
    · rw [result, Table.find?_insert_of_ne ?_, found]
      rintro rfl
      exact stays ⟨rfl, changed e found, t, compiles⟩
  | remove n =>
    have other : name ≠ n := fun same => stays same.symm
    rw [TemplateCache.step, TemplateCache.remove, Table.find?_erase, if_neg other, found]
  | clear => exact absurd trivial stays

/-- A call that displaces an entry takes its object away for good. -/
theorem Sound.gone_step (sound : cache.Sound) (found : cache.entries.find? name = some e)
    {call : CacheCall} (displaced : call.Displaces name e.source e.delimiters) :
    (cache.step call).Gone e.serial := by
  cases call with
  | get n s d =>
    obtain ⟨rfl, changed, t', compiles'⟩ := displaced
    rw [TemplateCache.step]
    rcases getOrCompile_cases sound n s d with
      ⟨e', found', sources, delimiters, -, -⟩ | ⟨err, fails, -⟩ | ⟨t, -, -, result⟩
    · obtain rfl := Option.some.inj (found.symm.trans found')
      exact absurd changed (by simp [sources, delimiters])
    · rw [compiles'] at fails
      cases fails
    · rw [result]
      refine sound.gone_of_find? found (Nat.lt_succ_of_lt (sound.issued found)) ?_
      intro n' e' found'
      rw [Table.find?_insert] at found'
      split at found'
      · cases found'
        exact Or.inr rfl
      · rename_i other
        exact Or.inl ⟨other, found'⟩
  | remove n =>
    obtain rfl : n = name := displaced
    refine sound.gone_of_find? found (sound.issued found) fun n' e' found' => ?_
    rw [TemplateCache.step, TemplateCache.remove, Table.find?_erase] at found'
    split at found'
    · cases found'
    · rename_i other
      exact Or.inl ⟨other, found'⟩
  | clear => exact sound.gone_of_find? found (sound.issued found) fun _ _ found' => by cases found'

/-- After any calls an entry is where it was, if none of them displaced it, or has gone. -/
theorem Sound.find?_after (sound : cache.Sound) (found : cache.entries.find? name = some e)
    (calls : List CacheCall) :
    (∀ call ∈ calls, ¬ call.Displaces name e.source e.delimiters) ∧
        (cache.after calls).entries.find? name = some e ∨
      ¬ (∀ call ∈ calls, ¬ call.Displaces name e.source e.delimiters) ∧
        (cache.after calls).Gone e.serial := by
  induction calls generalizing cache with
  | nil => exact Or.inl ⟨List.forall_mem_nil _, found⟩
  | cons call rest ih =>
    rw [List.forall_mem_cons, after_cons]
    by_cases displaced : call.Displaces name e.source e.delimiters
    · exact Or.inr ⟨fun stays => stays.1 displaced,
        (sound.gone_step found displaced).after (sound.step call) rest⟩
    · simpa [displaced] using ih (sound.step call) (sound.find?_step found displaced)

/-- Two templates are one object if they were asked for in the same way and the first one was still
there. -/
theorem Sound.serial_eq_iff (sound : cache.Sound) (between : List CacheCall)
    (given : (cache.getOrCompile name source d).1 = .ok e)
    (given' : (((cache.getOrCompile name source d).2.after between).getOrCompile
      name' source' d').1 = .ok e') :
    e.serial = e'.serial ↔ (name = name' ∧ source = source' ∧ d = d') ∧
      ∀ call ∈ between, ¬ call.Displaces name source d := by
  obtain ⟨found, rfl, rfl⟩ := sound.find?_getOrCompile given
  have sound' : (cache.getOrCompile name e.source e.delimiters).2.Sound :=
    sound.step (.get name e.source e.delimiters)
  have sound'' := sound'.after between
  rcases sound'.find?_after found between with ⟨stays, found'⟩ | ⟨displaced, gone⟩
  · rw [and_iff_left stays]
    rcases getOrCompile_cases sound'' name' source' d' with
      ⟨e₁, hit, rfl, rfl, -, result⟩ | ⟨err, -, result⟩ | ⟨t, -, changed, result⟩
    all_goals
      rw [result] at given'
      cases given'
    · constructor
      · intro same
        obtain rfl := sound''.apart found' hit same
        obtain rfl := Option.some.inj (found'.symm.trans hit)
        exact ⟨rfl, rfl, rfl⟩
      · rintro ⟨rfl, -, -⟩
        rw [Option.some.inj (found'.symm.trans hit)]
    · constructor
      · exact fun same => absurd same (Nat.ne_of_lt (sound''.issued found'))
      · rintro ⟨rfl, rfl, rfl⟩
        exact absurd (changed e found') (by simp)
  · exact iff_of_false (gone.ne_serial sound'' given').symm fun same => displaced same.2

/-! ## Names -/

theorem Sound.contains_step (sound : cache.Sound) (call : CacheCall) (name : String) :
    (cache.step call).entries.contains name = true ↔
      call.Enters name ∨ cache.entries.contains name = true ∧ ¬ call.Forgets name := by
  cases call with
  | get n s d =>
    rw [TemplateCache.step]
    rcases getOrCompile_cases sound n s d with
      ⟨e, found, -, -, -, result⟩ | ⟨err, fails, result⟩ | ⟨t, compiles, -, result⟩
    · have here : cache.entries.contains n = true := by simp [Table.contains, found]
      rw [result]
      simp only [CacheCall.Enters, CacheCall.Forgets, not_false_eq_true, and_true]
      exact ⟨Or.inr, fun kept => kept.elim (fun enters => enters.1 ▸ here) id⟩
    · rw [result]
      simp [CacheCall.Enters, CacheCall.Forgets, Template.Compiles, fails]
    · have compiles : Template.Compiles d n s := ⟨t, compiles⟩
      rw [result]
      simp only [Table.contains, Table.find?_insert, CacheCall.Enters, CacheCall.Forgets, compiles]
      by_cases same : name = n
      · simp [same]
      · simp [same, Ne.symm same]
  | remove n =>
    simp only [TemplateCache.step, TemplateCache.remove, Table.contains, Table.find?_erase,
      CacheCall.Enters, CacheCall.Forgets, false_or]
    by_cases same : name = n
    · simp [same]
    · simp [same, Ne.symm same]
  | clear => simp [TemplateCache.step, TemplateCache.clear, Table.contains, CacheCall.Enters,
      CacheCall.Forgets]

theorem Sound.contains_after (sound : cache.Sound) (calls : List CacheCall) (name : String) :
    (cache.after calls).entries.contains name = true ↔
      CacheCall.Kept calls name ∨
        cache.entries.contains name = true ∧ ∀ call ∈ calls, ¬ call.Forgets name := by
  induction calls generalizing cache with
  | nil => simp [CacheCall.not_kept_nil]
  | cons call rest ih =>
    rw [after_cons, ih (sound.step call), sound.contains_step, CacheCall.kept_cons,
      List.forall_mem_cons]
    tauto

end TemplateCache

/-- A cache is transparent, whatever calls it has had: it gives what compiling gives; it gives the
same object again exactly if that is asked for in the same way and has not been taken away in
between; and it has as many entries as names whose templates it still keeps. -/
theorem cached_calls_transparent (calls : List CacheCall) :
    let cache := TemplateCache.empty.after calls
    (∀ name source d, (cache.getOrCompile name source d).1.map CachedTemplate.template =
      Template.compile d name source) ∧
    (∀ name source d e between name' source' d' e',
      (cache.getOrCompile name source d).1 = .ok e →
      (((cache.getOrCompile name source d).2.after between).getOrCompile name' source' d').1 =
        .ok e' →
      (e.serial = e'.serial ↔ (name = name' ∧ source = source' ∧ d = d') ∧
        ∀ call ∈ between, ¬ call.Displaces name source d)) ∧
    ∃ names : Finset String, (∀ name, name ∈ names ↔ CacheCall.Kept calls name) ∧
      cache.size = names.card := by
  intro cache
  have sound : cache.Sound := TemplateCache.sound_empty.after calls
  refine ⟨sound.getOrCompile_eq, ?_, cache.entries.keys.toFinset, fun name => ?_, ?_⟩
  · intro name source d e between name' source' d' e' given given'
    exact sound.serial_eq_iff between given given'
  · rw [List.mem_toFinset, ← Table.contains_iff_mem_keys,
      TemplateCache.sound_empty.contains_after calls name]
    simp [TemplateCache.empty, Table.contains]
  · exact Table.length_eq_card_keys sound.ordered

/-- A source that does not compile leaves the object of its name alone, one that does takes it
away. -/
theorem failing_source_displaces_nothing :
    let first := TemplateCache.empty.getOrCompile "t" "a" .dollar
    let again := fun source =>
      (first.2.after [.get "t" source .dollar]).getOrCompile "t" "a" .dollar
    ∃ e e' e'', first.1 = .ok e ∧ (again "$x").1 = .ok e' ∧ (again "b").1 = .ok e'' ∧
      e.serial = e'.serial ∧ e.serial ≠ e''.serial := by
  intro first again
  have a : Template.compile .dollar "t" "a" = .ok (.plain "t" [.literal "a"]) := by cbv
  have b : Template.compile .dollar "t" "b" = .ok (.plain "t" [.literal "b"]) := by cbv
  have x : Template.compile .dollar "t" "$x" =
      .error (.malformed ⟨1, 1⟩ .unterminatedExpression) := by cbv
  have given : first.1 = .ok ⟨"a", .dollar, .plain "t" [.literal "a"], 0⟩ := by
    simp [first, TemplateCache.getOrCompile, TemplateCache.current?, TemplateCache.empty, a]
  have hit : (again "$x").1 = .ok ⟨"a", .dollar, .plain "t" [.literal "a"], 0⟩ := by
    simp [first, again, TemplateCache.after, TemplateCache.step, TemplateCache.getOrCompile,
      TemplateCache.current?, TemplateCache.empty, Option.filter_some, a, x]
  have miss : (again "b").1 = .ok ⟨"a", .dollar, .plain "t" [.literal "a"], 2⟩ := by
    simp [first, again, TemplateCache.after, TemplateCache.step, TemplateCache.getOrCompile,
      TemplateCache.current?, TemplateCache.empty, Option.filter_some, a, b]
  obtain ⟨-, objects, -⟩ := cached_calls_transparent []
  refine ⟨_, _, _, given, hit, miss, ?_, ?_⟩
  · refine (objects _ _ _ _ _ _ _ _ _ given hit).2 ⟨⟨rfl, rfl, rfl⟩, ?_⟩
    intro call member displaces
    obtain rfl := List.mem_singleton.1 member
    obtain ⟨-, -, t, compiles⟩ := displaces
    rw [x] at compiles
    cases compiles
  · intro same
    have stays := ((objects _ _ _ _ _ _ _ _ _ given miss).1 same).2 _ List.mem_cons_self
    exact stays ⟨rfl, Or.inl (by decide), _, b⟩

end Stencil
