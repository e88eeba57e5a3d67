import Ezilla.Sched.TemplateUpdates

/-!
# Restricted attributes under an update of the user template

A user replaces the user template of a VM. The new text loses what is restricted, the
current template loses everything else, and what is left of the two is merged by name.

* `Preserves`: what is restricted stays, and the rest is what the user sent;
* `Spares`: the templates for which the two filters look at the right attributes;
* `replaceTemplate_preserves_iff`: the first holds exactly for those.
-/

namespace Ezilla

/-- The name of the attributes that an entry is about. -/
def RestrictedEntry.name : RestrictedEntry → String
  | .plain name => name
  | .vector name _ => name

namespace Attribute

/-- The value under a field, where there is one. -/
def valueOf (field : String) : Attribute → Option String
  | vector _ values =>
    if vectorValue values field = "" then none else some (vectorValue values field)
  | single _ _ => none

/-- The names of the values of a vector attribute. -/
def fields : Attribute → List String
  | vector _ values => values.map Prod.fst
  | single _ _ => []

theorem isSome_valueOf (a : Attribute) (field : String) :
    (a.valueOf field).isSome = a.hasField field := by
  cases a with
  | single name value => rfl
  | vector name values =>
    simp only [valueOf, hasField]
    split
    · rename_i empty
      simp [empty]
    · rename_i value
      simp [value]

theorem valueOf_without (keys : String → Bool) (a : Attribute) (field : String) :
    (a.without keys).valueOf field = if keys field then none else a.valueOf field := by
  cases a with
  | single name value => exact (ite_self none).symm
  | vector name values =>
    simp only [without, valueOf, Template.vectorValue_filter]
    cases keys field with
    | true => simp
    | false => simp

/-- An attribute that has none of the values stays as it is. -/
theorem without_eq_self {keys : String → Bool} {a : Attribute}
    (none_ : ∀ field ∈ a.fields, keys field = false) : a.without keys = a := by
  cases a with
  | single name value => rfl
  | vector name values =>
    rw [without, List.filter_eq_self.mpr fun v mem => by
      rw [none_ v.1 (List.mem_map_of_mem mem), Bool.not_false]]

end Attribute

namespace Template

/-- The values of a field in the attributes of one name. -/
def fieldValues (tmpl : Template) (name field : String) : List String :=
  (tmpl.get name).filterMap (Attribute.valueOf field)

/-- The stored template has of each restricted name the attributes of the old one, of each
restricted field the values of the old one, and of the other names what the user sent. -/
structure Preserves (restricted : List RestrictedEntry) (old tmpl stored : Template) : Prop where
  plain : ∀ name ∈ plainNames restricted, (stored.get name).Perm (old.get name)
  fields : ∀ name field, .vector name field ∈ restricted →
    (stored.fieldValues name field).Perm (old.fieldValues name field)
  others : ∀ name, (∀ e ∈ restricted, e.name ≠ name) → (stored.get name).Perm (tmpl.get name)

/-- The attribute at a place is found: by its name, or because an entry looks at it and it
has a value under the field of the entry. -/
def found (old : Template) (restricted : List RestrictedEntry) (place : Nat) : Bool :=
  (old.cells place).any fun a => decide (a.name ∈ plainNames restricted) ||
    (lookups (places old.length old.cells) false [] [] restricted).any fun l =>
      l.place = place && a.hasField l.field

/-- The attributes that are found. -/
def foundOf (old : Template) (restricted : List RestrictedEntry) : Template :=
  ((List.range old.length).filter (old.found restricted)).filterMap old.cells

/-- The values of a field in the attributes of one name that no entry removes. -/
def unremoved (tmpl : Template) (restricted : List RestrictedEntry) (name field : String) :
    List String :=
  (List.range tmpl.length).filterMap fun place =>
    ((tmpl.cells place).filter fun a => a.name = name).bind fun a =>
      if removedFields (tmpl.removals restricted) place field then none else a.valueOf field

/-- The copies of the attributes that are found, under the names they get. -/
def copied (old : Template) (restricted : List RestrictedEntry) : Template :=
  (old.foundOf restricted).map Attribute.clone

/-- No attribute is read after it was erased or stored twice. No attribute that is found loses
the name of a plain entry when it is copied, or gets it, or gets a name that no entry mentions.
Of a name with a restricted field, the copies have the values of the old template, together with
the new text where nothing of the name is found: there the values that no entry looks at count. -/
structure Spares (restricted : List RestrictedEntry) (old tmpl : Template) : Prop where
  readable : tmpl.Readable restricted
  once : (restrictedPlaces old [] restricted).Nodup
  plain : ∀ a ∈ old.foundOf restricted, a.clone.name ≠ a.name →
    a.name ∉ plainNames restricted ∧ a.clone.name ∉ plainNames restricted
  fields : ∀ name field, .vector name field ∈ restricted → name ∉ plainNames restricted →
    ((if (old.foundOf restricted).get name = [] then tmpl.unremoved restricted name field else []) ++
      (old.copied restricted).fieldValues name field).Perm (old.fieldValues name field)
  others : ∀ name, (∀ e ∈ restricted, e.name ≠ name) →
    ∀ a ∈ old.foundOf restricted, a.clone.name ≠ name

/-! ## Lists of the same elements -/

section Lists

variable {ι β γ : Type}

/-- A part of a list has all its elements. -/
theorem filterMap_filter_perm_iff (f : ι → Option β) (p : ι → Bool) (l : List ι) :
    ((l.filter p).filterMap f).Perm (l.filterMap f) ↔
      ∀ i ∈ l, (f i).isSome = true → p i = true := by
  have part : ∀ l : List ι, ((l.filter p).filterMap f).length ≤ (l.filterMap f).length :=
    fun l => (List.filter_sublist.filterMap f).length_le
  constructor
  · intro same
    have equal := same.length_eq
    clear same
    induction l with
    | nil => exact fun i mem => by cases mem
    | cons j l ih =>
      have rest := part l
      intro i mem some_
      rw [List.filter_cons] at equal
      cases taken : p j with
      | true =>
        simp only [taken, if_true, List.filterMap_cons] at equal
        have equal' : ((l.filter p).filterMap f).length = (l.filterMap f).length := by
          cases value : f j with
          | none => simpa [value] using equal
          | some b => simpa [value] using equal
        rcases List.mem_cons.mp mem with here | later
        · rw [here, taken]
        · exact ih equal' i later some_
      | false =>
        simp only [taken, Bool.false_eq_true, if_false, List.filterMap_cons] at equal
        cases value : f j with
        | none =>
          rw [value] at equal
          rcases List.mem_cons.mp mem with here | later
          · rw [here, value] at some_
            cases some_
          · exact ih equal i later some_
        | some b =>
          simp only [value, List.length_cons] at equal
          omega
  · intro all
    have same : (l.filter p).filterMap f = l.filterMap f := by
      induction l with
      | nil => rfl
      | cons j l ih =>
        have rest := ih fun i mem => all i (List.mem_cons_of_mem j mem)
        cases taken : p j with
        | true =>
          rw [List.filter_cons_of_pos taken, List.filterMap_cons, List.filterMap_cons, rest]
        | false =>
          have nothing : f j = none := by
            cases value : f j with
            | none => rfl
            | some b =>
              rw [all j List.mem_cons_self (by rw [value]; rfl)] at taken
              cases taken
          rw [List.filter_cons_of_neg (by rw [taken]; exact Bool.false_ne_true), rest,
            List.filterMap_cons, nothing]
    rw [same]

end Lists

/-! ## The two filters by name -/

variable {tmpl old left : Template} {restricted : List RestrictedEntry} {name field : String}
  {place : Nat}

theorem filterMap_cells (tmpl : Template) : (List.range tmpl.length).filterMap tmpl.cells = tmpl := by
  induction tmpl with
  | nil => rfl
  | cons a tmpl ih =>
    rw [List.length_cons, List.range_succ_eq_map, List.filterMap_cons, List.filterMap_map]
    exact congrArg (a :: ·) ih

/-- The attributes of one name by place. -/
def cellsOf (tmpl : Template) (name : String) (place : Nat) : Option Attribute :=
  (tmpl.cells place).filter fun a => a.name = name

theorem filterMap_cellsOf (l : List Nat) :
    l.filterMap (tmpl.cellsOf name) = get (l.filterMap tmpl.cells) name := by
  rw [get, List.filter_filterMap]
  rfl

theorem get_eq_filterMap : tmpl.get name = (List.range tmpl.length).filterMap (tmpl.cellsOf name) := by
  rw [filterMap_cellsOf, filterMap_cells]

theorem get_merge (tmpl others : Template) : (tmpl.merge others).get name =
    (if others.get name = [] then tmpl.get name else []) ++
      get (others.map Attribute.clone) name := by
  have kept : get (tmpl.filter fun a => others.all fun b => b.name ≠ a.name) name =
      if others.get name = [] then tmpl.get name else [] := by
    rw [get, List.filter_filter]
    split
    · rename_i empty
      refine List.filter_congr fun a _ => ?_
      by_cases same : a.name = name
      · have apart : (others.all fun b => b.name ≠ a.name) = true := by
          rw [List.all_eq_true]
          intro b mem
          have other := List.filter_eq_nil_iff.mp empty b mem
          rw [same]
          simpa using other
        rw [apart, Bool.and_true]
      · simp [same]
    · rename_i some_
      rw [List.filter_eq_nil_iff]
      intro a _ both
      rw [Bool.and_eq_true, decide_eq_true_eq, List.all_eq_true] at both
      refine some_ (List.filter_eq_nil_iff.mpr fun b mem => ?_)
      have apart := both.2 b mem
      rw [both.1] at apart
      simpa using apart
  rw [merge, get, List.filter_append]
  exact congrArg (· ++ _) kept

/-- The values of a field by place. -/
def valueAt (tmpl : Template) (name field : String) (place : Nat) : Option String :=
  (tmpl.cellsOf name place).bind (Attribute.valueOf field)

theorem filterMap_valueAt (l : List Nat) :
    l.filterMap (tmpl.valueAt name field) = fieldValues (l.filterMap tmpl.cells) name field := by
  rw [fieldValues, ← filterMap_cellsOf, List.filterMap_filterMap]
  rfl

theorem fieldValues_eq_filterMap :
    tmpl.fieldValues name field = (List.range tmpl.length).filterMap (tmpl.valueAt name field) := by
  rw [filterMap_valueAt, filterMap_cells]

theorem cellsOf_eq_some {a : Attribute} :
    tmpl.cellsOf name place = some a ↔ tmpl[place]? = some a ∧ a.name = name := by
  rw [cellsOf, Option.filter_eq_some_iff, decide_eq_true_eq]
  rfl

theorem mem_range_of_cell {a : Attribute} (is : tmpl[place]? = some a) :
    place ∈ List.range tmpl.length :=
  List.mem_range.mpr (List.getElem?_eq_some_iff.mp is).1

/-! ## What is left of the new text -/

theorem get_left (run : tmpl.removeRestricted restricted = some left) :
    left.get name = if name ∈ plainNames restricted then [] else
      (List.range tmpl.length).filterMap fun place => (tmpl.cellsOf name place).map
        (Attribute.without (removedFields (tmpl.removals restricted) place)) := by
  rw [removeRestricted_eq] at run
  split at run
  · cases run
    have one (place : Nat) : (stripped tmpl.cells (plainNames restricted)
          (removedFields (tmpl.removals restricted)) place).filter (fun a => a.name = name) =
        if name ∈ plainNames restricted then none else (tmpl.cellsOf name place).map
          (Attribute.without (removedFields (tmpl.removals restricted) place)) := by
      unfold stripped cellsOf
      cases tmpl.cells place with
      | none => exact (ite_self none).symm
      | some a =>
        by_cases same : a.name = name
        · subst same
          by_cases plain : a.name ∈ plainNames restricted
          · rw [Option.filter_some_neg (by simpa using plain), if_pos plain]
            rfl
          · rw [Option.filter_some_pos (by simpa using plain), if_neg plain, Option.map_some,
              Option.filter_some_pos (by simp [name_without]), Option.filter_some_pos (by simp),
              Option.map_some]
        · have other : (some a).filter (fun a : Attribute => a.name = name) = none :=
            Option.filter_some_neg (by simpa using same)
          rw [other, Option.map_none, ite_self]
          by_cases plain : a.name ∈ plainNames restricted
          · rw [Option.filter_some_neg (by simpa using plain)]
            rfl
          · rw [Option.filter_some_pos (by simpa using plain), Option.map_some,
              Option.filter_some_neg (by simpa [name_without] using same)]
    rw [get, List.filter_filterMap]
    simp only [one]
    split
    · exact List.filterMap_eq_nil_iff.mpr fun _ _ => rfl
    · rfl
  · cases run

/-- The values of a restricted field that an entry did not look at are left. -/
theorem fieldValues_left (run : tmpl.removeRestricted restricted = some left)
    (free : name ∉ plainNames restricted) :
    left.fieldValues name field = tmpl.unremoved restricted name field := by
  rw [fieldValues, get_left run, if_neg free, List.filterMap_filterMap, unremoved]
  refine List.filterMap_congr fun place _ => ?_
  unfold cellsOf
  cases (tmpl.cells place).filter fun a => a.name = name with
  | none => rfl
  | some a => exact Attribute.valueOf_without _ a field

/-- The attributes of a name that no entry mentions are left as they are. -/
theorem get_left_unnamed (run : tmpl.removeRestricted restricted = some left)
    (unnamed : ∀ e ∈ restricted, e.name ≠ name) (free : name ∉ plainNames restricted) :
    left.get name = tmpl.get name := by
  rw [get_left run, if_neg free, get_eq_filterMap]
  refine List.filterMap_congr fun place _ => ?_
  cases is : tmpl.cellsOf name place with
  | none => rfl
  | some a =>
    obtain ⟨here, named⟩ := cellsOf_eq_some.mp is
    refine congrArg some (Attribute.without_eq_self fun key _ => ?_)
    by_contra gone
    rw [Bool.not_eq_false] at gone
    obtain ⟨l, looked, there⟩ := List.any_eq_true.mp gone
    rw [Bool.and_eq_true, decide_eq_true_eq] at there
    rcases place_of_lookup looked with before | ⟨vector, field, listed, inside⟩
    · cases before
    · obtain ⟨b, there', other⟩ := mem_places_iff.mp inside
      rw [there.1, here] at there'
      cases there'
      exact unnamed _ listed (other.symm.trans named)

/-! ## What is kept of the old template -/

theorem found_iff : old.found restricted place = true ↔ ∃ a, old[place]? = some a ∧
    (a.name ∈ plainNames restricted ∨
      ∃ l ∈ lookups (places old.length old.cells) false [] [] restricted,
        l.place = place ∧ a.hasField l.field = true) := by
  simp only [found, Option.any_eq_true, Bool.or_eq_true, decide_eq_true_eq, List.any_eq_true,
    Bool.and_eq_true, cells]

theorem mem_restrictedPlaces_iff_found :
    place ∈ restrictedPlaces old [] restricted ↔ old.found restricted place = true := by
  rw [mem_restrictedPlaces_iff, found_iff]
  constructor
  · rintro (⟨name, plain, at_⟩ | ⟨l, looked, here, has⟩)
    · obtain ⟨a, is, rfl⟩ := mem_places_iff.mp at_
      exact ⟨a, is, Or.inl plain⟩
    · obtain ⟨a, is, has⟩ := (Option.any_eq_true ..).mp has
      exact ⟨a, is, Or.inr ⟨l, looked, here, has⟩⟩
  · rintro ⟨a, is, plain | ⟨l, looked, here, has⟩⟩
    · exact Or.inl ⟨a.name, plain, mem_places_iff.mpr ⟨a, is, rfl⟩⟩
    · exact Or.inr ⟨l, looked, here, (Option.any_eq_true ..).mpr ⟨a, is, has⟩⟩

/-- Attributes that are found once are kept, in another order. -/
theorem removeAllExceptRestricted_perm (once : (restrictedPlaces old [] restricted).Nodup) :
    ∃ kept, old.removeAllExceptRestricted restricted = some kept ∧
      kept.Perm (old.foundOf restricted) := by
  refine ⟨_, if_pos once, List.Perm.filterMap _ ?_⟩
  rw [List.perm_ext_iff_of_nodup once (List.nodup_range.filter _)]
  intro place
  rw [mem_restrictedPlaces_iff_found, List.mem_filter]
  refine ⟨fun is => ⟨?_, is⟩, fun both => both.2⟩
  obtain ⟨a, here, -⟩ := found_iff.mp is
  exact mem_range_of_cell here

theorem get_foundOf_plain (plain : name ∈ plainNames restricted) :
    ((old.foundOf restricted).get name).Perm (old.get name) := by
  rw [foundOf, ← filterMap_cellsOf, get_eq_filterMap, filterMap_filter_perm_iff]
  intro place _ some_
  obtain ⟨a, is⟩ := Option.isSome_iff_exists.mp some_
  obtain ⟨here, rfl⟩ := cellsOf_eq_some.mp is
  exact found_iff.mpr ⟨a, here, Or.inl plain⟩

theorem fieldValues_foundOf_perm_iff :
    ((old.foundOf restricted).fieldValues name field).Perm (old.fieldValues name field) ↔
      ∀ place a, old[place]? = some a → a.name = name → a.hasField field = true →
        old.found restricted place = true := by
  rw [foundOf, ← filterMap_valueAt, fieldValues_eq_filterMap, filterMap_filter_perm_iff]
  have value {place : Nat} {a : Attribute} (is : old.cellsOf name place = some a) :
      (old.valueAt name field place).isSome = a.hasField field := by
    rw [valueAt, is]
    exact a.isSome_valueOf field
  constructor
  · intro all place a here named has
    refine all place (mem_range_of_cell here) ?_
    rw [value (cellsOf_eq_some.mpr ⟨here, named⟩), has]
  · intro all place _ some_
    cases is : old.cellsOf name place with
    | none =>
      rw [valueAt, is] at some_
      cases some_
    | some a =>
      obtain ⟨here, named⟩ := cellsOf_eq_some.mp is
      exact all place a here named (value is ▸ some_)

theorem mem_plainNames_iff : name ∈ plainNames restricted ↔ .plain name ∈ restricted := by
  rw [plainNames, List.mem_filterMap]
  constructor
  · rintro ⟨e, listed, is⟩
    cases e with
    | plain name' =>
      cases is
      exact listed
    | vector name' field => cases is
  · exact fun listed => ⟨.plain name, listed, rfl⟩

/-- An attribute that is found has the name of a plain entry, or of an entry for a vector. -/
theorem name_of_foundOf {a : Attribute} (is : a ∈ old.foundOf restricted) :
    ∃ e ∈ restricted, e.name = a.name := by
  obtain ⟨place, mem, here⟩ := List.mem_filterMap.mp is
  obtain ⟨b, there, either⟩ := found_iff.mp (List.mem_filter.mp mem).2
  have same : b = a := Option.some.inj (there.symm.trans here)
  subst same
  rcases either with plain | ⟨l, looked, at_, -⟩
  · exact ⟨.plain b.name, mem_plainNames_iff.mp plain, rfl⟩
  · rcases place_of_lookup looked with before | ⟨vector, field, listed, inside⟩
    · cases before
    · obtain ⟨c, here', named⟩ := mem_places_iff.mp inside
      rw [at_, there] at here'
      cases here'
      exact ⟨.vector vector field, listed, named.symm⟩

/-- The copies have the name of a plain entry as often as the attributes do, where no name is
lost or got. -/
theorem get_copied_plain_iff :
    (∀ name ∈ plainNames restricted, ((old.copied restricted).get name).Perm (old.get name)) ↔
      ∀ a ∈ old.foundOf restricted, a.clone.name ≠ a.name →
        a.name ∉ plainNames restricted ∧ a.clone.name ∉ plainNames restricted := by
  constructor
  · intro same a is renamed
    rw [Attribute.name_clone] at renamed
    have marked : a.name.toList.take 3 = ['X', 'M', 'L'] := by
      by_contra plain
      exact renamed (Attribute.cloneName_of_take plain)
    constructor
    · -- no copy bears a name that begins with XML
      intro plain
      have none_ : (old.copied restricted).get a.name = [] := by
        refine List.filter_eq_nil_iff.mpr fun c mem named => ?_
        obtain ⟨b, -, rfl⟩ := List.mem_map.mp mem
        rw [decide_eq_true_eq, Attribute.name_clone] at named
        exact Attribute.take_cloneName b.name (named ▸ marked)
      have whole := (get_foundOf_plain plain).trans (same _ plain).symm
      rw [none_] at whole
      exact List.not_mem_nil (whole.eq_nil ▸ mem_get_iff.mpr ⟨is, rfl⟩)
    · -- the name is that of its own attributes already, and one more bears it
      intro plain
      have whole := ((same _ plain).trans (get_foundOf_plain plain).symm).length_eq
      rw [copied, get, get, List.filter_map, List.length_map] at whole
      have own : (old.foundOf restricted).filter (fun b => b.name = a.clone.name) =
          ((old.foundOf restricted).filter fun b => b.clone.name = a.clone.name).filter
            fun b => b.name = a.clone.name := by
        rw [List.filter_filter]
        refine List.filter_congr fun b _ => ?_
        by_cases named : b.name = a.clone.name
        · have stays : b.clone.name = a.clone.name := by
            rw [Attribute.name_clone, named, Attribute.name_clone]
            exact Attribute.cloneName_of_take (Attribute.take_cloneName a.name)
          simp [named, stays]
        · simp [named]
      have other : ¬ decide (a.name = a.clone.name) = true := by
        rw [decide_eq_true_eq, Attribute.name_clone]
        exact Ne.symm renamed
      have fewer : (((old.foundOf restricted).filter fun b => b.clone.name = a.clone.name).filter
          fun b => b.name = a.clone.name).length <
          ((old.foundOf restricted).filter fun b => b.clone.name = a.clone.name).length :=
        List.length_filter_lt_length_iff_exists.mpr
          ⟨a, List.mem_filter.mpr ⟨is, decide_eq_true rfl⟩, other⟩
      rw [← own] at fewer
      exact absurd whole fewer.ne'
  · intro kept name plain
    have copies : (old.copied restricted).get name = (old.foundOf restricted).get name := by
      rw [copied, get, get, List.filter_map]
      have same : (old.foundOf restricted).filter ((fun a => decide (a.name = name)) ∘ Attribute.clone)
          = (old.foundOf restricted).filter fun a => decide (a.name = name) := by
        refine List.filter_congr fun a is => decide_eq_decide.mpr ?_
        by_cases renamed : a.clone.name = a.name
        · rw [renamed]
        · obtain ⟨lost, got⟩ := kept a is renamed
          exact iff_of_false (fun here => got (here ▸ plain)) fun here => lost (here ▸ plain)
      rw [same]
      refine (List.map_congr_left fun a mem => ?_).trans (List.map_id _)
      obtain ⟨is, named⟩ := mem_get_iff.mp mem
      refine Attribute.clone_eq_self ?_
      by_contra renamed
      rw [← Attribute.name_clone] at renamed
      exact (kept a is renamed).1 (named ▸ plain)
    rw [copies]
    exact get_foundOf_plain plain

/-- Where no name changes in the copies, they have all values of a restricted field when the
attributes found have. -/
theorem fieldValues_copied_perm_iff
    (named : ∀ a ∈ old.foundOf restricted, a.clone.name = a.name) :
    ((old.copied restricted).fieldValues name field).Perm (old.fieldValues name field) ↔
      ∀ place a, old[place]? = some a → a.name = name → a.hasField field = true →
        old.found restricted place = true := by
  have same : old.copied restricted = old.foundOf restricted := by
    refine (List.map_congr_left fun a is => ?_).trans (List.map_id _)
    exact Attribute.clone_eq_self (Attribute.name_clone a ▸ named a is)
  rw [same]
  exact fieldValues_foundOf_perm_iff

/-! ## The update -/

section Merge

variable {kept : Template} (strip : tmpl.removeRestricted restricted = some left)
  (perm : kept.Perm (old.foundOf restricted))

include perm

/-- A name is taken from the copies, and from the new text where nothing of it was found. -/
theorem get_stored (name : String) : ((left.merge kept).get name).Perm
    ((if (old.foundOf restricted).get name = [] then left.get name else []) ++
      (old.copied restricted).get name) := by
  have same : (kept.get name).Perm ((old.foundOf restricted).get name) := perm.filter _
  have copies : (get (kept.map Attribute.clone) name).Perm ((old.copied restricted).get name) :=
    (perm.map _).filter _
  have none_ : kept.get name = [] ↔ (old.foundOf restricted).get name = [] :=
    ⟨fun empty => (empty ▸ same).nil_eq.symm, fun empty => (empty ▸ same).eq_nil⟩
  rw [get_merge]
  simp only [none_]
  exact copies.append_left _

include strip

theorem get_stored_plain (plain : name ∈ plainNames restricted) :
    ((left.merge kept).get name).Perm ((old.copied restricted).get name) := by
  have stored : ((left.merge kept).get name).Perm _ := get_stored perm name
  rw [get_left strip, if_pos plain, ite_self, List.nil_append] at stored
  exact stored

theorem fieldValues_stored (free : name ∉ plainNames restricted) :
    ((left.merge kept).fieldValues name field).Perm
      ((if (old.foundOf restricted).get name = [] then tmpl.unremoved restricted name field else []) ++
        (old.copied restricted).fieldValues name field) := by
  have stored : ((left.merge kept).fieldValues name field).Perm _ :=
    (get_stored perm name).filterMap (Attribute.valueOf field)
  rw [List.filterMap_append] at stored
  rw [← fieldValues_left strip free]
  split at stored
  · rename_i empty
    rw [if_pos empty]
    exact stored
  · rename_i some_
    rw [if_neg some_]
    exact stored

theorem get_stored_unnamed_iff (unnamed : ∀ e ∈ restricted, e.name ≠ name) :
    ((left.merge kept).get name).Perm (tmpl.get name) ↔
      ∀ a ∈ old.foundOf restricted, a.clone.name ≠ name := by
  have free : name ∉ plainNames restricted := fun plain =>
    unnamed _ (mem_plainNames_iff.mp plain) rfl
  have nothing : (old.foundOf restricted).get name = [] := by
    refine List.filter_eq_nil_iff.mpr fun a is named => ?_
    obtain ⟨e, listed, same⟩ := name_of_foundOf is
    exact unnamed e listed (same.trans (of_decide_eq_true named))
  have stored : ((left.merge kept).get name).Perm _ := get_stored perm name
  rw [if_pos nothing, get_left_unnamed strip unnamed free] at stored
  rw [stored.congr_left]
  constructor
  · intro same a is named
    have empty := same.length_eq
    rw [List.length_append, Nat.add_eq_left, List.length_eq_zero_iff] at empty
    have copy : a.clone ∈ (old.copied restricted).get name :=
      mem_get_iff.mpr ⟨List.mem_map_of_mem is, named⟩
    rw [empty] at copy
    cases copy
  · intro apart
    have empty : (old.copied restricted).get name = [] := by
      refine List.filter_eq_nil_iff.mpr fun c mem named => ?_
      obtain ⟨a, is, rfl⟩ := List.mem_map.mp mem
      exact apart a is (of_decide_eq_true named)
    rw [empty, List.append_nil]

end Merge

/-- An update of a user keeps what is restricted, and takes the rest from the user, exactly
for the templates that it spares. -/
theorem replaceTemplate_preserves_iff (restricted : List RestrictedEntry) (old tmpl : Template) :
    (∃ stored, old.replaceTemplate tmpl true restricted = some stored ∧
      Preserves restricted old tmpl stored) ↔ Spares restricted old tmpl := by
  constructor
  · rintro ⟨stored, run, preserves⟩
    simp only [replaceTemplate, if_true] at run
    obtain ⟨left, strip, run⟩ := Option.bind_eq_some_iff.mp run
    obtain ⟨kept, keep, run⟩ := Option.bind_eq_some_iff.mp run
    cases run
    have readable : tmpl.Readable restricted :=
      removeRestricted_isSome_iff.mp (by rw [strip]; rfl)
    have once : (restrictedPlaces old [] restricted).Nodup := by
      by_contra twice
      rw [removeAllExceptRestricted, if_neg twice] at keep
      cases keep
    obtain ⟨kept', keep', perm⟩ := removeAllExceptRestricted_perm once
    rw [keep] at keep'
    cases keep'
    exact ⟨readable, once,
      get_copied_plain_iff.mp fun name plain =>
        (get_stored_plain strip perm plain).symm.trans (preserves.plain name plain),
      fun name field listed free => (fieldValues_stored strip perm free).symm.trans
        (preserves.fields name field listed),
      fun name unnamed => (get_stored_unnamed_iff strip perm unnamed).mp
        (preserves.others name unnamed)⟩
  · intro spares
    obtain ⟨left, strip⟩ := Option.isSome_iff_exists.mp
      (removeRestricted_isSome_iff.mpr spares.readable)
    obtain ⟨kept, keep, perm⟩ := removeAllExceptRestricted_perm spares.once
    have plains {name : String} (plain : name ∈ plainNames restricted) :
        ((left.merge kept).get name).Perm (old.get name) :=
      (get_stored_plain strip perm plain).trans (get_copied_plain_iff.mpr spares.plain name plain)
    refine ⟨left.merge kept, ?_, fun name plain => plains plain,
      fun name field listed => ?_, fun name unnamed => ?_⟩
    · simp only [replaceTemplate, if_true, strip, keep]
      rfl
    · by_cases plain : name ∈ plainNames restricted
      · exact (plains plain).filterMap _
      · exact (fieldValues_stored strip perm plain).trans (spares.fields name field listed plain)
    · exact (get_stored_unnamed_iff strip perm unnamed).mpr (spares.others name unnamed)

/-- An interface with a MAC and a VLAN is found for both entries and stored twice. -/
theorem replaceTemplate_frees_twice :
    ¬ ∀ (rattrs : List String) (old tmpl : Template), ∃ stored,
      old.replaceTemplate tmpl true (setRestrictedAttributes rattrs) = some stored ∧
        Preserves (setRestrictedAttributes rattrs) old tmpl stored := by
  intro always
  obtain ⟨stored, run, -⟩ := always ["CONTEXT/FILES", "NIC/MAC", "NIC/VLAN_ID"]
    [.vector "NIC" [("MAC", "02:00:00:00:00:01"), ("VLAN_ID", "7")]] [.single "LABEL" "web"]
  have twice : replaceTemplate [.vector "NIC" [("MAC", "02:00:00:00:00:01"), ("VLAN_ID", "7")]]
      [.single "LABEL" "web"] true
      (setRestrictedAttributes ["CONTEXT/FILES", "NIC/MAC", "NIC/VLAN_ID"]) = none := by
    decide +kernel
  rw [twice] at run
  cases run

end Template

end Ezilla
