import Ezilla.Xml.TemplateXml

/-!
# Restricted attributes of virtual machine templates

The configuration lists attributes that only an administrator may set. An entry
names an attribute (`RANK`) or one value of a vector attribute (`NIC/MAC`).

* `Template.check` says whether a template carries one of them;
* `Template.removeRestricted` takes them out of a template;
* `Template.removeAllExceptRestricted` keeps the attributes that carry one.

All three collect the attributes of each entry's name in one vector `values`
that is never cleared, and then look at its first `num` elements, where `num`
counts the attributes of the current name only. What an entry really looks at
is a `Lookup`; the last section says what the three functions do in these terms.
-/

namespace Ezilla

/-- An entry of the list of restricted attributes. -/
inductive RestrictedEntry where
  | plain (name : String)
  | vector (name field : String)
  deriving DecidableEq, Repr

/-- The text of an entry is split at its first slash. -/
def RestrictedEntry.read (text : String) : RestrictedEntry :=
  match text.toList.dropWhile fun c => c ≠ '/' with
  | [] => .plain text
  | _ :: field =>
    .vector (String.ofList (text.toList.takeWhile fun c => c ≠ '/')) (String.ofList field)

/-- `Template::set_restricted_attributes`. -/
def setRestrictedAttributes (rattrs : List String) : List RestrictedEntry :=
  rattrs.map fun attr => .read attr.toUpper

namespace Attribute

/-- A vector attribute with a value under the field; `dynamic_cast` skips the others. -/
def hasField (field : String) : Attribute → Bool
  | vector _ values => vectorValue values field ≠ ""
  | single _ _ => false

/-- The attribute is one that the entry restricts. -/
def carries (a : Attribute) : RestrictedEntry → Bool
  | .plain name => a.name = name
  | .vector name field => a.name = name && a.hasField field

/-- The attribute without its values under some fields. -/
def without (fields : String → Bool) : Attribute → Attribute
  | vector name values => vector name (values.filter fun v => !fields v.1)
  | single name value => single name value

/-- `VectorAttribute::remove`. -/
def removeField (field : String) : Attribute → Attribute :=
  without fun name => name = field

/-- The name that the copy of an attribute gets from the constructor of `Attribute`. -/
def cloneName (name : String) : String :=
  if name.toList.take 3 = ['X', 'M', 'L'] then "ONE_" ++ name else name

/-- `Attribute::clone`. -/
def clone : Attribute → Attribute
  | vector name values => vector (cloneName name) values
  | single name value => single (cloneName name) value

/-- Names that the constructor has made are upper case, so that it only looks at their
beginning. -/
theorem attributeName_eq_cloneName {name : String} (upper : TemplateXml.IsUpperName name) :
    TemplateXml.attributeName name = cloneName name :=
  TemplateXml.attributeName_of_isUpperName upper

theorem name_clone (a : Attribute) : a.clone.name = cloneName a.name := by
  cases a <;> rfl

/-- A copy has no name that begins with XML. -/
theorem take_cloneName (name : String) : (cloneName name).toList.take 3 ≠ ['X', 'M', 'L'] := by
  unfold cloneName
  split
  · rw [String.toList_append]
    intro same
    cases same
  · assumption

theorem cloneName_of_take {name : String} (plain : name.toList.take 3 ≠ ['X', 'M', 'L']) :
    cloneName name = name :=
  if_neg plain

theorem clone_eq_self {a : Attribute} (kept : cloneName a.name = a.name) : a.clone = a := by
  cases a with
  | vector name values => exact congrArg (vector · values) kept
  | single name value => exact congrArg (single · value) kept

end Attribute

namespace Template

/-- The loop of `Template::check` from one entry on. -/
def checkFrom (tmpl : Template) : List Attribute → List RestrictedEntry → Option RestrictedEntry
  | _, [] => none
  | values, .plain name :: entries =>
    if 0 < (tmpl.get name).length then some (.plain name)
    else checkFrom tmpl (values ++ tmpl.get name) entries
  | values, .vector name field :: entries =>
    let num := (tmpl.get name).length
    let values := values ++ tmpl.get name
    if (values.take num).any (Attribute.hasField field) then some (.vector name field)
    else checkFrom tmpl values entries

/-- `Template::check`: the restricted attribute that was found. -/
def check (tmpl : Template) (restricted : List RestrictedEntry) : Option RestrictedEntry :=
  checkFrom tmpl [] restricted

/-- `Template::merge`: copies of the attributes of the other template replace those of their
names. -/
def merge (tmpl others : Template) : Template :=
  (tmpl.filter fun a => others.all fun b => b.name ≠ a.name) ++ others.map Attribute.clone

/-! ## Templates as memory

The two functions that change a template hold pointers to its attributes. A
pointer is a place of the template, and an attribute that was erased leaves its
place empty. -/

/-- The attributes of a template by place; `none` where one was deleted. -/
abbrev Cells := Nat → Option Attribute

/-- The attributes of a template at their places. -/
def cells (tmpl : Template) : Cells :=
  fun place => tmpl[place]?

/-- `Template::get`: the places of the attributes of one name. -/
def places (size : Nat) (cells : Cells) (name : String) : List Nat :=
  (List.range size).filter fun place => (cells place).any fun a => a.name = name

/-- The loop of `remove_restricted` from one entry on; `none` where it reads an
attribute that it has deleted before. -/
def removeRestrictedFrom (size : Nat) : Cells → List Nat → List RestrictedEntry → Option Cells
  | cells, _, [] => some cells
  | cells, values, .plain name :: entries =>
    removeRestrictedFrom size (fun place => (cells place).filter fun a => a.name ≠ name) values
      entries
  | cells, values, .vector name field :: entries =>
    let num := (places size cells name).length
    let values := values ++ places size cells name
    if (values.take num).all fun place => (cells place).isSome then
      removeRestrictedFrom size
        (fun place =>
          if place ∈ values.take num then (cells place).map (Attribute.removeField field)
          else cells place)
        values entries
    else
      none

/-- `VirtualMachineTemplate::remove_restricted`. -/
def removeRestricted (tmpl : Template) (restricted : List RestrictedEntry) : Option Template :=
  (removeRestrictedFrom tmpl.length tmpl.cells [] restricted).map fun left =>
    (List.range tmpl.length).filterMap left

/-- The loop of `remove_all_except_restricted` from one entry on: the places it
pushes into `restricted`. -/
def restrictedPlaces (tmpl : Template) : List Nat → List RestrictedEntry → List Nat
  | _, [] => []
  | values, .plain name :: entries =>
    places tmpl.length tmpl.cells name ++ restrictedPlaces tmpl values entries
  | values, .vector name field :: entries =>
    let num := (places tmpl.length tmpl.cells name).length
    let values := values ++ places tmpl.length tmpl.cells name
    ((values.take num).filter fun place => (tmpl.cells place).any (Attribute.hasField field)) ++
      restrictedPlaces tmpl values entries

/-- `VirtualMachineTemplate::remove_all_except_restricted`; `none` where one
attribute is stored twice, to be deleted twice with the template. -/
def removeAllExceptRestricted (tmpl : Template) (restricted : List RestrictedEntry) :
    Option Template :=
  if (restrictedPlaces tmpl [] restricted).Nodup then
    some ((restrictedPlaces tmpl [] restricted).filterMap tmpl.cells)
  else
    none

end Template

/-! ## What an entry looks at -/

/-- One attribute that an entry of the list looks at: the field it is looked at
for, and the names that were erased before. -/
structure Lookup (α : Type) where
  place : α
  field : String
  erased : List String

section Lookups

variable {α : Type} (get : String → List α)

/-- The lookups of the loop from one entry on. Where the loop erases the plain
entries, their attributes are not found again. -/
def lookups (erases : Bool) : List String → List α → List RestrictedEntry → List (Lookup α)
  | _, _, [] => []
  | erased, values, .plain name :: entries =>
    lookups erases (if erases then erased ++ [name] else erased) values entries
  | erased, values, .vector name field :: entries =>
    let got := if name ∈ erased then [] else get name
    let values := values ++ got
    ((values.take got.length).map fun place => ⟨place, field, erased⟩) ++
      lookups erases erased values entries

end Lookups

/-- An entry looks at attributes of the names of entries for vectors. -/
theorem place_of_lookup {α : Type} {get : String → List α} {erases : Bool} {erased : List String}
    {values : List α} {restricted : List RestrictedEntry} {l : Lookup α}
    (looked : l ∈ lookups get erases erased values restricted) :
    l.place ∈ values ∨ ∃ name field, .vector name field ∈ restricted ∧ l.place ∈ get name := by
  induction restricted generalizing erased values with
  | nil => cases looked
  | cons entry entries ih =>
    cases entry with
    | plain name =>
      exact (ih looked).imp_right fun ⟨name, field, listed, here⟩ =>
        ⟨name, field, List.mem_cons_of_mem _ listed, here⟩
    | vector name field =>
      have here : l.place ∈ values ++ (if name ∈ erased then [] else get name) →
          l.place ∈ values ∨ ∃ name' field', .vector name' field' ∈
            RestrictedEntry.vector name field :: entries ∧ l.place ∈ get name' := fun either => by
        rcases List.mem_append.mp either with before | new
        · exact .inl before
        · split at new
          · cases new
          · exact .inr ⟨name, field, List.mem_cons_self, new⟩
      rcases List.mem_append.mp looked with first | later
      · obtain ⟨place, taken, rfl⟩ := List.mem_map.mp first
        exact here (List.mem_of_mem_take taken)
      · rcases ih later with before | ⟨name', field', listed, place⟩
        · exact here before
        · exact .inr ⟨name', field', List.mem_cons_of_mem _ listed, place⟩

/-- The names of the plain entries. -/
def plainNames (restricted : List RestrictedEntry) : List String :=
  restricted.filterMap fun
    | .plain name => some name
    | .vector _ _ => none

namespace Template

/-- The template carries a plain entry, or an entry looks at an attribute with
a value under the entry's field. -/
def Exposes (tmpl : Template) (restricted : List RestrictedEntry) : Prop :=
  (∃ name ∈ plainNames restricted, tmpl.get name ≠ []) ∨
    ∃ l ∈ lookups tmpl.get false [] [] restricted, l.place.hasField l.field = true

theorem checkFrom_isSome_iff (tmpl : Template) (restricted : List RestrictedEntry)
    (values : List Attribute) :
    (checkFrom tmpl values restricted).isSome = true ↔
      (∃ name ∈ plainNames restricted, tmpl.get name ≠ []) ∨
        ∃ l ∈ lookups tmpl.get false [] values restricted, l.place.hasField l.field = true := by
  induction restricted generalizing values with
  | nil => simp [checkFrom, plainNames, lookups]
  | cons entry entries ih =>
    cases entry with
    | plain name =>
      unfold checkFrom
      split
      · rename_i found
        have present : tmpl.get name ≠ [] := List.length_pos_iff.mp found
        simp [plainNames, present]
      · rename_i missed
        have absent : tmpl.get name = [] := by simpa using missed
        rw [absent, List.append_nil, ih]
        simp [plainNames, lookups, absent]
    | vector name field =>
      unfold checkFrom
      simp only []
      split
      · rename_i found
        obtain ⟨a, member, has⟩ := List.any_eq_true.mp found
        refine iff_of_true rfl (Or.inr ⟨⟨a, field, []⟩, ?_, has⟩)
        exact List.mem_append_left _ (List.mem_map_of_mem member)
      · rename_i missed
        rw [ih]
        have none : ∀ a ∈ (values ++ tmpl.get name).take (tmpl.get name).length,
            ¬ a.hasField field = true := fun a member has =>
          missed (List.any_eq_true.mpr ⟨a, member, has⟩)
        simp only [plainNames, List.filterMap_cons, lookups, List.not_mem_nil, if_false,
          List.mem_append, List.mem_map]
        constructor
        · rintro (plain | ⟨l, member, has⟩)
          · exact Or.inl plain
          · exact Or.inr ⟨l, Or.inr member, has⟩
        · rintro (plain | ⟨l, ⟨a, member, rfl⟩ | member, has⟩)
          · exact Or.inl plain
          · exact absurd has (none a member)
          · exact Or.inr ⟨l, member, has⟩

/-- `check` finds a restricted attribute exactly where an entry sees one. -/
theorem check_isSome_iff (tmpl : Template) (restricted : List RestrictedEntry) :
    (check tmpl restricted).isSome = true ↔ tmpl.Exposes restricted :=
  checkFrom_isSome_iff tmpl restricted []

/-! ## What a check finds -/

/-- The attribute passes the test of the entry, whatever its name is. -/
def passes (e : RestrictedEntry) (a : Attribute) : Bool :=
  match e with
  | .plain _ => true
  | .vector _ field => a.hasField field

/-- Each entry with the attributes that the loop tests for it. -/
def inspected (tmpl : Template) :
    List Attribute → List RestrictedEntry → List (RestrictedEntry × Attribute)
  | _, [] => []
  | values, .plain name :: entries =>
    ((tmpl.get name).map fun a => (.plain name, a)) ++
      inspected tmpl (values ++ tmpl.get name) entries
  | values, .vector name field :: entries =>
    let num := (tmpl.get name).length
    let values := values ++ tmpl.get name
    ((values.take num).map fun a => (.vector name field, a)) ++ inspected tmpl values entries

/-- An entry is tested on a restricted attribute of its own. -/
def FindsOwn (tmpl : Template) (restricted : List RestrictedEntry) : Prop :=
  ∃ p ∈ inspected tmpl [] restricted, p.2.carries p.1 = true

/-- An entry is tested on an attribute of another name that has a value under its field. -/
def FindsOther (tmpl : Template) (restricted : List RestrictedEntry) : Prop :=
  ∃ p ∈ inspected tmpl [] restricted, p.2.carries p.1 = false ∧ passes p.1 p.2 = true

/-- An entry is not tested on an attribute that it restricts. -/
def Misses (tmpl : Template) (restricted : List RestrictedEntry) : Prop :=
  ∃ e ∈ restricted, ∃ a ∈ tmpl, a.carries e = true ∧ (e, a) ∉ inspected tmpl [] restricted

theorem passes_of_carries {e : RestrictedEntry} {a : Attribute} (carried : a.carries e = true) :
    passes e a = true := by
  cases e with
  | plain name => rfl
  | vector name field =>
    rw [Attribute.carries, Bool.and_eq_true] at carried
    exact carried.2

theorem mem_get_iff {tmpl : Template} {name : String} {a : Attribute} :
    a ∈ tmpl.get name ↔ a ∈ tmpl ∧ a.name = name := by
  simp [get]

/-- Entries are tested on attributes of the template, and on those found for entries before. -/
theorem inspected_mem {tmpl : Template} {restricted : List RestrictedEntry}
    {values : List Attribute} {p : RestrictedEntry × Attribute}
    (tested : p ∈ inspected tmpl values restricted) :
    p.1 ∈ restricted ∧ (p.2 ∈ values ∨ p.2 ∈ tmpl) := by
  induction restricted generalizing values with
  | nil => cases tested
  | cons entry entries ih =>
    have later {found : List Attribute} {name : String}
        (rest : p ∈ inspected tmpl (found ++ tmpl.get name) entries) :
        p.1 ∈ entry :: entries ∧ (p.2 ∈ found ∨ p.2 ∈ tmpl) := by
      obtain ⟨listed, from_⟩ := ih rest
      refine ⟨List.mem_cons_of_mem _ listed, ?_⟩
      rcases from_ with before | whole
      · rcases List.mem_append.mp before with old | new
        · exact Or.inl old
        · exact Or.inr (mem_get_iff.mp new).1
      · exact Or.inr whole
    cases entry with
    | plain name =>
      rcases List.mem_append.mp tested with here | rest
      · obtain ⟨a, found, rfl⟩ := List.mem_map.mp here
        exact ⟨List.mem_cons_self, Or.inr (mem_get_iff.mp found).1⟩
      · exact later rest
    | vector name field =>
      rcases List.mem_append.mp tested with here | rest
      · obtain ⟨a, found, rfl⟩ := List.mem_map.mp here
        refine ⟨List.mem_cons_self, ?_⟩
        rcases List.mem_append.mp (List.mem_of_mem_take found) with old | new
        · exact Or.inl old
        · exact Or.inr (mem_get_iff.mp new).1
      · exact later rest

/-- The loop finds a restricted attribute exactly where an entry passes. -/
theorem checkFrom_isSome_iff_passes (tmpl : Template) (restricted : List RestrictedEntry)
    (values : List Attribute) :
    (checkFrom tmpl values restricted).isSome = true ↔
      ∃ p ∈ inspected tmpl values restricted, passes p.1 p.2 = true := by
  induction restricted generalizing values with
  | nil => exact iff_of_false Bool.false_ne_true fun ⟨_, impossible, _⟩ => by cases impossible
  | cons entry entries ih =>
    cases entry with
    | plain name =>
      simp only [checkFrom, inspected, List.mem_append, List.mem_map]
      split
      · rename_i found
        obtain ⟨a, member⟩ := List.exists_mem_of_length_pos found
        exact iff_of_true rfl ⟨(.plain name, a), Or.inl ⟨a, member, rfl⟩, rfl⟩
      · rename_i missed
        have absent : tmpl.get name = [] := by simpa using missed
        rw [ih]
        simp only [absent, List.not_mem_nil, false_and, exists_false, false_or]
    | vector name field =>
      simp only [checkFrom, inspected, List.mem_append, List.mem_map]
      split
      · rename_i found
        obtain ⟨a, member, has⟩ := List.any_eq_true.mp found
        exact iff_of_true rfl ⟨(.vector name field, a), Or.inl ⟨a, member, rfl⟩, has⟩
      · rename_i missed
        rw [ih]
        constructor
        · rintro ⟨p, rest, pass⟩
          exact ⟨p, Or.inr rest, pass⟩
        · rintro ⟨p, ⟨a, member, rfl⟩ | rest, pass⟩
          · exact absurd (List.any_eq_true.mpr ⟨a, member, pass⟩) missed
          · exact ⟨p, rest, pass⟩

/-- The check finds what entries find of their own name, and of other names. -/
theorem check_isSome_iff_finds {tmpl : Template} {restricted : List RestrictedEntry} :
    (check tmpl restricted).isSome = true ↔
      tmpl.FindsOwn restricted ∨ tmpl.FindsOther restricted := by
  rw [check, checkFrom_isSome_iff_passes]
  constructor
  · rintro ⟨p, tested, pass⟩
    cases own : p.2.carries p.1 with
    | true => exact Or.inl ⟨p, tested, own⟩
    | false => exact Or.inr ⟨p, tested, own, pass⟩
  · rintro (⟨p, tested, own⟩ | ⟨p, tested, -, pass⟩)
    · exact ⟨p, tested, passes_of_carries own⟩
    · exact ⟨p, tested, pass⟩

/-- A template carries what the entries are tested on, and what they miss. -/
theorem exists_carries_iff {tmpl : Template} {restricted : List RestrictedEntry} :
    (∃ e ∈ restricted, ∃ a ∈ tmpl, a.carries e = true) ↔
      tmpl.FindsOwn restricted ∨ tmpl.Misses restricted := by
  constructor
  · rintro ⟨e, listed, a, member, own⟩
    by_cases tested : (e, a) ∈ inspected tmpl [] restricted
    · exact Or.inl ⟨(e, a), tested, own⟩
    · exact Or.inr ⟨e, listed, a, member, own, tested⟩
  · rintro (⟨p, tested, own⟩ | ⟨e, listed, a, member, own, -⟩)
    · obtain ⟨listed, impossible | member⟩ := inspected_mem tested
      · cases impossible
      · exact ⟨p.1, listed, p.2, member, own⟩
    · exact ⟨e, listed, a, member, own⟩

/-- `check` answers whether the template carries a restricted attribute exactly where an
entry is tested on one of its own, or where entries miss attributes of their own just when
others pass in their place. -/
theorem check_eq_carries_iff (tmpl : Template) (restricted : List RestrictedEntry) :
    ((check tmpl restricted).isSome = true ↔
        ∃ e ∈ restricted, ∃ a ∈ tmpl, a.carries e = true) ↔
      tmpl.FindsOwn restricted ∨ (tmpl.FindsOther restricted ↔ tmpl.Misses restricted) := by
  rw [check_isSome_iff_finds, exists_carries_iff]
  by_cases own : tmpl.FindsOwn restricted
  · simp only [own, true_or]
  · simp only [own, false_or]

/-- The MAC of an interface goes unseen behind a context that is restricted too. -/
theorem check_misses_mac :
    ¬ ∀ (tmpl : Template) (rattrs : List String),
        (check tmpl (setRestrictedAttributes rattrs)).isSome = true ↔
          ∃ e ∈ setRestrictedAttributes rattrs, ∃ a ∈ tmpl, a.carries e = true := by
  intro always
  have missed : (check [.vector "CONTEXT" [("HOSTNAME", "web")],
      .vector "NIC" [("MAC", "02:00:00:00:00:01")]]
      (setRestrictedAttributes ["CONTEXT/FILES", "NIC/MAC"])).isSome = false := by
    decide +kernel
  have carried := (always [.vector "CONTEXT" [("HOSTNAME", "web")],
      .vector "NIC" [("MAC", "02:00:00:00:00:01")]] ["CONTEXT/FILES", "NIC/MAC"]).mpr
    ⟨.vector "NIC" "MAC", by decide +kernel, .vector "NIC" [("MAC", "02:00:00:00:00:01")],
      by simp, by decide +kernel⟩
  rw [missed] at carried
  cases carried

/-! ## What is left of a template -/

section Strip

variable (orig : Cells)

/-- The attributes that are left after some names were erased and some values
removed from each place. -/
def stripped (erased : List String) (fields : Nat → String → Bool) : Cells :=
  fun place =>
    ((orig place).filter fun a => a.name ∉ erased).map (Attribute.without (fields place))

/-- The attribute a lookup reads is still there. -/
def readable (l : Lookup Nat) : Bool :=
  (orig l.place).any fun a => a.name ∉ l.erased

/-- The values that the lookups remove from each place. -/
def removedFields (found : List (Lookup Nat)) (place : Nat) (field : String) : Bool :=
  found.any fun l => l.place = place && l.field = field

variable {orig} {erased : List String} {fields : Nat → String → Bool} {size : Nat}

theorem name_without (keys : String → Bool) (a : Attribute) : (a.without keys).name = a.name := by
  cases a <;> rfl

theorem without_without (keys keys' : String → Bool) (a : Attribute) :
    (a.without keys).without keys' = a.without fun key => keys key || keys' key := by
  cases a with
  | single name value => rfl
  | vector name values =>
    simp only [Attribute.without, List.filter_filter, Bool.not_or, Bool.and_comm]

theorem stripped_any (name : String) (place : Nat) :
    ((stripped orig erased fields place).any fun a => a.name = name) =
      (decide (name ∉ erased) && (orig place).any fun a => a.name = name) := by
  unfold stripped
  cases orig place with
  | none => simp
  | some a =>
    by_cases member : a.name ∈ erased
    · rw [Option.filter_some_neg (by simpa using member), Option.map_none]
      by_cases same : a.name = name
      · subst same
        simp [member]
      · simp [same]
    · rw [Option.filter_some_pos (by simpa using member), Option.map_some]
      simp only [Option.any_some, name_without]
      by_cases same : a.name = name
      · subst same
        simp [member]
      · simp [same]

/-- The attributes of an erased name are not found again, the others are. -/
theorem places_stripped (name : String) :
    places size (stripped orig erased fields) name =
      if name ∈ erased then [] else places size orig name := by
  unfold places
  simp only [stripped_any]
  split
  · rename_i member
    simp [member]
  · rename_i member
    simp [member]

theorem stripped_isSome (place : Nat) :
    (stripped orig erased fields place).isSome = (orig place).any fun a => a.name ∉ erased := by
  unfold stripped
  cases orig place with
  | none => rfl
  | some a =>
    by_cases member : a.name ∈ erased
    · rw [Option.filter_some_neg (by simpa using member)]
      simp [member]
    · rw [Option.filter_some_pos (by simpa using member)]
      simp [member]

theorem stripped_erase (name : String) :
    (fun place => (stripped orig erased fields place).filter fun a => a.name ≠ name) =
      stripped orig (erased ++ [name]) fields := by
  funext place
  unfold stripped
  cases orig place with
  | none => rfl
  | some a =>
    by_cases member : a.name ∈ erased
    · rw [Option.filter_some_neg (by simpa using member),
        Option.filter_some_neg (by simp [member])]
      rfl
    · rw [Option.filter_some_pos (by simpa using member), Option.map_some]
      by_cases same : a.name = name
      · rw [Option.filter_some_neg (by simpa [name_without] using same),
          Option.filter_some_neg (by simp [same])]
        rfl
      · rw [Option.filter_some_pos (by simpa [name_without] using same),
          Option.filter_some_pos (by simp [same, member]), Option.map_some]

theorem stripped_remove (window : List Nat) (field : String) :
    (fun place =>
        if place ∈ window then
          (stripped orig erased fields place).map (Attribute.removeField field)
        else
          stripped orig erased fields place) =
      stripped orig erased fun place name =>
        fields place name || (decide (place ∈ window) && decide (name = field)) := by
  funext place
  unfold stripped
  split
  · rename_i member
    rw [Option.map_map]
    congr 1
    funext a
    simp only [Function.comp_apply, Attribute.removeField, without_without, member, decide_true,
      Bool.true_and]
  · rename_i member
    simp only [member, decide_false, Bool.false_and, Bool.or_false]

theorem removedFields_map (window : List Nat) (field : String) (found : List (Lookup Nat))
    (place : Nat) (name : String) :
    removedFields ((window.map fun place => ⟨place, field, erased⟩) ++ found) place name =
      ((decide (place ∈ window) && decide (name = field)) || removedFields found place name) := by
  unfold removedFields
  rw [List.any_append, List.any_map]
  congr 1
  rw [Bool.eq_iff_iff]
  simp only [List.any_eq_true, Function.comp_apply, Bool.and_eq_true, decide_eq_true_eq]
  constructor
  · rintro ⟨_, member, rfl, rfl⟩
    exact ⟨member, rfl⟩
  · rintro ⟨member, rfl⟩
    exact ⟨place, member, rfl, rfl⟩

/-- The run over the entries: the plain entries are erased, and every lookup
takes a value from the attribute it finds, if that is still there. -/
theorem removeRestrictedFrom_stripped (restricted : List RestrictedEntry) (values : List Nat) :
    removeRestrictedFrom size (stripped orig erased fields) values restricted =
      if (lookups (places size orig) true erased values restricted).all (readable orig) then
        some (stripped orig (erased ++ plainNames restricted) fun place name =>
          fields place name ||
            removedFields (lookups (places size orig) true erased values restricted) place name)
      else
        none := by
  induction restricted generalizing erased fields values with
  | nil =>
    simp [removeRestrictedFrom, lookups, plainNames, removedFields]
  | cons entry entries ih =>
    cases entry with
    | plain name =>
      unfold removeRestrictedFrom
      rw [stripped_erase, ih]
      simp only [lookups, if_true, plainNames, List.filterMap_cons, List.append_assoc,
        List.singleton_append]
    | vector name field =>
      unfold removeRestrictedFrom
      simp only [places_stripped, stripped_isSome]
      rw [stripped_remove, ih]
      simp only [lookups, List.all_append, List.all_map, plainNames, List.filterMap_cons,
        removedFields_map, Bool.or_assoc]
      generalize (if name ∈ erased then [] else places size orig name) = got
      have same : (((values ++ got).take got.length).all fun place =>
            (orig place).any fun a => a.name ∉ erased) =
          (((values ++ got).take got.length).all
            (readable orig ∘ fun place => ⟨place, field, erased⟩)) := rfl
      rw [same]
      cases ((values ++ got).take got.length).all
          (readable orig ∘ fun place => ⟨place, field, erased⟩) with
      | true => rw [if_pos rfl, Bool.true_and]
      | false => rw [if_neg Bool.false_ne_true, Bool.false_and, if_neg Bool.false_ne_true]

end Strip

/-- What the entries look at while restricted attributes are removed. -/
def removals (tmpl : Template) (restricted : List RestrictedEntry) : List (Lookup Nat) :=
  lookups (places tmpl.length tmpl.cells) true [] [] restricted

/-- No entry looks at an attribute that a plain entry before it has erased. -/
def Readable (tmpl : Template) (restricted : List RestrictedEntry) : Prop :=
  ∀ l ∈ tmpl.removals restricted, ∃ a, tmpl[l.place]? = some a ∧ a.name ∉ l.erased

/-- Some attribute of the name is kept: for a plain entry, or because an entry
looks at it and finds a value under the entry's field. -/
def KeepsName (tmpl : Template) (restricted : List RestrictedEntry) (name : String) : Prop :=
  (name ∈ plainNames restricted ∧ tmpl.get name ≠ []) ∨
    ∃ l ∈ lookups (places tmpl.length tmpl.cells) false [] [] restricted,
      ∃ a, tmpl[l.place]? = some a ∧ a.name = name ∧ a.hasField l.field = true

variable {tmpl : Template} {restricted : List RestrictedEntry}

theorem cells_eq_stripped (cells : Cells) : cells = stripped cells [] fun _ _ => false := by
  funext place
  unfold stripped
  cases cells place with
  | none => rfl
  | some a =>
    rw [Option.filter_some_pos (by simp), Option.map_some]
    cases a with
    | single name value => rfl
    | vector name values => simp [Attribute.without]

theorem all_readable_iff :
    (tmpl.removals restricted).all (readable tmpl.cells) = true ↔ tmpl.Readable restricted := by
  simp only [List.all_eq_true, readable, Option.any_eq_true, decide_eq_true_eq, Readable, cells]

theorem removeRestricted_eq :
    tmpl.removeRestricted restricted =
      if (tmpl.removals restricted).all (readable tmpl.cells) then
        some ((List.range tmpl.length).filterMap
          (stripped tmpl.cells (plainNames restricted) (removedFields (tmpl.removals restricted))))
      else
        none := by
  unfold removeRestricted
  rw [cells_eq_stripped tmpl.cells, removeRestrictedFrom_stripped, ← cells_eq_stripped]
  change Option.map _ (if (tmpl.removals restricted).all (readable tmpl.cells) then _ else _) = _
  simp only [List.nil_append, Bool.false_or]
  split
  · rfl
  · rfl

theorem removeRestricted_isSome_iff :
    (tmpl.removeRestricted restricted).isSome = true ↔ tmpl.Readable restricted := by
  rw [removeRestricted_eq, ← all_readable_iff]
  split
  · rename_i all
    exact iff_of_true rfl all
  · rename_i all
    exact iff_of_false Bool.false_ne_true all

/-- What is left: the attributes of unrestricted names, each without the values
that an entry looked for there. -/
theorem mem_removeRestricted_iff {left : Template} {a : Attribute}
    (run : tmpl.removeRestricted restricted = some left) :
    a ∈ left ↔ ∃ (place : Nat) (b : Attribute), tmpl[place]? = some b ∧ b.name ∉ plainNames restricted ∧
      a = b.without (removedFields (tmpl.removals restricted) place) := by
  rw [removeRestricted_eq] at run
  split at run
  · cases run
    simp only [List.mem_filterMap, List.mem_range, stripped, cells, Option.map_eq_some_iff,
      Option.filter_eq_some_iff, decide_eq_true_eq]
    constructor
    · rintro ⟨place, -, b, ⟨found, unrestricted⟩, rfl⟩
      exact ⟨place, b, found, unrestricted, rfl⟩
    · rintro ⟨place, b, found, unrestricted, rfl⟩
      exact ⟨place, (List.getElem?_eq_some_iff.mp found).1, b, ⟨found, unrestricted⟩, rfl⟩
  · cases run

theorem vectorValue_filter (keys : String → Bool) (values : List (String × String))
    (field : String) : Attribute.vectorValue (values.filter fun v => !keys v.1) field =
      if keys field then "" else Attribute.vectorValue values field := by
  unfold Attribute.vectorValue
  induction values with
  | nil => simp
  | cons v values ih =>
    obtain ⟨key, value⟩ := v
    by_cases same : field = key
    · subst same
      cases gone : keys field with
      | true =>
        rw [List.filter_cons_of_neg (by simp [gone]), ih]
        simp [gone]
      | false =>
        rw [List.filter_cons_of_pos (by simp [gone]), List.lookup_cons_self]
        simp [List.lookup_cons_self]
    · have missed : (field == key) = false := beq_eq_false_iff_ne.mpr same
      rw [List.filter_cons]
      split
      · rw [List.lookup_cons, List.lookup_cons, missed]
        exact ih
      · rw [List.lookup_cons, missed]
        exact ih

theorem hasField_without (keys : String → Bool) (a : Attribute) (field : String) :
    (a.without keys).hasField field = (!keys field && a.hasField field) := by
  cases a with
  | single name value => simp [Attribute.without, Attribute.hasField]
  | vector name values =>
    simp only [Attribute.without, Attribute.hasField, vectorValue_filter]
    cases keys field with
    | true => simp
    | false => simp

theorem mem_places_iff {name : String} {place : Nat} :
    place ∈ places tmpl.length tmpl.cells name ↔ ∃ a, tmpl[place]? = some a ∧ a.name = name := by
  simp only [places, List.mem_filter, List.mem_range, Option.any_eq_true, decide_eq_true_eq, cells]
  constructor
  · exact fun found => found.2
  · rintro ⟨a, found, same⟩
    exact ⟨(List.getElem?_eq_some_iff.mp found).1, a, found, same⟩

theorem mem_restrictedPlaces_iff {place : Nat} (values : List Nat) :
    place ∈ restrictedPlaces tmpl values restricted ↔
      (∃ name ∈ plainNames restricted, place ∈ places tmpl.length tmpl.cells name) ∨
        ∃ l ∈ lookups (places tmpl.length tmpl.cells) false [] values restricted,
          l.place = place ∧ ((tmpl.cells place).any (Attribute.hasField l.field)) = true := by
  induction restricted generalizing values with
  | nil => simp [restrictedPlaces, plainNames, lookups]
  | cons entry entries ih =>
    cases entry with
    | plain name =>
      simp only [restrictedPlaces, List.mem_append, ih, plainNames, List.filterMap_cons, lookups,
        List.mem_cons, exists_eq_or_imp, or_assoc, Bool.false_eq_true, if_false]
    | vector name field =>
      simp only [restrictedPlaces, List.mem_append, ih, plainNames, List.filterMap_cons, lookups,
        List.not_mem_nil, if_false, List.mem_filter, List.mem_map]
      constructor
      · rintro (⟨member, has⟩ | plain | ⟨l, member, at_, has⟩)
        · exact Or.inr ⟨⟨place, field, []⟩, Or.inl ⟨place, member, rfl⟩, rfl, has⟩
        · exact Or.inl plain
        · exact Or.inr ⟨l, Or.inr member, at_, has⟩
      · rintro (plain | ⟨l, ⟨place', member, rfl⟩ | member, at_, has⟩)
        · exact Or.inr (Or.inl plain)
        · exact Or.inl ⟨at_ ▸ member, has⟩
        · exact Or.inr (Or.inr ⟨l, member, at_, has⟩)

theorem get_ne_nil_iff {name : String} : tmpl.get name ≠ [] ↔ ∃ a ∈ tmpl, a.name = name := by
  simp [get, List.filter_eq_nil_iff]

/-- The names of the attributes that are kept. -/
theorem keepsName_iff {kept : Template} {name : String}
    (run : tmpl.removeAllExceptRestricted restricted = some kept) :
    (∃ a ∈ kept, a.name = name) ↔ tmpl.KeepsName restricted name := by
  unfold removeAllExceptRestricted at run
  split at run
  · cases run
    simp only [List.mem_filterMap, mem_restrictedPlaces_iff, KeepsName, cells, get_ne_nil_iff]
    constructor
    · rintro ⟨a, ⟨place, ⟨plain, member, within⟩ | ⟨l, member, rfl, has⟩, found⟩, rfl⟩
      · obtain ⟨b, found', same⟩ := mem_places_iff.mp within
        cases found.symm.trans found'
        exact Or.inl ⟨same ▸ member, a, List.mem_of_getElem? found, rfl⟩
      · rw [found] at has
        exact Or.inr ⟨l, member, a, found, rfl, has⟩
    · rintro (⟨member, a, within, rfl⟩ | ⟨l, member, a, found, rfl, has⟩)
      · obtain ⟨place, found⟩ := List.getElem?_of_mem within
        exact ⟨a, ⟨place, Or.inl ⟨_, member, mem_places_iff.mpr ⟨a, found, rfl⟩⟩, found⟩, rfl⟩
      · exact ⟨a, ⟨l.place, Or.inr ⟨l, member, rfl, by rw [found]; exact has⟩, found⟩, rfl⟩
  · cases run

end Template

end Ezilla
