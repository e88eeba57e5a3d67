import Mathlib.Data.List.Sort
import Mathlib.Algebra.BigOperators.Group.Multiset.Basic
import Mathlib.Algebra.Order.BigOperators.Group.Multiset
import Ezilla.Template
import Ezilla.Lib.XmlPieces

/-!
# Templates as XML

A template is built from a text by the actions of its grammar, written as XML for the database
and for the other programs, and built again from the XML. The names of attributes pass through
the constructor of `Attribute` both times; values are written into CDATA sections as they are.

* `Statement.attribute`, `parse`: the templates that a text can give;
* `toXml`, `fromXml`: writing and reading;
* `RoundTrips`, `Kept`: what comes back, and what names and values have to be like for it;
* `wellNamed_parse`: the names in a template that comes from a text;
* `document_toXml`: the tree of a template whose values stay in their sections.
-/

namespace Ezilla

namespace TemplateXml

open Xml Xml.Scanner

/-! ## Templates from a text -/

/-- `Attribute::Attribute`: the name that an attribute gets. -/
def attributeName (aname : String) : String :=
  let name := aname.toUpper
  if (aname.toList.head?.any fun c => !c.isAlpha) || aname.toList.take 3 = ['X', 'M', 'L'] then
    "ONE_" ++ name
  else
    name

/-- VARIABLE: letters, digits and underscores. -/
structure Variable where
  text : String
  nonempty : text.toList ≠ []
  word : ∀ c ∈ text.toList, c.isAlphanum = true ∨ c = '_'

/-- STRING: any text that is not empty. -/
structure Value where
  text : String
  nonempty : text.toList ≠ []

/-- One quote loses the backslash before it. -/
def unescapeFirst : List Char → List Char
  | '\\' :: '"' :: s => '"' :: s
  | c :: s => c :: unescapeFirst s
  | [] => []

/-- `unescape`: as often as there is such a quote. -/
def unescape (str : String) : String :=
  String.ofList (unescapeFirst^[str.toList.length] str.toList)

/-- What the grammar of a template text consists of. -/
inductive Statement where
  | single (name : Variable) (value : Value)
  | empty (name : Variable)
  | vector (name : Variable) (first : Variable × Value) (rest : List (Variable × Value))

/-- `map::insert`, which keeps the value that a name has. -/
def insertValue (values : List (String × String)) (v : Variable × Value) :
    List (String × String) :=
  let name := v.1.text.toUpper
  if name ∈ values.map Prod.fst then values else values ++ [(name, unescape v.2.text)]

def Statement.attribute : Statement → Attribute
  | .single name value => .single (attributeName name.text) (unescape value.text)
  | .empty name => .single (attributeName name.text) ""
  | .vector name first rest =>
    .vector (attributeName name.text) (rest.foldl insertValue (insertValue [] first))

/-- `Template::set`: in replace mode the attributes of that name are erased. -/
def set (replaceMode : Bool) (tmpl : Template) (attr : Attribute) : Template :=
  if replaceMode then (tmpl.filter fun a => a.name ≠ attr.name) ++ [attr] else tmpl ++ [attr]

/-- The template that attributes make when they are set one after another. -/
def setAll (replaceMode : Bool) (attrs : List Attribute) : Template :=
  attrs.foldl (set replaceMode) []

/-- `Template::parse`. -/
def parse (replaceMode : Bool) (statements : List Statement) : Template :=
  setAll replaceMode (statements.map Statement.attribute)

/-! ## Writing -/

/-- One value in `VectorAttribute::to_xml`. -/
def valueToXml (v : String × String) : List Piece :=
  if v.1 = "" then []
  else if v.2 = "" then [.emptyTag v.1.toList]
  else [.openTag v.1.toList, .cdata v.2.toList, .closeTag v.1.toList]

/-- `SingleAttribute::to_xml` and `VectorAttribute::to_xml`; a map goes through its values in
the order of their names. -/
def attributeToXml : Attribute → List Piece
  | .single name value => [.openTag name.toList, .cdata value.toList, .closeTag name.toList]
  | .vector name values =>
    .openTag name.toList ::
      ((values.insertionSort fun v v' => v.1 ≤ v'.1).flatMap valueToXml ++
        [.closeTag name.toList])

/-- `Template::to_xml`: the attributes in the order of their names. -/
def toXml (xmlRoot : String) (tmpl : Template) : List Piece :=
  .openTag xmlRoot.toList ::
    ((tmpl.insertionSort fun a a' => a.name ≤ a'.name).flatMap attributeToXml ++
      [.closeTag xmlRoot.toList])

/-! ## Reading -/

/-- `Template::single_xml_att`. -/
def singleXmlAtt : Node → Option Attribute
  | .element name [.text content] | .element name [.cdata content] =>
    some (.single (attributeName (String.ofList name)) (String.ofList content))
  | _ => none

/-- A child in the loop of `vector_xml_att`: its first child is looked at. -/
def replaceValue (values : List (String × String)) : Node → List (String × String)
  | .element name (.text content :: _) | .element name (.cdata content :: _) =>
    Attribute.replace values (String.ofList name) (String.ofList content)
  | _ => values

def isElement : Node → Bool
  | .element _ _ => true
  | _ => false

/-- `Template::vector_xml_att`: from the first element on. -/
def vectorXmlAtt : Node → Option Attribute
  | .element name children =>
    match children.dropWhile fun child => !isElement child with
    | [] => none
    | elements => some (.vector (attributeName (String.ofList name)) (elements.foldl replaceValue []))
  | _ => none

/-- `Template::rebuild_attributes`. -/
def rebuildAttributes (replaceMode : Bool) : Node → Template
  | .element _ children =>
    setAll replaceMode (children.filterMap fun node => (singleXmlAtt node).or (vectorXmlAtt node))
  | _ => []

/-- `Template::from_xml`, with what libxml2 makes of a text. -/
def fromXml (xmlParseMemory : List Char → Option Node) (replaceMode : Bool)
    (xmlStr : List Char) : Option Template :=
  (xmlParseMemory xmlStr).map (rebuildAttributes replaceMode)

/-- What is assumed of libxml2: it reads XML as the standard says, here documents that begin
with the start tag of their root. -/
def Standard (xmlParseMemory : List Char → Option Node) : Prop :=
  ∀ name rest, IsName name →
    xmlParseMemory ('<' :: (name ++ rest)) = document ('<' :: (name ++ rest))

/-! ## What comes back -/

/-- An attribute as its users see it: a vector attribute is the set of its values that are not
empty. -/
def essence : Attribute → String × (String ⊕ Multiset (String × String))
  | .single name value => (name, .inl value)
  | .vector name values => (name, .inr (values.filter fun v => v.2 ≠ "" : List (String × String)))

/-- The template that is written can be read, and has the attributes it had. -/
def RoundTrips (xmlParseMemory : List Char → Option Node) (replaceMode : Bool)
    (xmlRoot : String) (tmpl : Template) : Prop :=
  ∃ tmpl', fromXml xmlParseMemory replaceMode ((toXml xmlRoot tmpl).flatMap Piece.text) = some tmpl' ∧
    (tmpl'.map essence).Perm (tmpl.map essence)

/-- A value of characters that XML allows, without a return and without the end of a section. -/
def Plain (value : String) : Prop :=
  (∀ c ∈ value.toList, isChar c = true ∧ c ≠ '\r') ∧ ¬ [']', ']', '>'] <:+: value.toList

/-- The names and values that are read as they were written. -/
def Kept : Attribute → Prop
  | .single name value => name.toList.take 3 ≠ ['X', 'M', 'L'] ∧ Plain value
  | .vector name values =>
    name.toList.take 3 ≠ ['X', 'M', 'L'] ∧
      ∀ v ∈ values, (v.1.toList.head?.all fun c => !c.isDigit) = true ∧ Plain v.2

/-! ## Names -/

/-- Upper case letters, digits and underscores. -/
def isUpperWord (c : Char) : Bool :=
  c.isUpper || c.isDigit || c = '_'

theorem isUpper_iff_toNat {c : Char} : c.isUpper = true ↔ 65 ≤ c.toNat ∧ c.toNat ≤ 90 := by
  exact decide_eq_true_iff.trans (and_congr UInt32.le_iff_toNat_le UInt32.le_iff_toNat_le)

theorem isLower_iff_toNat {c : Char} : c.isLower = true ↔ 97 ≤ c.toNat ∧ c.toNat ≤ 122 := by
  refine Bool.and_eq_true_iff.trans (and_congr ?_ ?_)
  · exact decide_eq_true_iff.trans UInt32.le_iff_toNat_le
  · exact decide_eq_true_iff.trans UInt32.le_iff_toNat_le

theorem toUpper_of_not_isLower {c : Char} (upper : c.isLower = false) : c.toUpper = c := by
  refine dif_neg fun lower => ?_
  have is : c.isLower = true := isLower_iff_toNat.mpr lower
  rw [upper] at is
  cases is

theorem isUpper_toUpper {c : Char} (lower : c.isLower = true) : c.toUpper.isUpper = true := by
  have bounds := isLower_iff_toNat.mp lower
  have up : c.toUpper.toNat = c.toNat - 32 := by
    have value : c.toUpper.val = c.val + ('A'.val - 'a'.val) := by
      have range : 'a'.val ≤ c.val ∧ c.val ≤ 'z'.val := bounds
      unfold Char.toUpper
      rw [dif_pos range]
    have shift : ('A'.val - 'a'.val).toNat = 2 ^ 32 - 32 := by decide
    have sum : c.toUpper.val.toNat = (c.val.toNat + (2 ^ 32 - 32)) % 2 ^ 32 := by
      rw [value, UInt32.toNat_add, shift]
    have here : c.val.toNat = c.toNat := rfl
    have there : c.toUpper.val.toNat = c.toUpper.toNat := rfl
    omega
  rw [isUpper_iff_toNat, up]
  omega

theorem isUpperWord_toUpper {c : Char} (word : c.isAlphanum = true ∨ c = '_') :
    isUpperWord c.toUpper = true := by
  cases lower : c.isLower with
  | true =>
    unfold isUpperWord
    rw [isUpper_toUpper lower]
    rfl
  | false =>
    rw [toUpper_of_not_isLower lower]
    unfold isUpperWord
    rcases word with alphanum | rfl
    · have letters : (c.isUpper || c.isLower || c.isDigit) = true := alphanum
      rw [lower, Bool.or_false] at letters
      rw [letters]
      rfl
    · decide

theorem toUpper_of_isUpperWord {c : Char} (word : isUpperWord c = true) : c.toUpper = c := by
  refine toUpper_of_not_isLower ?_
  by_contra lower
  have bounds := isLower_iff_toNat.mp (Bool.eq_true_of_not_eq_false lower)
  unfold isUpperWord at word
  simp only [Bool.or_eq_true, decide_eq_true_eq] at word
  rcases word with (upper | digit) | rfl
  · have := isUpper_iff_toNat.mp upper
    omega
  · have := Char.isDigit_iff_toNat.mp digit
    have nine : '9'.toNat = 57 := rfl
    omega
  · exact lower (by decide)

/-- A name that attributes are stored under. -/
def IsUpperName (name : String) : Prop :=
  ∃ c s, name.toList = c :: s ∧ c.isUpper = true ∧ ∀ d ∈ s, isUpperWord d = true

theorem toUpper_toList (s : String) : s.toUpper.toList = s.toList.map Char.toUpper :=
  String.toList_map

/-- The constructor of `Attribute` gives such names. -/
theorem isUpperName_attributeName (name : Variable) : IsUpperName (attributeName name.text) := by
  obtain ⟨text, nonempty, word⟩ := name
  have upper : ∀ d ∈ text.toUpper.toList, isUpperWord d = true := by
    intro d member
    rw [toUpper_toList] at member
    obtain ⟨c, within, rfl⟩ := List.mem_map.mp member
    exact isUpperWord_toUpper (word c within)
  unfold attributeName
  dsimp only
  split
  · refine ⟨'O', ['N', 'E', '_'] ++ text.toUpper.toList, ?_, by decide, fun d member => ?_⟩
    · rw [String.toList_append]
      rfl
    · rcases List.mem_append.mp member with prefixed | within
      · have added : ∀ e ∈ ['N', 'E', '_'], isUpperWord e = true :=
          List.all_eq_true.mp (by decide)
        exact added d prefixed
      · exact upper d within
  · rename_i plain
    cases chars : text.toList with
    | nil => exact absurd chars nonempty
    | cons c s =>
      rw [chars] at plain word
      rw [toUpper_toList, chars] at upper
      have alpha : c.isAlpha = true := by
        simp only [List.head?_cons, Option.any_some, Bool.or_eq_true, not_or] at plain
        simpa using plain.1
      refine ⟨c.toUpper, s.map Char.toUpper, ?_, ?_, ?_⟩
      · rw [toUpper_toList, chars]
        rfl
      · cases lower : c.isLower with
        | true => exact isUpper_toUpper lower
        | false =>
          rw [toUpper_of_not_isLower lower]
          have letters : (c.isUpper || c.isLower) = true := alpha
          rwa [lower, Bool.or_false] at letters
      · exact fun d member => upper d (List.mem_cons_of_mem _ member)

theorem toUpper_of_isUpperName {name : String} (upper : IsUpperName name) : name.toUpper = name := by
  obtain ⟨c, s, chars, first, rest⟩ := upper
  refine String.toList_inj.mp ?_
  rw [toUpper_toList]
  refine List.map_congr_left (fun d member => ?_) |>.trans (List.map_id _)
  rw [chars] at member
  rcases List.mem_cons.mp member with rfl | later
  · exact toUpper_of_isUpperWord (by unfold isUpperWord; rw [first]; rfl)
  · exact toUpper_of_isUpperWord (rest d later)

/-- Names are read as they were written, but for those that begin with XML. -/
theorem attributeName_of_isUpperName {name : String} (upper : IsUpperName name) :
    attributeName name = if name.toList.take 3 = ['X', 'M', 'L'] then "ONE_" ++ name else name := by
  obtain ⟨c, s, chars, first, rest⟩ := upper
  have alpha : c.isAlpha = true := by
    show (c.isUpper || c.isLower) = true
    rw [first]
    rfl
  unfold attributeName
  rw [toUpper_of_isUpperName ⟨c, s, chars, first, rest⟩, chars]
  simp only [List.head?_cons, Option.any_some, alpha, Bool.not_true, Bool.false_or,
    decide_eq_true_eq]

/-- No attribute that was read has a name that begins so. -/
theorem take_attributeName {name : String} (upper : IsUpperName name) :
    (attributeName name).toList.take 3 ≠ ['X', 'M', 'L'] := by
  rw [attributeName_of_isUpperName upper]
  split
  · rw [String.toList_append]
    intro same
    cases same
  · assumption

theorem isNameStart_of_isUpper {c : Char} (upper : c.isUpper = true) : isNameStart c = true := by
  have bounds := isUpper_iff_toNat.mp upper
  refine List.any_eq_true.mpr ⟨(0x41, 0x5A), by decide, ?_⟩
  simp only [Bool.and_eq_true, decide_eq_true_eq]
  exact bounds

theorem isNameChar_of_isUpperWord {c : Char} (word : isUpperWord c = true) :
    isNameChar c = true ∧ c ≠ '-' := by
  refine ⟨?_, fun same => ?_⟩
  · unfold isUpperWord at word
    simp only [Bool.or_eq_true, decide_eq_true_eq] at word
    rcases word with (upper | digit) | rfl
    · exact isNameChar_of_isNameStart (isNameStart_of_isUpper upper)
    · have bounds := Char.isDigit_iff_toNat.mp digit
      refine List.any_eq_true.mpr ⟨(0x30, 0x39), by decide, ?_⟩
      simp only [Bool.and_eq_true, decide_eq_true_eq]
      exact bounds
    · decide
  · subst same
    revert word
    decide

/-- The name of a value: it may begin with a digit. -/
def IsKey (key : String) : Prop :=
  key.toList ≠ [] ∧ ∀ c ∈ key.toList, isUpperWord c = true

theorem IsUpperName.isKey {name : String} (upper : IsUpperName name) : IsKey name := by
  obtain ⟨c, s, chars, first, rest⟩ := upper
  refine ⟨by rw [chars]; exact List.cons_ne_nil c s, fun d member => ?_⟩
  rw [chars] at member
  rcases List.mem_cons.mp member with rfl | later
  · unfold isUpperWord
    rw [first]
    rfl
  · exact rest d later

theorem IsUpperName.isName {name : String} (upper : IsUpperName name) : IsName name.toList := by
  obtain ⟨c, s, chars, first, rest⟩ := upper
  exact ⟨c, s, chars, isNameStart_of_isUpper first,
    fun d member => (isNameChar_of_isUpperWord (rest d member)).1⟩

theorem IsKey.worded {key : String} (is : IsKey key) : (Piece.openTag key.toList).Worded :=
  ⟨is.1, fun c member => isNameChar_of_isUpperWord (is.2 c member)⟩

theorem IsKey.ne_empty {key : String} (is : IsKey key) : key ≠ "" := fun same =>
  is.1 (by rw [same]; rfl)

/-- The name of a value is a name in XML unless it begins with a digit. -/
theorem IsKey.isName_iff {key : String} (is : IsKey key) :
    IsName key.toList ↔ (key.toList.head?.all fun c => !c.isDigit) = true := by
  obtain ⟨nonempty, word⟩ := is
  cases chars : key.toList with
  | nil => exact absurd chars nonempty
  | cons c s =>
    rw [chars] at word
    have first := word c List.mem_cons_self
    simp only [List.head?_cons, Option.all_some, Bool.not_eq_true', IsName]
    constructor
    · rintro ⟨d, text, same, start, -⟩
      cases same
      by_contra digit
      have bounds := Char.isDigit_iff_toNat.mp (Bool.eq_true_of_not_eq_false digit)
      have nine : '9'.toNat = 57 := rfl
      have zero : '0'.toNat = 48 := rfl
      obtain ⟨range, member, inside⟩ := List.any_eq_true.mp start
      simp only [Bool.and_eq_true, decide_eq_true_eq] at inside
      have above : ∀ range ∈ nameStartRanges, 58 ≤ range.1 := by decide
      have := above range member
      omega
    · intro digit
      refine ⟨c, s, rfl, ?_, fun d member =>
        (isNameChar_of_isUpperWord (word d (List.mem_cons_of_mem c member))).1⟩
      unfold isUpperWord at first
      simp only [digit, Bool.or_false, Bool.or_eq_true, decide_eq_true_eq] at first
      rcases first with upper | rfl
      · exact isNameStart_of_isUpper upper
      · decide

/-- What is true of every attribute that comes from a text. -/
def WellNamed : Attribute → Prop
  | .single name _ => IsUpperName name
  | .vector name values =>
    IsUpperName name ∧ values ≠ [] ∧ (values.map Prod.fst).Nodup ∧ ∀ v ∈ values, IsKey v.1

theorem isKey_toUpper (name : Variable) : IsKey name.text.toUpper := by
  obtain ⟨text, nonempty, word⟩ := name
  refine ⟨?_, fun c member => ?_⟩
  · rw [toUpper_toList]
    exact fun none => nonempty (List.map_eq_nil_iff.mp none)
  · rw [toUpper_toList] at member
    obtain ⟨d, within, rfl⟩ := List.mem_map.mp member
    exact isUpperWord_toUpper (word d within)

theorem insertValue_wellNamed {values : List (String × String)} (v : Variable × Value)
    (unequal : (values.map Prod.fst).Nodup) (keys : ∀ v ∈ values, IsKey v.1) :
    insertValue values v ≠ [] ∧ ((insertValue values v).map Prod.fst).Nodup ∧
      ∀ v' ∈ insertValue values v, IsKey v'.1 := by
  unfold insertValue
  dsimp only
  split
  · rename_i there
    refine ⟨fun none => ?_, unequal, keys⟩
    rw [none] at there
    cases there
  · rename_i new
    refine ⟨List.append_ne_nil_of_right_ne_nil values (List.cons_ne_nil _ []), ?_, ?_⟩
    · rw [List.map_append]
      refine List.nodup_append.mpr ⟨unequal, List.nodup_singleton _, ?_⟩
      rintro key within _ member rfl
      cases List.mem_singleton.mp member
      exact new within
    · intro v' member
      rcases List.mem_append.mp member with old | added
      · exact keys v' old
      · cases List.mem_singleton.mp added
        exact isKey_toUpper v.1

theorem foldl_insertValue_wellNamed (rest : List (Variable × Value)) :
    ∀ values : List (String × String), values ≠ [] → (values.map Prod.fst).Nodup →
      (∀ v ∈ values, IsKey v.1) →
      rest.foldl insertValue values ≠ [] ∧ ((rest.foldl insertValue values).map Prod.fst).Nodup ∧
        ∀ v ∈ rest.foldl insertValue values, IsKey v.1 := by
  induction rest with
  | nil => exact fun values nonempty unequal keys => ⟨nonempty, unequal, keys⟩
  | cons v rest ih =>
    intro values _ unequal keys
    obtain ⟨nonempty, unequal', keys'⟩ := insertValue_wellNamed v unequal keys
    exact ih _ nonempty unequal' keys'

/-! ### Setting attributes -/

section Set

variable {replaceMode : Bool} {attrs : List Attribute}

theorem foldl_set_sublist (tmpl : Template) :
    (attrs.foldl (set replaceMode) tmpl).Sublist (tmpl ++ attrs) := by
  induction attrs generalizing tmpl with
  | nil => exact (List.append_nil tmpl).symm ▸ List.Sublist.refl tmpl
  | cons a attrs ih =>
    refine (ih (set replaceMode tmpl a)).trans ?_
    rw [List.append_cons]
    refine List.Sublist.append_right ?_ attrs
    unfold set
    split
    · exact List.filter_sublist.append_right [a]
    · exact List.Sublist.refl _

theorem setAll_sublist : (setAll replaceMode attrs).Sublist attrs :=
  foldl_set_sublist []

theorem foldl_set_eq (tmpl : Template)
    (unequal : replaceMode = true → ((tmpl ++ attrs).map Attribute.name).Nodup) :
    attrs.foldl (set replaceMode) tmpl = tmpl ++ attrs := by
  induction attrs generalizing tmpl with
  | nil => exact (List.append_nil tmpl).symm
  | cons a attrs ih =>
    have added : set replaceMode tmpl a = tmpl ++ [a] := by
      unfold set
      split
      · rename_i replaces
        have apart := unequal replaces
        rw [List.map_append] at apart
        refine congrArg (· ++ [a]) (List.filter_eq_self.mpr fun b member => ?_)
        have other := (List.nodup_append.mp apart).2.2 b.name (List.mem_map_of_mem member) a.name
          (List.mem_map_of_mem List.mem_cons_self)
        exact decide_eq_true other
      · rfl
    rw [List.foldl_cons, added, ih _ fun replaces => by rw [← List.append_cons]; exact unequal replaces,
      ← List.append_cons]

/-- Attributes of different names all stay. -/
theorem setAll_eq (unequal : replaceMode = true → (attrs.map Attribute.name).Nodup) :
    setAll replaceMode attrs = attrs :=
  foldl_set_eq [] unequal

theorem setAll_nodup (replaces : replaceMode = true) :
    ((setAll replaceMode attrs).map Attribute.name).Nodup := by
  have keeps : ∀ (attrs : List Attribute) (tmpl : Template), (tmpl.map Attribute.name).Nodup →
      ((attrs.foldl (set replaceMode) tmpl).map Attribute.name).Nodup := by
    intro attrs
    induction attrs with
    | nil => exact fun _ unequal => unequal
    | cons a attrs ih =>
      intro tmpl unequal
      refine ih _ ?_
      unfold set
      rw [if_pos replaces, List.map_append]
      refine List.nodup_append.mpr ⟨unequal.sublist (List.filter_sublist.map _),
        List.nodup_singleton _, ?_⟩
      rintro name within _ member rfl
      cases List.mem_singleton.mp member
      obtain ⟨b, kept, same⟩ := List.mem_map.mp within
      exact of_decide_eq_true (List.mem_filter.mp kept).2 same
  exact keeps attrs [] List.nodup_nil

end Set

theorem wellNamed_parse (replaceMode : Bool) (statements : List Statement) :
    ∀ a ∈ parse replaceMode statements, WellNamed a := by
  intro a member
  obtain ⟨statement, -, rfl⟩ := List.mem_map.mp (setAll_sublist.subset member)
  cases statement with
  | single name value => exact isUpperName_attributeName name
  | empty name => exact isUpperName_attributeName name
  | vector name first rest =>
    refine ⟨isUpperName_attributeName name, ?_⟩
    have unnamed : (([] : List (String × String)).map Prod.fst).Nodup := List.nodup_nil
    obtain ⟨nonempty, unequal, keys⟩ :=
      insertValue_wellNamed first unnamed fun v member => absurd member List.not_mem_nil
    exact foldl_insertValue_wellNamed rest _ nonempty unequal keys

/-! ## The tree of a template -/

/-- A text after its lines were normalized. -/
def normalized (value : String) : String :=
  String.ofList (normalizeLines value.toList)

def valueNode (v : String × String) : Node :=
  .element v.1.toList (if v.2 = "" then [] else [.cdata (normalizeLines v.2.toList)])

/-- The values in the order they are written in. -/
def ordered (values : List (String × String)) : List (String × String) :=
  values.insertionSort fun v v' => v.1 ≤ v'.1

def attributeNode : Attribute → Node
  | .single name value => .element name.toList [.cdata (normalizeLines value.toList)]
  | .vector name values => .element name.toList ((ordered values).map valueNode)

/-- The values whose texts XML allows and whose sections end where they should. -/
def Whole (value : String) : Prop :=
  (∀ c ∈ normalizeLines value.toList, isChar c = true) ∧
    ¬ (Piece.cdata (normalizeLines value.toList)).Broken

def AllWhole : Attribute → Prop
  | .single _ value => Whole value
  | .vector _ values => ∀ v ∈ values, Whole v.2

/-- The names of values that are names in XML. -/
def KeysNamed : Attribute → Prop
  | .single _ _ => True
  | .vector _ values => ∀ v ∈ values, IsName v.1.toList

section Tree

variable {s s' : Scanner} {outer : List Char} {kids : List Node}

/-- What is scanned of some pieces. -/
def written (pieces : List Piece) : List Char :=
  (pieces.map Piece.normalized).flatMap Piece.text

theorem written_append (first second : List Piece) :
    written (first ++ second) = written first ++ written second := by
  unfold written
  rw [List.map_append, List.flatMap_append]

theorem written_flatMap {α : Type} (items : List α) (write : α → List Piece) :
    written (items.flatMap write) = items.flatMap fun a => written (write a) := by
  unfold written
  rw [List.map_flatMap, List.flatMap_assoc]

theorem run_value {v : String × String} (key : IsKey v.1) (whole : Whole v.2) :
    (s.inside outer kids).run (written (valueToXml v)) = some s' ↔
      IsName v.1.toList ∧ s' = s.inside outer (valueNode v :: kids) := by
  unfold valueToXml valueNode
  rw [if_neg key.ne_empty]
  split
  · have alone : written [.emptyTag v.1.toList] = (Piece.emptyTag v.1.toList).text :=
      List.append_nil _
    rw [alone]
    exact run_emptyElement key.worded
  · exact run_leaf key.worded whole.1 whole.2

theorem mem_ordered {values : List (String × String)} {v : String × String} :
    v ∈ ordered values ↔ v ∈ values :=
  (List.perm_insertionSort _ values).mem_iff

theorem run_attribute {a : Attribute} (named : WellNamed a) (whole : AllWhole a) :
    (s.inside outer kids).run (written (attributeToXml a)) = some s' ↔
      KeysNamed a ∧ s' = s.inside outer (attributeNode a :: kids) := by
  cases a with
  | single name value =>
    refine (run_leaf named.isKey.worded whole.1 whole.2).trans ?_
    exact and_congr_left fun _ => iff_of_true named.isName trivial
  | vector name values =>
    obtain ⟨upper, -, -, keys⟩ := named
    have opened : (s.inside outer kids).run (Piece.openTag name.toList).text =
        some ((s.inside outer kids).inside name.toList []) :=
      run_openTag rfl upper.isName (Or.inl (List.cons_ne_nil _ _))
    have closed : ((s.inside outer kids).inside name.toList
        (((ordered values).map valueNode).reverse ++ [])).run (Piece.closeTag name.toList).text =
          some (s.inside outer (attributeNode (.vector name values) :: kids)) := by
      refine (run_closeTag rfl upper.isName).trans (closeElement_inside.trans ?_)
      rw [inside_finish, List.append_nil, List.reverse_reverse]
      rfl
    have inner : ∀ {mid}, ((s.inside outer kids).inside name.toList []).run
        (written ((ordered values).flatMap valueToXml)) = some mid ↔
          (∀ v ∈ ordered values, IsName v.1.toList) ∧
            mid = (s.inside outer kids).inside name.toList
              (((ordered values).map valueNode).reverse ++ []) := by
      intro mid
      rw [written_flatMap]
      refine run_children (fun v member children mid => ?_) []
      exact run_value (keys v (mem_ordered.mp member)) (whole v (mem_ordered.mp member))
    have parts : written (attributeToXml (.vector name values)) =
        (Piece.openTag name.toList).text ++
          (written ((ordered values).flatMap valueToXml) ++ (Piece.closeTag name.toList).text) := by
      have whole := written_append ((ordered values).flatMap valueToXml) [.closeTag name.toList]
      have last : written [.closeTag name.toList] = (Piece.closeTag name.toList).text :=
        List.append_nil _
      rw [last] at whole
      exact congrArg ((Piece.openTag name.toList).text ++ ·) whole
    have all : (∀ v ∈ ordered values, IsName v.1.toList) ↔ KeysNamed (.vector name values) :=
      forall_congr' fun v => imp_congr_left mem_ordered
    rw [parts]
    constructor
    · intro taken
      obtain ⟨mid, first, taken⟩ := run_append.mp taken
      rw [opened] at first
      cases first
      obtain ⟨mid, read, last⟩ := run_append.mp taken
      obtain ⟨named, rfl⟩ := inner.mp read
      rw [closed] at last
      exact ⟨all.mp named, (Option.some.inj last).symm⟩
    · rintro ⟨named, rfl⟩
      exact run_append.mpr ⟨_, opened,
        run_append.mpr ⟨_, inner.mpr ⟨all.mpr named, rfl⟩, closed⟩⟩

theorem run_attributes {tmpl : Template} (named : ∀ a ∈ tmpl, WellNamed a)
    (whole : ∀ a ∈ tmpl, AllWhole a) :
    (s.inside outer kids).run (written (tmpl.flatMap attributeToXml)) = some s' ↔
      (∀ a ∈ tmpl, KeysNamed a) ∧
        s' = s.inside outer ((tmpl.map attributeNode).reverse ++ kids) := by
  rw [written_flatMap]
  exact run_children (fun a member children mid =>
    run_attribute (named a member) (whole a member)) kids

end Tree

section Document

variable {xmlRoot : String} {tmpl : Template}

/-- The attributes in the order they are written in. -/
def sorted (tmpl : Template) : Template :=
  tmpl.insertionSort fun a a' => a.name ≤ a'.name

theorem sorted_perm (tmpl : Template) : (sorted tmpl).Perm tmpl :=
  List.perm_insertionSort _ tmpl

theorem mem_sorted {a : Attribute} : a ∈ sorted tmpl ↔ a ∈ tmpl :=
  (sorted_perm tmpl).mem_iff

theorem worded_valueToXml {v : String × String} (key : IsKey v.1) :
    ∀ p ∈ valueToXml v, p.Worded := by
  intro p member
  unfold valueToXml at member
  rw [if_neg key.ne_empty] at member
  split at member
  · cases List.mem_singleton.mp member
    exact key.worded
  · rcases List.mem_cons.mp member with rfl | member
    · exact key.worded
    rcases List.mem_cons.mp member with rfl | member
    · trivial
    · cases List.mem_singleton.mp member
      exact key.worded

theorem worded_attributeToXml {a : Attribute} (named : WellNamed a) :
    ∀ p ∈ attributeToXml a, p.Worded := by
  intro p member
  cases a with
  | single name value =>
    have worded := (IsUpperName.isKey named).worded
    rcases List.mem_cons.mp member with rfl | member
    · exact worded
    rcases List.mem_cons.mp member with rfl | member
    · trivial
    · cases List.mem_singleton.mp member
      exact worded
  | vector name values =>
    have worded := named.1.isKey.worded
    rcases List.mem_cons.mp member with rfl | member
    · exact worded
    rcases List.mem_append.mp member with inner | last
    · obtain ⟨v, within, among⟩ := List.mem_flatMap.mp inner
      exact worded_valueToXml (named.2.2.2 v (mem_ordered.mp within)) p among
    · cases List.mem_singleton.mp last
      exact worded

theorem worded_attributes (root : IsUpperName xmlRoot) (named : ∀ a ∈ tmpl, WellNamed a) :
    ∀ p ∈ (.openTag xmlRoot.toList :: (tmpl.flatMap attributeToXml ++
      [.closeTag xmlRoot.toList]) : List Piece), p.Worded := by
  intro p member
  have worded := root.isKey.worded
  rcases List.mem_cons.mp member with rfl | member
  · exact worded
  rcases List.mem_append.mp member with inner | last
  · obtain ⟨a, within, among⟩ := List.mem_flatMap.mp inner
    exact worded_attributeToXml (named a within) p among
  · cases List.mem_singleton.mp last
    exact worded

theorem worded_toXml (root : IsUpperName xmlRoot) (named : ∀ a ∈ tmpl, WellNamed a) :
    ∀ p ∈ toXml xmlRoot tmpl, p.Worded :=
  worded_attributes root fun a member => named a (mem_sorted.mp member)

/-- Where no value breaks its section, the tree is the one that was written. -/
theorem document_attributes {node : Node} (root : IsUpperName xmlRoot)
    (named : ∀ a ∈ tmpl, WellNamed a) (whole : ∀ a ∈ tmpl, AllWhole a) :
    document ((.openTag xmlRoot.toList :: (tmpl.flatMap attributeToXml ++
        [.closeTag xmlRoot.toList]) : List Piece).flatMap Piece.text) = some node ↔
      (∀ a ∈ tmpl, KeysNamed a) ∧ node = .element xmlRoot.toList (tmpl.map attributeNode) := by
  have opened : start.run (Piece.openTag xmlRoot.toList).text =
      some (start.inside xmlRoot.toList []) :=
    run_openTag rfl root.isName (Or.inr rfl)
  have inner : ∀ {mid}, (start.inside xmlRoot.toList []).run
      (written (tmpl.flatMap attributeToXml)) = some mid ↔
        (∀ a ∈ tmpl, KeysNamed a) ∧
          mid = start.inside xmlRoot.toList ((tmpl.map attributeNode).reverse ++ []) :=
    run_attributes named whole
  have closed : (start.inside xmlRoot.toList
      ((tmpl.map attributeNode).reverse ++ [])).run (Piece.closeTag xmlRoot.toList).text =
        some ⟨some (.element xmlRoot.toList (tmpl.map attributeNode)), [], .content⟩ := by
    refine (run_closeTag rfl root.isName).trans (closeElement_inside.trans ?_)
    rw [List.append_nil, finish_root rfl, List.reverse_reverse]
  have parts : written (.openTag xmlRoot.toList :: (tmpl.flatMap attributeToXml ++
      [.closeTag xmlRoot.toList])) =
      (Piece.openTag xmlRoot.toList).text ++
        (written (tmpl.flatMap attributeToXml) ++ (Piece.closeTag xmlRoot.toList).text) := by
    have joined := written_append (tmpl.flatMap attributeToXml) [.closeTag xmlRoot.toList]
    have last : written [.closeTag xmlRoot.toList] = (Piece.closeTag xmlRoot.toList).text :=
      List.append_nil _
    rw [last] at joined
    exact congrArg ((Piece.openTag xmlRoot.toList).text ++ ·) joined
  have worded : ∀ p ∈ (.openTag xmlRoot.toList :: (tmpl.flatMap attributeToXml ++
      [.closeTag xmlRoot.toList]) : List Piece), p.Worded :=
    worded_attributes root named
  unfold document
  rw [Piece.normalizeLines_flatMap worded]
  have scanned : ((.openTag xmlRoot.toList :: (tmpl.flatMap attributeToXml ++
      [.closeTag xmlRoot.toList]) : List Piece).map Piece.normalized).flatMap Piece.text =
        written (.openTag xmlRoot.toList :: (tmpl.flatMap attributeToXml ++
          [.closeTag xmlRoot.toList])) := rfl
  rw [scanned, parts]
  constructor
  · intro taken
    obtain ⟨last, taken, tree⟩ := Option.bind_eq_some_iff.mp taken
    obtain ⟨mid, first, taken⟩ := run_append.mp taken
    rw [opened] at first
    cases first
    obtain ⟨mid, read, ended⟩ := run_append.mp taken
    obtain ⟨keys, rfl⟩ := inner.mp read
    rw [closed] at ended
    cases ended
    exact ⟨keys, (Option.some.inj tree).symm⟩
  · rintro ⟨keys, rfl⟩
    refine Option.bind_eq_some_iff.mpr ⟨_, run_append.mpr ⟨_, opened,
      run_append.mpr ⟨_, inner.mpr ⟨keys, rfl⟩, closed⟩⟩, rfl⟩

theorem document_toXml {node : Node} (root : IsUpperName xmlRoot)
    (named : ∀ a ∈ tmpl, WellNamed a) (whole : ∀ a ∈ tmpl, AllWhole a) :
    document ((toXml xmlRoot tmpl).flatMap Piece.text) = some node ↔
      (∀ a ∈ tmpl, KeysNamed a) ∧
        node = .element xmlRoot.toList ((sorted tmpl).map attributeNode) := by
  have all : (∀ a ∈ sorted tmpl, KeysNamed a) ↔ ∀ a ∈ tmpl, KeysNamed a :=
    forall_congr' fun a => imp_congr_left mem_sorted
  rw [← all]
  exact document_attributes root (fun a member => named a (mem_sorted.mp member))
    fun a member => whole a (mem_sorted.mp member)

end Document

end TemplateXml

end Ezilla
