import Ezilla.Xml.TemplateXml

/-!
# What comes back of a template

A template is written as XML and read again. What is read holds at most the text that was meant
to be written, so that a template that comes back has no value whose section ends early; then
the tree is the one that was written, and the names and values in it can be compared.

* `reread`: what is read where an attribute was written;
* `totalSize_rebuild_le`, `sizes_toXml_le`: how much text is read and written;
* `allWhole_of_document`: in a template that comes back every section ends where it should;
* `roundTrips_iff_kept`: a template comes back with the attributes it had exactly when its
  names and values are `Kept`.
-/

namespace Ezilla

namespace TemplateXml

open Xml Xml.Scanner

/-! ## Attributes that are read -/

/-- What is read of an element under the root. -/
def readAttribute (node : Node) : Option Attribute :=
  (singleXmlAtt node).or (vectorXmlAtt node)

/-- What is read where an attribute was written. -/
def reread : Attribute → Attribute
  | .single name value => .single (attributeName name) (normalized value)
  | .vector name values =>
    .vector (attributeName name) (((ordered values).map valueNode).foldl replaceValue [])

theorem readAttribute_single (name content : List Char) :
    readAttribute (.element name [.cdata content]) =
      some (.single (attributeName (String.ofList name)) (String.ofList content)) := rfl

/-- An element that begins with an element is read as a vector attribute. -/
theorem readAttribute_vector (name inner : List Char) (kids nodes : List Node) :
    readAttribute (.element name (.element inner kids :: nodes)) =
      some (.vector (attributeName (String.ofList name))
        ((.element inner kids :: nodes).foldl replaceValue [])) := rfl

theorem readAttribute_attributeNode {a : Attribute} (named : WellNamed a) :
    readAttribute (attributeNode a) = some (reread a) := by
  cases a with
  | single name value =>
    refine (readAttribute_single _ _).trans ?_
    rw [String.ofList_toList]
    rfl
  | vector name values =>
    have tree : attributeNode (.vector name values) =
        .element name.toList ((ordered values).map valueNode) := rfl
    have read : reread (.vector name values) =
        .vector (attributeName name) (((ordered values).map valueNode).foldl replaceValue []) := rfl
    rw [tree, read]
    cases parts : ordered values with
    | nil =>
      have order : (ordered values).Perm values := List.perm_insertionSort _ values
      rw [parts] at order
      exact absurd (List.nil_perm.mp order) named.2.1
    | cons v vs =>
      rw [List.map_cons]
      refine (readAttribute_vector _ _ _ _).trans ?_
      rw [String.ofList_toList]
      rfl

/-- The tree of a template is read attribute by attribute. -/
theorem rebuildAttributes_tree {replaceMode : Bool} {name : List Char} {tmpl : Template}
    (named : ∀ a ∈ tmpl, WellNamed a) :
    rebuildAttributes replaceMode (.element name (tmpl.map attributeNode)) =
      setAll replaceMode (tmpl.map reread) := by
  have each : (tmpl.map attributeNode).filterMap readAttribute = tmpl.map reread := by
    induction tmpl with
    | nil => rfl
    | cons a tmpl ih =>
      have first := readAttribute_attributeNode (named a List.mem_cons_self)
      rw [List.map_cons, List.filterMap_cons_some first,
        ih fun b member => named b (List.mem_cons_of_mem a member), List.map_cons]
  exact congrArg (setAll replaceMode) each

/-! ## How much text is read -/

/-- How many characters the values of a vector attribute have. -/
def valuesSize (values : List (String × String)) : Nat :=
  (values.map fun v => v.2.toList.length).sum

def attributeSize : Attribute → Nat
  | .single _ value => value.toList.length
  | .vector _ values => valuesSize values

def totalSize (tmpl : Template) : Nat :=
  (tmpl.map attributeSize).sum

theorem valuesSize_perm {values values' : List (String × String)} (same : values.Perm values') :
    valuesSize values = valuesSize values' :=
  (same.map _).sum_eq

theorem valuesSize_filter (values : List (String × String)) :
    valuesSize (values.filter fun v => v.2 ≠ "") = valuesSize values := by
  induction values with
  | nil => rfl
  | cons v values ih =>
    rw [List.filter_cons]
    split
    · exact congrArg (v.2.toList.length + ·) ih
    · rename_i empty
      have none : v.2.toList.length = 0 := by
        have is : v.2 = "" := by simpa using empty
        rw [is]
        rfl
      have added : valuesSize (v :: values) = v.2.toList.length + valuesSize values := rfl
      rw [added, none, ih, Nat.zero_add]

/-- The text in what users see of an attribute. -/
def essenceSize (e : String × (String ⊕ Multiset (String × String))) : Nat :=
  match e.2 with
  | .inl value => value.toList.length
  | .inr values => (values.map fun v => v.2.toList.length).sum

theorem essenceSize_essence (a : Attribute) : essenceSize (essence a) = attributeSize a := by
  cases a with
  | single name value => rfl
  | vector name values => exact valuesSize_filter values

theorem totalSize_perm {tmpl tmpl' : Template} (same : (tmpl'.map essence).Perm (tmpl.map essence)) :
    totalSize tmpl' = totalSize tmpl := by
  have sizes : ∀ t : Template, totalSize t = ((t.map essence).map essenceSize).sum := by
    intro t
    rw [List.map_map]
    exact congrArg List.sum (List.map_congr_left fun a _ => (essenceSize_essence a).symm)
  rw [sizes, sizes]
  exact (same.map essenceSize).sum_eq

theorem valuesSize_replace_le (values : List (String × String)) (name value : String) :
    valuesSize (Attribute.replace values name value) ≤ valuesSize values + value.toList.length := by
  have kept : valuesSize (values.filter fun v => v.1 ≠ name) ≤ valuesSize values :=
    (List.filter_sublist.map _).sum_le_sum fun n _ => Nat.zero_le n
  have added : valuesSize (Attribute.replace values name value) =
      value.toList.length + valuesSize (values.filter fun v => v.1 ≠ name) := rfl
  omega

theorem valuesSize_replaceValue_le (values : List (String × String)) (node : Node) :
    valuesSize (replaceValue values node) ≤ valuesSize values + node.weight := by
  unfold replaceValue
  split
  · rename_i name content rest
    refine (valuesSize_replace_le _ _ _).trans ?_
    simp only [Node.weight, weights, String.toList_ofList]
    omega
  · rename_i name content rest
    refine (valuesSize_replace_le _ _ _).trans ?_
    simp only [Node.weight, weights, String.toList_ofList]
    omega
  · exact Nat.le_add_right _ _

theorem valuesSize_foldl_le (nodes : List Node) (values : List (String × String)) :
    valuesSize (nodes.foldl replaceValue values) ≤ valuesSize values + weights nodes := by
  induction nodes generalizing values with
  | nil => exact Nat.le_add_right _ _
  | cons n nodes ih =>
    have later := ih (replaceValue values n)
    have first := valuesSize_replaceValue_le values n
    simp only [List.foldl_cons, weights]
    omega

theorem weights_dropWhile_le (skip : Node → Bool) (nodes : List Node) :
    weights (nodes.dropWhile skip) ≤ weights nodes := by
  have parts := weights_append (nodes.takeWhile skip) (nodes.dropWhile skip)
  rw [List.takeWhile_append_dropWhile] at parts
  omega

/-- An attribute has no text that was not in its element. -/
theorem attributeSize_le {node : Node} {a : Attribute} (read : readAttribute node = some a) :
    attributeSize a ≤ node.weight := by
  rcases Option.or_eq_some_iff.mp read with single | ⟨-, vector⟩
  · unfold singleXmlAtt at single
    split at single
    · cases single
      simp only [attributeSize, Node.weight, weights, String.toList_ofList, Nat.add_zero,
        Nat.le_refl]
    · cases single
      simp only [attributeSize, Node.weight, weights, String.toList_ofList, Nat.add_zero,
        Nat.le_refl]
    · cases single
  · unfold vectorXmlAtt at vector
    split at vector
    · rename_i name children
      split at vector
      · cases vector
      · rename_i elements _
        cases vector
        have held := valuesSize_foldl_le (children.dropWhile fun child => !isElement child) []
        have fewer := weights_dropWhile_le (fun child => !isElement child) children
        have none : valuesSize [] = 0 := rfl
        simp only [attributeSize, Node.weight]
        omega
    · cases vector

theorem totalSize_filterMap_le (nodes : List Node) :
    totalSize (nodes.filterMap readAttribute) ≤ weights nodes := by
  induction nodes with
  | nil => exact Nat.le_refl 0
  | cons n nodes ih =>
    simp only [weights]
    cases read : readAttribute n with
    | none =>
      rw [List.filterMap_cons_none read]
      omega
    | some a =>
      have first := attributeSize_le read
      have added : totalSize (a :: nodes.filterMap readAttribute) =
          attributeSize a + totalSize (nodes.filterMap readAttribute) := rfl
      rw [List.filterMap_cons_some read, added]
      omega

/-- A template has no text that was not in its tree. -/
theorem totalSize_rebuild_le (replaceMode : Bool) (node : Node) :
    totalSize (rebuildAttributes replaceMode node) ≤ node.weight := by
  unfold rebuildAttributes
  split
  · rename_i name children
    have fewer : totalSize (setAll replaceMode (children.filterMap readAttribute)) ≤
        totalSize (children.filterMap readAttribute) :=
      (setAll_sublist.map _).sum_le_sum fun n _ => Nat.zero_le n
    exact fewer.trans (totalSize_filterMap_le children)
  · exact Nat.zero_le _

/-! ## How much text is written -/

theorem sizes_flatMap_le {α : Type} {write : α → List Piece} {size : α → Nat}
    (each : ∀ a, ((write a).map Piece.size).sum ≤ size a) (items : List α) :
    ((items.flatMap write).map Piece.size).sum ≤ (items.map size).sum := by
  induction items with
  | nil => exact Nat.le_refl 0
  | cons a items ih =>
    have first := each a
    simp only [List.flatMap_cons, List.map_append, List.sum_append, List.map_cons, List.sum_cons]
    omega

theorem sizes_valueToXml_le (v : String × String) :
    ((valueToXml v).map Piece.size).sum ≤ v.2.toList.length := by
  unfold valueToXml
  split
  · exact Nat.zero_le _
  · split
    · exact Nat.zero_le _
    · exact Nat.le_of_eq (by simp [Piece.size])

theorem sizes_attributeToXml_le (a : Attribute) :
    ((attributeToXml a).map Piece.size).sum ≤ attributeSize a := by
  cases a with
  | single name value => exact Nat.le_of_eq (by simp [attributeToXml, Piece.size, attributeSize])
  | vector name values =>
    have inner := sizes_flatMap_le sizes_valueToXml_le (ordered values)
    have order : valuesSize (ordered values) = valuesSize values :=
      valuesSize_perm (List.perm_insertionSort _ values)
    unfold valuesSize ordered at order
    unfold ordered at inner
    simp only [attributeToXml, List.map_cons, List.sum_cons, List.map_append, List.sum_append,
      List.map_nil, List.sum_nil, Piece.size, attributeSize, valuesSize, Nat.zero_add,
      Nat.add_zero]
    omega

theorem sizes_toXml_le (xmlRoot : String) (tmpl : Template) :
    ((toXml xmlRoot tmpl).map Piece.size).sum ≤ totalSize tmpl := by
  have inner := sizes_flatMap_le sizes_attributeToXml_le (sorted tmpl)
  have order : totalSize (sorted tmpl) = totalSize tmpl :=
    ((sorted_perm tmpl).map attributeSize).sum_eq
  unfold totalSize sorted at order
  unfold sorted at inner
  simp only [toXml, List.map_cons, List.sum_cons, List.map_append, List.sum_append,
    List.map_nil, List.sum_nil, Piece.size, totalSize, Nat.zero_add, Nat.add_zero]
  omega

/-! ## Sections that end where they should -/

section Whole

variable {xmlRoot value : String} {tmpl : Template} {node : Node}

theorem whole_empty : Whole "" :=
  ⟨fun c member => absurd member List.not_mem_nil, by
    rintro ⟨before, after, same⟩
    have length := congrArg List.length same
    simp only [List.length_append, List.length_cons] at length
    have none : (normalizeLines "".toList).length = 0 := rfl
    omega⟩

theorem piece_of_single {name : String} (member : .single name value ∈ tmpl) :
    Piece.cdata value.toList ∈ toXml xmlRoot tmpl := by
  refine List.mem_cons_of_mem _ (List.mem_append_left _ ?_)
  exact List.mem_flatMap.mpr ⟨_, mem_sorted.mpr member,
    List.mem_cons_of_mem _ List.mem_cons_self⟩

theorem piece_of_vector {name : String} {values : List (String × String)} {v : String × String}
    (member : .vector name values ∈ tmpl) (within : v ∈ values) (key : IsKey v.1)
    (nonempty : v.2 ≠ "") : Piece.cdata v.2.toList ∈ toXml xmlRoot tmpl := by
  refine List.mem_cons_of_mem _ (List.mem_append_left _ ?_)
  refine List.mem_flatMap.mpr ⟨_, mem_sorted.mpr member, List.mem_cons_of_mem _ ?_⟩
  refine List.mem_append_left _ (List.mem_flatMap.mpr ⟨v, mem_ordered.mpr within, ?_⟩)
  unfold valueToXml
  rw [if_neg key.ne_empty, if_neg nonempty]
  exact List.mem_cons_of_mem _ List.mem_cons_self

/-- Where all text comes back, no section ends early. -/
theorem allWhole_of_document (root : IsUpperName xmlRoot) (named : ∀ a ∈ tmpl, WellNamed a)
    (taken : document ((toXml xmlRoot tmpl).flatMap Piece.text) = some node)
    (full : totalSize tmpl ≤ node.weight) : ∀ a ∈ tmpl, AllWhole a := by
  have worded := worded_toXml root named
  have written : ∀ {value : String}, Piece.cdata value.toList ∈ toXml xmlRoot tmpl →
      Whole value := by
    intro value member
    refine ⟨fun c within => isChar_of_document taken c ?_, fun broken => ?_⟩
    · rw [Piece.normalizeLines_flatMap worded]
      refine List.mem_flatMap.mpr ⟨_, List.mem_map_of_mem member, ?_⟩
      exact List.mem_append_left _ (List.mem_append_right _ within)
    · have less := (weight_document worded taken).2 ⟨_, member, broken⟩
      have most := sizes_toXml_le xmlRoot tmpl
      omega
  intro a member
  cases a with
  | single name value => exact written (piece_of_single member)
  | vector name values =>
    intro v within
    rcases eq_or_ne v.2 "" with empty | nonempty
    · rw [empty]
      exact whole_empty
    · exact written (piece_of_vector member within ((named _ member).2.2.2 v within) nonempty)

theorem plain_iff : Plain value ↔ Whole value ∧ '\r' ∉ value.toList := by
  constructor
  · rintro ⟨legal, ended⟩
    have noReturn : '\r' ∉ value.toList := fun member => (legal _ member).2 rfl
    refine ⟨?_, noReturn⟩
    unfold Whole
    rw [normalizeLines_eq noReturn]
    exact ⟨fun c member => (legal c member).1, ended⟩
  · rintro ⟨whole, noReturn⟩
    unfold Whole at whole
    rw [normalizeLines_eq noReturn] at whole
    exact ⟨fun c member => ⟨whole.1 c member, fun same => noReturn (same ▸ member)⟩, whole.2⟩

end Whole

/-! ## Names and values that come back -/

/-- What is true of every attribute that is read: its name does not begin with XML, and there
are no returns in it. -/
def Clean (e : String × (String ⊕ Multiset (String × String))) : Prop :=
  e.1.toList.take 3 ≠ ['X', 'M', 'L'] ∧
    match e.2 with
    | .inl value => '\r' ∉ value.toList
    | .inr values => ∀ v ∈ values, '\r' ∉ v.2.toList

theorem mem_essence {values : List (String × String)} {v : String × String} :
    v ∈ ((values.filter fun v => v.2 ≠ "" : List (String × String)) :
      Multiset (String × String)) ↔ v ∈ values ∧ v.2 ≠ "" := by
  rw [Multiset.mem_coe, List.mem_filter, decide_eq_true_eq]

/-- An attribute is kept if its sections end where they should, its names are names in XML and
it is like one that was read. -/
theorem kept_iff {a : Attribute} (named : WellNamed a) :
    Kept a ↔ AllWhole a ∧ KeysNamed a ∧ Clean (essence a) := by
  cases a with
  | single name value =>
    constructor
    · rintro ⟨name, plain⟩
      obtain ⟨whole, noReturn⟩ := plain_iff.mp plain
      exact ⟨whole, trivial, name, noReturn⟩
    · rintro ⟨whole, -, name, noReturn⟩
      exact ⟨name, plain_iff.mpr ⟨whole, noReturn⟩⟩
  | vector name values =>
    have keys := named.2.2.2
    constructor
    · rintro ⟨name, each⟩
      refine ⟨fun v member => (plain_iff.mp (each v member).2).1,
        fun v member => (keys v member).isName_iff.mpr (each v member).1, name,
        fun v member => ?_⟩
      exact (plain_iff.mp (each v (mem_essence.mp member).1).2).2
    · rintro ⟨whole, keysNamed, name, noReturn⟩
      refine ⟨name, fun v member => ⟨(keys v member).isName_iff.mp (keysNamed v member), ?_⟩⟩
      refine plain_iff.mpr ⟨whole v member, ?_⟩
      rcases eq_or_ne v.2 "" with empty | nonempty
      · rw [empty]
        exact List.not_mem_nil
      · exact noReturn v (mem_essence.mpr ⟨member, nonempty⟩)

theorem return_not_mem_normalized (value : String) : '\r' ∉ (normalized value).toList := by
  unfold normalized
  rw [String.toList_ofList]
  exact return_not_mem_normalizeLines _

/-- One value in the loop that reads a vector attribute. -/
theorem replaceValue_valueNode (values : List (String × String)) (v : String × String) :
    replaceValue values (valueNode v) =
      if v.2 = "" then values else Attribute.replace values v.1 (normalized v.2) := by
  unfold valueNode
  split
  · rfl
  · have read : replaceValue values (.element v.1.toList [.cdata (normalizeLines v.2.toList)]) =
        Attribute.replace values (String.ofList v.1.toList) (normalized v.2) := rfl
    rw [read, String.ofList_toList]

theorem return_not_mem_foldl {values acc : List (String × String)}
    (before : ∀ v ∈ acc, '\r' ∉ v.2.toList) :
    ∀ v ∈ (values.map valueNode).foldl replaceValue acc, '\r' ∉ v.2.toList := by
  induction values generalizing acc with
  | nil => exact before
  | cons w values ih =>
    refine ih fun v member => ?_
    rw [replaceValue_valueNode] at member
    split at member
    · exact before v member
    · rcases List.mem_cons.mp member with rfl | old
      · exact return_not_mem_normalized w.2
      · exact before v (List.mem_filter.mp old).1

theorem clean_reread {a : Attribute} (named : WellNamed a) : Clean (essence (reread a)) := by
  cases a with
  | single name value => exact ⟨take_attributeName named, return_not_mem_normalized value⟩
  | vector name values =>
    refine ⟨take_attributeName named.1, fun v member => ?_⟩
    exact return_not_mem_foldl (fun v none => absurd none List.not_mem_nil) v
      (mem_essence.mp member).1

theorem normalized_eq {value : String} (plain : '\r' ∉ value.toList) : normalized value = value := by
  unfold normalized
  rw [normalizeLines_eq plain, String.ofList_toList]

/-- Values of different names that have no returns are read as they were written. -/
theorem foldl_replaceValue_eq {values acc : List (String × String)}
    (plain : ∀ v ∈ values, '\r' ∉ v.2.toList) (unequal : (values.map Prod.fst).Nodup)
    (apart : ∀ v ∈ values, v.1 ∉ acc.map Prod.fst) :
    (values.map valueNode).foldl replaceValue acc =
      (values.filter fun v => v.2 ≠ "").reverse ++ acc := by
  induction values generalizing acc with
  | nil => rfl
  | cons w values ih =>
    obtain ⟨key, text⟩ := w
    have plain' : ∀ v ∈ values, '\r' ∉ v.2.toList := fun v member =>
      plain v (List.mem_cons_of_mem _ member)
    obtain ⟨other, unequal'⟩ := List.nodup_cons.mp unequal
    rw [List.map_cons, List.foldl_cons, replaceValue_valueNode]
    dsimp only
    split
    · rename_i empty
      rw [ih plain' unequal' fun v member => apart v (List.mem_cons_of_mem _ member),
        List.filter_cons_of_neg (by simpa using empty)]
    · rename_i nonempty
      have added : Attribute.replace acc key (normalized text) = (key, text) :: acc := by
        unfold Attribute.replace
        rw [normalized_eq (plain _ List.mem_cons_self)]
        refine congrArg ((key, text) :: ·) (List.filter_eq_self.mpr fun v member => ?_)
        refine decide_eq_true fun same => apart _ List.mem_cons_self ?_
        exact List.mem_map.mpr ⟨v, member, same⟩
      rw [added, ih plain' unequal', List.filter_cons_of_pos (by simpa using nonempty),
        List.reverse_cons, List.append_assoc]
      · rfl
      · intro v member within
        rcases List.mem_cons.mp within with same | old
        · exact other (same ▸ List.mem_map_of_mem member)
        · exact apart v (List.mem_cons_of_mem _ member) old

theorem essence_reread {a : Attribute} (named : WellNamed a) (kept : Kept a) :
    essence (reread a) = essence a := by
  cases a with
  | single name value =>
    obtain ⟨notXml, plain⟩ := kept
    have same : attributeName name = name := by
      rw [attributeName_of_isUpperName named, if_neg notXml]
    have read : reread (.single name value) = .single (attributeName name) (normalized value) := rfl
    rw [read, same, normalized_eq (plain_iff.mp plain).2]
  | vector name values =>
    obtain ⟨notXml, each⟩ := kept
    obtain ⟨upper, -, unequal, -⟩ := named
    have same : attributeName name = name := by
      rw [attributeName_of_isUpperName upper, if_neg notXml]
    have order : (ordered values).Perm values := List.perm_insertionSort _ values
    have read : ((ordered values).map valueNode).foldl replaceValue [] =
        ((ordered values).filter fun v => v.2 ≠ "").reverse ++ [] :=
      foldl_replaceValue_eq
        (fun v member => (plain_iff.mp (each v (mem_ordered.mp member)).2).2)
        ((order.map Prod.fst).nodup_iff.mpr unequal) fun v _ none => absurd none List.not_mem_nil
    have back : (((ordered values).filter fun v => v.2 ≠ "").reverse.filter
        fun v => v.2 ≠ "").Perm (values.filter fun v => v.2 ≠ "") := by
      rw [List.filter_reverse, List.filter_filter]
      refine (List.reverse_perm _).trans ?_
      simp only [Bool.and_self]
      exact order.filter _
    have left : essence (reread (.vector name values)) = (attributeName name, .inr
        (((((ordered values).map valueNode).foldl replaceValue []).filter fun v => v.2 ≠ "" :
          List (String × String)) : Multiset (String × String))) := rfl
    rw [left, same, read, List.append_nil]
    exact congrArg (fun held => (name, Sum.inr held)) (Multiset.coe_eq_coe.mpr back)

/-! ## The round trip -/

section RoundTrip

variable {xmlParseMemory : List Char → Option Node} {replaceMode : Bool} {xmlRoot : String}
  {tmpl : Template}

theorem fromXml_toXml (standard : Standard xmlParseMemory) (root : IsUpperName xmlRoot) :
    fromXml xmlParseMemory replaceMode ((toXml xmlRoot tmpl).flatMap Piece.text) =
      (document ((toXml xmlRoot tmpl).flatMap Piece.text)).map (rebuildAttributes replaceMode) := by
  obtain ⟨rest, text⟩ : ∃ rest, (toXml xmlRoot tmpl).flatMap Piece.text =
      '<' :: (xmlRoot.toList ++ rest) := by
    refine ⟨['>'] ++ (toXml xmlRoot tmpl).tail.flatMap Piece.text, ?_⟩
    rw [← List.append_assoc]
    rfl
  unfold fromXml
  rw [text, standard _ _ root.isName]

/-- A template that comes back has nothing in it that would be lost or changed. -/
theorem kept_of_roundTrips (standard : Standard xmlParseMemory) (root : IsUpperName xmlRoot)
    (named : ∀ a ∈ tmpl, WellNamed a)
    (comes : RoundTrips xmlParseMemory replaceMode xmlRoot tmpl) : ∀ a ∈ tmpl, Kept a := by
  obtain ⟨tmpl', read, same⟩ := comes
  rw [fromXml_toXml standard root] at read
  obtain ⟨node, taken, rfl⟩ := Option.map_eq_some_iff.mp read
  have full : totalSize tmpl ≤ node.weight :=
    (totalSize_perm same).ge.trans (totalSize_rebuild_le replaceMode node)
  have whole := allWhole_of_document root named taken full
  obtain ⟨keys, rfl⟩ := (document_toXml root named whole).mp taken
  have named' : ∀ a ∈ sorted tmpl, WellNamed a := fun a member => named a (mem_sorted.mp member)
  rw [rebuildAttributes_tree named'] at same
  intro a member
  refine (kept_iff (named a member)).mpr ⟨whole a member, keys a member, ?_⟩
  obtain ⟨b, among, is⟩ := List.mem_map.mp (same.mem_iff.mpr (List.mem_map_of_mem member))
  obtain ⟨c, within, rfl⟩ := List.mem_map.mp (setAll_sublist.subset among)
  exact is ▸ clean_reread (named' c within)

theorem roundTrips_of_kept (standard : Standard xmlParseMemory) (root : IsUpperName xmlRoot)
    (named : ∀ a ∈ tmpl, WellNamed a)
    (unequal : replaceMode = true → (tmpl.map Attribute.name).Nodup)
    (kept : ∀ a ∈ tmpl, Kept a) : RoundTrips xmlParseMemory replaceMode xmlRoot tmpl := by
  have whole : ∀ a ∈ tmpl, AllWhole a := fun a member =>
    ((kept_iff (named a member)).mp (kept a member)).1
  have keys : ∀ a ∈ tmpl, KeysNamed a := fun a member =>
    ((kept_iff (named a member)).mp (kept a member)).2.1
  have named' : ∀ a ∈ sorted tmpl, WellNamed a := fun a member => named a (mem_sorted.mp member)
  have same : ∀ a ∈ sorted tmpl, essence (reread a) = essence a := fun a member =>
    essence_reread (named' a member) (kept a (mem_sorted.mp member))
  have first : ∀ a, (essence a).1 = a.name := by
    intro a
    cases a <;> rfl
  have names : ((sorted tmpl).map reread).map Attribute.name = (sorted tmpl).map Attribute.name := by
    rw [List.map_map]
    refine List.map_congr_left fun a member => ?_
    have alike := congrArg Prod.fst (same a member)
    rw [first, first] at alike
    exact alike
  have all : setAll replaceMode ((sorted tmpl).map reread) = (sorted tmpl).map reread := by
    refine setAll_eq fun replaces => ?_
    rw [names]
    exact (((sorted_perm tmpl).map Attribute.name).nodup_iff).mpr (unequal replaces)
  refine ⟨(sorted tmpl).map reread, ?_, ?_⟩
  · rw [fromXml_toXml standard root, (document_toXml root named whole).mpr ⟨keys, rfl⟩,
      Option.map_some, rebuildAttributes_tree named', all]
  · rw [List.map_map]
    have alike : (sorted tmpl).map (essence ∘ reread) = (sorted tmpl).map essence :=
      List.map_congr_left same
    rw [alike]
    exact (sorted_perm tmpl).map essence

/-- A template from a text comes back with the attributes it had exactly when its names do not
begin with XML, the names of values do not begin with a digit, and its values are of characters
that XML allows, without returns and without the end of a section. -/
theorem roundTrips_iff_kept (standard : Standard xmlParseMemory) (root : IsUpperName xmlRoot)
    (statements : List Statement) :
    RoundTrips xmlParseMemory replaceMode xmlRoot (parse replaceMode statements) ↔
      ∀ a ∈ parse replaceMode statements, Kept a :=
  ⟨kept_of_roundTrips standard root (wellNamed_parse replaceMode statements),
    roundTrips_of_kept standard root (wellNamed_parse replaceMode statements)
      fun replaces => setAll_nodup replaces⟩

theorem word_of_all {text : String}
    (word : (text.toList.all fun c => c.isAlphanum || c = '_') = true) :
    ∀ c ∈ text.toList, c.isAlphanum = true ∨ c = '_' := by
  simpa using word

theorem plain_of_all {value : String} (legal : (value.toList.all fun c => isChar c && c ≠ '\r') = true)
    (ended : ¬ [']', ']', '>'] <:+: value.toList) : Plain value :=
  ⟨by simpa using legal, ended⟩

theorem isUpperName_template : IsUpperName "TEMPLATE" :=
  ⟨'T', ['E', 'M', 'P', 'L', 'A', 'T', 'E'], by decide, by decide, List.all_eq_true.mp (by decide)⟩

theorem roundTrips_iff_kept_disk :
    RoundTrips document true "TEMPLATE"
      (parse true [.single ⟨"name", by decide, word_of_all (by decide)⟩ ⟨"a < b", by decide⟩,
        .vector ⟨"disk", by decide, word_of_all (by decide)⟩
          (⟨"image", by decide, word_of_all (by decide)⟩, ⟨"ttylinux", by decide⟩) []]) := by
  refine (roundTrips_iff_kept (fun _ _ _ => rfl) isUpperName_template _).mpr fun a member => ?_
  have parsed : parse true
      [.single ⟨"name", by decide, word_of_all (by decide)⟩ ⟨"a < b", by decide⟩,
        .vector ⟨"disk", by decide, word_of_all (by decide)⟩
          (⟨"image", by decide, word_of_all (by decide)⟩, ⟨"ttylinux", by decide⟩) []] =
      [.single "NAME" "a < b", .vector "DISK" [("IMAGE", "ttylinux")]] := by
    decide +kernel
  rw [parsed] at member
  rcases List.mem_cons.mp member with rfl | member
  · exact ⟨by decide, plain_of_all (by decide) (by decide +kernel)⟩
  · cases List.mem_singleton.mp member
    refine ⟨by decide, fun v among => ?_⟩
    cases List.mem_singleton.mp among
    exact ⟨by decide, plain_of_all (by decide) (by decide +kernel)⟩

/-- What a template with a value that ends its section is read as. -/
def injected : Template := [.single "A" "x", .single "B" "y", .single "A" "z"]

/-- The value of A has the end of its section in it, and B is an attribute of the template that
is read. -/
theorem value_adds_attribute :
    parse false [.single ⟨"A", by decide, word_of_all (by decide)⟩
        ⟨"x]]></A><B><![CDATA[y]]></B><A><![CDATA[z", by decide⟩] =
      [.single "A" "x]]></A><B><![CDATA[y]]></B><A><![CDATA[z"] ∧
    fromXml document false ((toXml "TEMPLATE"
        [.single "A" "x]]></A><B><![CDATA[y]]></B><A><![CDATA[z"]).flatMap Piece.text) =
      some [.single "A" "x", .single "B" "y", .single "A" "z"] ∧
    Standard document ∧
    ¬ RoundTrips document false "TEMPLATE"
      [.single "A" "x]]></A><B><![CDATA[y]]></B><A><![CDATA[z"] := by
  have members : ∀ a ∈ injected,
      a = .single "A" "x" ∨ a = .single "B" "y" ∨ a = .single "A" "z" := by
    simp [injected]
  have named : ∀ a ∈ injected, WellNamed a := by
    intro a member
    rcases members a member with rfl | rfl | rfl
    · exact ⟨'A', [], by decide, by decide, List.all_eq_true.mp (by decide)⟩
    · exact ⟨'B', [], by decide, by decide, List.all_eq_true.mp (by decide)⟩
    · exact ⟨'A', [], by decide, by decide, List.all_eq_true.mp (by decide)⟩
  have whole : ∀ a ∈ injected, AllWhole a := by
    intro a member
    rcases members a member with rfl | rfl | rfl
    · exact (plain_iff.mp (plain_of_all (by decide) (by decide +kernel))).1
    · exact (plain_iff.mp (plain_of_all (by decide) (by decide +kernel))).1
    · exact (plain_iff.mp (plain_of_all (by decide) (by decide +kernel))).1
  have keys : ∀ a ∈ injected, KeysNamed a := by
    intro a member
    rcases members a member with rfl | rfl | rfl <;> trivial
  -- the text is the one that three attributes would be written as
  have text : (toXml "TEMPLATE"
      [.single "A" "x]]></A><B><![CDATA[y]]></B><A><![CDATA[z"]).flatMap Piece.text =
        (.openTag "TEMPLATE".toList :: (injected.flatMap attributeToXml ++
          [.closeTag "TEMPLATE".toList]) : List Piece).flatMap Piece.text := by
    decide +kernel
  have tree := (document_attributes isUpperName_template named whole).mpr ⟨keys, rfl⟩
  have back : injected.map reread = injected := by
    decide +kernel
  have read : fromXml document false ((toXml "TEMPLATE"
      [.single "A" "x]]></A><B><![CDATA[y]]></B><A><![CDATA[z"]).flatMap Piece.text) =
        some injected := by
    unfold fromXml
    rw [text, tree, Option.map_some, rebuildAttributes_tree named, back]
    rfl
  refine ⟨by decide +kernel, read, fun _ _ _ => rfl, ?_⟩
  rintro ⟨tmpl', again, same⟩
  rw [read] at again
  cases again
  cases same.length_eq

end RoundTrip

end TemplateXml

end Ezilla
