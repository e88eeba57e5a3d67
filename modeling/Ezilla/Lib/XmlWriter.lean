import Ezilla.Lib.XmlReader
import Mathlib.Data.List.TakeWhile

/-!
# Documents with attributes that are written without escaping

A writer that puts values between the quotes of attributes and into elements as they are. The
items that are meant are compared with those that are read.

* `Written`: what is written, its text and the items that are meant;
* `Quotable`, `Containable`: the values that stand for themselves;
* `content_texts_iff`: the items are read as they are meant if and only if all values are such.
-/

namespace Xml

/-- What is written. -/
inductive Written where
  | space (t : List Char)
  | empty (name : List Char) (attributes : List (List Char × List Char))
  | leaf (name : List Char) (attributes : List (List Char × List Char)) (value : List Char)
  | element (name : List Char) (attributes : List (List Char × List Char)) (children : List Written)

def attributeText (a : List Char × List Char) : List Char :=
  ' ' :: (a.1 ++ '=' :: '\'' :: (a.2 ++ ['\'']))

def attributesText (attributes : List (List Char × List Char)) : List Char :=
  attributes.flatMap attributeText

def endText (name : List Char) : List Char := '<' :: '/' :: (name ++ ['>'])

mutual

def Written.text : Written → List Char
  | .space t => t
  | .empty name attributes => '<' :: (name ++ (attributesText attributes ++ ['/', '>']))
  | .leaf name attributes value =>
    '<' :: (name ++ (attributesText attributes ++ '>' :: (value ++ endText name)))
  | .element name attributes children =>
    '<' :: (name ++ (attributesText attributes ++ '>' :: (texts children ++ endText name)))

def texts : List Written → List Char
  | [] => []
  | w :: ws => w.text ++ texts ws

end

mutual

/-- The items that are meant. -/
def Written.infos : Written → List Info
  | .space t => t.map .char
  | .empty name attributes => [.element name attributes []]
  | .leaf name attributes value => [.element name attributes (value.map .char)]
  | .element name attributes children => [.element name attributes (allInfos children)]

def allInfos : List Written → List Info
  | [] => []
  | w :: ws => w.infos ++ allInfos ws

end

/-! ## Values -/

def quotable (c : Char) : Bool :=
  c ≠ '\'' && c ≠ '&' && c ≠ '<' && (!isSpace c || c = ' ') && isChar c

/-- The values that are read between quotes as they are: no quote, no ampersand, no `<`, and no
other space than blanks. -/
def Quotable (v : List Char) : Prop := v.all quotable = true

def containable (c : Char) : Bool := c ≠ '&' && c ≠ '<' && c ≠ '\r' && isChar c

/-- The values that are read as text as they are: no ampersand, no `<`, no return, and not the end
of a CDATA section. -/
def Containable (v : List Char) : Prop :=
  v.all containable = true ∧ ¬ [']', ']', '>'] <:+: v

instance (v : List Char) : Decidable (Quotable v) := inferInstanceAs (Decidable (_ = _))

instance (v : List Char) : Decidable (Containable v) := inferInstanceAs (Decidable (_ ∧ _))

mutual

/-- The values between quotes. -/
def Written.quoted : Written → List (List Char)
  | .space _ => []
  | .empty _ attributes => attributes.map Prod.snd
  | .leaf _ attributes _ => attributes.map Prod.snd
  | .element _ attributes children => attributes.map Prod.snd ++ allQuoted children

def allQuoted : List Written → List (List Char)
  | [] => []
  | w :: ws => w.quoted ++ allQuoted ws

end

mutual

/-- The values in elements. -/
def Written.contained : Written → List (List Char)
  | .space _ => []
  | .empty _ _ => []
  | .leaf _ _ value => [value]
  | .element _ _ children => allContained children

def allContained : List Written → List (List Char)
  | [] => []
  | w :: ws => w.contained ++ allContained ws

end

/-- The name of a tag and the names of its attributes. -/
structure Named (name : List Char) (attributes : List (List Char × List Char)) : Prop where
  is_name : Scanner.IsName name
  keys : ∀ a ∈ attributes, Scanner.IsName a.1
  unequal : (attributes.map Prod.fst).Nodup

mutual

/-- Names are names, and what is between the tags is blanks, tabs and line feeds. -/
def Written.Regular : Written → Prop
  | .space t => ∀ c ∈ t, c = ' ' ∨ c = '\t' ∨ c = '\n'
  | .empty name attributes => Named name attributes
  | .leaf name attributes _ => Named name attributes
  | .element name attributes children => Named name attributes ∧ AllRegular children

def AllRegular : List Written → Prop
  | [] => True
  | w :: ws => w.Regular ∧ AllRegular ws

end

/-! ## Numbers -/

/-- The characters of numbers. -/
theorem digit_stands {c : Char} (digit : c.isDigit = true) :
    quotable c = true ∧ containable c = true ∧ c ≠ ']' := by
  have all : ∀ n < 10, quotable (Char.ofNat (48 + n)) = true ∧
      containable (Char.ofNat (48 + n)) = true ∧ Char.ofNat (48 + n) ≠ ']' := by decide
  have lower : 48 ≤ c.toNat := (Char.isDigit_iff_toNat.mp digit).1
  have upper : c.toNat ≤ 57 := (Char.isDigit_iff_toNat.mp digit).2
  have own := all (c.toNat - 48) (by omega)
  rwa [Nat.add_sub_cancel' lower, Char.ofNat_toNat] at own

theorem number_stands (i : Int) : ∀ c ∈ (toString i).toList,
    quotable c = true ∧ containable c = true ∧ c ≠ ']' := by
  have digits : ∀ n : Nat, ∀ c ∈ (toString n).toList,
      quotable c = true ∧ containable c = true ∧ c ≠ ']' := by
    intro n c member
    have text : (toString n).toList = Nat.toDigits 10 n := Nat.toList_repr
    rw [text] at member
    exact digit_stands (Nat.isDigit_of_mem_toDigits (by decide) (by decide) member)
  cases i with
  | ofNat n => exact digits n
  | negSucc n =>
    have text : (toString (Int.negSucc n)).toList = '-' :: (toString (n + 1)).toList := by
      have sign : toString (Int.negSucc n) = "-" ++ toString (n + 1) := rfl
      rw [sign, String.toList_append]
      rfl
    rw [text]
    exact List.forall_mem_cons.mpr ⟨by decide, digits (n + 1)⟩

theorem quotable_toString (i : Int) : Quotable (toString i).toList :=
  List.all_eq_true.mpr fun c member => (number_stands i c member).1

/-- A text without brackets does not end a section. -/
theorem containable_of_forall {v : List Char} (all : ∀ c ∈ v, containable c = true ∧ c ≠ ']') :
    Containable v := by
  refine ⟨List.all_eq_true.mpr fun c member => (all c member).1, fun ends => ?_⟩
  exact (all ']' (ends.subset List.mem_cons_self)).2 rfl

theorem containable_toString (i : Int) : Containable (toString i).toList :=
  containable_of_forall fun c member => (number_stands i c member).2

/-! ## Values that are read -/

section Values

variable {c d : Char} {v w t more rest : List Char}

theorem quotable_iff : quotable c = true ↔
    c ≠ '\'' ∧ c ≠ '&' ∧ c ≠ '<' ∧ (isSpace c = true → c = ' ') ∧ isChar c = true := by
  simp [quotable, and_assoc, imp_iff_not_or]

theorem decodeValue_length {n : Nat} (read : decodeValue n t = some v) : v.length ≤ t.length := by
  induction n generalizing t v with
  | zero =>
    cases t with
    | nil =>
      cases read
      exact Nat.le_refl 0
    | cons c cs => cases read
  | succ n ih =>
    cases t with
    | nil =>
      cases read
      exact Nat.le_refl 0
    | cons c cs =>
      obtain ⟨p, char, read⟩ := Option.bind_eq_some_iff.mp read
      obtain ⟨v', further, rfl⟩ := Option.map_eq_some_iff.mp read
      have shorter := length_readChar char
      have rest := ih further
      rw [List.length_cons]
      omega

/-- A value without quotes is read as it is just where it is quotable. -/
theorem decodeValue_self_iff {n : Nat} (enough : v.length ≤ n) (quote : '\'' ∉ v) :
    decodeValue n v = some v ↔ Quotable v := by
  induction n generalizing v with
  | zero =>
    cases v with
    | nil => exact iff_of_true rfl rfl
    | cons c cs => exact absurd enough (Nat.not_succ_le_zero _)
  | succ n ih =>
    cases v with
    | nil => exact iff_of_true rfl rfl
    | cons c cs =>
      rw [List.length_cons] at enough
      have other : c ≠ '\'' := fun same => quote (same ▸ List.mem_cons_self)
      have later := ih (Nat.le_of_succ_le_succ enough) fun member =>
        quote (List.mem_cons_of_mem c member)
      have split : Quotable (c :: cs) ↔ quotable c = true ∧ Quotable cs := by
        unfold Quotable
        rw [List.all_cons, Bool.and_eq_true]
      rw [split, quotable_iff, ← later]
      constructor
      · intro read
        obtain ⟨p, char, read⟩ := Option.bind_eq_some_iff.mp read
        obtain ⟨v', further, same⟩ := Option.map_eq_some_iff.mp read
        obtain ⟨first, rfl⟩ := List.cons.inj same
        have long := decodeValue_length further
        rcases readChar_cases char with ⟨t, is, reference⟩ | ⟨t, is, feed, shorter⟩ |
            ⟨is, ampersand, feed, less, legal⟩
        · -- a reference is longer than its character
          cases is
          have shorter := length_readReference reference
          omega
        · obtain ⟨rfl, rfl⟩ := List.cons.inj is
          rw [feed, if_pos ⟨by decide, by decide⟩] at first
          cases first
        · obtain ⟨rfl, rest_is⟩ := List.cons.inj is
          rw [← rest_is] at further
          refine ⟨⟨other, ampersand, less, fun space => ?_, legal⟩, further⟩
          rw [if_pos ⟨ampersand, space⟩] at first
          exact first.symm
      · intro ⟨⟨_, ampersand, less, blank, legal⟩, further⟩
        have feed : c ≠ '\r' := by
          rintro rfl
          exact absurd (blank rfl) (by decide)
        have char : readChar (c :: cs) = some (c, cs) := by
          rw [readChar, if_neg ampersand, if_neg feed, if_pos ⟨less, legal⟩]
        have same : (if c ≠ '&' ∧ isSpace c = true then ' ' else c) = c := by
          split
          · rename_i space
            exact (blank space.2).symm
          · rfl
        rw [decodeValue, char, Option.bind_some, further, Option.map_some, same]

theorem takeWhile_quote (none : '\'' ∉ v) (rest : List Char) :
    (v ++ '\'' :: rest).takeWhile (· ≠ '\'') = v ∧
      (v ++ '\'' :: rest).dropWhile (· ≠ '\'') = '\'' :: rest := by
  have before : ∀ c ∈ v, decide (c ≠ '\'') = true := by
    intro c member
    refine decide_eq_true fun same => ?_
    rw [same] at member
    exact none member
  constructor
  · rw [List.takeWhile_append_of_pos before, List.takeWhile_cons_of_neg (by decide), List.append_nil]
  · rw [List.dropWhile_append_of_pos before, List.dropWhile_cons_of_neg (by decide)]

/-- The value between quotes is what was written only if it is quotable. -/
theorem readQuoted_iff : readQuoted ('\'' :: (v ++ '\'' :: more)) = some (v, rest) ↔
    Quotable v ∧ rest = more := by
  rw [readQuoted, if_pos (Or.inr rfl)]
  by_cases quote : '\'' ∈ v
  · -- the value ends at its own quote
    have not_quotable : ¬ Quotable v := fun all =>
      absurd (List.all_eq_true.mp all _ quote) (by decide)
    refine iff_of_false (fun read => ?_) fun both => not_quotable both.1
    obtain ⟨x, y, rfl, none⟩ := List.eq_append_cons_of_mem quote
    obtain ⟨taken, dropped⟩ := takeWhile_quote none (y ++ '\'' :: more)
    rw [List.append_assoc, List.cons_append, taken, dropped] at read
    obtain ⟨w, decoded, same⟩ := Option.map_eq_some_iff.mp read
    have shorter := decodeValue_length decoded
    have is : w = x ++ '\'' :: y := congrArg Prod.fst same
    rw [is, List.length_append, List.length_cons] at shorter
    omega
  · obtain ⟨taken, dropped⟩ := takeWhile_quote quote more
    rw [taken, dropped, ← decodeValue_self_iff (Nat.le_refl v.length) quote]
    constructor
    · intro read
      obtain ⟨w, decoded, same⟩ := Option.map_eq_some_iff.mp read
      cases same
      exact ⟨decoded, rfl⟩
    · intro both
      obtain ⟨decoded, same⟩ := both
      rw [same]
      exact Option.map_eq_some_iff.mpr ⟨v, decoded, rfl⟩

end Values

/-! ## Tags that are read -/

section Tags

variable {name t more rest : List Char} {attributes : List (List Char × List Char)}
  {a : List Char × List Char} {n : Nat}

theorem readName_append {c : Char} (is : Scanner.IsName name) (other : isNameChar c = false)
    (rest : List Char) : readName (name ++ c :: rest) = some (name, c :: rest) := by
  obtain ⟨first, text, rfl, start, part⟩ := is
  have stop : ¬ isNameChar c = true := fun same => by
    rw [other] at same
    cases same
  rw [List.cons_append, readName, if_pos start, List.takeWhile_append_of_pos part,
    List.dropWhile_append_of_pos part, List.takeWhile_cons_of_neg stop,
    List.dropWhile_cons_of_neg stop, List.append_nil]

/-- The first character of a name ends no tag and is no space. -/
theorem name_start (is : Scanner.IsName name) : ∃ c text, name = c :: text ∧ isSpace c = false ∧
    c ≠ '>' ∧ c ≠ '/' ∧ c ≠ '!' ∧ c ≠ '?' := by
  obtain ⟨c, text, rfl, start, _⟩ := is
  have part := isNameChar_of_isNameStart start
  exact ⟨c, text, rfl, isSpace_of_isNameChar part, ne_of_isNameChar part (by decide),
    ne_of_isNameChar part (by decide), ne_of_isNameChar part (by decide),
    ne_of_isNameChar part (by decide)⟩

theorem readAttributes_cons (key : Scanner.IsName a.1) :
    readAttributes name (n + 1) (attributeText a ++ more) =
      (readQuoted ('\'' :: (a.2 ++ '\'' :: more))).bind fun value =>
        (readAttributes name n value.2).map fun tag =>
          { tag with attributes := (a.1, value.1) :: tag.attributes } := by
  have text : attributeText a ++ more = ' ' :: (a.1 ++ '=' :: '\'' :: (a.2 ++ '\'' :: more)) := by
    unfold attributeText
    simp only [List.cons_append, List.append_assoc, List.nil_append]
  obtain ⟨c, letters, is, space, greater, slash, _⟩ := name_start key
  have dropped : (' ' :: (a.1 ++ '=' :: '\'' :: (a.2 ++ '\'' :: more))).dropWhile isSpace =
      a.1 ++ '=' :: '\'' :: (a.2 ++ '\'' :: more) := by
    rw [List.dropWhile_cons_of_pos rfl, is, List.cons_append,
      List.dropWhile_cons_of_neg (by rw [space]; exact Bool.false_ne_true)]
  have no_end : ¬ (a.1 ++ '=' :: '\'' :: (a.2 ++ '\'' :: more)).head? = some '>' := by
    rw [is]
    intro same
    exact greater (Option.some.inj same)
  have not_empty : ¬ ['/', '>'] <+: a.1 ++ '=' :: '\'' :: (a.2 ++ '\'' :: more) := by
    rw [is]
    intro ⟨z, same⟩
    exact slash (List.cons.inj same).1.symm
  have spaced : (' ' :: (a.1 ++ '=' :: '\'' :: (a.2 ++ '\'' :: more))).head?.any isSpace = true :=
    rfl
  have value : ∀ t, readValue ('=' :: '\'' :: t) = readQuoted ('\'' :: t) := fun t => rfl
  rw [text, readAttributes, dropped, if_neg no_end, if_neg not_empty, if_pos spaced,
    readName_append key (by decide), Option.bind_some, value]

/-- The end of a start tag, or of the tag of an empty element. -/
def tagEnd (empty : Bool) : List Char := if empty then ['/', '>'] else ['>']

theorem readAttributes_end (empty : Bool) (rest : List Char) :
    readAttributes name (n + 1) (tagEnd empty ++ rest) = some ⟨name, [], empty, rest⟩ := by
  cases empty with
  | true => rfl
  | false => rfl

theorem readAttributes_text_iff {empty : Bool} {tag : Tag}
    (keys : ∀ a ∈ attributes, Scanner.IsName a.1) (same : tag.attributes = attributes)
    (enough : attributes.length < n) :
    readAttributes name n (attributesText attributes ++ (tagEnd empty ++ rest)) = some tag ↔
      (∀ a ∈ attributes, Quotable a.2) ∧ tag = ⟨name, attributes, empty, rest⟩ := by
  induction attributes generalizing n tag with
  | nil =>
    obtain ⟨n, rfl⟩ := Nat.exists_eq_succ_of_ne_zero (Nat.pos_iff_ne_zero.mp enough)
    have alone : attributesText [] ++ (tagEnd empty ++ rest) = tagEnd empty ++ rest := rfl
    rw [alone, readAttributes_end, Option.some_inj, eq_comm]
    exact (and_iff_right (fun _ member => absurd member List.not_mem_nil)).symm
  | cons a attributes ih =>
    obtain ⟨n, rfl⟩ := Nat.exists_eq_succ_of_ne_zero (Nat.pos_iff_ne_zero.mp (Nat.zero_lt_of_lt enough))
    rw [List.length_cons] at enough
    have split : attributesText (a :: attributes) ++ (tagEnd empty ++ rest) =
        attributeText a ++ (attributesText attributes ++ (tagEnd empty ++ rest)) := by
      unfold attributesText
      rw [List.flatMap_cons, List.append_assoc]
    have further : ∀ {tag : Tag}, tag.attributes = attributes → _ := fun same =>
      ih (fun a member => keys a (List.mem_cons_of_mem _ member)) same
        (Nat.lt_of_succ_lt_succ enough)
    rw [split, readAttributes_cons (keys a List.mem_cons_self)]
    constructor
    · intro read
      obtain ⟨value, quoted, read⟩ := Option.bind_eq_some_iff.mp read
      obtain ⟨tag', others, rfl⟩ := Option.map_eq_some_iff.mp read
      obtain ⟨first, last⟩ := List.cons.inj same
      obtain ⟨v, u⟩ := value
      have value_is : v = a.2 := congrArg Prod.snd first
      cases value_is
      obtain ⟨quotable, rfl⟩ := readQuoted_iff.mp quoted
      obtain ⟨all, rfl⟩ := (further last).mp others
      exact ⟨List.forall_mem_cons.mpr ⟨quotable, all⟩, rfl⟩
    · intro ⟨all, is⟩
      obtain ⟨first, later⟩ := List.forall_mem_cons.mp all
      rw [readQuoted_iff.mpr ⟨first, rfl⟩, Option.bind_some]
      refine Option.map_eq_some_iff.mpr ⟨_, (further rfl).mpr ⟨later, rfl⟩, ?_⟩
      rw [is]

theorem length_attributesText (attributes : List (List Char × List Char)) :
    attributes.length ≤ (attributesText attributes).length := by
  induction attributes with
  | nil => exact Nat.le_refl 0
  | cons a attributes ih =>
    have split : attributesText (a :: attributes) = attributeText a ++ attributesText attributes :=
      List.flatMap_cons
    have one : 1 ≤ (attributeText a).length := Nat.succ_pos _
    rw [split, List.length_append, List.length_cons]
    omega

/-- A tag is read with the attributes that are meant just where they are quotable. -/
theorem readTag_text_iff {empty : Bool} {tag : Tag} (named : Named name attributes)
    (same : tag.attributes = attributes) :
    readTag (name ++ (attributesText attributes ++ (tagEnd empty ++ rest))) = some tag ↔
      (∀ a ∈ attributes, Quotable a.2) ∧ tag = ⟨name, attributes, empty, rest⟩ := by
  have enough : attributes.length <
      (attributesText attributes ++ (tagEnd empty ++ rest)).length + 1 := by
    have long := length_attributesText attributes
    rw [List.length_append]
    omega
  obtain ⟨c, behind, is, other⟩ : ∃ c behind,
      attributesText attributes ++ (tagEnd empty ++ rest) = c :: behind ∧ isNameChar c = false := by
    cases attributes with
    | nil =>
      cases empty with
      | true => exact ⟨'/', _, rfl, by decide⟩
      | false => exact ⟨'>', _, rfl, by decide⟩
    | cons a attributes => exact ⟨' ', _, rfl, by decide⟩
  have read : readAttributes name _ (attributesText attributes ++ (tagEnd empty ++ rest)) =
      some tag ↔ _ := readAttributes_text_iff named.keys same enough
  unfold readTag
  rw [← read, is, readName_append named.is_name other, Option.bind_some]
  constructor
  · intro found
    obtain ⟨tag', attributes_are, found⟩ := Option.bind_eq_some_iff.mp found
    split at found
    · cases found
      exact attributes_are
    · cases found
  · intro found
    refine Option.bind_eq_some_iff.mpr ⟨tag, found, if_pos ?_⟩
    rw [same]
    exact named.unequal

theorem readEndTag_text (is : Scanner.IsName name) (rest : List Char) :
    readEndTag name (endText name ++ rest) = some rest := by
  have text : endText name ++ rest = '<' :: '/' :: (name ++ '>' :: rest) := by
    unfold endText
    rw [List.cons_append, List.cons_append, List.append_assoc, List.singleton_append]
  have starts : ['<', '/'] <+: '<' :: '/' :: (name ++ '>' :: rest) := ⟨_, rfl⟩
  have behind : ('<' :: '/' :: (name ++ '>' :: rest)).drop 2 = name ++ '>' :: rest := rfl
  rw [text, readEndTag, if_pos starts, behind, readName_append is (by decide), Option.bind_some]
  exact if_pos ⟨rfl, rfl⟩

end Tags

/-! ## Text that is read -/

section Text

variable {inside : Bool} {c d : Char} {v w t u more rest : List Char} {is : List Info} {i : Info}

theorem content_end (inside : Bool) (t : List Char) :
    content inside ('<' :: '/' :: t) = some ([], '<' :: '/' :: t) := by
  rw [content_eq, if_pos (Or.inr ⟨t, rfl⟩)]

theorem content_char (other : c ≠ '<') (t : List Char) : content inside (c :: t) =
    (readText inside (c :: t)).bind fun p =>
      (content inside p.2).map fun q => (p.1 :: q.1, q.2) := by
  have no_end : ¬ (c :: t = [] ∨ ['<', '/'] <+: c :: t) := by
    intro ends
    rcases ends with empty | ⟨z, same⟩
    · cases empty
    · exact other (List.cons.inj same).1.symm
  rw [content_eq, if_neg no_end, readItem, if_pos other]

theorem readAside_ne_char (read : readAside inside t = some (i, rest)) : i ≠ .char d := by
  unfold readAside at read
  split_ifs at read with comment cdata within instruction
  · obtain ⟨p, _, read⟩ := Option.bind_eq_some_iff.mp read
    split at read
    · cases read
      exact nofun
    · cases read
  · obtain ⟨p, _, same⟩ := Option.map_eq_some_iff.mp read
    cases same
    exact nofun
  · obtain ⟨p, _, read⟩ := Option.bind_eq_some_iff.mp read
    split at read
    · obtain ⟨u, _, same⟩ := Option.map_eq_some_iff.mp read
      cases same
      exact nofun
    · cases read

/-- Markup is no text. -/
theorem content_markup_ne_char (read : content inside ('<' :: t) = some (.char d :: is, rest)) :
    False := by
  rw [content_eq] at read
  split at read
  · cases read
  · obtain ⟨⟨i, u⟩, item, read⟩ := Option.bind_eq_some_iff.mp read
    obtain ⟨q, _, same⟩ := Option.map_eq_some_iff.mp read
    have is_char : i = .char d := (List.cons.inj (congrArg Prod.fst same)).1
    rw [readItem, if_neg (fun other => other rfl)] at item
    split at item
    · exact readAside_ne_char item is_char
    · obtain ⟨tag, _, item⟩ := Option.bind_eq_some_iff.mp item
      split at item
      · cases item
        cases is_char
      · obtain ⟨p, _, item⟩ := Option.bind_eq_some_iff.mp item
        obtain ⟨u, _, same⟩ := Option.map_eq_some_iff.mp item
        cases same
        cases is_char

theorem numbered_plain {base : Nat} {digits : List Char} (read : numbered base digits = some d) :
    '<' ∉ digits := by
  have stuck : ∀ {digits : List Char} {n m : Nat},
      digits.foldlM (fun n c => (digitValue base c).map (base * n + ·)) n = some m →
        '<' ∉ digits := by
    intro digits
    induction digits with
    | nil => exact fun _ => List.not_mem_nil
    | cons c digits ih =>
      intro n m read member
      rw [List.foldlM_cons] at read
      obtain ⟨k, first, further⟩ := Option.bind_eq_some_iff.mp read
      rcases List.mem_cons.mp member with same | later
      · have none : digitValue base '<' = none := if_neg (Nat.lt_irrefl base)
        rw [← same, none] at first
        cases first
      · exact ih further later
  unfold numbered at read
  split at read
  · cases read
  · obtain ⟨n, read, _⟩ := Option.bind_eq_some_iff.mp read
    exact stuck read

/-- A reference has no `<` in it. -/
theorem reference_plain {name : List Char} (read : reference name = some d) : '<' ∉ name := by
  unfold reference at read
  split at read
  · intro member
    rcases List.mem_cons.mp member with same | member
    · cases same
    rcases List.mem_cons.mp member with same | member
    · cases same
    exact numbered_plain read member
  · intro member
    rcases List.mem_cons.mp member with same | member
    · cases same
    exact numbered_plain read member
  · split_ifs at read with amp lt gt apos quot
    · rw [amp]
      decide
    · rw [lt]
      decide
    · rw [gt]
      decide
    · rw [apos]
      decide
    · rw [quot]
      decide

/-- A reference before `<` ends there. -/
theorem readReference_before (read : readReference (w ++ '<' :: more) = some (d, rest)) :
    ∃ name w', w = name ++ ';' :: w' ∧ rest = w' ++ '<' :: more := by
  unfold readReference at read
  by_cases ends : ';' ∈ w
  · obtain ⟨name, w', rfl, none⟩ := List.eq_append_cons_of_mem ends
    have before : ∀ c ∈ name, decide (c ≠ ';') = true := by
      intro c member
      refine decide_eq_true fun same => ?_
      rw [same] at member
      exact none member
    rw [List.append_assoc, List.cons_append, List.dropWhile_append_of_pos before,
      List.dropWhile_cons_of_neg (by decide)] at read
    obtain ⟨_, _, same⟩ := Option.map_eq_some_iff.mp read
    cases same
    exact ⟨name, w', rfl, rfl⟩
  · have before : ∀ c ∈ w, decide (c ≠ ';') = true := by
      intro c member
      refine decide_eq_true fun same => ?_
      rw [same] at member
      exact ends member
    split at read
    · cases read
    · obtain ⟨_, known, _⟩ := Option.map_eq_some_iff.mp read
      rw [List.takeWhile_append_of_pos before, List.takeWhile_cons_of_pos (by decide)] at known
      exact absurd (List.mem_append_right _ List.mem_cons_self) (reference_plain known)

/-- A character before `<` is read from what is before it; the rest is shorter where the character
does not stand for itself. -/
theorem readChar_before
    (read : readChar (c :: (w ++ '<' :: more)) = some (d, rest)) :
    ∃ w', rest = w' ++ '<' :: more ∧ w'.length ≤ w.length ∧
      (d = c → w'.length = w.length → w' = w ∧ containable c = true) := by
  rw [readChar] at read
  split_ifs at read with ampersand line feed plain
  · obtain ⟨name, w', rfl, rfl⟩ := readReference_before read
    rw [List.length_append, List.length_cons]
    refine ⟨w', rfl, by omega, fun _ long => ?_⟩
    omega
  · cases read
    cases w with
    | nil => cases feed
    | cons e w =>
      refine ⟨w, rfl, Nat.le_succ _, fun same => ?_⟩
      rw [line] at same
      cases same
  · cases read
    refine ⟨w, rfl, Nat.le_refl _, fun same => ?_⟩
    rw [line] at same
    cases same
  · cases read
    refine ⟨w, rfl, Nat.le_refl _, fun _ _ => ⟨rfl, ?_⟩⟩
    unfold containable
    simp [ampersand, line, plain.1, plain.2]

theorem content_char_before (other : c ≠ '<')
    (read : content true (c :: (w ++ '<' :: more)) = some (.char d :: is, rest)) :
    ∃ w', content true (w' ++ '<' :: more) = some (is, rest) ∧ w'.length ≤ w.length ∧
      (d = c → w'.length = w.length → w' = w ∧ containable c = true ∧
        ¬ [']', ']', '>'] <+: c :: (w ++ '<' :: more)) := by
  rw [content_char other] at read
  obtain ⟨⟨i, u⟩, text, read⟩ := Option.bind_eq_some_iff.mp read
  obtain ⟨⟨others, behind⟩, further, same⟩ := Option.map_eq_some_iff.mp read
  cases same
  unfold readText at text
  split at text
  · cases text
  · rename_i legal
    obtain ⟨⟨e, u'⟩, char, same⟩ := Option.map_eq_some_iff.mp text
    cases same
    obtain ⟨w', rfl, shorter, itself⟩ := readChar_before char
    refine ⟨w', further, shorter, fun same long => ?_⟩
    obtain ⟨rest_is, contained⟩ := itself same long
    exact ⟨rest_is, contained, fun closes => legal (Or.inl closes)⟩

/-- No more characters are read before an end tag than there are. -/
theorem length_of_content (read : content true (w ++ '<' :: '/' :: more) = some (v.map .char, rest)) :
    v.length ≤ w.length := by
  induction v generalizing w with
  | nil => exact Nat.zero_le _
  | cons d v ih =>
    cases w with
    | nil =>
      rw [List.nil_append, content_end] at read
      cases read
    | cons c w =>
      rcases eq_or_ne c '<' with rfl | other
      · exact (content_markup_ne_char read).elim
      · obtain ⟨w', further, shorter, _⟩ := content_char_before other read
        have less := ih further
        rw [List.length_cons, List.length_cons]
        omega

/-- A mark does not go over a character that it has not. -/
theorem prefix_before {mark : List Char} (none : c ∉ mark) (starts : mark <+: v ++ c :: rest) :
    mark <+: v := by
  induction v generalizing mark with
  | nil =>
    cases mark with
    | nil => exact List.prefix_refl []
    | cons m mark =>
      obtain ⟨z, same⟩ := starts
      exact absurd ((List.cons.inj same).1 ▸ List.mem_cons_self) none
  | cons d v ih =>
    cases mark with
    | nil => exact List.nil_prefix
    | cons m mark =>
      obtain ⟨rfl, later⟩ := List.cons_prefix_cons.mp starts
      exact List.cons_prefix_cons.mpr
        ⟨rfl, ih (fun member => none (List.mem_cons_of_mem m member)) later⟩

theorem containable_iff : containable c = true ↔
    c ≠ '&' ∧ c ≠ '<' ∧ c ≠ '\r' ∧ isChar c = true := by
  simp [containable, and_assoc]

/-- The text of an element is what was written only if it is containable. -/
theorem content_value_iff : content true (v ++ '<' :: '/' :: more) = some (v.map .char, rest) ↔
    Containable v ∧ rest = '<' :: '/' :: more := by
  induction v with
  | nil =>
    rw [List.nil_append, content_end, Option.some_inj]
    constructor
    · intro same
      exact ⟨⟨rfl, by decide⟩, (congrArg Prod.snd same).symm⟩
    · intro ⟨_, same⟩
      rw [same]
      rfl
  | cons c v ih =>
    have cons_iff : Containable (c :: v) ↔ containable c = true ∧
        ¬ [']', ']', '>'] <+: c :: v ∧ Containable v := by
      unfold Containable
      rw [List.all_cons, Bool.and_eq_true, List.infix_cons_iff, not_or]
      exact and_and_and_comm.trans ⟨fun h => ⟨h.1.1, h.1.2, h.2⟩, fun h => ⟨⟨h.1, h.2.1⟩, h.2.2⟩⟩
    rw [cons_iff]
    constructor
    · intro read
      rcases eq_or_ne c '<' with rfl | other
      · exact (content_markup_ne_char read).elim
      · obtain ⟨w', further, shorter, itself⟩ := content_char_before other read
        have long := length_of_content further
        obtain ⟨rfl, contained, closes⟩ := itself rfl (Nat.le_antisymm shorter long)
        obtain ⟨later, rest_is⟩ := ih.mp further
        exact ⟨⟨contained, fun ⟨z, same⟩ => closes ⟨z ++ '<' :: '/' :: more, by
          rw [← List.append_assoc, same, List.cons_append]⟩, later⟩, rest_is⟩
    · intro ⟨⟨contained, closes, later⟩, rest_is⟩
      obtain ⟨ampersand, less, feed, legal⟩ := containable_iff.mp contained
      have text : readText true (c :: (v ++ '<' :: '/' :: more)) =
          some (.char c, v ++ '<' :: '/' :: more) := by
        have inner : ¬ ([']', ']', '>'] <+: c :: (v ++ '<' :: '/' :: more) ∨ true = false ∧
            (c :: (v ++ '<' :: '/' :: more)).head?.any isSpace = false) := by
          intro wrong
          rcases wrong with mark | ⟨outside, _⟩
          · exact closes (prefix_before (by decide) mark)
          · cases outside
        rw [readText, if_neg inner, readChar, if_neg ampersand, if_neg feed, if_pos ⟨less, legal⟩]
        rfl
      rw [List.cons_append, content_char less, text, Option.bind_some, ih.mpr ⟨later, rest_is⟩]
      rfl

end Text

/-! ## Elements that are read -/

section Elements

variable {inside : Bool} {name t rest body : List Char}
  {attributes : List (List Char × List Char)} {is children : List Info}

theorem content_space_iff (spaces : ∀ c ∈ t, c = ' ' ∨ c = '\t' ∨ c = '\n') (u : List Char) :
    content inside (t ++ u) = some (t.map .char ++ is, rest) ↔ content inside u = some (is, rest) := by
  induction t with
  | nil => exact Iff.rfl
  | cons c t ih =>
    have space := spaces c List.mem_cons_self
    have read : content inside (c :: (t ++ u)) =
        (content inside (t ++ u)).map fun q => (.char c :: q.1, q.2) := by
      have less : c ≠ '<' := by
        rcases space with rfl | rfl | rfl
        · decide
        · decide
        · decide
      have text : readText inside (c :: (t ++ u)) = some (.char c, t ++ u) := by
        cases inside with
        | false =>
          rcases space with rfl | rfl | rfl
          · rfl
          · rfl
          · rfl
        | true =>
          rcases space with rfl | rfl | rfl
          · rfl
          · rfl
          · rfl
      rw [content_char less, text, Option.bind_some]
    rw [← ih fun d member => spaces d (List.mem_cons_of_mem c member), List.cons_append, read]
    constructor
    · intro found
      obtain ⟨⟨others, behind⟩, further, same⟩ := Option.map_eq_some_iff.mp found
      cases same
      exact further
    · intro further
      exact Option.map_eq_some_iff.mpr ⟨_, further, rfl⟩

theorem content_tag (named : Scanner.IsName name) (t : List Char) :
    content inside ('<' :: (name ++ t)) =
      ((readTag (name ++ t)).bind fun tag =>
        if tag.empty then some (.element tag.name tag.attributes [], tag.rest)
        else (content true tag.rest).bind fun p =>
          (readEndTag tag.name p.2).map fun u => (.element tag.name tag.attributes p.1, u)).bind
        fun p => (content inside p.2).map fun q => (p.1 :: q.1, q.2) := by
  obtain ⟨c, text, rfl, _, _, slash, bang, question⟩ := name_start named
  have no_end : ¬ ('<' :: (c :: text ++ t) = [] ∨ ['<', '/'] <+: '<' :: (c :: text ++ t)) := by
    intro ends
    rcases ends with empty | ⟨z, same⟩
    · cases empty
    · exact slash (List.cons.inj (List.cons.inj same).2).1.symm
  have tag : ¬ ((c :: text ++ t).head? = some '!' ∨ (c :: text ++ t).head? = some '?') := by
    intro aside
    rcases aside with same | same
    · exact bang (Option.some.inj same)
    · exact question (Option.some.inj same)
  rw [content_eq, if_neg no_end, readItem, if_neg (fun other => other rfl), if_neg tag]

/-- An element has the attributes of its tag. -/
theorem attributes_of_item {tag : Tag} (item : (if tag.empty then
      some (Info.element tag.name tag.attributes [], tag.rest)
    else (content true tag.rest).bind fun p =>
      (readEndTag tag.name p.2).map fun u => (Info.element tag.name tag.attributes p.1, u)) =
        some (.element name attributes children, t)) : tag.attributes = attributes := by
  split at item
  · cases item
    rfl
  · obtain ⟨⟨kids, u⟩, _, item⟩ := Option.bind_eq_some_iff.mp item
    obtain ⟨_, _, same⟩ := Option.map_eq_some_iff.mp item
    cases same
    rfl

theorem content_empty_iff (named : Named name attributes) (u : List Char) :
    content inside ('<' :: (name ++ (attributesText attributes ++ '/' :: '>' :: u))) =
        some (.element name attributes [] :: is, rest) ↔
      (∀ a ∈ attributes, Quotable a.2) ∧ content inside u = some (is, rest) := by
  have text : '/' :: '>' :: u = tagEnd true ++ u := rfl
  rw [content_tag named.is_name, text]
  constructor
  · intro read
    obtain ⟨⟨i, v⟩, item, read⟩ := Option.bind_eq_some_iff.mp read
    obtain ⟨⟨others, behind⟩, further, same⟩ := Option.map_eq_some_iff.mp read
    cases same
    obtain ⟨tag, tagged, item⟩ := Option.bind_eq_some_iff.mp item
    obtain ⟨quotable, rfl⟩ := (readTag_text_iff named (attributes_of_item item)).mp tagged
    cases item
    exact ⟨quotable, further⟩
  · intro ⟨quotable, further⟩
    rw [(readTag_text_iff named rfl).mpr ⟨quotable, rfl⟩, Option.bind_some, if_pos rfl,
      Option.bind_some, further]
    rfl

theorem content_element_iff (named : Named name attributes) :
    content inside ('<' :: (name ++ (attributesText attributes ++ '>' :: body))) =
        some (.element name attributes children :: is, rest) ↔
      (∀ a ∈ attributes, Quotable a.2) ∧ ∃ u v, content true body = some (children, u) ∧
        readEndTag name u = some v ∧ content inside v = some (is, rest) := by
  have text : '>' :: body = tagEnd false ++ body := rfl
  rw [content_tag named.is_name, text]
  constructor
  · intro read
    obtain ⟨⟨i, v⟩, item, read⟩ := Option.bind_eq_some_iff.mp read
    obtain ⟨⟨others, behind⟩, further, same⟩ := Option.map_eq_some_iff.mp read
    cases same
    obtain ⟨tag, tagged, item⟩ := Option.bind_eq_some_iff.mp item
    obtain ⟨quotable, rfl⟩ := (readTag_text_iff named (attributes_of_item item)).mp tagged
    rw [if_neg Bool.false_ne_true] at item
    obtain ⟨⟨kids, u⟩, within, item⟩ := Option.bind_eq_some_iff.mp item
    obtain ⟨v', ended, same⟩ := Option.map_eq_some_iff.mp item
    cases same
    exact ⟨quotable, u, v, within, ended, further⟩
  · intro ⟨quotable, u, v, within, ended, further⟩
    rw [(readTag_text_iff named rfl).mpr ⟨quotable, rfl⟩, Option.bind_some,
      if_neg Bool.false_ne_true, within, Option.bind_some, ended, Option.map_some,
      Option.bind_some, further]
    rfl

/-- An element whose body ends with its own end tag. -/
theorem content_closed_iff (named : Named name attributes) {inner : List Char} {ok : Prop}
    (within : ∀ {u}, content true (inner ++ (endText name ++ t)) = some (children, u) ↔
      ok ∧ u = endText name ++ t) :
    content inside ('<' :: (name ++ (attributesText attributes ++ '>' :: (inner ++ endText name))) ++
        t) = some (.element name attributes children :: is, rest) ↔
      (∀ a ∈ attributes, Quotable a.2) ∧ ok ∧ content inside t = some (is, rest) := by
  have text : '<' :: (name ++ (attributesText attributes ++ '>' :: (inner ++ endText name))) ++ t =
      '<' :: (name ++ (attributesText attributes ++ '>' :: (inner ++ (endText name ++ t)))) := by
    simp only [List.cons_append, List.append_assoc]
  rw [text, content_element_iff named]
  refine and_congr_right fun _ => ?_
  constructor
  · intro ⟨u, v, found, ended, further⟩
    obtain ⟨good, rfl⟩ := within.mp found
    rw [readEndTag_text named.is_name] at ended
    cases ended
    exact ⟨good, further⟩
  · intro ⟨good, further⟩
    exact ⟨_, _, within.mpr ⟨good, rfl⟩, readEndTag_text named.is_name t, further⟩

end Elements

mutual

theorem content_text_iff {inside : Bool} {is : List Info} {rest : List Char} (tail : List Char) :
    (w : Written) → w.Regular →
      (content inside (w.text ++ tail) = some (w.infos ++ is, rest) ↔
        (∀ v ∈ w.quoted, Quotable v) ∧ (∀ v ∈ w.contained, Containable v) ∧
          content inside tail = some (is, rest))
  | .space t, regular => by
    have none : ∀ {p : List Char → Prop}, ∀ v ∈ ([] : List (List Char)), p v := fun _ member =>
      absurd member List.not_mem_nil
    exact (content_space_iff regular tail).trans
      ((and_iff_right none).trans (and_iff_right none)).symm
  | .empty name attributes, regular => by
    have text : (Written.empty name attributes).text ++ tail =
        '<' :: (name ++ (attributesText attributes ++ '/' :: '>' :: tail)) := by
      rw [Written.text]
      simp only [List.cons_append, List.append_assoc, List.nil_append]
    have none : ∀ v ∈ (Written.empty name attributes).contained, Containable v := fun _ member =>
      absurd member List.not_mem_nil
    rw [text, and_iff_right none, Written.quoted, List.forall_mem_map]
    exact content_empty_iff regular tail
  | .leaf name attributes value, regular => by
    rw [Written.quoted, Written.contained, List.forall_mem_map, List.forall_mem_singleton]
    exact content_closed_iff regular content_value_iff
  | .element name attributes children, regular => by
    have within : ∀ {u}, content true (texts children ++ (endText name ++ tail)) =
        some (allInfos children, u) ↔
          ((∀ v ∈ allQuoted children, Quotable v) ∧ ∀ v ∈ allContained children, Containable v) ∧
            u = endText name ++ tail := by
      intro u
      have inner := @content_texts_iff true [] u (endText name ++ tail) children regular.2
      have ended : content true (endText name ++ tail) = some ([], endText name ++ tail) :=
        content_end true _
      rw [List.append_nil, ended, Option.some_inj, Prod.mk.injEq] at inner
      rw [inner, and_assoc, @eq_comm _ u, and_iff_right rfl]
    rw [Written.quoted, Written.contained, List.forall_mem_append, List.forall_mem_map]
    refine (content_closed_iff regular.1 within).trans ?_
    tauto

/-- The items of a text are those that are meant if and only if every value stands for itself. -/
theorem content_texts_iff {inside : Bool} {is : List Info} {rest : List Char} (tail : List Char) :
    (ws : List Written) → AllRegular ws →
      (content inside (texts ws ++ tail) = some (allInfos ws ++ is, rest) ↔
        (∀ v ∈ allQuoted ws, Quotable v) ∧ (∀ v ∈ allContained ws, Containable v) ∧
          content inside tail = some (is, rest))
  | [], _ => by
    have none : ∀ {p : List Char → Prop}, ∀ v ∈ ([] : List (List Char)), p v := fun _ member =>
      absurd member List.not_mem_nil
    exact ((and_iff_right none).trans (and_iff_right none)).symm
  | w :: ws, regular => by
    rw [texts, allInfos, allQuoted, allContained, List.append_assoc, List.append_assoc,
      List.forall_mem_append, List.forall_mem_append,
      content_text_iff (texts ws ++ tail) w regular.1, content_texts_iff tail ws regular.2]
    tauto

end

/-! ## Documents -/

section Documents

variable {name t tail rest : List Char} {attributes : List (List Char × List Char)}
  {children : List Written} {is others : List Info}

theorem content_tag_head {inside : Bool} (named : Scanner.IsName name)
    (read : content inside ('<' :: (name ++ t)) = some (is, rest)) :
    ∃ n a kids behind, is = .element n a kids :: behind := by
  rw [content_tag named] at read
  obtain ⟨⟨i, v⟩, item, read⟩ := Option.bind_eq_some_iff.mp read
  obtain ⟨⟨behind, u⟩, _, same⟩ := Option.map_eq_some_iff.mp read
  cases same
  obtain ⟨tag, _, item⟩ := Option.bind_eq_some_iff.mp item
  split at item
  · cases item
    exact ⟨_, _, _, _, rfl⟩
  · obtain ⟨p, _, item⟩ := Option.bind_eq_some_iff.mp item
    obtain ⟨_, _, same⟩ := Option.map_eq_some_iff.mp item
    cases same
    exact ⟨_, _, _, _, rfl⟩

/-- A document of one element is read as it is meant if and only if every value stands for itself;
the end of its content may be written by others. -/
theorem information_iff (named : Named name attributes) (regular : AllRegular children)
    (last : content true tail = some (others, endText name ++ ['\n'])) :
    information ('<' :: (name ++ (attributesText attributes ++ '>' :: (texts children ++ tail)))) =
        some (.element name attributes (allInfos children ++ others)) ↔
      (∀ a ∈ attributes, Quotable a.2) ∧ (∀ v ∈ allQuoted children, Quotable v) ∧
        ∀ v ∈ allContained children, Containable v := by
  unfold information
  constructor
  · intro read
    obtain ⟨⟨is, rest⟩, found, read⟩ := Option.bind_eq_some_iff.mp read
    obtain ⟨n, a, kids, behind, rfl⟩ := content_tag_head named.is_name found
    dsimp only at read
    split at read
    · rename_i rest_is roots
      cases read
      have first : Info.element n a kids = .element name attributes (allInfos children ++ others) := by
        rw [List.filter_cons_of_pos rfl] at roots
        exact (List.cons.inj roots).1
      rw [first] at found
      obtain ⟨quotable, u, v, within, _⟩ := (content_element_iff named).mp found
      obtain ⟨quoted, contained, _⟩ := (content_texts_iff tail children regular).mp within
      exact ⟨quotable, quoted, contained⟩
    · cases read
  · intro ⟨quotable, quoted, contained⟩
    have within := (content_texts_iff tail children regular).mpr ⟨quoted, contained, last⟩
    have line : content false ['\n'] = some ([.char '\n'], []) := rfl
    rw [(content_element_iff named).mpr ⟨quotable, _, _, within,
      readEndTag_text named.is_name ['\n'], line⟩]
    rfl

end Documents

/-! ## Outlines -/

/-- The ends of an element in an outline. -/
inductive Mark where
  | opens (name : List Char) (keys : List (List Char))
  | closes
  deriving DecidableEq

mutual

/-- The tree of the elements and of the names of their attributes, without any values. -/
def Info.outline : Info → List Mark
  | .element name attributes children =>
    .opens name (attributes.map Prod.fst) :: (outlines children ++ [.closes])
  | .char _ => []
  | .cdata _ => []
  | .comment => []
  | .instruction => []

def outlines : List Info → List Mark
  | [] => []
  | i :: is => i.outline ++ outlines is

end

theorem outlines_append (is is' : List Info) :
    outlines (is ++ is') = outlines is ++ outlines is' := by
  induction is with
  | nil => rfl
  | cons i is ih => rw [List.cons_append, outlines, outlines, ih, List.append_assoc]

theorem outlines_text (t : List Char) : outlines (t.map .char) = [] := by
  induction t with
  | nil => rfl
  | cons c t ih =>
    rw [List.map_cons, outlines, ih]
    rfl

theorem allInfos_append (ws ws' : List Written) : allInfos (ws ++ ws') = allInfos ws ++ allInfos ws' := by
  induction ws with
  | nil => rfl
  | cons w ws ih => rw [List.cons_append, allInfos, allInfos, ih, List.append_assoc]

end Xml
