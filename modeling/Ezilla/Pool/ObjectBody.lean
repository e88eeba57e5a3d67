import Ezilla.Lib.XmlWriter
import Ezilla.Template

/-!
# Bodies of objects

The row of an object has columns for its name and owner, and a body: an XML document that also
holds them. The columns are for look-ups; an object that is read from the database is made from
its body. Names are put into the body as they are, so a name with markup may be read back as
another one, or leave no document at all.

* `NamedObject.toXml`: the body of an object;
* `NamedObject.fromXml`: what is read of a body;
* `NamedObject.readsBack_of_containable`: a name without markup is read back as it was written.
-/

namespace Xml

mutual

/-- `xmlNodeGetContent`: the text of an item and of all that it holds. -/
def Info.text : Info → List Char
  | .element _ _ children => contentText children
  | .char c => [c]
  | .cdata content => content
  | .comment => []
  | .instruction => []

def contentText : List Info → List Char
  | [] => []
  | i :: is => i.text ++ contentText is

end

theorem contentText_char (t : List Char) : contentText (t.map .char) = t := by
  induction t with
  | nil => rfl
  | cons c t ih =>
    rw [List.map_cons, contentText, ih]
    rfl

/-- The text of an element of this name. -/
def Info.elementText (name : List Char) : Info → Option (List Char)
  | .element tag _ children => if tag = name then some (contentText children) else none
  | _ => none

/-- The first element of this name in a root of that name, as the path `/root/name` finds it. -/
def Info.childText (root name : List Char) : Info → Option (List Char)
  | .element tag _ children => if tag = root then children.findSome? (elementText name) else none
  | _ => none

end Xml

namespace Ezilla

/-- What the table of a pool knows of an object. -/
structure NamedObject where
  name : String
  uid : Int
  gid : Int
  deriving DecidableEq, Repr

/-- The columns of `UNIQUE(name, uid)`. -/
def NamedObject.key (o : NamedObject) : String × Int := (o.name, o.uid)

/-- The rest of a body: the names of the owner and the group, and all elements behind the name. -/
structure ObjectData where
  uname : List Char
  gname : List Char
  rest : List Char

/-- An element around a text that is not escaped. -/
def xmlElement (tag text : List Char) : List Char :=
  '<' :: tag ++ '>' :: text ++ ['<', '/'] ++ tag ++ ['>']

namespace NamedObject

/-- `VirtualNetwork::to_xml` and `Image::to_xml`, with the roots `VNET` and `IMAGE`. -/
def toXml (root : List Char) (oid : Nat) (o : NamedObject) (data : ObjectData) : List Char :=
  xmlElement root (xmlElement ['I', 'D'] (toString oid).toList ++
    xmlElement ['U', 'I', 'D'] (toString o.uid).toList ++
    xmlElement ['G', 'I', 'D'] (toString o.gid).toList ++
    xmlElement ['U', 'N', 'A', 'M', 'E'] data.uname ++
    xmlElement ['G', 'N', 'A', 'M', 'E'] data.gname ++
    xmlElement ['N', 'A', 'M', 'E'] o.name.toList ++ data.rest)

/-- The id and the object in a body: `from_xml`, as far as the columns are concerned. -/
def fromXml (root body : List Char) : Option (Int × NamedObject) :=
  (Xml.information body).bind fun info =>
    let text (name : List Char) : Option String := (info.childText root name).map String.ofList
    ((text ['I', 'D']).bind readInt).bind fun oid =>
      ((text ['U', 'I', 'D']).bind readInt).bind fun uid =>
        ((text ['G', 'I', 'D']).bind readInt).bind fun gid =>
          (text ['N', 'A', 'M', 'E']).map fun name => (oid, ⟨name, uid, gid⟩)

/-- `validate_xml`. -/
def isXml (body : List Char) : Bool := (Xml.information body).isSome

/-- The object is read from its body as it was written. -/
def ReadsBack (root : List Char) (oid : Nat) (o : NamedObject) (data : ObjectData) : Prop :=
  fromXml root (o.toXml root oid data) = some ((oid : Int), o)

instance (root : List Char) (oid : Nat) (o : NamedObject) (data : ObjectData) :
    Decidable (o.ReadsBack root oid data) := inferInstanceAs (Decidable (_ = _))

/-- The elements of a body up to the name. -/
def written (oid : Nat) (o : NamedObject) (data : ObjectData) : List Xml.Written :=
  [.leaf ['I', 'D'] [] (toString oid).toList, .leaf ['U', 'I', 'D'] [] (toString o.uid).toList,
    .leaf ['G', 'I', 'D'] [] (toString o.gid).toList, .leaf ['U', 'N', 'A', 'M', 'E'] [] data.uname,
    .leaf ['G', 'N', 'A', 'M', 'E'] [] data.gname, .leaf ['N', 'A', 'M', 'E'] [] o.name.toList]

theorem toXml_eq {root : List Char} {oid : Nat} {o : NamedObject} {data : ObjectData} :
    o.toXml root oid data = '<' :: (root ++ (Xml.attributesText [] ++ '>' ::
      (Xml.texts (o.written oid data) ++ (data.rest ++ Xml.endText root)))) := by
  simp only [toXml, xmlElement, written, Xml.texts, Xml.Written.text, Xml.attributesText,
    Xml.endText, List.flatMap_nil, List.nil_append, List.append_assoc, List.cons_append,
    List.append_nil]

theorem readInt_toString {i : Int} (range : -2 ^ 31 ≤ i ∧ i < 2 ^ 31) :
    readInt (String.ofList (Xml.contentText ((toString i).toList.map .char))) = some i := by
  rw [Xml.contentText_char, String.ofList_toList]
  exact readInt_of_parseInt (parseInt_toString_int range.1 range.2)

/-- An object is read back from its body if the names are plain text and the rest of the body is
well formed. -/
theorem readsBack_of_containable {root : List Char} {oid : Nat} {o : NamedObject}
    {data : ObjectData} {others : List Xml.Info} (is_name : Xml.Scanner.IsName root)
    (uname : Xml.Containable data.uname) (gname : Xml.Containable data.gname)
    (name : Xml.Containable o.name.toList) (small : oid < 2 ^ 31)
    (uid : -2 ^ 31 ≤ o.uid ∧ o.uid < 2 ^ 31) (gid : -2 ^ 31 ≤ o.gid ∧ o.gid < 2 ^ 31)
    (rest : Xml.content true (data.rest ++ Xml.endText root) = some (others, Xml.endText root)) :
    o.ReadsBack root oid data := by
  have named (tag : List Char) (letters : Xml.Scanner.IsName tag) : Xml.Named tag [] :=
    ⟨letters, fun _ member => absurd member List.not_mem_nil, List.nodup_nil⟩
  have regular : Xml.AllRegular (o.written oid data) := by
    refine ⟨named _ ?_, named _ ?_, named _ ?_, named _ ?_, named _ ?_, named _ ?_, trivial⟩ <;>
      exact ⟨_, _, rfl, by decide, List.all_eq_true.mp (by decide)⟩
  have quoted : ∀ v ∈ Xml.allQuoted (o.written oid data), Xml.Quotable v :=
    fun _ member => absurd member List.not_mem_nil
  have contained : ∀ v ∈ Xml.allContained (o.written oid data), Xml.Containable v := by
    refine List.forall_mem_cons.mpr ⟨Xml.containable_toString (oid : Int), ?_⟩
    refine List.forall_mem_cons.mpr ⟨Xml.containable_toString o.uid, ?_⟩
    refine List.forall_mem_cons.mpr ⟨Xml.containable_toString o.gid, ?_⟩
    refine List.forall_mem_cons.mpr ⟨uname, List.forall_mem_cons.mpr ⟨gname, ?_⟩⟩
    exact List.forall_mem_cons.mpr ⟨name, fun _ member => absurd member List.not_mem_nil⟩
  have within := (Xml.content_texts_iff _ _ regular).mpr ⟨quoted, contained, rest⟩
  have ended := Xml.readEndTag_text is_name []
  rw [List.append_nil] at ended
  have document : Xml.information (o.toXml root oid data) =
      some (.element root [] (Xml.allInfos (o.written oid data) ++ others)) := by
    rw [toXml_eq, Xml.information, (Xml.content_element_iff (named root is_name)).mpr
      ⟨fun _ member => absurd member List.not_mem_nil, _, _, within, ended, rfl⟩]
    rfl
  have child (tag : List Char) :
      (Xml.Info.element root [] (Xml.allInfos (o.written oid data) ++ others)).childText root tag =
        (Xml.allInfos (o.written oid data) ++ others).findSome? (Xml.Info.elementText tag) :=
    if_pos rfl
  have id_text : (Xml.allInfos (o.written oid data) ++ others).findSome?
      (Xml.Info.elementText ['I', 'D']) =
        some (Xml.contentText ((toString (oid : Int)).toList.map .char)) := rfl
  have uid_text : (Xml.allInfos (o.written oid data) ++ others).findSome?
      (Xml.Info.elementText ['U', 'I', 'D']) =
        some (Xml.contentText ((toString o.uid).toList.map .char)) := rfl
  have gid_text : (Xml.allInfos (o.written oid data) ++ others).findSome?
      (Xml.Info.elementText ['G', 'I', 'D']) =
        some (Xml.contentText ((toString o.gid).toList.map .char)) := rfl
  have name_text : (Xml.allInfos (o.written oid data) ++ others).findSome?
      (Xml.Info.elementText ['N', 'A', 'M', 'E']) =
        some (Xml.contentText (o.name.toList.map .char)) := rfl
  have oid_read : readInt (String.ofList (Xml.contentText
      ((toString (oid : Int)).toList.map .char))) = some (oid : Int) :=
    readInt_toString ⟨by omega, by omega⟩
  unfold ReadsBack fromXml
  rw [document, Option.bind_some]
  dsimp only
  rw [child, child, child, child, id_text, uid_text, gid_text, name_text, Option.map_some,
    Option.bind_some, oid_read, Option.bind_some, Option.map_some, Option.bind_some,
    readInt_toString uid, Option.bind_some, Option.map_some, Option.bind_some,
    readInt_toString gid, Option.bind_some, Option.map_some, Option.map_some, Xml.contentText_char,
    String.ofList_toList]

end NamedObject

end Ezilla
