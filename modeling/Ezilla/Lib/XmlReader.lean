import Ezilla.Lib.XmlScanner

/-!
# A reader for XML documents with attributes

The information items of a document of one element, as XML 1.0 defines them: elements with their
attributes, and one item for each character of text. A document has no prolog here.

* `readChar`: a character of text or of a value, where references are replaced and line ends are
  line feeds;
* `readValue`, `readTag`: the attributes of a tag, whose spaces are blanks;
* `readContent`, `content`: the items up to an end tag, with some fuel and with enough of it;
* `content_eq`: one item after the other;
* `information`: the root element of a document, `none` where it is not well formed.
-/

namespace Xml

/-- An information item. The content of comments and instructions is left out, and CDATA sections
are kept apart from other text. -/
inductive Info where
  | element (name : List Char) (attributes : List (List Char × List Char)) (children : List Info)
  | char (c : Char)
  | cdata (content : List Char)
  | comment
  | instruction

/-! ## Characters and values -/

/-- The character of a reference, behind the ampersand, and the text behind it. -/
def readReference (t : List Char) : Option (Char × List Char) :=
  match t.dropWhile (· ≠ ';') with
  | [] => none
  | _ :: rest => (reference (t.takeWhile (· ≠ ';'))).map (·, rest)

/-- A character of text or of a value, and the text behind it. -/
def readChar : List Char → Option (Char × List Char)
  | [] => none
  | c :: cs =>
    if c = '&' then readReference cs
    else if c = '\r' then some ('\n', if cs.head? = some '\n' then cs.tail else cs)
    else if c ≠ '<' ∧ isChar c then some (c, cs)
    else none

/-- Section 3.3.3: the characters of a value, where spaces are blanks. -/
def decodeValue : Nat → List Char → Option (List Char)
  | _, [] => some []
  | 0, _ :: _ => none
  | n + 1, c :: cs => (readChar (c :: cs)).bind fun p =>
    (decodeValue n p.2).map ((if c ≠ '&' ∧ isSpace p.1 then ' ' else p.1) :: ·)

/-! ## Tags -/

/-- Production 5, and the text behind the name. -/
def readName : List Char → Option (List Char × List Char)
  | [] => none
  | c :: cs =>
    if isNameStart c then some (c :: cs.takeWhile isNameChar, cs.dropWhile isNameChar) else none

/-- Production 10, and the text behind the value. -/
def readQuoted : List Char → Option (List Char × List Char)
  | [] => none
  | q :: t =>
    if q = '"' ∨ q = '\'' then
      match t.dropWhile (· ≠ q) with
      | [] => none
      | _ :: rest =>
        let raw := t.takeWhile (· ≠ q)
        (decodeValue raw.length raw).map (·, rest)
    else none

/-- The equals sign and the value of an attribute. -/
def readValue (t : List Char) : Option (List Char × List Char) :=
  match t.dropWhile isSpace with
  | [] => none
  | c :: u => if c = '=' then readQuoted (u.dropWhile isSpace) else none

/-- A start tag, or the tag of an empty element, and the text behind it. -/
structure Tag where
  name : List Char
  attributes : List (List Char × List Char)
  empty : Bool
  rest : List Char

/-- The attributes behind a name and the end of the tag. -/
def readAttributes (name : List Char) : Nat → List Char → Option Tag
  | 0, _ => none
  | n + 1, t =>
    let u := t.dropWhile isSpace
    if u.head? = some '>' then some ⟨name, [], false, u.drop 1⟩
    else if ['/', '>'] <+: u then some ⟨name, [], true, u.drop 2⟩
    else if t.head?.any isSpace then
      (readName u).bind fun key => (readValue key.2).bind fun value =>
        (readAttributes name n value.2).map fun tag =>
          { tag with attributes := (key.1, value.1) :: tag.attributes }
    else none

/-- A tag behind `<`; no attribute comes twice. -/
def readTag (t : List Char) : Option Tag :=
  (readName t).bind fun name => (readAttributes name.1 (name.2.length + 1) name.2).bind fun tag =>
    if (tag.attributes.map Prod.fst).Nodup then some tag else none

/-- The text behind the end tag of an element. -/
def readEndTag (name t : List Char) : Option (List Char) :=
  if ['<', '/'] <+: t then
    (readName (t.drop 2)).bind fun p =>
      let u := p.2.dropWhile isSpace
      if p.1 = name ∧ u.head? = some '>' then some (u.drop 1) else none
  else none

/-! ## Content -/

/-- The legal text before a mark, and the text behind it. -/
def readThrough (mark : List Char) : List Char → Option (List Char × List Char)
  | [] => none
  | c :: cs =>
    if mark <+: c :: cs then some ([], (c :: cs).drop mark.length)
    else if isChar c then (readThrough mark cs).map fun p => (c :: p.1, p.2)
    else none

/-- Production 15, behind `<!--`. -/
def readComment (t : List Char) : Option (Info × List Char) :=
  (readThrough ['-', '-'] t).bind fun p =>
    if p.2.head? = some '>' then some (.comment, p.2.drop 1) else none

/-- Productions 18 to 21, behind `<![CDATA[`. -/
def readSection (t : List Char) : Option (Info × List Char) :=
  (readThrough [']', ']', '>'] t).map fun p => (.cdata (normalizeLines p.1), p.2)

/-- Production 16, behind `<?`. -/
def readInstruction (t : List Char) : Option (Info × List Char) :=
  (readName t).bind fun p =>
    if p.1.map Char.toLower ≠ ['x', 'm', 'l'] ∧ (p.2.head?.any isSpace ∨ ['?', '>'] <+: p.2) then
      (readThrough ['?', '>'] p.2).map fun u => (.instruction, u.2)
    else none

/-- A comment, a section or an instruction, behind `<`. -/
def readAside (inside : Bool) (t : List Char) : Option (Info × List Char) :=
  if ['!', '-', '-'] <+: t then readComment (t.drop 3)
  else if ['!', '[', 'C', 'D', 'A', 'T', 'A', '['] <+: t then
    if inside then readSection (t.drop 8) else none
  else if t.head? = some '?' then readInstruction (t.drop 1)
  else none

/-- A character of text; around the root it is a space. -/
def readText (inside : Bool) (t : List Char) : Option (Info × List Char) :=
  if [']', ']', '>'] <+: t ∨ inside = false ∧ t.head?.any isSpace = false then none
  else (readChar t).map fun p => (.char p.1, p.2)

/-- The next item; `content` reads the content of an element. -/
def readItem (inside : Bool) (content : List Char → Option (List Info × List Char)) :
    List Char → Option (Info × List Char)
  | [] => none
  | c :: cs =>
    if c ≠ '<' then readText inside (c :: cs)
    else if cs.head? = some '!' ∨ cs.head? = some '?' then readAside inside cs
    else (readTag cs).bind fun tag =>
      if tag.empty then some (.element tag.name tag.attributes [], tag.rest)
      else (content tag.rest).bind fun p =>
        (readEndTag tag.name p.2).map fun u => (.element tag.name tag.attributes p.1, u)

/-- The items up to an end tag or the end of the text, and the text behind them. -/
def readContent : Bool → Nat → List Char → Option (List Info × List Char)
  | _, 0, _ => none
  | inside, n + 1, t =>
    if t = [] ∨ ['<', '/'] <+: t then some ([], t)
    else (readItem inside (readContent true n) t).bind fun p =>
      (readContent inside n p.2).map fun q => (p.1 :: q.1, q.2)

/-- The content of a text, with as much fuel as it needs. -/
def content (inside : Bool) (t : List Char) : Option (List Info × List Char) :=
  readContent inside (t.length + 1) t

def Info.isElement : Info → Bool
  | element _ _ _ => true
  | _ => false

/-- The root element of a document. -/
def information (t : List Char) : Option Info :=
  (content false t).bind fun p =>
    match p.2, p.1.filter Info.isElement with
    | [], [root] => some root
    | _, _ => none

/-! ## How much is read -/

section Length

variable {t rest : List Char} {d : Char}

theorem length_dropWhile_le (p : Char → Bool) (t : List Char) : (t.dropWhile p).length ≤ t.length :=
  (List.dropWhile_sublist p).length_le

theorem length_readReference (read : readReference t = some (d, rest)) :
    rest.length < t.length := by
  unfold readReference at read
  have shorter := length_dropWhile_le (· ≠ ';') t
  split at read
  · cases read
  · rename_i behind
    obtain ⟨_, _, same⟩ := Option.map_eq_some_iff.mp read
    cases same
    rw [behind, List.length_cons] at shorter
    omega

/-- A character is read from its own text, at a line end or as a reference. -/
theorem readChar_cases (read : readChar t = some (d, rest)) :
    (∃ cs, t = '&' :: cs ∧ readReference cs = some (d, rest)) ∨
    (∃ cs, t = '\r' :: cs ∧ d = '\n' ∧ rest.length ≤ cs.length) ∨
    t = d :: rest ∧ d ≠ '&' ∧ d ≠ '\r' ∧ d ≠ '<' ∧ isChar d = true := by
  cases t with
  | nil => cases read
  | cons c cs =>
    rw [readChar] at read
    split_ifs at read with ampersand line feed plain
    · exact Or.inl ⟨cs, by rw [ampersand], read⟩
    · cases read
      exact Or.inr (Or.inl ⟨cs, by rw [line], rfl, by rw [List.length_tail]; omega⟩)
    · cases read
      exact Or.inr (Or.inl ⟨_, by rw [line], rfl, Nat.le_refl _⟩)
    · cases read
      exact Or.inr (Or.inr ⟨rfl, ampersand, line, plain.1, plain.2⟩)

theorem length_readChar (read : readChar t = some (d, rest)) : rest.length < t.length := by
  rcases readChar_cases read with ⟨cs, rfl, reference⟩ | ⟨cs, rfl, _, shorter⟩ | ⟨rfl, _⟩
  · have shorter := length_readReference reference
    rw [List.length_cons]
    omega
  · rw [List.length_cons]
    omega
  · rw [List.length_cons]
    omega

theorem length_readName {name : List Char} (read : readName t = some (name, rest)) :
    rest.length < t.length := by
  cases t with
  | nil => cases read
  | cons c cs =>
    rw [readName] at read
    split at read
    · cases read
      have shorter := length_dropWhile_le isNameChar cs
      rw [List.length_cons]
      omega
    · cases read

theorem length_readQuoted {value : List Char} (read : readQuoted t = some (value, rest)) :
    rest.length < t.length := by
  cases t with
  | nil => cases read
  | cons q t =>
    have shorter := length_dropWhile_le (· ≠ q) t
    rw [readQuoted] at read
    split at read
    · split at read
      · cases read
      · rename_i behind
        obtain ⟨_, _, same⟩ := Option.map_eq_some_iff.mp read
        cases same
        rw [behind, List.length_cons] at shorter
        rw [List.length_cons]
        omega
    · cases read

theorem length_readValue {value : List Char} (read : readValue t = some (value, rest)) :
    rest.length < t.length := by
  have shorter := length_dropWhile_le isSpace t
  unfold readValue at read
  split at read
  · cases read
  · rename_i c u behind
    split at read
    · have further := length_dropWhile_le isSpace u
      have last := length_readQuoted read
      rw [behind, List.length_cons] at shorter
      omega
    · cases read

theorem length_readAttributes {name : List Char} {n : Nat} {tag : Tag}
    (read : readAttributes name n t = some tag) : tag.rest.length < t.length := by
  induction n generalizing t tag with
  | zero => cases read
  | succ n ih =>
    have shorter := length_dropWhile_le isSpace t
    rw [readAttributes] at read
    split_ifs at read with ends empty spaced
    · cases read
      obtain ⟨cs, is⟩ := List.head?_eq_some_iff.mp ends
      rw [is, List.length_cons] at shorter
      rw [is, List.drop_one, List.tail_cons]
      dsimp only
      omega
    · cases read
      have long := empty.length_le
      have two : ['/', '>'].length = 2 := rfl
      rw [List.length_drop]
      omega
    · obtain ⟨key, named, read⟩ := Option.bind_eq_some_iff.mp read
      obtain ⟨value, valued, read⟩ := Option.bind_eq_some_iff.mp read
      obtain ⟨tag', further, rfl⟩ := Option.map_eq_some_iff.mp read
      have first := length_readName named
      have second := length_readValue valued
      have third := ih further
      dsimp only
      omega

theorem length_readTag {tag : Tag} (read : readTag t = some tag) : tag.rest.length < t.length := by
  obtain ⟨name, named, read⟩ := Option.bind_eq_some_iff.mp read
  obtain ⟨tag', attributes, read⟩ := Option.bind_eq_some_iff.mp read
  have first := length_readName named
  have second := length_readAttributes attributes
  split at read
  · cases read
    omega
  · cases read

theorem length_readEndTag {name : List Char} (read : readEndTag name t = some rest) :
    rest.length < t.length := by
  unfold readEndTag at read
  split at read
  · rename_i starts
    obtain ⟨p, named, read⟩ := Option.bind_eq_some_iff.mp read
    have first := length_readName named
    have second := length_dropWhile_le isSpace p.2
    have long := starts.length_le
    have two : ['<', '/'].length = 2 := rfl
    rw [List.length_drop] at first
    dsimp only at read
    split at read
    · cases read
      rw [List.length_drop]
      omega
    · cases read
  · cases read

theorem length_readThrough {mark before : List Char} (read : readThrough mark t = some (before, rest)) :
    rest.length ≤ t.length := by
  induction t generalizing before with
  | nil => cases read
  | cons c cs ih =>
    rw [readThrough] at read
    split_ifs at read with found legal
    · cases read
      rw [List.length_drop]
      omega
    · obtain ⟨p, further, same⟩ := Option.map_eq_some_iff.mp read
      cases same
      have shorter := ih further
      rw [List.length_cons]
      omega

theorem length_readAside {inside : Bool} {i : Info} (read : readAside inside t = some (i, rest)) :
    rest.length < t.length := by
  unfold readAside at read
  split_ifs at read with comment cdata within instruction
  · obtain ⟨p, through, read⟩ := Option.bind_eq_some_iff.mp read
    have shorter := length_readThrough through
    have long := comment.length_le
    have three : ['!', '-', '-'].length = 3 := rfl
    rw [List.length_drop] at shorter
    split at read
    · cases read
      rw [List.length_drop]
      omega
    · cases read
  · obtain ⟨p, through, same⟩ := Option.map_eq_some_iff.mp read
    cases same
    have shorter := length_readThrough through
    have long := cdata.length_le
    have eight : ['!', '[', 'C', 'D', 'A', 'T', 'A', '['].length = 8 := rfl
    rw [List.length_drop] at shorter
    omega
  · obtain ⟨p, named, read⟩ := Option.bind_eq_some_iff.mp read
    have first := length_readName named
    rw [List.length_drop] at first
    split at read
    · obtain ⟨u, through, same⟩ := Option.map_eq_some_iff.mp read
      cases same
      have second := length_readThrough through
      omega
    · cases read

theorem length_readText {inside : Bool} {i : Info} (read : readText inside t = some (i, rest)) :
    rest.length < t.length := by
  unfold readText at read
  split at read
  · cases read
  · obtain ⟨p, char, same⟩ := Option.map_eq_some_iff.mp read
    cases same
    exact length_readChar char

variable {inside : Bool} {i : Info} {p : List Info × List Char}

theorem length_readItem {reader : List Char → Option (List Info × List Char)}
    (shrinks : ∀ u p, reader u = some p → p.2.length ≤ u.length)
    (read : readItem inside reader t = some (i, rest)) : rest.length < t.length := by
  cases t with
  | nil => cases read
  | cons c cs =>
    rw [readItem] at read
    split_ifs at read with text aside
    · exact length_readText read
    · have shorter := length_readAside read
      rw [List.length_cons]
      omega
    · obtain ⟨tag, tagged, read⟩ := Option.bind_eq_some_iff.mp read
      have first := length_readTag tagged
      rw [List.length_cons]
      split at read
      · cases read
        omega
      · obtain ⟨p, within, read⟩ := Option.bind_eq_some_iff.mp read
        obtain ⟨u, ended, same⟩ := Option.map_eq_some_iff.mp read
        cases same
        have second := shrinks _ _ within
        have third := length_readEndTag ended
        omega

/-- An item needs the content of shorter texts only. -/
theorem readItem_congr {reader reader' : List Char → Option (List Info × List Char)}
    (agree : ∀ u p, u.length < t.length → reader u = some p → reader' u = some p)
    {q : Info × List Char} (read : readItem inside reader t = some q) :
    readItem inside reader' t = some q := by
  cases t with
  | nil => cases read
  | cons c cs =>
    rw [readItem] at read ⊢
    split_ifs at read ⊢ with text aside
    · exact read
    · exact read
    · obtain ⟨tag, tagged, read⟩ := Option.bind_eq_some_iff.mp read
      have first := length_readTag tagged
      refine Option.bind_eq_some_iff.mpr ⟨tag, tagged, ?_⟩
      split_ifs at read ⊢ with empty
      · exact read
      · obtain ⟨p, within, read⟩ := Option.bind_eq_some_iff.mp read
        refine Option.bind_eq_some_iff.mpr ⟨p, agree _ _ ?_ within, read⟩
        rw [List.length_cons]
        omega

theorem length_readContent {n : Nat} (read : readContent inside n t = some p) :
    p.2.length ≤ t.length := by
  induction n generalizing inside t p with
  | zero => cases read
  | succ n ih =>
    rw [readContent] at read
    split at read
    · cases read
      exact Nat.le_refl _
    · obtain ⟨q, item, read⟩ := Option.bind_eq_some_iff.mp read
      obtain ⟨q', further, rfl⟩ := Option.map_eq_some_iff.mp read
      have first := length_readItem (fun u p => ih) item
      have second := ih further
      dsimp only
      omega

theorem readContent_enough {n m : Nat} (read : readContent inside n t = some p)
    (enough : t.length < m) : readContent inside m t = some p := by
  induction n generalizing inside t p m with
  | zero => cases read
  | succ n ih =>
    obtain ⟨m, rfl⟩ := Nat.exists_eq_add_of_lt (Nat.zero_lt_of_lt enough)
    rw [Nat.zero_add] at enough ⊢
    rw [readContent] at read ⊢
    split_ifs at read ⊢ with ends
    · exact read
    · obtain ⟨q, item, read⟩ := Option.bind_eq_some_iff.mp read
      obtain ⟨q', further, rfl⟩ := Option.map_eq_some_iff.mp read
      have shorter := length_readItem (fun u p => length_readContent) item
      refine Option.bind_eq_some_iff.mpr ⟨q, readItem_congr (fun u p less within => ?_) item, ?_⟩
      · exact ih within (by omega)
      · exact Option.map_eq_some_iff.mpr ⟨q', ih further (by omega), rfl⟩

/-- Content is read one item after the other. -/
theorem content_eq (inside : Bool) (t : List Char) : content inside t =
    if t = [] ∨ ['<', '/'] <+: t then some ([], t)
    else (readItem inside (content true) t).bind fun p =>
      (content inside p.2).map fun q => (p.1 :: q.1, q.2) := by
  have reader : ∀ p, readItem inside (readContent true t.length) t = some p ↔
      readItem inside (content true) t = some p := by
    intro p
    constructor
    · exact readItem_congr fun u p less within => readContent_enough within (Nat.lt_succ_self _)
    · exact readItem_congr fun u p less within => readContent_enough within less
  unfold content
  rw [readContent]
  split
  · rfl
  · rw [Option.ext reader]
    refine Option.bind_congr fun q item => ?_
    have shorter := length_readItem (fun u p => length_readContent) item
    refine congrArg (Option.map _) (Option.ext fun p => ?_)
    constructor
    · exact fun further => readContent_enough further (Nat.lt_succ_self _)
    · exact fun further => readContent_enough further shorter

end Length

end Xml
