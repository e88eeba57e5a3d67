import Mathlib.Data.List.Basic
import Mathlib.Algebra.Order.Group.Nat
import Mathlib.Tactic.TypeStar

/-!
# A scanner for XML documents

Documents of one element with white space, comments and processing instructions around it,
as XML 1.0 defines them; a document has no prolog here. The scanner reads one character at a
time and keeps the open elements with the nodes that were read in them. Adjacent CDATA
sections make one node; text and CDATA sections are nodes of their own.

* `Scanner.step`, `document`: the scanner and the tree of a document;
* `Scanner.weight`: how many characters of text were read;
* `Scanner.run_closing`: the end of a CDATA section adds no text, wherever it is read;
* `Scanner.run_openTag`, `run_closeTag`, `run_emptyTag`, `run_cdata`: what is read as written;
* `Scanner.run_aside`: markup inside a comment, an instruction or an attribute.
-/

namespace Xml

/-! ## Characters -/

/-- Whether a character lies in one of some ranges. -/
def inRanges (ranges : List (Nat × Nat)) (c : Char) : Bool :=
  ranges.any fun range => range.1 ≤ c.toNat && c.toNat ≤ range.2

/-- Production 2. -/
def charRanges : List (Nat × Nat) :=
  [(0x9, 0xA), (0xD, 0xD), (0x20, 0xD7FF), (0xE000, 0xFFFD), (0x10000, 0x10FFFF)]

def isChar (c : Char) : Bool := inRanges charRanges c

/-- Production 3. -/
def isSpace (c : Char) : Bool :=
  c = ' ' || c = '\t' || c = '\n' || c = '\r'

/-- Production 4. -/
def nameStartRanges : List (Nat × Nat) :=
  [(0x3A, 0x3A), (0x41, 0x5A), (0x5F, 0x5F), (0x61, 0x7A), (0xC0, 0xD6), (0xD8, 0xF6),
    (0xF8, 0x2FF), (0x370, 0x37D), (0x37F, 0x1FFF), (0x200C, 0x200D), (0x2070, 0x218F),
    (0x2C00, 0x2FEF), (0x3001, 0xD7FF), (0xF900, 0xFDCF), (0xFDF0, 0xFFFD), (0x10000, 0xEFFFF)]

def isNameStart (c : Char) : Bool := inRanges nameStartRanges c

/-- Production 4a. -/
def nameRanges : List (Nat × Nat) :=
  nameStartRanges ++
    [(0x2D, 0x2E), (0x30, 0x39), (0xB7, 0xB7), (0x300, 0x36F), (0x203F, 0x2040)]

def isNameChar (c : Char) : Bool := inRanges nameRanges c

/-- Production 5: whether a name goes on with a character. -/
def continuesName (name : List Char) (c : Char) : Bool :=
  if name = [] then isNameStart c else isNameChar c

/-- The value of a digit in a base, where it is one. -/
def digitValue (base : Nat) (c : Char) : Option Nat :=
  let v :=
    if c.isDigit then c.toNat - '0'.toNat
    else if 'a' ≤ c ∧ c ≤ 'f' then c.toNat - 'a'.toNat + 10
    else if 'A' ≤ c ∧ c ≤ 'F' then c.toNat - 'A'.toNat + 10
    else base
  if v < base then some v else none

/-- The character of a reference by number. -/
def numbered (base : Nat) (digits : List Char) : Option Char := do
  if digits = [] then none
  let n ← digits.foldlM (fun n c => (digitValue base c).map (base * n + ·)) 0
  let c := Char.ofNat n
  if c.toNat = n ∧ isChar c then some c else none

/-- The character of a reference: by number, or one of the five that need no declaration. -/
def reference : List Char → Option Char
  | '#' :: 'x' :: digits => numbered 16 digits
  | '#' :: digits => numbered 10 digits
  | name =>
    if name = ['a', 'm', 'p'] then some '&'
    else if name = ['l', 't'] then some '<'
    else if name = ['g', 't'] then some '>'
    else if name = ['a', 'p', 'o', 's'] then some '\''
    else if name = ['q', 'u', 'o', 't'] then some '"'
    else none

/-- Section 2.11: a return, with the line feed after it, is one line feed. -/
def normalizeLines : List Char → List Char
  | [] => []
  | c :: s =>
    if c = '\r' then
      if s.head? = some '\n' then normalizeLines s else '\n' :: normalizeLines s
    else
      c :: normalizeLines s

theorem inRanges_mono {ranges ranges' : List (Nat × Nat)} {c : Char}
    (within : ∀ range ∈ ranges, ∃ range' ∈ ranges', range'.1 ≤ range.1 ∧ range.2 ≤ range'.2)
    (inside : inRanges ranges c = true) : inRanges ranges' c = true := by
  obtain ⟨range, member, bounds⟩ := List.any_eq_true.mp inside
  obtain ⟨range', member', lower, upper⟩ := within range member
  simp only [Bool.and_eq_true, decide_eq_true_eq] at bounds
  refine List.any_eq_true.mpr ⟨range', member', ?_⟩
  simp only [Bool.and_eq_true, decide_eq_true_eq]
  exact ⟨lower.trans bounds.1, bounds.2.trans upper⟩

theorem isChar_of_isNameChar {c : Char} (part : isNameChar c = true) : isChar c = true :=
  inRanges_mono (by decide) part

theorem isNameChar_of_isNameStart {c : Char} (start : isNameStart c = true) :
    isNameChar c = true :=
  inRanges_mono (by decide) start

/-- A character of a name is none of those that are not in names. -/
theorem ne_of_isNameChar {c d : Char} (part : isNameChar c = true) (other : isNameChar d = false) :
    c ≠ d := by
  rintro rfl
  rw [part] at other
  cases other

theorem isSpace_of_isNameChar {c : Char} (part : isNameChar c = true) : isSpace c = false := by
  unfold isSpace
  simp only [Bool.or_eq_false_iff, decide_eq_false_iff_not]
  exact ⟨⟨⟨ne_of_isNameChar part (by decide), ne_of_isNameChar part (by decide)⟩,
    ne_of_isNameChar part (by decide)⟩, ne_of_isNameChar part (by decide)⟩

/-! ## Trees -/

/-- A node; attributes of elements, and what comments and instructions say, are left out. -/
inductive Node where
  | element (name : List Char) (children : List Node)
  | text (content : List Char)
  | cdata (content : List Char)
  | comment
  | instruction

/-- A child is put behind others, which come last first. -/
def addChild : Node → List Node → List Node
  | .cdata c, .cdata d :: rest => .cdata (d ++ c) :: rest
  | n, rest => n :: rest

/-! ## The scanner -/

/-- Where in a start tag the scanner is. -/
inductive Stage where
  | name
  | space
  | attributeName (read : List Char)
  | equals (attr : List Char)
  | value (attr : List Char)
  | quoted (double : Bool)
  | quotedReference (double : Bool) (read : List Char)
  | closed
  | slash

/-- The quotes an attribute value can stand in. -/
def quote (double : Bool) : Char :=
  if double then '"' else '\''

/-- Where the scanner is. -/
inductive Mode where
  | content
  /-- In text; `brackets` is how many brackets it ends in, up to two. -/
  | text (read : List Char) (brackets : Nat)
  | reference (before read : List Char)
  /-- After `<`. -/
  | markup
  | tag (name : List Char) (attributes : List (List Char)) (stage : Stage)
  | endTag (name : List Char) (spaced : Bool)
  /-- After `<!`. -/
  | declaration (read : List Char)
  | cdata (read : List Char) (brackets : Nat)
  | comment (dashes : Nat)
  | target (name : List Char) (ended : Bool)
  | instruction (question : Bool)

/-- The open elements, innermost first, each with its children, last first. -/
structure Scanner where
  root : Option Node
  frames : List (List Char × List Node)
  mode : Mode

namespace Scanner

def start : Scanner := ⟨none, [], .content⟩

variable (s : Scanner)

/-- A node is read; comments and instructions around the root are dropped. -/
def add (n : Node) : Scanner :=
  match s.frames with
  | (name, children) :: frames =>
    { s with frames := (name, addChild n children) :: frames, mode := .content }
  | [] => { s with mode := .content }

/-- A start tag is read. -/
def openElement (name : List Char) : Scanner :=
  { s with frames := (name, []) :: s.frames, mode := .content }

/-- The innermost element is complete. -/
def finish (name : List Char) (children : List Node) (frames : List (List Char × List Node)) :
    Scanner :=
  match frames with
  | [] => ⟨some (.element name children.reverse), [], .content⟩
  | _ :: _ => { s with frames := frames }.add (.element name children.reverse)

/-- An end tag is read. -/
def closeElement (name : List Char) : Option Scanner :=
  match s.frames with
  | (name', children) :: frames => if name = name' then some (s.finish name children frames) else none
  | [] => none

/-- A tag of an element without children is read. -/
def emptyElement (name : List Char) : Scanner :=
  s.finish name [] s.frames

def enter (mode : Mode) : Option Scanner :=
  some { s with mode := mode }

/-- How many brackets a text ends in after one more character, up to two. -/
def bracketsAfter (brackets : Nat) (c : Char) : Nat :=
  if c = ']' then min 2 (brackets + 1) else 0

def stepContent (c : Char) : Option Scanner :=
  if c = '<' then s.enter .markup
  else if s.frames = [] then (if isSpace c then some s else none)
  else if c = '&' then s.enter (.reference [] [])
  else s.enter (.text [c] (bracketsAfter 0 c))

def stepText (read : List Char) (brackets : Nat) (c : Char) : Option Scanner :=
  if c = '<' then (s.add (.text read)).enter .markup
  else if c = '&' then s.enter (.reference read [])
  else if c = '>' ∧ brackets = 2 then none
  else s.enter (.text (read ++ [c]) (bracketsAfter brackets c))

def stepReference (before read : List Char) (c : Char) : Option Scanner :=
  if c = ';' then (reference read).bind fun d => s.enter (.text (before ++ [d]) 0)
  else if isNameChar c || c = '#' then s.enter (.reference before (read ++ [c]))
  else none

def stepMarkup (c : Char) : Option Scanner :=
  if c = '/' then s.enter (.endTag [] false)
  else if c = '!' then s.enter (.declaration [])
  else if c = '?' then s.enter (.target [] false)
  else if isNameStart c ∧ (s.frames ≠ [] ∨ s.root.isNone) then s.enter (.tag [c] [] .name)
  else none

def stepEndTag (name : List Char) (spaced : Bool) (c : Char) : Option Scanner :=
  if c = '>' then s.closeElement name
  else if isSpace c ∧ name ≠ [] then s.enter (.endTag name true)
  else if spaced = false ∧ continuesName name c then
    s.enter (.endTag (name ++ [c]) false)
  else none

def stepDeclaration (read : List Char) (c : Char) : Option Scanner :=
  if read ++ [c] = ['-', '-'] then s.enter (.comment 0)
  else if read ++ [c] = ['[', 'C', 'D', 'A', 'T', 'A', '['] then
    if s.frames = [] then none else s.enter (.cdata [] 0)
  else if read ++ [c] <+: ['-', '-'] ∨ read ++ [c] <+: ['[', 'C', 'D', 'A', 'T', 'A', '['] then
    s.enter (.declaration (read ++ [c]))
  else none

def stepCdata (read : List Char) (brackets : Nat) (c : Char) : Option Scanner :=
  if c = '>' ∧ brackets = 2 then some (s.add (.cdata (read.take (read.length - 2))))
  else s.enter (.cdata (read ++ [c]) (bracketsAfter brackets c))

def stepComment (dashes : Nat) (c : Char) : Option Scanner :=
  if dashes = 2 then (if c = '>' then some (s.add .comment) else none)
  else s.enter (.comment (if c = '-' then dashes + 1 else 0))

/-- In the target of an instruction, which is not `xml`. -/
def stepTarget (name : List Char) (ended : Bool) (c : Char) : Option Scanner :=
  let reserved : Bool := name.map Char.toLower = ['x', 'm', 'l']
  if ended then (if c = '>' then some (s.add .instruction) else none)
  else if continuesName name c then s.enter (.target (name ++ [c]) false)
  else if name = [] || reserved then none
  else if isSpace c then s.enter (.instruction false)
  else if c = '?' then s.enter (.target name true)
  else none

def stepInstruction (question : Bool) (c : Char) : Option Scanner :=
  if c = '>' ∧ question then some (s.add .instruction)
  else s.enter (.instruction (c = '?'))

/-- In a start tag; an attribute is there once. -/
def stepTag (name : List Char) (attributes : List (List Char)) (stage : Stage) (c : Char) :
    Option Scanner :=
  let go (stage : Stage) : Option Scanner := s.enter (.tag name attributes stage)
  let ends : Option Scanner :=
    if c = '>' then some (s.openElement name) else if c = '/' then go .slash else none
  match stage with
  | .name =>
    if isNameChar c then s.enter (.tag (name ++ [c]) attributes .name)
    else if isSpace c then go .space
    else ends
  | .space =>
    if isSpace c then go .space else if isNameStart c then go (.attributeName [c]) else ends
  | .attributeName read =>
    if isNameChar c then go (.attributeName (read ++ [c]))
    else if isSpace c then go (.equals read)
    else if c = '=' then go (.value read)
    else none
  | .equals attr =>
    if isSpace c then go stage else if c = '=' then go (.value attr) else none
  | .value attr =>
    if isSpace c then go stage
    else if (c = '"' ∨ c = '\'') ∧ attr ∉ attributes then
      s.enter (.tag name (attr :: attributes) (.quoted (c = '"')))
    else none
  | .quoted double =>
    if c = quote double then go .closed
    else if c = '<' then none
    else if c = '&' then go (.quotedReference double [])
    else go stage
  | .quotedReference double read =>
    if c = ';' then (reference read).bind fun _ => go (.quoted double)
    else if isNameChar c || c = '#' then go (.quotedReference double (read ++ [c]))
    else none
  | .closed => if isSpace c then go .space else ends
  | .slash => if c = '>' then some (s.emptyElement name) else none

/-- One character, by where the scanner is. -/
def stepIn (mode : Mode) (c : Char) : Option Scanner :=
  match mode with
  | .content => s.stepContent c
  | .text read brackets => s.stepText read brackets c
  | .reference before read => s.stepReference before read c
  | .markup => s.stepMarkup c
  | .tag name attributes stage => s.stepTag name attributes stage c
  | .endTag name spaced => s.stepEndTag name spaced c
  | .declaration read => s.stepDeclaration read c
  | .cdata read brackets => s.stepCdata read brackets c
  | .comment dashes => s.stepComment dashes c
  | .target name ended => s.stepTarget name ended c
  | .instruction question => s.stepInstruction question c

/-- One character; `none` where the document is not well formed. -/
def step (c : Char) : Option Scanner :=
  if isChar c then s.stepIn s.mode c else none

/-- The scanner over a text. -/
def run (text : List Char) : Option Scanner :=
  text.foldlM step s

/-- The root element, where the document is complete. -/
def tree : Option Node :=
  match s.mode, s.frames with
  | .content, [] => s.root
  | _, _ => none

end Scanner

/-- The root element of a document; `none` where it is not well formed. -/
def document (text : List Char) : Option Node :=
  (Scanner.start.run (normalizeLines text)).bind Scanner.tree

/-! ## How much text was read -/

mutual

/-- How many characters of text are in a node. -/
def Node.weight : Node → Nat
  | .element _ children => weights children
  | .text content => content.length
  | .cdata content => content.length
  | .comment => 0
  | .instruction => 0

def weights : List Node → Nat
  | [] => 0
  | n :: ns => n.weight + weights ns

end

theorem weights_append (ns ms : List Node) : weights (ns ++ ms) = weights ns + weights ms := by
  induction ns with
  | nil => simp only [List.nil_append, weights, Nat.zero_add]
  | cons n ns ih =>
    simp only [List.cons_append, weights, ih]
    omega

theorem weights_reverse (ns : List Node) : weights ns.reverse = weights ns := by
  induction ns with
  | nil => rfl
  | cons n ns ih =>
    rw [List.reverse_cons, weights_append, ih]
    simp only [weights]
    omega

theorem weights_addChild (n : Node) (ns : List Node) :
    weights (addChild n ns) = n.weight + weights ns := by
  unfold addChild
  split
  · simp only [weights, Node.weight, List.length_append]
    omega
  · rfl

def Mode.weight : Mode → Nat
  | .text read _ => read.length
  | .reference before _ => before.length
  | .cdata read _ => read.length
  | _ => 0

/-- How many characters of text are in the open elements. -/
def framesWeight : List (List Char × List Node) → Nat
  | [] => 0
  | frame :: frames => weights frame.2 + framesWeight frames

namespace Scanner

/-- How many characters of text are in the nodes that were read. -/
def stored (s : Scanner) : Nat :=
  (s.root.map Node.weight).getD 0 + framesWeight s.frames

def weight (s : Scanner) : Nat :=
  s.stored + s.mode.weight

variable {s s' : Scanner} {c : Char}

theorem weight_of_mode {mode : Mode} (is : s.mode = mode) : s.weight = s.stored + mode.weight := by
  rw [weight, is]

theorem stored_le_weight : s.stored ≤ s.weight := Nat.le_add_right _ _

theorem weight_enter {mode : Mode} (taken : s.enter mode = some s') :
    s'.weight = s.stored + mode.weight := by
  cases taken
  rfl

theorem mode_add (n : Node) : (s.add n).mode = .content := by
  unfold add
  split <;> rfl

theorem stored_add_le (n : Node) : (s.add n).stored ≤ s.stored + n.weight := by
  unfold add
  split
  · rename_i name children frames is
    simp only [stored, is, framesWeight, weights_addChild]
    omega
  · exact Nat.le_add_right _ _

theorem weight_add_le (n : Node) : (s.add n).weight ≤ s.stored + n.weight := by
  unfold weight
  rw [mode_add]
  exact stored_add_le n

theorem weight_openElement (name : List Char) : (s.openElement name).weight = s.stored := by
  simp only [openElement, weight, stored, framesWeight, weights, Mode.weight, Nat.zero_add,
    Nat.add_zero]

theorem weight_finish_le (name : List Char) (children : List Node)
    (frames : List (List Char × List Node)) :
    (s.finish name children frames).weight ≤
      (s.root.map Node.weight).getD 0 + (weights children + framesWeight frames) := by
  unfold finish
  split
  · simp only [weight, stored, Option.map_some, Option.getD_some, Node.weight, weights_reverse,
      framesWeight, Mode.weight]
    omega
  · refine (weight_add_le _).trans ?_
    simp only [stored, Node.weight, weights_reverse]
    omega

theorem weight_closeElement_le {name : List Char} (taken : s.closeElement name = some s') :
    s'.weight ≤ s.stored := by
  unfold closeElement at taken
  split at taken
  · rename_i name' children frames is
    split at taken
    · cases taken
      refine (weight_finish_le name children frames).trans ?_
      simp only [stored, is, framesWeight, Nat.le_refl]
    · cases taken
  · cases taken

theorem weight_emptyElement_le (name : List Char) : (s.emptyElement name).weight ≤ s.stored := by
  refine (weight_finish_le name [] s.frames).trans ?_
  simp only [stored, weights, Nat.zero_add, Nat.le_refl]

theorem mode_finish (name : List Char) (children : List Node)
    (frames : List (List Char × List Node)) :
    (s.finish name children frames).mode = .content := by
  unfold finish
  split
  · rfl
  · exact mode_add _

theorem mode_closeElement {name : List Char} (taken : s.closeElement name = some s') :
    s'.mode = .content := by
  unfold closeElement at taken
  split at taken
  · split at taken
    · cases taken
      exact mode_finish _ _ _
    · cases taken
  · cases taken

/-! ### Steps -/

theorem weight_stepContent (mode : s.mode = .content) (taken : s.stepContent c = some s') :
    s'.weight ≤ s.weight + 1 := by
  unfold stepContent at taken
  unfold weight
  rw [mode]
  split at taken
  · have := weight_enter taken
    simp only [weight, Mode.weight] at this ⊢
    omega
  · split at taken
    · split at taken
      · cases taken
        rw [mode]
        omega
      · cases taken
    · split at taken
      · have := weight_enter taken
        simp only [weight, Mode.weight, List.length_nil] at this ⊢
        omega
      · have := weight_enter taken
        simp only [weight, Mode.weight, List.length_singleton] at this ⊢
        omega

theorem weight_stepText {read : List Char} {brackets : Nat}
    (taken : s.stepText read brackets c = some s') :
    s'.weight ≤ s.stored + read.length + 1 := by
  unfold stepText at taken
  split at taken
  · have entered := weight_enter taken
    have stored := stored_add_le (s := s) (.text read)
    simp only [Mode.weight, Node.weight] at entered stored
    omega
  · split at taken
    · rw [weight_enter taken]
      exact Nat.le_succ _
    · split at taken
      · cases taken
      · rw [weight_enter taken]
        simp only [Mode.weight, List.length_append, List.length_singleton]
        omega

theorem weight_stepReference {before read : List Char}
    (taken : s.stepReference before read c = some s') :
    s'.weight ≤ s.stored + before.length + 1 := by
  unfold stepReference at taken
  split at taken
  · obtain ⟨d, -, entered⟩ := Option.bind_eq_some_iff.mp taken
    rw [weight_enter entered]
    simp only [Mode.weight, List.length_append, List.length_singleton]
    omega
  · split at taken
    · rw [weight_enter taken]
      exact Nat.le_succ _
    · cases taken

theorem weight_stepMarkup (taken : s.stepMarkup c = some s') : s'.weight = s.stored := by
  unfold stepMarkup at taken
  split at taken
  · exact weight_enter taken
  split at taken
  · exact weight_enter taken
  split at taken
  · exact weight_enter taken
  split at taken
  · exact weight_enter taken
  · cases taken

theorem weight_stepEndTag {name : List Char} {spaced : Bool}
    (taken : s.stepEndTag name spaced c = some s') : s'.weight ≤ s.stored := by
  unfold stepEndTag at taken
  split at taken
  · exact weight_closeElement_le taken
  split at taken
  · exact (weight_enter taken).le
  split at taken
  · exact (weight_enter taken).le
  · cases taken

theorem weight_stepDeclaration {read : List Char} (taken : s.stepDeclaration read c = some s') :
    s'.weight = s.stored := by
  unfold stepDeclaration at taken
  split at taken
  · exact weight_enter taken
  split at taken
  · split at taken
    · cases taken
    · exact weight_enter taken
  split at taken
  · exact weight_enter taken
  · cases taken

/-- The end of a CDATA section takes back the two brackets that were read. -/
theorem weight_stepCdata {read : List Char} {brackets : Nat}
    (taken : s.stepCdata read brackets c = some s') :
    s'.weight ≤ s.stored + read.length + 1 := by
  unfold stepCdata at taken
  split at taken
  · cases taken
    refine (weight_add_le _).trans ?_
    simp only [Node.weight, List.length_take]
    omega
  · rw [weight_enter taken]
    simp only [Mode.weight, List.length_append, List.length_singleton]
    omega

theorem weight_stepComment {dashes : Nat} (taken : s.stepComment dashes c = some s') :
    s'.weight ≤ s.stored := by
  unfold stepComment at taken
  split at taken
  · split at taken
    · cases taken
      exact weight_add_le _
    · cases taken
  · exact (weight_enter taken).le

theorem weight_stepTarget {name : List Char} {ended : Bool}
    (taken : s.stepTarget name ended c = some s') : s'.weight ≤ s.stored := by
  unfold stepTarget at taken
  dsimp only at taken
  split at taken
  · split at taken
    · cases taken
      exact weight_add_le _
    · cases taken
  split at taken
  · exact (weight_enter taken).le
  split at taken
  · cases taken
  split at taken
  · exact (weight_enter taken).le
  split at taken
  · exact (weight_enter taken).le
  · cases taken

theorem weight_stepInstruction {question : Bool}
    (taken : s.stepInstruction question c = some s') : s'.weight ≤ s.stored := by
  unfold stepInstruction at taken
  split at taken
  · cases taken
    exact weight_add_le _
  · exact (weight_enter taken).le

theorem weight_stepTag {name : List Char} {attributes : List (List Char)} {stage : Stage}
    (taken : s.stepTag name attributes stage c = some s') : s'.weight ≤ s.stored := by
  have ends : ∀ {next}, (if c = '>' then some (s.openElement name)
      else if c = '/' then s.enter (.tag name attributes .slash) else none) = some next →
      next.weight ≤ s.stored := by
    intro next taken
    split at taken
    · cases taken
      exact (weight_openElement name).le
    split at taken
    · exact (weight_enter taken).le
    · cases taken
  unfold stepTag at taken
  cases stage with
  | name =>
    dsimp only at taken
    split at taken
    · exact (weight_enter taken).le
    split at taken
    · exact (weight_enter taken).le
    · exact ends taken
  | space =>
    dsimp only at taken
    split at taken
    · exact (weight_enter taken).le
    split at taken
    · exact (weight_enter taken).le
    · exact ends taken
  | attributeName read =>
    dsimp only at taken
    split at taken
    · exact (weight_enter taken).le
    split at taken
    · exact (weight_enter taken).le
    split at taken
    · exact (weight_enter taken).le
    · cases taken
  | equals attr =>
    dsimp only at taken
    split at taken
    · exact (weight_enter taken).le
    split at taken
    · exact (weight_enter taken).le
    · cases taken
  | value attr =>
    dsimp only at taken
    split at taken
    · exact (weight_enter taken).le
    split at taken
    · exact (weight_enter taken).le
    · cases taken
  | quoted double =>
    dsimp only at taken
    split at taken
    · exact (weight_enter taken).le
    split at taken
    · cases taken
    split at taken
    · exact (weight_enter taken).le
    · exact (weight_enter taken).le
  | quotedReference double read =>
    dsimp only at taken
    split at taken
    · obtain ⟨d, -, entered⟩ := Option.bind_eq_some_iff.mp taken
      exact (weight_enter entered).le
    split at taken
    · exact (weight_enter taken).le
    · cases taken
  | closed =>
    dsimp only at taken
    split at taken
    · exact (weight_enter taken).le
    · exact ends taken
  | slash =>
    dsimp only at taken
    split at taken
    · cases taken
      exact weight_emptyElement_le name
    · cases taken

/-- A character adds at most one character of text. -/
theorem weight_step (taken : s.step c = some s') : s'.weight ≤ s.weight + 1 := by
  unfold step stepIn at taken
  split at taken
  · split at taken
    · rename_i mode
      exact weight_stepContent mode taken
    · rename_i read brackets mode
      rw [weight_of_mode mode]
      exact weight_stepText taken
    · rename_i before read mode
      rw [weight_of_mode mode]
      exact weight_stepReference taken
    · exact (weight_stepMarkup taken).le.trans (stored_le_weight.trans (Nat.le_succ _))
    · exact (weight_stepTag taken).trans (stored_le_weight.trans (Nat.le_succ _))
    · exact (weight_stepEndTag taken).trans (stored_le_weight.trans (Nat.le_succ _))
    · exact (weight_stepDeclaration taken).le.trans (stored_le_weight.trans (Nat.le_succ _))
    · rename_i read brackets mode
      rw [weight_of_mode mode]
      exact weight_stepCdata taken
    · exact (weight_stepComment taken).trans (stored_le_weight.trans (Nat.le_succ _))
    · exact (weight_stepTarget taken).trans (stored_le_weight.trans (Nat.le_succ _))
    · exact (weight_stepInstruction taken).trans (stored_le_weight.trans (Nat.le_succ _))
  · cases taken

/-! ### Texts -/

theorem run_cons {text : List Char} :
    s.run (c :: text) = some s' ↔ ∃ mid, s.step c = some mid ∧ mid.run text = some s' := by
  unfold run
  rw [List.foldlM_cons]
  exact Option.bind_eq_some_iff

theorem run_append {first second : List Char} :
    s.run (first ++ second) = some s' ↔ ∃ mid, s.run first = some mid ∧ mid.run second = some s' := by
  unfold run
  rw [List.foldlM_append]
  exact Option.bind_eq_some_iff

theorem run_concat {text : List Char} : s.run (text ++ [c]) = (s.run text).bind (step · c) := by
  unfold run
  rw [List.foldlM_append]
  refine congrArg (Option.bind (List.foldlM step s text)) (funext fun mid => ?_)
  exact bind_pure _

/-- A text adds at most its length. -/
theorem weight_run {text : List Char} (taken : s.run text = some s') :
    s'.weight ≤ s.weight + text.length := by
  induction text generalizing s with
  | nil =>
    cases taken
    exact Nat.le_refl _
  | cons c text ih =>
    obtain ⟨mid, first, rest⟩ := run_cons.mp taken
    have one := weight_step first
    have more := ih rest
    rw [List.length_cons]
    omega

/-- Where markup can begin next, or is passed over. -/
def Quiet (s : Scanner) : Prop :=
  match s.mode with
  | .content | .comment _ | .instruction _ | .tag _ _ (.quoted _) => True
  | _ => False

/-- A character that is in no declaration ends one badly. -/
theorem stepDeclaration_eq_none {read : List Char}
    (apart : c ∉ ['-', '-', '[', 'C', 'D', 'A', 'T', 'A', '[']) :
    s.stepDeclaration read c = none := by
  have member : c ∈ read ++ [c] := List.mem_append_right read (List.mem_singleton_self c)
  have notDashes : ¬ read ++ [c] <+: ['-', '-'] := fun is =>
    apart (List.mem_append_left _ (is.subset member))
  have notCdata : ¬ read ++ [c] <+: ['[', 'C', 'D', 'A', 'T', 'A', '['] := fun is =>
    apart (List.mem_append_right ['-', '-'] (is.subset member))
  unfold stepDeclaration
  rw [if_neg fun same : read ++ [c] = _ => notDashes (same ▸ List.prefix_rfl),
    if_neg fun same : read ++ [c] = _ => notCdata (same ▸ List.prefix_rfl),
    if_neg (not_or.mpr ⟨notDashes, notCdata⟩)]

/-- A closing bracket is refused, is text, or is passed over. -/
theorem step_bracket (s : Scanner) : s.step ']' =
    match s.mode with
    | .content => if s.frames = [] then none else s.enter (.text [']'] 1)
    | .text read brackets => s.enter (.text (read ++ [']']) (min 2 (brackets + 1)))
    | .cdata read brackets => s.enter (.cdata (read ++ [']']) (min 2 (brackets + 1)))
    | .comment dashes => if dashes = 2 then none else s.enter (.comment 0)
    | .instruction _ => s.enter (.instruction false)
    | .tag name attributes (.quoted double) => s.enter (.tag name attributes (.quoted double))
    | _ => none := by
  have legal : isChar ']' = true := by decide
  have space : isSpace ']' = false := by decide
  have start : isNameStart ']' = false := by decide
  have part : isNameChar ']' = false := by decide
  unfold step stepIn
  rw [if_pos legal]
  cases mode : s.mode with
  | content => simp [stepContent, space, bracketsAfter]
  | text read brackets => simp [stepText, bracketsAfter]
  | reference before read => simp [stepReference, part]
  | markup => simp [stepMarkup, start]
  | tag name attributes stage =>
    cases stage with
    | quoted double => cases double <;> simp [stepTag, quote]
    | _ => simp [stepTag, space, start, part]
  | endTag name spaced => simp [stepEndTag, space, continuesName, start, part]
  | declaration read => exact stepDeclaration_eq_none (by decide)
  | cdata read brackets => simp [stepCdata, bracketsAfter]
  | comment dashes => simp [stepComment]
  | target name ended => simp [stepTarget, space, continuesName, start, part]
  | instruction question => simp [stepInstruction]

/-- The end of a CDATA section adds no text wherever it is read, and markup can begin after it
or is passed over. -/
theorem run_closing (taken : s.run [']', ']', '>'] = some s') : s'.weight ≤ s.weight ∧ s'.Quiet := by
  obtain ⟨s₁, first, taken⟩ := run_cons.mp taken
  obtain ⟨s₂, second, taken⟩ := run_cons.mp taken
  obtain ⟨s₃, third, last⟩ := run_cons.mp taken
  cases last
  have legal : isChar '>' = true := by decide
  rw [step_bracket] at first second
  unfold step at third
  rw [if_pos legal] at third
  cases mode : s.mode with
  | content =>
    simp only [mode] at first
    split at first
    · cases first
    · cases first
      cases second
      cases third
  | text read brackets =>
    simp only [mode] at first
    cases first
    cases second
    simp [stepIn, stepText] at third
  | cdata read brackets =>
    simp only [mode] at first
    cases first
    cases second
    -- the two brackets that were counted as text are dropped
    have both : min 2 (min 2 (brackets + 1) + 1) = 2 := by omega
    simp only [stepIn, stepCdata, both, and_self, if_true] at third
    cases third
    refine ⟨(weight_add_le _).trans ?_, ?_⟩
    · rw [weight_of_mode mode]
      simp only [Node.weight, Mode.weight, List.length_take, List.length_append,
        List.length_singleton]
      exact Nat.add_le_add_left (by omega) _
    · unfold Quiet
      rw [mode_add]
      trivial
  | comment dashes =>
    simp only [mode] at first
    split at first
    · cases first
    · cases first
      cases second
      cases third
      exact ⟨stored_le_weight (s := s), trivial⟩
  | instruction question =>
    simp only [mode] at first
    cases first
    cases second
    cases third
    exact ⟨stored_le_weight (s := s), trivial⟩
  | tag name attributes stage =>
    cases stage with
    | quoted double =>
      simp only [mode] at first
      cases first
      cases second
      cases double with
      | true =>
        cases third
        exact ⟨stored_le_weight (s := s), trivial⟩
      | false =>
        cases third
        exact ⟨stored_le_weight (s := s), trivial⟩
    | _ =>
      simp only [mode] at first
      cases first
  | _ =>
    simp only [mode] at first
    cases first

/-! ### Tags -/

theorem step_of_mode {mode : Mode} (legal : isChar c = true) (is : s.mode = mode) :
    s.step c = s.stepIn mode c := by
  unfold step
  rw [if_pos legal, is]

/-- What a text with a character that is not allowed anywhere does. -/
theorem run_eq_none {text : List Char} (illegal : ∃ c ∈ text, isChar c = false) :
    s.run text = none := by
  obtain ⟨c, member, illegal⟩ := illegal
  obtain ⟨before, after, rfl⟩ := List.append_of_mem member
  by_contra taken
  obtain ⟨s', taken⟩ := Option.ne_none_iff_exists'.mp taken
  obtain ⟨mid, -, rest⟩ := run_append.mp taken
  obtain ⟨next, first, -⟩ := run_cons.mp rest
  unfold step at first
  rw [if_neg (by rw [illegal]; exact Bool.false_ne_true)] at first
  cases first

/-- The rest of a name in a start tag. -/
theorem run_name {read text : List Char} (mode : s.mode = .tag read [] .name)
    (name : ∀ c ∈ text, isNameChar c = true) :
    s.run text = some { s with mode := .tag (read ++ text) [] .name } := by
  induction text generalizing s read with
  | nil =>
    rw [List.append_nil, ← mode]
    rfl
  | cons c text ih =>
    have part := name c List.mem_cons_self
    refine run_cons.mpr ⟨{ s with mode := .tag (read ++ [c]) [] .name }, ?_, ?_⟩
    · rw [step_of_mode (isChar_of_isNameChar part) mode]
      simp only [stepIn, stepTag, part, if_true]
      rfl
    · rw [ih rfl fun d member => name d (List.mem_cons_of_mem c member)]
      simp only [List.append_assoc, List.singleton_append]

/-- The rest of a name in an end tag. -/
theorem run_endName {read text : List Char} (mode : s.mode = .endTag read false)
    (nonempty : read ≠ []) (name : ∀ c ∈ text, isNameChar c = true) :
    s.run text = some { s with mode := .endTag (read ++ text) false } := by
  induction text generalizing s read with
  | nil =>
    rw [List.append_nil, ← mode]
    rfl
  | cons c text ih =>
    have part := name c List.mem_cons_self
    refine run_cons.mpr ⟨{ s with mode := .endTag (read ++ [c]) false }, ?_, ?_⟩
    · rw [step_of_mode (isChar_of_isNameChar part) mode]
      have notEnd : c ≠ '>' := ne_of_isNameChar part (by decide)
      simp only [stepIn, stepEndTag, notEnd, isSpace_of_isNameChar part, continuesName, nonempty, part,
        if_false, if_true, Bool.false_eq_true, false_and, and_self]
      rfl
    · rw [ih rfl (List.append_ne_nil_of_right_ne_nil read (List.cons_ne_nil c []))
        fun d member => name d (List.mem_cons_of_mem c member)]
      simp only [List.append_assoc, List.singleton_append]

/-- What an end tag does depends on the open elements. -/
theorem closeElement_mode {name : List Char} (mode : Mode) :
    ({ s with mode := mode } : Scanner).closeElement name = s.closeElement name := by
  obtain ⟨root, frames, old⟩ := s
  unfold closeElement finish
  rcases frames with _ | ⟨frame, _ | ⟨outer, frames⟩⟩ <;> rfl

theorem add_mode {mode : Mode} (n : Node) :
    ({ s with mode := mode } : Scanner).add n = s.add n := by
  obtain ⟨root, frames, old⟩ := s
  cases frames with
  | nil => rfl
  | cons frame frames => rfl

/-- A name, as it stands in tags. -/
def IsName (name : List Char) : Prop :=
  ∃ c text, name = c :: text ∧ isNameStart c = true ∧ ∀ d ∈ text, isNameChar d = true

/-- What comes before the rest of a start tag. -/
theorem run_tagName {name : List Char} (mode : s.mode = .content) (is : IsName name)
    (room : s.frames ≠ [] ∨ s.root.isNone = true) :
    s.run ('<' :: name) = some { s with mode := .tag name [] .name } := by
  obtain ⟨c, text, rfl, start, rest⟩ := is
  have part := isNameChar_of_isNameStart start
  refine run_cons.mpr ⟨{ s with mode := .markup }, ?_, ?_⟩
  · rw [step_of_mode (by decide) mode]
    rfl
  · refine run_cons.mpr ⟨{ s with mode := .tag [c] [] .name }, ?_, ?_⟩
    · rw [step_of_mode (isChar_of_isNameChar part) rfl]
      have slash : c ≠ '/' := ne_of_isNameChar part (by decide)
      have bang : c ≠ '!' := ne_of_isNameChar part (by decide)
      have question : c ≠ '?' := ne_of_isNameChar part (by decide)
      simp only [stepIn, stepMarkup, slash, bang, question, if_false]
      rw [if_pos ⟨start, room⟩]
      rfl
    · exact run_name (s := { s with mode := .tag [c] [] .name }) rfl rest

theorem run_openTag {name : List Char} (mode : s.mode = .content) (is : IsName name)
    (room : s.frames ≠ [] ∨ s.root.isNone = true) :
    s.run ('<' :: name ++ ['>']) = some (s.openElement name) :=
  run_append.mpr ⟨_, run_tagName mode is room, rfl⟩

theorem run_emptyTag {name : List Char} (mode : s.mode = .content) (is : IsName name)
    (room : s.frames ≠ [] ∨ s.root.isNone = true) :
    s.run ('<' :: name ++ ['/', '>']) = some (s.emptyElement name) :=
  run_append.mpr ⟨_, run_tagName mode is room, rfl⟩

theorem run_closeTag {name : List Char} (mode : s.mode = .content) (is : IsName name) :
    s.run ('<' :: '/' :: name ++ ['>']) = s.closeElement name := by
  obtain ⟨c, text, rfl, start, rest⟩ := is
  have part := isNameChar_of_isNameStart start
  have named : s.run ('<' :: '/' :: (c :: text)) =
      some { s with mode := .endTag (c :: text) false } := by
    refine run_cons.mpr ⟨{ s with mode := .markup }, ?_, ?_⟩
    · rw [step_of_mode (by decide) mode]
      rfl
    refine run_cons.mpr ⟨{ s with mode := .endTag [] false }, rfl, ?_⟩
    refine run_cons.mpr ⟨{ s with mode := .endTag [c] false }, ?_, ?_⟩
    · rw [step_of_mode (isChar_of_isNameChar part) rfl]
      have notEnd : c ≠ '>' := ne_of_isNameChar part (by decide)
      simp only [stepIn, stepEndTag, notEnd, isSpace_of_isNameChar part, continuesName, start,
        if_false, if_true, Bool.false_eq_true, false_and, and_self]
      rfl
    · exact run_endName (s := { s with mode := .endTag [c] false }) rfl (List.cons_ne_nil c []) rest
  rw [run_concat, named, Option.bind_some, step_of_mode (by decide) rfl]
  exact closeElement_mode _

theorem run_opening (mode : s.mode = .content) :
    s.run ['<', '!', '[', 'C', 'D', 'A', 'T', 'A', '['] =
      if s.frames = [] then none else some { s with mode := .cdata [] 0 } := by
  obtain ⟨root, frames, old⟩ := s
  cases mode
  cases frames with
  | nil => rfl
  | cons frame frames => rfl

/-- What a text that was read ends in, as the count of brackets says. -/
def EndsIn (read : List Char) (brackets : Nat) : Prop :=
  (1 ≤ brackets → ∃ before, read = before ++ [']']) ∧
    (2 ≤ brackets → ∃ before, read = before ++ [']', ']'])

theorem EndsIn.after {read : List Char} {brackets : Nat} (ends : EndsIn read brackets) (c : Char) :
    EndsIn (read ++ [c]) (bracketsAfter brackets c) := by
  unfold bracketsAfter
  split
  · rename_i bracket
    subst bracket
    refine ⟨fun _ => ⟨read, rfl⟩, fun two => ?_⟩
    obtain ⟨before, rfl⟩ := ends.1 (by omega)
    exact ⟨before, by rw [List.append_assoc]; rfl⟩
  · exact ⟨fun one => absurd one (by decide), fun two => absurd two (by decide)⟩

/-- A section goes on as long as it does not contain its end. -/
theorem run_section {read text : List Char} {brackets : Nat} (mode : s.mode = .cdata read brackets)
    (ends : EndsIn read brackets) (legal : ∀ c ∈ text, isChar c = true)
    (open_ : ¬ [']', ']', '>'] <:+: read ++ text) :
    ∃ brackets', s.run text = some { s with mode := .cdata (read ++ text) brackets' } := by
  induction text generalizing s read brackets with
  | nil =>
    refine ⟨brackets, ?_⟩
    rw [List.append_nil, ← mode]
    rfl
  | cons c text ih =>
    have goesOn : ¬ (c = '>' ∧ brackets = 2) := by
      rintro ⟨rfl, two⟩
      obtain ⟨before, rfl⟩ := ends.2 (by omega)
      refine open_ ⟨before, text, ?_⟩
      simp only [List.append_assoc, List.cons_append, List.nil_append]
    have joined : read ++ [c] ++ text = read ++ c :: text := by
      rw [List.append_assoc]
      rfl
    obtain ⟨brackets', rest⟩ := ih (s := { s with
        mode := .cdata (read ++ [c]) (bracketsAfter brackets c) }) rfl (ends.after c)
      (fun d member => legal d (List.mem_cons_of_mem c member)) (by rw [joined]; exact open_)
    refine ⟨brackets', run_cons.mpr ⟨_, ?_, rest.trans (by rw [joined])⟩⟩
    rw [step_of_mode (legal c List.mem_cons_self) mode]
    simp only [stepIn, stepCdata]
    rw [if_neg goesOn]
    rfl

/-- A section without its end in it is read as it was written. -/
theorem run_cdata {text : List Char} (mode : s.mode = .content) (within : s.frames ≠ [])
    (legal : ∀ c ∈ text, isChar c = true) (whole : ¬ [']', ']', '>'] <:+: text) :
    s.run (['<', '!', '[', 'C', 'D', 'A', 'T', 'A', '['] ++ text ++ [']', ']', '>']) =
      some (s.add (.cdata text)) := by
  have opened : s.run ['<', '!', '[', 'C', 'D', 'A', 'T', 'A', '['] =
      some { s with mode := .cdata [] 0 } := by
    rw [run_opening mode, if_neg within]
  have none : EndsIn [] 0 :=
    ⟨fun one => absurd one (by decide), fun two => absurd two (by decide)⟩
  obtain ⟨brackets, read⟩ :=
    run_section (s := { s with mode := .cdata [] 0 }) rfl none legal whole
  refine run_append.mpr ⟨_, run_append.mpr ⟨_, opened, read⟩, ?_⟩
  refine run_cons.mpr ⟨_, rfl, run_cons.mpr ⟨_, rfl, ?_⟩⟩
  rw [List.nil_append]
  have both : bracketsAfter (bracketsAfter brackets ']') ']' = 2 := by
    simp only [bracketsAfter, if_true]
    omega
  have content : (text ++ [']'] ++ [']']).take ((text ++ [']'] ++ [']']).length - 2) = text := by
    rw [List.append_assoc, List.length_append]
    exact List.take_left
  refine run_cons.mpr ⟨s.add (.cdata text), ?_, rfl⟩
  rw [step_of_mode (by decide) rfl]
  simp only [stepIn, stepCdata]
  rw [if_pos ⟨trivial, both⟩, content]
  exact congrArg some (add_mode _)

/-! ### Markup where none is expected -/

/-- A name in a tag is one, wherever the tag is read. -/
theorem isName_of_run {name rest : List Char} (mode : s.mode = .content)
    (word : name ≠ [] ∧ ∀ c ∈ name, isNameChar c = true)
    (taken : s.run ('<' :: (name ++ rest)) = some s') :
    IsName name ∧ (s.frames ≠ [] ∨ s.root.isNone = true) := by
  obtain ⟨nonempty, part⟩ := word
  cases name with
  | nil => exact absurd rfl nonempty
  | cons c text =>
    have first := part c List.mem_cons_self
    obtain ⟨mid, markup, taken⟩ := run_cons.mp taken
    rw [step_of_mode (by decide) mode] at markup
    cases markup
    obtain ⟨mid, start, -⟩ := run_cons.mp taken
    rw [step_of_mode (isChar_of_isNameChar first) rfl] at start
    have slash : c ≠ '/' := ne_of_isNameChar first (by decide)
    have bang : c ≠ '!' := ne_of_isNameChar first (by decide)
    have question : c ≠ '?' := ne_of_isNameChar first (by decide)
    simp only [stepIn, stepMarkup, slash, bang, question, if_false] at start
    split at start
    · rename_i allowed
      exact ⟨⟨c, text, rfl, allowed.1, fun d member => part d (List.mem_cons_of_mem c member)⟩,
        allowed.2⟩
    · cases start

theorem isName_of_runEnd {name rest : List Char} (mode : s.mode = .content)
    (word : name ≠ [] ∧ ∀ c ∈ name, isNameChar c = true)
    (taken : s.run ('<' :: '/' :: (name ++ rest)) = some s') : IsName name := by
  obtain ⟨nonempty, part⟩ := word
  cases name with
  | nil => exact absurd rfl nonempty
  | cons c text =>
    have first := part c List.mem_cons_self
    obtain ⟨mid, markup, taken⟩ := run_cons.mp taken
    rw [step_of_mode (by decide) mode] at markup
    cases markup
    obtain ⟨mid, slash, taken⟩ := run_cons.mp taken
    cases slash
    obtain ⟨mid, start, -⟩ := run_cons.mp taken
    rw [step_of_mode (isChar_of_isNameChar first) rfl] at start
    have notEnd : c ≠ '>' := ne_of_isNameChar first (by decide)
    simp only [stepIn, stepEndTag, notEnd, isSpace_of_isNameChar first, continuesName, if_false,
      if_true, Bool.false_eq_true, false_and, true_and] at start
    split at start
    · rename_i allowed
      exact ⟨c, text, rfl, allowed, fun d member => part d (List.mem_cons_of_mem c member)⟩
    · cases start

/-- A comment goes on as long as there is no dash. -/
theorem run_comment {text : List Char} (mode : s.mode = .comment 0) (plain : '-' ∉ text)
    (taken : s.run text = some s') : s'.mode = .comment 0 ∧ s'.stored = s.stored := by
  induction text generalizing s with
  | nil =>
    cases taken
    exact ⟨mode, rfl⟩
  | cons c text ih =>
    obtain ⟨mid, first, rest⟩ := run_cons.mp taken
    have apart : c ≠ '-' := fun same => plain (same ▸ List.mem_cons_self)
    unfold step at first
    split at first
    · rw [mode] at first
      simp only [stepIn, stepComment, apart, if_false] at first
      cases first
      exact ih (s := { s with mode := .comment 0 }) rfl
        (fun member => plain (List.mem_cons_of_mem c member)) rest
    · cases first

/-- An instruction goes on as long as there is no question mark. -/
theorem run_instruction {text : List Char} (mode : s.mode = .instruction false)
    (plain : '?' ∉ text) (taken : s.run text = some s') :
    s'.mode = .instruction false ∧ s'.stored = s.stored := by
  induction text generalizing s with
  | nil =>
    cases taken
    exact ⟨mode, rfl⟩
  | cons c text ih =>
    obtain ⟨mid, first, rest⟩ := run_cons.mp taken
    have apart : c ≠ '?' := fun same => plain (same ▸ List.mem_cons_self)
    unfold step at first
    split at first
    · rw [mode] at first
      simp only [stepIn, stepInstruction, apart, Bool.false_eq_true, and_false, if_false,
        decide_false] at first
      cases first
      exact ih (s := { s with mode := .instruction false }) rfl
        (fun member => plain (List.mem_cons_of_mem c member)) rest
    · cases first

/-- Markup that is not read as such is passed over. -/
theorem run_aside {text : List Char} (quiet : s.Quiet) (aside : s.mode ≠ .content)
    (dash : '-' ∉ text) (question : '?' ∉ text) (taken : s.run ('<' :: text) = some s') :
    s'.Quiet ∧ s'.weight ≤ s.weight := by
  obtain ⟨mid, first, rest⟩ := run_cons.mp taken
  have legal : isChar '<' = true := by decide
  unfold Quiet at quiet
  split at quiet
  · rename_i mode
    exact absurd mode aside
  · rename_i dashes mode
    rw [step_of_mode legal mode] at first
    simp only [stepIn, stepComment] at first
    split at first
    · cases first
    · cases first
      obtain ⟨mode', stored⟩ := run_comment (s := { s with mode := .comment 0 }) rfl dash rest
      refine ⟨?_, ?_⟩
      · unfold Quiet
        rw [mode']
        trivial
      · rw [weight_of_mode mode', stored]
        exact stored_le_weight (s := s)
  · rename_i asked mode
    rw [step_of_mode legal mode] at first
    cases first
    obtain ⟨mode', stored⟩ :=
      run_instruction (s := { s with mode := .instruction false }) rfl question rest
    refine ⟨?_, ?_⟩
    · unfold Quiet
      rw [mode']
      trivial
    · rw [weight_of_mode mode', stored]
      exact stored_le_weight (s := s)
  · rename_i name attributes double mode
    rw [step_of_mode legal mode] at first
    cases double <;> cases first
  · cases quiet

theorem Quiet.of_mode (mode : s.mode = .content) : s.Quiet := by
  unfold Quiet
  rw [mode]
  trivial

end Scanner

end Xml
