import Ezilla.Lib.XmlScanner
import Mathlib.Algebra.Order.BigOperators.Group.List
import Mathlib.Algebra.Ring.Nat

/-!
# XML documents that are written without escaping

A writer that puts values into CDATA sections as they are, and names into tags. What the
scanner reads of such a document is compared with what was written.

* `Piece`: what is written;
* `weight_document`: the text that is read is at most the text that was written, and less
  where a value has the end of a section in it;
* `Scanner.inside`: the states of the scanner between the pieces that are read as written.
-/

namespace Xml

/-! ## Documents as they are written -/

/-- What a writer puts into a document: tags without attributes, and sections. -/
inductive Piece where
  | openTag (name : List Char)
  | closeTag (name : List Char)
  | emptyTag (name : List Char)
  | cdata (content : List Char)

namespace Piece

def text : Piece → List Char
  | .openTag name => '<' :: name ++ ['>']
  | .closeTag name => '<' :: '/' :: name ++ ['>']
  | .emptyTag name => '<' :: name ++ ['/', '>']
  | .cdata content =>
    ['<', '!', '[', 'C', 'D', 'A', 'T', 'A', '['] ++ content ++ [']', ']', '>']

/-- How much text a piece is meant to add. -/
def size : Piece → Nat
  | .cdata content => content.length
  | _ => 0

/-- The name in a tag is of characters of names; it may begin as a name does not. -/
def Worded : Piece → Prop
  | .openTag name | .closeTag name | .emptyTag name =>
    name ≠ [] ∧ ∀ c ∈ name, isNameChar c = true ∧ c ≠ '-'
  | .cdata _ => True

/-- The end of a section is in the content of the piece. -/
def Broken : Piece → Prop
  | .cdata content => [']', ']', '>'] <:+: content
  | _ => False

end Piece

namespace Scanner

variable {s s' : Scanner}

/-- A tag that is not read as such is passed over. -/
theorem aside_tag {name rest : List Char} (quiet : s.Quiet) (aside : s.mode ≠ .content)
    (word : ∀ c ∈ name, isNameChar c = true ∧ c ≠ '-')
    (plain : ∀ c ∈ rest, c = '/' ∨ c = '>') (taken : s.run ('<' :: (name ++ rest)) = some s') :
    s'.Quiet ∧ s'.weight ≤ s.weight := by
  refine run_aside quiet aside (fun member => ?_) (fun member => ?_) taken
  · rcases List.mem_append.mp member with inside | outside
    · exact (word _ inside).2 rfl
    · rcases plain _ outside with same | same <;> cases same
  · rcases List.mem_append.mp member with inside | outside
    · exact ne_of_isNameChar (word _ inside).1 (by decide) rfl
    · rcases plain _ outside with same | same <;> cases same

theorem weight_openTag {name : List Char} (quiet : s.Quiet) (worded : (Piece.openTag name).Worded)
    (taken : s.run (Piece.openTag name).text = some s') : s'.Quiet ∧ s'.weight ≤ s.weight := by
  have part : ∀ c ∈ name, isNameChar c = true := fun c member => (worded.2 c member).1
  by_cases mode : s.mode = .content
  · obtain ⟨is, room⟩ := isName_of_run mode ⟨worded.1, part⟩ taken
    unfold Piece.text at taken
    rw [run_openTag mode is room] at taken
    cases taken
    exact ⟨.of_mode rfl, (weight_openElement name).trans_le stored_le_weight⟩
  · exact aside_tag quiet mode worded.2 (fun c member => Or.inr (List.mem_singleton.mp member)) taken

theorem weight_emptyTag {name : List Char} (quiet : s.Quiet)
    (worded : (Piece.emptyTag name).Worded)
    (taken : s.run (Piece.emptyTag name).text = some s') : s'.Quiet ∧ s'.weight ≤ s.weight := by
  have part : ∀ c ∈ name, isNameChar c = true := fun c member => (worded.2 c member).1
  by_cases mode : s.mode = .content
  · obtain ⟨is, room⟩ := isName_of_run mode ⟨worded.1, part⟩ taken
    unfold Piece.text at taken
    rw [run_emptyTag mode is room] at taken
    cases taken
    exact ⟨.of_mode (mode_finish name [] s.frames),
      (weight_emptyElement_le name).trans stored_le_weight⟩
  · exact aside_tag quiet mode worded.2 (by simp) taken

theorem weight_closeTag {name : List Char} (quiet : s.Quiet)
    (worded : (Piece.closeTag name).Worded)
    (taken : s.run (Piece.closeTag name).text = some s') : s'.Quiet ∧ s'.weight ≤ s.weight := by
  have part : ∀ c ∈ name, isNameChar c = true := fun c member => (worded.2 c member).1
  by_cases mode : s.mode = .content
  · have is := isName_of_runEnd mode ⟨worded.1, part⟩ taken
    unfold Piece.text at taken
    rw [run_closeTag mode is] at taken
    exact ⟨.of_mode (mode_closeElement taken), (weight_closeElement_le taken).trans stored_le_weight⟩
  · refine run_aside quiet mode (fun member => ?_) (fun member => ?_) taken
    · rcases List.mem_cons.mp member with same | member
      · cases same
      rcases List.mem_append.mp member with inside | outside
      · exact (worded.2 _ inside).2 rfl
      · cases List.mem_singleton.mp outside
    · rcases List.mem_cons.mp member with same | member
      · cases same
      rcases List.mem_append.mp member with inside | outside
      · exact ne_of_isNameChar (part _ inside) (by decide) rfl
      · cases List.mem_singleton.mp outside

/-- The start of a section adds no text. -/
theorem weight_opening (quiet : s.Quiet)
    (taken : s.run ['<', '!', '[', 'C', 'D', 'A', 'T', 'A', '['] = some s') :
    s'.weight ≤ s.weight := by
  by_cases mode : s.mode = .content
  · rw [run_opening mode] at taken
    split at taken
    · cases taken
    · cases taken
      exact stored_le_weight (s := s)
  · exact (run_aside quiet mode (by decide) (by decide) taken).2

theorem weight_cdata {content : List Char} (quiet : s.Quiet)
    (taken : s.run (Piece.cdata content).text = some s') :
    s'.Quiet ∧ s'.weight ≤ s.weight + content.length := by
  obtain ⟨last, taken, closed⟩ := run_append.mp taken
  obtain ⟨first, opened, inside⟩ := run_append.mp taken
  obtain ⟨less, quiet'⟩ := run_closing closed
  have start := weight_opening quiet opened
  have read := weight_run inside
  exact ⟨quiet', by omega⟩

/-- A section with its end in it adds less text than it is meant to. -/
theorem weight_broken {content : List Char} (quiet : s.Quiet)
    (broken : (Piece.cdata content).Broken) (taken : s.run (Piece.cdata content).text = some s') :
    s'.weight < s.weight + content.length := by
  obtain ⟨before, after, rfl⟩ := broken
  obtain ⟨last, taken, closed⟩ := run_append.mp taken
  obtain ⟨first, opened, inside⟩ := run_append.mp taken
  obtain ⟨third, inside, tailRead⟩ := run_append.mp inside
  obtain ⟨second, headRead, ended⟩ := run_append.mp inside
  have start := weight_opening quiet opened
  have one := weight_run headRead
  have two := (run_closing ended).1
  have three := weight_run tailRead
  have four := (run_closing closed).1
  simp only [List.length_append, List.length_cons, List.length_nil]
  omega

theorem weight_piece {p : Piece} (quiet : s.Quiet) (worded : p.Worded)
    (taken : s.run p.text = some s') : s'.Quiet ∧ s'.weight ≤ s.weight + p.size := by
  cases p with
  | openTag name => exact weight_openTag quiet worded taken
  | closeTag name => exact weight_closeTag quiet worded taken
  | emptyTag name => exact weight_emptyTag quiet worded taken
  | cdata content => exact weight_cdata quiet taken

/-- What is written adds at most the text it is meant to, and less where a section is broken. -/
theorem weight_pieces {pieces : List Piece} (quiet : s.Quiet) (worded : ∀ p ∈ pieces, p.Worded)
    (taken : s.run (pieces.flatMap Piece.text) = some s') :
    s'.Quiet ∧ s'.weight ≤ s.weight + (pieces.map Piece.size).sum ∧
      ((∃ p ∈ pieces, p.Broken) → s'.weight < s.weight + (pieces.map Piece.size).sum) := by
  induction pieces generalizing s with
  | nil =>
    cases taken
    exact ⟨quiet, Nat.le_refl _, fun ⟨p, member, _⟩ => absurd member List.not_mem_nil⟩
  | cons p pieces ih =>
    rw [List.flatMap_cons] at taken
    obtain ⟨mid, first, rest⟩ := run_append.mp taken
    obtain ⟨quiet', one⟩ := weight_piece quiet (worded p List.mem_cons_self) first
    obtain ⟨quiet'', more, less⟩ :=
      ih quiet' (fun q member => worded q (List.mem_cons_of_mem p member)) rest
    rw [List.map_cons, List.sum_cons]
    refine ⟨quiet'', by omega, ?_⟩
    rintro ⟨q, member, broken⟩
    rcases List.mem_cons.mp member with rfl | later
    · cases q with
      | cdata content =>
        have strict := weight_broken quiet broken first
        simp only [Piece.size]
        omega
      | _ => exact broken.elim
    · have strict := less ⟨q, later, broken⟩
      omega

/-! ## Elements that are read as they were written -/

/-- Inside an element with some children, last first. -/
def inside (s : Scanner) (name : List Char) (children : List Node) : Scanner :=
  ⟨s.root, (name, children) :: s.frames, .content⟩

theorem closeElement_inside {name : List Char} {children : List Node} :
    (s.inside name children).closeElement name = some (s.finish name children s.frames) := by
  have same : (s.inside name children).closeElement name =
      some ((s.inside name children).finish name children s.frames) := by
    unfold closeElement inside
    exact if_pos rfl
  rw [same]
  unfold finish
  split
  · rfl
  · rename_i frame frames is
    unfold add
    rw [is]
    rfl

theorem finish_within {name : List Char} {children : List Node} {frame : List Char × List Node}
    {frames : List (List Char × List Node)} (is : s.frames = frame :: frames) :
    s.finish name children s.frames = s.add (.element name children.reverse) := by
  obtain ⟨root, inner, mode⟩ := s
  cases is
  rfl

/-- Inside an element a complete element becomes a child. -/
theorem inside_finish {name inner : List Char} {children kids : List Node} :
    (s.inside name children).finish inner kids (s.inside name children).frames =
      s.inside name (.element inner kids.reverse :: children) :=
  finish_within rfl

/-- An element without children, inside another. -/
theorem run_emptyElement {name key : List Char} {children : List Node}
    (worded : (Piece.emptyTag key).Worded) :
    (s.inside name children).run (Piece.emptyTag key).text = some s' ↔
      IsName key ∧ s' = s.inside name (.element key [] :: children) := by
  have part : ∀ c ∈ key, isNameChar c = true := fun c member => (worded.2 c member).1
  constructor
  · intro taken
    have is := (isName_of_run rfl ⟨worded.1, part⟩ taken).1
    unfold Piece.text at taken
    rw [run_emptyTag rfl is (Or.inl (List.cons_ne_nil _ _))] at taken
    cases taken
    exact ⟨is, inside_finish⟩
  · rintro ⟨is, rfl⟩
    exact (run_emptyTag rfl is (Or.inl (List.cons_ne_nil _ _))).trans
      (congrArg some inside_finish)

/-- An element with one section, inside another. -/
theorem run_leaf {name key content : List Char} {children : List Node}
    (worded : (Piece.openTag key).Worded) (legal : ∀ c ∈ content, isChar c = true)
    (whole : ¬ (Piece.cdata content).Broken) :
    (s.inside name children).run
        ([Piece.openTag key, .cdata content, .closeTag key].flatMap Piece.text) = some s' ↔
      IsName key ∧ s' = s.inside name (.element key [.cdata content] :: children) := by
  have part : ∀ c ∈ key, isNameChar c = true := fun c member => (worded.2 c member).1
  have read : IsName key → (s.inside name children).run
      ([Piece.openTag key, .cdata content, .closeTag key].flatMap Piece.text) =
        some (s.inside name (.element key [.cdata content] :: children)) := by
    intro is
    simp only [List.flatMap_cons, List.flatMap_nil, List.append_nil]
    refine run_append.mpr ⟨(s.inside name children).inside key [], ?_,
      run_append.mpr ⟨(s.inside name children).inside key [.cdata content], ?_, ?_⟩⟩
    · exact run_openTag rfl is (Or.inl (List.cons_ne_nil _ _))
    · exact run_cdata rfl (List.cons_ne_nil _ _) legal whole
    · refine (run_closeTag rfl is).trans (closeElement_inside.trans ?_)
      exact congrArg some inside_finish
  constructor
  · intro taken
    have is : IsName key := by
      rw [List.flatMap_cons] at taken
      obtain ⟨mid, first, -⟩ := run_append.mp taken
      exact (isName_of_run rfl ⟨worded.1, part⟩ first).1
    rw [read is] at taken
    exact ⟨is, (Option.some.inj taken).symm⟩
  · rintro ⟨is, rfl⟩
    exact read is

/-- Items that become a child each, or are not well formed, become children in their order. -/
theorem run_children {α : Type*} {outer : List Char} {items : List α} {write : α → List Char}
    {node : α → Node} {ok : α → Prop}
    (each : ∀ a ∈ items, ∀ children mid, (s.inside outer children).run (write a) = some mid ↔
      ok a ∧ mid = s.inside outer (node a :: children)) (children : List Node) :
    (s.inside outer children).run (items.flatMap write) = some s' ↔
      (∀ a ∈ items, ok a) ∧ s' = s.inside outer ((items.map node).reverse ++ children) := by
  induction items generalizing children with
  | nil =>
    refine ⟨fun taken => ⟨fun a member => absurd member List.not_mem_nil, ?_⟩, ?_⟩
    · exact (Option.some.inj taken).symm
    · rintro ⟨-, rfl⟩
      rfl
  | cons a items ih =>
    have first := each a List.mem_cons_self children
    have rest := ih (fun b member => each b (List.mem_cons_of_mem a member)) (node a :: children)
    have joined : ((a :: items).map node).reverse ++ children =
        (items.map node).reverse ++ node a :: children := by
      rw [List.map_cons, List.reverse_cons, List.append_assoc]
      rfl
    rw [List.flatMap_cons, run_append, joined, List.forall_mem_cons]
    constructor
    · rintro ⟨mid, read, taken⟩
      obtain ⟨good, rfl⟩ := (first mid).mp read
      obtain ⟨good', same⟩ := rest.mp taken
      exact ⟨⟨good, good'⟩, same⟩
    · rintro ⟨⟨good, good'⟩, same⟩
      exact ⟨_, (first _).mpr ⟨good, rfl⟩, rest.mpr ⟨good', same⟩⟩

theorem finish_root {name : List Char} {children : List Node} (is : s.frames = []) :
    s.finish name children s.frames = ⟨some (.element name children.reverse), [], .content⟩ := by
  rw [is]
  rfl

end Scanner

/-! ## The ends of lines -/

theorem normalizeLines_cons {c : Char} {text : List Char} (other : c ≠ '\r') :
    normalizeLines (c :: text) = c :: normalizeLines text :=
  if_neg other

theorem normalizeLines_append (first : List Char) {second : List Char}
    (apart : second.head? ≠ some '\n') :
    normalizeLines (first ++ second) = normalizeLines first ++ normalizeLines second := by
  induction first with
  | nil => rfl
  | cons c first ih =>
    have head : (first ++ second).head? = some '\n' ↔ first.head? = some '\n' := by
      cases first with
      | nil => exact iff_of_false apart (by simp)
      | cons d first => exact Iff.rfl
    simp only [List.cons_append, normalizeLines, head, ih]
    split
    · split
      · rfl
      · rfl
    · rfl

theorem normalizeLines_plain {first : List Char} (second : List Char) (plain : '\r' ∉ first) :
    normalizeLines (first ++ second) = first ++ normalizeLines second := by
  induction first with
  | nil => rfl
  | cons c first ih =>
    rw [List.cons_append, normalizeLines_cons fun same => plain (same ▸ List.mem_cons_self),
      ih fun member => plain (List.mem_cons_of_mem c member)]
    rfl

theorem normalizeLines_eq {text : List Char} (plain : '\r' ∉ text) : normalizeLines text = text := by
  have same := normalizeLines_plain [] plain
  rw [List.append_nil] at same
  rw [same]
  exact List.append_nil text

theorem length_normalizeLines_le (text : List Char) :
    (normalizeLines text).length ≤ text.length := by
  induction text with
  | nil => exact Nat.le_refl 0
  | cons c text ih =>
    simp only [normalizeLines, List.length_cons]
    split
    · split
      · exact ih.trans (Nat.le_succ _)
      · exact Nat.succ_le_succ ih
    · exact Nat.succ_le_succ ih

/-- There is no return in a text whose lines are normalized. -/
theorem return_not_mem_normalizeLines (text : List Char) : '\r' ∉ normalizeLines text := by
  induction text with
  | nil => exact List.not_mem_nil
  | cons d text ih =>
    simp only [normalizeLines]
    split
    · split
      · exact ih
      · intro member
        rcases List.mem_cons.mp member with same | within
        · cases same
        · exact ih within
    · rename_i other
      intro member
      rcases List.mem_cons.mp member with same | within
      · exact other same.symm
      · exact ih within

namespace Piece

/-- A piece after the ends of its lines were normalized. -/
def normalized : Piece → Piece
  | .cdata content => .cdata (normalizeLines content)
  | p => p

variable {p : Piece}

theorem Worded.normalized (worded : p.Worded) : p.normalized.Worded := by
  cases p with
  | cdata content => trivial
  | _ => exact worded

theorem size_normalized_le : p.normalized.size ≤ p.size := by
  cases p with
  | cdata content => exact length_normalizeLines_le content
  | _ => exact Nat.le_refl 0

theorem Broken.normalized (broken : p.Broken) : p.normalized.Broken := by
  cases p with
  | cdata content =>
    obtain ⟨before, after, rfl⟩ := broken
    refine ⟨normalizeLines before, normalizeLines after, ?_⟩
    rw [List.append_assoc, List.append_assoc, normalizeLines_append before (by simp),
      normalizeLines_plain after (by decide)]
  | _ => exact broken

theorem Worded.no_return {name rest : List Char}
    (word : ∀ c ∈ name, isNameChar c = true ∧ c ≠ '-') (plain : '\r' ∉ rest) :
    '\r' ∉ name ++ rest := by
  intro member
  rcases List.mem_append.mp member with inside | outside
  · exact ne_of_isNameChar (word _ inside).1 (by decide) rfl
  · exact plain outside

/-- The ends of lines are normalized piece by piece. -/
theorem normalizeLines_text (worded : p.Worded) (rest : List Char) :
    normalizeLines (p.text ++ rest) = p.normalized.text ++ normalizeLines rest := by
  cases p with
  | openTag name =>
    refine normalizeLines_plain rest fun member => ?_
    rcases List.mem_cons.mp member with same | member
    · cases same
    · exact Worded.no_return worded.2 (by decide) member
  | emptyTag name =>
    refine normalizeLines_plain rest fun member => ?_
    rcases List.mem_cons.mp member with same | member
    · cases same
    · exact Worded.no_return worded.2 (by decide) member
  | closeTag name =>
    refine normalizeLines_plain rest fun member => ?_
    rcases List.mem_cons.mp member with same | member
    · cases same
    rcases List.mem_cons.mp member with same | member
    · cases same
    · exact Worded.no_return worded.2 (by decide) member
  | cdata content =>
    simp only [text, Piece.normalized, List.append_assoc]
    rw [normalizeLines_plain _ (by decide), normalizeLines_append content (by simp),
      normalizeLines_plain rest (by decide)]

theorem normalizeLines_flatMap {pieces : List Piece} (worded : ∀ p ∈ pieces, p.Worded) :
    normalizeLines (pieces.flatMap text) = (pieces.map Piece.normalized).flatMap text := by
  induction pieces with
  | nil => rfl
  | cons p pieces ih =>
    rw [List.flatMap_cons, normalizeLines_text (worded p List.mem_cons_self),
      ih fun q member => worded q (List.mem_cons_of_mem p member), List.map_cons,
      List.flatMap_cons]

end Piece

/-- A document is of characters that XML allows. -/
theorem isChar_of_document {text : List Char} {root : Node} (taken : document text = some root) :
    ∀ c ∈ normalizeLines text, isChar c = true := by
  intro c member
  by_contra illegal
  have stuck := Scanner.run_eq_none (s := Scanner.start)
    ⟨c, member, Bool.eq_false_of_not_eq_true illegal⟩
  unfold document at taken
  rw [stuck] at taken
  cases taken

/-- A document as it was written holds at most the text that was meant, and less where a
section is broken. -/
theorem weight_document {pieces : List Piece} {root : Node} (worded : ∀ p ∈ pieces, p.Worded)
    (taken : document (pieces.flatMap Piece.text) = some root) :
    root.weight ≤ (pieces.map Piece.size).sum ∧
      ((∃ p ∈ pieces, p.normalized.Broken) → root.weight < (pieces.map Piece.size).sum) := by
  obtain ⟨last, read, tree⟩ := Option.bind_eq_some_iff.mp taken
  rw [Piece.normalizeLines_flatMap worded] at read
  have worded' : ∀ p ∈ pieces.map Piece.normalized, p.Worded := by
    intro p member
    obtain ⟨q, within, rfl⟩ := List.mem_map.mp member
    exact (worded q within).normalized
  obtain ⟨-, most, less⟩ := Scanner.weight_pieces (.of_mode rfl) worded' read
  have start : Scanner.start.weight = 0 := rfl
  have sizes : ((pieces.map Piece.normalized).map Piece.size).sum ≤ (pieces.map Piece.size).sum := by
    rw [List.map_map]
    exact List.sum_le_sum fun p _ => Piece.size_normalized_le
  have held : root.weight ≤ last.weight := by
    unfold Scanner.tree at tree
    split at tree
    · rename_i mode frames
      rw [Scanner.weight, Scanner.stored, tree]
      simp only [Option.map_some, Option.getD_some]
      omega
    · cases tree
  refine ⟨by omega, ?_⟩
  rintro ⟨p, member, broken⟩
  have strict := less ⟨p.normalized, List.mem_map_of_mem member, broken⟩
  omega

end Xml
