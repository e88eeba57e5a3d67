import Ezilla.Lib.ShellWords
import Ezilla.Vm.DiskRuns

/-!
# The CONTEXT of a VM and its file

`parse_context` writes the CONTEXT as one text with separators, replaces the variables in it and
splits it again. `generate_context` writes the values between double quotes for a shell to read.

* `generateContext`: the file;
* `Separated`: entries that are split again where they were joined;
* `FaithfulContext`: what is to come through both;
* `faithfulContext_iff`: when it does.
* `DiskCreation.keepsContext_of_plain`: contexts that keep their target and their number.
-/

namespace Ezilla

open ShellWords

/-! ## The file -/

/-- What `generate_context` returns: the files to copy, the text, and the number of the disk. -/
structure ContextFile where
  files : String
  text : String
  diskId : Option Int
  deriving DecidableEq

/-- The text of the file. -/
def contextText (values : List (String × String)) : String :=
  "# Context variables generated by OpenNebula\n" ++
    String.join ((TemplateXml.ordered values).map fun v => v.1 ++ "=\"" ++ v.2 ++ "\"\n")

/-- The errors of `generate_context`, which all return -1. -/
inductive ContextFileError where
  | noHistory
  /-- Could not open context file -/
  | notOpened
  | wrongFormat
  deriving DecidableEq

/-- `VirtualMachine::generate_context` on the CONTEXT attributes; there may be no context. -/
def generateContext (hasHistory opened : Bool) (contexts : List Attribute) :
    Except ContextFileError (Option ContextFile) :=
  if !hasHistory then .error .noHistory
  else
    match contexts with
    | [context] =>
      if !opened then .error .notOpened
      else
        match context with
        | .single _ _ => .error .wrongFormat
        | .vector _ values =>
          let filesDs := Attribute.vectorValue values "FILES_DS"
          let files := Attribute.vectorValue values "FILES"
          .ok (some ⟨if filesDs ≠ "" then files ++ " " ++ filesDs else files, contextText values,
            Attribute.vectorInt values "DISK_ID"⟩)
    | _ => .ok none

/-- The names and values as lists of characters. -/
def charsOf (values : List (String × String)) : List (List Char × List Char) :=
  values.map fun v => (v.1.toList, v.2.toList)

theorem toList_contextText (values : List (String × String)) : (contextText values).toList =
    '#' :: " Context variables generated by OpenNebula".toList ++
      '\n' :: assignmentLines (charsOf (TemplateXml.ordered values)) := by
  have lines : ∀ l : List (String × String),
      (String.join (l.map fun v => v.1 ++ "=\"" ++ v.2 ++ "\"\n")).toList =
        assignmentLines (charsOf l) := by
    intro l
    induction l with
    | nil => rfl
    | cons v l ih =>
      have equals : "=\"".toList = ['=', '"'] := rfl
      have quote : "\"\n".toList = ['"', '\n'] := rfl
      have first : charsOf (v :: l) = (v.1.toList, v.2.toList) :: charsOf l := rfl
      rw [List.map_cons, String.join_cons, String.toList_append, ih, first, assignmentLines_cons,
        String.toList_append, String.toList_append, String.toList_append, equals, quote]
      simp only [List.append_assoc, List.cons_append, List.nil_append]
  unfold contextText
  rw [String.toList_append, lines]
  rfl

/-! ## The entries -/

/-- The separator of `parse_context`. -/
def contextSeparator : List Char := " @^_^@ ".toList

/-- `NAME=value` -/
def entryText (v : String × String) : List Char := v.1.toList ++ '=' :: v.2.toList

/-- No entry has the separator in it, and only the last one may end with all but its last blank. -/
def Separated : List (List Char) → Prop
  | [] => True
  | [p] => ¬ contextSeparator <:+: p
  | p :: q :: ps => (¬ contextSeparator <:+: p ∧ ¬ " @^_^@".toList <:+ p) ∧ Separated (q :: ps)

instance decidableSeparated : (ps : List (List Char)) → Decidable (Separated ps)
  | [] => isTrue trivial
  | [p] => inferInstanceAs (Decidable (¬ contextSeparator <:+: p))
  | p :: q :: ps =>
    have := decidableSeparated (q :: ps)
    inferInstanceAs (Decidable ((¬ contextSeparator <:+: p ∧ ¬ " @^_^@".toList <:+ p) ∧
      Separated (q :: ps)))

/-- The CONTEXT comes through `parse_context` with its names and values apart from FILES_DS, and a
shell that reads the file assigns just what the CONTEXT then has, and nothing else. -/
def FaithfulContext (w : ContextWorld) (scope : VariableScope) (context : List (String × String)) :
    Prop :=
  ∃ result, parseContext w scope [.vector "CONTEXT" context] = .ok (some result) ∧
    (∀ n v, n ≠ "FILES_DS" → ((n, v) ∈ result ↔ (n, v) ∈ context)) ∧
    ∃ file, generateContext true true [.vector "CONTEXT" result] = .ok (some file) ∧
      shellAssignments file.text.toList = some (charsOf (TemplateXml.ordered result))

/-! ## Splitting -/

section Splitting

variable {sep acc p rest : List Char} {k : Nat}

/-- The separator does not begin in `p`, whatever follows. -/
def Clean (sep p rest : List Char) : Prop :=
  ∀ x y, p = x ++ y → y ≠ [] → ¬ sep <+: y ++ rest

theorem Clean.tail {c : Char} (clean : Clean sep (c :: p) rest) : Clean sep p rest := by
  intro x y is nonempty
  exact clean (c :: x) y (by rw [is, List.cons_append]) nonempty

theorem splitAt_clean (clean : Clean sep p rest) :
    splitAt sep 0 acc (p ++ rest) = splitAt sep 0 (acc ++ p) rest := by
  induction p generalizing acc with
  | nil => rw [List.nil_append, List.append_nil]
  | cons c p ih =>
    have none : ¬ sep.isPrefixOf (c :: (p ++ rest)) = true := by
      rw [List.isPrefixOf_iff_prefix]
      exact clean [] (c :: p) rfl (List.cons_ne_nil c p)
    rw [List.cons_append, splitAt, if_neg none, ih clean.tail, List.append_assoc,
      List.singleton_append]

theorem splitAt_skip (acc x : List Char) (rest : List Char) :
    splitAt sep x.length acc (x ++ rest) = splitAt sep 0 acc rest := by
  induction x with
  | nil => rfl
  | cons c x ih =>
    rw [List.length_cons, List.cons_append, splitAt, ih]

theorem splitAt_sep {c : Char} {m : List Char} (acc rest : List Char) :
    splitAt (c :: m) 0 acc (c :: m ++ rest) = acc :: splitAt (c :: m) 0 [] rest := by
  have here : (c :: m).isPrefixOf (c :: (m ++ rest)) = true :=
    List.isPrefixOf_iff_prefix.mpr ⟨rest, rfl⟩
  rw [List.cons_append, splitAt, if_pos here, List.length_cons, Nat.add_sub_cancel, splitAt_skip]

/-- Where the separator begins in `p`, the piece ends there. -/
theorem splitAt_of_not_clean (acc : List Char) (dirty : ¬ Clean sep p rest) :
    ∃ x y more, p = x ++ y ∧ y ≠ [] ∧ sep <+: y ++ rest ∧
      splitAt sep 0 acc (p ++ rest) = (acc ++ x) :: more := by
  induction p generalizing acc with
  | nil =>
    refine absurd (fun x y is nonempty => ?_) dirty
    exact absurd (List.append_eq_nil_iff.mp is.symm).2 nonempty
  | cons c p ih =>
    by_cases here : sep <+: c :: (p ++ rest)
    · refine ⟨[], c :: p, splitAt sep (sep.length - 1) [] (p ++ rest), rfl, List.cons_ne_nil c p,
        here, ?_⟩
      rw [List.cons_append, splitAt, if_pos (List.isPrefixOf_iff_prefix.mpr here), List.append_nil]
    · have later : ¬ Clean sep p rest := by
        intro clean
        refine dirty fun x y is nonempty => ?_
        cases x with
        | nil =>
          rw [List.nil_append] at is
          rw [← is]
          exact here
        | cons d x => exact clean x y (List.cons.inj is).2 nonempty
      obtain ⟨x, y, more, is, nonempty, begins, split⟩ := ih (acc ++ [c]) later
      refine ⟨c :: x, y, more, by rw [is, List.cons_append], nonempty, begins, ?_⟩
      have none : ¬ sep.isPrefixOf (c :: (p ++ rest)) = true := by
        rw [List.isPrefixOf_iff_prefix]
        exact here
      rw [List.cons_append, splitAt, if_neg none, split, List.append_assoc, List.singleton_append]

end Splitting

section Separator

variable {p rest : List Char}

theorem clean_last_iff : Clean contextSeparator p [] ↔ ¬ contextSeparator <:+: p := by
  constructor
  · intro clean found
    obtain ⟨x, y, is⟩ := found
    have split : p = x ++ (contextSeparator ++ y) := by rw [← is, List.append_assoc]
    refine clean x (contextSeparator ++ y) split (List.cons_ne_nil _ _) ⟨y, ?_⟩
    rw [List.append_nil]
  · intro none x y is nonempty begins
    rw [List.append_nil] at begins
    obtain ⟨z, rfl⟩ := begins
    exact none ⟨x, z, by rw [is, List.append_assoc]⟩

/-- The separator overlaps itself in one blank only. -/
theorem border_contextSeparator : ∀ k < 7, 0 < k →
    contextSeparator.drop k <+: contextSeparator → k = 6 := by
  decide

theorem clean_sep_iff : Clean contextSeparator p (contextSeparator ++ rest) ↔
    ¬ contextSeparator <:+: p ∧ ¬ " @^_^@".toList <:+ p := by
  have length : contextSeparator.length = 7 := rfl
  constructor
  · intro clean
    constructor
    · intro found
      obtain ⟨x, y, is⟩ := found
      have split : p = x ++ (contextSeparator ++ y) := by rw [← is, List.append_assoc]
      refine clean x (contextSeparator ++ y) split (List.cons_ne_nil _ _)
        ⟨y ++ (contextSeparator ++ rest), ?_⟩
      exact (List.append_assoc _ _ _).symm
    · intro found
      obtain ⟨x, rfl⟩ := found
      exact clean x _ rfl (List.cons_ne_nil _ _) ⟨"@^_^@ ".toList ++ rest, rfl⟩
  · intro ⟨free, unended⟩ x y is nonempty begins
    by_cases long : 7 ≤ y.length
    · have whole : contextSeparator <+: y :=
        List.prefix_of_prefix_length_le begins (List.prefix_append y _) long
      obtain ⟨z, rfl⟩ := whole
      exact free ⟨x, z, by rw [is, List.append_assoc]⟩
    · -- the separator begins with `y` and goes on with its own beginning
      have start : y <+: contextSeparator :=
        List.prefix_of_prefix_length_le (List.prefix_append y _) begins (by omega)
      obtain ⟨z, whole⟩ := start
      have size : y.length + z.length = 7 := by
        rw [← length, ← whole, List.length_append]
      have own : z <+: contextSeparator := by
        rw [← whole, List.append_assoc] at begins
        have tail : z <+: y ++ z ++ rest := by
          have inner := (List.prefix_append_right_inj y).mp begins
          rwa [List.append_assoc]
        have inside : z <+: contextSeparator ++ rest := whole ▸ tail
        exact List.prefix_of_prefix_length_le inside (List.prefix_append _ rest) (by omega)
      have z_is : contextSeparator.drop y.length = z := by
        rw [← whole, List.drop_left]
      rw [← z_is] at own
      have six := border_contextSeparator y.length (by omega)
        (List.length_pos_iff.mpr nonempty) own
      have y_is : y = " @^_^@".toList := by
        have taken : contextSeparator.take y.length = y := by
          rw [← whole, List.take_left]
        rw [← taken, six]
        rfl
      exact unended ⟨x, by rw [is, y_is]⟩

end Separator

/-! ## Joining and splitting -/

/-- The pieces with the separators between them. -/
def joined (ps : List (List Char)) : List Char := contextSeparator.intercalate ps

theorem joined_cons_cons (p q : List Char) (ps : List (List Char)) :
    joined (p :: q :: ps) = p ++ (contextSeparator ++ joined (q :: ps)) := by
  unfold joined
  rw [List.intercalate_cons_cons, List.append_assoc]

theorem splitAt_contextSeparator (acc rest : List Char) :
    splitAt contextSeparator 0 acc (contextSeparator ++ rest) =
      acc :: splitAt contextSeparator 0 [] rest :=
  splitAt_sep acc rest

theorem splitAt_joined {ps : List (List Char)} (nonempty : ps ≠ []) (separated : Separated ps) :
    splitAt contextSeparator 0 [] (joined ps) = ps := by
  induction ps with
  | nil => exact absurd rfl nonempty
  | cons p ps ih =>
    cases ps with
    | nil =>
      have clean : Clean contextSeparator p [] := clean_last_iff.mpr separated
      have alone : joined [p] = p ++ [] := by
        rw [List.append_nil]
        exact List.intercalate_singleton
      rw [alone, splitAt_clean clean]
      rfl
    | cons q ps =>
      obtain ⟨first, separated⟩ := separated
      rw [joined_cons_cons, splitAt_clean (clean_sep_iff.mpr first), splitAt_contextSeparator,
        ih (List.cons_ne_nil q ps) separated]
      rfl

/-! ## Entries that are read -/

section Entries

variable {values l : List (String × String)} {v : String × String}

/-- One piece in `unmarshall`. -/
def addPiece (values : List (String × String)) (piece : List Char) : List (String × String) :=
  let name := String.ofList (piece.takeWhile (· ≠ '='))
  if '=' ∉ piece ∨ values.any fun v => v.1 = name then values
  else values ++ [(name, String.ofList ((piece.dropWhile (· ≠ '=')).drop 1))]

theorem unmarshall_eq (sep text : String) : Attribute.unmarshall sep text =
    (splitAt sep.toList 0 [] text.toList).foldl addPiece [] :=
  rfl

theorem addPiece_entry (name : '=' ∉ v.1.toList) (fresh : v.1 ∉ values.map Prod.fst) :
    addPiece values (entryText v) = values ++ [v] := by
  have before : ∀ c ∈ v.1.toList, (decide (c ≠ '=')) = true := by
    intro c member
    refine decide_eq_true fun same => ?_
    rw [same] at member
    exact name member
  have taken : (entryText v).takeWhile (· ≠ '=') = v.1.toList := by
    unfold entryText
    rw [List.takeWhile_append_of_pos before, List.takeWhile_cons_of_neg (by decide), List.append_nil]
  have dropped : ((entryText v).dropWhile (· ≠ '=')).drop 1 = v.2.toList := by
    unfold entryText
    rw [List.dropWhile_append_of_pos before, List.dropWhile_cons_of_neg (by decide)]
    rfl
  have new : ¬ ('=' ∉ entryText v ∨ (values.any fun u => u.1 = v.1) = true) := by
    rintro (none | known)
    · exact none (List.mem_append_right _ List.mem_cons_self)
    · obtain ⟨u, member, same⟩ := List.any_eq_true.mp known
      rw [← of_decide_eq_true same] at fresh
      exact fresh (List.mem_map_of_mem member)
  unfold addPiece
  rw [taken, dropped, String.ofList_toList, String.ofList_toList]
  exact if_neg new

theorem fresh_of_nodup (unequal : ((values ++ v :: l).map Prod.fst).Nodup) :
    v.1 ∉ values.map Prod.fst := by
  intro known
  rw [List.map_append] at unequal
  exact (List.nodup_append.mp unequal).2.2 _ known _ List.mem_cons_self rfl

/-- Entries of different names are all added, in their order. -/
theorem foldl_addPiece (names : ∀ v ∈ l, '=' ∉ v.1.toList)
    (unequal : ((values ++ l).map Prod.fst).Nodup) :
    (l.map entryText).foldl addPiece values = values ++ l := by
  induction l generalizing values with
  | nil => exact (List.append_nil values).symm
  | cons v l ih =>
    have split : values ++ v :: l = values ++ [v] ++ l := by
      rw [List.append_assoc, List.singleton_append]
    have fresh := fresh_of_nodup unequal
    rw [List.map_cons, List.foldl_cons, addPiece_entry (names v List.mem_cons_self) fresh, split]
    rw [split] at unequal
    exact ih (fun u member => names u (List.mem_cons_of_mem v member)) unequal

theorem addPiece_cases (values : List (String × String)) (piece : List Char) :
    addPiece values piece = values ∨
      ∃ v, v.1 ∉ values.map Prod.fst ∧ addPiece values piece = values ++ [v] := by
  unfold addPiece
  dsimp only
  split
  · exact Or.inl rfl
  · rename_i new
    refine Or.inr ⟨_, fun known => ?_, rfl⟩
    obtain ⟨u, member, same⟩ := List.mem_map.mp known
    exact new (Or.inr (List.any_eq_true.mpr ⟨u, member, decide_eq_true same⟩))

/-- What was added stays, and no name is added twice. -/
theorem foldl_addPiece_keeps (pieces : List (List Char)) (unequal : (values.map Prod.fst).Nodup) :
    values <+: pieces.foldl addPiece values ∧
      ((pieces.foldl addPiece values).map Prod.fst).Nodup := by
  induction pieces generalizing values with
  | nil => exact ⟨List.prefix_refl values, unequal⟩
  | cons piece pieces ih =>
    rw [List.foldl_cons]
    rcases addPiece_cases values piece with same | ⟨v, fresh, added⟩
    · rw [same]
      exact ih unequal
    · have both : ((values ++ [v]).map Prod.fst).Nodup := by
        rw [List.map_append]
        refine List.nodup_append.mpr ⟨unequal, List.nodup_singleton _, fun n known n' new same => ?_⟩
        rw [List.mem_singleton.mp new] at same
        rw [same] at known
        exact fresh known
      rw [added]
      obtain ⟨kept, apart⟩ := ih both
      exact ⟨(List.prefix_append values [v]).trans kept, apart⟩

/-- The separator cannot begin in a name, so an entry that is cut has the name and a part of the
value. -/
theorem cut_entry {x y rest : List Char} (name : ' ' ∉ v.1.toList) (is : entryText v = x ++ y)
    (nonempty : y ≠ []) (begins : contextSeparator <+: y ++ rest) :
    ∃ part, x = entryText (v.1, part) ∧ part ≠ v.2 := by
  obtain ⟨y, rfl⟩ : ∃ z, y = ' ' :: z := by
    obtain ⟨z, same⟩ := begins
    cases y with
    | nil => exact absurd rfl nonempty
    | cons c y => exact ⟨y, congrArg (· :: y) (List.cons.inj same).1.symm⟩
  unfold entryText at is
  rcases List.append_eq_append_iff.mp is with ⟨w, x_is, behind⟩ | ⟨w, name_is, behind⟩
  · cases w with
    | nil =>
      rw [List.nil_append] at behind
      cases (List.cons.inj behind).1
    | cons c w =>
      obtain ⟨rfl, value_is⟩ := List.cons.inj behind
      refine ⟨String.ofList w, ?_, fun same => ?_⟩
      · unfold entryText
        rw [String.toList_ofList]
        exact x_is
      · have length := congrArg List.length value_is
        rw [← same, String.toList_ofList] at length
        simp at length
  · cases w with
    | nil =>
      rw [List.nil_append] at behind
      cases (List.cons.inj behind).1
    | cons c w =>
      have first := (List.cons.inj behind).1
      rw [name_is, ← first] at name
      exact absurd (List.mem_append_right _ List.mem_cons_self) name

/-- An entry that is read again was not cut. -/
theorem clean_of_read {rest : List Char} (blank : ' ' ∉ v.1.toList) (name : '=' ∉ v.1.toList)
    (unequal : ((values ++ [v]).map Prod.fst).Nodup)
    (read : v ∈ (splitAt contextSeparator 0 [] (entryText v ++ rest)).foldl addPiece values) :
    Clean contextSeparator (entryText v) rest := by
  by_contra dirty
  obtain ⟨x, y, more, is, nonempty, begins, split⟩ := splitAt_of_not_clean [] dirty
  obtain ⟨part, rfl, other⟩ := cut_entry blank is nonempty begins
  have fresh := fresh_of_nodup unequal
  have same_names : (values ++ [(v.1, part)]).map Prod.fst = (values ++ [v]).map Prod.fst := by
    rw [List.map_append, List.map_append]
    rfl
  obtain ⟨kept, apart⟩ := foldl_addPiece_keeps more (same_names ▸ unequal)
  rw [split, List.nil_append, List.foldl_cons, addPiece_entry (v := (v.1, part)) name fresh] at read
  have member := kept.subset (List.mem_append_right values List.mem_cons_self)
  exact other (congrArg Prod.snd (List.inj_on_of_nodup_map apart member read rfl))

/-- Where every entry is read again, they were separated. -/
theorem separated_of_read (blanks : ∀ v ∈ l, ' ' ∉ v.1.toList) (names : ∀ v ∈ l, '=' ∉ v.1.toList)
    (unequal : ((values ++ l).map Prod.fst).Nodup)
    (read : ∀ v ∈ l,
      v ∈ (splitAt contextSeparator 0 [] (joined (l.map entryText))).foldl addPiece values) :
    Separated (l.map entryText) := by
  induction l generalizing values with
  | nil => trivial
  | cons v l ih =>
    have blank := blanks v List.mem_cons_self
    have name := names v List.mem_cons_self
    have split : values ++ v :: l = values ++ [v] ++ l := by
      rw [List.append_assoc, List.singleton_append]
    rw [split] at unequal
    have first : ((values ++ [v]).map Prod.fst).Nodup := by
      rw [List.map_append] at unequal
      exact (List.nodup_append.mp unequal).1
    cases l with
    | nil =>
      have alone : joined ([v].map entryText) = entryText v ++ [] := by
        rw [List.append_nil]
        exact List.intercalate_singleton
      rw [alone] at read
      exact clean_last_iff.mp (clean_of_read blank name first (read v List.mem_cons_self))
    | cons u l =>
      rw [List.map_cons, List.map_cons, joined_cons_cons] at read
      have clean := clean_of_read blank name first (read v List.mem_cons_self)
      have fresh := fresh_of_nodup first
      refine ⟨clean_sep_iff.mp clean, ih (fun w member => blanks w (List.mem_cons_of_mem v member))
        (fun w member => names w (List.mem_cons_of_mem v member)) unequal fun w member => ?_⟩
      have later := read w (List.mem_cons_of_mem v member)
      rwa [splitAt_clean clean, splitAt_contextSeparator, List.nil_append, List.foldl_cons,
        addPiece_entry name fresh] at later

end Entries

/-! ## The text without variables -/

theorem parseTemplateAttribute_plain {scope : VariableScope} {text : String} (nonempty : text ≠ "")
    (plain : '$' ∉ text.toList) : VariableText.parseTemplateAttribute scope text = some text := by
  have reads : ∀ cs : List Char, '$' ∉ cs →
      VariableText.Reads cs (cs.map VariableText.Piece.char) ∧
        VariableText.output scope cs = some (String.ofList cs) := by
    intro cs
    induction cs with
    | nil => exact fun _ => ⟨.nil, rfl⟩
    | cons c cs ih =>
      intro plain
      have other : c ≠ '$' := fun same => plain (same ▸ List.mem_cons_self)
      obtain ⟨reads, copied⟩ := ih fun member => plain (List.mem_cons_of_mem c member)
      refine ⟨.char other reads, ?_⟩
      rw [VariableText.output_char other, copied]
      exact congrArg some (String.ofList_cons).symm
  obtain ⟨reads, copied⟩ := reads text.toList plain
  rw [VariableText.parseTemplateAttribute_eq nonempty reads, copied, String.ofList_toList]

section Plain

variable {w : ContextWorld} {scope : VariableScope} {context : List (String × String)}
  {files : String}

/-- The names are different, no `$` is in the CONTEXT apart from FILES_DS, and the images that
FILES_DS names are context images. -/
structure PlainContext (w : ContextWorld) (context : List (String × String)) (files : String) :
    Prop where
  unequal : (context.map Prod.fst).Nodup
  plain : ∀ v ∈ Attribute.remove context "FILES_DS", '$' ∉ v.1.toList ∧ '$' ∉ v.2.toList
  files : w.filesDs (Attribute.vectorValue context "FILES_DS") = .ok files

/-- The CONTEXT as it is split again, in the order it was written in. -/
def splitContext (context : List (String × String)) : List (String × String) :=
  (splitAt contextSeparator 0 []
    (joined ((TemplateXml.ordered (Attribute.remove context "FILES_DS")).map entryText))).foldl
      addPiece []

theorem toList_marshalled (values : List (String × String)) :
    (" @^_^@ ".intercalate (values.map fun v => v.1 ++ "=" ++ v.2)).toList =
      joined (values.map entryText) := by
  have entries : (values.map fun v => v.1 ++ "=" ++ v.2).map String.toList =
      values.map entryText := by
    rw [List.map_map]
    refine List.map_congr_left fun v _ => ?_
    have equals : "=".toList = ['='] := rfl
    unfold entryText
    rw [Function.comp_apply, String.toList_append, String.toList_append, equals, List.append_assoc,
      List.singleton_append]
  rw [String.toList_intercalate, entries]
  rfl

theorem mem_joined {c : Char} {ps : List (List Char)} (member : c ∈ joined ps) :
    c ∈ contextSeparator ∨ ∃ p ∈ ps, c ∈ p := by
  induction ps with
  | nil => exact absurd member List.not_mem_nil
  | cons p ps ih =>
    cases ps with
    | nil =>
      have alone : joined [p] = p := List.intercalate_singleton
      rw [alone] at member
      exact Or.inr ⟨p, List.mem_cons_self, member⟩
    | cons q ps =>
      rw [joined_cons_cons] at member
      rcases List.mem_append.mp member with first | rest
      · exact Or.inr ⟨p, List.mem_cons_self, first⟩
      · rcases List.mem_append.mp rest with separator | later
        · exact Or.inl separator
        · rcases ih later with separator | ⟨p', known, within⟩
          · exact Or.inl separator
          · exact Or.inr ⟨p', List.mem_cons_of_mem p known, within⟩

theorem joined_ne_nil {values : List (String × String)} (nonempty : values ≠ []) :
    joined (values.map entryText) ≠ [] := by
  have entry : ∀ v rest, entryText v ++ rest ≠ [] := fun v rest none =>
    List.append_ne_nil_of_right_ne_nil _ (List.cons_ne_nil _ _) (List.append_eq_nil_iff.mp none).1
  cases values with
  | nil => exact absurd rfl nonempty
  | cons v values =>
    cases values with
    | nil =>
      have alone : joined ([v].map entryText) = entryText v ++ [] := by
        rw [List.append_nil]
        exact List.intercalate_singleton
      rw [alone]
      exact entry v []
    | cons u values =>
      rw [List.map_cons, List.map_cons, joined_cons_cons]
      exact entry v _

theorem ordered_eq_nil {values : List (String × String)} (none : TemplateXml.ordered values = []) :
    values = [] := by
  refine List.eq_nil_iff_forall_not_mem.mpr fun v member => ?_
  rw [← TemplateXml.mem_ordered, none] at member
  exact List.not_mem_nil member

/-- A CONTEXT with other values than FILES_DS is split as it was joined. -/
theorem parseContext_plain (plain : PlainContext w context files)
    (some_left : Attribute.remove context "FILES_DS" ≠ []) :
    parseContext w scope [.vector "CONTEXT" context] = .ok (some
      (if files ≠ "" then Attribute.replace (splitContext context) "FILES_DS" files
      else splitContext context)) := by
  obtain ⟨_, unnamed, found⟩ := plain
  have text := toList_marshalled (TemplateXml.ordered (Attribute.remove context "FILES_DS"))
  generalize is : " @^_^@ ".intercalate ((TemplateXml.ordered
    (Attribute.remove context "FILES_DS")).map fun v => v.1 ++ "=" ++ v.2) = str at text
  have marshalled :
      Attribute.marshall " @^_^@ " (Attribute.remove context "FILES_DS") = some str := by
    unfold Attribute.marshall
    rw [if_neg some_left, is]
  have no_variable : '$' ∉ str.toList := by
    rw [text]
    intro member
    rcases mem_joined member with separator | ⟨p, known, within⟩
    · exact absurd separator (by decide)
    · obtain ⟨v, v_known, rfl⟩ := List.mem_map.mp known
      obtain ⟨name, value⟩ := unnamed v (TemplateXml.mem_ordered.mp v_known)
      rcases List.mem_append.mp within with inside | rest
      · exact name inside
      · rcases List.mem_cons.mp rest with same | inside
        · cases same
        · exact value inside
  have nonempty : str ≠ "" := by
    rintro rfl
    exact joined_ne_nil (fun empty => some_left (ordered_eq_nil empty)) text.symm
  have split : Attribute.unmarshall " @^_^@ " str = splitContext context := by
    rw [unmarshall_eq, text]
    rfl
  unfold parseContext
  dsimp only
  rw [marshalled]
  dsimp only
  rw [parseTemplateAttribute_plain nonempty no_variable]
  dsimp only
  rw [found, split]
  rfl

/-- The shell assigns the values of a file just as they are. -/
theorem shellAssignments_generateContext (values : List (String × String)) :
    (∃ file, generateContext true true [.vector "CONTEXT" values] = .ok (some file) ∧
      shellAssignments file.text.toList = some (charsOf (TemplateXml.ordered values))) ↔
    ∀ v ∈ values, IsShellName v.1.toList ∧ Literal v.2.toList := by
  have comment : '\n' ∉ " Context variables generated by OpenNebula".toList := by decide
  have lines := @shellAssignments_iff (charsOf (TemplateXml.ordered values)) _ comment
  have each : (∀ v ∈ charsOf (TemplateXml.ordered values), IsShellName v.1 ∧ Literal v.2) ↔
      ∀ v ∈ values, IsShellName v.1.toList ∧ Literal v.2.toList := by
    unfold charsOf
    rw [List.forall_mem_map]
    exact forall_congr' fun v => imp_congr_left TemplateXml.mem_ordered
  rw [← each, ← lines, ← toList_contextText]
  constructor
  · intro ⟨file, generated, read⟩
    cases generated
    exact read
  · intro read
    exact ⟨_, rfl, read⟩

theorem not_mem_of_isShellName {name : List Char} {c : Char} (is_name : IsShellName name)
    (other : isNameChar c = false) : c ∉ name := by
  intro member
  rw [is_name.2 c member] at other
  cases other

theorem ordered_unequal (unequal : (context.map Prod.fst).Nodup) :
    (([] ++ TemplateXml.ordered (Attribute.remove context "FILES_DS")).map Prod.fst).Nodup := by
  have order : (TemplateXml.ordered (Attribute.remove context "FILES_DS")).Perm
      (Attribute.remove context "FILES_DS") := List.perm_insertionSort _ _
  exact (order.map Prod.fst).nodup_iff.mpr (unequal.sublist (List.filter_sublist.map Prod.fst))

section Split

variable (unequal : (context.map Prod.fst).Nodup)
  (names : ∀ v ∈ Attribute.remove context "FILES_DS", IsShellName v.1.toList)

include unequal names

theorem splitContext_eq (some_left : Attribute.remove context "FILES_DS" ≠ [])
    (separated : Separated
      ((TemplateXml.ordered (Attribute.remove context "FILES_DS")).map entryText)) :
    splitContext context = TemplateXml.ordered (Attribute.remove context "FILES_DS") := by
  unfold splitContext
  rw [splitAt_joined (fun none => some_left (ordered_eq_nil (List.map_eq_nil_iff.mp none)))
    separated]
  exact foldl_addPiece (fun v member =>
    not_mem_of_isShellName (names v (TemplateXml.mem_ordered.mp member)) (by decide))
    (ordered_unequal unequal)

theorem separated_of_splitContext
    (kept : ∀ v ∈ Attribute.remove context "FILES_DS", v ∈ splitContext context) :
    Separated ((TemplateXml.ordered (Attribute.remove context "FILES_DS")).map entryText) := by
  refine separated_of_read (fun v member => ?_) (fun v member => ?_)
    (ordered_unequal unequal) fun v member => kept v (TemplateXml.mem_ordered.mp member)
  · exact not_mem_of_isShellName (names v (TemplateXml.mem_ordered.mp member)) (by decide)
  · exact not_mem_of_isShellName (names v (TemplateXml.mem_ordered.mp member)) (by decide)

end Split

/-- A CONTEXT without variables comes through to the shell if and only if it has other values than
FILES_DS, its names and values are names and literal values of a shell, no entry has the separator
in it, and the files of FILES_DS are literal too. -/
theorem faithfulContext_iff (plain : PlainContext w context files) :
    FaithfulContext w scope context ↔
      Attribute.remove context "FILES_DS" ≠ [] ∧
      (∀ v ∈ Attribute.remove context "FILES_DS", IsShellName v.1.toList ∧ Literal v.2.toList) ∧
      Separated ((TemplateXml.ordered (Attribute.remove context "FILES_DS")).map entryText) ∧
      (files ≠ "" → Literal files.toList) := by
  have left : ∀ n v, n ≠ "FILES_DS" →
      ((n, v) ∈ Attribute.remove context "FILES_DS" ↔ (n, v) ∈ context) := by
    intro n v other
    exact List.mem_filter.trans (and_iff_left (decide_eq_true other))
  constructor
  · intro ⟨result, parsed, same, written⟩
    have some_left : Attribute.remove context "FILES_DS" ≠ [] := by
      intro none
      unfold parseContext Attribute.marshall at parsed
      dsimp only at parsed
      rw [if_pos none] at parsed
      cases parsed
    rw [parseContext_plain plain some_left] at parsed
    have result_is : (if files ≠ "" then Attribute.replace (splitContext context) "FILES_DS" files
        else splitContext context) = result := Option.some.inj (Except.ok.inj parsed)
    have literal := (shellAssignments_generateContext result).mp written
    have kept : ∀ v ∈ Attribute.remove context "FILES_DS", v ∈ result := by
      intro v member
      have other : v.1 ≠ "FILES_DS" := of_decide_eq_true (List.mem_filter.mp member).2
      exact (same v.1 v.2 other).mpr ((left v.1 v.2 other).mp member)
    refine ⟨some_left, fun v member => literal v (kept v member), ?_, fun some_files => ?_⟩
    · refine separated_of_splitContext plain.unequal
        (fun v member => (literal v (kept v member)).1) fun v member => ?_
      have other : v.1 ≠ "FILES_DS" := of_decide_eq_true (List.mem_filter.mp member).2
      have within := kept v member
      rw [← result_is] at within
      split at within
      · rcases List.mem_cons.mp within with files_entry | later
        · exact absurd (congrArg Prod.fst files_entry) other
        · exact (List.mem_filter.mp later).1
      · exact within
    · rw [if_pos some_files] at result_is
      refine (literal ("FILES_DS", files) ?_).2
      rw [← result_is]
      exact List.mem_cons_self
  · intro ⟨some_left, literal, separated, files_literal⟩
    have parsed := @parseContext_plain w scope context files plain some_left
    rw [splitContext_eq plain.unequal (fun v member => (literal v member).1) some_left separated]
      at parsed
    refine ⟨_, parsed, fun n v other => ?_, (shellAssignments_generateContext _).mpr ?_⟩
    · rw [← left n v other]
      split
      · refine Iff.trans ?_ TemplateXml.mem_ordered
        refine List.mem_cons.trans ((or_iff_right fun same => ?_).trans
          (List.mem_filter.trans (and_iff_left (decide_eq_true other))))
        exact other (congrArg Prod.fst same)
      · exact TemplateXml.mem_ordered
    · intro v member
      split at member
      · rename_i some_files
        rcases List.mem_cons.mp member with same | later
        · have name : IsShellName "FILES_DS".toList := by decide
          rw [same]
          exact ⟨name, files_literal some_files⟩
        · exact literal v (TemplateXml.mem_ordered.mp (List.mem_filter.mp later).1)
      · exact literal v (TemplateXml.mem_ordered.mp member)

end Plain

/-! ## Contexts whose target stays -/

/-- Nothing in the text is a variable or a part of the separator. -/
def Unmarked (text : String) : Prop := '$' ∉ text.toList ∧ '@' ∉ text.toList

theorem unmarked_toString (n : Nat) : Unmarked (toString n) := by
  have digits : ∀ c ∈ (toString n).toList, c.isDigit = true := by
    intro c member
    exact Nat.isDigit_of_mem_toDigits (by decide) (by decide) (String.toList_ofList ▸ member)
  exact ⟨fun member => absurd (digits _ member) (by decide),
    fun member => absurd (digits _ member) (by decide)⟩

theorem unmarked_chooseTarget {devPrefix : String} (unmarked : Unmarked devPrefix)
    (used : List String) : Unmarked (chooseTarget used devPrefix) := by
  have push : ∀ c, c ≠ '$' → c ≠ '@' → Unmarked (devPrefix.push c) := by
    intro c first second
    unfold Unmarked
    rw [String.toList_push, List.mem_append, List.mem_append, List.mem_singleton,
      List.mem_singleton]
    exact ⟨not_or.mpr ⟨unmarked.1, first.symm⟩, not_or.mpr ⟨unmarked.2, second.symm⟩⟩
  have letters : ∀ index < 26, Char.ofNat ('a'.toNat + index) ≠ '$' ∧
      Char.ofNat ('a'.toNat + index) ≠ '@' := by
    decide
  unfold chooseTarget
  cases found : (candidates devPrefix).find? fun target => target ∉ used with
  | none => exact push 'z' (by decide) (by decide)
  | some target =>
    obtain ⟨index, below, rfl⟩ := mem_candidates_iff.mp (List.mem_of_find?_eq_some found)
    exact push _ (letters index below).1 (letters index below).2

/-- Different names, which a shell has for variables, and values without marks. What FILES_DS has
is left open. -/
structure PlainEntries (context : List (String × String)) : Prop where
  unequal : (context.map Prod.fst).Nodup
  names : ∀ v ∈ Attribute.remove context "FILES_DS", IsShellName v.1.toList
  values : ∀ v ∈ Attribute.remove context "FILES_DS", Unmarked v.2

namespace PlainEntries

variable {context : List (String × String)} {key text name : String}

theorem replace (plain : PlainEntries context) (is_name : IsShellName key.toList)
    (value : Unmarked text) : PlainEntries (Attribute.replace context key text) := by
  have kept : ∀ v ∈ Attribute.remove (Attribute.replace context key text) "FILES_DS",
      v = (key, text) ∨ v ∈ Attribute.remove context "FILES_DS" := by
    intro v member
    obtain ⟨within, other⟩ := List.mem_filter.mp member
    rcases List.mem_cons.mp within with new | old
    · exact Or.inl new
    · exact Or.inr (List.mem_filter.mpr ⟨(List.mem_filter.mp old).1, other⟩)
  refine ⟨?_, fun v member => ?_, fun v member => ?_⟩
  · unfold Attribute.replace
    rw [List.map_cons]
    refine List.nodup_cons.mpr ⟨fun known => ?_,
      plain.unequal.sublist (List.filter_sublist.map Prod.fst)⟩
    obtain ⟨v, member, same⟩ := List.mem_map.mp known
    exact of_decide_eq_true (List.mem_filter.mp member).2 same
  · rcases kept v member with rfl | old
    · exact is_name
    · exact plain.names v old
  · rcases kept v member with rfl | old
    · exact value
    · exact plain.values v old

theorem not_mem_entry (plain : PlainEntries context) {c : Char} (outside : isNameChar c = false)
    (mark : c = '$' ∨ c = '@') :
    ∀ v ∈ Attribute.remove context "FILES_DS", c ∉ entryText v := by
  intro v member within
  rcases List.mem_append.mp within with inside | rest
  · exact not_mem_of_isShellName (plain.names v member) outside inside
  · rcases List.mem_cons.mp rest with equals | inside
    · rcases mark with rfl | rfl
      · cases equals
      · cases equals
    · rcases mark with rfl | rfl
      · exact (plain.values v member).1 inside
      · exact (plain.values v member).2 inside

end PlainEntries

/-- Entries without `@` have no separator in them. -/
theorem separated_of_no_at {ps : List (List Char)} (none : ∀ p ∈ ps, '@' ∉ p) : Separated ps := by
  have free : ∀ p ∈ ps, ¬ contextSeparator <:+: p := fun p member found =>
    none p member (found.subset (by decide))
  induction ps with
  | nil => trivial
  | cons p ps ih =>
    cases ps with
    | nil => exact free p List.mem_cons_self
    | cons q ps =>
      refine ⟨⟨free p List.mem_cons_self, fun found => ?_⟩, ?_⟩
      · exact none p List.mem_cons_self (found.subset (by decide))
      · exact ih (fun p member => none p (List.mem_cons_of_mem _ member))
          fun p member => free p (List.mem_cons_of_mem _ member)

/-- The value of a name does not depend on the order of the names. -/
theorem lookup_perm {l l' : List (String × String)} (order : l.Perm l')
    (unequal : (l.map Prod.fst).Nodup) (name : String) : l.lookup name = l'.lookup name := by
  induction order with
  | nil => rfl
  | cons v _ ih =>
    rw [List.map_cons] at unequal
    rw [List.lookup_cons, List.lookup_cons, ih (List.nodup_cons.mp unequal).2]
  | swap v v' l =>
    rw [List.map_cons, List.map_cons] at unequal
    have apart : v'.1 ≠ v.1 := fun same =>
      (List.nodup_cons.mp unequal).1 (same ▸ List.mem_cons_self)
    rw [List.lookup_cons, List.lookup_cons, List.lookup_cons, List.lookup_cons]
    rcases eq_or_ne name v.1 with rfl | other
    · rw [beq_eq_false_iff_ne.mpr apart.symm]
    · rw [beq_eq_false_iff_ne.mpr other]
  | trans first _ ih ih' =>
    exact (ih unequal).trans (ih' ((first.map Prod.fst).nodup_iff.mp unequal))

/-- What `parse_context` leaves of a context without marks. -/
theorem PlainEntries.kept_of_parseContext {w : ContextWorld} {scope : VariableScope}
    {context : List (String × String)} {result : Option (List (String × String))} {key : String}
    (plain : PlainEntries context)
    (parsed : parseContext w scope [.vector key context] = .ok result) :
    ∃ values, result = some values ∧ ∀ name ≠ "FILES_DS",
      Attribute.vectorValue values name = Attribute.vectorValue context name := by
  have some_left : Attribute.remove context "FILES_DS" ≠ [] := by
    intro none
    unfold parseContext Attribute.marshall at parsed
    dsimp only at parsed
    rw [if_pos none] at parsed
    cases parsed
  have found : ∃ files, w.filesDs (Attribute.vectorValue context "FILES_DS") = .ok files := by
    unfold parseContext at parsed
    dsimp only at parsed
    split at parsed
    · cases parsed
    · split at parsed
      · cases parsed
      · cases found : w.filesDs (Attribute.vectorValue context "FILES_DS") with
        | error e =>
          rw [found] at parsed
          cases parsed
        | ok files => exact ⟨files, rfl⟩
  obtain ⟨files, found⟩ := found
  have dollar : ∀ v ∈ Attribute.remove context "FILES_DS",
      '$' ∉ v.1.toList ∧ '$' ∉ v.2.toList := fun v member =>
    ⟨not_mem_of_isShellName (plain.names v member) (by decide), (plain.values v member).1⟩
  have separated : Separated
      ((TemplateXml.ordered (Attribute.remove context "FILES_DS")).map entryText) := by
    refine separated_of_no_at fun p member => ?_
    obtain ⟨v, known, rfl⟩ := List.mem_map.mp member
    exact plain.not_mem_entry (by decide) (Or.inr rfl) v (TemplateXml.mem_ordered.mp known)
  have is : parseContext w scope [.vector "CONTEXT" context] = .ok result := parsed
  rw [parseContext_plain ⟨plain.unequal, dollar, found⟩ some_left,
    splitContext_eq plain.unequal plain.names some_left separated] at is
  have order : (TemplateXml.ordered (Attribute.remove context "FILES_DS")).Perm
      (Attribute.remove context "FILES_DS") := List.perm_insertionSort _ _
  have same : ∀ name ≠ "FILES_DS", Attribute.vectorValue
      (TemplateXml.ordered (Attribute.remove context "FILES_DS")) name =
        Attribute.vectorValue context name := fun name other =>
    (congrArg (fun value => Option.getD value "")
      (lookup_perm order (ordered_unequal plain.unequal) name)).trans
        (Attribute.vectorValue_remove_ne other)
  refine ⟨_, (Except.ok.inj is).symm, fun name other => ?_⟩
  rw [← same name other]
  split
  · exact Attribute.vectorValue_replace_ne other
  · rfl

/-! ### The context after the disks -/

namespace DiskQueues

variable {q q' : DiskQueues} {w : Nat → DiskWorld} {vmId : Nat} {uid : Int}
  {entry : String × DiskRef}

/-- A disk that is set up does not put the context into a queue. -/
theorem mem_queue_of_push {name : String} {answer : DiskAnswer}
    (pushed : q.push name answer = .ok q') (within : entry ∈ q'.queue)
    (context : entry.2 = .context) : entry ∈ q.queue := by
  have not_disk : entry ≠ (answer.devPrefix, DiskRef.disk q.vm.disks.length) := by
    rintro rfl
    cases context
  unfold push at pushed
  dsimp only at pushed
  repeat' split at pushed
  all_goals cases pushed
  all_goals
    simp only [queue, add, List.mem_append, List.mem_singleton, not_disk, or_false, false_or]
      at within ⊢
  all_goals tauto

theorem mem_queue_of_setUp {disks : List Attribute} (done : setUp w vmId uid disks q = .ok q')
    (within : entry ∈ q'.queue) (context : entry.2 = .context) : entry ∈ q.queue := by
  induction disks generalizing q with
  | nil =>
    cases done
    exact within
  | cons a disks ih =>
    cases a with
    | single name value => exact ih (q := q.add (.single name value)) done
    | vector name values =>
      obtain ⟨answer, r, _, pushed, rest⟩ := setUp_vector done
      exact mem_queue_of_push pushed (ih rest) context

end DiskQueues

/-- The targets that are assigned leave the context without marks. -/
theorem plain_assignDiskTargets {devPrefix : String} {queue : List (String × DiskRef)}
    {vm : VmDisks} {used : List String} (unmarked : Unmarked devPrefix)
    (own : ∀ entry ∈ queue, entry.2 = .context → entry.1 = devPrefix)
    (plain : ∃ values, vm.context = some values ∧ PlainEntries values) :
    ∃ values, (assignDiskTargets queue (vm, used)).1.context = some values ∧
      PlainEntries values := by
  induction queue generalizing vm used with
  | nil => exact plain
  | cons entry queue ih =>
    refine ih (fun entry' member => own entry' (List.mem_cons_of_mem _ member)) ?_
    obtain ⟨values, there, plain⟩ := plain
    cases ref : entry.2 with
    | disk i => exact ⟨values, there, plain⟩
    | context =>
      rw [own entry List.mem_cons_self ref]
      have is_name : IsShellName "TARGET".toList := by decide
      refine ⟨Attribute.replace values "TARGET" (chooseTarget used devPrefix), ?_,
        plain.replace is_name (unmarked_chooseTarget unmarked used)⟩
      unfold VmDisks.modify
      dsimp only
      rw [there, Option.map_some]

theorem VmDisks.plain_of_getDiskImages {w : Nat → DiskWorld} {defaultDevPrefix key : String}
    {vmId : Nat} {uid : Int} {context : List (String × String)} {disks : List Attribute}
    {vm : VmDisks} (unmarked : Unmarked defaultDevPrefix) (plain : PlainEntries context)
    (created : getDiskImages w defaultDevPrefix vmId uid [.vector key context] disks = .ok vm) :
    ∃ values, vm.context = some values ∧ PlainEntries values := by
  obtain ⟨_, q, done, rfl⟩ := setUp_of_getDiskImages created
  rw [DiskQueues.assign_eq]
  refine plain_assignDiskTargets unmarked (fun entry member ref => ?_) ?_
  · have waiting := DiskQueues.mem_queue_of_setUp done member ref
    unfold DiskQueues.start DiskQueues.queue at waiting
    dsimp only at waiting
    rw [List.nil_append, List.append_nil] at waiting
    split at waiting
    · cases waiting
    · rw [List.mem_singleton.mp waiting]
  · refine ⟨_, (DiskQueues.disks_setUp done).1, plain.replace (by decide) (unmarked_toString _)⟩

/-- A context without variables and marks keeps its number and its target. -/
theorem DiskCreation.keepsContext_of_plain {r : DiskCreation} {vmId : Nat} {uid : Int}
    {key : String} {context : List (String × String)}
    (one : r.tmpl.get "CONTEXT" = [.vector key context]) (plain : PlainEntries context)
    (unmarked : Unmarked r.defaultDevPrefix) : r.KeepsContext vmId uid := by
  intro before after created parsed
  unfold vm at parsed
  obtain ⟨vm, same, parsed⟩ := Option.bind_eq_some_iff.mp parsed
  cases created.symm.trans same
  unfold disks at created
  rw [one] at created
  obtain ⟨values, there, plain⟩ :=
    VmDisks.plain_of_getDiskImages unmarked plain (toOption_eq_some_iff.mp created)
  obtain ⟨result, read, rfl⟩ := Option.map_eq_some_iff.mp parsed
  have contexts : r.contexts before = [.vector key values] := by
    unfold DiskCreation.contexts
    rw [one, there]
  rw [contexts, toOption_eq_some_iff] at read
  obtain ⟨values', rfl, kept⟩ := plain.kept_of_parseContext read
  unfold VmDisks.textAt
  dsimp only
  rw [there, Option.map_some, Option.map_some, Option.map_some, Option.map_some,
    kept "TARGET" (by decide), kept "DISK_ID" (by decide)]
  exact ⟨rfl, rfl⟩

/-! ## Contexts with files -/

/-- A pool with one image of keys. -/
def keysPool : ImageWorld where
  users _ := none
  images oid := if oid = 3 then some
      ⟨⟨.context, .ready, false, ∅, ∅, none, "/var/images/3", false, false⟩,
        { objType := .image, oid := 3, uid := 0, gid := 0 }, 2, ""⟩
    else none
  byName _ _ := none
  datastores _ := true
  acls := ⟨[], AclManager.wellFormed_nil⟩

/-- The third image is a context image. -/
def keysWorld : ContextWorld where
  scope := ⟨oneadminId, oneadminId, keysPool, keysPool⟩
  image iid := if iid = 3 then some ⟨"/var/images/3", "keys", .context⟩ else none

def hostContext : List (String × String) :=
  [("HOSTNAME", "vm 1"), ("FILES_DS", "$FILE[IMAGE_ID=3]"), ("DIR", "C:\\x")]

theorem plain_hostContext : PlainContext keysWorld hostContext "/var/images/3:'keys' " where
  unequal := by decide
  plain := by decide
  files := by decide +kernel

theorem faithfulContext_hostContext :
    FaithfulContext keysWorld VariableText.undefinedScope hostContext := by
  refine (faithfulContext_iff plain_hostContext).mpr ⟨by decide, ?_, ?_, fun _ => ?_⟩
  · decide +kernel
  · decide +kernel
  · decide +kernel

/-- A quote ends the value, and what is behind it is run. -/
def rebootContext : List (String × String) := [("A", "\"; reboot #")]

/-- What is behind the separator is another value. -/
def separatorContext : List (String × String) := [("A", "x @^_^@ B=y")]

/-- Nothing is left without FILES_DS. -/
def filesContext : List (String × String) := [("FILES_DS", "$FILE[IMAGE_ID=3]")]

theorem context_escapes :
    (PlainContext keysWorld rebootContext "" ∧
      ¬ FaithfulContext keysWorld VariableText.undefinedScope rebootContext) ∧
    (PlainContext keysWorld separatorContext "" ∧
      ¬ FaithfulContext keysWorld VariableText.undefinedScope separatorContext) ∧
    PlainContext keysWorld filesContext "/var/images/3:'keys' " ∧
      ¬ FaithfulContext keysWorld VariableText.undefinedScope filesContext := by
  refine ⟨⟨⟨by decide, by decide, by decide⟩, ?_⟩, ⟨⟨by decide, by decide, by decide⟩, ?_⟩,
    ⟨by decide, by decide, by decide +kernel⟩, ?_⟩
  · intro ⟨result, parsed, _, file, generated, read⟩
    have same : parseContext keysWorld VariableText.undefinedScope
      [.vector "CONTEXT" rebootContext] = .ok (some rebootContext) := by decide +kernel
    rw [same] at parsed
    cases parsed
    cases generated
    have none : shellAssignments (contextText rebootContext).toList = none := by decide +kernel
    rw [none] at read
    cases read
  · intro ⟨result, parsed, kept, _⟩
    have same : parseContext keysWorld VariableText.undefinedScope
      [.vector "CONTEXT" separatorContext] = .ok (some [("A", "x"), ("B", "y")]) := by
      decide +kernel
    rw [same] at parsed
    cases parsed
    have new := (kept "B" "y" (by decide)).mp (by decide)
    exact absurd new (by decide)
  · intro ⟨result, parsed, _⟩
    have none : parseContext keysWorld VariableText.undefinedScope
      [.vector "CONTEXT" filesContext] = .error .marshall := by decide +kernel
    rw [none] at parsed
    cases parsed

end Ezilla
