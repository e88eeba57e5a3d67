import Ezilla.Vnm.LeaseFailures
import Mathlib.Data.List.DropRight
import Mathlib.Data.Nat.Bitwise

/-!
# Addresses and their texts

`ip_to_number` and `mac_to_number` count the separators of a text, replace them by blanks and read
the numbers from a stream whose state is not tested. What cannot be read leaves the variable of the
number as it was. The interface identifier is built from a MAC address by adding.

* `Writes`: a text is bytes of a base with separators between them;
* `ipToNumberFrom`, `macToNumberFrom`: the two conversions, over what the variable holds at first;
* `leadingNumbers`: the numbers that a text starts with;
* `modifiedEui64`: the identifier by its bytes;
* `conversions_exact_iff`: when the conversions are exact.
-/

namespace Ezilla

/-! ## What a text writes -/

/-- The base of the digits. -/
def baseOf (hex : Bool) : Nat := if hex then 16 else 10

/-- The number that digits stand for. -/
def digitsIn (hex : Bool) (s : List Char) : Nat :=
  s.foldl (fun v c => baseOf hex * v + IStream.digitValue c) 0

/-- One byte, written in digits. -/
structure IsByte (hex : Bool) (s : List Char) : Prop where
  nonempty : s ≠ []
  digits : ∀ c ∈ s, IStream.isDigitOf hex c = true
  small : digitsIn hex s < 256

/-- The number whose bytes are written, the highest first. -/
def bytesIn (hex : Bool) (pieces : List (List Char)) : Nat :=
  pieces.foldl (fun v s => v * 256 + digitsIn hex s) 0

/-- The text is `count` bytes with separators between them, and they are those of `n`. -/
def Writes (hex : Bool) (sep : Char) (count : Nat) (text : String) (n : Nat) : Prop :=
  ∃ pieces : List (List Char), pieces.length = count ∧ text.toList = [sep].intercalate pieces ∧
    (∀ s ∈ pieces, IsByte hex s) ∧ bytesIn hex pieces = n

/-! ## The conversions -/

/-- `Leases::Lease::ip_to_number`, where the variable of the numbers holds `tmp` at first. -/
def ipToNumberFrom (tmp : Nat) (ip : String) : Option Nat :=
  if ip.toList.count '.' ≠ 3 then none
  else readBytes 4 tmp 0 (IStream.ofText (blankOut '.' ip))

/-- `Leases::Lease::mac_to_number`, where the variable of the numbers holds `tmp` at first. -/
def macToNumberFrom (tmp : Nat) (mac : String) : Option (Nat × Nat) :=
  if mac.toList.count ':' ≠ 5 then none
  else
    let st := IStream.ofText (blankOut ':' mac)
    let (high, st) := st.readUnsigned true 0
    let (tmp, st) := st.ws.readUnsigned true tmp
    some ((high * 256 + tmp) % 2 ^ 32, readHexBytes 4 tmp 0 st.ws)

theorem ipToNumber_eq (ip : String) : ipToNumber ip = ipToNumberFrom 0 ip := rfl

theorem macToNumber_eq (mac : String) : macToNumber mac = macToNumberFrom 0 mac := rfl

/-- The unsigned number that a text starts with, and the text after it. One that is too large
reads as the largest one, and nothing is read after it. -/
def leadingNumber (s : List Char) : Option (Nat × List Char) :=
  let (minus, s) := readSign (skipBlanks s)
  let digits := s.takeWhile Char.isDigit
  if digits = [] then none
  else if 2 ^ 32 ≤ digitsIn false digits then some (2 ^ 32 - 1, [])
  else
    some (if minus then (2 ^ 32 - digitsIn false digits) % 2 ^ 32 else digitsIn false digits,
      s.dropWhile Char.isDigit)

/-- The numbers that a text starts with, at most `count` of them. -/
def leadingNumbers : Nat → List Char → List Nat
  | 0, _ => []
  | count + 1, s =>
    match leadingNumber s with
    | none => []
    | some (v, rest) => v :: leadingNumbers count rest

/-- The two words of an interface identifier from its eight bytes. -/
def wordsOfBytes (b : List Nat) : Nat × Nat :=
  ((b.take 4).foldl (fun v byte => v * 256 + byte) 0,
    (b.drop 4).foldl (fun v byte => v * 256 + byte) 0)

/-- The modified EUI-64 identifier: `ff:fe` between the halves of the MAC address, and the
universal/local bit of its first byte inverted. -/
def modifiedEui64 (high low : Nat) : Nat × Nat :=
  wordsOfBytes [(high / 256) ^^^ 2, high % 256, low / 256 ^ 3, 0xff, 0xfe, low / 256 ^ 2 % 256,
    low / 256 % 256, low % 256]

/-! ## A text that is read -/

variable {hex : Bool} {sep : Char} {s rest : List Char} {pieces : List (List Char)} {tmp n : Nat}

/-- The characters that end a number, and the separators. -/
def stops : List Char :=
  [' ', '\t', '\n', '\r', Char.ofNat 11, Char.ofNat 12, '-', '+', 'x', 'X', '.', ':']

theorem isDigitOf_stops {c : Char} (stop : c ∈ stops) : IStream.isDigitOf hex c = false := by
  have none : (stops.all fun c => !IStream.isDigitOf hex c) = true := by
    cases hex <;> decide
  exact (Bool.not_eq_true' _).mp (List.all_eq_true.mp none c stop)

theorem ne_of_isDigitOf {c d : Char} (digit : IStream.isDigitOf hex c = true) (stop : d ∈ stops) :
    c ≠ d := by
  intro same
  rw [same, isDigitOf_stops stop] at digit
  cases digit

theorem isBlank_of_isDigitOf {c : Char} (digit : IStream.isDigitOf hex c = true) :
    isBlank c = false := by
  have apart : ∀ n, n ∈ [11, 12] → c.toNat ≠ n := by
    intro n listed same
    have is : c = Char.ofNat n := by rw [← same, Char.ofNat_toNat]
    refine ne_of_isDigitOf digit ?_ is
    rcases List.mem_cons.mp listed with rfl | last
    · decide
    · rw [List.mem_singleton.mp last]
      decide
  unfold isBlank
  simp only [Bool.or_eq_false_iff, decide_eq_false_iff_not]
  exact ⟨⟨⟨⟨⟨ne_of_isDigitOf digit (by decide), ne_of_isDigitOf digit (by decide)⟩,
    ne_of_isDigitOf digit (by decide)⟩, ne_of_isDigitOf digit (by decide)⟩,
    apart 11 (by decide)⟩, apart 12 (by decide)⟩

theorem readSign_of_isDigitOf {c : Char} (digit : IStream.isDigitOf hex c = true) :
    readSign (c :: s) = (false, c :: s) := by
  unfold readSign
  split
  · rename_i same
    cases same
    exact absurd rfl (ne_of_isDigitOf digit (by decide))
  · rename_i same
    cases same
    exact absurd rfl (ne_of_isDigitOf digit (by decide))
  · rfl

theorem skipPrefix_of_digits (digits : ∀ c ∈ s, IStream.isDigitOf hex c = true) (nonempty : s ≠ [])
    (stop : ∀ c t, rest = c :: t → c = ' ') : IStream.skipPrefix hex (s ++ rest) = s ++ rest := by
  -- the second character is a digit or the blank
  have second : ∀ d e t, s ++ rest = d :: e :: t → e ≠ 'x' ∧ e ≠ 'X' := by
    intro d e t same
    cases s with
    | nil => exact absurd rfl nonempty
    | cons c s =>
      cases s with
      | nil =>
        have blank := stop e t (List.cons.inj same).2
        rw [blank]
        decide
      | cons c' s =>
        have digit := digits c' (List.mem_cons_of_mem _ List.mem_cons_self)
        have is : c' = e := (List.cons.inj (List.cons.inj same).2).1
        rw [is] at digit
        exact ⟨ne_of_isDigitOf digit (by decide), ne_of_isDigitOf digit (by decide)⟩
  unfold IStream.skipPrefix
  split
  · rename_i same
    exact absurd rfl (second _ _ _ same).1
  · rename_i same
    exact absurd rfl (second _ _ _ same).2
  · rfl

/-- A byte is read up to the blank after it. -/
theorem readUnsigned_isByte (byte : IsByte hex s) (stop : ∀ c t, rest = c :: t → c = ' ') :
    IStream.readUnsigned hex tmp ⟨s ++ rest, true⟩ = (digitsIn hex s, ⟨rest, rest ≠ []⟩) := by
  obtain ⟨c, t, rfl⟩ := List.exists_cons_of_ne_nil byte.nonempty
  have digit := byte.digits c List.mem_cons_self
  have skipped : skipBlanks (c :: t ++ rest) = c :: (t ++ rest) :=
    List.dropWhile_cons_of_neg (by rw [isBlank_of_isDigitOf digit]; decide)
  have ended : rest.takeWhile (IStream.isDigitOf hex) = [] ∧
      rest.dropWhile (IStream.isDigitOf hex) = rest := by
    cases rest with
    | nil => exact ⟨rfl, rfl⟩
    | cons d u =>
      have other : IStream.isDigitOf hex d = false := by
        rw [stop d u rfl]
        exact isDigitOf_stops (by decide)
      rw [List.takeWhile_cons, List.dropWhile_cons, other]
      exact ⟨rfl, rfl⟩
  have whole : IStream.skipPrefix hex (c :: (t ++ rest)) = c :: t ++ rest :=
    skipPrefix_of_digits byte.digits byte.nonempty stop
  have value : (c :: t).foldl
      (fun v c => (if hex then 16 else 10) * v + IStream.digitValue c) 0 = digitsIn hex (c :: t) :=
    rfl
  have small := byte.small
  unfold IStream.readUnsigned
  simp only [Bool.not_true, Bool.false_eq_true, if_false, skipped, readSign_of_isDigitOf digit]
  rw [whole, List.takeWhile_append_of_pos byte.digits, List.dropWhile_append_of_pos byte.digits,
    ended.1, ended.2, List.append_nil, if_neg byte.nonempty, value, if_neg (by omega)]

/-! ## The pieces of an address -/

/-- The separator and the pieces after it. -/
def separated (sep : Char) : List (List Char) → List Char
  | [] => []
  | s :: pieces => sep :: [sep].intercalate (s :: pieces)

theorem intercalate_cons (sep : Char) (s : List Char) (pieces : List (List Char)) :
    [sep].intercalate (s :: pieces) = s ++ separated sep pieces := by
  cases pieces with
  | nil =>
    rw [separated, List.append_nil]
    exact List.append_nil s
  | cons t pieces => rfl

theorem separated_stops {c : Char} {t : List Char} (is : separated ' ' pieces = c :: t) :
    c = ' ' := by
  cases pieces with
  | nil => cases is
  | cons s pieces => exact (List.cons.inj is).1.symm

/-- The blank before the next byte is skipped. -/
theorem ws_separated (bytes : ∀ s ∈ pieces, IsByte hex s) :
    IStream.ws ⟨separated ' ' pieces, separated ' ' pieces ≠ []⟩ =
      ⟨[' '].intercalate pieces, pieces ≠ []⟩ := by
  cases pieces with
  | nil => rfl
  | cons s pieces =>
    have byte := bytes s List.mem_cons_self
    obtain ⟨c, t, rfl⟩ := List.exists_cons_of_ne_nil byte.nonempty
    have digit := byte.digits c List.mem_cons_self
    have none : ¬ isBlank c = true := by
      rw [isBlank_of_isDigitOf digit]
      decide
    have skipped : skipBlanks (separated ' ' ((c :: t) :: pieces)) =
        [' '].intercalate ((c :: t) :: pieces) := by
      rw [separated, intercalate_cons]
      exact (List.dropWhile_cons_of_pos rfl).trans (List.dropWhile_cons_of_neg none)
    unfold IStream.ws
    rw [skipped, intercalate_cons]
    rfl

theorem notMem_of_isByte (byte : IsByte hex s) (stop : sep ∈ stops) : sep ∉ s := by
  intro member
  have digit := byte.digits sep member
  rw [isDigitOf_stops stop] at digit
  cases digit

/-- The separators become blanks. -/
theorem map_separators (bytes : ∀ s ∈ pieces, IsByte hex s) (stop : sep ∈ stops) :
    ([sep].intercalate pieces).map (fun c => if c = sep then ' ' else c) =
      [' '].intercalate pieces := by
  have same : ∀ s ∈ pieces, s.map (fun c => if c = sep then ' ' else c) = s := by
    intro s member
    have kept : ∀ c ∈ s, (if c = sep then ' ' else c) = id c := by
      intro c inside
      refine if_neg fun is => ?_
      rw [is] at inside
      exact notMem_of_isByte (bytes s member) stop inside
    rw [List.map_congr_left kept, List.map_id]
  clear bytes
  induction pieces with
  | nil => rfl
  | cons s pieces ih =>
    have rest := ih fun t member => same t (List.mem_cons_of_mem _ member)
    rw [intercalate_cons, intercalate_cons, List.map_append, same s List.mem_cons_self]
    cases pieces with
    | nil => rfl
    | cons t pieces =>
      rw [separated, List.map_cons, rest, if_pos rfl]
      rfl

theorem count_separators (bytes : ∀ s ∈ pieces, IsByte hex s) (stop : sep ∈ stops) :
    ([sep].intercalate pieces).count sep = pieces.length - 1 := by
  induction pieces with
  | nil => rfl
  | cons s pieces ih =>
    have rest := ih fun t member => bytes t (List.mem_cons_of_mem _ member)
    have none := List.count_eq_zero_of_not_mem (notMem_of_isByte (bytes s List.mem_cons_self) stop)
    rw [intercalate_cons, List.count_append, none, Nat.zero_add]
    cases pieces with
    | nil => rfl
    | cons t pieces =>
      rw [separated, List.count_cons_self, rest]
      rfl

/-- One byte of an address and the stream before the next one. -/
theorem readUnsigned_pieces (bytes : ∀ t ∈ s :: pieces, IsByte hex t) :
    (IStream.readUnsigned hex tmp ⟨[' '].intercalate (s :: pieces), true⟩).1 = digitsIn hex s ∧
      (IStream.readUnsigned hex tmp ⟨[' '].intercalate (s :: pieces), true⟩).2.ws =
        ⟨[' '].intercalate pieces, pieces ≠ []⟩ := by
  have read := @readUnsigned_isByte hex s (separated ' ' pieces) tmp (bytes s List.mem_cons_self)
    fun c t is => separated_stops is
  rw [intercalate_cons, read]
  exact ⟨rfl, ws_separated fun t member => bytes t (List.mem_cons_of_mem _ member)⟩

theorem readBytes_pieces {ip : Nat} (bytes : ∀ s ∈ pieces, IsByte false s) :
    readBytes pieces.length tmp ip ⟨[' '].intercalate pieces, pieces ≠ []⟩ =
      some (pieces.foldl (fun v s => v * 256 + digitsIn false s) ip) := by
  induction pieces generalizing tmp ip with
  | nil => rfl
  | cons s pieces ih =>
    obtain ⟨value, next⟩ := @readUnsigned_pieces false s pieces tmp bytes
    have small := (bytes s List.mem_cons_self).small
    have good : decide (s :: pieces ≠ []) = true := decide_eq_true (List.cons_ne_nil s pieces)
    rw [List.length_cons, readBytes, good]
    dsimp only
    rw [value, next, if_neg (by omega), ih fun t member => bytes t (List.mem_cons_of_mem _ member)]
    rfl

theorem readHexBytes_pieces {mac : Nat} (bytes : ∀ s ∈ pieces, IsByte true s)
    (room : (mac + 1) * 256 ^ pieces.length ≤ 2 ^ 32) :
    readHexBytes pieces.length tmp mac ⟨[' '].intercalate pieces, pieces ≠ []⟩ =
      pieces.foldl (fun v s => v * 256 + digitsIn true s) mac := by
  induction pieces generalizing tmp mac with
  | nil => rfl
  | cons s pieces ih =>
    obtain ⟨value, next⟩ := @readUnsigned_pieces true s pieces tmp bytes
    have small := (bytes s List.mem_cons_self).small
    have good : decide (s :: pieces ≠ []) = true := decide_eq_true (List.cons_ne_nil s pieces)
    have wider : (mac * 256 + digitsIn true s + 1) * 256 ^ pieces.length ≤ 2 ^ 32 := by
      refine Nat.le_trans ?_ room
      rw [List.length_cons, Nat.pow_succ', ← Nat.mul_assoc]
      exact Nat.mul_le_mul_right _ (by omega)
    have word : mac * 256 + digitsIn true s < 2 ^ 32 := by
      have below := Nat.le_mul_of_pos_right (mac * 256 + digitsIn true s + 1)
        (Nat.pow_pos (n := pieces.length) (show 0 < 256 by decide))
      omega
    rw [List.length_cons, readHexBytes, good]
    dsimp only
    rw [value, next, Nat.mod_eq_of_lt word,
      ih (fun t member => bytes t (List.mem_cons_of_mem _ member)) wider]
    rfl

/-! ## Texts that are written well -/

theorem foldl_bytes (v : Nat) (pieces : List (List Char)) :
    pieces.foldl (fun v s => v * 256 + digitsIn hex s) v =
      v * 256 ^ pieces.length + bytesIn hex pieces := by
  induction pieces generalizing v with
  | nil =>
    rw [List.length_nil, Nat.pow_zero, Nat.mul_one]
    rfl
  | cons s pieces ih =>
    unfold bytesIn
    rw [List.foldl_cons, List.foldl_cons, ih, ih (0 * 256 + digitsIn hex s), List.length_cons,
      Nat.pow_succ', Nat.zero_mul, Nat.zero_add, Nat.add_mul, Nat.mul_assoc, Nat.add_assoc]

theorem bytesIn_cons (s : List Char) (pieces : List (List Char)) :
    bytesIn hex (s :: pieces) =
      digitsIn hex s * 256 ^ pieces.length + bytesIn hex pieces := by
  rw [bytesIn, List.foldl_cons, foldl_bytes, Nat.zero_mul, Nat.zero_add]

theorem bytesIn_lt (bytes : ∀ s ∈ pieces, IsByte hex s) :
    bytesIn hex pieces < 256 ^ pieces.length := by
  induction pieces with
  | nil => exact Nat.one_pos
  | cons s pieces ih =>
    have rest := ih fun t member => bytes t (List.mem_cons_of_mem _ member)
    have small := (bytes s List.mem_cons_self).small
    rw [bytesIn_cons, List.length_cons, Nat.pow_succ']
    calc digitsIn hex s * 256 ^ pieces.length + bytesIn hex pieces
        < digitsIn hex s * 256 ^ pieces.length + 256 ^ pieces.length := Nat.add_lt_add_left rest _
      _ = (digitsIn hex s + 1) * 256 ^ pieces.length := by rw [Nat.add_mul, Nat.one_mul]
      _ ≤ 256 * 256 ^ pieces.length := Nat.mul_le_mul_right _ small

variable {text : String} {count : Nat}

theorem Writes.count_sep (writes : Writes hex sep count text n) (stop : sep ∈ stops) :
    text.toList.count sep = count - 1 := by
  obtain ⟨pieces, rfl, written, bytes, _⟩ := writes
  rw [written]
  exact count_separators bytes stop

theorem Writes.blankOut_eq (writes : Writes hex sep count text n) (stop : sep ∈ stops) :
    ∃ pieces, pieces.length = count ∧ (∀ s ∈ pieces, IsByte hex s) ∧ bytesIn hex pieces = n ∧
      blankOut sep text = [' '].intercalate pieces := by
  obtain ⟨pieces, length, written, bytes, value⟩ := writes
  refine ⟨pieces, length, bytes, value, ?_⟩
  unfold blankOut
  rw [written]
  exact map_separators bytes stop

/-- The address that is written is returned, whatever the variable holds. -/
theorem ipToNumberFrom_writes (writes : Writes false '.' 4 text n) :
    ipToNumberFrom tmp text = some n := by
  have dots := writes.count_sep (by decide)
  obtain ⟨pieces, length, bytes, value, blanks⟩ := writes.blankOut_eq (by decide)
  have read := @readBytes_pieces pieces tmp 0 bytes
  have nonempty : decide (pieces ≠ []) = true := by
    refine decide_eq_true fun empty => ?_
    rw [empty] at length
    cases length
  rw [length, nonempty] at read
  unfold ipToNumberFrom IStream.ofText
  rw [if_neg (not_not.mpr dots), blanks, read, ← value]
  rfl

theorem macToNumberFrom_writes (writes : Writes true ':' 6 text n) :
    macToNumberFrom tmp text = some (n / 2 ^ 32, n % 2 ^ 32) := by
  have colons := writes.count_sep (by decide)
  obtain ⟨pieces, length, bytes, value, blanks⟩ := writes.blankOut_eq (by decide)
  obtain ⟨a, pieces, rfl⟩ := List.exists_cons_of_length_eq_add_one length
  obtain ⟨b, pieces, rfl⟩ := List.exists_cons_of_length_eq_add_one (Nat.succ.inj length)
  have length : pieces.length = 4 := Nat.succ.inj (Nat.succ.inj length)
  have later : ∀ s ∈ pieces, IsByte true s := fun s member =>
    bytes s (List.mem_cons_of_mem _ (List.mem_cons_of_mem _ member))
  have nonempty : decide (pieces ≠ []) = true := by
    refine decide_eq_true fun empty => ?_
    rw [empty] at length
    cases length
  obtain ⟨first, after⟩ := @readUnsigned_pieces true a (b :: pieces) 0 bytes
  obtain ⟨second, rest⟩ := @readUnsigned_pieces true b pieces tmp fun s member =>
    bytes s (List.mem_cons_of_mem _ member)
  have low := @readHexBytes_pieces pieces (digitsIn true b) 0 later (by rw [length]; decide)
  rw [length, nonempty] at low
  have small := (bytes a List.mem_cons_self).small
  have small' := (bytes b (List.mem_cons_of_mem _ List.mem_cons_self)).small
  have word := bytesIn_lt later
  have split : n = digitsIn true a * 256 ^ (4 + 1) +
      (digitsIn true b * 256 ^ 4 + bytesIn true pieces) := by
    rw [← value, bytesIn_cons, bytesIn_cons, List.length_cons, length]
  have last : pieces.foldl (fun v s => v * 256 + digitsIn true s) 0 = bytesIn true pieces := rfl
  rw [length] at word
  unfold macToNumberFrom IStream.ofText
  rw [if_neg (not_not.mpr colons), blanks]
  dsimp only
  rw [first, after]
  have good : decide (b :: pieces ≠ []) = true := decide_eq_true (List.cons_ne_nil b pieces)
  have upper : (digitsIn true a * 256 + digitsIn true b) % 2 ^ 32 = n / 2 ^ 32 := by omega
  have lower : bytesIn true pieces = n % 2 ^ 32 := by omega
  rw [good, second, rest, nonempty, low, last, upper, lower]

/-! ## Texts that are refused -/

theorem skipBlanks_skipBlanks (s : List Char) : skipBlanks (skipBlanks s) = skipBlanks s :=
  List.dropWhile_idempotent _ _

theorem leadingNumber_skipBlanks (s : List Char) :
    leadingNumber (skipBlanks s) = leadingNumber s := by
  unfold leadingNumber
  rw [skipBlanks_skipBlanks]

theorem leadingNumbers_skipBlanks (count : Nat) (s : List Char) :
    leadingNumbers count (skipBlanks s) = leadingNumbers count s := by
  cases count with
  | zero => rfl
  | succ count =>
    rw [leadingNumbers, leadingNumbers, leadingNumber_skipBlanks]

/-- Without a number the stream fails, and the variable holds 0 or what it held. -/
theorem readUnsigned_of_none (none : leadingNumber s = none) :
    ((IStream.readUnsigned false tmp ⟨s, true⟩).1 = 0 ∨
      (IStream.readUnsigned false tmp ⟨s, true⟩).1 = tmp) ∧
      (IStream.readUnsigned false tmp ⟨s, true⟩).2.good = false := by
  unfold leadingNumber at none
  unfold IStream.readUnsigned
  simp only [Bool.not_true, Bool.false_eq_true, if_false, skipPrefix_dec, isDigitOf_dec]
  cases skipped : skipBlanks s with
  | nil => exact ⟨.inr rfl, rfl⟩
  | cons c t =>
    rw [skipped] at none
    dsimp only at none ⊢
    split at none
    · rename_i empty
      rw [if_pos empty]
      exact ⟨.inl rfl, rfl⟩
    · split at none <;> cases none

/-- A number is read, and a byte leaves the stream at the text after it. -/
theorem readUnsigned_of_some {v : Nat} (number : leadingNumber s = some (v, rest)) :
    (IStream.readUnsigned false tmp ⟨s, true⟩).1 = v ∧ (v ≤ 255 →
      (IStream.readUnsigned false tmp ⟨s, true⟩).2 = ⟨rest, rest ≠ []⟩) := by
  unfold leadingNumber at number
  unfold IStream.readUnsigned
  simp only [Bool.not_true, Bool.false_eq_true, if_false, skipPrefix_dec, isDigitOf_dec]
  cases skipped : skipBlanks s with
  | nil =>
    rw [skipped] at number
    cases number
  | cons c t =>
    rw [skipped] at number
    have value : ∀ digits : List Char,
        digits.foldl (fun v c => 10 * v + IStream.digitValue c) 0 = digitsIn false digits :=
      fun _ => rfl
    dsimp only at number ⊢
    rw [value]
    split at number
    · cases number
    · rename_i digits
      rw [if_neg digits]
      split at number
      · rename_i large
        cases number
        rw [if_pos large]
        exact ⟨rfl, fun small => absurd small (by decide)⟩
      · rename_i word
        cases number
        rw [if_neg word]
        exact ⟨rfl, fun _ => rfl⟩

/-- Once the stream has failed the variable is read again and again. -/
theorem readBytes_failed {ip : Nat} {st : IStream} (failed : st.good = false) (small : tmp ≤ 255) :
    readBytes n tmp ip st ≠ none := by
  induction n generalizing ip st with
  | zero => exact Option.some_ne_none _
  | succ n ih =>
    have kept : IStream.readUnsigned false tmp st = (tmp, st) := by
      rw [IStream.readUnsigned, failed]
      rfl
    have still : st.ws.good = false := by
      rw [IStream.ws, failed, Bool.false_and]
    rw [readBytes, kept]
    dsimp only
    rw [if_neg (by omega)]
    exact ih still

theorem ws_rest (rest : List Char) :
    IStream.ws ⟨rest, rest ≠ []⟩ = ⟨skipBlanks rest, skipBlanks rest ≠ []⟩ := by
  unfold IStream.ws
  dsimp only
  cases rest with
  | nil => rfl
  | cons c t =>
    have some : decide (c :: t ≠ []) = true := decide_eq_true (List.cons_ne_nil c t)
    rw [some, Bool.true_and]

/-- The loop is left by a number above 255 only. -/
theorem readBytes_eq_none_iff {ip : Nat} (small : tmp ≤ 255) :
    readBytes n tmp ip ⟨s, s ≠ []⟩ = none ↔ ∃ v ∈ leadingNumbers n s, 255 < v := by
  have no_number : ¬ ∃ v ∈ ([] : List Nat), 255 < v := by
    intro found
    obtain ⟨v, member, _⟩ := found
    exact List.not_mem_nil member
  induction n generalizing tmp ip s with
  | zero => exact iff_of_false (Option.some_ne_none _) no_number
  | succ n ih =>
    cases s with
    | nil =>
      exact iff_of_false (readBytes_failed rfl small) no_number
    | cons c t =>
      have good : decide (c :: t ≠ []) = true := decide_eq_true (List.cons_ne_nil c t)
      rw [good, readBytes, leadingNumbers]
      dsimp only
      cases number : leadingNumber (c :: t) with
      | none =>
        obtain ⟨value, failed⟩ := @readUnsigned_of_none (c :: t) tmp number
        have byte : (IStream.readUnsigned false tmp ⟨c :: t, true⟩).1 ≤ 255 := by omega
        have still : (IStream.readUnsigned false tmp ⟨c :: t, true⟩).2.ws.good = false := by
          rw [IStream.ws, failed, Bool.false_and]
        rw [if_neg (by omega)]
        exact iff_of_false (readBytes_failed still byte) no_number
      | some found =>
        obtain ⟨v, rest⟩ := found
        obtain ⟨value, after⟩ := @readUnsigned_of_some (c :: t) rest tmp v number
        dsimp only
        rw [value]
        by_cases large : v > 255
        · rw [if_pos large]
          exact iff_of_true rfl ⟨v, List.mem_cons_self, large⟩
        · have later : readBytes n v (ip * 256 + v) ⟨skipBlanks rest, skipBlanks rest ≠ []⟩ = none ↔
              ∃ w ∈ leadingNumbers n (skipBlanks rest), 255 < w := ih (by omega)
          rw [if_neg large, after (by omega), ws_rest, later, leadingNumbers_skipBlanks]
          constructor
          · intro found
            obtain ⟨w, member, above⟩ := found
            exact ⟨w, List.mem_cons_of_mem _ member, above⟩
          · intro found
            obtain ⟨w, member, above⟩ := found
            rcases List.mem_cons.mp member with rfl | later
            · exact absurd above large
            · exact ⟨w, later, above⟩

/-- What the variable holds makes no difference for a text that starts with a number. -/
theorem readBytes_congr {ip tmp' : Nat} (number : leadingNumber s ≠ none) :
    readBytes (n + 1) tmp ip ⟨s, true⟩ = readBytes (n + 1) tmp' ip ⟨s, true⟩ := by
  obtain ⟨⟨v, rest⟩, found⟩ := Option.ne_none_iff_exists'.mp number
  obtain ⟨value, after⟩ := @readUnsigned_of_some s rest tmp v found
  obtain ⟨value', after'⟩ := @readUnsigned_of_some s rest tmp' v found
  rw [readBytes, readBytes]
  dsimp only
  rw [value, value']
  by_cases large : v > 255
  · rw [if_pos large, if_pos large]
  · rw [if_neg large, if_neg large, after (by omega), after' (by omega)]

/-- A text with three dots is refused, whatever the variable holds, exactly if one of the numbers
that it starts with is above 255. -/
theorem refused_iff (dots : text.toList.count '.' = 3) :
    (∀ tmp, ipToNumberFrom tmp text = none) ↔
      ∃ v ∈ leadingNumbers 4 (blankOut '.' text), 255 < v := by
  have nonempty : blankOut '.' text ≠ [] := by
    intro empty
    have none := List.map_eq_nil_iff.mp empty
    rw [none] at dots
    cases dots
  have start : IStream.ofText (blankOut '.' text) =
      ⟨blankOut '.' text, blankOut '.' text ≠ []⟩ := by
    rw [IStream.ofText, decide_eq_true nonempty]
  have from_zero := @readBytes_eq_none_iff (blankOut '.' text) 0 4 0 (by decide)
  rw [← start] at from_zero
  unfold ipToNumberFrom
  simp only [dots, ne_eq, not_true_eq_false, if_false]
  constructor
  · intro refused
    exact from_zero.mp (refused 0)
  · intro large tmp
    have number : leadingNumber (blankOut '.' text) ≠ none := by
      intro none
      rw [leadingNumbers, none] at large
      obtain ⟨v, member, _⟩ := large
      exact List.not_mem_nil member
    exact (readBytes_congr number).trans (from_zero.mpr large)

/-! ## Texts that are written by the daemon -/

theorem isByte_toDigits {byte : Nat} (small : byte < 256) : IsByte false (Nat.toDigits 10 byte) ∧
    digitsIn false (Nat.toDigits 10 byte) = byte := by
  have all : ∀ d ∈ Nat.toDigits 10 byte, d.isDigit = true := fun d member =>
    Nat.isDigit_of_mem_toDigits (by decide) (by decide) member
  have value : digitsIn false (Nat.toDigits 10 byte) = byte :=
    (foldl_digitValue all).trans (digitsValue_toDigits byte)
  refine ⟨⟨Nat.toDigits_ne_nil, fun c member => ?_, by omega⟩, value⟩
  rw [isDigitOf_dec]
  exact all c member

theorem writes_ipToString (word : n < 2 ^ 32) : Writes false '.' 4 (ipToString n) n := by
  have byte : ∀ k, k % 256 < 256 := fun k => Nat.mod_lt k (by decide)
  have value : ∀ k, digitsIn false (Nat.toDigits 10 (k % 256)) = k % 256 := fun k =>
    (isByte_toDigits (byte k)).2
  refine ⟨[n / 256 ^ 3, n / 256 ^ 2, n / 256, n].map fun k => Nat.toDigits 10 (k % 256), rfl,
    ?_, fun s member => ?_, ?_⟩
  · rw [toList_ipToString]
    simp only [List.map_cons, List.map_nil, intercalate_cons, separated, List.append_nil]
  · obtain ⟨k, _, rfl⟩ := List.mem_map.mp member
    exact (isByte_toDigits (byte k)).1
  · unfold bytesIn
    simp only [List.map_cons, List.map_nil, List.foldl_cons, List.foldl_nil, value]
    omega

/-- Two hexadecimal digits. -/
def hexDigits (k : Nat) : List Char := [Nat.digitChar (k / 16 % 16), Nat.digitChar (k % 16)]

theorem isByte_hexDigits (k : Nat) : IsByte true (hexDigits k) ∧
    digitsIn true (hexDigits k) = k % 256 := by
  have digit : ∀ d < 16, IStream.isDigitOf true (Nat.digitChar d) = true ∧
      IStream.digitValue (Nat.digitChar d) = d := by decide
  obtain ⟨first, first_value⟩ := digit (k / 16 % 16) (Nat.mod_lt _ (by decide))
  obtain ⟨second, second_value⟩ := digit (k % 16) (Nat.mod_lt _ (by decide))
  have value : digitsIn true (hexDigits k) = k % 256 := by
    have base : baseOf true = 16 := rfl
    unfold digitsIn hexDigits
    rw [List.foldl_cons, List.foldl_cons, List.foldl_nil, base, first_value, second_value]
    omega
  refine ⟨⟨List.cons_ne_nil _ _, fun c member => ?_, ?_⟩, value⟩
  · rcases List.mem_cons.mp member with rfl | last
    · exact first
    · rw [List.mem_singleton.mp last]
      exact second
  · rw [value]
    exact Nat.mod_lt k (by decide)

theorem writes_macToString {high low : Nat} (upper : high < 2 ^ 16) (lower : low < 2 ^ 32) :
    Writes true ':' 6 (macToString high low) (high * 2 ^ 32 + low) := by
  refine ⟨[high / 256, high, low / 256 ^ 3, low / 256 ^ 2, low / 256, low].map hexDigits, rfl,
    ?_, fun s member => ?_, ?_⟩
  · unfold macToString
    rw [String.toList_intercalate]
    simp only [List.map_cons, List.map_nil, hexByte, String.toList_ofList]
    rfl
  · obtain ⟨k, _, rfl⟩ := List.mem_map.mp member
    exact (isByte_hexDigits k).1
  · unfold bytesIn
    simp only [List.map_cons, List.map_nil, List.foldl_cons, List.foldl_nil,
      (isByte_hexDigits _).2]
    omega

/-! ## Exact conversions -/

/-- The texts that are accepted are the addresses, with their numbers. -/
def IpExact (text : String) : Prop :=
  ∀ tmp n, ipToNumberFrom tmp text = some n ↔ Writes false '.' 4 text n

/-- The texts that are accepted are the MAC addresses, with their numbers. -/
def MacExact (text : String) : Prop :=
  ∀ tmp high low, macToNumberFrom tmp text = some (high, low) ↔
    low < 2 ^ 32 ∧ Writes true ':' 6 text (high * 2 ^ 32 + low)

theorem ipExact_iff : IpExact text ↔ text.toList.count '.' ≠ 3 ∨
    (∃ n, Writes false '.' 4 text n) ∨
      ∃ v ∈ leadingNumbers 4 (blankOut '.' text), 255 < v := by
  by_cases dots : text.toList.count '.' = 3
  · rw [or_iff_right (not_not.mpr dots)]
    by_cases written : ∃ n, Writes false '.' 4 text n
    · obtain ⟨k, writes⟩ := written
      refine iff_of_true (fun tmp n => ?_) (.inl ⟨k, writes⟩)
      constructor
      · intro read
        rw [ipToNumberFrom_writes writes] at read
        cases read
        exact writes
      · exact ipToNumberFrom_writes
    · rw [or_iff_right written, ← refused_iff dots]
      constructor
      · intro holds tmp
        refine Option.eq_none_iff_forall_ne_some.mpr fun n read => ?_
        exact written ⟨n, (holds tmp n).mp read⟩
      · intro refused tmp n
        rw [refused tmp]
        exact iff_of_false nofun fun writes => written ⟨n, writes⟩
  · refine iff_of_true (fun tmp n => ?_) (.inl dots)
    unfold ipToNumberFrom
    rw [if_pos dots]
    exact iff_of_false nofun fun writes => dots (writes.count_sep (by decide))

theorem macExact_iff : MacExact text ↔ text.toList.count ':' ≠ 5 ∨
    ∃ n, Writes true ':' 6 text n := by
  by_cases colons : text.toList.count ':' = 5
  · rw [or_iff_right (not_not.mpr colons)]
    constructor
    · intro holds
      -- such a text is always accepted
      have read : ∃ high low, macToNumberFrom 0 text = some (high, low) := by
        unfold macToNumberFrom
        rw [if_neg (not_not.mpr colons)]
        exact ⟨_, _, rfl⟩
      obtain ⟨high, low, read⟩ := read
      exact ⟨_, ((holds 0 high low).mp read).2⟩
    · intro ⟨k, writes⟩ tmp high low
      constructor
      · intro read
        rw [macToNumberFrom_writes writes] at read
        cases read
        refine ⟨Nat.mod_lt k (by decide), ?_⟩
        rw [Nat.div_add_mod']
        exact writes
      · intro ⟨word, own⟩
        have upper : (high * 2 ^ 32 + low) / 2 ^ 32 = high := by omega
        have lower : (high * 2 ^ 32 + low) % 2 ^ 32 = low := by omega
        rw [macToNumberFrom_writes own, upper, lower]
  · refine iff_of_true (fun tmp high low => ?_) (.inl colons)
    unfold macToNumberFrom
    rw [if_pos colons]
    exact iff_of_false nofun fun both => colons (both.2.count_sep (by decide))

theorem xor_two {byte : Nat} (small : byte < 256) :
    byte ^^^ 2 = if byte / 2 % 2 = 1 then byte - 2 else byte + 2 := by
  have all : ∀ byte < 256, byte ^^^ 2 = if byte / 2 % 2 = 1 then byte - 2 else byte + 2 := by
    decide +kernel
  exact all byte small

/-- Adding sets the universal/local bit where it is clear. -/
theorem macToEui64_eq_iff {high low : Nat} (upper : high < 2 ^ 16) (lower : low < 2 ^ 32) :
    macToEui64 high low = modifiedEui64 high low ↔ high.testBit 9 = false := by
  have bit : high.testBit 9 = decide (high / 256 / 2 % 2 = 1) := by
    rw [Nat.testBit_eq_decide_div_mod_eq, Nat.div_div_eq_div_mul]
  have inverted := @xor_two (high / 256) (by omega)
  unfold macToEui64 modifiedEui64 wordsOfBytes
  rw [bit, decide_eq_false_iff_not, inverted, Prod.mk.injEq]
  simp only [List.take_succ_cons, List.take_zero, List.drop_succ_cons, List.drop_zero,
    List.foldl_cons, List.foldl_nil]
  split
  · omega
  · omega

/-- What the conversions of two texts and of two addresses are to be. -/
structure AddressConversions (ip mac : String) (n high low : Nat) : Prop where
  ip_exact : IpExact ip
  mac_exact : MacExact mac
  ip_round : ∀ tmp, ipToNumberFrom tmp (ipToString n) = some n
  mac_round : ∀ tmp, macToNumberFrom tmp (macToString high low) = some (high, low)
  eui64 : macToEui64 high low = modifiedEui64 high low

theorem mac_round {high low : Nat} (upper : high < 2 ^ 16) (lower : low < 2 ^ 32) :
    macToNumberFrom tmp (macToString high low) = some (high, low) := by
  have first : (high * 2 ^ 32 + low) / 2 ^ 32 = high := by omega
  have second : (high * 2 ^ 32 + low) % 2 ^ 32 = low := by omega
  rw [macToNumberFrom_writes (writes_macToString upper lower), first, second]

/-- The conversions of the numbers are exact. A text is converted exactly if it is an address, or
has other separators, or if it starts with a number above 255; every MAC address is accepted that
has five colons. The identifier is the modified one exactly if the universal/local bit is clear. -/
theorem conversions_exact_iff (ip mac : String) (n high low : Nat) (word : n < 2 ^ 32)
    (upper : high < 2 ^ 16) (lower : low < 2 ^ 32) :
    AddressConversions ip mac n high low ↔
      (ip.toList.count '.' ≠ 3 ∨ (∃ k, Writes false '.' 4 ip k) ∨
        ∃ v ∈ leadingNumbers 4 (blankOut '.' ip), 255 < v) ∧
      (mac.toList.count ':' ≠ 5 ∨ ∃ k, Writes true ':' 6 mac k) ∧ high.testBit 9 = false := by
  rw [← ipExact_iff, ← macExact_iff, ← macToEui64_eq_iff upper lower]
  constructor
  · intro all
    exact ⟨all.ip_exact, all.mac_exact, all.eui64⟩
  · intro ⟨ip_exact, mac_exact, eui64⟩
    exact ⟨ip_exact, mac_exact, fun _ => ipToNumberFrom_writes (writes_ipToString word),
      fun _ => mac_round upper lower, eui64⟩

/-- A text with a number above 255 is no address, and a multicast address has no local bit. -/
theorem conversions_exact_multicast :
    AddressConversions "10.0.0.256" "01:00:5e:00:00:01" 3232235778 256 1577058305 := by
  have text : macToString 256 1577058305 = "01:00:5e:00:00:01" := by decide
  exact (conversions_exact_iff _ _ _ _ _ (by decide) (by decide) (by decide)).mpr
    ⟨.inr (.inr ⟨256, by decide, by decide⟩),
      .inr ⟨_, text ▸ writes_macToString (by decide) (by decide)⟩, by decide⟩

theorem Writes.mem {count : Nat} (writes : Writes hex sep count text n) {c : Char}
    (member : c ∈ text.toList) : c = sep ∨ IStream.isDigitOf hex c = true := by
  obtain ⟨pieces, -, is, bytes, -⟩ := writes
  rw [is] at member
  clear is
  induction pieces with
  | nil => cases member
  | cons s pieces ih =>
    rw [intercalate_cons] at member
    rcases List.mem_append.mp member with first | later
    · exact .inr ((bytes s List.mem_cons_self).digits c first)
    · cases pieces with
      | nil => cases later
      | cons t pieces =>
        rcases List.mem_cons.mp later with rfl | later
        · exact .inl rfl
        · exact ih later fun u member => bytes u (List.mem_cons_of_mem _ member)

/-- What follows the last number is not looked at, and adding the bit of the default prefix carries
into the next one. -/
theorem address_conversions_wrong :
    ¬ AddressConversions "1.2.3.4x" "02:00:c0:a8:01:02" 0 0 0 ∧
      ¬ AddressConversions "1.2.3.4" "02:00:c0:a8:01:0g" 0 0 0 ∧
      ¬ AddressConversions "1.2.3.4" "02:00:c0:a8:01:02" 0 512 3232235778 := by
  refine ⟨fun holds => ?_, fun holds => ?_, fun holds => ?_⟩
  · rcases ipExact_iff.mp holds.ip_exact with dots | ⟨k, writes⟩ | above
    · exact dots (by decide)
    · have digit := writes.mem (show 'x' ∈ "1.2.3.4x".toList by decide)
      exact absurd digit (by decide)
    · exact absurd above (by decide)
  · rcases macExact_iff.mp holds.mac_exact with colons | ⟨k, writes⟩
    · exact colons (by decide)
    · have digit := writes.mem (show 'g' ∈ "02:00:c0:a8:01:0g".toList by decide)
      exact absurd digit (by decide)
  · exact absurd holds.eui64 (by decide)

end Ezilla
