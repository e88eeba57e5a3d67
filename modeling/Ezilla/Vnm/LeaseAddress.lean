import Ezilla.Template

/-!
# Addresses of leases

`ip_to_number` and `mac_to_number` read the numbers of an address from an
`istringstream`, one `>>` after the other. `IStream` keeps the text that is left and
whether the stream is still good: a read that fails, or that reaches the end of the
text, leaves every later read without effect.
-/

namespace Ezilla

/-- The text left in an `istringstream`, and whether its state is good. -/
structure IStream where
  rest : List Char
  good : Bool

namespace IStream

/-- `str(text)` on a new stream. -/
def ofText (text : List Char) : IStream := ⟨text, true⟩

/-- The value of a digit in bases up to 16. -/
def digitValue (c : Char) : Nat :=
  if c.isDigit then c.toNat - '0'.toNat else c.toLower.toNat - 'a'.toNat + 10

/-- The digits of the base that `>> hex` or `>> dec` selected. -/
def isDigitOf (hex : Bool) (c : Char) : Bool :=
  c.isDigit || hex && ('a' ≤ c.toLower && c.toLower ≤ 'f')

/-- In base 16 a number may start with `0x`. -/
def skipPrefix (hex : Bool) : List Char → List Char
  | '0' :: 'x' :: s => if hex then s else '0' :: 'x' :: s
  | '0' :: 'X' :: s => if hex then s else '0' :: 'X' :: s
  | s => s

/-- `>> tmp` for an unsigned int: the new value of `tmp`, and the stream after it. `tmp`
keeps its value when the stream is not good or has nothing left, and becomes 0 when what
is left is not a number. -/
def readUnsigned (hex : Bool) (tmp : Nat) (st : IStream) : Nat × IStream :=
  if !st.good then
    (tmp, st)
  else
    match skipBlanks st.rest with
    | [] => (tmp, ⟨[], false⟩)
    | c :: s =>
      let (minus, s) := readSign (c :: s)
      let s := skipPrefix hex s
      let digits := s.takeWhile (isDigitOf hex)
      let rest := s.dropWhile (isDigitOf hex)
      if digits = [] then
        (0, ⟨rest, false⟩)
      else
        let base := if hex then 16 else 10
        let v := digits.foldl (fun v c => base * v + digitValue c) 0
        if 2 ^ 32 ≤ v then (2 ^ 32 - 1, ⟨rest, false⟩)
        else (if minus then (2 ^ 32 - v) % 2 ^ 32 else v, ⟨rest, rest ≠ []⟩)

/-- `>> ws`. -/
def ws (st : IStream) : IStream :=
  let rest := skipBlanks st.rest
  ⟨rest, st.good && rest ≠ []⟩

end IStream

/-- The text with every separator replaced by a blank. -/
def blankOut (sep : Char) (text : String) : List Char :=
  text.toList.map fun c => if c = sep then ' ' else c

/-- The loop of `ip_to_number`: each number is read into the same variable `tmp` and
shifted in; a number above 255 ends it. -/
def readBytes : Nat → Nat → Nat → IStream → Option Nat
  | 0, _, ip, _ => some ip
  | n + 1, tmp, ip, st =>
    let (tmp, st) := st.readUnsigned false tmp
    if tmp > 255 then none else readBytes n tmp (ip * 256 + tmp) st.ws

/-- `Leases::Lease::ip_to_number`, `none` for its error. The variable `tmp` is not
initialised in the source; 0 stands for what it holds. -/
def ipToNumber (ip : String) : Option Nat :=
  if ip.toList.count '.' ≠ 3 then none
  else readBytes 4 0 0 (IStream.ofText (blankOut '.' ip))

/-- The last four numbers of a MAC address, shifted in modulo 2^32. -/
def readHexBytes : Nat → Nat → Nat → IStream → Nat
  | 0, _, mac, _ => mac
  | n + 1, tmp, mac, st =>
    let (tmp, st) := st.readUnsigned true tmp
    readHexBytes n tmp ((mac * 256 + tmp) % 2 ^ 32) st.ws

/-- `Leases::Lease::mac_to_number`: the prefix (`mac[1]`) and the suffix (`mac[0]`). -/
def macToNumber (mac : String) : Option (Nat × Nat) :=
  if mac.toList.count ':' ≠ 5 then
    none
  else
    let st := IStream.ofText (blankOut ':' mac)
    let (high, st) := st.readUnsigned true 0
    let (tmp, st) := st.ws.readUnsigned true 0
    some ((high * 256 + tmp) % 2 ^ 32, readHexBytes 4 tmp 0 st.ws)

/-- `Leases::Lease::ip_to_string`. -/
def ipToString (ip : Nat) : String :=
  toString (ip / 256 ^ 3 % 256) ++ "." ++ toString (ip / 256 ^ 2 % 256) ++ "." ++
    toString (ip / 256 % 256) ++ "." ++ toString (ip % 256)

/-! ## Addresses are words -/

theorem readBytes_lt {n tmp ip k : Nat} {st : IStream} (read : readBytes n tmp ip st = some k) :
    k < (ip + 1) * 256 ^ n := by
  induction n generalizing tmp ip st with
  | zero =>
    cases read
    omega
  | succ n ih =>
    unfold readBytes at read
    dsimp only at read
    split at read
    · cases read
    · rename_i byte
      have shifted := ih read
      have room : ip * 256 + (st.readUnsigned false tmp).1 + 1 ≤ (ip + 1) * 256 := by omega
      calc k < (ip * 256 + (st.readUnsigned false tmp).1 + 1) * 256 ^ n := shifted
        _ ≤ (ip + 1) * 256 * 256 ^ n := Nat.mul_le_mul_right _ room
        _ = (ip + 1) * 256 ^ (n + 1) := by rw [Nat.pow_succ, Nat.mul_assoc, Nat.mul_comm 256]

theorem ipToNumber_lt {ip : String} {k : Nat} (read : ipToNumber ip = some k) : k < 2 ^ 32 := by
  unfold ipToNumber at read
  split at read
  · cases read
  · exact readBytes_lt read

theorem readHexBytes_lt {n tmp mac : Nat} {st : IStream} (small : mac < 2 ^ 32) :
    readHexBytes n tmp mac st < 2 ^ 32 := by
  induction n generalizing tmp mac st with
  | zero => exact small
  | succ n ih => exact ih (Nat.mod_lt _ (by decide))

theorem macToNumber_lt {mac : String} {number : Nat × Nat} (read : macToNumber mac = some number) :
    number.2 < 2 ^ 32 := by
  unfold macToNumber at read
  split at read
  · cases read
  · cases read
    exact readHexBytes_lt (by decide)

/-! ## An address that is read back -/

theorem skipPrefix_dec (s : List Char) : IStream.skipPrefix false s = s := by
  unfold IStream.skipPrefix
  split <;> rfl

theorem isDigitOf_dec : IStream.isDigitOf false = Char.isDigit := by
  funext c
  rw [IStream.isDigitOf, Bool.false_and, Bool.or_false]

/-- Digits have their decimal value in every base. -/
theorem foldl_digitValue {s : List Char} {v : Nat} (digits : ∀ c ∈ s, c.isDigit = true) :
    s.foldl (fun v c => 10 * v + IStream.digitValue c) v =
      s.foldl (fun v c => 10 * v + (c.toNat - '0'.toNat)) v := by
  induction s generalizing v with
  | nil => rfl
  | cons c s ih =>
    have digit : IStream.digitValue c = c.toNat - '0'.toNat :=
      if_pos (digits c List.mem_cons_self)
    rw [List.foldl_cons, List.foldl_cons, digit]
    exact ih fun d member => digits d (List.mem_cons_of_mem c member)

/-- A number that ends at a blank, or at the end of the text, is read. -/
theorem readUnsigned_toDigits {tmp n : Nat} {rest : List Char} (word : n < 2 ^ 32)
    (stop : ∀ c s, rest = c :: s → c.isDigit = false) :
    IStream.readUnsigned false tmp ⟨Nat.toDigits 10 n ++ rest, true⟩ =
      (n, ⟨rest, rest ≠ []⟩) := by
  obtain ⟨c, s, digits, digit⟩ := toDigits_cons n
  have all : ∀ d ∈ Nat.toDigits 10 n, d.isDigit = true := fun d member =>
    Nat.isDigit_of_mem_toDigits (by decide) (by decide) member
  have skipped : skipBlanks (Nat.toDigits 10 n ++ rest) = c :: (s ++ rest) := by
    rw [skipBlanks_toDigits, digits, List.cons_append]
  have whole : c :: (s ++ rest) = Nat.toDigits 10 n ++ rest := by rw [digits, List.cons_append]
  have ended : rest.takeWhile Char.isDigit = [] ∧ rest.dropWhile Char.isDigit = rest := by
    cases rest with
    | nil => exact ⟨rfl, rfl⟩
    | cons d t =>
      have other := stop d t rfl
      rw [List.takeWhile_cons, List.dropWhile_cons, other]
      exact ⟨rfl, rfl⟩
  have value : (Nat.toDigits 10 n).foldl (fun v c => 10 * v + IStream.digitValue c) 0 = n :=
    (foldl_digitValue all).trans (digitsValue_toDigits n)
  unfold IStream.readUnsigned
  simp only [Bool.not_true, Bool.false_eq_true, if_false, skipped, readSign_of_isDigit digit,
    skipPrefix_dec, isDigitOf_dec]
  rw [whole, List.takeWhile_append_of_pos all, List.dropWhile_append_of_pos all, ended.1, ended.2,
    List.append_nil, if_neg Nat.toDigits_ne_nil, value, if_neg (by omega)]

/-- One byte of an address, before a blank and the next number. -/
theorem readBytes_blank {n tmp ip byte next : Nat} {rest : List Char} (small : byte < 256) :
    readBytes (n + 1) tmp ip ⟨Nat.toDigits 10 byte ++ ' ' :: (Nat.toDigits 10 next ++ rest), true⟩ =
      readBytes n byte (ip * 256 + byte) ⟨Nat.toDigits 10 next ++ rest, true⟩ := by
  have read := @readUnsigned_toDigits tmp byte (' ' :: (Nat.toDigits 10 next ++ rest)) (by omega)
    fun d t is => by cases is; rfl
  have skipped : skipBlanks (' ' :: (Nat.toDigits 10 next ++ rest)) =
      Nat.toDigits 10 next ++ rest := skipBlanks_toDigits next rest
  have nonempty : Nat.toDigits 10 next ++ rest ≠ [] :=
    List.append_ne_nil_of_left_ne_nil Nat.toDigits_ne_nil rest
  have spaced : (' ' :: (Nat.toDigits 10 next ++ rest)) ≠ [] := List.cons_ne_nil _ _
  rw [readBytes, read]
  simp only [if_neg (show ¬ byte > 255 by omega), IStream.ws, skipped, spaced, nonempty, ne_eq,
    not_false_eq_true, decide_true, Bool.and_self]

/-- The last byte of an address. -/
theorem readBytes_end {tmp ip byte : Nat} (small : byte < 256) :
    readBytes 1 tmp ip ⟨Nat.toDigits 10 byte, true⟩ = some (ip * 256 + byte) := by
  have read := @readUnsigned_toDigits tmp byte [] (by omega) fun d t is => by cases is
  rw [List.append_nil] at read
  rw [readBytes, read]
  exact if_neg (by omega)

theorem dot_notMem_toDigits (n : Nat) : '.' ∉ Nat.toDigits 10 n := fun member => by
  have digit := Nat.isDigit_of_mem_toDigits (by decide) (by decide) member
  cases digit

theorem map_blank_toDigits (n : Nat) :
    (Nat.toDigits 10 n).map (fun c => if c = '.' then ' ' else c) = Nat.toDigits 10 n := by
  have same : ∀ c ∈ Nat.toDigits 10 n, (if c = '.' then ' ' else c) = id c := fun c member =>
    if_neg fun is => dot_notMem_toDigits n (by rwa [is] at member)
  rw [List.map_congr_left same, List.map_id]

theorem toList_ipToString (ip : Nat) :
    (ipToString ip).toList = Nat.toDigits 10 (ip / 256 ^ 3 % 256) ++ '.' ::
      (Nat.toDigits 10 (ip / 256 ^ 2 % 256) ++ '.' ::
        (Nat.toDigits 10 (ip / 256 % 256) ++ '.' :: (Nat.toDigits 10 (ip % 256)))) := by
  have dot : ".".toList = ['.'] := rfl
  have digits : ∀ n : Nat, (toString n).toList = Nat.toDigits 10 n := fun n => Nat.toList_repr
  unfold ipToString
  simp only [String.toList_append, digits, dot, List.append_assoc, List.cons_append, List.nil_append]

/-- The text of an address has the address as its number. -/
theorem ipToNumber_ipToString {ip : Nat} (word : ip < 2 ^ 32) :
    ipToNumber (ipToString ip) = some ip := by
  have dots : (ipToString ip).toList.count '.' = 3 := by
    rw [toList_ipToString]
    simp only [List.count_append, List.count_cons_self,
      List.count_eq_zero_of_not_mem (dot_notMem_toDigits _)]
  have blanks : blankOut '.' (ipToString ip) = Nat.toDigits 10 (ip / 256 ^ 3 % 256) ++ ' ' ::
      (Nat.toDigits 10 (ip / 256 ^ 2 % 256) ++ ' ' ::
        (Nat.toDigits 10 (ip / 256 % 256) ++ ' ' :: (Nat.toDigits 10 (ip % 256) ++ []))) := by
    unfold blankOut
    rw [toList_ipToString]
    simp only [List.map_append, List.map_cons, if_true, map_blank_toDigits, List.append_nil]
  have byte : ∀ n, n % 256 < 256 := fun n => Nat.mod_lt n (by decide)
  have whole : (((0 * 256 + ip / 256 ^ 3 % 256) * 256 + ip / 256 ^ 2 % 256) * 256 +
      ip / 256 % 256) * 256 + ip % 256 = ip := by omega
  unfold ipToNumber
  rw [if_neg (by rw [dots]; decide), blanks, IStream.ofText, readBytes_blank (byte _),
    readBytes_blank (byte _), readBytes_blank (byte _), List.append_nil, readBytes_end (byte _),
    whole]

example : ipToNumber "192.168.1.2" = some 3232235778 := by decide

end Ezilla
